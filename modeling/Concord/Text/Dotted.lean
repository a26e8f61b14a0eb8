/-!
Dotted names, each of which lies below the names that its leading parts make.
-/

namespace Concord.Text

def dottedParts (name : String) : List String := (name.toList.splitOn '.').map String.ofList

/-- The names that lead to a dotted name, and the name itself, shortest first. -/
def ancestry (name : String) : List String :=
  let parts := dottedParts name
  (List.range parts.length).map fun n => String.intercalate "." (parts.take (n + 1))

def topName (name : String) : String := String.ofList (name.toList.takeWhile (· != '.'))

end Concord.Text
