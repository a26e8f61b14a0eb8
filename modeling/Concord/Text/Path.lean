/-!
File paths in their shortest form: repeated separators and references to the same directory are
dropped.
-/

namespace Concord.Text

/-- The shortest form of a path, which names the current directory if nothing is left. -/
def shortPath (path : String) : String :=
  let parts := (path.toList.splitOn '/').filter fun p => !p.isEmpty && p != ['.']
  let body := String.intercalate "/" (parts.map String.ofList)
  let root := if path.toList.head? = some '/' then "/" else ""
  if (root ++ body).isEmpty then "." else root ++ body

end Concord.Text
