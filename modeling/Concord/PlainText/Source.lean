import Concord.Text.Find
import Concord.Text.Names
/-!
Source files as plain text: the tree of the reference backends. A source file has a text, the
language level that it was read at, and the markers that recipes left on it.
-/

namespace Concord.PlainText

structure Source where
  text : String
  level : Int
  markers : List String := []
  deriving DecidableEq, Repr

namespace Source

def lines (s : Source) : List String := Text.lines s.text

def withText (s : Source) (text : String) : Source := { s with text }

def withMarker (s : Source) (marker : String) : Source :=
  { s with markers := s.markers ++ [marker] }

end Source

/-- The language levels that brought features, and what each of them added. -/
def featureLevels : List (Int × List String) :=
  [(8, ["generics", "annotations", "lambdas", "imports"]),
   (9, ["modules"]),
   (10, ["var"]),
   (11, ["var-lambda-parameters"])]

/-- The features of a language level: those that it and the levels below it brought. -/
def features (level : Int) : NameSet :=
  .ofList ((featureLevels.filter fun f => f.1 ≤ level).flatMap (·.2))

end Concord.PlainText
