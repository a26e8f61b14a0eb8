import Concord.Text.Quoted
/-!
Mistakes in a command line. Each is reported as one text and ends the program with status two.
-/

namespace Concord.CommandLine

inductive Mistake
  | noSuchOption (name : String)
  | takesNoValue (name : String)
  | needsValue (name : String)
  | invalidValue (hint text : String)
  | extraArguments (arguments : List String)
  | noSuchCommand (name : String)
  | missingCommand
  | missingCatalog
  deriving DecidableEq, Repr

/-- How an option is named in a complaint about its value. -/
def optionHint (names : List String) : String :=
  String.intercalate " / " (names.map Text.quoted)

namespace Mistake

def text : Mistake → String
  | .noSuchOption n => s!"No such option: {n}"
  | .takesNoValue n => s!"Option {Text.quoted n} does not take a value."
  | .needsValue n => s!"Option {Text.quoted n} requires an argument."
  | .invalidValue h t => s!"Invalid value for {h}: {t}"
  | .extraArguments [a] => s!"Got unexpected extra argument ({a})"
  | .extraArguments as => "Got unexpected extra arguments (" ++ String.intercalate " " as ++ ")"
  | .noSuchCommand n => s!"No such command {Text.quoted n}."
  | .missingCommand => "Missing command."
  | .missingCatalog =>
      "No catalog module given.\n\n" ++
      "Pass it as an argument or set RECIPE_PARITY_CATALOG, e.g.:\n" ++
      "  recipe-parity run mypkg.parity_catalog\n" ++
      "  export RECIPE_PARITY_CATALOG=mypkg.parity_catalog"

def report (m : Mistake) : String := s!"Error: {m.text}\n"

end Mistake

end Concord.CommandLine
