import Concord.Text.Find
/-!
Keys of test units: a backend, a contract and a scenario. A key is displayed as its three parts with
a separator between them, so no part may hold the separator.
-/

namespace Concord

/-- What stands between the parts of a displayed key. -/
def keySeparator : String := "::"

structure Key where
  backend : String
  contract : String
  scenario : String
  deriving DecidableEq, Repr, Inhabited

def Key.text (k : Key) : String :=
  String.intercalate keySeparator [k.backend, k.contract, k.scenario]

/-- A name that can be a part of a key: not empty, and free of the separator. -/
def isKeyPart (name : String) : Bool := !name.isEmpty && !Text.contains name keySeparator

end Concord
