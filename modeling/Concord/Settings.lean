import Concord.Environment
import Concord.Execute
import Concord.Text.Blank
import Concord.Text.Integer
/-!
Settings from environment variables: the catalog, the gate's environment and the number of replays.
-/

namespace Concord

/-- Environment variables. A later entry of a name replaces an earlier one. -/
abbrev Variables := List (String × String)

namespace Settings

def catalogVariable : String := "RECIPE_PARITY_CATALOG"
def debugOnlyVariable : String := "RECIPE_PARITY_INCLUDE_DEBUG_ONLY"
def resourcesVariable : String := "RECIPE_PARITY_RESOURCES"
def replaysVariable : String := "RECIPE_PARITY_REPLAYS"

/-- The value of a variable; one that is not set is empty. -/
def value (vars : Variables) (name : String) : String := (vars.lookup name).getD ""

@[simp] theorem value_setEntry (vars : Variables) (name text : String) :
    value (setEntry name text vars) name = text := by simp [value]

/-- The catalog's module, which must be set and not empty. -/
def catalog (vars : Variables) : Except Fault String :=
  if (value vars catalogVariable).isEmpty then .error .catalogNotSet
  else .ok (value vars catalogVariable)

def yesWords : List String := ["1", "true", "yes", "on"]

/-- Whether debug-only bindings are included. Case and blanks around the word do not matter. -/
def includeDebugOnly (vars : Variables) : Bool :=
  String.ofList ((Text.stripChars (value vars debugOnlyVariable).toList).map Char.toLower)
    ∈ yesWords

def resources (vars : Variables) : NameSet :=
  .ofList (Text.items (value vars resourcesVariable))

/-- The number of replays in a text, the default for a blank one. -/
def readReplays (text : String) : Except Fault Nat :=
  let raw := Text.strip text
  if raw.isEmpty then .ok defaultReplays
  else
    match Text.integer? raw.toList with
    | none => .error (.invalidSetting replaysVariable raw "not an integer" (some "ValueError"))
    | some n =>
        if n < 1 then .error (.invalidSetting replaysVariable raw "must be at least 1" none)
        else .ok n.toNat

def replays (vars : Variables) : Except Fault Nat := readReplays (value vars replaysVariable)

/-- The environment of the gate, with the given probes. -/
def environment {σ : Type} (vars : Variables) (probes : List (String × Probe σ)) :
    Environment σ :=
  { Environment.make (includeDebugOnly vars) [] probes with resources := resources vars }

/-- The number of replays that was asked for, or else that of the settings. Zero asks for none. -/
def chosenReplays (vars : Variables) (asked : Option Int) : Except Fault Nat :=
  match asked with
  | none => replays vars
  | some 0 => replays vars
  | some n => checkReplays n

end Settings

end Concord
