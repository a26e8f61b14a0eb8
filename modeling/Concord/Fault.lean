import Concord.Key
import Concord.Text.Names
import Concord.Text.Quoted
/-!
Everything that can go wrong, by cause. The wording of a fault stands in `Fault.message` and its
class in `Fault.label`; `Fault.isOrdinary` tells the faults that the harness contains from the
interrupts that pass through it.
-/

namespace Concord

/-- How the harness tells apart the errors from outside its own vocabulary. -/
inductive Breakdown.Kind
  | plain
  /-- A missing key, whose text is shown in quotes. -/
  | key
  /-- A module that cannot be imported. -/
  | importing
  /-- The end of the input, which aborts a program like an interrupt. -/
  | ended
  | interrupt
  | exit
  /-- Something else that no handler of ordinary errors catches. -/
  | drastic
  deriving DecidableEq, Repr

/-- Interrupts and requests to exit are not ordinary, nor is what else passes a handler of ordinary
errors. -/
def Breakdown.Kind.isOrdinary : Breakdown.Kind → Bool
  | .interrupt | .exit | .drastic => false
  | _ => true

/-- A class of errors from outside the harness's own vocabulary, under its name: from parsers,
recipes, constructors and probes, and from malformed arguments. -/
structure Breakdown where
  label : String
  kind : Breakdown.Kind := .plain
  deriving DecidableEq, Repr

namespace Breakdown

def runtime : Breakdown := ⟨"RuntimeError", .plain⟩
def value : Breakdown := ⟨"ValueError", .plain⟩
def key : Breakdown := ⟨"KeyError", .key⟩
def os : Breakdown := ⟨"OSError", .plain⟩
def assertion : Breakdown := ⟨"AssertionError", .plain⟩
def type : Breakdown := ⟨"TypeError", .plain⟩
def lookup : Breakdown := ⟨"LookupError", .plain⟩
def notImplemented : Breakdown := ⟨"NotImplementedError", .plain⟩
def importing : Breakdown := ⟨"ImportError", .importing⟩
def moduleNotFound : Breakdown := ⟨"ModuleNotFoundError", .importing⟩
def noAttribute : Breakdown := ⟨"AttributeError", .plain⟩
def index : Breakdown := ⟨"IndexError", .plain⟩
def zeroDivision : Breakdown := ⟨"ZeroDivisionError", .plain⟩
def overflow : Breakdown := ⟨"OverflowError", .plain⟩
def encoding : Breakdown := ⟨"UnicodeEncodeError", .plain⟩
def interrupt : Breakdown := ⟨"KeyboardInterrupt", .interrupt⟩
def exit : Breakdown := ⟨"SystemExit", .exit⟩

end Breakdown

/-- The groups that the harness's own faults fall into. -/
inductive Family
  | harness
  | catalog
  | composition
  deriving DecidableEq, Repr

inductive Fault
  | breakdown (error : Breakdown) (text : String)
  | general (family : Family) (text : String)
  | unknownContract (contract : String)
  | duplicateContract (contract : String)
  | duplicateBackend (backend : String)
  | unusableModule (name reason : String) (cause : Option String)
  | missingFeatures (backend contract : String) (missing : NameSet)
  | duplicateUnit (key : Key)
  | backendTrouble (backend text : String)
  | unregistered (backend : String)
  | construction (backend reason : String) (cause : Option String)
  | scenarioTrouble (key : Key) (expected : String) (actual : Option String) (text : String)
  | mismatch (key : Key) (expected actual what : String)
  | flaky (key : Key) (expected : String) (renderings : List String)
  | illegalMove (key : Key) (current target : String)
  | invalidSetting (name value reason : String) (cause : Option String)
  | catalogNotSet
  deriving DecidableEq

def distinctCount {α : Type} [DecidableEq α] : List α → Nat
  | [] => 0
  | x :: xs => if x ∈ xs then distinctCount xs else distinctCount xs + 1

namespace Fault

def label : Fault → String
  | .breakdown b _ => b.label
  | .general .harness _ => "ParityError"
  | .general .catalog _ => "CatalogError"
  | .general .composition _ => "CompositionError"
  | .unknownContract _ => "UnknownContractError"
  | .duplicateContract _ => "DuplicateContractError"
  | .duplicateBackend _ => "DuplicateBackendError"
  | .unusableModule _ _ _ => "CatalogModuleError"
  | .missingFeatures _ _ _ => "FeatureUnsupportedError"
  | .duplicateUnit _ => "DuplicateTestUnitError"
  | .backendTrouble _ _ => "BackendError"
  | .unregistered _ => "ResolutionError"
  | .construction _ _ _ => "BackendConstructionError"
  | .scenarioTrouble _ _ _ _ => "ScenarioFailure"
  | .mismatch _ _ _ _ => "AssertionMismatch"
  | .flaky _ _ _ => "FlakyScenarioError"
  | .illegalMove _ _ _ => "InvalidTransitionError"
  | .invalidSetting _ _ _ _ => "InvalidSettingError"
  | .catalogNotSet => "CatalogModuleNotSetError"

/-- The wider class, of the harness's own, that a fault belongs to. -/
def family? : Fault → Option String
  | .breakdown _ _ | .general .harness _ | .invalidSetting _ _ _ _ | .catalogNotSet => none
  | .general .catalog _ | .general .composition _ | .backendTrouble _ _
  | .scenarioTrouble _ _ _ _ | .illegalMove _ _ _ => none
  | .unknownContract _ | .duplicateContract _ | .duplicateBackend _ | .unusableModule _ _ _ =>
      some "CatalogError"
  | .missingFeatures _ _ _ | .duplicateUnit _ => some "CompositionError"
  | .unregistered _ | .construction _ _ _ => some "BackendError"
  | .mismatch _ _ _ _ | .flaky _ _ _ => some "ScenarioFailure"

/-- The general class of errors that a fault of the harness also belongs to. -/
def general? : Fault → Option String
  | .unknownContract _ | .unregistered _ => some "LookupError"
  | .scenarioTrouble _ _ _ _ | .mismatch _ _ _ _ | .flaky _ _ _ => some "AssertionError"
  | _ => none

def classes (f : Fault) : NameSet :=
  .ofList (["BaseException", "Exception", "ParityError", f.label] ++ f.family?.toList ++
    f.general?.toList)

def message : Fault → String
  | .breakdown b t => if b.kind = .key then Text.quoted t else t
  | .general _ t => t
  | .unknownContract c => s!"Unknown contract '{c}'."
  | .duplicateContract c => s!"Contract '{c}' is already registered."
  | .duplicateBackend b => s!"Backend '{b}' is already registered."
  | .unusableModule m r _ => s!"Cannot load catalog module '{m}': {r}"
  | .missingFeatures b c fs =>
      s!"Backend '{b}' cannot run contract '{c}': missing features {Text.quotedList fs.names}."
  | .duplicateUnit k => s!"Test unit '{k.text}' is declared more than once."
  | .backendTrouble _ t => t
  | .unregistered b => s!"No backend registered as '{b}'."
  | .construction b r _ => s!"Backend '{b}' failed to construct: {r}"
  | .scenarioTrouble _ _ _ t => t
  | .mismatch k e a w => s!"{k.text}: {w} mismatch\n--- expected\n{e}\n+++ actual\n{a}"
  | .flaky k _ rs =>
      s!"{k.text}: scenario is not deterministic, {rs.length} replays " ++
        s!"produced {distinctCount rs} distinct renderings."
  | .illegalMove k c t => s!"Test unit '{k.text}' cannot move from {c} to {t}."
  | .invalidSetting n v r _ => s!"Invalid {n}={Text.quoted v}: {r}"
  | .catalogNotSet => ""

/-- The class and the text, as one fault is named inside the text of another. -/
def described (f : Fault) : String := s!"{f.label}: {f.message}"

/-- An interrupt or a request to exit is not ordinary: nothing in the harness handles it. -/
def isOrdinary : Fault → Bool
  | .breakdown b _ => b.kind.isOrdinary
  | _ => true

/-- A catalog that cannot be loaded, or that cannot be composed. -/
def isCatalogDefect : Fault → Bool
  | .general .catalog _ | .general .composition _ => true
  | .unknownContract _ | .duplicateContract _ | .duplicateBackend _ => true
  | .unusableModule _ _ _ | .missingFeatures _ _ _ | .duplicateUnit _ => true
  | _ => false

end Fault

/-! ### Attempts -/

/-- What an attempt, with its fault if it was refused, comes to for whoever gives up then. -/
def granted {α : Type} : Option Fault × α → Except Fault α
  | (some f, _) => .error f
  | (none, x) => .ok x

theorem granted_eq_ok_iff {α : Type} {x : α} {attempted : Option Fault × α} :
    granted attempted = .ok x ↔ attempted = (none, x) := by
  obtain ⟨_ | _, _⟩ := attempted <;> simp [granted]

theorem granted_eq_error_iff {α : Type} {f : Fault} {attempted : Option Fault × α} :
    granted attempted = .error f ↔ attempted.1 = some f := by
  obtain ⟨_ | _, _⟩ := attempted <;> simp [granted]

theorem eq_ok_of_map {α β ε : Type} {e : Except ε α} {f : α → β} {y : β} (ok : e.map f = .ok y) :
    ∃ x, e = .ok x ∧ f x = y := by
  cases e with
  | error _ => cases ok
  | ok x => exact ⟨x, rfl, Except.ok.inj ok⟩

theorem eq_error_of_map {α β ε : Type} {e : Except ε α} {f : α → β} {err : ε}
    (raised : e.map f = .error err) : e = .error err := by
  cases e with
  | error _ => exact congrArg Except.error (Except.error.inj raised)
  | ok _ => cases raised

end Concord
