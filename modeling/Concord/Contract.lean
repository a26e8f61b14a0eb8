import Concord.Fault
/-!
Contracts: named suites of scenarios that every bound backend must satisfy. A scenario names a
source text, a recipe and what must be printed after the recipe has run. The recipe's type is left
open: only parsers look into recipes.
-/

namespace Concord

def checkKeyPart (kind name : String) : Except Fault Unit :=
  if name.isEmpty then .error (.breakdown .value s!"{kind} must be non-empty")
  else if Text.contains name keySeparator then
    .error (.breakdown .value
      s!"{kind} must not contain {Text.quoted keySeparator}: {Text.quoted name}")
  else .ok ()

theorem checkKeyPart_eq_ok_iff {kind name : String} :
    checkKeyPart kind name = .ok () ↔ isKeyPart name = true := by
  unfold checkKeyPart isKeyPart
  by_cases he : name.isEmpty = true <;> by_cases hc : Text.contains name keySeparator = true <;>
    simp [he, hc]

/-- One case of a contract. Diagnostics are unchecked when none are given. -/
structure Scenario (ρ : Type) where
  name : String
  input : String
  recipe : ρ
  expected : String
  diagnostics : Option (List String) := none
  deriving DecidableEq

def Scenario.checked {ρ : Type} (s : Scenario ρ) : Except Fault (Scenario ρ) :=
  (checkKeyPart "Scenario name" s.name).map fun _ => s

/-- Equality of scenarios under an equality of recipes. -/
def Scenario.sameBy {ρ : Type} (eq : ρ → ρ → Bool) (a b : Scenario ρ) : Bool :=
  a.name == b.name && a.input == b.input && eq a.recipe b.recipe && a.expected == b.expected &&
    a.diagnostics == b.diagnostics

/-- An ordered suite of scenarios, and the features that it asks of a backend. -/
structure Contract (ρ : Type) where
  name : String
  scenarios : List (Scenario ρ)
  required : NameSet
  deriving DecidableEq

/-- Equality of contracts under an equality of recipes. -/
def Contract.sameBy {ρ : Type} (eq : ρ → ρ → Bool) (a b : Contract ρ) : Bool :=
  a.name == b.name && decide (a.required = b.required) &&
    a.scenarios.length == b.scenarios.length &&
    (a.scenarios.zip b.scenarios).all fun p => p.1.sameBy eq p.2

def Contract.checked {ρ : Type} (c : Contract ρ) : Except Fault (Contract ρ) :=
  (checkKeyPart "Contract name" c.name).map fun _ => c

end Concord
