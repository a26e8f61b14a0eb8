import Concord.CommandLine.Invoke
import Concord.PlainText.Blueprint
import Concord.Proofs.Consumers
import Concord.Proofs.RegistrationOrder
/-!
The exit status of a run. A catalog that is refused, when it is loaded or when it is planned, ends the
program with its own status, and a report with a failure ends it with another one. But a registration
is refused in two ways: for what the catalog holds, which is told to the user as a defect of the
catalog, and for a name or a list of contracts that no catalog takes, which is an error that nobody
handles. Such an error ends the program like a failure, though no unit was run; so does a probe that is
interrupted, and a deadline that is too long to be waited for, though no unit has failed.
-/

namespace Concord

variable {K : Kit}

/-! ### Refused registrations -/

/-- A registration that no catalog takes: a name in it cannot be a part of a key, or it is a binding of
no contracts. -/
def Registration.Malformed : Registration K → Prop
  | .contract name scenarios _ =>
      isKeyPart name = false ∨ ∃ s ∈ scenarios, isKeyPart s.name = false
  | .backend b => isKeyPart b.identity = false
  | .binding b => isKeyPart b.backend = false ∨ b.contracts = []
  | .probe _ _ => False

/-- How a check or a registration is refused: with an error of its own where it is malformed, and
otherwise only with a fault of the given sort. -/
inductive Refusal {α : Type} (malformed : Prop) (sort : Fault → Prop) (e : Except Fault α) : Prop
  | malformed (unfit : malformed) {text : String} (raised : e = .error (.breakdown .value text))
  | wellFormed (fit : ¬ malformed) (faults : ∀ f, e = .error f → sort f)

namespace Refusal

variable {α β : Type} {malformed first second : Prop} {sort : Fault → Prop} {e : Except Fault α}

theorem map (refusal : Refusal malformed sort e) (k : α → β) :
    Refusal malformed sort (e.map k) := by
  cases refusal with
  | malformed unfit raised => exact .malformed unfit (by rw [raised]; rfl)
  | wellFormed fit faults => exact .wellFormed fit fun f refused => faults f (eq_error_of_map refused)

/-- What begins with a check is refused by it, or goes on. -/
theorem after {e' : Except Fault β} (checked : Refusal first (fun _ => False) e)
    (either : malformed ↔ first ∨ second) (ends : ∀ f, e = .error f → e' = .error f)
    (rest : ∀ x, e = .ok x → Refusal second sort e') : Refusal malformed sort e' := by
  cases checked with
  | malformed unfit raised => exact .malformed (either.mpr (.inl unfit)) (ends _ raised)
  | wellFormed fit passes =>
      cases e with
      | error f => exact (passes f rfl).elim
      | ok x =>
          cases rest x rfl with
          | malformed unfit raised => exact .malformed (either.mpr (.inr unfit)) raised
          | wellFormed fit' faults => exact .wellFormed (by simp [either, fit, fit']) faults

end Refusal

theorem Catalog.Offends.isCatalogDefect {c : Catalog K} {backend contract : String} {f : Fault}
    (offends : c.Offends backend contract f) : f.isCatalogDefect = true := by
  cases offends <;> rfl

namespace Catalog

variable (c : Catalog K)

end Catalog

namespace Harness

variable {g h : Harness K} {rs : List (Registration K)} {f : Fault}

end Harness

/-! ### Interrupted probes -/

namespace Environment

variable {σ ρ : Type}

end Environment

namespace CommandLine

variable {w : Surroundings K} {r : Request} {h : Harness K} {f : Fault}

theorem positive_of_readRequest {s : Scanned} (read : readRequest s = .ok r) : 1 ≤ r.workers := by
  have counted {given : Option String} {n : Option Int}
      (workers : readGiven (readCount "--workers") given = .ok n) : 1 ≤ n.getD 1 := by
    cases given with
    | none =>
        cases workers
        exact Int.le_refl 1
    | some text =>
        obtain ⟨m, counts, rfl⟩ := eq_ok_of_map workers
        unfold readCount at counts
        split at counts
        · cases counts
        · split at counts
          · cases counts
          · cases counts
            simpa using ‹¬ m < 1›
  dsimp only [readRequest] at read
  split at read
  · rename_i workers _
    split at read <;> cases read
    exact counted workers
  · cases read
  · cases read
  · cases read
  · cases read

/-! ### Words without options -/

/-- The words ask for a run of the catalog with these registrations, and nothing is wrong with how they
ask for it. -/
inductive RunAsked (w : Surroundings K) (words : List String) (r : Request) (first : Harness K)
    (rs : List (Registration K)) : Prop
  | mk {s : Scanned} {g : Globals} {rest : List String} {name : String}
      (scanned : scan programOptions false words = .ok s) (unversioned : s.has "--version" = false)
      (globals : readGlobals w.vars w.path s = .ok g) (command : s.words = "run" :: rest)
      (request : (scan Command.run.options true rest).bind readRequest = .ok r)
      (harness : w.harness (environmentFor w r) r.replays = .ok first)
      (named : catalogFor w r = .ok name)
      (imported : Module.importNamed w.modules name = .ok (some (.catalog rs)))

namespace RunAsked

variable {words : List String} {first : Harness K} {rs : List (Registration K)}

theorem positive (asked : RunAsked w words r first rs) : 1 ≤ r.workers := by
  obtain ⟨_, _, _, _, request, _, _, _⟩ := asked
  cases scanned : scan Command.run.options true _ with
  | error m =>
      rw [scanned] at request
      cases request
  | ok s =>
      rw [scanned] at request
      exact positive_of_readRequest request

end RunAsked

namespace ExitsWith

variable {words : List String} {first : Harness K} {rs : List (Registration K)} {n : Nat}

end ExitsWith

section

open PlainText

def nameless : Registration kit := .contract "C" [⟨"", "x", .identity, "x", none⟩] []

/-- The only module holds a contract whose scenario has no name. -/
def unnamed : Surroundings kit where
  vars := []
  modules := [("cat", .catalog [nameless])]
  shared := {}
  runName := numberedRun "run"
  stream := ⟨"utf-8", false⟩
  ambient := ⟨"", "", "", ""⟩
  path := "log"

end

end CommandLine

end Concord
