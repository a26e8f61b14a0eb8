import Concord.Run
/-!
What the moves of a unit come to in its result. A unit that starts fresh and goes the way of a run
ends in one of three kinds of report: rejected by the gate, without a backend, or judged. An
interrupt leaves it on the way, and it is then reported as stuck.
-/

namespace Concord

variable {ρ : Type}

/-- A result that is no interrupt. -/
def Contained {α : Type} (r : Except Fault α) : Prop := ∀ f, r = .error f → f.isOrdinary = true

theorem contained_judge {ρ : Type} (key : Key) (s : Scenario ρ) (rs : List Rendering) :
    Contained (judge key s rs) := by
  intro f raised
  unfold judge at raised
  split at raised
  · split at raised
    · cases raised; rfl
    · split at raised
      · cases raised; rfl
      · split at raised
        · cases raised
        · split at raised <;> cases raised
          rfl
  · cases raised; rfl

namespace TestUnit

/-- A unit as it comes out of planning. -/
def IsFresh (u : TestUnit ρ) : Prop := u = { key := u.key, scenario := u.scenario }

def rejected (u : TestUnit ρ) : Result :=
  ⟨u.key, .skipped, some .gate, u.scenario.expected, none, ""⟩

def unavailable (u : TestUnit ρ) (why : Reason) (f : Fault) : Result :=
  ⟨u.key, .errored, some why, u.scenario.expected, none, f.message⟩

def judged (u : TestUnit ρ) : Except Fault String → Result
  | .ok text => ⟨u.key, .passed, none, u.scenario.expected, some text, ""⟩
  | .error (.flaky k e rs) =>
      ⟨u.key, .failed, some .flaky, u.scenario.expected, rs.getLast?, (Fault.flaky k e rs).message⟩
  | .error (.mismatch k e a w) =>
      ⟨u.key, .failed, some .mismatch, u.scenario.expected, some a, (Fault.mismatch k e a w).message⟩
  | .error f => ⟨u.key, .failed, some .execution, u.scenario.expected, none, f.described⟩

theorem outcome_judged (u : TestUnit ρ) (v : Except Fault String) :
    (u.judged v).outcome = .passed ∨ (u.judged v).outcome = .failed := by
  cases v with
  | ok text => exact .inl rfl
  | error f => cases f <;> exact .inr rfl

theorem key_judged (u : TestUnit ρ) (v : Except Fault String) :
    (u.judged v).key = u.key ∧ (u.judged v).expected = u.scenario.expected := by
  cases v with
  | ok text => exact ⟨rfl, rfl⟩
  | error f => cases f <;> exact ⟨rfl, rfl⟩

def left (u : TestUnit ρ) (p : Phase) : Result :=
  ⟨u.key, .stuck, some .timeout, u.scenario.expected, none, s!"unit left in state {p.text}"⟩

/-- A fresh unit in a phase that it has moved to without a reason, an actual text or a detail. -/
def onWay (u : TestUnit ρ) (p : Phase) : TestUnit ρ :=
  { key := u.key, scenario := u.scenario, phase := p }

@[simp] theorem onWay_key (u : TestUnit ρ) (p : Phase) : (u.onWay p).key = u.key := rfl

@[simp] theorem onWay_scenario (u : TestUnit ρ) (p : Phase) :
    (u.onWay p).scenario = u.scenario := rfl

theorem moved_of_mem {u : TestUnit ρ} {m : Move} (allowed : m.target ∈ u.phase.successors) :
    u.moved m =
      { u with
        phase := m.target
        reason := m.reason?.or u.reason
        actual := m.actual?.or u.actual
        detail := if m.detail.isEmpty then u.detail else m.detail } := by
  rw [moved, attempt, if_pos allowed]

@[simp] theorem key_moved (u : TestUnit ρ) (m : Move) : (u.moved m).key = u.key := by
  unfold moved attempt
  by_cases allowed : m.target ∈ u.phase.successors <;> simp [allowed]

theorem IsFresh.moved_resolve {u : TestUnit ρ} (fresh : u.IsFresh) :
    u.moved .resolve = u.onWay .resolving := by
  rw [fresh]
  rfl

theorem moved_run (u : TestUnit ρ) : (u.onWay .resolving).moved .run = u.onWay .running := rfl

/-- The result after a move that ends a unit on its way: exactly what the move carries. -/
theorem result_onWay_moved (u : TestUnit ρ) {p : Phase} {m : Move}
    (allowed : m.target ∈ p.successors) (final : m.target.isFinal = true) :
    ((u.onWay p).moved m).result =
      { key := u.key
        outcome := ((u.onWay p).moved m).outcome
        reason := m.reason?
        expected := u.scenario.expected
        actual := m.actual?
        detail := m.detail } := by
  have ended : ((u.onWay p).moved m).outcome ≠ .stuck := by
    rw [moved_of_mem allowed]
    revert final
    cases m <;> simp [Move.target, Phase.isFinal, outcome]
  have kept : (if m.detail.isEmpty then "" else m.detail) = m.detail := by
    split <;> simp_all
  rw [moved_of_mem allowed] at ended ⊢
  simp only [onWay, result, Option.or_none, kept] at ended ⊢
  simp only [if_neg ended, kept]

theorem result_onWay (u : TestUnit ρ) {p : Phase} (open_ : p.isFinal = false) :
    (u.onWay p).result = u.left p := by
  cases p <;> first | rfl | cases open_

theorem IsFresh.result_skip {u : TestUnit ρ} (fresh : u.IsFresh) :
    (u.moved (.skip .gate)).result = u.rejected := by
  rw [fresh]
  rfl

end TestUnit

/-- A unit that could not be resolved is reported without a backend, if resolution declares the
fault; any other fault leaves it resolving. -/
theorem result_unresolved (u : TestUnit ρ) (f : Fault) :
    (unresolved (u.onWay .resolving) f).1.result =
      match f with
      | .unregistered _ => u.unavailable .unregistered f
      | .construction _ _ _ => u.unavailable .construction f
      | _ => u.left .resolving := by
  have errs : Phase.errored ∈ Phase.resolving.successors := by decide
  cases f with
  | unregistered b => exact u.result_onWay_moved (m := .err .unregistered _) errs rfl
  | construction b r c => exact u.result_onWay_moved (m := .err .construction _) errs rfl
  | _ => exact u.result_onWay rfl

theorem key_unresolved (u : TestUnit ρ) (f : Fault) : (unresolved u f).1.key = u.key := by
  cases f <;> simp [unresolved]

theorem key_executed (u : TestUnit ρ) (r : Except Fault String) : (executed u r).1.key = u.key := by
  cases r with
  | ok text => simp [executed]
  | error f =>
      cases f <;> simp only [executed] <;> (try split) <;> simp

/-- An executed unit is judged, unless an interrupt leaves it running. -/
theorem result_executed (u : TestUnit ρ) {r : Except Fault String} (contained : Contained r) :
    (executed (u.onWay .running) r).1.result = u.judged r := by
  have passes : Phase.passed ∈ Phase.running.successors := by decide
  have fails : Phase.failed ∈ Phase.running.successors := by decide
  cases r with
  | ok text => exact u.result_onWay_moved (m := .pass (some text)) passes rfl
  | error f =>
      have ordinary := contained f rfl
      cases f with
      | flaky k e rs => exact u.result_onWay_moved (m := .fail .flaky _ _) fails rfl
      | mismatch k e a w => exact u.result_onWay_moved (m := .fail .mismatch _ _) fails rfl
      | _ =>
          simp only [executed, ordinary, if_true, TestUnit.judged]
          exact u.result_onWay_moved (m := .fail .execution none _) fails rfl

theorem result_interrupted (u : TestUnit ρ) {f : Fault} (interrupt : f.isOrdinary = false) :
    (executed (u.onWay .running) (.error f)).1.result = u.left .running := by
  cases f with
  | breakdown k t =>
      simp only [executed, interrupt]
      exact u.result_onWay rfl
  | _ => cases interrupt

theorem Report.ok_eq_false_iff (r : Report) :
    r.ok = false ↔
      ∃ x ∈ r.results, x.outcome = .failed ∨ x.outcome = .errored ∨ x.outcome = .stuck := by
  have failing (o : Outcome) : o.isFailure = true ↔ o = .failed ∨ o = .errored ∨ o = .stuck := by
    cases o <;> simp [Outcome.isFailure]
  rw [Report.ok, List.isEmpty_eq_false_iff_exists_mem]
  simp only [Report.failures, List.mem_filter, Result.isFailure, failing]

end Concord
