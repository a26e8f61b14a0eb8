import Concord.Proofs.FailureReason
import Mathlib.Control.Monad.Basic
/-!
Executions call by call. On a resolved backend an execution makes so many rounds of calls and then
concludes. The first call that raises ends the rounds, and its fault is raised again as it is. Where
all rounds go through, the verdict is told from what they rendered: divided renderings outweigh a
wrong text, and a wrong text outweighs wrong diagnostics.
-/

namespace Concord

variable {K : Kit} {α : Type} {ρ : Type}

/-! ### Performed work -/

/-- In the session `s` the work performs these deeds, one after the other, and comes to `w'` in the
session `s'`. -/
inductive Work.Performs (thread : String) :
    Work K α → Session K → List (Deed K) → Work K α → Session K → Prop
  | nil (w : Work K α) (s : Session K) : Performs thread w s [] w s
  | cons {action : Action K} {next : action.Answer → Work K α} {r : action.Answer}
      {s s₁ s₂ : Session K} {ds : List (Deed K)} {w' : Work K α}
      (performed : Session.perform true thread action s = some (r, s₁))
      (rest : Performs thread (next r) s₁ ds w' s₂) :
      Performs thread (Procedure.act action next) s (⟨action, r⟩ :: ds) w' s₂

/-- What is performed by following the work alone. -/
def Work.performed (thread : String) : Work K α → Session K → List (Deed K)
  | .done _, _ => []
  | Procedure.act action next, s =>
      match Session.perform true thread action s with
      | none => []
      | some (r, s') => ⟨action, r⟩ :: performed thread (next r) s'

namespace Work.Performs

variable {thread : String} {w w' : Work K α} {s s' : Session K} {ds : List (Deed K)}

theorem leads (performs : Performs thread w s ds w' s') : w.Leads ds w' := by
  induction performs with
  | nil w s => exact .nil w
  | cons _ _ ih => exact .cons ih

theorem advance (thread : String) (w : Work K α) (s : Session K) :
    Performs thread w s (w.performed thread s) (w.advance true thread s).1
      (w.advance true thread s).2 := by
  induction w generalizing s with
  | done v => exact .nil _ s
  | act action next ih =>
      cases performed : Session.perform true thread action s with
      | none =>
          simp only [Work.advance, Procedure.advance, Work.performed, performed]
          exact .nil _ s
      | some answered =>
          obtain ⟨r, s₁⟩ := answered
          simp only [Work.advance, Procedure.advance, Work.performed, performed]
          exact .cons performed (ih r s₁)

end Work.Performs

theorem Work.leads_performed {thread : String} {w : Work K α} {s : Session K} {v : α}
    (ends : (w.advance true thread s).1.value? = some v) : w.Leads (w.performed thread s) (.done v) := by
  have leads := (Performs.advance thread w s).leads
  generalize (w.advance true thread s).1 = w' at leads ends
  cases w' with
  | act => cases ends
  | done v' =>
      cases ends
      exact leads

/-! ### Verdicts -/

/-- The verdict on replays that all went through and have rendered `rs`, each complaint with what it
carries. -/
structure VerdictOf (n : Nat) (key : Key) (s : Scenario ρ) (rs : List Rendering)
    (v : Except Fault String) : Prop where
  everyReplay : rs.length = n
  flaky_iff : ∀ k expected shown, v = .error (.flaky k expected shown) ↔
    Divided rs ∧ k = key ∧ expected = s.expected ∧ shown = rs.map Rendering.describe
  output_iff : ∀ k expected actual, v = .error (.mismatch k expected actual "output") ↔
    (∃ r, Unanimous rs r ∧ r.text = actual) ∧ actual ≠ s.expected ∧ k = key ∧ expected = s.expected
  diagnostics_iff : ∀ k expected actual, v = .error (.mismatch k expected actual "diagnostics") ↔
    (∃ r, Unanimous rs r ∧ r.text = s.expected ∧ ∃ ds, s.diagnostics = some ds ∧
      ds ≠ r.diagnostics ∧ expected = String.intercalate "\n" ds ∧
      actual = String.intercalate "\n" r.diagnostics) ∧ k = key
  returns_iff : ∀ text, v = .ok text ↔ text = s.expected ∧ ∃ r, Unanimous rs r ∧ s.Accepts r

/-- Of the three complaints and the acceptance just one is made. -/
theorem Judged.verdictOf {n : Nat} {key : Key} {s : Scenario ρ} {rs : List Rendering}
    {v : Except Fault String} (judged : Judged key s rs v) (everyReplay : rs.length = n)
    (positive : 1 ≤ n) : VerdictOf n key s rs v := by
  cases judged with
  | nothing none =>
      subst none
      simp only [List.length_nil] at everyReplay
      omega
  | divided divided =>
      have apart (r : Rendering) : ¬ Unanimous rs r := fun one => one.not_divided divided
      constructor <;> simp [everyReplay, divided, apart, eq_comm]
  | output one differs =>
      have refused : ¬ s.Accepts _ := fun accepts => differs accepts.1
      refine ⟨everyReplay, by simp [one.not_divided], fun k expected actual => ?_,
        by simp [one.exists_iff, differs], by simp [one.exists_iff, refused]⟩
      rw [one.exists_iff]
      constructor
      · rintro ⟨⟩
        exact ⟨rfl, differs, rfl, rfl⟩
      · rintro ⟨rfl, -, rfl, rfl⟩
        rfl
  | diagnostics one same asked differ =>
      have refused : ¬ s.Accepts _ := fun accepts => differ (accepts.2 _ asked)
      refine ⟨everyReplay, by simp [one.not_divided], by simp [one.exists_iff, same],
        fun k expected actual => ?_, by simp [one.exists_iff, refused]⟩
      rw [one.exists_iff]
      constructor
      · rintro ⟨⟩
        exact ⟨⟨same, _, asked, differ, rfl, rfl⟩, rfl⟩
      · rintro ⟨⟨-, ds', asked', -, rfl, rfl⟩, rfl⟩
        rw [Option.some.inj (asked.symm.trans asked')]
  | @accepted r one accepts =>
      refine ⟨everyReplay, by simp [one.not_divided], fun k expected actual => ?_,
        fun k expected actual => ?_, fun text => ?_⟩
      · rw [one.exists_iff]
        constructor
        · rintro ⟨⟩
        · rintro ⟨same, differs, -⟩
          exact absurd (same.symm.trans accepts.1) differs
      · rw [one.exists_iff]
        constructor
        · rintro ⟨⟩
        · rintro ⟨⟨-, ds, asked, differ, -⟩, -⟩
          exact absurd (accepts.2 ds asked) differ
      · rw [one.exists_iff, accepts.1]
        constructor
        · rintro ⟨⟩
          exact ⟨rfl, accepts⟩
        · rintro ⟨rfl, -⟩
          rfl

/-! ### Calls of an execution -/

/-- An execution on the instance `i` from its first action to its last: while it holds the backend it
makes its rounds of calls, and after that it calls nothing. -/
inductive Executes (n i : Nat) (key : Key) (s : Scenario K.Recipe) :
    List (Deed K) → Except Fault String → Prop
  | raised {calls : List (Deed K)} {f : Fault} (rounds : Rounds i s n calls (.error f)) :
      Executes n i key s
        (⟨.acquire key.backend, ()⟩ :: (calls ++ [⟨.release key.backend, ()⟩])) (.error f)
  | judged {calls written : List (Deed K)} {rs : List Rendering} {v : Except Fault String}
      (rounds : Rounds i s n calls (.ok rs)) (writes : ∀ d ∈ written, d.isWrite = true)
      (verdict : VerdictOf n key s rs v) :
      Executes n i key s
        (⟨.acquire key.backend, ()⟩ :: (calls ++ ⟨.release key.backend, ()⟩ :: written)) v

theorem Work.Leads.executes {n i : Nat} {key : Key} {s : Scenario K.Recipe} {ds : List (Deed K)}
    {v : Except Fault String} (leads : Leads (Concord.execute n (some i) key s) ds (.done v))
    (positive : 1 ≤ n) : Executes n i key s ds v := by
  rw [execute_eq] at leads
  cases leads with
  | cons rest =>
      obtain ⟨rendered, calls, _, rfl, first, last⟩ := of_bind rest
      have rounds : Rounds i s n calls rendered := Leads.rounds first
      cases last with
      | cons last =>
          cases rendered with
          | error f =>
              cases last
              exact .raised rounds
          | ok rs =>
              have length : rs.length = n := by
                cases rounds.replayed with
                | rendered length _ => exact length
              obtain ⟨rfl, writes⟩ := judging last
              exact .judged rounds writes ((judged_judge key s rs).verdictOf length positive)

/-- A text is returned just where no call has raised and every replay has rendered the same, which the
scenario accepts. -/
theorem Concludes.returns_iff {n : Nat} {key : Key} {s : Scenario ρ} {ds : List (Deed K)}
    {v : Except Fault String} (concludes : Concludes n key s ds v) (positive : 1 ≤ n) (text : String) :
    v = .ok text ↔
      text = s.expected ∧ faults ds = [] ∧ ∃ r, Unanimous (renderings ds) r ∧ s.Accepts r := by
  cases concludes with
  | raised raised => simp [raised]
  | absent uncalled => simp [uncalled.eq, Unanimous]
  | judged calm all =>
      rw [((judged_judge key s _).verdictOf all positive).returns_iff text]
      simp [calm]

/-- An execution on a resolved backend makes its calls round by round. It ends with the fault of the
first call that raises, or else with the verdict on what all its rounds have rendered, whatever else
is done in the session between two of its actions. Where the backend is free it does end, with the
parser answering in the states that its earlier calls left. -/
theorem execute_verdict {n : Nat} (positive : 1 ≤ n) (i : Nat) (key : Key) (s : Scenario K.Recipe) :
    (∀ ds v, (execute n (some i) key s).Leads ds (.done v) →
      Executes n i key s ds v ∧
        ∀ text, v = .ok text ↔
          text = s.expected ∧ faults ds = [] ∧ ∃ r, Unanimous (renderings ds) r ∧ s.Accepts r) ∧
      ∀ (thread : String) (x : Session K) (p : Parser K) (own : K.Own),
        x.instances[i]? = some ⟨p, own⟩ → key.backend ∉ x.busy →
        ∃ ds v x', (execute n (some i) key s).advance true thread x = (.done v, x') ∧
          (execute n (some i) key s).Performs thread x ds (.done v) x' ∧ Executes n i key s ds v := by
  constructor
  · intro ds v leads
    exact ⟨leads.executes positive, leads.execute.1.returns_iff positive⟩
  · intro thread x p own at_i free
    have performs := Work.Performs.advance thread (execute n (some i) key s) x
    obtain ⟨log, ends⟩ := advance_execute at_i free n s thread
    rw [ends] at performs
    exact ⟨_, _, _, ends, performs, performs.leads.executes positive⟩

namespace Samples

/-- A session with one parser, which nobody uses. -/
def bench : Session PlainText.kit :=
  { shared := {}, instances := [⟨PlainText.parser 8 PlainText.defaultCharset .plain, {}⟩] }

/-- Its recipe counts its visits. -/
def drift : Scenario PlainText.kit.Recipe := ⟨"drift", "x", .drifting 0, "y", none⟩

/-- The two replays are divided, and that outweighs that neither has rendered what is expected. -/
theorem execute_verdict_drift :
    ∃ ds x', (execute 2 (some 0) ⟨"V8", "C", "drift"⟩ drift).advance true "main" bench =
        (.done (.error (.flaky ⟨"V8", "C", "drift"⟩ "y" ["x // 0", "x // 1"])), x') ∧
      Executes 2 0 ⟨"V8", "C", "drift"⟩ drift ds
        (.error (.flaky ⟨"V8", "C", "drift"⟩ "y" ["x // 0", "x // 1"])) := by
  have two : 1 ≤ 2 := by decide
  have answer : ((execute 2 (some 0) ⟨"V8", "C", "drift"⟩ drift).advance true "main" bench).1.value? =
      some (.error (.flaky ⟨"V8", "C", "drift"⟩ "y" ["x // 0", "x // 1"])) := by
    decide +kernel
  obtain ⟨ds, v, x', ends, -, executes⟩ := (execute_verdict two 0 ⟨"V8", "C", "drift"⟩ drift).2 "main"
    bench _ _ rfl (by simp [bench])
  rw [ends] at answer
  cases answer
  exact ⟨ds, x', ends, executes⟩

end Samples

end Concord
