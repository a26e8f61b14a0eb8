import Concord.Proofs.History
import Concord.Samples
/-!
The reasons of failures. A unit fails for one of three reasons: its replays are divided, they agree on
what the scenario does not accept, or it could not be executed. Which one is reported is told from the
class of the fault that ended the execution. A call may raise a fault of any class, also of the two
that the harness itself raises about renderings. So the reason tells what has been rendered just if no
call has raised a fault of those two classes.
-/

namespace Concord

variable {K : Kit} {ρ : Type}

/-- The reason that is reported where a call raises this. -/
def Fault.blamed : Fault → Reason
  | .flaky _ _ _ => .flaky
  | .mismatch _ _ _ _ => .mismatch
  | _ => .execution

/-! ### Verdicts on renderings -/

/-- What the scenario asks of a rendering. -/
def Scenario.Accepts (s : Scenario ρ) (r : Rendering) : Prop :=
  r.text = s.expected ∧ ∀ ds, s.diagnostics = some ds → ds = r.diagnostics

/-- Every replay has rendered `r`. -/
def Unanimous (rs : List Rendering) (r : Rendering) : Prop := rs ≠ [] ∧ ∀ x ∈ rs, x = r

/-- Two replays have rendered differently. -/
def Divided (rs : List Rendering) : Prop := ∃ a ∈ rs, ∃ b ∈ rs, a ≠ b

theorem Unanimous.not_divided {rs : List Rendering} {r : Rendering} (all : Unanimous rs r) :
    ¬ Divided rs := by
  rintro ⟨a, member, b, member', differ⟩
  exact differ ((all.2 a member).trans (all.2 b member').symm)

/-- What holds of a rendering of all replays is told from any of them. -/
theorem Unanimous.exists_iff {rs : List Rendering} {r : Rendering} (all : Unanimous rs r)
    {P : Rendering → Prop} : (∃ r', Unanimous rs r' ∧ P r') ↔ P r := by
  constructor
  · rintro ⟨r', all', holds⟩
    obtain ⟨x, member⟩ := List.exists_mem_of_ne_nil rs all.1
    rwa [(all.2 x member).symm.trans (all'.2 x member)]
  · exact fun holds => ⟨r, all, holds⟩

/-- The verdict on renderings, case by case. -/
inductive Judged (key : Key) (s : Scenario ρ) (rs : List Rendering) : Except Fault String → Prop
  | nothing (none : rs = []) : Judged key s rs (.error (.breakdown .index "list index out of range"))
  | divided (divided : Divided rs) :
      Judged key s rs (.error (.flaky key s.expected (rs.map Rendering.describe)))
  | output {r : Rendering} (all : Unanimous rs r) (differs : r.text ≠ s.expected) :
      Judged key s rs (.error (.mismatch key s.expected r.text "output"))
  | diagnostics {r : Rendering} {ds : List String} (all : Unanimous rs r) (same : r.text = s.expected)
      (asked : s.diagnostics = some ds) (differ : ds ≠ r.diagnostics) :
      Judged key s rs (.error (.mismatch key (String.intercalate "\n" ds)
        (String.intercalate "\n" r.diagnostics) "diagnostics"))
  | accepted {r : Rendering} (all : Unanimous rs r) (accepts : s.Accepts r) :
      Judged key s rs (.ok r.text)

theorem judged_judge (key : Key) (s : Scenario ρ) (rs : List Rendering) :
    Judged key s rs (judge key s rs) := by
  cases rs with
  | nil => exact .nothing rfl
  | cons r rs =>
      by_cases agreed : agree (r :: rs) = true
      · have all : Unanimous (r :: rs) r := by
          refine ⟨List.cons_ne_nil r rs, fun x member => ?_⟩
          rcases List.mem_cons.mp member with rfl | later
          · rfl
          · simpa using List.all_eq_true.mp agreed x later
        simp only [judge, agreed, if_true]
        split
        · exact .output all ‹_›
        · have same : r.text = s.expected := by simpa using ‹¬ r.text ≠ s.expected›
          split
          · refine .accepted all ⟨same, fun ds asked => ?_⟩
            simp_all
          · rename_i ds asked
            split
            · refine .accepted all ⟨same, fun ds' asked' => ?_⟩
              simp_all
            · exact .diagnostics all same asked ‹_›
      · simp only [judge, agreed]
        refine .divided ?_
        obtain ⟨x, later, differs⟩ : ∃ x ∈ rs, ¬ x = r := by simpa [agree] using agreed
        exact ⟨x, List.mem_cons_of_mem _ later, r, List.mem_cons_self, differs⟩

/-! ### Reports -/

theorem TestUnit.judged_error (u : TestUnit ρ) (f : Fault) :
    (u.judged (.error f)).outcome = .failed ∧ (u.judged (.error f)).reason = some f.blamed := by
  cases f <;> exact ⟨rfl, rfl⟩

/-- How a unit is reported when its job is over, told from what was done at it. -/
structure Classified (replays : Nat) (u : TestUnit ρ) (ds : List (Deed K)) (r : Result) : Prop where
  sole : (faults ds).length ≤ 1
  raised : ∀ f ∈ faults ds, f.isOrdinary = true → r.outcome = .failed ∧ r.reason = some f.blamed
  interrupted : ∀ f ∈ faults ds, f.isOrdinary = false → r.outcome = .stuck
  replayed : faults ds = [] → renderings ds ≠ [] → (renderings ds).length = replays
  passed_iff : r.outcome = .passed ↔
    faults ds = [] ∧ ∃ g, Unanimous (renderings ds) g ∧ u.scenario.Accepts g
  flaky_iff : r.reason = some .flaky ↔
    (∃ f ∈ faults ds, f.blamed = .flaky) ∨ faults ds = [] ∧ Divided (renderings ds)
  mismatch_iff : r.reason = some .mismatch ↔
    (∃ f ∈ faults ds, f.blamed = .mismatch) ∨
      faults ds = [] ∧ ∃ g, Unanimous (renderings ds) g ∧ ¬ u.scenario.Accepts g
  execution_iff : r.reason = some .execution ↔
    (∃ f ∈ faults ds, f.isOrdinary = true ∧ f.blamed = .execution) ∨
      faults ds = [] ∧ renderings ds = [] ∧ ⟨.acquire u.key.backend, ()⟩ ∈ ds

namespace Classified

variable {replays : Nat} {u : TestUnit ρ} {ds : List (Deed K)} {r : Result}

/-- A unit that was never executed did not fail. -/
theorem of_uncalled (uncalled : Rendered ds []) (untaken : ⟨.acquire u.key.backend, ()⟩ ∉ ds)
    (unpassed : r.outcome ≠ .passed)
    (other : r.reason ≠ some .flaky ∧ r.reason ≠ some .mismatch ∧ r.reason ≠ some .execution) :
    Classified replays u ds r := by
  have nothing := uncalled.eq
  constructor <;> simp_all [uncalled.calm, Unanimous, Divided]

/-- A fault of a call is blamed by its class, and an interrupt leaves the unit. -/
theorem of_raised {f : Fault} (raised : faults ds = [f]) :
    Classified replays u ds (executed (u.onWay .running) (.error f)).1.result := by
  cases ordinary : f.isOrdinary with
  | true =>
      have contained : Contained (.error f : Except Fault String) := by
        rintro g ⟨⟩
        exact ordinary
      rw [result_executed u contained]
      obtain ⟨failed, reason⟩ := u.judged_error f
      constructor <;> simp [raised, ordinary, failed, reason]
  | false =>
      have unblamed : f.blamed = .execution := by
        cases f <;> first | rfl | cases ordinary
      rw [result_interrupted u ordinary]
      constructor <;> simp [raised, ordinary, TestUnit.left, unblamed]

/-- Where nothing was raised, the reason tells what was rendered. -/
theorem of_judged {v : Except Fault String} (calm : faults ds = [])
    (all : (renderings ds).length = replays) (taken : ⟨.acquire u.key.backend, ()⟩ ∈ ds)
    (judged : Judged u.key u.scenario (renderings ds) v) : Classified replays u ds (u.judged v) := by
  cases judged with
  | nothing none => constructor <;> simp [calm, none, taken, TestUnit.judged, Unanimous, Divided]
  | divided divided =>
      have apart (g : Rendering) : ¬ Unanimous (renderings ds) g := fun one => one.not_divided divided
      have rendered : renderings ds ≠ [] := by
        obtain ⟨a, member, _⟩ := divided
        exact List.ne_nil_of_mem member
      constructor <;> simp [calm, all, TestUnit.judged, divided, apart, rendered]
  | output one differs =>
      have refused : ¬ u.scenario.Accepts _ := fun accepts => differs accepts.1
      constructor <;>
        simp [calm, all, TestUnit.judged, one.1, one.not_divided, one.exists_iff, refused]
  | diagnostics one same asked differ =>
      have refused : ¬ u.scenario.Accepts _ := fun accepts => differ (accepts.2 _ asked)
      constructor <;>
        simp [calm, all, TestUnit.judged, one.1, one.not_divided, one.exists_iff, refused]
  | accepted one accepts =>
      constructor <;>
        simp [calm, all, TestUnit.judged, one.1, one.not_divided, one.exists_iff, accepts]

theorem of_concludes {v : Except Fault String}
    (concludes : Concludes replays u.key u.scenario ds v)
    (taken : ⟨.acquire u.key.backend, ()⟩ ∈ ds) :
    Classified replays u ds (executed (u.onWay .running) v).1.result := by
  cases concludes with
  | raised raised => exact of_raised raised
  | absent uncalled =>
      have contained : Contained (.error noInstance : Except Fault String) := by
        rintro f ⟨⟩
        rfl
      rw [result_executed u contained]
      have nothing := uncalled.eq
      constructor <;>
        simp [uncalled.calm, nothing, taken, TestUnit.judged, noInstance, Unanimous, Divided]
  | judged calm all =>
      rw [result_executed u (contained_judge _ _ _)]
      exact of_judged calm all taken (judged_judge _ _ _)

end Classified

/-- The history of a job that is over tells how its unit is reported. -/
theorem Job.Records.classified {catalog : Catalog K} {replays : Nat} {d : TestUnit K.Recipe × Bool}
    {ds : List (Deed K)} {j : Job K} (fresh : d.1.IsFresh) (records : Records catalog replays d ds j)
    (finished : j.stage.isOver = true) : Classified replays d.1 ds j.unit.result := by
  cases records with
  | rejected u =>
      rw [show (u.moved (.skip .gate)).result = u.rejected from TestUnit.IsFresh.result_skip fresh]
      exact .of_uncalled ⟨rfl, rfl, rfl⟩ (by simp) (by simp [TestUnit.rejected])
        (by simp [TestUnit.rejected])
  | queued => cases finished
  | resolving leads => cases finished
  | @unresolved u ds f leads =>
      obtain ⟨uncalled, untaken⟩ := leads.resolve
      refine .of_uncalled uncalled (untaken _) ?_ ?_ <;> rw [result_unresolved]
      · cases f <;> simp [TestUnit.unavailable, TestUnit.left]
      · cases f <;> simp [TestUnit.unavailable, TestUnit.left]
  | running obtained leads => cases finished
  | executed obtained leads =>
      obtain ⟨concludes, taken⟩ := leads.execute
      exact .of_concludes (concludes.prepend obtained.resolve.1) (List.mem_append_right _ taken)

/-- A job that is not over reports its unit as stuck. -/
theorem Job.Records.outcome_of_unfinished {catalog : Catalog K} {replays : Nat}
    {d : TestUnit K.Recipe × Bool} {ds : List (Deed K)} {j : Job K} (fresh : d.1.IsFresh)
    (records : Records catalog replays d ds j) (unfinished : j.stage.isOver = false) :
    j.unit.result.outcome = .stuck := by
  cases records with
  | queued u =>
      rw [show u = u.onWay .pending from fresh]
      rfl
  | resolving leads => rfl
  | running obtained leads => rfl
  | _ => cases unfinished

namespace Harness

/-- In every run, whatever was done before it and in whatever order the workers act, each unit is
reported as its history says: an ordinary fault of one of its calls fails it for the reason that the
class of the fault is blamed for, and only where no call has raised does the reason tell what has
been rendered. -/
theorem run_reasons {h : Harness K} {planned : List (Planned K.Recipe)} {workers : Int}
    (deadline : Option Text.Seconds) (positive : 1 ≤ workers)
    (plan : h.catalog.plan = .ok planned) :
    (∃ f h', (h.decisions planned).interrupt = some f ∧ h.run workers deadline = (.error f, h')) ∨
      ((decided (h.decisions planned).entries).map (·.1) = planned.flatMap (·.units) ∧
        h.RunsWith planned workers deadline fun d ds j =>
          if j.stage.isOver then Classified h.replays d.1 ds j.unit.result
          else j.unit.result.outcome = .stuck) := by
  refine runsWith_of_records deadline positive plan fun d ds j fresh records => ?_
  cases finished : j.stage.isOver with
  | true => exact records.classified fresh finished
  | false => exact records.outcome_of_unfinished fresh finished

/-- Two recipes raise what the harness says of renderings, one raises an error of its own, one renders
something else each time, and one renders what is not expected. -/
def forged : Harness PlainText.kit :=
  ((Harness.start (K := PlainText.kit) {} (.make false [] []) defaultReplays
    (numberedRun "run")).registerAll
      [.contract "Forged"
        [⟨"mismatch", "x", .raising 0 (.mismatch ⟨"Z", "Z", "Z"⟩ "p" "q" "output"), "x", none⟩,
         ⟨"flaky", "x", .raising 1 (.flaky ⟨"Z", "Z", "Z"⟩ "p" ["q", "q"]), "x", none⟩,
         ⟨"error", "x", .exploding "boom", "x", none⟩,
         ⟨"drift", "x", .drifting 2, "x", none⟩,
         ⟨"output", "x", .identity, "y", none⟩] [],
       Samples.plain "V8" 8 3 "", Samples.bind "V8" ["Forged"]]).2

/-- The first two of its units are blamed like the last two. -/
theorem run_reasons_forged :
    ∃ planned, forged.catalog.plan = .ok planned ∧
      (forged.run 2 none).1.toOption.map (·.results.map (·.reason)) =
        some [some .mismatch, some .flaky, some .execution, some .flaky, some .mismatch] ∧
      forged.RunsWith planned 2 none fun d ds j =>
        if j.stage.isOver then Classified forged.replays d.1 ds j.unit.result
        else j.unit.result.outcome = .stuck := by
  have reports : (forged.run 2 none).1.toOption.map (·.results.map (·.reason)) =
      some [some .mismatch, some .flaky, some .execution, some .flaky, some .mismatch] := by
    decide +kernel
  have plans : forged.catalog.plan.isOk = true := by decide +kernel
  have two : (1 : Int) ≤ 2 := by decide
  cases plan : forged.catalog.plan with
  | error f =>
      rw [plan] at plans
      cases plans
  | ok planned =>
      refine ⟨planned, rfl, reports, ?_⟩
      rcases run_reasons none two plan with ⟨f, h', _, raised⟩ | ⟨_, runs⟩
      · rw [raised] at reports
        cases reports
      · exact runs

end Harness

end Concord
