import Concord.Proofs.FailureReason
/-!
What the report on a mismatch shows. The fault that ended the execution carries the two texts that
were compared: the rendered text with the expected one, or the diagnostics with those that were asked
for, or whatever a call has put into a fault of its own. Of this pair the report keeps the second text.
Beside it stands the text that the scenario expects, which is the first one only where the texts were
compared; where the diagnostics were, it stands beside them.
-/

namespace Concord

variable {K : Kit} {ρ : Type}

/-- The comparison that failed: what it was raised for, with both texts. -/
inductive FailedComparison (u : TestUnit ρ) (ds : List (Deed K)) :
    Key → String → String → String → Prop
  | output {r : Rendering} (all : Unanimous (renderings ds) r) (differs : r.text ≠ u.scenario.expected) :
      FailedComparison u ds u.key u.scenario.expected r.text "output"
  | diagnostics {r : Rendering} {wanted : List String} (all : Unanimous (renderings ds) r)
      (same : r.text = u.scenario.expected) (asked : u.scenario.diagnostics = some wanted)
      (differ : wanted ≠ r.diagnostics) :
      FailedComparison u ds u.key (String.intercalate "\n" wanted)
        (String.intercalate "\n" r.diagnostics) "diagnostics"
  | raised {key : Key} {expected actual what : String}
      (raised : faults ds = [.mismatch key expected actual what]) :
      FailedComparison u ds key expected actual what

/-- An execution that ends with a mismatch ends with a comparison that failed. -/
theorem Concludes.comparison {u : TestUnit ρ} {n : Nat} {ds : List (Deed K)} {key : Key}
    {expected actual what : String}
    (concludes : Concludes n u.key u.scenario ds (.error (.mismatch key expected actual what))) :
    FailedComparison u ds key expected actual what := by
  generalize ended : (.error (.mismatch key expected actual what) : Except Fault String) = v
    at concludes
  cases concludes with
  | raised raised =>
      cases ended
      exact .raised raised
  | absent => cases ended
  | judged calm all =>
      have judged := judged_judge u.key u.scenario (renderings ds)
      rw [← ended] at judged
      cases judged with
      | output one differs => exact .output one differs
      | diagnostics one same asked differ => exact .diagnostics one same asked differ

/-- A mismatch on the report of a unit: its execution raised it, and the report shows the second text
of the pair beside the text that the scenario expects. -/
structure ShowsMismatch (replays : Nat) (u : TestUnit K.Recipe) (ds : List (Deed K)) (r : Result)
    (key : Key) (expected actual what : String) : Prop where
  raised : ∃ i es, es <:+ ds ∧ (execute replays i u.key u.scenario).Leads es
    (.done (.error (.mismatch key expected actual what)))
  compared : FailedComparison u ds key expected actual what
  reported : r = ⟨u.key, .failed, some .mismatch, u.scenario.expected, some actual,
    (Fault.mismatch key expected actual what).message⟩
  shown_iff : r.expected = expected ∧ r.actual = some actual ↔ expected = u.scenario.expected
  printed : ∃ head, r.blockLines = head ++ Result.headed "  expected:" "    | " u.scenario.expected ++
    Result.headed "  actual:" "    | " actual ++ Result.headed "  detail:" "    " r.detail

theorem Fault.isEmpty_message_mismatch (key : Key) (expected actual what : String) :
    (Fault.mismatch key expected actual what).message.isEmpty = false := by
  have worded : (Fault.mismatch key expected actual what).message =
      s!"{key.text}: {what} mismatch\n--- expected\n{expected}\n+++ actual\n{actual}" := rfl
  rw [worded]
  simp only [String.isEmpty_eq_false_iff, ne_eq, String.append_eq_empty_iff]
  rintro ⟨⟨⟨⟨⟨⟨_, colon⟩, _⟩, _⟩, _⟩, _⟩, _⟩
  exact absurd colon (by decide)

theorem eq_mismatch_of_executed {u : TestUnit ρ} {v : Except Fault String}
    (mismatch : (executed (u.onWay .running) v).1.result.reason = some .mismatch) :
    ∃ key expected actual what, v = .error (.mismatch key expected actual what) := by
  cases v with
  | ok text =>
      rw [result_executed u fun f raised => by cases raised] at mismatch
      cases mismatch
  | error f =>
      cases f with
      | mismatch key expected actual what => exact ⟨key, expected, actual, what, rfl⟩
      | breakdown error text =>
          obtain ⟨label, kind⟩ := error
          cases kind <;> cases mismatch
      | _ => cases mismatch

/-- The report on a unit whose execution raised a mismatch. -/
theorem ShowsMismatch.of_executed {replays : Nat} {u : TestUnit K.Recipe} {ds es : List (Deed K)}
    {i : Option Nat} {key : Key} {expected actual what : String} (uncalled : Rendered ds [])
    (leads : (execute replays i u.key u.scenario).Leads es
      (.done (.error (.mismatch key expected actual what)))) :
    ShowsMismatch replays u (ds ++ es)
      (executed (u.onWay .running) (.error (.mismatch key expected actual what))).1.result
      key expected actual what := by
  have contained : Contained (.error (.mismatch key expected actual what) : Except Fault String) := by
    rintro f ⟨⟩
    rfl
  rw [result_executed u contained]
  refine ⟨⟨i, es, List.suffix_append ds es, leads⟩, (leads.execute.1.prepend uncalled).comparison, rfl,
    ?_, ?_⟩
  · simp only [TestUnit.judged, and_true, eq_comm]
  · simp only [TestUnit.judged, Result.blockLines, Fault.isEmpty_message_mismatch,
      Bool.false_eq_true, if_false]
    exact ⟨_, rfl⟩

theorem Job.Records.shows_mismatch {catalog : Catalog K} {replays : Nat}
    {d : TestUnit K.Recipe × Bool} {ds : List (Deed K)} {j : Job K} (fresh : d.1.IsFresh)
    (records : Records catalog replays d ds j) (mismatch : j.unit.result.reason = some .mismatch) :
    ∃ key expected actual what,
      ShowsMismatch replays d.1 ds j.unit.result key expected actual what := by
  cases records with
  | rejected u =>
      rw [show (u.moved (.skip .gate)).result = u.rejected from TestUnit.IsFresh.result_skip fresh]
        at mismatch
      cases mismatch
  | queued u =>
      rw [show u = u.onWay .pending from fresh] at mismatch
      cases mismatch
  | resolving leads => cases mismatch
  | running obtained leads => cases mismatch
  | @unresolved u ds f leads =>
      rw [result_unresolved] at mismatch
      cases f <;> cases mismatch
  | @executed u ds es i v obtained leads =>
      obtain ⟨key, expected, actual, what, rfl⟩ := eq_mismatch_of_executed mismatch
      exact ⟨key, expected, actual, what, .of_executed obtained.resolve.1 leads⟩

namespace Harness

/-- In every run, whatever was done before it and in whatever order the workers act, a unit that is
reported as a mismatch shows the second text of the comparison that failed, beside the output that
its scenario expects. So it shows the pair of a comparison of texts, and the pair of a comparison of
diagnostics only if those that were asked for read like the expected output. -/
theorem run_shows_mismatch {h : Harness K} {planned : List (Planned K.Recipe)} {workers : Int}
    (deadline : Option Text.Seconds) (positive : 1 ≤ workers)
    (plan : h.catalog.plan = .ok planned) :
    (∃ f h', (h.decisions planned).interrupt = some f ∧ h.run workers deadline = (.error f, h')) ∨
      ((decided (h.decisions planned).entries).map (·.1) = planned.flatMap (·.units) ∧
        h.RunsWith planned workers deadline fun d ds j =>
          j.unit.result.reason = some .mismatch ↔ ∃ key expected actual what,
            ShowsMismatch h.replays d.1 ds j.unit.result key expected actual what) := by
  refine runsWith_of_records deadline positive plan fun d ds j fresh records => ?_
  refine ⟨records.shows_mismatch fresh, ?_⟩
  rintro ⟨key, expected, actual, what, shows⟩
  rw [shows.reported]

/-- One scenario renders another text than it expects, one leaves other diagnostics, and the recipe of
one raises a mismatch of its own. -/
def mismatched : Harness PlainText.kit :=
  ((Harness.start (K := PlainText.kit) {} (.make false [] []) defaultReplays
    (numberedRun "run")).registerAll
      [.contract "Mismatched"
        [⟨"output", "x", .identity, "y", none⟩,
         ⟨"diagnostics", "x", .mark 0 "other", "x", some ["seen"]⟩,
         ⟨"raised", "x", .raising 1 (.mismatch ⟨"Z", "Z", "Z"⟩ "p" "q" "output"), "x", none⟩] [],
       Samples.plain "V8" 8 2 "", Samples.bind "V8" ["Mismatched"]]).2

/-- The first of its units shows what was compared. The second shows the expected text beside the
diagnostics that were found, and the third shows it beside what was raised. -/
theorem run_shows_mismatch_mismatched :
    ∃ planned, mismatched.catalog.plan = .ok planned ∧
      (mismatched.run 1 none).1.toOption.map
          (·.results.map fun r => (r.reason, r.expected, r.actual)) =
        some [(some .mismatch, "y", some "x"), (some .mismatch, "x", some "other"),
          (some .mismatch, "x", some "q")] ∧
      mismatched.RunsWith planned 1 none fun d ds j =>
        j.unit.result.reason = some .mismatch ↔ ∃ key expected actual what,
          ShowsMismatch mismatched.replays d.1 ds j.unit.result key expected actual what := by
  have reports : (mismatched.run 1 none).1.toOption.map
        (·.results.map fun r => (r.reason, r.expected, r.actual)) =
      some [(some .mismatch, "y", some "x"), (some .mismatch, "x", some "other"),
        (some .mismatch, "x", some "q")] := by decide +kernel
  have plans : mismatched.catalog.plan.isOk = true := by decide +kernel
  have one : (1 : Int) ≤ 1 := by decide
  cases plan : mismatched.catalog.plan with
  | error f =>
      rw [plan] at plans
      cases plans
  | ok planned =>
      refine ⟨planned, rfl, reports, ?_⟩
      rcases run_shows_mismatch none one plan with ⟨f, h', _, raised⟩ | ⟨_, runs⟩
      · rw [raised] at reports
        cases reports
      · exact runs

end Harness

end Concord
