import Concord.Proofs.Execution
import Concord.Proofs.JoinedTexts
/-!
What a mismatch shows. Diagnostics are compared one by one, and what is shown of the comparison are two
texts, in which each side's diagnostics are joined line by line. A diagnostic may itself have several
lines, and no diagnostics at all look like one empty diagnostic, so that different diagnostics may be
shown as the same text. That happens just if both sides have the same lines. A mismatch of the rendered
text always shows its difference.
-/

namespace Concord

variable {K : Kit} {ρ : Type}

/-! ### Diagnostics as they are shown -/

/-- Diagnostics as a mismatch shows them. -/
def shownDiagnostics (ds : List String) : String := String.intercalate "\n" ds

/-- The lines that are shown of diagnostics: those of each of them in turn, and one empty line where
there are none. -/
def diagnosticLines (ds : List String) : List String :=
  if ds = [] then [""] else ds.flatMap Text.lines

theorem lines_shownDiagnostics (ds : List String) :
    Text.lines (shownDiagnostics ds) = diagnosticLines ds := by
  unfold diagnosticLines shownDiagnostics
  by_cases none : ds = []
  · rw [if_pos none, none]
    exact Text.lines_of_unbroken (by simp)
  · rw [if_neg none, Text.lines_intercalate none]

theorem shownDiagnostics_eq_iff {ds es : List String} :
    shownDiagnostics ds = shownDiagnostics es ↔ diagnosticLines ds = diagnosticLines es := by
  rw [← Text.lines_inj, lines_shownDiagnostics, lines_shownDiagnostics]

/-- Of single lines nothing is lost, but for the difference between no diagnostics and an empty one. -/
theorem SingleLined.shown_eq_iff {ds es : List String} (single : SingleLined ds)
    (single' : SingleLined es) :
    shownDiagnostics ds = shownDiagnostics es ↔
      ds = es ∨ (ds = [] ∧ es = [""]) ∨ (ds = [""] ∧ es = []) := by
  rw [shownDiagnostics_eq_iff, diagnosticLines, diagnosticLines, single.flatMap_lines,
    single'.flatMap_lines]
  by_cases none : ds = [] <;> by_cases none' : es = []
  · simp [none, none']
  · simp [none, none', eq_comm]
  · simp [none, none']
  · simp [none, none']

/-! ### Evidence -/

/-- The comparison that an execution itself has made, with the two texts that it shows. -/
inductive Compared (key : Key) (s : Scenario ρ) (rs : List Rendering) :
    Key → String → String → String → Prop
  | output {r : Rendering} (all : Unanimous rs r) (differ : s.expected ≠ r.text) :
      Compared key s rs key s.expected r.text "output"
  | diagnostics {r : Rendering} {wanted : List String} (all : Unanimous rs r)
      (same : r.text = s.expected) (asked : s.diagnostics = some wanted)
      (differ : wanted ≠ r.diagnostics) :
      Compared key s rs key (shownDiagnostics wanted) (shownDiagnostics r.diagnostics) "diagnostics"

/-- What a mismatch says of replays that have rendered `rs`. -/
structure MismatchEvidence (n : Nat) (key : Key) (s : Scenario ρ) (rs : List Rendering) (k : Key)
    (expected actual what : String) : Prop where
  everyReplay : rs.length = n
  compared : Compared key s rs k expected actual what
  output : what = "output" → expected ≠ actual
  diagnostics_iff : what = "diagnostics" → ∀ r wanted, Unanimous rs r → s.diagnostics = some wanted →
    (expected ≠ actual ↔ diagnosticLines wanted ≠ diagnosticLines r.diagnostics)
  faithful : what = "diagnostics" → ∀ r wanted, Unanimous rs r → s.diagnostics = some wanted →
    SingleLined wanted → SingleLined r.diagnostics →
    (expected = actual ↔
      (wanted = [] ∧ r.diagnostics = [""]) ∨ (wanted = [""] ∧ r.diagnostics = []))

theorem Compared.evidence {n : Nat} {key k : Key} {s : Scenario ρ} {rs : List Rendering}
    {expected actual what : String} (compared : Compared key s rs k expected actual what)
    (everyReplay : rs.length = n) : MismatchEvidence n key s rs k expected actual what := by
  cases compared with
  | output all differ =>
      refine ⟨everyReplay, .output all differ, fun _ => differ, ?_, ?_⟩ <;>
      · intro impossible
        exact absurd impossible (by decide)
  | @diagnostics r wanted all same asked differ =>
      refine ⟨everyReplay, .diagnostics all same asked differ, ?_, ?_, ?_⟩
      · intro impossible
        exact absurd impossible (by decide)
      · intro _ r' wanted' all' asked'
        obtain rfl : r = r' := (all.exists_iff (P := (· = r'))).mp ⟨r', all', rfl⟩
        obtain rfl : wanted = wanted' := Option.some.inj (asked.symm.trans asked')
        exact not_congr shownDiagnostics_eq_iff
      · intro _ r' wanted' all' asked' single single'
        obtain rfl : r = r' := (all.exists_iff (P := (· = r'))).mp ⟨r', all', rfl⟩
        obtain rfl : wanted = wanted' := Option.some.inj (asked.symm.trans asked')
        rw [single.shown_eq_iff single']
        exact or_iff_right differ

/-- Where no call has raised, a mismatch of the rendered text shows two different texts, and a mismatch
of the diagnostics does just if the lines of both sides differ. Where every diagnostic is one line,
that fails only for no diagnostics beside an empty one. -/
theorem mismatch_evidence {n : Nat} {i : Option Nat} {key k : Key} {s : Scenario K.Recipe}
    {ds : List (Deed K)} {expected actual what : String}
    (leads : (execute n i key s).Leads ds (.done (.error (.mismatch k expected actual what))))
    (calm : faults ds = []) : MismatchEvidence n key s (renderings ds) k expected actual what := by
  have concludes := leads.execute.1
  generalize told : (Except.error (Fault.mismatch k expected actual what) : Except Fault String) = v
    at concludes
  cases concludes with
  | raised raised =>
      rw [calm] at raised
      cases raised
  | absent uncalled => cases told
  | judged _ all =>
      have judged := judged_judge key s (renderings ds)
      rw [← told] at judged
      cases judged with
      | output one differs => exact (Compared.output one (Ne.symm differs)).evidence all
      | diagnostics one same asked differ =>
          exact (Compared.diagnostics one same asked differ).evidence all

namespace Samples

/-- Asked for one diagnostic of two lines, and left with two of one line each. -/
def folded : Scenario PlainText.kit.Recipe :=
  ⟨"folded", "x", .chain 0 [.mark 1 "a", .mark 2 "b"], "x", some ["a\nb"]⟩

def foldedKey : Key := ⟨"V8", "C", "folded"⟩

/-- Different diagnostics are shown as one text. -/
theorem mismatch_evidence_folded :
    ∃ ds, (execute 2 (some 0) foldedKey folded).Leads ds
        (.done (.error (.mismatch foldedKey "a\nb" "a\nb" "diagnostics"))) ∧
      renderings ds = [⟨"x", ["a", "b"]⟩, ⟨"x", ["a", "b"]⟩] ∧
      MismatchEvidence 2 foldedKey folded (renderings ds) foldedKey "a\nb" "a\nb" "diagnostics" := by
  have ends : ((execute 2 (some 0) foldedKey folded).advance true "main" bench).1.value? =
      some (.error (.mismatch foldedKey "a\nb" "a\nb" "diagnostics")) := by decide +kernel
  have calm : faults ((execute 2 (some 0) foldedKey folded).performed "main" bench) = [] := by
    decide +kernel
  have rendered : renderings ((execute 2 (some 0) foldedKey folded).performed "main" bench) =
      [⟨"x", ["a", "b"]⟩, ⟨"x", ["a", "b"]⟩] := by
    decide +kernel
  have leads := Work.leads_performed ends
  exact ⟨_, leads, rendered, mismatch_evidence leads calm⟩

end Samples

end Concord
