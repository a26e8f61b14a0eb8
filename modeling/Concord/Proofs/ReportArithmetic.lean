import Concord.Proofs.JoinedTexts
import Concord.Proofs.Lists
import Concord.Report
import Mathlib.Algebra.Ring.Nat
/-!
The views of a report. The results of each outcome are the results of the report, taken apart; the
counts tell how many they are, and the failures are those of three of the outcomes. The summary names
the counts that are not zero, and from it they can be read back, so that two reports with the same
summary have the same counts.
-/

namespace Concord

namespace Outcome

theorem mem_all (o : Outcome) : o ∈ all := by
  cases o <;> decide

theorem nodup_all : all.Nodup := by decide

theorem text_inj {o o' : Outcome} : o.text = o'.text ↔ o = o' := by
  cases o <;> cases o' <;> decide

/-- What is shown of an outcome that `n` units have. -/
def tally (o : Outcome) (n : Nat) : String := s!"{n} {o.text}"

theorem toList_tally (o : Outcome) (n : Nat) :
    (o.tally n).toList = Nat.toDigits 10 n ++ ' ' :: o.text.toList := by
  show (toString n ++ " " ++ o.text).toList = _
  simp

theorem not_mem_toDigits {c : Char} (other : c.isDigit = false) (n : Nat) :
    c ∉ Nat.toDigits 10 n := by
  intro member
  have digit := Nat.isDigit_of_mem_toDigits (by omega) (by omega) member
  rw [other] at digit
  cases digit

/-- The number ends at the blank, since no digit is one. -/
theorem tally_inj {o o' : Outcome} {m n : Nat} : o.tally m = o'.tally n ↔ o = o' ∧ m = n := by
  refine ⟨fun same => ?_, fun ⟨same, same'⟩ => by rw [same, same']⟩
  rw [← String.toList_inj, toList_tally, toList_tally] at same
  have unbroken : ' ' ∉ o.text.toList := by cases o <;> decide
  obtain ⟨digits, -, rest⟩ :=
    (List.append_cons_inj_of_notMem (not_mem_toDigits (by decide) m) unbroken).mp same
  refine ⟨text_inj.mp (String.toList_inj.mp rest), ?_⟩
  calc
    m = Nat.ofDigitChars 10 (Nat.toDigits 10 m) 0 := Nat.ofDigitChars_ten_toDigits.symm
    _ = Nat.ofDigitChars 10 (Nat.toDigits 10 n) 0 := by rw [digits]
    _ = n := Nat.ofDigitChars_ten_toDigits

/-- No outcome ends like what is shown of no units. -/
theorem tally_ne_none (o : Outcome) (n : Nat) : o.tally n ≠ "no test units" := by
  intro same
  have last := congrArg (fun t : String => t.toList.getLast?) same
  simp only [toList_tally, List.getLast?_append, List.getLast?_cons, Option.some_or] at last
  revert last
  cases o <;> decide

end Outcome

namespace Report

variable {r r' : Report}

/-! ### Counts -/

theorem length_withOutcome (r : Report) (o : Outcome) : (r.withOutcome o).length = r.count o :=
  List.countP_eq_length_filter.symm

theorem mem_withOutcome {o : Outcome} {x : Result} :
    x ∈ r.withOutcome o ↔ x ∈ r.results ∧ x.outcome = o := by
  simp [withOutcome]

theorem perm_withOutcome (r : Report) : (Outcome.all.flatMap r.withOutcome).Perm r.results :=
  perm_flatMap_filter Outcome.nodup_all Result.outcome fun x _ => x.outcome.mem_all

theorem sum_counts (r : Report) : (r.counts.map Prod.snd).sum = r.results.length := by
  have lengths : r.counts.map Prod.snd = Outcome.all.map fun o => (r.withOutcome o).length := by
    simp only [counts, List.map_map, length_withOutcome]
    rfl
  rw [lengths, ← List.length_flatMap, r.perm_withOutcome.length_eq]

theorem lookup_counts (r : Report) (o : Outcome) : r.counts.lookup o = some (r.count o) := by
  cases o <;> rfl

theorem counts_eq_iff : r.counts = r'.counts ↔ ∀ o, r.count o = r'.count o := by
  refine ⟨fun same o => ?_, fun same => ?_⟩
  · have found := congrArg (List.lookup o) same
    rwa [lookup_counts, lookup_counts, Option.some.injEq] at found
  · simp only [counts, same]

/-! ### Failures -/

theorem mem_failures {x : Result} : x ∈ r.failures ↔
    x ∈ r.results ∧ (x.outcome = .failed ∨ x.outcome = .errored ∨ x.outcome = .stuck) := by
  have failure : x.isFailure = true ↔
      x.outcome = .failed ∨ x.outcome = .errored ∨ x.outcome = .stuck := by
    unfold Result.isFailure
    cases x.outcome <;> simp [Outcome.isFailure]
  rw [failures, List.mem_filter, failure]

theorem length_failures (r : Report) :
    r.failures.length = r.count .failed + r.count .errored + r.count .stuck := by
  unfold failures count
  induction r.results with
  | nil => rfl
  | cons x xs ih =>
      have failure : x.isFailure = x.outcome.isFailure := rfl
      rw [List.filter_cons, failure]
      cases outcome : x.outcome <;>
        simp only [outcome, Outcome.isFailure, List.countP_cons, if_true, if_false, Bool.false_eq_true,
          List.length_cons, ih, beq_iff_eq, reduceCtorEq] <;>
        omega

theorem ok_iff : r.ok = true ↔ r.count .failed = 0 ∧ r.count .errored = 0 ∧ r.count .stuck = 0 := by
  rw [ok, List.isEmpty_iff_length_eq_zero, length_failures]
  omega

/-! ### Summaries -/

theorem mem_summaryParts {part : String} :
    part ∈ r.summaryParts ↔ ∃ o, r.count o ≠ 0 ∧ part = o.tally (r.count o) := by
  simp only [summaryParts, counts, List.mem_filterMap, List.mem_map]
  constructor
  · rintro ⟨_, ⟨o, _, rfl⟩, shown⟩
    by_cases zero : r.count o = 0
    · simp [zero] at shown
    · refine ⟨o, zero, ?_⟩
      simpa [zero, Outcome.tally, eq_comm] using shown
  · rintro ⟨o, some_units, rfl⟩
    exact ⟨(o, r.count o), ⟨o, o.mem_all, rfl⟩, by simp [some_units, Outcome.tally]⟩

/-- A part of the summary says how many units have its outcome. -/
theorem tally_mem_summaryParts {o : Outcome} {n : Nat} :
    o.tally n ∈ r.summaryParts ↔ n ≠ 0 ∧ r.count o = n := by
  rw [mem_summaryParts]
  constructor
  · rintro ⟨o', some_units, same⟩
    obtain ⟨rfl, rfl⟩ := Outcome.tally_inj.mp same
    exact ⟨some_units, rfl⟩
  · rintro ⟨some_units, rfl⟩
    exact ⟨o, some_units, rfl⟩

theorem count_eq_of_summaryParts (same : r.summaryParts = r'.summaryParts) (o : Outcome) :
    r.count o = r'.count o := by
  have shows (n : Nat) : n ≠ 0 ∧ r.count o = n ↔ n ≠ 0 ∧ r'.count o = n := by
    rw [← tally_mem_summaryParts, same, tally_mem_summaryParts]
  have here := shows (r.count o)
  have there := shows (r'.count o)
  omega

/-- The parts as they are joined. Something stands there even if there are none. -/
def shownParts (r : Report) : List String :=
  if r.summaryParts.isEmpty then ["no test units"] else r.summaryParts

theorem summary_eq (r : Report) : r.summary = String.intercalate ", " r.shownParts := by
  unfold summary shownParts
  split
  · simp
  · rfl

theorem shownParts_ne_nil (r : Report) : r.shownParts ≠ [] := by
  unfold shownParts
  split
  · simp
  · rwa [List.isEmpty_iff] at *

/-- No part has a comma. -/
theorem comma_not_mem {part : String} (shown : part ∈ r.shownParts) : ',' ∉ part.toList := by
  unfold shownParts at shown
  split at shown
  · obtain rfl := List.mem_singleton.mp shown
    decide
  · obtain ⟨o, _, rfl⟩ := mem_summaryParts.mp shown
    rw [Outcome.toList_tally, List.mem_append, List.mem_cons]
    rintro (digit | blank | name)
    · exact Outcome.not_mem_toDigits (by decide) _ digit
    · revert blank
      decide
    · revert name
      cases o <;> decide

theorem shownParts_of_summary (same : r.summary = r'.summary) : r.shownParts = r'.shownParts := by
  have crisp : Crisp (", " : String).toList := by
    show ',' ∉ _
    decide
  have free (r : Report) :
      ∀ part ∈ r.shownParts.map String.toList, ¬ (", " : String).toList <:+: part := by
    rintro _ member inside
    obtain ⟨part, shown, rfl⟩ := List.mem_map.mp member
    exact comma_not_mem shown (inside.subset (by decide))
  rw [summary_eq, summary_eq, ← String.toList_inj, String.toList_intercalate,
    String.toList_intercalate] at same
  have parts := crisp.intercalate_inj (by simpa using r.shownParts_ne_nil)
    (by simpa using r'.shownParts_ne_nil) (free r) (free r') same
  exact List.map_injective_iff.mpr (fun _ _ => String.toList_inj.mp) parts

theorem summaryParts_of_shownParts (same : r.shownParts = r'.shownParts) :
    r.summaryParts = r'.summaryParts := by
  have apart (r : Report) : r.summaryParts ≠ ["no test units"] := by
    intro only
    obtain ⟨o, _, part⟩ := mem_summaryParts.mp (only ▸ List.mem_singleton_self "no test units")
    exact o.tally_ne_none _ part.symm
  unfold shownParts at same
  split at same <;> split at same
  · rename_i empty empty'
    rw [List.isEmpty_iff.mp empty, List.isEmpty_iff.mp empty']
  · exact absurd same.symm (apart r')
  · exact absurd same (apart r)
  · exact same

/-- The counts can be read back from the summary. -/
theorem summary_eq_iff : r.summary = r'.summary ↔ r.counts = r'.counts := by
  refine ⟨fun same => ?_, fun same => by simp only [summary, summaryParts, same]⟩
  have parts := summaryParts_of_shownParts (shownParts_of_summary same)
  exact counts_eq_iff.mpr (count_eq_of_summaryParts parts)

theorem summary_eq_none_iff : r.summary = "no test units" ↔ r.results = [] := by
  have nothing : (⟨r.runId, []⟩ : Report).summary = "no test units" := rfl
  rw [← nothing, summary_eq_iff]
  constructor
  · intro same
    have total := r.sum_counts
    rw [same, sum_counts] at total
    exact List.eq_nil_of_length_eq_zero total.symm
  · intro empty
    simp only [counts, count, empty]

/-! ### All views together -/

/-- What the views of one report say of each other. -/
structure Coheres (r : Report) : Prop where
  listed : r.counts.map Prod.fst = Outcome.all ∧ Outcome.all.Nodup ∧ ∀ o : Outcome, o ∈ Outcome.all
  total : (r.counts.map Prod.snd).sum = r.results.length
  counted : ∀ o, r.counts.lookup o = some (r.count o) ∧ (r.withOutcome o).length = r.count o
  inOrder : ∀ o, (r.withOutcome o).Sublist r.results
  members : ∀ o x, x ∈ r.withOutcome o ↔ x ∈ r.results ∧ x.outcome = o
  /-- Each result is in one of the parts, as often as in the report. -/
  takenApart : (Outcome.all.flatMap r.withOutcome).Perm r.results
  failuresInOrder : r.failures.Sublist r.results
  failing : ∀ x, x ∈ r.failures ↔
    x ∈ r.results ∧ (x.outcome = .failed ∨ x.outcome = .errored ∨ x.outcome = .stuck)
  failureCount : r.failures.length = r.count .failed + r.count .errored + r.count .stuck
  ok_iff : r.ok = true ↔ r.count .failed = 0 ∧ r.count .errored = 0 ∧ r.count .stuck = 0
  summary_iff : ∀ r' : Report, r.summary = r'.summary ↔ r.counts = r'.counts
  nothing_iff : r.summary = "no test units" ↔ r.results = []

/-- The counts list every outcome once and add up to the number of results; the results of the outcomes
are those of the report, taken apart, in plan order and as many as counted; the failures are those of
three outcomes; a report is fine if these have no results; and the summary tells the counts. -/
theorem coheres (r : Report) : r.Coheres where
  listed := ⟨rfl, Outcome.nodup_all, Outcome.mem_all⟩
  total := r.sum_counts
  counted o := ⟨r.lookup_counts o, r.length_withOutcome o⟩
  inOrder _ := List.filter_sublist
  members _ _ := mem_withOutcome
  takenApart := r.perm_withOutcome
  failuresInOrder := List.filter_sublist
  failing _ := mem_failures
  failureCount := r.length_failures
  ok_iff := Report.ok_iff
  summary_iff _ := summary_eq_iff
  nothing_iff := summary_eq_none_iff

end Report

end Concord
