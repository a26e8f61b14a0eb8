import Concord.Log.Recorder
import Mathlib.Data.List.Induction
/-!
What a flight recorder leaves in its file. Some records of a sequence trigger: a severe one, and one
that fills the buffer, which is counted from the record before which everything was written out. When
the recorder is closed, the file has all records up to the last one that triggered, in their order,
and the whole sequence if that is forced. There is a file just if there are such records, and nothing
that comes to the recorder later writes any more.
-/

namespace Concord.Log

/-! ### Records that trigger -/

/-- The record at place `i` of `xs` makes everything be written out: it is severe, or it is the last of
`capacity` records in a row, of which none before it has triggered. -/
def Triggers (capacity : Int) (trigger : Severity) (xs : List Record) (i : Nat) : Prop :=
  ∃ x, xs[i]? = some x ∧ (trigger ≤ x.severity ∨
    ∃ j ≤ i, capacity ≤ ((i + 1 - j : Nat) : Int) ∧
      ∀ k, j ≤ k → (before : k < i) → ¬ Triggers capacity trigger xs k)
termination_by i

/-- `ys` are the records of `xs` up to the last one that triggers, and that one too. -/
def UpToLastTrigger (capacity : Int) (trigger : Severity) (xs ys : List Record) : Prop :=
  ∃ n ≤ xs.length, ys = xs.take n ∧ (∀ m, n = m + 1 → Triggers capacity trigger xs m) ∧
    ∀ i, n ≤ i → ¬ Triggers capacity trigger xs i

section Triggers

variable {capacity : Int} {trigger : Severity} {xs ys zs : List Record}

theorem triggers_iff {i : Nat} :
    Triggers capacity trigger xs i ↔
      ∃ x, xs[i]? = some x ∧ (trigger ≤ x.severity ∨
        ∃ j ≤ i, capacity ≤ ((i + 1 - j : Nat) : Int) ∧
          ∀ k, j ≤ k → k < i → ¬ Triggers capacity trigger xs k) := by
  rw [Triggers]

theorem Triggers.lt_length {i : Nat} (triggers : Triggers capacity trigger xs i) : i < xs.length := by
  obtain ⟨x, found, _⟩ := triggers_iff.mp triggers
  exact (List.getElem?_eq_some_iff.mp found).1

/-- Whether a record triggers does not depend on what comes after it. -/
theorem triggers_append {i : Nat} (early : i < xs.length) :
    Triggers capacity trigger (xs ++ ys) i ↔ Triggers capacity trigger xs i := by
  induction i using Nat.strongRecOn with
  | ind i ih =>
      rw [triggers_iff, triggers_iff, List.getElem?_append_left early]
      have same : ∀ k < i, (¬ Triggers capacity trigger (xs ++ ys) k ↔
          ¬ Triggers capacity trigger xs k) :=
        fun k before => not_congr (ih k before (Nat.lt_trans before early))
      have rows : ∀ j, (∀ k, j ≤ k → k < i → ¬ Triggers capacity trigger (xs ++ ys) k) ↔
          ∀ k, j ≤ k → k < i → ¬ Triggers capacity trigger xs k :=
        fun j => forall₃_congr fun k _ before => same k before
      simp only [rows]

/-- There is only one last record that triggers. -/
theorem UpToLastTrigger.unique (up : UpToLastTrigger capacity trigger xs ys)
    (up' : UpToLastTrigger capacity trigger xs zs) : ys = zs := by
  obtain ⟨n, _, rfl, last, quiet⟩ := up
  obtain ⟨n', _, rfl, last', quiet'⟩ := up'
  have no_later {a b : Nat} (last : ∀ m, b = m + 1 → Triggers capacity trigger xs m)
      (quiet : ∀ i, a ≤ i → ¬ Triggers capacity trigger xs i) : b ≤ a := by
    by_contra later
    obtain ⟨m, rfl⟩ : ∃ m, b = m + 1 := ⟨b - 1, by omega⟩
    exact quiet m (by omega) (last m rfl)
  rw [Nat.le_antisymm (no_later last quiet') (no_later last' quiet)]

end Triggers

namespace Recorder

/-! ### Open recorders -/

/-- A recorder to which nothing has come yet. -/
def made (capacity : Int) (trigger : Severity) (force : Bool) : Recorder :=
  { capacity, trigger, writesOnClose := force }

/-- The recorder with a record that it has just got. -/
def holding (r : Recorder) (x : Record) : Recorder := { r with buffer := r.buffer ++ [x] }

theorem record_of_due {r : Recorder} {x : Record} (due : (r.holding x).isDue x = true) :
    r.record x = (r.holding x).flush := if_pos due

theorem record_of_undue {r : Recorder} {x : Record} (undue : (r.holding x).isDue x ≠ true) :
    r.record x = r.holding x := if_neg undue

/-- Of the records `xs`, the first `n` were written and the others wait. The last one that was
written has triggered, and none has since. -/
structure Keeps (capacity : Int) (trigger : Severity) (force : Bool) (xs : List Record) (n : Nat)
    (r : Recorder) : Prop where
  bounded : n ≤ xs.length
  state : r = { made capacity trigger force with written := xs.take n, buffer := xs.drop n }
  last : ∀ m, n = m + 1 → Triggers capacity trigger xs m
  quiet : ∀ i, n ≤ i → ¬ Triggers capacity trigger xs i

section Keeps

variable {capacity : Int} {trigger : Severity} {force : Bool} {xs : List Record} {n : Nat}
  {r : Recorder}

theorem keeps_made : Keeps capacity trigger force [] 0 (made capacity trigger force) := by
  refine ⟨Nat.le_refl 0, rfl, fun m impossible => by omega, fun i _ triggers => ?_⟩
  exact absurd triggers.lt_length (by simp)

/-- The recorder looks at the number of waiting records, and so at how long none has triggered. -/
theorem Keeps.triggers_iff_due (keeps : Keeps capacity trigger force xs n r) (x : Record) :
    Triggers capacity trigger (xs ++ [x]) xs.length ↔
      (r.holding x).isDue x = true := by
  have waiting : (r.holding x).buffer.length = xs.length + 1 - n := by
    have bounded := keeps.bounded
    simp only [holding, keeps.state, List.length_append, List.length_drop, List.length_singleton]
    omega
  have limit : (r.holding x).capacity = capacity := by
    rw [keeps.state]
    rfl
  have severity : (r.holding x).trigger = trigger := by
    rw [keeps.state]
    rfl
  have earlier : ∀ k < xs.length, (Triggers capacity trigger (xs ++ [x]) k ↔
      Triggers capacity trigger xs k) := fun k before => triggers_append before
  rw [triggers_iff, List.getElem?_concat_length]
  simp only [isDue, waiting, limit, severity, Bool.or_eq_true, decide_eq_true_eq, Option.some.injEq,
    exists_eq_left']
  constructor
  · rintro (severe | ⟨j, _, full, row⟩)
    · exact .inr severe
    · left
      -- The row begins after the last record that triggered.
      have after : n ≤ j := by
        by_contra inside
        obtain ⟨m, rfl⟩ : ∃ m, n = m + 1 := ⟨n - 1, by omega⟩
        have bounded := keeps.bounded
        exact row m (by omega) (by omega) ((earlier m (by omega)).mpr (keeps.last m rfl))
      omega
  · rintro (full | severe)
    · refine .inr ⟨n, keeps.bounded, full, fun k after before triggers => ?_⟩
      exact keeps.quiet k after ((earlier k before).mp triggers)
    · exact .inl severe

theorem Keeps.record (keeps : Keeps capacity trigger force xs n r) (x : Record) :
    ∃ n', Keeps capacity trigger force (xs ++ [x]) n' (r.record x) := by
  have due_iff := keeps.triggers_iff_due x
  have bounded := keeps.bounded
  have beyond {i : Nat} (triggers : Triggers capacity trigger (xs ++ [x]) i) : i ≤ xs.length := by
    have inside := triggers.lt_length
    simp only [List.length_append, List.length_singleton] at inside
    omega
  by_cases due : (r.holding x).isDue x = true
  · refine ⟨xs.length + 1, by simp, ?_, fun m same => ?_, fun i after triggers => ?_⟩
    · rw [record_of_due due, keeps.state]
      simp [holding, flush, made, ← List.append_assoc, List.take_of_length_le]
    · obtain rfl : xs.length = m := by omega
      exact due_iff.mpr due
    · exact absurd (beyond triggers) (by omega)
  · refine ⟨n, by simp; omega, ?_, fun m same => ?_, fun i after triggers => ?_⟩
    · rw [record_of_undue due, keeps.state, List.take_append_of_le_length bounded,
        List.drop_append_of_le_length bounded]
      rfl
    · exact (triggers_append (by omega)).mpr (keeps.last m same)
    · rcases Nat.lt_or_eq_of_le (beyond triggers) with before | rfl
      · exact keeps.quiet i after ((triggers_append before).mp triggers)
      · exact due (due_iff.mp triggers)

theorem keeps_recordAll (capacity : Int) (trigger : Severity) (force : Bool) (xs : List Record) :
    ∃ n, Keeps capacity trigger force xs n ((made capacity trigger force).recordAll xs) := by
  induction xs using List.reverseRecOn with
  | nil => exact ⟨0, keeps_made⟩
  | append_singleton xs x ih =>
      obtain ⟨n, keeps⟩ := ih
      rw [recordAll_append]
      exact keeps.record x

theorem Keeps.upToLastTrigger (keeps : Keeps capacity trigger force xs n r) :
    UpToLastTrigger capacity trigger xs r.written :=
  ⟨n, keeps.bounded, by rw [keeps.state], keeps.last, keeps.quiet⟩

/-- Closing writes what waits if that is forced, and else nothing. -/
theorem Keeps.written_close (keeps : Keeps capacity trigger force xs n r) :
    r.close.written = if force then xs else r.written := by
  rw [keeps.state]
  cases force <;> simp [close, flush, made]

end Keeps

/-! ### Closed recorders -/

/-- What may come to a recorder. -/
inductive Request
  | record (x : Record)
  | flush
  | close
  | shutdown

def serve (r : Recorder) : Request → Recorder
  | .record x => r.record x
  | .flush => r.flush
  | .close => r.close
  | .shutdown => r.shutdown

def serveAll (r : Recorder) (requests : List Request) : Recorder := requests.foldl serve r

theorem serveAll_records (r : Recorder) (xs : List Record) (requests : List Request) :
    r.serveAll (xs.map .record ++ requests) = (r.recordAll xs).serveAll requests := by
  simp only [serveAll, recordAll, List.foldl_append, List.foldl_map]
  rfl

@[simp] theorem hasFile_close (r : Recorder) : r.close.hasFile = false := by
  unfold close
  split <;> rfl

theorem flush_of_closed {r : Recorder} (closed : r.hasFile = false) : r.flush = r := by
  simp [flush, closed]

/-- Without a file nothing is written, and no file comes back. -/
theorem serve_of_closed {r : Recorder} (closed : r.hasFile = false) (request : Request) :
    (r.serve request).hasFile = false ∧ (r.serve request).written = r.written := by
  have closing (r : Recorder) (closed : r.hasFile = false) : r.close.written = r.written := by
    unfold close
    rw [flush_of_closed closed]
    split <;> rfl
  cases request with
  | record x =>
      have closed' : (r.holding x).hasFile = false := closed
      by_cases due : (r.holding x).isDue x = true
      · rw [serve, record_of_due due, flush_of_closed closed']
        exact ⟨closed, rfl⟩
      · rw [serve, record_of_undue due]
        exact ⟨closed, rfl⟩
  | flush => exact ⟨by rw [serve, flush_of_closed closed, closed], by rw [serve, flush_of_closed closed]⟩
  | close => exact ⟨hasFile_close r, closing r closed⟩
  | shutdown =>
      refine ⟨hasFile_close r.flush, ?_⟩
      rw [serve, shutdown, flush_of_closed closed, closing r closed]

theorem serveAll_of_closed {r : Recorder} (closed : r.hasFile = false) (requests : List Request) :
    (r.serveAll requests).written = r.written := by
  induction requests generalizing r with
  | nil => rfl
  | cons request requests ih =>
      obtain ⟨closed', written⟩ := serve_of_closed closed request
      exact (ih closed').trans written

/-! ### Files -/

theorem file?_eq_none_iff {r : Recorder} {a : Ambient} : r.file? a = none ↔ r.written = [] := by
  simp [file?]

theorem file?_eq_some_iff {r : Recorder} {a : Ambient} {text : String} :
    r.file? a = some text ↔ r.written ≠ [] ∧ text = String.join (r.written.map (line a)) := by
  unfold file?
  by_cases unwritten : r.written = []
  · simp [unwritten]
  · simp [unwritten, eq_comm (a := text)]

/-! ### What is left behind -/

/-- What `left`, a recorder that was closed and has served other requests since, has of the records
`xs`. Before it was closed it was `opened`. -/
structure Leaves (capacity : Int) (trigger : Severity) (force : Bool) (xs : List Record)
    (opened left : Recorder) : Prop where
  upToLast : force = false → ∀ ys, left.written = ys ↔ UpToLastTrigger capacity trigger xs ys
  whole : force = true → left.written = xs
  /-- Closing writes only what was forced. -/
  discards : force = false → opened.close.written = opened.written
  /-- What comes after the closing writes nothing. -/
  silent : left.written = opened.close.written
  absent_iff : ∀ a, left.file? a = none ↔ left.written = []
  content_iff : ∀ a text, left.file? a = some text ↔
    left.written ≠ [] ∧ text = String.join (left.written.map (line a))

/-- Whatever the size of the buffer, the severity that triggers and the records, the file of a closed
recorder has the records up to the last one that triggered, or all of them if that is forced, each
once and in their order. Without such a record there is no file. Whatever comes to the recorder after
it was closed, another closing, a flush or the end of all logging, changes nothing of this. -/
theorem leaves_file (capacity : Int) (trigger : Severity) (force : Bool) (xs : List Record)
    (later : List Request) :
    Leaves capacity trigger force xs ((made capacity trigger force).recordAll xs)
      ((made capacity trigger force).serveAll (xs.map .record ++ .close :: later)) := by
  obtain ⟨n, keeps⟩ := keeps_recordAll capacity trigger force xs
  have closed := keeps.written_close
  have silent : ((made capacity trigger force).serveAll (xs.map .record ++ .close :: later)).written =
      ((made capacity trigger force).recordAll xs).close.written := by
    rw [serveAll_records]
    exact serveAll_of_closed (hasFile_close _) later
  refine ⟨fun unforced ys => ?_, fun forced => ?_, fun unforced => ?_, silent,
    fun a => file?_eq_none_iff, fun a text => file?_eq_some_iff⟩
  · have up := keeps.upToLastTrigger
    rw [silent, closed, if_neg (by simp [unforced])]
    exact ⟨fun same => same ▸ up, fun up' => up.unique up'⟩
  · rw [silent, closed, if_pos forced]
  · rw [closed, if_neg (by simp [unforced])]

end Recorder

end Concord.Log
