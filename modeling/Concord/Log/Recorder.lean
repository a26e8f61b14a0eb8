import Concord.Log.Ambient
/-!
The flight recorder: a buffer of records that reaches its file only on trouble, when it is full, or
when that is forced. Closing discards what was not written yet, unless the recorder was made to
write it.
-/

namespace Concord.Log

structure Recorder where
  /-- As many buffered records are written out. -/
  capacity : Int := 2000
  /-- A record of this severity makes all be written out. -/
  trigger : Severity := .warning
  writesOnClose : Bool := false
  buffer : List Record := []
  /-- The file can be written to until the recorder is closed. -/
  hasFile : Bool := true
  written : List Record := []
  deriving DecidableEq, Repr

namespace Recorder

/-- Writes the buffer out. Without a file nothing happens. -/
def flush (r : Recorder) : Recorder :=
  if r.hasFile then { r with written := r.written ++ r.buffer, buffer := [] } else r

def isDue (r : Recorder) (x : Record) : Bool :=
  decide (r.capacity ≤ r.buffer.length) || decide (r.trigger ≤ x.severity)

def record (r : Recorder) (x : Record) : Recorder :=
  let r := { r with buffer := r.buffer ++ [x] }
  if r.isDue x then r.flush else r

def recordAll (r : Recorder) (xs : List Record) : Recorder := xs.foldl record r

def close (r : Recorder) : Recorder :=
  if r.writesOnClose then { r.flush with hasFile := false }
  else { r with buffer := [], hasFile := false }

/-! ### Nothing is lost or doubled before the file is closed -/

@[simp] theorem flush_written_buffer (r : Recorder) :
    r.flush.written ++ r.flush.buffer = r.written ++ r.buffer := by
  unfold flush
  split <;> simp

@[simp] theorem record_written_buffer (r : Recorder) (x : Record) :
    (r.record x).written ++ (r.record x).buffer = r.written ++ r.buffer ++ [x] := by
  simp only [record]
  split <;> simp

theorem recordAll_written_buffer (r : Recorder) (xs : List Record) :
    (r.recordAll xs).written ++ (r.recordAll xs).buffer = r.written ++ r.buffer ++ xs := by
  induction xs generalizing r with
  | nil => simp [recordAll]
  | cons x xs ih =>
      have step : r.recordAll (x :: xs) = (r.record x).recordAll xs := rfl
      rw [step, ih, record_written_buffer]
      simp

/-! ### What reaches the file -/

theorem recordAll_append (r : Recorder) (xs ys : List Record) :
    r.recordAll (xs ++ ys) = (r.recordAll xs).recordAll ys := List.foldl_append

theorem record_frame (r : Recorder) (x : Record) :
    (r.record x).trigger = r.trigger ∧ (r.record x).hasFile = r.hasFile ∧
      r.written <+: (r.record x).written := by
  simp only [record, flush]
  split
  · split <;> simp
  · simp

theorem recordAll_frame (r : Recorder) (xs : List Record) :
    (r.recordAll xs).trigger = r.trigger ∧ (r.recordAll xs).hasFile = r.hasFile ∧
      r.written <+: (r.recordAll xs).written := by
  induction xs generalizing r with
  | nil => exact ⟨rfl, rfl, List.prefix_refl _⟩
  | cons x xs ih =>
      obtain ⟨trigger, file, earlier⟩ := r.record_frame x
      obtain ⟨trigger', file', earlier'⟩ := ih (r.record x)
      exact ⟨trigger'.trans trigger, file'.trans file, earlier.trans earlier'⟩

/-- A record of the trigger's severity takes all that came before it to the file. -/
theorem written_of_trigger {r : Recorder} (file : r.hasFile = true) {xs : List Record} {x : Record}
    (due : r.trigger ≤ x.severity) (ys : List Record) :
    r.written ++ r.buffer ++ (xs ++ [x]) <+: (r.recordAll (xs ++ x :: ys)).written := by
  obtain ⟨trigger, file', -⟩ := r.recordAll_frame xs
  have kept := r.recordAll_written_buffer xs
  have flushed : ((r.recordAll xs).record x).written = r.written ++ r.buffer ++ (xs ++ [x]) := by
    simp only [record, isDue, trigger, due, decide_true, Bool.or_true, if_true, flush, file', file]
    rw [← List.append_assoc, kept, List.append_assoc]
  rw [show xs ++ x :: ys = xs ++ [x] ++ ys by simp, recordAll_append, recordAll_append, ← flushed]
  exact (recordAll_frame _ ys).2.2

/-- Without such a record nothing reaches the file until the buffer is full. -/
theorem recordAll_of_undue {r : Recorder} {xs : List Record}
    (calm : ∀ x ∈ xs, x.severity < r.trigger) (room : r.buffer.length + xs.length < r.capacity) :
    r.recordAll xs = { r with buffer := r.buffer ++ xs } := by
  induction xs generalizing r with
  | nil => simp [recordAll]
  | cons x xs ih =>
      have low : ¬ r.trigger ≤ x.severity := Int.not_le.mpr (calm x List.mem_cons_self)
      have free : ¬ r.capacity ≤ ((r.buffer ++ [x]).length : Int) := by
        simp only [List.length_append, List.length_cons, List.length_nil] at room ⊢
        omega
      have first : r.record x = { r with buffer := r.buffer ++ [x] } := by
        simp only [record, isDue, free, low, decide_false, Bool.or_false, Bool.false_eq_true, if_false]
      have step : r.recordAll (x :: xs) = (r.record x).recordAll xs := rfl
      rw [step, first, ih]
      · simp
      · exact fun y member => calm y (List.mem_cons_of_mem _ member)
      · simp only [List.length_append, List.length_cons, List.length_nil] at room ⊢
        omega

/-- What ends the logging of a process: whatever is open is written out and closed. -/
def shutdown (r : Recorder) : Recorder := r.flush.close

/-- Ends logging. A recorder that is named is closed before the shutdown reaches it. -/
def endLogging (r : Recorder) (named : Bool) : Recorder :=
  if named then r.close.shutdown else r.shutdown

/-- A record in the file: a line, and the trace of a traced record after it. -/
def line (a : Ambient) (x : Record) : String :=
  s!"[{a.clock}] [{x.thread}] {x.severity.name} {x.source}: {a.message x}\n" ++
    if x.traced then a.trace ++ "\n" else ""

def file? (r : Recorder) (a : Ambient) : Option String :=
  if r.written.isEmpty then none else some (String.join (r.written.map (line a)))

end Recorder

end Concord.Log
