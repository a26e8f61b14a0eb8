import Concord.Execute
import Concord.Report
import Concord.Resolve
import Concord.Text.Double
/-!
Runs: every approved unit is worked off by a pool of workers. A unit is first resolved and then
run, and no fault of one unit reaches another. When the deadline passes, units that wait or have
not started are reported as stuck; the workers that wait go on later, on their own. There is no report
if the deadline is too long to be waited for while a unit is unfinished.
-/

namespace Concord

variable {K : Kit}

inductive Stage (K : Kit)
  | queued
  | resolving (rest : Work K (Except Fault (Option Nat)))
  | running (rest : Work K (Except Fault String))
  | over

structure Job (K : Kit) where
  unit : TestUnit K.Recipe
  stage : Stage K

def Stage.isOver : Stage K → Bool
  | .over => true
  | _ => false

def Stage.isQueued : Stage K → Bool
  | .queued => true
  | _ => false

/-- The last record about a unit: a warning if it failed. -/
def endRecord {ρ : Type} (u : TestUnit ρ) : Record :=
  match u.outcome with
  | .failed | .errored =>
      Source.runner.record .warning
        (s!"{u.outcome.heading} {u.key.text} (" ++ (u.reason.map (·.text)).getD "unknown" ++ ")")
  | _ =>
      { Source.runner.record .debug s!"{u.outcome.heading} {u.key.text}" with timed := true }

/-- A unit whose backend could not be obtained. Any other fault than the two that resolution
declares leaves the unit where it is, and unlogged. -/
def unresolved {ρ : Type} (u : TestUnit ρ) (f : Fault) : TestUnit ρ × List Record :=
  match f with
  | .unregistered _ =>
      let u' := u.moved (.err .unregistered f.message)
      (u', [endRecord u'])
  | .construction _ _ _ =>
      let u' := u.moved (.err .construction f.message)
      (u', [endRecord u'])
  | _ => (u, [])

/-- A unit whose scenario was executed. An interrupt leaves the unit where it is, and unlogged. -/
def executed {ρ : Type} (u : TestUnit ρ) : Except Fault String → TestUnit ρ × List Record
  | .ok text =>
      let u' := u.moved (.pass (some text))
      (u', [endRecord u'])
  | .error (.flaky k e rs) =>
      let u' := u.moved (.fail .flaky rs.getLast? (Fault.flaky k e rs).message)
      (u', [endRecord u'])
  | .error (.mismatch k e a w) =>
      let u' := u.moved (.fail .mismatch (some a) (Fault.mismatch k e a w).message)
      (u', [endRecord u'])
  | .error f =>
      if f.isOrdinary then
        let u' := u.moved (.fail .execution none f.described)
        (u', [{ Source.runner.record .debug s!"{u.key.text} raised while executing" with
                traced := true }, endRecord u'])
      else (u, [])

namespace Job

def goRunning (patient : Bool) (thread : String) (u : TestUnit K.Recipe)
    (w : Work K (Except Fault String)) (s : Session K) : Job K × Session K :=
  match w.advance patient thread s with
  | (.done r, s') =>
      let (u', rs) := executed u r
      (⟨u', .over⟩, s'.write thread rs)
  | (rest, s') => (⟨u, .running rest⟩, s')

/-- Goes on with the resolution of a unit, and with its execution if a backend was obtained. -/
def goResolving (replays : Nat) (patient : Bool) (thread : String) (u : TestUnit K.Recipe)
    (w : Work K (Except Fault (Option Nat))) (s : Session K) : Job K × Session K :=
  match w.advance patient thread s with
  | (.done (.ok i), s') =>
      goRunning patient thread (u.moved .run) (execute replays i u.key u.scenario) s'
  | (.done (.error f), s') =>
      let (u', rs) := unresolved u f
      (⟨u', .over⟩, s'.write thread rs)
  | (rest, s') => (⟨u, .resolving rest⟩, s')

/-- Goes on with a unit as far as it goes without waiting. -/
def advance (catalog : Catalog K) (replays : Nat) (patient : Bool) (thread : String) (j : Job K)
    (s : Session K) : Job K × Session K :=
  match j.stage with
  | .queued =>
      goResolving replays patient thread (j.unit.moved .resolve)
        (resolve catalog j.unit.key.backend) s
  | .resolving w => goResolving replays patient thread j.unit w s
  | .running w => goRunning patient thread j.unit w s
  | .over => (j, s)

end Job

def workerName (n : Nat) : String := s!"parity_{n}"

/-- Works off the jobs in order, as many of them as `turns` allows. A job that has to wait keeps its
worker; with no worker left, the other jobs stay queued. -/
def dispatch (catalog : Catalog K) (replays : Nat) (patient : Bool) (workers : Nat) :
    (turns : Option Nat) → (waiting : Nat) → List (Job K) → Session K → List (Job K) × Session K
  | _, _, [], s => ([], s)
  | turns, waiting, j :: js, s =>
      if j.stage.isOver || workers ≤ waiting || turns == some 0 then
        let (js', s') := dispatch catalog replays patient workers turns waiting js s
        (j :: js', s')
      else
        let (j', s₁) := j.advance catalog replays patient (workerName waiting) s
        let waiting' := if j'.stage.isOver then waiting else waiting + 1
        let (js', s₂) := dispatch catalog replays patient workers (turns.map (· - 1)) waiting' js s₁
        (j' :: js', s₂)

/-- Lets the workers that wait finish what they began. Queued jobs are cancelled. -/
def finishLate (catalog : Catalog K) (replays : Nat) :
    (waiting : Nat) → List (Job K) → Session K → Session K
  | _, [], s => s
  | waiting, j :: js, s =>
      if j.stage.isOver || j.stage.isQueued then finishLate catalog replays waiting js s
      else
        let (_, s') := j.advance catalog replays true (workerName waiting) s
        finishLate catalog replays (waiting + 1) js s'

/-- The jobs of a run in plan order: a unit that the gate rejects is skipped at once. -/
def jobsOf {ρ : Type} (entries : List (Planned ρ × Bool)) : List (TestUnit ρ × Bool) :=
  entries.flatMap fun (p, runs) => p.units.map fun u =>
    if runs then (u, true) else (u.moved (.skip .gate), false)

def openJobs (units : List (TestUnit K.Recipe × Bool)) : List (Job K) :=
  units.map fun (u, runs) => ⟨u, if runs then .queued else .over⟩

/-- What is raised where somebody has to wait for so long. -/
def waitFault? (t : Text.Seconds) : Option Fault :=
  if t.isTooLong then
    match t with
    | .whole _ => some (.breakdown .overflow "timestamp too large to convert to C _PyTime_t")
    | .real _ => some (.breakdown .overflow "timestamp out of range for platform time_t")
  else none

/-- How many jobs are begun before the run stops to wait: those of the head start, if waiting fails at
once. -/
def turnsWithin (deadline : Option Text.Seconds) (headStart : Nat) : Option Nat :=
  (deadline.bind waitFault?).map fun _ => headStart

/-- What is raised instead of a report. Nobody waits where all jobs are over. -/
def overrun? (deadline : Option Text.Seconds) (js : List (Job K)) : Option Fault :=
  if js.all (·.stage.isOver) then none else deadline.bind waitFault?

def workOff (catalog : Catalog K) (replays workers : Nat) (deadline : Option Text.Seconds)
    (headStart : Nat) (runId : String) (entries : List (Planned K.Recipe × Bool)) (s : Session K) :
    Except Fault Report × Session K :=
  let units := jobsOf entries
  let approved := units.countP (·.2)
  let s := s.write "MainThread" [Source.runner.record .info
    s!"Run {runId}: {units.length} unit(s) planned, {approved} approved, {workers} worker(s)"]
  let (jobs, s) := dispatch catalog replays deadline.isNone workers (turnsWithin deadline headStart) 0
    (openJobs units) s
  match overrun? deadline jobs with
  | some f => (.error f, finishLate catalog replays 0 jobs s.clear)
  | none =>
      let unfinished := jobs.countP (!·.stage.isOver)
      let s := match deadline with
        | some t =>
            if unfinished = 0 then s
            else s.write "MainThread" [Source.runner.record .error
              s!"Run {runId}: {unfinished} unit(s) did not finish within {t.text}s"]
        | none => s
      let s := s.clear
      let report : Report := ⟨runId, jobs.map (·.unit.result)⟩
      let s := s.write "MainThread" [Source.runner.record .info
        s!"Run {runId} finished: {report.summary}"]
      (.ok report, finishLate catalog replays 0 jobs s)

end Concord
