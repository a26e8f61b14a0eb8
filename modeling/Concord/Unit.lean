import Concord.Contract
/-!
Test units and their life cycle. A unit is one scenario of one contract on one backend. It starts
pending, is resolved and run or skipped, and keeps the reason, the actual text and the detail of
the move that ended it.
-/

namespace Concord

inductive Phase
  | pending
  | resolving
  | running
  | passed
  | failed
  | errored
  | skipped
  deriving DecidableEq, Repr

namespace Phase

def text : Phase → String
  | .pending => "pending"
  | .resolving => "resolving"
  | .running => "running"
  | .passed => "passed"
  | .failed => "failed"
  | .errored => "errored"
  | .skipped => "skipped"

def successors : Phase → List Phase
  | .pending => [.resolving, .skipped]
  | .resolving => [.running, .errored]
  | .running => [.passed, .failed, .errored]
  | _ => []

def isFinal : Phase → Bool
  | .passed | .failed | .errored | .skipped => true
  | _ => false

end Phase

/-- What is reported of a unit. -/
inductive Outcome
  | passed
  | failed
  | errored
  | skipped
  | stuck
  deriving DecidableEq, Repr

namespace Outcome

def all : List Outcome := [.passed, .failed, .errored, .skipped, .stuck]

def text : Outcome → String
  | .passed => "passed"
  | .failed => "failed"
  | .errored => "errored"
  | .skipped => "skipped"
  | .stuck => "stuck"

def heading : Outcome → String
  | .passed => "PASSED"
  | .failed => "FAILED"
  | .errored => "ERRORED"
  | .skipped => "SKIPPED"
  | .stuck => "STUCK"

def isFailure : Outcome → Bool
  | .failed | .errored | .stuck => true
  | _ => false

def named (t : String) : Except Fault Outcome :=
  match all.find? (·.text == t) with
  | some o => .ok o
  | none => .error (.breakdown .value s!"{Text.quoted t} is not a valid Outcome")

end Outcome

inductive Reason
  | mismatch
  | flaky
  | execution
  | unregistered
  | construction
  | gate
  | timeout
  deriving DecidableEq, Repr

namespace Reason

def all : List Reason :=
  [.mismatch, .flaky, .execution, .unregistered, .construction, .gate, .timeout]

def text : Reason → String
  | .mismatch => "AssertionMismatch"
  | .flaky => "FlakyScenario"
  | .execution => "ExecutionError"
  | .unregistered => "ResolutionError"
  | .construction => "BackendConstructionError"
  | .gate => "GateRejected"
  | .timeout => "TimedOut"

def named (t : String) : Except Fault Reason :=
  match all.find? (·.text == t) with
  | some r => .ok r
  | none => .error (.breakdown .value s!"{Text.quoted t} is not a valid Reason")

end Reason

structure Result where
  key : Key
  outcome : Outcome
  reason : Option Reason := none
  expected : String := ""
  actual : Option String := none
  detail : String := ""
  deriving DecidableEq, Repr

def Result.isFailure (r : Result) : Bool := r.outcome.isFailure

/-- One scenario of one contract on one backend. -/
structure TestUnit (ρ : Type) where
  key : Key
  scenario : Scenario ρ
  phase : Phase := .pending
  reason : Option Reason := none
  actual : Option String := none
  detail : String := ""

inductive Move
  | resolve
  | run
  | skip (reason : Reason)
  | pass (actual : Option String)
  | fail (reason : Reason) (actual : Option String) (detail : String)
  | err (reason : Reason) (detail : String)
  deriving DecidableEq, Repr

namespace Move

def target : Move → Phase
  | .resolve => .resolving
  | .run => .running
  | .skip _ => .skipped
  | .pass _ => .passed
  | .fail _ _ _ => .failed
  | .err _ _ => .errored

def reason? : Move → Option Reason
  | .skip r | .fail r _ _ | .err r _ => some r
  | _ => none

def actual? : Move → Option String
  | .pass a | .fail _ a _ => a
  | _ => none

def detail : Move → String
  | .fail _ _ d | .err _ d => d
  | _ => ""

end Move

namespace TestUnit

variable {ρ : Type}

/-- Attempts a move: the fault, if its phase may not follow, and the unit after it. A move overwrites
only what it carries. -/
def attempt (u : TestUnit ρ) (m : Move) : Option Fault × TestUnit ρ :=
  if m.target ∈ u.phase.successors then
    (none, { u with
      phase := m.target
      reason := m.reason?.or u.reason
      actual := m.actual?.or u.actual
      detail := if m.detail.isEmpty then u.detail else m.detail })
  else (some (.illegalMove u.key u.phase.text m.target.text), u)

/-- A move is refused exactly when its phase may not follow. The fault names both phases. -/
theorem fst_attempt_eq_some_iff {u : TestUnit ρ} {m : Move} {f : Fault} :
    (u.attempt m).1 = some f ↔
      m.target ∉ u.phase.successors ∧ f = .illegalMove u.key u.phase.text m.target.text := by
  unfold attempt
  by_cases h : m.target ∈ u.phase.successors
  · simp [h]
  · simp [h, eq_comm]

/-- The unit after a move, accepted or refused. -/
def moved (u : TestUnit ρ) (m : Move) : TestUnit ρ := (u.attempt m).2

/-- A move for whoever gives up where it is refused. -/
def move (u : TestUnit ρ) (m : Move) : Except Fault (TestUnit ρ) := granted (u.attempt m)

/-- A unit that has not reached a final phase is stuck. -/
def outcome (u : TestUnit ρ) : Outcome :=
  match u.phase with
  | .passed => .passed
  | .failed => .failed
  | .errored => .errored
  | .skipped => .skipped
  | _ => .stuck

def result (u : TestUnit ρ) : Result where
  key := u.key
  outcome := u.outcome
  reason := if u.outcome = .stuck then u.reason.or (some .timeout) else u.reason
  expected := u.scenario.expected
  actual := u.actual
  detail :=
    if u.detail.isEmpty then
      if u.outcome = .stuck then s!"unit left in state {u.phase.text}" else ""
    else u.detail

def text (u : TestUnit ρ) : String :=
  s!"TestUnit({Text.quoted u.key.text}, state={u.phase.text})"

end TestUnit

end Concord
