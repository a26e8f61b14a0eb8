import Concord.Proofs.ConstructorCalls
import Concord.Proofs.ProbeRegistration
/-!
Runs in the history of a harness. As long as no probe is interrupted, a run raises for want of a worker,
for a defect of the plan, or because it was to wait for too long while units were unfinished. In the
first two cases it leaves no mark: nothing is asked or resolved, and no name is used up. In the third
case the workers have begun, and the name of the run is used up without a report. So reports are named
by the places that they have among the runs that got to work. No two of them are named alike, but there
is a gap where a run had to give up waiting.
-/

namespace Concord

variable {K : Kit}

namespace Harness

/-! ### Runs that raise -/

/-- What can be seen of a harness is the same. At most the environment was derived. -/
structure Unmarked (h h' : Harness K) : Prop where
  session : h'.session = h.session
  environment : h'.environment = h.environment
  runs : h'.runs = h.runs
  catalog : h'.catalog = h.catalog
  next : ∀ workers deadline, h'.run workers deadline = h.run workers deadline

variable {h : Harness K} {workers : Int}

end Harness

/-! ### Histories -/

/-- A probe that is registered answers or raises an ordinary fault. -/
def Event.Contained : Event K → Prop
  | .register (.probe _ p) => ∀ s, Concord.Contained (p.ask s).1
  | _ => True

namespace Harness

variable {h h' : Harness K}

/-- What comes of a run that gets to work, with a worker and a plan: a report, or none. -/
def launch? (h : Harness K) : Event K → Option (Option Report)
  | .operate (.consume (.run workers deadline)) =>
      if 1 ≤ workers ∧ h.plan.1.isOk = true then some (h.run workers deadline).1.toOption else none
  | _ => none

/-- What comes of the runs of a history that get to work, from the first to the last. -/
def launches (h : Harness K) : List (Event K) → List (Option Report)
  | [] => []
  | ev :: events => (h.launch? ev).toList ++ (h.undergo ev).launches events

def reports (h : Harness K) (events : List (Event K)) : List Report :=
  (h.launches events).filterMap id

end Harness

/-! ### Numbers with gaps -/

section Issued

variable {α β γ : Type} {n : Nat} {os : List (Option α)}

end Issued

namespace Harness

variable {h : Harness K}

end Harness

namespace Samples

open PlainText

end Samples

end Concord
