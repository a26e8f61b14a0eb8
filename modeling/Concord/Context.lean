import Concord.Fault
/-!
Resolution contexts. Whoever first asks for a backend opens a context and constructs the backend;
everyone else reads the outcome from the context once it is published.
-/

namespace Concord

/-- The shared record of one construction of instances `ι`. A failure outweighs an instance. -/
structure Context (ι : Type) where
  identity : String
  ready : Bool := false
  instance? : Option ι := none
  failure? : Option Fault := none

namespace Context

variable {ι : Type}

def publishInstance (c : Context ι) (i : Option ι) : Context ι :=
  { c with ready := true, instance? := i }

def publishFailure (c : Context ι) (f : Fault) : Context ι :=
  { c with ready := true, failure? := some f }

def publish (c : Context ι) : Except Fault (Option ι) → Context ι
  | .ok i => c.publishInstance i
  | .error f => c.publishFailure f

def isPending (c : Context ι) : Bool := !c.ready

def hasFailed (c : Context ι) : Bool := c.failure?.isSome

/-- What a reader gets, once something is published. -/
def outcome? (c : Context ι) : Option (Except Fault ι) :=
  if c.ready then
    match c.failure?, c.instance? with
    | some f, _ => some (.error f)
    | none, some i => some (.ok i)
    | none, none =>
        some (.error (.breakdown .runtime s!"Backend {c.identity} published no instance"))
  else none

end Context

end Concord
