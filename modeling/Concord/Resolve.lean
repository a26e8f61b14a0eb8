import Concord.Catalog
import Concord.Session
/-!
Resolution: from a backend's identity to its one shared instance. The first to ask constructs the
instance and publishes how that ended, even when it was interrupted; all others read what was
published. A failed construction is not tried again.
-/

namespace Concord

variable {K : Kit}

/-- How a failed construction is published. An interrupt is not passed on to the readers. -/
def publishedFailure (identity : String) (f : Fault) : Fault :=
  if f.isOrdinary then .construction identity f.described (some f.label)
  else .construction identity "construction interrupted" none

/-- Constructs a backend and publishes the outcome in the context that was opened for it. -/
def buildIn (b : Backend K) (context : Nat) : Work K (Except Fault (Option Nat)) := do
  Work.log (Source.resolver.record .info s!"Constructing backend {b.identity}")
  match ← Work.act (.construct b) with
  | .ok i =>
      Work.log { Source.resolver.record .info s!"Constructed backend {b.identity}" with
        timed := true }
      Work.act (.publish context (.ok i))
      return .ok i
  | .error f =>
      let failure := publishedFailure b.identity f
      if f.isOrdinary then
        Work.log { Source.resolver.record .error s!"Backend {b.identity} failed to construct" with
          traced := true }
        Work.act (.publish context (.error failure))
        return .error failure
      else
        Work.act (.publish context (.error failure))
        return .error f

/-- Reads the outcome of a construction that somebody else began. -/
def readFrom (identity : String) (context : Nat) (pending : Bool) :
    Work K (Except Fault (Option Nat)) := do
  Work.log (Source.resolver.record .debug
    (if pending then s!"Waiting for backend {identity} under construction"
     else s!"Backend {identity} served from cache"))
  let o ← Work.act (.await context)
  return o.map some

/-- Obtains the instance of a backend. Only its constructor's caller can get none. -/
def resolve (catalog : Catalog K) (identity : String) : Work K (Except Fault (Option Nat)) :=
  match catalog.backend identity with
  | .error f => .done (.error f)
  | .ok b => do
      match ← Work.act (.enter identity) with
      | .opened context => buildIn b context
      | .joined context pending => readFrom identity context pending

end Concord
