import Concord.Backend
import Concord.Context
import Concord.Procedure
/-!
Sessions: the state that all workers of a harness share, and the atomic actions on it. A session
holds the constructed instances, the contexts that publish them, the execution locks, the state of
the supplied code and the log.
-/

namespace Concord

structure Session (K : Kit) where
  shared : K.Shared
  /-- Every context that was ever opened; a context is named by its place. -/
  contexts : List (Context Nat) := []
  /-- The open context of each identity. -/
  cache : List (String × Nat) := []
  /-- The identities whose construction was begun, one entry for each time. -/
  begun : List String := []
  /-- Every instance that was ever constructed; an instance is named by its place. -/
  instances : List (Instance K) := []
  /-- The backends on which somebody is executing a scenario. -/
  busy : List String := []
  log : Array Record := #[]

inductive Entry
  | opened (context : Nat)
  | joined (context : Nat) (pending : Bool)
  deriving DecidableEq, Repr

/-- The atomic actions of a worker. -/
inductive Action (K : Kit)
  | write (r : Record)
  | enter (identity : String)
  | construct (b : Backend K)
  | publish (context : Nat) (outcome : Except Fault (Option Nat))
  | await (context : Nat)
  | acquire (backend : String)
  | release (backend : String)
  | reset (i : Nat)
  | parse (i : Nat) (source : String)
  | transform (i : Nat) (tree : K.Tree) (recipe : K.Recipe)
  | print (i : Nat) (tree : K.Tree)
  | diagnose (i : Nat) (tree : K.Tree)

@[reducible] def Action.Answer {K : Kit} : Action K → Type
  | .write _ => Unit
  | .enter _ => Entry
  | .construct _ => Except Fault (Option Nat)
  | .publish _ _ => Unit
  | .await _ => Except Fault Nat
  | .acquire _ => Unit
  | .release _ => Unit
  | .reset _ => Except Fault Unit
  | .parse _ _ => Except Fault K.Tree
  | .transform _ _ _ => Except Fault K.Tree
  | .print _ _ => Except Fault String
  | .diagnose _ _ => Except Fault (List String)

/-- A procedure of actions on a session. -/
abbrev Work (K : Kit) : Type → Type := Procedure (Action K) Action.Answer

namespace Session

variable {K : Kit}

/-- Writes records under the name of the thread that caused them. -/
def write (s : Session K) (thread : String) (rs : List Record) : Session K :=
  { s with log := rs.foldl (fun log r => log.push { r with thread }) s.log }

def constructions (s : Session K) (identity : String) : Nat := s.begun.count identity

def isResolved (s : Session K) (identity : String) : Bool :=
  match s.cache.lookup identity with
  | none => false
  | some c => (s.contexts[c]?.map fun x => !x.isPending).getD false

/-- How an instance is shown; what a constructor returned without an instance has only its kind. -/
def label (s : Session K) (i : Option Nat) : String :=
  ((i.bind fun n => s.instances[n]?).map (·.parser.label)).getD "NoneType"

/-- Drops every open context. What was begun stays counted. -/
def clear (s : Session K) : Session K := { s with cache := [] }

/-- Joins the identity's context, or opens one. -/
def enter (s : Session K) (identity : String) : Entry × Session K :=
  match s.cache.lookup identity with
  | some c => (.joined c ((s.contexts[c]?.map (·.isPending)).getD true), s)
  | none =>
      let c := s.contexts.length
      (.opened c,
        { s with
          contexts := s.contexts ++ [{ identity }]
          cache := (identity, c) :: s.cache
          begun := identity :: s.begun })

def publish (s : Session K) (c : Nat) (o : Except Fault (Option Nat)) : Session K :=
  { s with contexts := s.contexts.modify c (·.publish o) }

/-- Calls an instance. A slow call is answered only to the patient. -/
def call {α : Type} (s : Session K) (patient : Bool) (thread : String) (i : Nat)
    (f : Parser K → K.Own → K.Shared → Reply K α) : Option (Except Fault α × Session K) :=
  match s.instances[i]? with
  | none => none
  | some x =>
      let r := f x.parser x.own s.shared
      if r.slow && !patient then none
      else
        some (r.result,
          { s with
            shared := r.shared
            instances := s.instances.set i { x with own := r.own } }.write thread r.records)

/-- Calls a constructor and keeps the instance that it returns. -/
def construct (s : Session K) (patient : Bool) (b : Backend K) :
    Option (Except Fault (Option Nat) × Session K) :=
  let r := b.construct s.shared
  if r.slow && !patient then none
  else
    match r.result with
    | .error f => some (.error f, { s with shared := r.shared })
    | .ok none => some (.ok none, { s with shared := r.shared })
    | .ok (some x) =>
        some (.ok (some s.instances.length),
          { s with shared := r.shared, instances := s.instances ++ [x] })

/-- Performs an action, unless it has to wait: for a context to be published, for a backend that is
in use, or for a slow call. -/
def perform (patient : Bool) (thread : String) :
    (a : Action K) → Session K → Option (a.Answer × Session K)
  | .write r, s => some ((), s.write thread [r])
  | .enter identity, s => some (s.enter identity)
  | .construct b, s => s.construct patient b
  | .publish c o, s => some ((), s.publish c o)
  | .await c, s => ((s.contexts[c]?).bind (·.outcome?)).map fun o => (o, s)
  | .acquire b, s => if b ∈ s.busy then none else some ((), { s with busy := b :: s.busy })
  | .release b, s => some ((), { s with busy := s.busy.erase b })
  | .reset i, s => s.call patient thread i fun p => p.reset
  | .parse i source, s => s.call patient thread i fun p => p.parse source
  | .transform i tree recipe, s => s.call patient thread i fun p => p.transform tree recipe
  | .print i tree, s => s.call patient thread i fun p => p.print tree
  | .diagnose i tree, s => s.call patient thread i fun p => p.diagnostics tree

end Session

namespace Work

variable {K : Kit} {α : Type}

def advance (w : Work K α) (patient : Bool) (thread : String) (s : Session K) :
    Work K α × Session K :=
  Procedure.advance (Session.perform patient thread) w s

/-- Follows a procedure alone and to its end; there is no value if it would wait for somebody. -/
def alone (w : Work K α) (s : Session K) : Option α × Session K :=
  let (rest, s') := w.advance true "MainThread" s
  (rest.value?, s')

def act (a : Action K) : Work K a.Answer := Procedure.perform a

def log (r : Record) : Work K Unit := act (.write r)

end Work

end Concord
