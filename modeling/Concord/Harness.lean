import Concord.Environment
import Concord.Run
/-!
The harness: a catalog under construction, the environment that its gate asks, and the session in
which backends are resolved and scenarios executed. Registering only adds to the catalog; planning
and gating never construct a backend.
-/

namespace Concord

structure Harness (K : Kit) where
  catalog : Catalog K := .empty
  session : Session K
  base : Environment K.Shared
  /-- The registered probes, laid over those of the given environment. -/
  probes : List (String × Probe K.Shared) := []
  /-- The environment with the registered probes, once it was asked for. -/
  derived : Option (Environment K.Shared) := none
  replays : Nat
  /-- The name of each run, counted from one. -/
  runName : Nat → String
  runs : Nat := 0
  /-- How many units the workers of each run have begun when it comes to wait for them. -/
  headStart : Nat → Nat := fun _ => 1

/-- What can be registered. Scenarios are as yet unchecked. -/
inductive Registration (K : Kit)
  | contract (name : String) (scenarios : List (Scenario K.Recipe)) (required : List String)
  | backend (b : Backend K)
  | binding (b : Binding)
  | probe (resource : String) (p : Probe K.Shared)

/-- Names runs by a stem and a number of at least four digits. -/
def numberedRun (stem : String) (n : Nat) : String := s!"{stem}-{Text.padded 4 n}"

def checkScenarios {ρ : Type} : List (Scenario ρ) → Except Fault Unit
  | [] => .ok ()
  | s :: ss =>
      match s.checked with
      | .error f => .error f
      | .ok _ => checkScenarios ss

namespace Harness

variable {K : Kit}

def start (shared : K.Shared) (base : Environment K.Shared) (replays : Nat)
    (runName : Nat → String) (headStart : Nat → Nat := fun _ => 1) : Harness K :=
  { session := { shared }, base, replays, runName, headStart }

def write (h : Harness K) (rs : List Record) : Harness K :=
  { h with session := h.session.write "MainThread" rs }

def environment (h : Harness K) : Environment K.Shared :=
  h.derived.getD (h.base.override { probes := h.probes })

/-- The harness after its environment was asked for, so that the environment stays. -/
def settled (h : Harness K) : Harness K := { h with derived := some h.environment }

/-- Takes over a catalog to which something was to be added. That it was added is recorded, and not
that it was refused. -/
def catalogued (h : Harness K) (added : Option Fault × Catalog K) (r : Record) :
    Option Fault × Harness K :=
  match added with
  | (some f, c) => (some f, { h with catalog := c })
  | (none, c) => (none, { h with catalog := c }.write [r])

/-- Attempts to register one thing: the fault, if it is refused, and the harness after it. -/
def attempt (h : Harness K) : Registration K → Option Fault × Harness K
  | .contract name scenarios required =>
      match checkScenarios scenarios with
      | .error f => (some f, h)
      | .ok () =>
          let k : Contract K.Recipe := ⟨name, scenarios, .ofList required⟩
          h.catalogued (h.catalog.addContract k) (Catalog.contractRecord k)
  | .backend b => h.catalogued (h.catalog.addBackend b) (Catalog.backendRecord b)
  | .binding b => h.catalogued (h.catalog.addBinding b) (Catalog.bindingRecord b)
  | .probe resource p =>
      (none, { h with probes := setEntry resource p h.probes, derived := none })

/-- Registers one thing, for whoever gives up where it is refused. -/
def register (h : Harness K) (r : Registration K) : Except Fault (Harness K) :=
  granted (h.attempt r)

/-- Registers one thing after the other, up to the first that is refused; what was registered
before it stays. -/
def registerAll (h : Harness K) : List (Registration K) → Option Fault × Harness K
  | [] => (none, h)
  | r :: rs =>
      match h.attempt r with
      | (some f, h) => (some f, h)
      | (none, h) => h.registerAll rs

def plan (h : Harness K) : Except Fault (List (Planned K.Recipe)) × Harness K :=
  match h.catalog.plan with
  | .error f => (.error f, h)
  | .ok planned => (.ok planned, h.write [Catalog.planRecord planned])

def answered (h : Harness K) (e : Environment K.Shared) (s : K.Shared) (rs : List Record) :
    Harness K :=
  { h with derived := some e, session := { h.session with shared := s } }.write rs

def available (h : Harness K) (resource : String) : Except Fault Bool × Harness K :=
  let a := h.environment.available resource h.session.shared
  (a.answer, h.answered a.environment a.shared a.records)

def admits (h : Harness K) (b : Binding) : Except Fault Bool × Harness K :=
  let a := h.environment.admitsBinding b h.session.shared
  (a.answer, h.answered a.environment a.shared a.records)

/-- The gate's decisions on planned bindings. An interrupt of a probe ends them. -/
def decide (h : Harness K) (planned : List (Planned K.Recipe)) :
    Except Fault (List (Planned K.Recipe × Bool)) × Harness K :=
  let d := h.environment.decide h.session.shared planned
  let h' := h.answered d.environment d.shared d.records
  match d.interrupt with
  | some f => (.error f, h')
  | none => (.ok d.entries, h')

/-- Plans, gates and executes everything. Nothing is begun unless there is a worker and a plan. -/
def run (h : Harness K) (workers : Int) (deadline : Option Text.Seconds) :
    Except Fault Report × Harness K :=
  let h := h.settled
  if workers < 1 then
    (.error (.breakdown .value s!"workers must be at least 1, got {workers}"), h)
  else
    match h.plan with
    | (.error f, h) => (.error f, h)
    | (.ok planned, h) =>
        let h := { h with runs := h.runs + 1 }
        match h.decide planned with
        | (.error f, h) => (.error f, h)
        | (.ok entries, h) =>
            let (report, session) := workOff h.catalog h.replays workers.toNat deadline
              (h.headStart h.runs) (h.runName h.runs) entries h.session
            (report, { h with session })

/-- Follows a procedure alone. Nobody else is at work, so nothing is waited for. -/
def follow {α : Type} (h : Harness K) (w : Work K α) : Option α × Harness K :=
  let (r, session) := w.alone h.session
  (r, { h with session })

def resolve (h : Harness K) (identity : String) :
    Option (Except Fault (Option Nat)) × Harness K :=
  h.follow (Concord.resolve h.catalog identity)

/-- Resolves the backend of a key and executes a scenario on it. -/
def checkWork (h : Harness K) (key : Key) (s : Scenario K.Recipe) : Work K (Except Fault String) :=
  (Concord.resolve h.catalog key.backend).andThen fun i => execute h.replays i key s

def check (h : Harness K) (key : Key) (s : Scenario K.Recipe) :
    Option (Except Fault String) × Harness K :=
  h.follow (h.checkWork key s)

def clear (h : Harness K) : Harness K := { h with session := h.session.clear }

end Harness

end Concord
