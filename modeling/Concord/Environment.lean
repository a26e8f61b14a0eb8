import Concord.Catalog
import Concord.Entries
/-!
Run environments and the gate. An environment says which resources are there: those declared, and
those whose probe says so. A probe is asked at most once; its answer is remembered and handed on to
environments derived from this one, unless they replace the probe.
-/

namespace Concord

/-- A question whether a resource is there. Two probes are the same probe when their tags are. -/
structure Probe (σ : Type) where
  tag : Nat
  ask : σ → Except Fault Bool × σ

structure Environment (σ : Type) where
  includeDebugOnly : Bool := false
  resources : NameSet := .empty
  probes : List (String × Probe σ) := []
  memo : List (String × Bool) := []

structure Override (σ : Type) where
  includeDebugOnly : Option Bool := none
  resources : NameSet := .empty
  probes : List (String × Probe σ) := []

structure Answered (σ : Type) where
  answer : Except Fault Bool
  environment : Environment σ
  shared : σ
  records : List Record := []

namespace Environment

variable {σ : Type}

/-- An environment with probes laid down in order, and nothing remembered. -/
def make (includeDebugOnly : Bool) (resources : List String) (probes : List (String × Probe σ)) :
    Environment σ :=
  { includeDebugOnly, resources := .ofList resources, probes := overlay [] probes }

/-- The environment changed by `o`. What was remembered stays, except for replaced probes. -/
def override (e : Environment σ) (o : Override σ) : Environment σ where
  includeDebugOnly := o.includeDebugOnly.getD e.includeDebugOnly
  resources := e.resources.union o.resources
  probes := overlay e.probes o.probes
  memo := e.memo.filter fun m => (o.probes.lookup m.1).isNone

/-- Whether two environments allow the same and have the same probes, in whatever order. What they
remember does not matter. -/
def same (a b : Environment σ) : Bool :=
  a.includeDebugOnly == b.includeDebugOnly && decide (a.resources = b.resources) &&
    a.probes.length == b.probes.length &&
    a.probes.all fun p => (b.probes.lookup p.1).any (·.tag == p.2.tag)

/-- Whether a resource is there. A probe that raises an ordinary fault counts as a "no". -/
def available (e : Environment σ) (resource : String) (s : σ) : Answered σ :=
  if resource ∈ e.resources then ⟨.ok true, e, s, []⟩
  else
    match e.probes.lookup resource with
    | none => ⟨.ok false, e, s, []⟩
    | some probe =>
        match e.memo.lookup resource with
        | some known => ⟨.ok known, e, s, []⟩
        | none =>
            match probe.ask s with
            | (.ok b, s') => ⟨.ok b, { e with memo := (resource, b) :: e.memo }, s', []⟩
            | (.error f, s') =>
                if f.isOrdinary then
                  ⟨.ok false, { e with memo := (resource, false) :: e.memo }, s',
                    [{ Source.gate.record .warning
                        s!"Availability probe for {resource} raised; treating it as absent" with
                      traced := true }]⟩
                else ⟨.error f, e, s', []⟩

/-- The gate's policy: debug-only work runs when it is opted in or its resource is there. -/
def admits (e : Environment σ) (debugOnly : Bool) (resource : String) (s : σ) : Answered σ :=
  if debugOnly && !e.includeDebugOnly then e.available resource s else ⟨.ok true, e, s, []⟩

/-- The gate's decision on a binding, with a record of a rejection. -/
def admitsBinding (e : Environment σ) (b : Binding) (s : σ) : Answered σ :=
  let a := e.admits b.debugOnly b.resourceName s
  match a.answer with
  | .ok false =>
      { a with records := a.records ++
          [Source.gate.record .info
            (s!"Gate rejected debug-only binding {b.backend} -> " ++
              String.intercalate ", " b.contracts ++
              s!" (resource {b.resourceName} unavailable)")] }
  | _ => a

/-- Decisions on planned bindings. A probe's interrupt ends them early. -/
structure Decisions (σ ρ : Type) where
  entries : List (Planned ρ × Bool)
  interrupt : Option Fault
  environment : Environment σ
  shared : σ
  records : List Record

/-- Decides on each planned binding in turn; what one decision remembers, the next ones know. -/
def decide {ρ : Type} (e : Environment σ) (s : σ) : List (Planned ρ) → Decisions σ ρ
  | [] => ⟨[], none, e, s, []⟩
  | p :: ps =>
      let a := e.admitsBinding p.binding s
      match a.answer with
      | .error f => ⟨[], some f, a.environment, a.shared, a.records⟩
      | .ok runs =>
          let d := decide a.environment a.shared ps
          { d with entries := (p, runs) :: d.entries, records := a.records ++ d.records }

end Environment

end Concord
