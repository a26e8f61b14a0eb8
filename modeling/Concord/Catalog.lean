import Concord.Backend
import Concord.Unit
/-!
Catalogs: the registered contracts and backends and the bindings between them. Registration only
adds, in order, and refuses a name that is taken; it gives the catalog back with the fault, if there is
one. Planning checks every binding and expands it into test units.
-/

namespace Concord

structure Catalog (K : Kit) where
  contracts : List (Contract K.Recipe) := []
  backends : List (Backend K) := []
  bindings : List Binding := []

structure Planned (ρ : Type) where
  binding : Binding
  units : List (TestUnit ρ)

/-- The first key that stands in the list, or in `seen`, before. -/
def firstRepeat (seen : List Key) : List Key → Option Key
  | [] => none
  | k :: ks => if k ∈ seen then some k else firstRepeat (k :: seen) ks

namespace Catalog

variable {K : Kit}

def empty : Catalog K := {}

def contract? (c : Catalog K) (name : String) : Option (Contract K.Recipe) :=
  c.contracts.find? (·.name == name)

def backend? (c : Catalog K) (identity : String) : Option (Backend K) :=
  c.backends.find? (·.identity == identity)

def contract (c : Catalog K) (name : String) : Except Fault (Contract K.Recipe) :=
  match c.contract? name with
  | some k => .ok k
  | none => .error (.unknownContract name)

def backend (c : Catalog K) (identity : String) : Except Fault (Backend K) :=
  match c.backend? identity with
  | some b => .ok b
  | none => .error (.unregistered identity)

def addContract (c : Catalog K) (k : Contract K.Recipe) : Option Fault × Catalog K :=
  match k.checked with
  | .error f => (some f, c)
  | .ok k =>
      if (c.contract? k.name).isSome then (some (.duplicateContract k.name), c)
      else (none, { c with contracts := c.contracts ++ [k] })

def addBackend (c : Catalog K) (b : Backend K) : Option Fault × Catalog K :=
  match b.checked with
  | .error f => (some f, c)
  | .ok b =>
      if (c.backend? b.identity).isSome then (some (.duplicateBackend b.identity), c)
      else (none, { c with backends := c.backends ++ [b] })

/-- What keeps one contract from running on one backend: it is not registered, or the backend is
registered and lacks a feature. -/
def contractDefect? (c : Catalog K) (backend contract : String) : Option Fault :=
  match c.contract? contract with
  | none => some (.unknownContract contract)
  | some k =>
      match c.backend? backend with
      | none => none
      | some b =>
          if (b.lacks k).isEmpty then none else some (.missingFeatures backend contract (b.lacks k))

/-- The first defect of a binding, in the order of its contracts. -/
def defect? (c : Catalog K) (b : Binding) : Option Fault :=
  b.contracts.findSome? (c.contractDefect? b.backend)

/-- Declares a binding of at least one contract that has no defect as yet. -/
def addBinding (c : Catalog K) (b : Binding) : Option Fault × Catalog K :=
  match b.checked with
  | .error f => (some f, c)
  | .ok b =>
      if b.contracts.isEmpty then
        (some (.breakdown .value s!"Binding for backend '{b.backend}' names no contracts"), c)
      else
        match c.defect? b with
        | some f => (some f, c)
        | none => (none, { c with bindings := c.bindings ++ [b] })

def contractUnits (c : Catalog K) (backend contract : String) : List (TestUnit K.Recipe) :=
  match c.contract? contract with
  | none => []
  | some k => k.scenarios.map fun s => { key := ⟨backend, contract, s.name⟩, scenario := s }

/-- The fresh units of a binding, in the order of its contracts. -/
def units (c : Catalog K) (b : Binding) : List (TestUnit K.Recipe) :=
  b.contracts.flatMap (c.contractUnits b.backend)

/-- Expands a binding whether or not it is declared. -/
def expand (c : Catalog K) (b : Binding) : Except Fault (List (TestUnit K.Recipe)) :=
  match b.contracts.find? fun name => (c.contract? name).isNone with
  | some name => .error (.unknownContract name)
  | none => .ok (c.units b)

def keys (c : Catalog K) : List Key :=
  c.bindings.flatMap fun b => (c.units b).map (·.key)

/-- Checks and expands every binding. A defect is found before a repeated key. -/
def plan (c : Catalog K) : Except Fault (List (Planned K.Recipe)) :=
  match c.bindings.findSome? c.defect? with
  | some f => .error f
  | none =>
      match firstRepeat [] c.keys with
      | some k => .error (.duplicateUnit k)
      | none => .ok (c.bindings.map fun b => ⟨b, c.units b⟩)

/-! ### What is logged -/

def namesOr (word : String) (names : List String) : String :=
  if names.isEmpty then word else Text.quotedList names

def contractRecord (k : Contract K.Recipe) : Record :=
  Source.contracts.record .debug
    (s!"Registered contract {k.name} with {k.scenarios.length} scenario(s), requires " ++
      namesOr "nothing" k.required.names)

def backendRecord (b : Backend K) : Record :=
  Source.backends.record .debug
    s!"Registered backend {b.identity} with features {Text.quotedList b.features.names}"

def bindingRecord (b : Binding) : Record :=
  Source.bindings.record .debug
    (s!"Declared binding {b.backend} -> " ++ String.intercalate ", " b.contracts ++
      if b.debugOnly then " (debug-only)" else "")

def planRecord {ρ : Type} (planned : List (Planned ρ)) : Record :=
  let n := (planned.flatMap (·.units)).length
  Source.bindings.record .debug s!"Planned {n} unit(s) from {planned.length} binding(s)"

end Catalog

end Concord
