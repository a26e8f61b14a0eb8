import Concord.Contract
import Concord.Record
/-!
Backends: parsers under test and the declarations that construct them. Parsers, recipes and
constructors are supplied from outside and may do anything that a call can do: return, raise, keep
state and write log records. A `Kit` names the types that they bring along.
-/

namespace Concord

/-- The types that a harness is used with. `Own` is the state private to a parser instance, and
`Shared` the state that recipes, constructors and probes may read and change. -/
structure Kit where
  Recipe : Type
  Tree : Type
  Own : Type
  Shared : Type

/-- The answer to a call on a parser: a value or a fault, the states it leaves, and the records it
wrote. A `slow` call outlasts every deadline. -/
structure Reply (K : Kit) (α : Type) where
  result : Except Fault α
  own : K.Own
  shared : K.Shared
  records : List Record := []
  slow : Bool := false

/-- A parser: what a contract may ask of a backend. Trees are opaque to the harness. -/
structure Parser (K : Kit) where
  label : String
  reset : K.Own → K.Shared → Reply K Unit
  parse : String → K.Own → K.Shared → Reply K K.Tree
  transform : K.Tree → K.Recipe → K.Own → K.Shared → Reply K K.Tree
  print : K.Tree → K.Own → K.Shared → Reply K String
  diagnostics : K.Tree → K.Own → K.Shared → Reply K (List String)

structure Instance (K : Kit) where
  parser : Parser K
  own : K.Own

/-- The answer of a constructor, which may also return without an instance. -/
structure Built (K : Kit) where
  result : Except Fault (Option (Instance K))
  shared : K.Shared
  slow : Bool := false

/-- A registered backend. Declaring one constructs nothing. -/
structure Backend (K : Kit) where
  identity : String
  features : NameSet
  construct : K.Shared → Built K
  description : String := ""

namespace Backend

variable {K : Kit}

def checked (b : Backend K) : Except Fault (Backend K) :=
  (checkKeyPart "Backend identity" b.identity).map fun _ => b

def lacks (b : Backend K) (c : Contract K.Recipe) : NameSet := c.required.diff b.features

end Backend

/-- One backend composed with the contracts that it has to satisfy. A debug-only binding runs only
where its resource is available. -/
structure Binding where
  backend : String
  contracts : List String
  debugOnly : Bool := false
  resource : Option String := none
  deriving DecidableEq, Repr

namespace Binding

def checked (b : Binding) : Except Fault Binding :=
  (checkKeyPart "Backend identity" b.backend).map fun _ => b

/-- The resource that the gate asks for: the one given, and the backend's own name when none or an
empty one is given. -/
def resourceName (b : Binding) : String :=
  match b.resource with
  | some r => if r.isEmpty then b.backend else r
  | none => b.backend

end Binding

end Concord
