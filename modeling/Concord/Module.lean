import Concord.Harness
import Concord.Text.Dotted
/-!
Modules that catalogs are loaded from. A module is found by its dotted name; loading it performs its
registrations on a harness.
-/

namespace Concord

inductive Module (K : Kit)
  /-- A module whose hook performs these registrations. -/
  | catalog (registrations : List (Registration K))
  /-- A module without a hook that could be called. -/
  | bare
  /-- A module that fails while it is imported. -/
  | broken (f : Fault)

def hookName : String := "register"

namespace Module

variable {K : Kit}

def isPackage (modules : List (String × Module K)) (name : String) : Bool :=
  modules.any fun m => (name ++ ".").toList.isPrefixOf m.1.toList

/-- Imports the names that lead to a module, each inside the one before it. The innermost module is
returned, and none for a package. -/
def importAll (modules : List (String × Module K)) :
    (parent : Option String) → List String → Except Fault (Option (Module K))
  | _, [] => .ok none
  | parent, name :: rest =>
      let missing : Except Fault (Option (Module K)) :=
        match parent with
        | some p =>
            if isPackage modules p then
              .error (.breakdown .moduleNotFound s!"No module named {Text.quoted name}")
            else .error (.breakdown .moduleNotFound
              s!"No module named {Text.quoted name}; {Text.quoted p} is not a package")
        | none => .error (.breakdown .moduleNotFound s!"No module named {Text.quoted name}")
      match modules.lookup name with
      | some (.broken f) => .error f
      | some m => if rest.isEmpty then .ok (some m) else importAll modules (some name) rest
      | none =>
          if isPackage modules name then importAll modules (some name) rest else missing

def importNamed (modules : List (String × Module K)) (name : String) :
    Except Fault (Option (Module K)) :=
  if name.isEmpty then .error (.breakdown .value "Empty module name")
  else if name.toList.head? == some '.' then
    .error (.breakdown .type
      ("the 'package' argument is required to perform a relative import for " ++ Text.quoted name))
  else importAll modules none (Text.ancestry name)

/-- How a fault of an import is reported: a module that cannot be imported is unusable, and any
other fault is passed on as it is. -/
def importFault (name : String) (f : Fault) : Fault :=
  match f with
  | .breakdown ⟨_, .importing⟩ _ => .unusableModule name f.described (some f.label)
  | _ => f

end Module

namespace Harness

variable {K : Kit}

def loadedRecord (h : Harness K) (name : String) : Record :=
  Source.loading.record .info
    (s!"Loaded catalog {name}: {h.catalog.contracts.length} contract(s), " ++
      s!"{h.catalog.backends.length} backend(s), {h.catalog.bindings.length} binding(s)")

/-- Loads a catalog. What was registered before a fault stays registered. -/
def load (h : Harness K) (modules : List (String × Module K)) (name : String) :
    Option Fault × Harness K :=
  match Module.importNamed modules name with
  | .error f => (some (Module.importFault name f), h)
  | .ok (some (.catalog rs)) =>
      let h := h.write [Source.loading.record .debug s!"Loading catalog from {name}"]
      match h.registerAll rs with
      | (some f, h) => (some f, h)
      | (none, h) => (none, h.write [h.loadedRecord name])
  | .ok _ => (some (.unusableModule name s!"no callable '{hookName}(harness)'" none), h)

end Harness

end Concord
