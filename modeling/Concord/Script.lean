import Concord.Module
import Concord.PlainText.Blueprint
/-!
Catalogs written as data. A script describes recipes, scenarios, constructors, probes and
registrations; reading it gives each thing that has to be told apart a tag of its own.
-/

namespace Concord.Script

open PlainText

inductive Complaint
  | recipe
  | backend
  | error
  | step
  | other (text : String)
  deriving DecidableEq, Repr

def Complaint.message : Complaint → String
  | .recipe => "unknown recipe kind"
  | .backend => "unknown backend kind"
  | .error => "unknown error kind"
  | .step => "unknown step"
  | .other t => t

/-- Reading hands out tags and stops at the first complaint. -/
abbrev Reading := StateT Nat (Except Complaint)

def freshTag : Reading Nat := modifyGet fun n => (n, n + 1)

/-- The errors from outside the harness that a script can raise. -/
def raisable : List Breakdown :=
  [.runtime, .value, .key, .os, .assertion, .type, .lookup, .notImplemented, .importing, .interrupt,
   .exit]

def faultNamed? (label text : String) : Option Fault :=
  match raisable.find? (·.label == label) with
  | some b => some (.breakdown b text)
  | none =>
      if label = (Fault.unregistered text).label then some (.unregistered text)
      else if label = (Fault.unknownContract text).label then some (.unknownContract text)
      else none

def raised (d : Datum) : Reading Fault :=
  match faultNamed? (d.textAt "error") (d.textAt "message") with
  | some f => pure f
  | none => throw .error

def key (d : Datum) : Key :=
  match d.asTexts with
  | [a, b, c] => ⟨a, b, c⟩
  | _ => ⟨"", "", ""⟩

def keyAt (d : Datum) (name : String) : Key := key ((d.field? name).getD .null)

def recipeWithin : Nat → Datum → Reading Recipe
  | 0, _ => throw .recipe
  | n + 1, d => do
      let tag ← freshTag
      match d.textAt "kind" with
      | "Identity" => return .identity
      | "AddImport" => return .addImport (d.textAt "fqn")
      | "FindType" => return .findType (d.textAt "name")
      | "Exploding" => return .exploding (d.textAt "message" "recipe blew up")
      | "Value" => return .datum ((d.field? "value").getD .null)
      | "Drifting" => return .drifting tag
      | "DriftingMarker" => return .driftingMarker tag
      | "Raise" => return .raising tag (← raised d)
      | "RaiseMismatch" =>
          return .raising tag (.mismatch (keyAt d "key") (d.textAt "expected") (d.textAt "actual")
            (d.textAt "what" "output"))
      | "RaiseFlaky" =>
          return .raising tag (.flaky (keyAt d "key") (d.textAt "expected") (d.textsAt "renderings"))
      | "Replace" => return .replace tag (d.textAt "old") (d.textAt "new")
      | "Mark" => return .mark tag (d.textAt "marker")
      | "Level" => return .level tag
      | "Cycle" => return .cycle tag (d.textsAt "texts")
      | "Chain" => return .chain tag (← (d.membersAt "recipes").mapM (recipeWithin n))
      | "ReturnsText" => return .returnsText tag
      | "ReturnsNone" => return .returnsNone tag
      | "Block" => return .block tag
      | _ => throw .recipe

def recipe (d : Datum) : Reading Recipe := recipeWithin d.depth d

/-- The recipe of a description, which leaves the tree alone if none is given. -/
def recipeAt (d : Datum) : Reading Recipe :=
  match d.field? "recipe" with
  | some r => recipe r
  | none => pure .identity

def scenario (d : Datum) : Reading (Scenario Recipe) := do
  return ⟨d.textAt "name", d.textAt "input", ← recipeAt d, d.textAt "expected",
    (d.given? "diagnostics").map Datum.asTexts⟩

def defaultLevel : Int := 11

def blueprint (d : Datum) (defaultKind : String) : Reading Blueprint := do
  let level := d.wholeAt "level" defaultLevel
  let charset := d.textAt "encoding" defaultCharset
  match d.textAt "kind" defaultKind with
  | "plain" => return .parser level charset .plain
  | "leaky" => return .parser level charset { leaks := true }
  | "noreset" => return .parser level charset { leaks := true, sticks := true }
  | "traced" => return .parser level charset { traces := true }
  | "minimal" => return .minimal (d.textAt "suffix")
  | "none" => return .nothing
  | "raise" => return .raising (← raised d)
  | "fail_first" => return .failFirst (d.wholeAt "times" 0) (← raised d) level charset
  | "block" => return .block level charset
  | _ => throw .backend

def probe (d : Datum) : Reading (Probe Tallies) := do
  let tag ← freshTag
  match d.field? "value", d.field? "values" with
  | some v, _ => return (Answering.always v).probe tag
  | none, some vs => return (Answering.inTurn vs.members).probe tag
  | none, none => return (Answering.raising (← raised d)).probe tag

def probesAt (d : Datum) (name : String) : Reading (List (String × Probe Tallies)) :=
  (d.fieldsAt name).mapM fun (n, p) => return (n, ← probe p)

def environment (d : Datum) : Reading (Environment Tallies) := do
  return .make (d.flagAt "include_debug_only") (d.textsAt "resources") (← probesAt d "probes")

def override (d : Datum) : Reading (Override Tallies) := do
  return ⟨d.flag? "include_debug_only", .ofList (d.textsAt "resources"), ← probesAt d "probes"⟩

def binding (d : Datum) : Binding :=
  ⟨d.textAt "backend", d.textsAt "contracts", d.flagAt "debug_only",
    (d.given? "resource").map Datum.asText⟩

/-- A backend, and the tag that its constructor is counted under. -/
def backend (d : Datum) : Reading (Backend kit × Nat) := do
  let ctor := (d.field? "ctor").getD .null
  let b ← blueprint ctor "plain"
  let tag ← freshTag
  let declared := match d.field? "features" with
    | some f => NameSet.ofList f.asTexts
    | none => features (ctor.wholeAt "level" defaultLevel)
  return (⟨d.textAt "identity", declared, b.construct tag, d.textAt "description"⟩, tag)

/-- A registration, and the tag of the constructor or probe that it brings. -/
structure Entry where
  registration : Registration kit
  tag : Nat

def entry (d : Datum) : Reading Entry := do
  match d.textAt "do" with
  | "contract" =>
      return ⟨.contract (d.textAt "name") (← (d.membersAt "scenarios").mapM scenario)
        (d.textsAt "features"), 0⟩
  | "backend" =>
      let (b, tag) ← backend d
      return ⟨.backend b, tag⟩
  | "bind" => return ⟨.binding (binding d), 0⟩
  | "probe" =>
      let p ← probe ((d.field? "probe").getD .null)
      return ⟨.probe (d.textAt "resource") p, p.tag⟩
  | _ => throw .step

/-- A module, and the entries that its hook registers. -/
structure Described where
  content : Module kit
  entries : List Entry

def described (d : Datum) : Reading Described := do
  match d.field? "import_error", d.field? "steps" with
  | some e, _ => return ⟨.broken (← raised e), []⟩
  | none, some steps =>
      let es ← steps.members.mapM entry
      return ⟨.catalog (es.map (·.registration)), es⟩
  | none, none => return ⟨.bare, []⟩

def modulesAt (d : Datum) (name : String) : Reading (List (String × Described)) :=
  (d.fieldsAt name).mapM fun (n, m) => return (n, ← described m)

end Concord.Script
