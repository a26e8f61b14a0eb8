import Concord.Backend
import Concord.Datum
import Concord.PlainText.Source
/-!
Recipes over plain text. A recipe visits a source file and returns a source file, or fails, or
returns something else, which is a mistake of its own. Some recipes count their visits: such a
recipe has a tag, and the tallies say how often each tag was visited.
-/

namespace Concord.PlainText

/-- How often things with a tag were used: one entry for each use. -/
structure Tallies where
  uses : List Nat := []

namespace Tallies

def count (t : Tallies) (tag : Nat) : Nat := t.uses.count tag

def note (t : Tallies) (tag : Nat) : Tallies := ⟨tag :: t.uses⟩

end Tallies

/-- Recipes. Those with a tag are told apart by it, the others by what they do. -/
inductive Recipe
  | identity
  | addImport (fqn : String)
  | findType (name : String)
  | exploding (text : String)
  | datum (d : Datum)
  | drifting (tag : Nat)
  | driftingMarker (tag : Nat)
  | raising (tag : Nat) (f : Fault)
  | replace (tag : Nat) (old new : String)
  | mark (tag : Nat) (marker : String)
  | level (tag : Nat)
  | cycle (tag : Nat) (texts : List String)
  | chain (tag : Nat) (members : List Recipe)
  | returnsText (tag : Nat)
  | returnsNone (tag : Nat)
  | block (tag : Nat)

/-- What a visit returns. Only a tree is of use. -/
inductive Returned
  | tree (s : Source)
  | text (t : String)
  | nothing

/-- How a visit went. A slow one outlasts every deadline. -/
structure Visit where
  result : Except Fault Returned
  tallies : Tallies
  slow : Bool := false

namespace Returned

def kind : Returned → String
  | .tree _ => "SourceFile"
  | .text _ => "str"
  | .nothing => "NoneType"

/-- Goes on with a tree; anything else lacks the attribute that is asked of it first. -/
def onTree (r : Returned) (asked : String) (f : Source → Except Fault Returned) :
    Except Fault Returned :=
  match r with
  | .tree s => f s
  | _ => .error (.breakdown .noAttribute s!"'{r.kind}' object has no attribute '{asked}'")

end Returned

/-- The tree with an import statement in front, unless one of its lines is that statement. -/
def Source.withImport (s : Source) (fqn : String) : Source :=
  let statement := s!"import {fqn};"
  if statement ∈ s.lines then s else s.withText s!"{statement}\n\n{s.text}"

/-- The numbers, from one, of the lines that mention a name. -/
def Source.mentions (s : Source) (name : String) : List Nat :=
  s.lines.zipIdx.filterMap fun (line, n) => if Text.contains line name then some (n + 1) else none

/-- The tree with a marker for each line that mentions a name. -/
def Source.withMentions (s : Source) (name : String) : Source :=
  (s.mentions name).foldl (fun s n => s.withMarker s!"found {name} at line {n}") s

namespace Recipe

def kind : Recipe → String
  | .identity => "Identity"
  | .addImport _ => "AddImport"
  | .findType _ => "FindType"
  | .exploding _ => "Exploding"
  | .datum d => d.kind
  | .drifting _ => "Drifting"
  | .driftingMarker _ => "DriftingMarker"
  | .raising _ _ => "Raise"
  | .replace _ _ _ => "Replace"
  | .mark _ _ => "Mark"
  | .level _ => "Level"
  | .cycle _ _ => "Cycle"
  | .chain _ _ => "Chain"
  | .returnsText _ => "ReturnsText"
  | .returnsNone _ => "ReturnsNone"
  | .block _ => "Block"

def tag? : Recipe → Option Nat
  | .identity | .addImport _ | .findType _ | .exploding _ | .datum _ => none
  | .drifting t | .driftingMarker t | .level t | .returnsText t | .returnsNone t | .block t => some t
  | .raising t _ | .mark t _ | .cycle t _ | .chain t _ | .replace t _ _ => some t

/-- Equality of recipes: by tag, or by what they do if they have no tag. -/
def same : Recipe → Recipe → Bool
  | .identity, .identity => true
  | .addImport a, .addImport b => a == b
  | .findType a, .findType b => a == b
  | .exploding a, .exploding b => a == b
  | .datum a, .datum b => a.same b
  | a, b => a.tag?.isSome && a.tag? == b.tag?

mutual

/-- Visits what the recipe before it returned, which need not be a tree. -/
def visit : Recipe → Returned → Tallies → Visit
  | .identity, r, t => ⟨.ok r, t, false⟩
  | .addImport fqn, r, t => ⟨r.onTree "lines" fun s => .ok (.tree (s.withImport fqn)), t, false⟩
  | .findType name, r, t =>
      ⟨r.onTree "lines" fun s => .ok (.tree (s.withMentions name)), t, false⟩
  | .exploding text, _, t => ⟨.error (.breakdown .runtime text), t, false⟩
  | .datum d, _, t =>
      ⟨.error (.breakdown .noAttribute s!"'{d.kind}' object has no attribute 'visit'"), t, false⟩
  | .drifting tag, r, t =>
      ⟨r.onTree "with_text" fun s => .ok (.tree (s.withText s!"{s.text} // {t.count tag}")),
        t.note tag, false⟩
  | .driftingMarker tag, r, t =>
      ⟨r.onTree "with_marker" fun s => .ok (.tree (s.withMarker s!"visit {t.count tag}")),
        t.note tag, false⟩
  | .raising _ f, _, t => ⟨.error f, t, false⟩
  | .replace _ old new, r, t =>
      ⟨r.onTree "with_text" fun s => .ok (.tree (s.withText (Text.replaceAll s.text old new))), t,
        false⟩
  | .mark _ marker, r, t =>
      ⟨r.onTree "with_marker" fun s => .ok (.tree (s.withMarker marker)), t, false⟩
  | .level _, r, t =>
      ⟨r.onTree "with_text" fun s => .ok (.tree (s.withText s!"{s.text} @{s.level}")), t, false⟩
  | .cycle tag texts, r, t =>
      match texts[t.count tag % texts.length]? with
      | none => ⟨.error (.breakdown .zeroDivision "integer modulo by zero"), t.note tag, false⟩
      | some text => ⟨r.onTree "with_text" fun s => .ok (.tree (s.withText text)), t.note tag, false⟩
  | .chain _ members, r, t => visitAll members r t
  | .returnsText _, r, t => ⟨r.onTree "text" fun s => .ok (.text s.text), t, false⟩
  | .returnsNone _, _, t => ⟨.ok .nothing, t, false⟩
  | .block _, r, t => ⟨.ok r, t, true⟩

/-- Visits with each recipe in turn, up to the first that fails. -/
def visitAll : List Recipe → Returned → Tallies → Visit
  | [], r, t => ⟨.ok r, t, false⟩
  | m :: ms, r, t =>
      let v := visit m r t
      match v.result with
      | .error _ => v
      | .ok r' =>
          let w := visitAll ms r' v.tallies
          { w with slow := v.slow || w.slow }

end

/-- Applies a recipe to a tree. A datum is no recipe, and only a tree may be returned. -/
def apply (recipe : Recipe) (s : Source) (t : Tallies) : Except Fault Source × Tallies × Bool :=
  match recipe with
  | .datum d =>
      (.error (.breakdown .type s!"{d.kind} is not a plain-text recipe (no visit method)"), t, false)
  | _ =>
      let v := recipe.visit (.tree s) t
      let result : Except Fault Source :=
        match v.result with
        | .error f => .error f
        | .ok (.tree s') => .ok s'
        | .ok r => .error (.breakdown .type
            s!"{recipe.kind}.visit returned {r.kind}, expected SourceFile")
      (result, v.tallies, v.slow)

end Recipe

end Concord.PlainText
