import Concord.Log.Ambient
import Concord.Text.Dotted
/-!
The console. It shows records from a given severity on. Records of foreign sources are tagged with
their top-level name; in debug mode everything is shown, with its time, thread and source instead.
-/

namespace Concord.Log

def ownName : String := "recipe_parity"

/-- The tag of a source: none for the harness's own. -/
def tag (source : String) : String :=
  if Text.topName source = ownName then "" else s!"[{Text.topName source}]"

/-- What a console line holds besides the message. -/
inductive Layout
  | tagged
  | detailed
  deriving DecidableEq, Repr

structure Console where
  least : Severity
  layout : Layout
  color : Bool
  deriving DecidableEq, Repr

namespace Console

/-- A console for the severity that was asked for, which debug mode overrides. -/
def make (asked : Severity) (debug color : Bool) : Console :=
  if debug then ⟨.debug, .detailed, color⟩ else ⟨asked, .tagged, color⟩

def line (c : Console) (a : Ambient) (r : Record) : String :=
  match c.layout with
  | .tagged => s!"{tag r.source} {a.message r}"
  | .detailed => s!"{a.clock} {r.thread} {r.source}: {a.message r}"

def line? (c : Console) (a : Ambient) (r : Record) : Option String :=
  if c.least ≤ r.severity then some (c.line a r) else none

end Console

end Concord.Log
