import Concord.Session
/-!
Execution of a scenario on a resolved backend. Every scenario is replayed several times, with a
reset before each replay and nobody else on the backend in between. Replays that disagree make the
scenario flaky; replays that agree are compared with what the scenario expects.
-/

namespace Concord

variable {K : Kit}

/-- What one replay printed, and the diagnostics that it left. -/
structure Rendering where
  text : String
  diagnostics : List String
  deriving DecidableEq, Repr

def Rendering.describe (r : Rendering) : String :=
  if r.diagnostics.isEmpty then r.text
  else s!"{r.text}\n[diagnostics] " ++ String.intercalate "; " r.diagnostics

/-- One replay of a scenario: reset, parse, transform, print, diagnostics. -/
def render (i : Nat) (s : Scenario K.Recipe) : Work K (Except Fault Rendering) :=
  .andThen (Work.act (.reset i)) fun (_ : Unit) =>
  .andThen (Work.act (.parse i s.input)) fun (parsed : K.Tree) =>
  .andThen (Work.act (.transform i parsed s.recipe)) fun (tree : K.Tree) =>
  .andThen (Work.act (.print i tree)) fun (text : String) =>
  .andThen (Work.act (.diagnose i tree)) fun (ds : List String) =>
  .done (.ok ⟨text, ds⟩)

/-- The replays that are left, after those in `seen`, the latest of which comes first. The first
fault ends them. -/
def replay (i : Nat) (s : Scenario K.Recipe) : Nat → List Rendering →
    Work K (Except Fault (List Rendering))
  | 0, seen => .done (.ok seen.reverse)
  | n + 1, seen => (render i s).andThen fun r => replay i s n (r :: seen)

def agree : List Rendering → Bool
  | [] => true
  | r :: rs => rs.all (· == r)

/-- The verdict on replays that all went through: the text they agree on, or the first complaint
about them. -/
def judge {ρ : Type} (key : Key) (s : Scenario ρ) (renderings : List Rendering) :
    Except Fault String :=
  if agree renderings then
    match renderings with
    | [] => .error (.breakdown .index "list index out of range")
    | r :: _ =>
        if r.text ≠ s.expected then .error (.mismatch key s.expected r.text "output")
        else
          match s.diagnostics with
          | none => .ok r.text
          | some ds =>
              if ds = r.diagnostics then .ok r.text
              else .error (.mismatch key (String.intercalate "\n" ds)
                (String.intercalate "\n" r.diagnostics) "diagnostics")
  else .error (.flaky key s.expected (renderings.map Rendering.describe))

/-- Asking for a reset where there is no instance. -/
def noInstance : Fault := .breakdown .noAttribute "'NoneType' object has no attribute 'reset'"

def execute (replays : Nat) (parser : Option Nat) (key : Key) (s : Scenario K.Recipe) :
    Work K (Except Fault String) := do
  Work.act (.acquire key.backend)
  let rendered ←
    match parser with
    | some i => replay i s replays []
    | none => .done (.error noInstance)
  Work.act (.release key.backend)
  match rendered with
  | .error f => return .error f
  | .ok rs =>
      if !agree rs then
        Work.log (Source.execution.record .debug
          s!"{key.text} rendered {distinctCount rs} distinct results")
      return judge key s rs

def defaultReplays : Nat := 2

def checkReplays (n : Int) : Except Fault Nat :=
  if n < 1 then .error (.breakdown .value s!"replays must be at least 1, got {n}")
  else .ok n.toNat

end Concord
