import Concord.Environment
import Concord.PlainText.Parser
/-!
Blueprints: what the constructor of a backend does when it is called, and what a probe answers.
Both count their calls under a tag.
-/

namespace Concord.PlainText

inductive Blueprint
  | parser (level : Int) (charset : String) (m : Manner)
  | minimal (ending : String)
  | nothing
  | raising (f : Fault)
  /-- Raises for the first calls, and is plain afterwards. -/
  | failFirst (times : Int) (f : Fault) (level : Int) (charset : String)
  /-- Outlasts every deadline. -/
  | block (level : Int) (charset : String)

def defaultCharset : String := "utf-8"

def fresh (p : Parser kit) : Option (Instance kit) := some ⟨p, {}⟩

def Blueprint.construct (b : Blueprint) (tag : Nat) (t : Tallies) : Built kit :=
  match b with
  | .parser level charset m => { result := .ok (fresh (PlainText.parser level charset m)), shared := t.note tag }
  | .minimal ending => { result := .ok (fresh (PlainText.minimal ending)), shared := t.note tag }
  | .nothing => { result := .ok none, shared := t.note tag }
  | .raising f => { result := .error f, shared := t.note tag }
  | .failFirst times f level charset =>
      { result :=
          if (t.count tag : Int) < times then .error f
          else .ok (fresh (PlainText.parser level charset .plain))
        shared := t.note tag }
  | .block level charset =>
      { result := .ok (fresh (PlainText.parser level charset .plain))
        shared := t.note tag
        slow := true }

inductive Answering
  | always (d : Datum)
  /-- One after the other, and from the start again. -/
  | inTurn (ds : List Datum)
  | raising (f : Fault)

/-- The answer of a probe to its `n`th question, counted from zero. -/
def Answering.answer (a : Answering) (n : Nat) : Except Fault Bool :=
  match a with
  | .always d => .ok d.isTrue
  | .inTurn ds =>
      match ds[n % ds.length]? with
      | some d => .ok d.isTrue
      | none => .error (.breakdown .zeroDivision "integer modulo by zero")
  | .raising f => .error f

def Answering.probe (a : Answering) (tag : Nat) : Probe Tallies :=
  ⟨tag, fun t => (a.answer (t.count tag), t.note tag)⟩

end Concord.PlainText
