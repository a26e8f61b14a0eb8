import Concord.Fault
import Concord.Text.Charset
/-!
Notices to the user: one line each, with a sign in front, on a stream that may be a terminal. A
stream that cannot show the sign gets letters instead, and one that is no terminal gets no colours.
-/

namespace Concord

structure Stream where
  charset : String
  isTerminal : Bool
  deriving DecidableEq, Repr

inductive Notice
  | warning
  | success
  | error
  deriving DecidableEq, Repr

namespace Notice

def sign : Notice → String
  | .warning => "⚠️"
  | .success => "✅"
  | .error => "❌"

/-- What stands for the sign on a stream that cannot show it. -/
def letters : Notice → String
  | .warning => "[!]"
  | .success => "[OK]"
  | .error => "[X]"

def color : Notice → String
  | .warning => "33"
  | .success => "32"
  | .error => "31"

end Notice

/-- Drops the terminal's control sequences: an escape and a bracket, then numbers and separators up
to a letter. -/
def plainFrom : (inside : Option (List Char)) → List Char → List Char
  | none, [] => []
  | some held, [] => held.reverse
  | none, c :: cs =>
      if c = Char.ofNat 0x1b then plainFrom (some [c]) cs else c :: plainFrom none cs
  | some held, c :: cs =>
      if held.length = 1 then
        if c = '[' then plainFrom (some (c :: held)) cs
        else if c = Char.ofNat 0x1b then held.reverse ++ plainFrom (some [c]) cs
        else held.reverse ++ c :: plainFrom none cs
      else if c = ';' || c = '?' || c.isDigit then plainFrom (some (c :: held)) cs
      else if c.isAlpha then plainFrom none cs
      else if c = Char.ofNat 0x1b then held.reverse ++ plainFrom (some [c]) cs
      else held.reverse ++ c :: plainFrom none cs

def withoutControls (text : String) : String := String.ofList (plainFrom none text.toList)

namespace Stream

/-- The character set; a stream without one has the smallest. -/
def charsetName (s : Stream) : String := if s.charset.isEmpty then "ascii" else s.charset

def shows (s : Stream) (text : String) : Except Fault Bool :=
  match Text.Charset.named? s.charsetName with
  | none => .error (.breakdown .lookup s!"unknown encoding: {s.charsetName}")
  | some set => .ok (set.refusal? text).isNone

def sign (s : Stream) (n : Notice) : Except Fault String :=
  (s.shows n.sign).map fun yes => if yes then n.sign else n.letters

def notice (s : Stream) (n : Notice) (text : String) : Except Fault String :=
  (s.sign n).map fun sign =>
    let body := s!"{sign}  {text}"
    let escape := String.singleton (Char.ofNat 0x1b)
    if s.isTerminal then
      escape ++ "[" ++ n.color ++ "m" ++ escape ++ "[1m" ++ body ++ escape ++ "[0m\n"
    else withoutControls body ++ "\n"

end Stream

end Concord
