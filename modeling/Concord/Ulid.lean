/-!
Sortable identifiers of runs: a number of 128 bits, the time in front and chance behind it, written
in base 32. Within one millisecond the next identifier is the last one plus one, so identifiers
increase in the order in which they are issued.
-/

namespace Concord

/-- The digits of base 32, without the letters that are taken for others. -/
def ulidDigits : List Char := "0123456789ABCDEFGHJKMNPQRSTVWXYZ".toList

/-- The lowest `n` digits of a number, the highest first. -/
def ulidChars : (n : Nat) → Nat → List Char
  | 0, _ => []
  | n + 1, v => ulidChars n (v / 32) ++ [ulidDigits[v % 32]?.getD '0']

structure Ulid where
  value : Nat
  deriving DecidableEq, Repr

namespace Ulid

/-- An identifier for a time in milliseconds. -/
def ofTime (millis chance : Nat) : Ulid :=
  ⟨millis % Nat.pow 2 48 * Nat.pow 2 80 + chance % Nat.pow 2 80⟩

def millis (u : Ulid) : Nat := u.value / Nat.pow 2 80

/-- The identifier after another one; time never runs backwards. -/
def after (u : Ulid) (millis chance : Nat) : Ulid :=
  if u.millis < millis % Nat.pow 2 48 then ofTime millis chance else ⟨u.value + 1⟩

def text (u : Ulid) : String := String.ofList (ulidChars 26 u.value)

def isText (t : String) : Bool :=
  t.length == 26 && t.toList.all (ulidDigits.contains ·) &&
    match t.toList.head? with
    | some c => c ≤ '7'
    | none => false

/-- So many identifiers, issued within one millisecond. -/
def series (u : Ulid) : Nat → List Ulid
  | 0 => []
  | n + 1 => u :: series (u.after u.millis 0) n

end Ulid

end Concord
