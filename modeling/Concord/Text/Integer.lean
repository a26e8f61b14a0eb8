/-!
Whole numbers in text: decimal reading, with the digits of every script, and fixed-width writing.
-/

namespace Concord.Text

/-- The code points of the zeros; the other nine digits of a script follow its zero. -/
def zeros : List Nat :=
  [0x30, 0x660, 0x6f0, 0x7c0, 0x966, 0x9e6, 0xa66, 0xae6, 0xb66, 0xbe6, 0xc66, 0xce6, 0xd66, 0xde6,
   0xe50, 0xed0, 0xf20, 0x1040, 0x1090, 0x17e0, 0x1810, 0x1946, 0x19d0, 0x1a80, 0x1a90, 0x1b50,
   0x1bb0, 0x1c40, 0x1c50, 0xa620, 0xa8d0, 0xa900, 0xa9d0, 0xa9f0, 0xaa50, 0xabf0, 0xff10, 0x104a0,
   0x10d30, 0x11066, 0x110f0, 0x11136, 0x111d0, 0x112f0, 0x11450, 0x114d0, 0x11650, 0x116c0,
   0x11730, 0x118e0, 0x11950, 0x11c50, 0x11d50, 0x11da0, 0x16a60, 0x16ac0, 0x16b50, 0x1d7ce,
   0x1d7d8, 0x1d7e2, 0x1d7ec, 0x1d7f6, 0x1e140, 0x1e2f0, 0x1e950, 0x1fbf0]

/-- The value of a decimal digit of any script. -/
def digitValue (c : Char) : Option Nat :=
  (zeros.find? fun z => z ≤ c.toNat && c.toNat < z + 10).map fun z => c.toNat - z

/-- Reads digits after a digit: each may be preceded by one underscore. -/
def digitsFrom : List Char → Option (List Nat)
  | [] => some []
  | '_' :: c :: cs =>
      match digitValue c with
      | some d => (digitsFrom cs).map (d :: ·)
      | none => none
  | c :: cs =>
      match digitValue c with
      | some d => (digitsFrom cs).map (d :: ·)
      | none => none

def digits : List Char → Option (List Nat)
  | [] => none
  | c :: cs =>
      match digitValue c with
      | some d => (digitsFrom cs).map (d :: ·)
      | none => none

/-- The number written by decimal digits, the first being the highest. -/
def ofDigits (ds : List Nat) : Nat := ds.foldl (fun n d => 10 * n + d) 0

/-- Numbers of more digits are not read. -/
def digitLimit : Nat := 4300

/-- A natural number of at most `digitLimit` digits. -/
def natural? (s : List Char) : Option Nat :=
  (digits s).bind fun ds => if ds.length ≤ digitLimit then some (ofDigits ds) else none

def integer? (s : List Char) : Option Int :=
  match s with
  | '-' :: r => (natural? r).map fun n => -(n : Int)
  | '+' :: r => (natural? r).map Int.ofNat
  | r => (natural? r).map Int.ofNat

/-- Decimal text of at least `width` digits, filled up with zeros on the left. -/
def padded (width n : Nat) : String :=
  let ds := toString n
  String.ofList (List.replicate (width - ds.length) '0') ++ ds

end Concord.Text
