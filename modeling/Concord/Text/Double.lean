import Concord.Text.Blank
import Concord.Text.Integer
/-!
Binary floating-point numbers of 53 bits, read from decimal text and written with the fewest
decimal digits that read back. All arithmetic is exact, on natural numbers.
-/

namespace Concord.Text

/-- A 64-bit floating-point number. A finite one is `m · 2^q`, with `m < 2^53` and `-1074 ≤ q`. -/
inductive Double
  | finite (negative : Bool) (m : Nat) (q : Int)
  | infinite (negative : Bool)
  | undefined
  deriving DecidableEq, Repr

namespace Double

/-- The quotient rounded to the nearest natural number, a half to the even one. -/
def roundDiv (num den : Nat) : Nat :=
  let n := num / den
  let r := num % den
  if 2 * r < den then n else if den < 2 * r then n + 1 else if n % 2 = 0 then n else n + 1

/-- `num / (den · 2^q)` as a fraction. -/
def scaled (num den : Nat) (q : Int) : Nat × Nat :=
  if 0 ≤ q then (num, den * Nat.pow 2 q.toNat) else (num * Nat.pow 2 (-q).toNat, den)

/-- The nearest number to the fraction `num / den`, a tie to the even significand. -/
def nearest (negative : Bool) (num den : Nat) : Double :=
  if num = 0 then .finite negative 0 (-1074)
  else
    let guess : Int := (num.log2 : Int) - (den.log2 : Int) - 52
    let (n, d) := scaled num den guess
    let q := max (if n < d * Nat.pow 2 52 then guess - 1 else guess) (-1074)
    let (n, d) := scaled num den q
    let m := roundDiv n d
    let (m, q) := if m = Nat.pow 2 53 then (Nat.pow 2 52, q + 1) else (m, q)
    if 971 < q then .infinite negative else .finite negative m q

/-- A decimal: `digits` times ten to the power `exponent`. -/
structure Decimal where
  digits : Nat
  exponent : Int
  deriving DecidableEq, Repr

def Decimal.fraction (d : Decimal) : Nat × Nat :=
  if 0 ≤ d.exponent then (d.digits * Nat.pow 10 d.exponent.toNat, 1)
  else (d.digits, Nat.pow 10 (-d.exponent).toNat)

def ofDecimal (negative : Bool) (d : Decimal) : Double :=
  if d.digits = 0 then nearest negative 0 1
  else if 400 < d.exponent then .infinite negative
  else if d.exponent + (Nat.toDigits 10 d.digits).length < -400 then nearest negative 0 1
  else
    let (num, den) := d.fraction
    nearest negative num den

/-- The exponent of the highest decimal digit of the positive fraction `num / den`. -/
def highest (num den : Nat) : Int :=
  if den ≤ num then (Nat.toDigits 10 (num / den)).length - 1
  else -(((List.range 400).find? fun j => den ≤ num * Nat.pow 10 j).getD 400 : Nat)

/-- The fewest digits, and of those the nearest, that read back as `m · 2^q`. -/
def shortest (m : Nat) (q : Int) : Decimal :=
  let (num, den) := if 0 ≤ q then (m * Nat.pow 2 q.toNat, 1) else (m, Nat.pow 2 (-q).toNat)
  let top := highest num den
  let this := nearest false num den
  let attempt (n : Nat) : Option Decimal :=
    let p : Int := top - n + 1
    let (a, b) := if 0 ≤ p then (num, den * Nat.pow 10 p.toNat) else (num * Nat.pow 10 (-p).toNat, den)
    let low : Decimal := ⟨a / b, p⟩
    let high : Decimal := ⟨a / b + 1, p⟩
    let near := if 2 * (a % b) < b then [low, high]
      else if b < 2 * (a % b) then [high, low]
      else if low.digits % 2 = 0 then [low, high] else [high, low]
    near.find? fun d => ofDecimal false d = this
  ((List.range 17).findSome? fun n => attempt (n + 1)).getD ⟨num / den, 0⟩

def trimZeros (ds : List Char) : List Char := (ds.reverse.dropWhile (· == '0')).reverse

/-- Positional text from 1e-4 up to 1e16, and text with an exponent beyond. -/
def decimalText (d : Decimal) : String :=
  if d.digits = 0 then "0.0"
  else
    let all := Nat.toDigits 10 d.digits
    let top : Int := d.exponent + all.length - 1
    let ds := trimZeros all
    if -4 ≤ top ∧ top < 16 then
      if top < 0 then
        "0." ++ String.ofList (List.replicate ((-top).toNat - 1) '0' ++ ds)
      else
        let whole := top.toNat + 1
        let front := ds.take whole ++ List.replicate (whole - ds.length) '0'
        let back := ds.drop whole
        String.ofList front ++ "." ++ (if back.isEmpty then "0" else String.ofList back)
    else
      let front := String.ofList (ds.take 1)
      let back := ds.drop 1
      let sign := if top < 0 then "-" else "+"
      front ++ (if back.isEmpty then "" else "." ++ String.ofList back) ++ "e" ++ sign
        ++ padded 2 top.natAbs

def text : Double → String
  | .finite s m q => (if s then "-" else "") ++ decimalText (if m = 0 then ⟨0, 0⟩ else shortest m q)
  | .infinite s => if s then "-inf" else "inf"
  | .undefined => "nan"

def isPositive : Double → Bool
  | .finite s m _ => !s && m != 0
  | .infinite s => !s
  | .undefined => false

/-- Digits with single underscores between them; none at all is allowed. -/
def digitRun (s : List Char) : Option (List Nat) := if s.isEmpty then some [] else digits s

/-- Reads `digits`, `digits.digits` and their forms with an exponent. -/
def unsigned? (s : List Char) : Option Decimal :=
  let (mantissa, power) := s.span fun c => c != 'e' && c != 'E'
  let (front, back) := mantissa.span (· != '.')
  match digitRun front, digitRun (back.drop 1) with
  | some f, some b =>
      if f.isEmpty && b.isEmpty then none
      else
        let exponent : Option Int := if power.isEmpty then some 0 else integer? (power.drop 1)
        exponent.map fun e => ⟨ofDigits (f ++ b), e - b.length⟩
  | _, _ => none

/-- Reads a number from text, blanks around it ignored. -/
def ofText? (s : String) : Option Double :=
  let body := stripChars s.toList
  let (negative, body) : Bool × List Char :=
    match body with
    | '-' :: r => (true, r)
    | '+' :: r => (false, r)
    | r => (false, r)
  let name := String.ofList (body.map Char.toLower)
  if name = "inf" ∨ name = "infinity" then some (.infinite negative)
  else if name = "nan" then some .undefined
  else (unsigned? body).map (ofDecimal negative)

end Double

/-- A length of time in seconds, written as it was given: whole or with a fraction. -/
inductive Seconds
  | whole (n : Int)
  | real (x : Double)
  deriving DecidableEq, Repr

namespace Seconds

def text : Seconds → String
  | .whole n => toString n
  | .real x => x.text

/-- Whether there are more nanoseconds in it than can be counted with 63 bits. Those of a number with
a fraction are rounded to 53 bits before they are counted. -/
def isTooLong : Seconds → Bool
  | .whole n => (Nat.pow 2 63 : Nat) ≤ n * (Nat.pow 10 9 : Nat)
  | .real (.finite true _ _) => false
  | .real (.finite false m q) =>
      let (num, den) :=
        if 0 ≤ q then (m * Nat.pow 2 q.toNat * Nat.pow 10 9, 1)
        else (m * Nat.pow 10 9, Nat.pow 2 (-q).toNat)
      (Nat.pow 2 63 - Nat.pow 2 9) * den ≤ num
  | .real (.infinite negative) => !negative
  | .real .undefined => false

end Seconds

end Concord.Text
