import Concord.Text.Double
import Concord.Text.Quoted
/-!
Plain data: values that carry no behaviour. A probe answers with a datum, and a datum may stand
where a recipe is expected.
-/

namespace Concord

inductive Datum
  | null
  | bool (b : Bool)
  | whole (n : Int)
  | real (x : Text.Double)
  | text (s : String)
  | list (xs : List Datum)
  | record (fields : List (String × Datum))
  deriving Inhabited

namespace Datum

def kind : Datum → String
  | .null => "NoneType"
  | .bool _ => "bool"
  | .whole _ => "int"
  | .real _ => "float"
  | .text _ => "str"
  | .list _ => "list"
  | .record _ => "dict"

/-- Whether a datum counts as a yes: all do, except null, false, zero and what is empty. -/
def isTrue : Datum → Bool
  | .null => false
  | .bool b => b
  | .whole n => n != 0
  | .real (.finite _ m _) => m != 0
  | .real _ => true
  | .text s => !s.isEmpty
  | .list xs => !xs.isEmpty
  | .record fs => !fs.isEmpty

/-- The value of a finite number as a fraction of integers; truth values count as one and zero. -/
def fraction? : Datum → Option (Int × Nat)
  | .bool b => some (if b then 1 else 0, 1)
  | .whole n => some (n, 1)
  | .real (.finite s m q) =>
      let signed : Int := if s then -(m : Int) else m
      some (if 0 ≤ q then (signed * Nat.pow 2 q.toNat, 1) else (signed, Nat.pow 2 (-q).toNat))
  | _ => none

def sameNumber (a b : Datum) : Bool :=
  match a.fraction?, b.fraction? with
  | some (n, d), some (m, e) => n * e == m * d
  | _, _ => false

mutual

/-- Equality of data. Numbers are compared by value, whatever their kind, and the order of fields
does not matter. -/
def same : Datum → Datum → Bool
  | .null, .null => true
  | .text s, .text t => s == t
  | .list xs, .list ys => sameList xs ys
  | .record fs, .record gs => fs.length == gs.length && sameFields fs gs
  | .real (.infinite s), .real (.infinite t) => s == t
  | a, b => a.sameNumber b

def sameList : List Datum → List Datum → Bool
  | [], [] => true
  | x :: xs, y :: ys => same x y && sameList xs ys
  | _, _ => false

/-- Whether every field is found, with an equal value, in the second list. -/
def sameFields : List (String × Datum) → List (String × Datum) → Bool
  | [], _ => true
  | (name, x) :: fs, gs =>
      (match gs.lookup name with
        | some y => same x y
        | none => false) && sameFields fs gs

end

/-! ### Showing -/

mutual

/-- A datum inside another one, where texts are quoted. -/
def inner : Datum → String
  | .null => "None"
  | .bool b => if b then "True" else "False"
  | .whole n => toString n
  | .real x => x.text
  | .text s => Text.quoted s
  | .list xs => "[" ++ String.intercalate ", " (innerList xs) ++ "]"
  | .record fs => String.singleton (Char.ofNat 0x7b) ++ String.intercalate ", " (innerFields fs) ++
      String.singleton (Char.ofNat 0x7d)

def innerList : List Datum → List String
  | [] => []
  | x :: xs => inner x :: innerList xs

def innerFields : List (String × Datum) → List String
  | [] => []
  | (n, x) :: fs => (Text.quoted n ++ ": " ++ inner x) :: innerFields fs

end

def shown : Datum → String
  | .text s => s
  | d => d.inner

/-! ### Reading -/

mutual

def depth : Datum → Nat
  | .list xs => depthList xs + 1
  | .record fs => depthFields fs + 1
  | _ => 1

def depthList : List Datum → Nat
  | [] => 0
  | x :: xs => max (depth x) (depthList xs)

def depthFields : List (String × Datum) → Nat
  | [] => 0
  | (_, x) :: fs => max (depth x) (depthFields fs)

end

def fields : Datum → List (String × Datum)
  | .record fs => fs
  | _ => []

def field? (d : Datum) (name : String) : Option Datum := d.fields.lookup name

def given? (d : Datum) (name : String) : Option Datum :=
  match d.field? name with
  | some .null => none
  | o => o

def members : Datum → List Datum
  | .list xs => xs
  | _ => []

def membersAt (d : Datum) (name : String) : List Datum :=
  ((d.field? name).map members).getD []

def fieldsAt (d : Datum) (name : String) : List (String × Datum) :=
  ((d.field? name).map fields).getD []

/-- The text of a datum; only a text has one. -/
def asText : Datum → String
  | .text s => s
  | _ => ""

def textAt (d : Datum) (name : String) (default : String := "") : String :=
  ((d.given? name).map asText).getD default

/-- A list of texts; a text stands for the list of its characters. -/
def asTexts : Datum → List String
  | .text s => s.toList.map String.singleton
  | d => d.members.map asText

def textsAt (d : Datum) (name : String) : List String :=
  ((d.field? name).map asTexts).getD []

def asWhole : Datum → Int
  | .whole n => n
  | .bool b => if b then 1 else 0
  | _ => 0

def wholeAt (d : Datum) (name : String) (default : Int) : Int :=
  ((d.given? name).map asWhole).getD default

def flag? (d : Datum) (name : String) : Option Bool :=
  match d.field? name with
  | some (.bool b) => some b
  | _ => none

def flagAt (d : Datum) (name : String) (default : Bool := false) : Bool :=
  (d.flag? name).getD default

def seconds? (d : Datum) (name : String) : Option Text.Seconds :=
  match d.field? name with
  | some (.whole n) => some (.whole n)
  | some (.real x) => some (.real x)
  | _ => none

end Datum

end Concord
