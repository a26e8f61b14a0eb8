import Concord.Text.Blank
import Concord.Text.Integer
import Mathlib.Data.List.DropRight
import Mathlib.Data.Nat.Digits.Defs
/-!
Whole numbers in text, as a language of its own: a sign or none, then digits of any script, of which
each but the first may stand behind one underscore. A text is read as a number just where it is such
a numeral and not too long, and every number is read back from its decimal form. Blanks around the
numeral are taken off first, and only those.
-/

namespace Concord.Text

/-! ### Blanks around a text -/

def Blank (s : List Char) : Prop := ∀ c ∈ s, isBlank c = true

/-- The text `core` is what is left of `s` without the blanks at both ends. -/
structure Stripped (s core : List Char) : Prop where
  around : ∃ lead trail, Blank lead ∧ Blank trail ∧ s = lead ++ core ++ trail
  front : ∀ c ∈ core.head?, isBlank c = false
  back : ∀ c ∈ core.getLast?, isBlank c = false

section Stripped

variable {s core lead trail : List Char}

theorem stripChars_of_blank (blank : Blank s) : stripChars s = [] := by
  rw [stripChars, List.dropWhile_eq_nil_iff.mpr blank]
  rfl

theorem stripped_stripChars (s : List Char) : Stripped s (stripChars s) := by
  have whole := List.rdropWhile_append_rtakeWhile (p := isBlank) (l := s.dropWhile isBlank)
  refine ⟨⟨s.takeWhile isBlank, (s.dropWhile isBlank).rtakeWhile isBlank, ?_, ?_, ?_⟩, ?_, ?_⟩
  · exact fun c inside => List.mem_takeWhile_imp inside
  · exact fun c inside => List.mem_rtakeWhile_imp inside
  · calc s = s.takeWhile isBlank ++ s.dropWhile isBlank := List.takeWhile_append_dropWhile.symm
      _ = _ := by rw [List.append_assoc]; exact congrArg _ whole.symm
  · intro c first
    have first' : (s.dropWhile isBlank).head? = some c := by
      rw [← whole, List.head?_append]
      exact congrArg (Option.or · _) first
    have stops := List.head?_dropWhile_not isBlank s
    rwa [first'] at stops
  · intro c last
    obtain ⟨some_char, rfl⟩ := List.mem_getLast?_eq_getLast last
    exact Bool.eq_false_iff.mpr (List.rdropWhile_last_not isBlank _ some_char)

theorem rdropWhile_append_blank (s : List Char) (blank : Blank trail) :
    (s ++ trail).rdropWhile isBlank = s.rdropWhile isBlank := by
  have reversed : ∀ c ∈ trail.reverse, isBlank c = true :=
    fun c inside => blank c (List.mem_reverse.mp inside)
  rw [List.rdropWhile, List.reverse_append, List.dropWhile_append_of_pos reversed]
  rfl

theorem Stripped.stripChars (stripped : Stripped s core) : Text.stripChars s = core := by
  obtain ⟨⟨lead, trail, leading, trailing, rfl⟩, front, back⟩ := stripped
  cases core with
  | nil =>
      rw [List.append_nil]
      exact stripChars_of_blank (List.forall_mem_append.mpr ⟨leading, trailing⟩)
  | cons c cs =>
      have solid : ¬ isBlank c = true := Bool.eq_false_iff.mp (front c rfl)
      have ends : (c :: cs).rdropWhile isBlank = c :: cs := by
        rw [List.rdropWhile_eq_self_iff]
        intro some_char
        exact Bool.eq_false_iff.mp (back _ (List.getLast?_eq_some_getLast some_char))
      calc Text.stripChars (lead ++ c :: cs ++ trail)
          = ((lead ++ c :: cs ++ trail).dropWhile isBlank).rdropWhile isBlank := rfl
        _ = (c :: cs ++ trail).rdropWhile isBlank := by
            rw [List.append_assoc, List.dropWhile_append_of_pos leading, List.cons_append,
              List.dropWhile_cons_of_neg solid]
        _ = c :: cs := by rw [rdropWhile_append_blank _ trailing, ends]

theorem stripChars_eq_iff : stripChars s = core ↔ Stripped s core :=
  ⟨fun same => same ▸ stripped_stripChars s, Stripped.stripChars⟩

theorem stripChars_eq_nil_iff : stripChars s = [] ↔ Blank s := by
  refine ⟨fun nothing => ?_, stripChars_of_blank⟩
  obtain ⟨lead, trail, leading, trailing, rfl⟩ := (stripChars_eq_iff.mp nothing).around
  rw [List.append_nil]
  exact List.forall_mem_append.mpr ⟨leading, trailing⟩

end Stripped

/-! ### Numerals -/

/-- Digits that may follow a digit, from the highest down. Each may stand behind an underscore. -/
inductive MoreDigits : List Char → List Nat → Prop
  | nil : MoreDigits [] []
  | digit {c : Char} {d : Nat} {cs : List Char} {ds : List Nat} (value : digitValue c = some d)
      (more : MoreDigits cs ds) : MoreDigits (c :: cs) (d :: ds)
  | apart {c : Char} {d : Nat} {cs : List Char} {ds : List Nat} (value : digitValue c = some d)
      (more : MoreDigits cs ds) : MoreDigits ('_' :: c :: cs) (d :: ds)

/-- A digit of any script and those that follow it. -/
inductive Numeral : List Char → List Nat → Prop
  | intro {c : Char} {d : Nat} {cs : List Char} {ds : List Nat} (value : digitValue c = some d)
      (more : MoreDigits cs ds) : Numeral (c :: cs) (d :: ds)

/-- The whole number that a text stands for, if its digits are not too many. -/
inductive Denotes : List Char → Int → Prop
  | plain {cs : List Char} {ds : List Nat} (numeral : Numeral cs ds) (short : ds.length ≤ digitLimit) :
      Denotes cs (Nat.ofDigits 10 ds.reverse : Nat)
  | plus {cs : List Char} {ds : List Nat} (numeral : Numeral cs ds) (short : ds.length ≤ digitLimit) :
      Denotes ('+' :: cs) (Nat.ofDigits 10 ds.reverse : Nat)
  | minus {cs : List Char} {ds : List Nat} (numeral : Numeral cs ds) (short : ds.length ≤ digitLimit) :
      Denotes ('-' :: cs) (-(Nat.ofDigits 10 ds.reverse : Nat))

section Numeral

variable {c : Char} {cs : List Char} {ds : List Nat} {m : Nat} {n : Int}

theorem ofDigits_eq (ds : List Nat) : ofDigits ds = Nat.ofDigits 10 ds.reverse := by
  rw [Nat.ofDigits_eq_foldr, List.foldr_reverse, ofDigits]
  simp only [Nat.cast_id, Nat.add_comm]

theorem digitValue_underscore : digitValue '_' = none := by decide

theorem digitsFrom_eq_some_iff : digitsFrom cs = some ds ↔ MoreDigits cs ds := by
  constructor
  · intro read
    fun_induction digitsFrom cs generalizing ds with
    | case1 =>
        cases read
        exact .nil
    | case2 c cs d value ih =>
        obtain ⟨rest, later, rfl⟩ := Option.map_eq_some_iff.mp read
        exact .apart value (ih later)
    | case4 c cs _ d value ih =>
        obtain ⟨rest, later, rfl⟩ := Option.map_eq_some_iff.mp read
        exact .digit value (ih later)
    | case3 | case5 => cases read
  · intro more
    induction more with
    | nil => rfl
    | @digit c d cs ds value more ih =>
        have other : c ≠ '_' := by
          rintro rfl
          cases digitValue_underscore.symm.trans value
        simp [digitsFrom, other, value, ih]
    | apart value more ih => simp [digitsFrom, value, ih]

theorem digits_eq_some_iff : digits cs = some ds ↔ Numeral cs ds := by
  constructor
  · intro read
    cases cs with
    | nil => cases read
    | cons c cs =>
        cases value : digitValue c with
        | none => simp [digits, value] at read
        | some d =>
            obtain ⟨ds, more, rfl⟩ : ∃ ds', digitsFrom cs = some ds' ∧ d :: ds' = ds := by
              simpa [digits, value] using read
            exact .intro value (digitsFrom_eq_some_iff.mp more)
  · rintro ⟨value, more⟩
    simp [digits, value, digitsFrom_eq_some_iff.mpr more]

theorem natural?_eq_some_iff :
    natural? cs = some m ↔ ∃ ds, Numeral cs ds ∧ ds.length ≤ digitLimit ∧ Nat.ofDigits 10 ds.reverse = m := by
  simp only [natural?, Option.bind_eq_some_iff, digits_eq_some_iff, ofDigits_eq, Option.ite_none_right_eq_some,
    Option.some.injEq]

theorem Numeral.unsigned (numeral : Numeral cs ds) (r : List Char) : cs ≠ '-' :: r ∧ cs ≠ '+' :: r := by
  have minus : digitValue '-' = none := by decide
  have plus : digitValue '+' = none := by decide
  cases numeral with
  | intro value _ =>
      constructor
      · rintro ⟨⟩
        cases minus.symm.trans value
      · rintro ⟨⟩
        cases plus.symm.trans value

theorem integer?_minus (cs : List Char) :
    integer? ('-' :: cs) = (natural? cs).map fun (m : Nat) => -(m : Int) := by
  simp only [integer?]
  cases natural? cs <;> rfl

theorem integer?_plus (cs : List Char) : integer? ('+' :: cs) = (natural? cs).map Int.ofNat := rfl

theorem integer?_of_unsigned (unsigned : ∀ r, cs ≠ '-' :: r ∧ cs ≠ '+' :: r) :
    integer? cs = (natural? cs).map Int.ofNat := by
  unfold integer?
  split
  · exact absurd rfl (unsigned _).1
  · exact absurd rfl (unsigned _).2
  · rfl

theorem map_natural?_eq_some_iff {f : Nat → Int} :
    (natural? cs).map f = some n ↔
      ∃ ds, Numeral cs ds ∧ ds.length ≤ digitLimit ∧ f (Nat.ofDigits 10 ds.reverse) = n := by
  simp only [Option.map_eq_some_iff, natural?_eq_some_iff]
  constructor
  · rintro ⟨m, ⟨ds, numeral, short, rfl⟩, same⟩
    exact ⟨ds, numeral, short, same⟩
  · rintro ⟨ds, numeral, short, same⟩
    exact ⟨_, ⟨ds, numeral, short, rfl⟩, same⟩

/-- A text is read as a number just where it stands for it. -/
theorem integer?_eq_some_iff : integer? cs = some n ↔ Denotes cs n := by
  constructor
  · intro read
    by_cases minus : ∃ r, cs = '-' :: r
    · obtain ⟨r, rfl⟩ := minus
      obtain ⟨ds, numeral, short, rfl⟩ := map_natural?_eq_some_iff.mp ((integer?_minus r).symm.trans read)
      exact .minus numeral short
    by_cases plus : ∃ r, cs = '+' :: r
    · obtain ⟨r, rfl⟩ := plus
      obtain ⟨ds, numeral, short, rfl⟩ := map_natural?_eq_some_iff.mp ((integer?_plus r).symm.trans read)
      exact .plus numeral short
    have unsigned (r) : cs ≠ '-' :: r ∧ cs ≠ '+' :: r :=
      ⟨fun same => minus ⟨r, same⟩, fun same => plus ⟨r, same⟩⟩
    rw [integer?_of_unsigned unsigned] at read
    obtain ⟨ds, numeral, short, rfl⟩ := map_natural?_eq_some_iff.mp read
    exact .plain numeral short
  · intro denotes
    cases denotes with
    | plain numeral short =>
        rw [integer?_of_unsigned numeral.unsigned]
        exact map_natural?_eq_some_iff.mpr ⟨_, numeral, short, rfl⟩
    | plus numeral short => exact map_natural?_eq_some_iff.mpr ⟨_, numeral, short, rfl⟩
    | minus numeral short =>
        rw [integer?_minus]
        exact map_natural?_eq_some_iff.mpr ⟨_, numeral, short, rfl⟩

example : integer? "+0_0３".toList = some 3 := by decide +kernel

end Numeral

/-! ### Decimal form -/

section Decimal

variable {c : Char} {cs : List Char}

theorem toNat_bounds_of_isDigit (digit : c.isDigit = true) : 48 ≤ c.toNat ∧ c.toNat < 58 := by
  obtain ⟨low, high⟩ := Char.isDigit_iff_toNat.mp digit
  have zero : '0'.toNat = 48 := rfl
  have nine : '9'.toNat = 57 := rfl
  omega

theorem digitValue_of_isDigit (digit : c.isDigit = true) : digitValue c = some (c.toNat - '0'.toNat) := by
  obtain ⟨low, high⟩ := toNat_bounds_of_isDigit digit
  have first : (zeros.find? fun z => z ≤ c.toNat && c.toNat < z + 10) = some 0x30 := by
    rw [zeros, List.find?_cons_of_pos]
    simp [low, high]
  rw [digitValue, first]
  rfl

theorem isBlank_of_isDigit (digit : c.isDigit = true) : isBlank c = false := by
  obtain ⟨low, high⟩ := toNat_bounds_of_isDigit digit
  simp only [isBlank, blankRanges, List.any_cons, List.any_nil, Bool.or_false, Bool.or_eq_false_iff,
    Bool.and_eq_false_iff, decide_eq_false_iff_not]
  omega

theorem moreDigits_of_isDigit (digits : ∀ c ∈ cs, c.isDigit = true) :
    MoreDigits cs (cs.map fun c => c.toNat - '0'.toNat) := by
  induction cs with
  | nil => exact .nil
  | cons c cs ih =>
      obtain ⟨digit, digits⟩ := List.forall_mem_cons.mp digits
      exact .digit (digitValue_of_isDigit digit) (ih digits)

theorem numeral_toDigits (m : Nat) :
    Numeral (Nat.toDigits 10 m) ((Nat.toDigits 10 m).map fun c => c.toNat - '0'.toNat) := by
  have digits : ∀ c ∈ Nat.toDigits 10 m, c.isDigit = true :=
    fun c => Nat.isDigit_of_mem_toDigits (by decide) (by decide)
  cases form : Nat.toDigits 10 m with
  | nil => exact absurd form Nat.toDigits_ne_nil
  | cons c cs =>
      rw [form] at digits
      obtain ⟨digit, digits⟩ := List.forall_mem_cons.mp digits
      exact .intro (digitValue_of_isDigit digit) (moreDigits_of_isDigit digits)

theorem ofDigits_toDigits (m : Nat) :
    Nat.ofDigits 10 ((Nat.toDigits 10 m).map fun c => c.toNat - '0'.toNat).reverse = m := by
  rw [← ofDigits_eq, ofDigits, List.foldl_map, ← Nat.ofDigitChars_eq_foldl, Nat.ofDigitChars_ten_toDigits]

theorem toList_toString_nat (m : Nat) : (toString m).toList = Nat.toDigits 10 m := by
  rw [Nat.toString_eq_ofList_toDigits, String.toList_ofList]

theorem toList_toString_negSucc (m : Nat) :
    (toString (Int.negSucc m)).toList = '-' :: Nat.toDigits 10 (m + 1) := by
  have signed : toString (Int.negSucc m) = "-" ++ toString (m + 1) := rfl
  rw [signed, String.toList_append, toList_toString_nat]
  rfl

/-- The decimal form of a number stands for it, unless it is too long. -/
theorem denotes_toString {n : Int} (short : (Nat.toDigits 10 n.natAbs).length ≤ digitLimit) :
    Denotes (toString n).toList n := by
  cases n with
  | ofNat m =>
      have plain := Denotes.plain (numeral_toDigits m) (by simpa using short)
      rw [ofDigits_toDigits] at plain
      exact toList_toString_nat m ▸ plain
  | negSucc m =>
      have minus := Denotes.minus (numeral_toDigits (m + 1)) (by simpa using short)
      rw [ofDigits_toDigits] at minus
      exact toList_toString_negSucc m ▸ minus

theorem not_blank_toString (n : Int) : ∀ c ∈ (toString n).toList, isBlank c = false := by
  have digits (m : Nat) : ∀ c ∈ Nat.toDigits 10 m, isBlank c = false := fun c inside =>
    isBlank_of_isDigit (Nat.isDigit_of_mem_toDigits (by decide) (by decide) inside)
  cases n with
  | ofNat m => exact toList_toString_nat m ▸ digits m
  | negSucc m =>
      rw [toList_toString_negSucc]
      exact List.forall_mem_cons.mpr ⟨by decide, digits (m + 1)⟩

theorem stripped_toString (n : Int) {lead trail : String} (leading : Blank lead.toList)
    (trailing : Blank trail.toList) : Stripped (lead ++ toString n ++ trail).toList (toString n).toList where
  around := ⟨lead.toList, trail.toList, leading, trailing, by simp only [String.toList_append]⟩
  front c first := not_blank_toString n c (List.mem_of_head? first)
  back c last := not_blank_toString n c (List.mem_of_getLast? last)

end Decimal

end Concord.Text
