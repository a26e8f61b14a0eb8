/-!
Sets of names. A set is kept as the strictly increasing list of its members, in code point order,
so two sets with the same members are the same value and their text form is fixed.
-/

namespace Concord

/-- Places a name in an increasing list, unless it is there already. -/
def insertName (x : String) : List String → List String
  | [] => [x]
  | y :: ys => if x < y then x :: y :: ys else if x = y then y :: ys else y :: insertName x ys

@[simp] theorem mem_insertName {x z : String} {ys : List String} :
    z ∈ insertName x ys ↔ z = x ∨ z ∈ ys := by
  induction ys with
  | nil => simp [insertName]
  | cons y ys ih =>
      simp only [insertName]
      split
      · simp
      · split
        · next h => subst h; simp
        · simp [ih]; grind

theorem insertName_increasing {x : String} {ys : List String} (h : ys.Pairwise (· < ·)) :
    (insertName x ys).Pairwise (· < ·) := by
  induction ys with
  | nil => simp [insertName]
  | cons y ys ih =>
      obtain ⟨hy, hys⟩ := List.pairwise_cons.1 h
      simp only [insertName]
      split
      · next hxy =>
          refine List.pairwise_cons.2 ⟨?_, h⟩
          intro z hz
          rcases List.mem_cons.1 hz with rfl | hz
          · exact hxy
          · exact String.lt_trans hxy (hy z hz)
      · split
        · exact h
        · next hxy hne =>
            refine List.pairwise_cons.2 ⟨?_, ih hys⟩
            intro z hz
            rcases mem_insertName.1 hz with rfl | hz
            · have hle : y ≤ z := String.not_lt.1 hxy
              exact String.not_le.1 fun hzy => hne (String.le_antisymm hzy hle)
            · exact hy z hz

structure NameSet where
  names : List String
  increasing : names.Pairwise (· < ·)
  deriving DecidableEq

namespace NameSet

instance : Membership String NameSet := ⟨fun s x => x ∈ s.names⟩

instance (x : String) (s : NameSet) : Decidable (x ∈ s) :=
  inferInstanceAs (Decidable (x ∈ s.names))

theorem mem_def {x : String} {s : NameSet} : x ∈ s ↔ x ∈ s.names := Iff.rfl

def empty : NameSet := ⟨[], .nil⟩

instance : Inhabited NameSet := ⟨empty⟩

def insert (x : String) (s : NameSet) : NameSet :=
  ⟨insertName x s.names, insertName_increasing s.increasing⟩

@[simp] theorem mem_insert {x z : String} {s : NameSet} : z ∈ s.insert x ↔ z = x ∨ z ∈ s :=
  mem_insertName

/-- The set of the members of a list, repetitions dropped. -/
def ofList : List String → NameSet
  | [] => empty
  | x :: xs => (ofList xs).insert x

@[simp] theorem mem_ofList {z : String} {xs : List String} : z ∈ ofList xs ↔ z ∈ xs := by
  induction xs with
  | nil => exact Iff.rfl
  | cons x xs ih => simp [ofList, ih]

def union (s t : NameSet) : NameSet := ofList (s.names ++ t.names)

@[simp] theorem mem_union {z : String} {s t : NameSet} : z ∈ s.union t ↔ z ∈ s ∨ z ∈ t := by
  rw [union, mem_ofList, List.mem_append]
  exact Iff.rfl

/-- The members of `s` that `t` lacks. -/
def diff (s t : NameSet) : NameSet :=
  ⟨s.names.filter (fun x => !decide (x ∈ t.names)), s.increasing.filter _⟩

@[simp] theorem mem_diff {z : String} {s t : NameSet} : z ∈ s.diff t ↔ z ∈ s ∧ z ∉ t := by
  simp [diff, mem_def]

def isEmpty (s : NameSet) : Bool := s.names.isEmpty

/-- Increasing lists with the same members are the same list. -/
theorem eq_of_increasing {xs ys : List String} (hx : xs.Pairwise (· < ·)) (hy : ys.Pairwise (· < ·))
    (h : ∀ z, z ∈ xs ↔ z ∈ ys) : xs = ys := by
  induction xs generalizing ys with
  | nil => exact (List.eq_nil_iff_forall_not_mem.2 fun z hz => by simpa using (h z).2 hz).symm
  | cons x xs ih =>
      cases ys with
      | nil => exact absurd ((h x).1 (by simp)) (by simp)
      | cons y ys =>
          obtain ⟨hxs, hx'⟩ := List.pairwise_cons.1 hx
          obtain ⟨hys, hy'⟩ := List.pairwise_cons.1 hy
          have hxy : x = y := by
            rcases List.mem_cons.1 ((h x).1 (by simp)) with e | hxm
            · exact e
            · rcases List.mem_cons.1 ((h y).2 (by simp)) with e | hym
              · exact e.symm
              · exact absurd (String.lt_trans (hys x hxm) (hxs y hym)) (String.lt_irrefl y)
          subst hxy
          refine congrArg (x :: ·) (ih hx' hy' fun z => ?_)
          constructor
          · intro hz
            rcases List.mem_cons.1 ((h z).1 (by simp [hz])) with e | hz'
            · subst e; exact absurd (hxs z hz) (String.lt_irrefl z)
            · exact hz'
          · intro hz
            rcases List.mem_cons.1 ((h z).2 (by simp [hz])) with e | hz'
            · subst e; exact absurd (hys z hz) (String.lt_irrefl z)
            · exact hz'

@[ext] theorem ext {s t : NameSet} (h : ∀ z, z ∈ s ↔ z ∈ t) : s = t := by
  obtain ⟨xs, hx⟩ := s
  obtain ⟨ys, hy⟩ := t
  have e : xs = ys := eq_of_increasing hx hy h
  subst e
  rfl

end NameSet

end Concord
