import Mathlib.Data.List.Nodup
/-!
Lists, whatever they are of. What replacing a member does to look-ups and to counts, what one more
member at the end does, lists in which every name stands once, and lists that are taken apart by a key.
-/

namespace Concord

variable {α β κ : Type}

/-! ### Replacing a member -/

theorem set_of_getElem? {l : List α} {p : Nat} {x : α} (here : l[p]? = some x) : l.set p x = l := by
  obtain ⟨inside, found⟩ := List.getElem?_eq_some_iff.mp here
  rw [← found, List.set_getElem_self]

theorem getElem?_set_cases {l : List α} {p q : Nat} {x y : α} (found : (l.set p x)[q]? = some y) :
    p = q ∧ y = x ∨ p ≠ q ∧ l[q]? = some y := by
  by_cases same : p = q
  · subst same
    rw [List.getElem?_set_self'] at found
    obtain ⟨_, _, rfl⟩ := Option.map_eq_some_iff.mp found
    exact .inl ⟨rfl, rfl⟩
  · exact .inr ⟨same, by rwa [List.getElem?_set_ne same] at found⟩

theorem countP_set_add (f : α → Bool) {l : List α} {p : Nat} {x : α} (here : l[p]? = some x) (y : α) :
    (l.set p y).countP f + (f x).toNat = l.countP f + (f y).toNat := by
  obtain ⟨inside, rfl⟩ := List.getElem?_eq_some_iff.mp here
  have least := List.boole_getElem_le_countP (p := f) inside
  rw [List.countP_set inside]
  cases old : f l[p] <;> cases new : f y <;>
    simp only [old, Bool.false_eq_true, if_true, if_false, Bool.toNat_true, Bool.toNat_false]
      at least ⊢ <;> omega

/-! ### Members that are found and counted -/

theorem filterMap_cons_eq (f : α → Option β) (x : α) (xs : List α) :
    (x :: xs).filterMap f = (f x).toList ++ xs.filterMap f := by
  cases found : f x <;> simp [found]

/-! ### One more member at the end -/

theorem countP_snoc (f : α → Bool) (l : List α) (x : α) :
    (l ++ [x]).countP f = l.countP f + (f x).toNat := by
  rw [List.countP_append]
  cases counted : f x <;> simp [counted]

theorem modify_last (xs : List α) (x : α) (f : α → α) :
    (xs ++ [x]).modify xs.length f = xs ++ [f x] := by
  induction xs with
  | nil => rfl
  | cons y xs ih => simpa using ih

/-- A name that no member has as yet keeps the names of a list distinct. -/
theorem nodup_map_snoc {f : α → String} {xs : List α} {x : α} (nodup : (xs.map f).Nodup)
    (free : xs.find? (f · == f x) = none) : ((xs ++ [x]).map f).Nodup := by
  rw [List.map_append, List.nodup_append]
  refine ⟨nodup, by simp, ?_⟩
  intro n old m new same
  obtain ⟨y, member, rfl⟩ := List.mem_map.mp old
  obtain rfl : m = f x := by simpa using new
  simpa [same] using List.find?_eq_none.mp free y member

theorem find?_eq_some_iff_of_nodup {f : α → String} {xs : List α} (nodup : (xs.map f).Nodup)
    {n : String} {x : α} : xs.find? (f · == n) = some x ↔ x ∈ xs ∧ f x = n := by
  induction xs with
  | nil => simp
  | cons y ys ih =>
      obtain ⟨apart, nodup⟩ := List.nodup_cons.mp nodup
      by_cases here : f y = n
      · subst here
        simp only [List.find?_cons, beq_self_eq_true, Option.some.injEq, List.mem_cons]
        constructor
        · rintro rfl
          exact ⟨.inl rfl, rfl⟩
        · rintro ⟨rfl | later, same⟩
          · rfl
          · exact absurd (List.mem_map.mpr ⟨x, later, same⟩) apart
      · simp only [List.find?_cons, beq_false_of_ne here, ih nodup, List.mem_cons]
        constructor
        · rintro ⟨later, same⟩
          exact ⟨.inr later, same⟩
        · rintro ⟨rfl | later, same⟩
          · exact absurd same here
          · exact ⟨later, same⟩

/-! ### Taking a list apart -/

/-- Taken apart by a key and put together again, a list has the same members, as often as before. -/
theorem perm_flatMap_filter [DecidableEq κ] {keys : List κ} (distinct : keys.Nodup) (key : α → κ)
    {xs : List α} (known : ∀ x ∈ xs, key x ∈ keys) :
    (keys.flatMap fun k => xs.filter (key · == k)).Perm xs := by
  induction xs with
  | nil => simp
  | cons x xs ih =>
      obtain ⟨before, after, rfl⟩ := List.append_of_mem (known x List.mem_cons_self)
      have rest := ih fun y member => known y (List.mem_cons_of_mem x member)
      have elsewhere {ks : List κ} (other : key x ∉ ks) :
          (ks.flatMap fun k => (x :: xs).filter (key · == k)) =
            ks.flatMap fun k => xs.filter (key · == k) := by
        refine List.flatMap_congr fun k member => ?_
        have different : key x ≠ k := fun same => other (same ▸ member)
        rw [List.filter_cons_of_neg (by simpa using different)]
      have apart := List.nodup_middle.mp distinct
      have outside := (List.nodup_cons.mp apart).1
      rw [List.flatMap_append, List.flatMap_cons, elsewhere (by simp_all), elsewhere (by simp_all),
        List.filter_cons_of_pos (by simp), List.cons_append]
      refine List.perm_middle.trans (List.Perm.cons x ?_)
      rwa [List.flatMap_append, List.flatMap_cons] at rest

end Concord
