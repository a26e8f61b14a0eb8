import Concord.Text.Find
import Mathlib.Data.List.Basic
/-!
Joined texts. Where a mark is such that no two places of it overlap, the texts around it can be told
apart again, unless one of them holds the mark itself. Texts of one line each are the lines of the text
that they are joined to.
-/

namespace Concord

/-! ### Texts around a mark -/

/-- The first character of a mark does not come again in it, so that no two places of it overlap. -/
def Crisp : List Char → Prop
  | [] => False
  | c :: cs => c ∉ cs

/-- A mark that begins where another one has begun, or after its end. -/
theorem Crisp.begins {p m r r' : List Char} (crisp : Crisp p) (same : p ++ r = m ++ (p ++ r')) :
    m = [] ∧ r = r' ∨ ∃ m', m = p ++ m' ∧ r = m' ++ (p ++ r') := by
  rcases List.append_eq_append_iff.mp same with ⟨m', longer, rest⟩ | ⟨n, whole, rest⟩
  · exact .inr ⟨m', longer, rest⟩
  · cases m with
    | nil => exact .inl ⟨rfl, by simpa using same⟩
    | cons c m =>
        cases n with
        | nil => exact .inr ⟨[], by simpa using whole.symm, by simpa using rest.symm⟩
        | cons d n =>
            -- The second place would begin inside the first one.
            rw [whole] at crisp rest
            obtain ⟨rfl, -⟩ : c = d ∧ _ := by simpa using rest
            exact absurd (List.mem_append_right m List.mem_cons_self) crisp

/-- Two readings of one text around a mark. -/
theorem Crisp.split {p x x' r r' : List Char} (crisp : Crisp p)
    (same : x ++ (p ++ r) = x' ++ (p ++ r')) :
    x' = x ∧ r = r' ∨ (∃ m, x' = x ++ (p ++ m) ∧ r = m ++ (p ++ r')) ∨
      ∃ m, x = x' ++ (p ++ m) ∧ r' = m ++ (p ++ r) := by
  rcases List.append_eq_append_iff.mp same with ⟨m, rfl, rest⟩ | ⟨m, rfl, rest⟩
  · rcases crisp.begins rest with ⟨rfl, rfl⟩ | ⟨m', rfl, rfl⟩
    · exact .inl ⟨by simp, rfl⟩
    · exact .inr (.inl ⟨m', rfl, rfl⟩)
  · rcases crisp.begins rest with ⟨rfl, rfl⟩ | ⟨m', rfl, rfl⟩
    · exact .inl ⟨by simp, rfl⟩
    · exact .inr (.inr ⟨m', rfl, rfl⟩)

/-- Texts that are free of what joins them can be told from the joined text. -/
theorem Crisp.intercalate_inj {p : List Char} (crisp : Crisp p) {xs ys : List (List Char)}
    (some_xs : xs ≠ []) (some_ys : ys ≠ []) (free : ∀ x ∈ xs, ¬ p <:+: x) (free' : ∀ y ∈ ys, ¬ p <:+: y)
    (same : p.intercalate xs = p.intercalate ys) : xs = ys := by
  have holds (x m : List Char) : p <:+: x ++ (p ++ m) := ⟨x, m, by simp⟩
  induction xs generalizing ys with
  | nil => exact absurd rfl some_xs
  | cons x xs ih =>
      cases ys with
      | nil => exact absurd rfl some_ys
      | cons y ys =>
          have free_x := free x List.mem_cons_self
          have free_y := free' y List.mem_cons_self
          match xs, ys with
          | [], [] => simpa using same
          | [], z :: zs =>
              rw [List.intercalate_singleton, List.intercalate_cons_cons, List.append_assoc] at same
              rw [same] at free_x
              exact absurd (holds _ _) free_x
          | w :: ws, [] =>
              rw [List.intercalate_singleton, List.intercalate_cons_cons, List.append_assoc] at same
              rw [← same] at free_y
              exact absurd (holds _ _) free_y
          | w :: ws, z :: zs =>
              rw [List.intercalate_cons_cons, List.intercalate_cons_cons, List.append_assoc,
                List.append_assoc] at same
              rcases crisp.split same with ⟨rfl, rest⟩ | ⟨m, rfl, -⟩ | ⟨m, rfl, -⟩
              · rw [ih (List.cons_ne_nil w ws) (List.cons_ne_nil z zs)
                  (fun x member => free x (List.mem_cons_of_mem _ member))
                  (fun y member => free' y (List.mem_cons_of_mem _ member)) rest]
              · exact absurd (holds _ _) free_y
              · exact absurd (holds _ _) free_x

/-! ### Single lines -/

/-- Every text is one line. -/
def SingleLined (ds : List String) : Prop := ∀ d ∈ ds, '\n' ∉ d.toList

section SingleLined

variable {d : String} {ds es : List String}

@[simp] theorem singleLined_nil : SingleLined [] := fun _ member => by cases member

@[simp] theorem singleLined_cons :
    SingleLined (d :: ds) ↔ '\n' ∉ d.toList ∧ SingleLined ds := List.forall_mem_cons

@[simp] theorem singleLined_append :
    SingleLined (ds ++ es) ↔ SingleLined ds ∧ SingleLined es := List.forall_mem_append

theorem SingleLined.flatMap_lines (single : SingleLined ds) :
    ds.flatMap Text.lines = ds := by
  induction ds with
  | nil => rfl
  | cons d ds ih =>
      obtain ⟨unbroken, others⟩ := singleLined_cons.mp single
      rw [List.flatMap_cons, ih others, Text.lines_of_unbroken unbroken]
      rfl

end SingleLined

end Concord
