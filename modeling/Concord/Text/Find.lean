/-!
Lines of a text, and the search for and replacement of one text inside another.
-/

namespace Concord.Text

/-- The lines of a text. Only the line feed ends a line, and it belongs to no line. -/
def lines (s : String) : List String := (s.toList.splitOn '\n').map String.ofList

/-- Joined again, the lines of a text are the text. -/
theorem intercalate_lines (s : String) : String.intercalate "\n" (lines s) = s := by
  rw [← String.toList_inj, String.toList_intercalate, lines, List.map_map]
  have same : String.toList ∘ String.ofList = id := funext fun _ => String.toList_ofList
  rw [same, List.map_id]
  exact List.intercalate_splitOn '\n'

theorem lines_inj {s t : String} : lines s = lines t ↔ s = t := by
  refine ⟨fun same => ?_, congrArg lines⟩
  rw [← intercalate_lines s, same, intercalate_lines]

theorem lines_append (s t : String) : lines (s ++ "\n" ++ t) = lines s ++ lines t := by
  have spread : (s ++ "\n" ++ t).toList = s.toList ++ '\n' :: t.toList := by simp
  rw [lines, spread, List.splitOn_append_cons_self, List.map_append]
  rfl

/-- The lines of joined texts are those of each of them in turn. -/
theorem lines_intercalate {texts : List String} (some_texts : texts ≠ []) :
    lines (String.intercalate "\n" texts) = texts.flatMap lines := by
  induction texts with
  | nil => exact absurd rfl some_texts
  | cons t texts ih =>
      cases texts with
      | nil => simp
      | cons u texts =>
          rw [String.intercalate_cons_cons, lines_append, ih (List.cons_ne_nil u texts),
            List.flatMap_cons (x := t)]

/-- A text without a line feed is one line. -/
theorem lines_of_unbroken {s : String} (unbroken : '\n' ∉ s.toList) : lines s = [s] := by
  rw [lines, List.splitOn_eq_singleton unbroken]
  simp

theorem not_mem_of_mem_splitOn {c : Char} {cs piece : List Char} (among : piece ∈ cs.splitOn c) :
    c ∉ piece := by
  induction cs generalizing piece with
  | nil =>
      obtain rfl : piece = [] := by simpa using among
      exact List.not_mem_nil
  | cons d ds ih =>
      rw [List.splitOn_cons_eq_if_modifyHead] at among
      by_cases split_here : (d == c) = true
      · rw [if_pos split_here] at among
        rcases List.mem_cons.mp among with rfl | later
        · exact List.not_mem_nil
        · exact ih later
      · rw [if_neg split_here] at among
        cases pieces : ds.splitOn c with
        | nil => simp [pieces] at among
        | cons first others =>
            rw [pieces] at among ih
            rcases List.mem_cons.mp among with rfl | later
            · have free := ih List.mem_cons_self
              rintro (_ | ⟨_, inside⟩)
              · exact split_here (beq_self_eq_true c)
              · exact free inside
            · exact ih (List.mem_cons_of_mem first later)

/-- No line has a line feed. -/
theorem unbroken_of_mem_lines {s l : String} (member : l ∈ lines s) : '\n' ∉ l.toList := by
  obtain ⟨piece, among, rfl⟩ := List.mem_map.mp member
  rw [String.toList_ofList]
  exact not_mem_of_mem_splitOn among

def occursIn (p : List Char) : List Char → Bool
  | [] => p.isEmpty
  | c :: cs => p.isPrefixOf (c :: cs) || occursIn p cs

def contains (s p : String) : Bool := occursIn p.toList s.toList

/-- Replaces from left to right, without overlaps; `skip` characters belong to the last match. -/
def replaceFrom (old new : List Char) : Nat → List Char → List Char
  | _, [] => []
  | skip + 1, _ :: cs => replaceFrom old new skip cs
  | 0, c :: cs =>
      if old.isPrefixOf (c :: cs) then new ++ replaceFrom old new (old.length - 1) cs
      else c :: replaceFrom old new 0 cs

/-- Replaces every occurrence of `old`. The empty text occurs before each character and at the end. -/
def replaceAll (s old new : String) : String :=
  if old.isEmpty then
    String.ofList (s.toList.flatMap (fun c => new.toList ++ [c]) ++ new.toList)
  else
    String.ofList (replaceFrom old.toList new.toList 0 s.toList)

end Concord.Text
