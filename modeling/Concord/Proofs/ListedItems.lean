import Concord.Log.Levels
import Concord.Settings
import Mathlib.Data.List.Basic
/-!
Items of a list option. Commas and blanks separate them, in runs of any length, and may stand before
and after all of them as well. So a text has just one list of items, and the text is any of the ways to
space them out. What the list of resources says follows from this alone.
-/

namespace Concord

namespace Text

/-! ### Items between separators -/

/-- Commas and blanks, or nothing at all. -/
def Separating (gap : List Char) : Prop := ∀ c ∈ gap, isSeparator c = true

/-- Characters that do not separate, at least one of them. -/
structure IsItem (w : List Char) : Prop where
  some_char : w ≠ []
  unbroken : ∀ c ∈ w, isSeparator c = false

/-- Texts, whatever stands in them, joined to one text by separators. Between any two of them there is
at least one. -/
inductive Joined : List (List Char) → List Char → Prop
  | nothing : Joined [] []
  | single (v : List Char) : Joined [v] v
  | more (v : List Char) {gap w t : List Char} {ws : List (List Char)} (some_gap : gap ≠ [])
      (separating : Separating gap) (rest : Joined (w :: ws) t) : Joined (v :: w :: ws) (v ++ gap ++ t)

/-- The texts `ws` are the runs of `s` between its separators, each as long as it can be. -/
structure Runs (s : List Char) (ws : List (List Char)) : Prop where
  items : ∀ w ∈ ws, IsItem w
  spaced : ∃ lead inner trail, Separating lead ∧ Separating trail ∧ Joined ws inner ∧
    s = lead ++ inner ++ trail

section Items

variable {s t gap w : List Char} {c : Char} {vs ws : List (List Char)}

theorem Separating.append (front : Separating gap) (back : Separating t) : Separating (gap ++ t) :=
  List.forall_mem_append.mpr ⟨front, back⟩

@[simp] theorem itemChars_nil : itemChars [] = [] := by simp [itemChars]

/-- A separator cuts the text. All that is said of items follows from this. -/
theorem itemChars_append_cons (s t : List Char) (separates : isSeparator c = true) :
    itemChars (s ++ c :: t) = itemChars s ++ itemChars t := by
  rw [itemChars, List.splitOnP_append_cons s t separates, List.filter_append]
  rfl

theorem itemChars_separating_append (separating : Separating gap) (t : List Char) :
    itemChars (gap ++ t) = itemChars t := by
  induction gap with
  | nil => rfl
  | cons c gap ih =>
      obtain ⟨separates, separating⟩ := List.forall_mem_cons.mp separating
      have cut := itemChars_append_cons [] (gap ++ t) separates
      rw [itemChars_nil, List.nil_append, List.nil_append, ih separating] at cut
      exact cut

theorem itemChars_append_gap (s t : List Char) (some_gap : gap ≠ []) (separating : Separating gap) :
    itemChars (s ++ gap ++ t) = itemChars s ++ itemChars t := by
  cases gap with
  | nil => exact absurd rfl some_gap
  | cons c gap =>
      obtain ⟨separates, separating⟩ := List.forall_mem_cons.mp separating
      rw [List.append_assoc, List.cons_append, itemChars_append_cons s (gap ++ t) separates,
        itemChars_separating_append separating]

theorem itemChars_append_separating (s : List Char) (separating : Separating gap) :
    itemChars (s ++ gap) = itemChars s := by
  by_cases empty : gap = []
  · rw [empty, List.append_nil]
  · have cut := itemChars_append_gap s [] empty separating
    rwa [List.append_nil, itemChars_nil, List.append_nil] at cut

theorem IsItem.itemChars (item : IsItem w) : itemChars w = [w] := by
  rw [Text.itemChars, List.splitOnP_eq_singleton item.unbroken]
  simp [item.some_char]

/-- The items of joined texts are those of each of them in turn. -/
theorem Joined.itemChars (joined : Joined vs t) : itemChars t = vs.flatMap Text.itemChars := by
  induction joined with
  | nothing => rfl
  | single v => simp
  | more v some_gap separating _ ih =>
      rw [itemChars_append_gap v _ some_gap separating, ih, List.flatMap_cons (x := v)]

theorem Runs.itemChars (runs : Runs s ws) : Text.itemChars s = ws := by
  obtain ⟨lead, inner, trail, leading, trailing, joined, rfl⟩ := runs.spaced
  rw [itemChars_append_separating _ trailing, itemChars_separating_append leading, joined.itemChars]
  calc ws.flatMap Text.itemChars
      = ws.flatMap fun w => [w] := List.flatMap_congr fun w among => (runs.items w among).itemChars
    _ = ws := List.flatMap_singleton' ws

theorem Joined.cons_char (joined : Joined (w :: ws) t) (c : Char) :
    Joined ((c :: w) :: ws) (c :: t) := by
  cases joined with
  | single => exact .single (c :: t)
  | more _ some_gap separating rest => exact .more (c :: w) some_gap separating rest

theorem isItem_singleton (joins : isSeparator c = false) : IsItem [c] :=
  ⟨List.cons_ne_nil c [], by simpa using joins⟩

theorem isSeparator_eq_false_iff : isSeparator c = false ↔ c ≠ ',' ∧ isBlank c = false := by
  simp [isSeparator]

theorem IsItem.cons (joins : isSeparator c = false) (item : IsItem w) : IsItem (c :: w) :=
  ⟨List.cons_ne_nil c w, List.forall_mem_cons.mpr ⟨joins, item.unbroken⟩⟩

theorem Runs.cons_separator (runs : Runs s ws) (separates : isSeparator c = true) :
    Runs (c :: s) ws := by
  obtain ⟨lead, inner, trail, leading, trailing, joined, rfl⟩ := runs.spaced
  have leading' : Separating (c :: lead) := List.forall_mem_cons.mpr ⟨separates, leading⟩
  exact ⟨runs.items, c :: lead, inner, trail, leading', trailing, joined, rfl⟩

/-- A further character at the front lengthens the first run, or is one by itself. -/
theorem Runs.cons_char (runs : Runs s ws) (joins : isSeparator c = false) :
    ∃ ws', Runs (c :: s) ws' := by
  obtain ⟨items, lead, inner, trail, leading, trailing, joined, rfl⟩ := runs
  have nothing : Separating [] := List.forall_mem_nil _
  cases ws with
  | nil =>
      cases joined
      have single : ∀ w ∈ [[c]], IsItem w := by simpa using isItem_singleton joins
      refine ⟨[[c]], single, [], [c], lead ++ trail, nothing, leading.append trailing, .single [c], ?_⟩
      simp
  | cons w ws =>
      obtain ⟨first, others⟩ := List.forall_mem_cons.mp items
      cases lead with
      | nil =>
          refine ⟨(c :: w) :: ws, List.forall_mem_cons.mpr ⟨first.cons joins, others⟩, [], c :: inner,
            trail, nothing, trailing, joined.cons_char c, ?_⟩
          simp
      | cons d lead =>
          refine ⟨[c] :: w :: ws, List.forall_mem_cons.mpr ⟨isItem_singleton joins, items⟩, [],
            [c] ++ (d :: lead) ++ inner, trail, nothing, trailing,
            .more [c] (List.cons_ne_nil d lead) leading joined, ?_⟩
          simp

theorem exists_runs (s : List Char) : ∃ ws, Runs s ws := by
  induction s with
  | nil =>
      have nothing : Separating [] := List.forall_mem_nil _
      exact ⟨[], List.forall_mem_nil _, [], [], [], nothing, nothing, .nothing, rfl⟩
  | cons c s ih =>
      obtain ⟨ws, runs⟩ := ih
      cases kind : isSeparator c with
      | true => exact ⟨ws, runs.cons_separator kind⟩
      | false => exact runs.cons_char kind

/-- The items of a text are its runs between separators, and nothing else. -/
theorem itemChars_eq_iff : itemChars s = ws ↔ Runs s ws := by
  refine ⟨fun same => ?_, Runs.itemChars⟩
  -- Some runs there are, and whatever they are, the text is cut into just these.
  obtain ⟨ws', runs⟩ := exists_runs s
  rwa [← same, runs.itemChars]

theorem isItem_of_mem (among : w ∈ itemChars s) : IsItem w :=
  (itemChars_eq_iff.mp rfl).items w among

theorem mem_items {n text : String} : n ∈ items text ↔ n.toList ∈ itemChars text.toList := by
  rw [items, List.mem_map]
  constructor
  · rintro ⟨w, among, rfl⟩
    rwa [String.toList_ofList]
  · intro among
    exact ⟨n.toList, among, String.ofList_toList⟩

end Items

end Text

namespace Settings

/-! ### The list of resources -/

/-- What the list of resources says, whatever else is set. -/
structure ListsResources (vars : Variables) : Prop where
  /-- Names that are spaced out are read back. -/
  spaced : ∀ (names : List String) (text : String),
    Text.Runs text.toList (names.map String.toList) →
      resources (setEntry resourcesVariable text vars) = .ofList names
  /-- No resource is empty, and none has a comma or a blank in it. -/
  proper : ∀ r ∈ resources vars, r ≠ "" ∧ ∀ c ∈ r.toList, c ≠ ',' ∧ Text.isBlank c = false
  /-- Lists may be put together by any separators. -/
  united : ∀ (s gap t : String), gap ≠ "" → Text.Separating gap.toList →
    resources (setEntry resourcesVariable (s ++ gap ++ t) vars) =
      (resources (setEntry resourcesVariable s vars)).union
        (resources (setEntry resourcesVariable t vars))
  /-- The option for levels has the same items if it is given the same text. -/
  agrees : ∀ r, r ∈ resources vars ↔ r.toList ∈ Log.itemsOf [value vars resourcesVariable]

theorem mem_resources {vars : Variables} {r : String} :
    r ∈ resources vars ↔ r.toList ∈ Text.itemChars (value vars resourcesVariable).toList := by
  rw [resources, NameSet.mem_ofList, Text.mem_items]

/-- For every list of names that are free of separators, and every way to space them out, just these
names are the resources. Whatever the text, each of them could stand in such a list. -/
theorem resources_listed (vars : Variables) : ListsResources vars where
  spaced names text runs := by
    ext r
    rw [mem_resources, value_setEntry, runs.itemChars, NameSet.mem_ofList]
    exact List.mem_map_of_injective fun _ _ same => String.toList_injective same
  proper r among := by
    obtain ⟨some_char, unbroken⟩ := Text.isItem_of_mem (mem_resources.mp among)
    refine ⟨?_, fun c inside => Text.isSeparator_eq_false_iff.mp (unbroken c inside)⟩
    rintro rfl
    exact some_char rfl
  united s gap t some_gap separating := by
    ext r
    have some_gap : gap.toList ≠ [] := by simpa using some_gap
    simp only [NameSet.mem_union, mem_resources, value_setEntry, String.toList_append,
      Text.itemChars_append_gap _ _ some_gap separating, List.mem_append]
  agrees r := by
    rw [mem_resources, Log.itemsOf]
    simp

end Settings

end Concord
