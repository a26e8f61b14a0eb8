/-!
Entries by name, in the order in which their names first came up.
-/

namespace Concord

/-- Sets a name's entry, in its old place or at the end. -/
def setEntry {α : Type} (name : String) (value : α) : List (String × α) → List (String × α)
  | [] => [(name, value)]
  | (n, v) :: rest =>
      if n = name then (name, value) :: rest else (n, v) :: setEntry name value rest

@[simp] theorem lookup_setEntry {α : Type} (name n : String) (value : α)
    (entries : List (String × α)) :
    (setEntry name value entries).lookup n = if n = name then some value else entries.lookup n := by
  induction entries with
  | nil =>
      by_cases h : n = name
      · simp [setEntry, h]
      · simp [setEntry, List.lookup_cons, beq_false_of_ne h, h]
  | cons e rest ih =>
      obtain ⟨m, v⟩ := e
      by_cases h : n = m
      · subst h
        by_cases hm : n = name <;> simp [setEntry, hm]
      · by_cases hm : m = name
        · subst hm
          simp [setEntry, List.lookup_cons, beq_false_of_ne h, h]
        · simp [setEntry, List.lookup_cons, beq_false_of_ne h, hm, ih]

/-- The entries of `new` laid over those of `old`, one after the other. -/
def overlay {α : Type} (old new : List (String × α)) : List (String × α) :=
  new.foldl (fun acc e => setEntry e.1 e.2 acc) old

/-- The entry that was laid down last counts. -/
theorem lookup_overlay {α : Type} (old new : List (String × α)) (n : String) :
    (overlay old new).lookup n = (new.reverse.lookup n).or (old.lookup n) := by
  induction new generalizing old with
  | nil => simp [overlay]
  | cons e new ih =>
      obtain ⟨m, v⟩ := e
      have rest := ih (setEntry m v old)
      simp only [overlay, List.foldl_cons] at rest ⊢
      rw [rest, lookup_setEntry, List.reverse_cons, List.lookup_append]
      cases new.reverse.lookup n with
      | some w => rfl
      | none =>
          by_cases h : n = m
          · simp [h]
          · simp [List.lookup_cons, beq_false_of_ne h, h]

theorem lookup_overlay_of_none {α : Type} {old new : List (String × α)} {n : String}
    (untouched : new.lookup n = none) : (overlay old new).lookup n = old.lookup n := by
  have reversed : new.reverse.lookup n = none := by
    simpa [List.lookup_eq_none_iff] using untouched
  rw [lookup_overlay, reversed, Option.none_or]

theorem mem_setEntry {α : Type} {name : String} {value : α} {entries : List (String × α)}
    {e : String × α} (member : e ∈ setEntry name value entries) : e = (name, value) ∨ e ∈ entries := by
  induction entries with
  | nil => exact .inl (by simpa [setEntry] using member)
  | cons d rest ih =>
      obtain ⟨n, v⟩ := d
      unfold setEntry at member
      split at member
      · rcases List.mem_cons.mp member with same | later
        · exact .inl same
        · exact .inr (List.mem_cons_of_mem _ later)
      · rcases List.mem_cons.mp member with same | later
        · exact .inr (same ▸ List.mem_cons_self)
        · exact (ih later).imp_right (List.mem_cons_of_mem _)

theorem mem_overlay {α : Type} {old new : List (String × α)} {e : String × α}
    (member : e ∈ overlay old new) : e ∈ old ∨ e ∈ new := by
  induction new generalizing old with
  | nil => exact .inl member
  | cons d new ih =>
      have member' : e ∈ overlay (setEntry d.1 d.2 old) new := member
      rcases ih member' with laid | later
      · rcases mem_setEntry laid with rfl | earlier
        · exact .inr List.mem_cons_self
        · exact .inl earlier
      · exact .inr (List.mem_cons_of_mem d later)

theorem mem_names_setEntry {α : Type} {name n : String} {value : α} {entries : List (String × α)} :
    n ∈ (setEntry name value entries).map (·.1) ↔ n = name ∨ n ∈ entries.map (·.1) := by
  induction entries with
  | nil => simp [setEntry]
  | cons e rest ih =>
      obtain ⟨m, v⟩ := e
      unfold setEntry
      split
      · rename_i same
        subst same
        simp
      · simp only [List.map_cons, List.mem_cons, ih]
        exact or_left_comm

theorem distinct_nil {α : Type} : (([] : List (String × α)).map (·.1)).Nodup := List.nodup_nil

theorem distinct_setEntry {α : Type} (name : String) (value : α) {entries : List (String × α)}
    (distinct : (entries.map (·.1)).Nodup) : ((setEntry name value entries).map (·.1)).Nodup := by
  induction entries with
  | nil => simp [setEntry]
  | cons e rest ih =>
      obtain ⟨m, v⟩ := e
      obtain ⟨new, distinct⟩ := List.nodup_cons.mp distinct
      unfold setEntry
      split
      · rename_i same
        subst same
        exact List.nodup_cons.mpr ⟨new, distinct⟩
      · rename_i other
        refine List.nodup_cons.mpr ⟨fun listed => ?_, ih distinct⟩
        exact (mem_names_setEntry.mp listed).elim other new

theorem distinct_overlay {α : Type} {old : List (String × α)} (distinct : (old.map (·.1)).Nodup)
    (new : List (String × α)) : ((overlay old new).map (·.1)).Nodup := by
  induction new generalizing old with
  | nil => exact distinct
  | cons e new ih => exact ih (distinct_setEntry e.1 e.2 distinct)

theorem setEntry_setEntry {α : Type} (name : String) (value value' : α)
    (entries : List (String × α)) :
    setEntry name value (setEntry name value' entries) = setEntry name value entries := by
  induction entries with
  | nil => simp [setEntry]
  | cons e rest ih =>
      obtain ⟨m, v⟩ := e
      by_cases same : m = name
      · simp [setEntry, same]
      · simp [setEntry, same, ih]

/-- Two entries may be set in either order if one of them has its place already. -/
theorem setEntry_comm {α : Type} {name other : String} (value value' : α)
    {entries : List (String × α)} (listed : name ∈ entries.map (·.1)) (differ : name ≠ other) :
    setEntry name value (setEntry other value' entries) =
      setEntry other value' (setEntry name value entries) := by
  induction entries with
  | nil => cases listed
  | cons e rest ih =>
      obtain ⟨m, v⟩ := e
      by_cases here : m = name
      · subst here
        simp [setEntry, differ]
      · have later : name ∈ rest.map (·.1) :=
          (List.mem_cons.mp listed).resolve_left fun same => here same.symm
        by_cases there : m = other
        · subst there
          simp [setEntry, here]
        · simp [setEntry, here, there, ih later]

/-- What has its place may be set before or after others are laid down. -/
theorem setEntry_overlay {α : Type} {name : String} (value : α) {old new : List (String × α)}
    (listed : name ∈ old.map (·.1)) (untouched : name ∉ new.map (·.1)) :
    setEntry name value (overlay old new) = overlay (setEntry name value old) new := by
  induction new generalizing old with
  | nil => rfl
  | cons e new ih =>
      simp only [List.map_cons, List.mem_cons, not_or] at untouched
      obtain ⟨differ, untouched⟩ := untouched
      have placed : name ∈ (setEntry e.1 e.2 old).map (·.1) := mem_names_setEntry.mpr (.inr listed)
      calc setEntry name value (overlay (setEntry e.1 e.2 old) new)
          = overlay (setEntry name value (setEntry e.1 e.2 old)) new := ih placed untouched
        _ = overlay (setEntry e.1 e.2 (setEntry name value old)) new := by
            rw [setEntry_comm value e.2 listed differ]

theorem overlay_setEntry {α : Type} (old : List (String × α)) {new : List (String × α)}
    (distinct : (new.map (·.1)).Nodup) (name : String) (value : α) :
    overlay old (setEntry name value new) = setEntry name value (overlay old new) := by
  induction new generalizing old with
  | nil => rfl
  | cons e new ih =>
      obtain ⟨m, v⟩ := e
      obtain ⟨absent, distinct⟩ := List.nodup_cons.mp distinct
      by_cases same : m = name
      · -- The entry that is replaced keeps its place, and no later one has its name.
        subst same
        have placed : m ∈ (setEntry m v old).map (·.1) := mem_names_setEntry.mpr (.inl rfl)
        calc overlay old (setEntry m value ((m, v) :: new))
            = overlay (setEntry m value old) new := by simp [setEntry, overlay]
          _ = overlay (setEntry m value (setEntry m v old)) new := by rw [setEntry_setEntry]
          _ = setEntry m value (overlay (setEntry m v old) new) :=
              (setEntry_overlay value placed absent).symm
      · simpa [setEntry, same, overlay] using ih (setEntry m v old) distinct

/-- Laying entries over others, and these over what is there, may be grouped either way. -/
theorem overlay_assoc {α : Type} (old : List (String × α)) {mid : List (String × α)}
    (distinct : (mid.map (·.1)).Nodup) (new : List (String × α)) :
    overlay old (overlay mid new) = overlay (overlay old mid) new := by
  induction new generalizing mid with
  | nil => rfl
  | cons e new ih =>
      calc overlay old (overlay (setEntry e.1 e.2 mid) new)
          = overlay (overlay old (setEntry e.1 e.2 mid)) new :=
            ih (distinct_setEntry e.1 e.2 distinct)
        _ = overlay (setEntry e.1 e.2 (overlay old mid)) new := by
            rw [overlay_setEntry old distinct]

/-- Entries may be brought to distinct names before they are laid over others. -/
theorem overlay_overlay_nil {α : Type} (old new : List (String × α)) :
    overlay old (overlay [] new) = overlay old new := overlay_assoc old distinct_nil new

theorem isNone_lookup_overlay {α : Type} (old new : List (String × α)) (n : String) :
    ((overlay old new).lookup n).isNone = ((new.lookup n).isNone && (old.lookup n).isNone) := by
  have reversed : (new.reverse.lookup n).isNone = (new.lookup n).isNone := by
    rw [Bool.eq_iff_iff, Option.isNone_iff_eq_none, Option.isNone_iff_eq_none]
    simp [List.lookup_eq_none_iff]
  rw [lookup_overlay, Option.isNone_or, reversed]

def entryNames {α : Type} (entries : List (String × α)) : List String :=
  (entries.map (·.1)).mergeSort

def sortedEntries {α : Type} (entries : List (String × α)) : List (String × α) :=
  entries.mergeSort fun a b => a.1 ≤ b.1

end Concord
