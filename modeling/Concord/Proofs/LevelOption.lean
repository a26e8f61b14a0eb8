import Concord.Proofs.ListedItems
import Mathlib.Data.List.TakeWhile
/-!
The option for least severities, item by item. An item names a source before its first equals sign and
a severity after it. It does not matter how the items come, spaced out in one text or in several. If
one of them is at fault, the first such is reported; otherwise the last item that names a source
decides on it, and what no item names is left as it was.
-/

namespace Concord

/-- The standard names of severities. Two of them have a second one. -/
inductive Severity.Standard : String → Severity → Prop
  | critical : Standard "CRITICAL" critical
  | fatal : Standard "FATAL" critical
  | error : Standard "ERROR" error
  | warning : Standard "WARNING" warning
  | warn : Standard "WARN" warning
  | info : Standard "INFO" info
  | debug : Standard "DEBUG" debug
  | unset : Standard "NOTSET" unset

theorem Severity.named?_eq_some_iff {name : String} {s : Severity} :
    named? name = some s ↔ Standard name s := by
  constructor
  · intro named
    unfold named? at named
    split_ifs at named with critical error warning info debug unset <;> cases named
    · rcases critical with rfl | rfl
      · exact .critical
      · exact .fatal
    · exact error ▸ .error
    · rcases warning with rfl | rfl
      · exact .warning
      · exact .warn
    · exact info ▸ .info
    · exact debug ▸ .debug
    · exact unset ▸ .unset
  · intro standard
    cases standard <;> rfl

namespace Log

/-! ### Single items -/

/-- The item sets the source's level: behind its first equals sign stands, in upper case, a standard
name of the severity. -/
def Sets (item : List Char) (source : String) (s : Severity) : Prop :=
  ∃ level standard, item = source.toList ++ '=' :: level ∧ '=' ∉ source.toList ∧
    level.map upper = String.toList standard ∧ Severity.Standard standard s

/-- What an item that sets nothing is blamed for. -/
inductive Malformed : List Char → LevelFault → Prop
  | noLevel {item : List Char} (unsigned : '=' ∉ item) : Malformed item (.noLevel (String.ofList item))
  | unknownLevel {source level : List Char} (first : '=' ∉ source)
      (unknown : ∀ standard s, Severity.Standard standard s → level.map upper ≠ standard.toList) :
      Malformed (source ++ '=' :: level) (.unknownLevel (String.ofList level))

theorem readLevel_of_unsigned {item : List Char} (unsigned : '=' ∉ item) :
    readLevel item = .error (.noLevel (String.ofList item)) := by
  have whole : item.takeWhile (· != '=') = item := by
    rw [List.takeWhile_eq_self_iff]
    intro c inside
    exact bne_iff_ne.mpr fun same => unsigned (same ▸ inside)
  simp [readLevel, whole]

theorem takeWhile_of_first {source : List Char} (first : '=' ∉ source) (level : List Char) :
    (source ++ '=' :: level).takeWhile (· != '=') = source := by
  rw [List.takeWhile_append_of_pos, List.takeWhile_cons_of_neg, List.append_nil]
  · simp
  · intro c inside
    exact bne_iff_ne.mpr fun same => first (same ▸ inside)

theorem Sets.readLevel {item : List Char} {source : String} {s : Severity} (sets : Sets item source s) :
    readLevel item = .ok (source, s) := by
  obtain ⟨level, standard, rfl, first, upper, listed⟩ := sets
  have named : Severity.named? (String.ofList (level.map Log.upper)) = some s := by
    rw [upper, String.ofList_toList]
    exact Severity.named?_eq_some_iff.mpr listed
  simp [Log.readLevel, takeWhile_of_first first, named]

theorem Malformed.readLevel {item : List Char} {f : LevelFault} (malformed : Malformed item f) :
    readLevel item = .error f := by
  cases malformed with
  | noLevel unsigned => exact readLevel_of_unsigned unsigned
  | @unknownLevel source level first unknown =>
      have unnamed : Severity.named? (String.ofList (level.map upper)) = none := by
        refine Option.eq_none_iff_forall_ne_some.mpr fun s named => ?_
        exact unknown _ s (Severity.named?_eq_some_iff.mp named) String.toList_ofList.symm
      simp [Log.readLevel, takeWhile_of_first first, unnamed]

/-- Every item sets a level or is at fault. -/
theorem sets_or_malformed (item : List Char) : (∃ source s, Sets item source s) ∨ ∃ f, Malformed item f := by
  by_cases signed : '=' ∈ item
  · obtain ⟨source, level, rfl, first⟩ := List.eq_append_cons_of_mem signed
    by_cases known : ∃ standard s, Severity.Standard standard s ∧ level.map upper = standard.toList
    · obtain ⟨standard, s, listed, same⟩ := known
      exact .inl ⟨String.ofList source, s, level, standard, by simp, by simpa using first, same, listed⟩
    · refine .inr ⟨_, .unknownLevel first fun standard s listed same => ?_⟩
      exact known ⟨standard, s, listed, same⟩
  · exact .inr ⟨_, .noLevel signed⟩

/-- An item sets the level of one source to one severity. -/
theorem Sets.iff {item : List Char} {source n : String} {s v : Severity} (sets : Sets item source s) :
    Sets item n v ↔ n = source ∧ v = s := by
  constructor
  · intro other
    have same := other.readLevel.symm.trans sets.readLevel
    cases same
    exact ⟨rfl, rfl⟩
  · rintro ⟨rfl, rfl⟩
    exact sets

/-! ### All items -/

def IsSetting (item : List Char) : Prop := ∃ source s, Sets item source s

def Unnamed (items : List (List Char)) (source : String) : Prop := ∀ item ∈ items, ∀ s, ¬ Sets item source s

/-- The last item that sets the source's level sets it to `s`. -/
def SetsLast (items : List (List Char)) (source : String) (s : Severity) : Prop :=
  ∃ before item after, items = before ++ item :: after ∧ Sets item source s ∧ Unnamed after source

/-- The first item that sets nothing is blamed for `f`. -/
def FirstFault (items : List (List Char)) (f : LevelFault) : Prop :=
  ∃ before item after, items = before ++ item :: after ∧ (∀ i ∈ before, IsSetting i) ∧ Malformed item f

/-- What comes of `levels` when all the items set theirs. -/
structure Follows (levels : Levels) (items : List (List Char)) (out : Levels) : Prop where
  settings : ∀ item ∈ items, IsSetting item
  lookup_iff : ∀ source s, out.lookup source = some s ↔
    SetsLast items source s ∨ Unnamed items source ∧ levels.lookup source = some s
  distinct : (levels.map (·.1)).Nodup → (out.map (·.1)).Nodup

section Items

variable {levels out : Levels} {items : List (List Char)} {item : List Char} {source n : String}
  {s v : Severity} {f : LevelFault}

theorem unnamed_cons : Unnamed (item :: items) n ↔ (∀ s, ¬ Sets item n s) ∧ Unnamed items n :=
  List.forall_mem_cons

theorem setsLast_cons :
    SetsLast (item :: items) n v ↔ SetsLast items n v ∨ Sets item n v ∧ Unnamed items n := by
  constructor
  · rintro ⟨before, i, after, same, sets, unnamed⟩
    cases before with
    | nil =>
        cases same
        exact .inr ⟨sets, unnamed⟩
    | cons b before =>
        cases same
        exact .inl ⟨before, i, after, rfl, sets, unnamed⟩
  · rintro (⟨before, i, after, rfl, sets, unnamed⟩ | ⟨sets, unnamed⟩)
    · exact ⟨item :: before, i, after, rfl, sets, unnamed⟩
    · exact ⟨[], item, items, rfl, sets, unnamed⟩

theorem SetsLast.not_unnamed (last : SetsLast items n v) : ¬ Unnamed items n := by
  obtain ⟨before, i, after, rfl, sets, -⟩ := last
  exact fun unnamed => unnamed i (List.mem_append_right before List.mem_cons_self) v sets

theorem follows_nil (levels : Levels) : Follows levels [] levels where
  settings := List.forall_mem_nil _
  lookup_iff source s := by
    have never : ¬ SetsLast [] source s := fun last => last.not_unnamed (List.forall_mem_nil _)
    have unnamed : Unnamed [] source := List.forall_mem_nil _
    simp only [never, unnamed, false_or, true_and]
  distinct := id

/-- One more item in front: what it sets stays unless a later item names the source again. -/
theorem Follows.cons (sets : Sets item source s) (follows : Follows (setEntry source s levels) items out) :
    Follows levels (item :: items) out where
  settings := List.forall_mem_cons.mpr ⟨⟨source, s, sets⟩, follows.settings⟩
  lookup_iff n v := by
    rw [follows.lookup_iff, setsLast_cons, unnamed_cons, lookup_setEntry]
    by_cases named : n = source
    · subst named
      have names : ¬ ∀ v, ¬ Sets item n v := fun never => never s sets
      rw [if_pos rfl, sets.iff]
      simp only [names, false_and, or_false, true_and, Option.some.injEq, eq_comm (a := s),
        and_comm (a := v = s)]
    · have passes : ∀ v, ¬ Sets item n v := fun v other => named (sets.iff.mp other).1
      simp only [passes, named, if_neg, false_and, or_false, not_false_eq_true, implies_true, true_and]
  distinct distinct := follows.distinct (distinct_setEntry source s distinct)

theorem FirstFault.cons (setting : IsSetting item) (fault : FirstFault items f) :
    FirstFault (item :: items) f := by
  obtain ⟨before, i, after, rfl, settings, malformed⟩ := fault
  exact ⟨item :: before, i, after, rfl, List.forall_mem_cons.mpr ⟨setting, settings⟩, malformed⟩

/-- The items are gone through to the end, or up to the first that is at fault. -/
theorem setLevels_cases (levels : Levels) (items : List (List Char)) :
    (∃ out, setLevels levels items = .ok out ∧ Follows levels items out) ∨
      ∃ f, setLevels levels items = .error f ∧ FirstFault items f := by
  -- What an item sets is in the levels that the next one finds, so these are left general.
  induction items generalizing levels with
  | nil => exact .inl ⟨levels, rfl, follows_nil levels⟩
  | cons item items ih =>
      rcases sets_or_malformed item with ⟨source, s, sets⟩ | ⟨f, malformed⟩
      · have step : setLevels levels (item :: items) = setLevels (setEntry source s levels) items := by
          simp only [setLevels, sets.readLevel]
        rcases ih (setEntry source s levels) with ⟨out, done, follows⟩ | ⟨f, failed, fault⟩
        · exact .inl ⟨out, step.trans done, follows.cons sets⟩
        · exact .inr ⟨f, step.trans failed, fault.cons ⟨source, s, sets⟩⟩
      · refine .inr ⟨f, ?_, [], item, items, rfl, List.forall_mem_nil _, malformed⟩
        simp only [setLevels, malformed.readLevel]

theorem FirstFault.setLevels (fault : FirstFault items f) (levels : Levels) :
    setLevels levels items = .error f := by
  obtain ⟨before, item, after, rfl, settings, malformed⟩ := fault
  induction before generalizing levels with
  | nil => simp only [List.nil_append, Log.setLevels, malformed.readLevel]
  | cons i before ih =>
      obtain ⟨⟨source, s, sets⟩, settings⟩ := List.forall_mem_cons.mp settings
      simp only [List.cons_append, Log.setLevels, sets.readLevel]
      exact ih _ settings

theorem FirstFault.not_settings (fault : FirstFault items f) : ¬ ∀ item ∈ items, IsSetting item := by
  obtain ⟨before, item, after, rfl, -, malformed⟩ := fault
  intro settings
  obtain ⟨source, s, sets⟩ := settings item (List.mem_append_right before List.mem_cons_self)
  cases sets.readLevel.symm.trans malformed.readLevel

theorem follows_of_setLevels (done : setLevels levels items = .ok out) : Follows levels items out := by
  rcases setLevels_cases levels items with ⟨out', done', follows⟩ | ⟨f, failed, -⟩
  · cases done.symm.trans done'
    exact follows
  · cases done.symm.trans failed

theorem setLevels_eq_error_iff : setLevels levels items = .error f ↔ FirstFault items f := by
  refine ⟨fun failed => ?_, fun fault => fault.setLevels levels⟩
  rcases setLevels_cases levels items with ⟨out, done, -⟩ | ⟨f', failed', fault⟩
  · cases failed.symm.trans done
  · cases failed.symm.trans failed'
    exact fault

theorem exists_setLevels_iff :
    (∃ out, setLevels levels items = .ok out) ↔ ∀ item ∈ items, IsSetting item := by
  constructor
  · rintro ⟨out, done⟩
    exact (follows_of_setLevels done).settings
  · intro settings
    rcases setLevels_cases levels items with ⟨out, done, -⟩ | ⟨f, -, fault⟩
    · exact ⟨out, done⟩
    · exact absurd settings fault.not_settings

end Items

/-! ### The option -/

/-- What the values of the option come to. -/
structure ReadsLevels (values : List String) : Prop where
  /-- The items are the runs of each value between its separators. -/
  runs : ∃ runs, List.Forall₂ Text.Runs (values.map String.toList) runs ∧ itemsOf values = runs.flatten
  /-- One text says the same if the values are joined to it by separators. -/
  joined : ∀ text : String, Text.Joined (values.map String.toList) text.toList →
    readLevels [text] = readLevels values
  succeeds_iff : (∃ levels, readLevels values = .ok levels) ↔ ∀ item ∈ itemsOf values, IsSetting item
  lookup_iff : ∀ levels, readLevels values = .ok levels → ∀ source s, levels.lookup source = some s ↔
    SetsLast (itemsOf values) source s ∨
      Unnamed (itemsOf values) source ∧ defaultLevels.lookup source = some s
  distinct : ∀ levels, readLevels values = .ok levels → (levels.map (·.1)).Nodup
  fails_iff : ∀ f, readLevels values = .error f ↔ FirstFault (itemsOf values) f

theorem itemsOf_runs (values : List String) :
    ∃ runs, List.Forall₂ Text.Runs (values.map String.toList) runs ∧ itemsOf values = runs.flatten := by
  induction values with
  | nil => exact ⟨[], .nil, rfl⟩
  | cons v values ih =>
      obtain ⟨runs, each, all⟩ := ih
      refine ⟨Text.itemChars v.toList :: runs, .cons (Text.itemChars_eq_iff.mp rfl) each, ?_⟩
      rw [itemsOf, List.flatMap_cons, List.flatten_cons, ← all, itemsOf]

theorem itemsOf_of_joined {values : List String} {text : String}
    (joined : Text.Joined (values.map String.toList) text.toList) : itemsOf [text] = itemsOf values := by
  calc itemsOf [text]
      = Text.itemChars text.toList := List.append_nil _
    _ = (values.map String.toList).flatMap Text.itemChars := joined.itemChars
    _ = itemsOf values := List.flatMap_map ..

/-- However the option is given, its values set what their items set, the last item that names a
source deciding on it, or are refused for the first item that is at fault. -/
theorem readLevels_reads (values : List String) : ReadsLevels values where
  runs := itemsOf_runs values
  joined text joined := by rw [readLevels, readLevels, itemsOf_of_joined joined]
  succeeds_iff := exists_setLevels_iff
  lookup_iff levels done := (follows_of_setLevels done).lookup_iff
  distinct levels done := (follows_of_setLevels done).distinct (by decide)
  fails_iff f := setLevels_eq_error_iff

example :
    readLevels ["gate=info,  runner=WARNING gate=error"] =
      readLevels ["gate=info", "runner=WARNING", "gate=error"] := by
  decide +kernel

end Log

end Concord
