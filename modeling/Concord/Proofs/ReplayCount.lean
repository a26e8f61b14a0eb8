import Concord.Proofs.Execution
import Concord.Proofs.Numeral
import Concord.World
/-!
The number of replays, from the setting or from the caller of a harness. A setting is blank, a numeral
or neither; of the numerals those below one are refused. A caller who asks for a number other than zero
gets just this number of replays, or is refused, and the setting is not looked at. Zero is taken for
not asking at all.
-/

namespace Concord

namespace Settings

/-! ### The setting -/

def noNumber (raw : String) : Fault :=
  .invalidSetting replaysVariable raw "not an integer" (some "ValueError")

def tooFew (raw : String) : Fault := .invalidSetting replaysVariable raw "must be at least 1" none

/-- What a setting comes to, by what is left of it without the blanks around it. -/
inductive ReplaysOf : String → Except Fault Nat → Prop
  | blank : ReplaysOf "" (.ok defaultReplays)
  | count {raw : String} {n : Int} (denotes : Text.Denotes raw.toList n) (positive : 1 ≤ n) :
      ReplaysOf raw (.ok n.toNat)
  | refused {raw : String} {n : Int} (denotes : Text.Denotes raw.toList n) (few : n < 1) :
      ReplaysOf raw (.error (tooFew raw))
  | unread {raw : String} (some_char : raw ≠ "") (senseless : ∀ n, ¬ Text.Denotes raw.toList n) :
      ReplaysOf raw (.error (noNumber raw))

/-- What the setting says of the number of replays, whatever else is set. -/
structure ReadsReplays (vars : Variables) : Prop where
  /-- The decimal form of a number, with blanks around it, is read back. -/
  decimal : ∀ (n : Int) (lead trail : String), Text.Blank lead.toList → Text.Blank trail.toList →
    (Nat.toDigits 10 n.natAbs).length ≤ Text.digitLimit →
      replays (setEntry replaysVariable (lead ++ toString n ++ trail) vars) =
        if 1 ≤ n then .ok n.toNat else .error (tooFew (toString n))
  outcome : ∃ raw : String, Text.Stripped (value vars replaysVariable).toList raw.toList ∧
    ReplaysOf raw (replays vars)
  positive : ∀ n, replays vars = .ok n → 1 ≤ n
  invalid : ∀ f, replays vars = .error f → ∃ raw : String,
    Text.Stripped (value vars replaysVariable).toList raw.toList ∧ (f = noNumber raw ∨ f = tooFew raw)
  default_iff : replays vars = .ok defaultReplays ↔
    Text.Blank (value vars replaysVariable).toList ∨ ∃ raw : String,
      Text.Stripped (value vars replaysVariable).toList raw.toList ∧
        Text.Denotes raw.toList defaultReplays

section Setting

variable {text raw : String} {n : Int} {r : Except Fault Nat} {m : Nat} {f : Fault}

theorem strip_eq_iff : Text.strip text = raw ↔ Text.Stripped text.toList raw.toList := by
  rw [← Text.stripChars_eq_iff, ← String.toList_inj, Text.strip, String.toList_ofList]

theorem readReplays_of_blank (blank : Text.Blank text.toList) : readReplays text = .ok defaultReplays := by
  have nothing : Text.strip text = "" := by rw [Text.strip, Text.stripChars_of_blank blank]
  simp [readReplays, nothing]

theorem ne_empty_of_denotes (denotes : Text.Denotes raw.toList n) : raw ≠ "" := by
  rintro rfl
  cases denotes with
  | plain numeral => cases numeral

theorem readReplays_of_denotes (stripped : Text.Stripped text.toList raw.toList)
    (denotes : Text.Denotes raw.toList n) :
    readReplays text = if 1 ≤ n then .ok n.toNat else .error (tooFew raw) := by
  have core := strip_eq_iff.mpr stripped
  have some_char := ne_empty_of_denotes denotes
  have read := Text.integer?_eq_some_iff.mpr denotes
  by_cases positive : 1 ≤ n
  · simp [readReplays, core, some_char, read, positive, Int.not_lt.mpr positive]
  · simp [readReplays, core, some_char, read, positive, Int.not_le.mp positive, tooFew]

theorem readReplays_of_senseless (stripped : Text.Stripped text.toList raw.toList) (some_char : raw ≠ "")
    (senseless : ∀ n, ¬ Text.Denotes raw.toList n) : readReplays text = .error (noNumber raw) := by
  have core := strip_eq_iff.mpr stripped
  have unread : Text.integer? raw.toList = none :=
    Option.eq_none_iff_forall_ne_some.mpr fun n read => senseless n (Text.integer?_eq_some_iff.mp read)
  simp [readReplays, core, some_char, unread, noNumber]

theorem replaysOf_readReplays (stripped : Text.Stripped text.toList raw.toList) :
    ReplaysOf raw (readReplays text) := by
  by_cases nothing : raw = ""
  · subst nothing
    have blank : Text.Blank text.toList :=
      Text.stripChars_eq_nil_iff.mp (Text.stripChars_eq_iff.mpr stripped)
    rw [readReplays_of_blank blank]
    exact .blank
  by_cases sense : ∃ n, Text.Denotes raw.toList n
  · obtain ⟨n, denotes⟩ := sense
    rw [readReplays_of_denotes stripped denotes]
    split
    · exact .count denotes ‹_›
    · exact .refused denotes (by omega)
  · have senseless := not_exists.mp sense
    rw [readReplays_of_senseless stripped nothing senseless]
    exact .unread nothing senseless

theorem ReplaysOf.of_ok (outcome : ReplaysOf raw r) (done : r = .ok m) :
    m = defaultReplays ∧ raw = "" ∨ 1 ≤ m ∧ Text.Denotes raw.toList m := by
  cases outcome with
  | blank =>
      cases done
      exact .inl ⟨rfl, rfl⟩
  | @count raw n denotes positive =>
      cases done
      refine .inr ⟨by omega, ?_⟩
      rwa [Int.toNat_of_nonneg (by omega)]
  | refused | unread => cases done

theorem ReplaysOf.of_error (outcome : ReplaysOf raw r) (failed : r = .error f) :
    f = noNumber raw ∨ f = tooFew raw := by
  cases outcome <;> cases failed
  · exact .inr rfl
  · exact .inl rfl

end Setting

theorem outcome_replays (vars : Variables) : ∃ raw : String,
    Text.Stripped (value vars replaysVariable).toList raw.toList ∧ ReplaysOf raw (replays vars) := by
  have stripped := strip_eq_iff.mp (rfl : Text.strip (value vars replaysVariable) = _)
  exact ⟨_, stripped, replaysOf_readReplays stripped⟩

theorem positive_of_replays {vars : Variables} {n : Nat} (done : replays vars = .ok n) : 1 ≤ n := by
  obtain ⟨raw, -, outcome⟩ := outcome_replays vars
  rcases outcome.of_ok done with ⟨rfl, -⟩ | ⟨positive, -⟩
  · decide
  · exact positive

theorem invalid_of_replays {vars : Variables} {f : Fault} (failed : replays vars = .error f) :
    ∃ raw : String, Text.Stripped (value vars replaysVariable).toList raw.toList ∧
      (f = noNumber raw ∨ f = tooFew raw) := by
  obtain ⟨raw, stripped, outcome⟩ := outcome_replays vars
  exact ⟨raw, stripped, outcome.of_error failed⟩

theorem replays_eq_default_iff {vars : Variables} :
    replays vars = .ok defaultReplays ↔
      Text.Blank (value vars replaysVariable).toList ∨ ∃ raw : String,
        Text.Stripped (value vars replaysVariable).toList raw.toList ∧
          Text.Denotes raw.toList defaultReplays := by
  constructor
  · intro done
    obtain ⟨raw, stripped, outcome⟩ := outcome_replays vars
    rcases outcome.of_ok done with ⟨-, rfl⟩ | ⟨-, denotes⟩
    · exact .inl (Text.stripChars_eq_nil_iff.mp (Text.stripChars_eq_iff.mpr stripped))
    · exact .inr ⟨raw, stripped, denotes⟩
  · rintro (blank | ⟨raw, stripped, denotes⟩)
    · exact readReplays_of_blank blank
    · exact readReplays_of_denotes stripped denotes

/-- Every setting is blank, a numeral or neither, and comes to the default, to the number that it
stands for or to a fault. -/
theorem replays_read (vars : Variables) : ReadsReplays vars where
  decimal n lead trail leading trailing short := by
    rw [replays, value_setEntry]
    exact readReplays_of_denotes (Text.stripped_toString n leading trailing) (Text.denotes_toString short)
  outcome := outcome_replays vars
  positive n := positive_of_replays
  invalid f := invalid_of_replays
  default_iff := replays_eq_default_iff

/-! ### What is asked for -/

theorem chosenReplays_of_ne_zero {n : Int} (asked : n ≠ 0) (vars : Variables) :
    chosenReplays vars (some n) = checkReplays n := by
  rw [chosenReplays]
  exact asked

-- The number has to be other than zero: zero leaves it to the setting.
example : chosenReplays [(replaysVariable, "4")] (some 0) = .ok 4 := by rfl

theorem checkReplays_of_positive {n : Int} (positive : 1 ≤ n) : checkReplays n = .ok n.toNat := by
  rw [checkReplays, if_neg (by omega)]

theorem positive_of_chosenReplays {vars : Variables} {asked : Option Int} {n : Nat}
    (chosen : chosenReplays vars asked = .ok n) : 1 ≤ n := by
  cases asked with
  | none => exact positive_of_replays chosen
  | some m =>
      by_cases zero : m = 0
      · subst zero
        exact positive_of_replays chosen
      · rw [chosenReplays_of_ne_zero zero, checkReplays] at chosen
        split at chosen
        · cases chosen
        · cases chosen
          omega

end Settings

namespace World

/-! ### Harnesses -/

/-- How many replays a harness in the environment `e` makes, by what its caller asks for. -/
structure HonoursReplays {K : Kit} (w : World K) (e : Environment K.Shared) : Prop where
  asked : ∀ n : Int, 1 ≤ n → ∃ h, w.harness e (some n) = .ok h ∧ (h.replays : Int) = n
  negative : ∀ n : Int, n < 0 →
    w.harness e (some n) = .error (.breakdown .value s!"replays must be at least 1, got {n}")
  /-- Where a number other than zero is asked for, no variable matters. -/
  unconsulted : ∀ n : Int, n ≠ 0 → ∀ vars,
    World.harness { w with vars } e (some n) = w.harness e (some n)
  /-- To ask for zero is not to ask. -/
  zero : w.harness e (some 0) = w.harness e none
  omitted : ∀ n, Settings.replays w.vars = .ok n → ∃ h, w.harness e none = .ok h ∧ h.replays = n
  invalid : ∀ f, Settings.replays w.vars = .error f →
    w.harness e none = .error f ∧ f.label = "InvalidSettingError"
  positive : ∀ asked h, w.harness e asked = .ok h → 1 ≤ h.replays
  /-- The number that was asked for is honoured unless it is zero. -/
  honoured_iff : ∀ (n : Int) h, w.harness e (some n) = .ok h → ((h.replays : Int) = n ↔ n ≠ 0)
  /-- Each execution makes so many rounds of calls, the first call that raises being its last. -/
  executes : ∀ asked h, w.harness e asked = .ok h →
    ∀ (i : Nat) (key : Key) (s : Scenario K.Recipe) (ds : List (Deed K)) (v : Except Fault String),
      (execute h.replays (some i) key s).Leads ds (.done v) → Executes h.replays i key s ds v

section Harness

variable {K : Kit} {w : World K} {e : Environment K.Shared} {asked : Option Int} {h : Harness K}
  {n : Nat} {f : Fault}

theorem harness_of_chosen (chosen : Settings.chosenReplays w.vars asked = .ok n) :
    w.harness e asked = .ok (.start w.shared e n w.runName) := by
  rw [harness, chosen]
  rfl

theorem harness_of_refused (refused : Settings.chosenReplays w.vars asked = .error f) :
    w.harness e asked = .error f := by
  rw [harness, refused]
  rfl

theorem chosen_of_harness (built : w.harness e asked = .ok h) :
    Settings.chosenReplays w.vars asked = .ok h.replays := by
  cases chosen : Settings.chosenReplays w.vars asked with
  | error f => cases built.symm.trans (harness_of_refused chosen)
  | ok n =>
      cases built.symm.trans (harness_of_chosen chosen)
      rfl

theorem harness_of_positive {n : Int} (positive : 1 ≤ n) :
    w.harness e (some n) = .ok (.start w.shared e n.toNat w.runName) := by
  refine harness_of_chosen ?_
  rw [Settings.chosenReplays_of_ne_zero (by omega), Settings.checkReplays_of_positive positive]

theorem harness_of_negative {n : Int} (negative : n < 0) :
    w.harness e (some n) = .error (.breakdown .value s!"replays must be at least 1, got {n}") := by
  refine harness_of_refused ?_
  rw [Settings.chosenReplays_of_ne_zero (by omega), checkReplays, if_pos (by omega)]

end Harness

/-- Whoever asks for a number of replays other than zero gets it or is refused, whatever is set; the
setting decides for those who ask for none, and for zero. -/
theorem harness_replays {K : Kit} (w : World K) (e : Environment K.Shared) : HonoursReplays w e where
  asked n positive := ⟨_, harness_of_positive positive, Int.toNat_of_nonneg (by omega)⟩
  negative n negative := harness_of_negative negative
  unconsulted n other vars := by
    simp only [harness, Settings.chosenReplays_of_ne_zero other]
  zero := rfl
  omitted n set := ⟨_, harness_of_chosen set, rfl⟩
  invalid f refused := by
    refine ⟨harness_of_refused refused, ?_⟩
    obtain ⟨raw, -, rfl | rfl⟩ := Settings.invalid_of_replays refused <;> rfl
  positive asked h built := Settings.positive_of_chosenReplays (chosen_of_harness built)
  honoured_iff n h built := by
    have positive := Settings.positive_of_chosenReplays (chosen_of_harness built)
    constructor
    · rintro same rfl
      omega
    · intro other
      have chosen := chosen_of_harness built
      rw [Settings.chosenReplays_of_ne_zero other, checkReplays] at chosen
      split at chosen
      · cases chosen
      · injection chosen
        omega
  executes asked h built i key s ds v leads :=
    leads.executes (Settings.positive_of_chosenReplays (chosen_of_harness built))

end World

end Concord
