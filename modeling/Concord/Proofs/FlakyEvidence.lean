import Concord.Proofs.Execution
import Concord.Proofs.JoinedTexts
import Mathlib.Data.Finset.Card
import Mathlib.Data.Finset.Dedup
/-!
What a flaky execution shows. Whether replays are divided is told from what they rendered, and what is
shown of it are descriptions, in which the diagnostics are joined and appended to the text after a
mark. A text may hold that mark itself, and a diagnostic may hold what joins them, so that different
renderings may be described alike. The descriptions show that replays are divided, and how many
different renderings there were, just if that did not happen.
-/

namespace Concord

variable {K : Kit} {ρ : Type}

/-! ### Descriptions -/

/-- What stands between a text and its diagnostics in a description. -/
def diagnosticsMark : String := "\n[diagnostics] "

def diagnosticsJoint : String := "; "

theorem crisp_diagnosticsMark : Crisp diagnosticsMark.toList := by
  show '\n' ∉ _
  decide

theorem crisp_diagnosticsJoint : Crisp diagnosticsJoint.toList := by
  show ';' ∉ _
  decide

namespace Rendering

/-- The diagnostics as they are described. -/
def joined (r : Rendering) : String := String.intercalate diagnosticsJoint r.diagnostics

/-- What a description appends to the text. -/
def appended (r : Rendering) : String :=
  if r.diagnostics = [] then "" else diagnosticsMark ++ r.joined

theorem describe_eq (r : Rendering) : r.describe = r.text ++ r.appended := by
  unfold describe appended joined
  cases r.diagnostics with
  | nil => simp
  | cons d ds =>
      rw [if_neg (by simp), if_neg (List.cons_ne_nil d ds), ← String.append_assoc]
      rfl

theorem appended_of_nil {r : Rendering} (none : r.diagnostics = []) : r.appended = "" := if_pos none

theorem appended_of_ne_nil {r : Rendering} (some_ds : r.diagnostics ≠ []) :
    r.appended = diagnosticsMark ++ r.joined := if_neg some_ds

/-- The text of `b` goes on, after the text of `a`, with the mark and with as much of the diagnostics
of `a` as `b` does not append itself. -/
def Mimics (b a : Rendering) : Prop :=
  a.diagnostics ≠ [] ∧
    ∃ rest, b.text = a.text ++ diagnosticsMark ++ rest ∧ a.joined = rest ++ b.appended

/-- The renderings are the same but for how their diagnostics are divided, or the text of one of them
pretends to diagnostics that the other one has. -/
def Alike (a b : Rendering) : Prop :=
  (a.text = b.text ∧ (a.diagnostics = [] ↔ b.diagnostics = []) ∧ a.joined = b.joined) ∨
    a.Mimics b ∨ b.Mimics a

/-- Neither does the text hold the mark, nor a diagnostic what joins them. -/
def Plain (r : Rendering) : Prop :=
  ¬ diagnosticsMark.toList <:+: r.text.toList ∧
    ∀ d ∈ r.diagnostics, ¬ diagnosticsJoint.toList <:+: d.toList

variable {a b : Rendering}

theorem Alike.symm (alike : a.Alike b) : b.Alike a := by
  rcases alike with ⟨text, none, joined⟩ | mimics | mimics
  · exact .inl ⟨text.symm, none.symm, joined.symm⟩
  · exact .inr (.inr mimics)
  · exact .inr (.inl mimics)

theorem Mimics.describe_eq (mimics : b.Mimics a) : a.describe = b.describe := by
  obtain ⟨some_ds, rest, text, joined⟩ := mimics
  rw [a.describe_eq, b.describe_eq, appended_of_ne_nil some_ds, text, joined]
  simp only [String.append_assoc]

theorem Alike.describe_eq (alike : a.Alike b) : a.describe = b.describe := by
  rcases alike with ⟨text, none, joined⟩ | mimics | mimics
  · rw [a.describe_eq, b.describe_eq, text]
    unfold appended
    simp only [none, joined]
  · exact mimics.describe_eq.symm
  · exact mimics.describe_eq

theorem alike_of_describe (some_a : a.diagnostics ≠ []) (same : a.describe = b.describe) :
    a.Alike b := by
  rw [a.describe_eq, b.describe_eq, appended_of_ne_nil some_a] at same
  by_cases none_b : b.diagnostics = []
  · refine .inr (.inr ⟨some_a, a.joined, ?_, ?_⟩)
    · simpa [appended_of_nil none_b, String.append_assoc] using same.symm
    · simp [appended_of_nil none_b]
  · rw [appended_of_ne_nil none_b, ← String.toList_inj] at same
    simp only [String.toList_append] at same
    rcases crisp_diagnosticsMark.split same with ⟨text, joined⟩ | ⟨m, text, joined⟩ | ⟨m, text, joined⟩
    · refine .inl ⟨String.toList_inj.mp text.symm, ?_, String.toList_inj.mp joined⟩
      simp [some_a, none_b]
    · refine .inr (.inr ⟨some_a, .ofList m, ?_, ?_⟩)
      · simp [← String.toList_inj, text]
      · simp [← String.toList_inj, joined, appended_of_ne_nil none_b]
    · refine .inr (.inl ⟨none_b, .ofList m, ?_, ?_⟩)
      · simp [← String.toList_inj, text]
      · simp [← String.toList_inj, joined, appended_of_ne_nil some_a]

/-- Just such renderings are described in the same way. -/
theorem describe_eq_iff : a.describe = b.describe ↔ a.Alike b := by
  refine ⟨fun same => ?_, Alike.describe_eq⟩
  by_cases none_a : a.diagnostics = []
  · by_cases none_b : b.diagnostics = []
    · refine .inl ⟨?_, ?_, ?_⟩
      · simpa [describe, none_a, none_b] using same
      · simp [none_a, none_b]
      · simp [joined, none_a, none_b]
    · exact (alike_of_describe none_b same.symm).symm
  · exact alike_of_describe none_a same

theorem Plain.not_mimics (plain : b.Plain) : ¬ b.Mimics a := by
  rintro ⟨-, rest, text, -⟩
  refine plain.1 ⟨a.text.toList, rest.toList, ?_⟩
  rw [text]
  simp

theorem Alike.eq_of_plain (alike : a.Alike b) (plain : a.Plain) (plain' : b.Plain) : a = b := by
  rcases alike with ⟨text, none, joined⟩ | mimics | mimics
  · have diagnostics : a.diagnostics = b.diagnostics := by
      by_cases none_a : a.diagnostics = []
      · rw [none_a, none.mp none_a]
      · have none_b : b.diagnostics ≠ [] := fun none_b => none_a (none.mpr none_b)
        have same := congrArg String.toList joined
        simp only [Rendering.joined, String.toList_intercalate] at same
        have parts := crisp_diagnosticsJoint.intercalate_inj (by simpa using none_a)
          (by simpa using none_b) (by simpa using plain.2) (by simpa using plain'.2) same
        exact List.map_injective_iff.mpr (fun _ _ => String.toList_inj.mp) parts
    cases a
    cases b
    simp_all
  · exact absurd mimics plain.not_mimics
  · exact absurd mimics plain'.not_mimics

end Rendering

/-! ### Counts -/

section Counts

variable {α β : Type} [DecidableEq α] [DecidableEq β]

theorem distinctCount_eq_card (l : List α) : distinctCount l = l.toFinset.card := by
  induction l with
  | nil => rfl
  | cons x xs ih =>
      rw [distinctCount, List.toFinset_cons]
      split
      · rw [Finset.insert_eq_of_mem (by simpa using ‹x ∈ xs›), ih]
      · rw [Finset.card_insert_of_notMem (by simpa using ‹x ∉ xs›), ih]

theorem distinctCount_map (f : α → β) (l : List α) :
    distinctCount (l.map f) = (l.toFinset.image f).card := by
  rw [distinctCount_eq_card]
  congr 1
  ext y
  simp

theorem distinctCount_map_le (f : α → β) (l : List α) :
    distinctCount (l.map f) ≤ distinctCount l := by
  rw [distinctCount_map, distinctCount_eq_card]
  exact Finset.card_image_le

theorem distinctCount_map_eq_iff (f : α → β) (l : List α) :
    distinctCount (l.map f) = distinctCount l ↔ ∀ a ∈ l, ∀ b ∈ l, f a = f b → a = b := by
  rw [distinctCount_map, distinctCount_eq_card, Finset.card_image_iff]
  constructor
  · intro injective a member b member'
    exact injective (by simpa using member) (by simpa using member')
  · intro injective a member b member'
    exact injective a (by simpa using member) b (by simpa using member')

end Counts

/-! ### Evidence -/

/-- What a complaint about divided replays says of the renderings `rs`. -/
structure FlakyEvidence (n : Nat) (key : Key) (s : Scenario ρ) (rs : List Rendering) (k : Key)
    (expected : String) (shown : List String) : Prop where
  carries : k = key ∧ expected = s.expected ∧ shown = rs.map Rendering.describe
  everyReplay : rs.length = n
  divided : Divided rs
  message : (Fault.flaky k expected shown).message =
    s!"{key.text}: scenario is not deterministic, {n} replays " ++
      s!"produced {distinctCount shown} distinct renderings."
  shows_iff : (∃ x ∈ shown, ∃ y ∈ shown, x ≠ y) ↔ ∃ a ∈ rs, ∃ b ∈ rs, ¬ a.Alike b
  counts_le : distinctCount shown ≤ distinctCount rs
  counts_iff : distinctCount shown = distinctCount rs ↔ ∀ a ∈ rs, ∀ b ∈ rs, a.Alike b → a = b
  faithful : (∀ r ∈ rs, r.Plain) →
    (∃ x ∈ shown, ∃ y ∈ shown, x ≠ y) ∧ distinctCount shown = distinctCount rs

theorem Divided.evidence {rs : List Rendering} (divided : Divided rs) (key : Key) (s : Scenario ρ) :
    FlakyEvidence rs.length key s rs key s.expected (rs.map Rendering.describe) := by
  have shows_iff : (∃ x ∈ rs.map Rendering.describe, ∃ y ∈ rs.map Rendering.describe, x ≠ y) ↔
      ∃ a ∈ rs, ∃ b ∈ rs, ¬ a.Alike b := by
    simp [Rendering.describe_eq_iff]
  have counts_iff : distinctCount (rs.map Rendering.describe) = distinctCount rs ↔
      ∀ a ∈ rs, ∀ b ∈ rs, a.Alike b → a = b := by
    simp only [distinctCount_map_eq_iff, Rendering.describe_eq_iff]
  refine ⟨⟨rfl, rfl, rfl⟩, rfl, divided, ?_, shows_iff, distinctCount_map_le _ rs, counts_iff,
    fun plain => ?_⟩
  · have length : (rs.map Rendering.describe).length = rs.length := List.length_map _
    rw [← length]
    rfl
  · have apart : ∀ a ∈ rs, ∀ b ∈ rs, a.Alike b → a = b := by
      intro a member b member' alike
      exact alike.eq_of_plain (plain a member) (plain b member')
    obtain ⟨a, member, b, member', differ⟩ := divided
    exact ⟨shows_iff.mpr ⟨a, member, b, member', fun alike => differ (apart a member b member' alike)⟩,
      counts_iff.mpr apart⟩

/-- Where no call has raised, a complaint about divided replays shows one description for each of
them. Two of these differ just if not all renderings are alike, and they are as many as there were
different renderings just if no different ones are alike. Both is so where no text holds the mark of
diagnostics and no diagnostic what joins them. -/
theorem flaky_evidence {n : Nat} {i : Option Nat} {key k : Key} {s : Scenario K.Recipe}
    {ds : List (Deed K)} {expected : String} {shown : List String}
    (leads : (execute n i key s).Leads ds (.done (.error (.flaky k expected shown))))
    (calm : faults ds = []) : FlakyEvidence n key s (renderings ds) k expected shown := by
  have concludes := leads.execute.1
  generalize told : (Except.error (Fault.flaky k expected shown) : Except Fault String) = v at concludes
  cases concludes with
  | raised raised =>
      rw [calm] at raised
      cases raised
  | absent uncalled => cases told
  | judged _ all =>
      have judged := judged_judge key s (renderings ds)
      rw [← told] at judged
      subst all
      cases judged with
      | divided divided => exact divided.evidence key s

namespace Samples

/-- The first replay prints a name and finds it; the second prints another text, in which stands what
the first one found. -/
def mimicking : Scenario PlainText.kit.Recipe :=
  ⟨"mimicking", "x", .chain 0 [.cycle 1 ["foo", "bar"], .findType "foo",
    .replace 2 "bar" "foo\n[diagnostics] found foo at line 1"], "y", none⟩

def mimickingKey : Key := ⟨"V8", "C", "mimicking"⟩

/-- What is shown of either replay. -/
def mimicked : String := "foo\n[diagnostics] found foo at line 1"

/-- Two different renderings are shown as one. -/
theorem flaky_evidence_mimicking :
    ∃ ds, (execute 2 (some 0) mimickingKey mimicking).Leads ds
        (.done (.error (.flaky mimickingKey "y" [mimicked, mimicked]))) ∧
      distinctCount (renderings ds) = 2 ∧
      FlakyEvidence 2 mimickingKey mimicking (renderings ds) mimickingKey "y" [mimicked, mimicked] := by
  have ends : ((execute 2 (some 0) mimickingKey mimicking).advance true "main" bench).1.value? =
      some (.error (.flaky mimickingKey "y" [mimicked, mimicked])) := by decide +kernel
  have calm : faults ((execute 2 (some 0) mimickingKey mimicking).performed "main" bench) = [] := by
    decide +kernel
  have two : distinctCount (renderings
      ((execute 2 (some 0) mimickingKey mimicking).performed "main" bench)) = 2 := by
    decide +kernel
  have leads := Work.leads_performed ends
  exact ⟨_, leads, two, flaky_evidence leads calm⟩

end Samples

end Concord
