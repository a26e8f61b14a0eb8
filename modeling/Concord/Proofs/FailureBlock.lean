import Concord.Proofs.JoinedTexts
import Concord.Report
/-!
Blocks of failures. No line that a block is made of is broken, so that the block is cut into its lines
again. Under a heading each line of a text stands behind a margin, and no heading begins with the
margin of the section before it. So a section ends where its text does, whatever stands in that text,
and the block tells all that is in the result.
-/

namespace Concord

/-! ### Sections -/

/-- The first of the lines, if there is one, does not stand behind the margin. -/
def Unmarked (margin : String) (ls : List String) : Prop := ∀ l ∈ ls.head?, ∀ t, l ≠ margin ++ t

/-- Lines behind a margin end where the first line without it stands. -/
theorem marked_append_inj {margin : String} {xs ys rest rest' : List String}
    (ends : Unmarked margin rest) (ends' : Unmarked margin rest')
    (same : xs.map (margin ++ ·) ++ rest = ys.map (margin ++ ·) ++ rest') : xs = ys ∧ rest = rest' := by
  induction xs generalizing ys with
  | nil =>
      cases ys with
      | nil => exact ⟨rfl, same⟩
      | cons y ys =>
          have first : rest.head? = some (margin ++ y) := congrArg List.head? same
          exact absurd rfl (ends _ first y)
  | cons x xs ih =>
      cases ys with
      | nil =>
          have first : rest'.head? = some (margin ++ x) := congrArg List.head? same.symm
          exact absurd rfl (ends' _ first x)
      | cons y ys =>
          obtain ⟨first, others⟩ : margin ++ x = margin ++ y ∧ _ := List.cons.inj same
          obtain ⟨rfl, rfl⟩ := ih others
          exact ⟨by rw [(String.append_right_inj margin).mp first], rfl⟩

/-- A section tells its text and what follows it. -/
theorem headed_append_inj {heading margin s t : String} {rest rest' : List String}
    (ends : Unmarked margin rest) (ends' : Unmarked margin rest')
    (same : Result.headed heading margin s ++ rest = Result.headed heading margin t ++ rest') :
    s = t ∧ rest = rest' := by
  obtain ⟨texts, rest⟩ := marked_append_inj ends ends' (List.cons.inj same).2
  exact ⟨Text.lines_inj.mp texts, rest⟩

namespace Result

def titleLines (o : Outcome) (k : Key) : List String :=
  [o.heading ++ " " ++ k.text, "  backend : " ++ k.backend, "  contract: " ++ k.contract,
    "  scenario: " ++ k.scenario]

def reasonLines : Option Reason → List String
  | some why => ["  reason  : " ++ why.text]
  | none => []

def actualLines : Option String → List String
  | some a => headed "  actual:" "    | " a
  | none => []

def detailLines (d : String) : List String :=
  if d.isEmpty then [] else headed "  detail:" "    " d

theorem blockLines_eq (r : Result) :
    r.blockLines = titleLines r.outcome r.key ++ (reasonLines r.reason ++
      (headed "  expected:" "    | " r.expected ++ (actualLines r.actual ++ detailLines r.detail))) := by
  unfold blockLines titleLines reasonLines actualLines detailLines
  simp only [List.append_assoc]
  rfl

variable {rest rest' : List String}

theorem titleLines_inj {o o' : Outcome} {k k' : Key}
    (same : titleLines o k ++ rest = titleLines o' k' ++ rest') : o = o' ∧ k = k' ∧ rest = rest' := by
  simp only [titleLines, List.cons_append, List.nil_append, List.cons.injEq] at same
  obtain ⟨title, backend, contract, scenario, following⟩ := same
  have keys : k = k' := by
    cases k
    cases k'
    simp_all
  subst keys
  refine ⟨?_, rfl, following⟩
  have headings : o.heading = o'.heading := by simpa using title
  revert headings
  cases o <;> cases o' <;> decide

theorem reasonLines_inj {w w' : Option Reason} {heading : String}
    (apart : ∀ t, heading ≠ "  reason  : " ++ t)
    (same : reasonLines w ++ heading :: rest = reasonLines w' ++ heading :: rest') :
    w = w' ∧ rest = rest' := by
  cases w with
  | none =>
      cases w' with
      | none => exact ⟨rfl, (List.cons.inj same).2⟩
      | some why => exact absurd (List.cons.inj same).1 (apart _)
  | some why =>
      cases w' with
      | none => exact absurd (List.cons.inj same).1.symm (apart _)
      | some why' =>
          obtain ⟨named, following⟩ := List.cons.inj same
          refine ⟨?_, (List.cons.inj following).2⟩
          revert named
          cases why <;> cases why' <;> decide

theorem detailLines_ends (d : String) : Unmarked "    | " (detailLines d) := by
  intro l first t
  unfold detailLines at first
  split at first
  · cases first
  · obtain rfl : "  detail:" = l := by simpa [headed] using first
    simp [← String.toList_inj]

theorem detailLines_inj {d d' : String} (same : detailLines d = detailLines d') : d = d' := by
  unfold detailLines at same
  split at same <;> split at same
  · rename_i empty empty'
    rw [String.isEmpty_iff.mp empty, String.isEmpty_iff.mp empty']
  · cases same
  · cases same
  · have nothing : Unmarked "    " [] := fun l first => by cases first
    exact (headed_append_inj nothing nothing (by simpa using same)).1

theorem actualLines_ends (a : Option String) (d : String) :
    Unmarked "    | " (actualLines a ++ detailLines d) := by
  cases a with
  | none => exact detailLines_ends d
  | some a =>
      intro l first t
      obtain rfl : "  actual:" = l := by simpa [actualLines, headed] using first
      simp [← String.toList_inj]

theorem actualLines_inj {a a' : Option String} {d d' : String}
    (same : actualLines a ++ detailLines d = actualLines a' ++ detailLines d') : a = a' ∧ d = d' := by
  have apart (a d d' : String) : actualLines (some a) ++ detailLines d ≠ detailLines d' := by
    intro same
    have first := congrArg List.head? same
    unfold detailLines at first
    split at first <;> split at first <;> simp [actualLines, headed] at first
  cases a with
  | none =>
      cases a' with
      | none => exact ⟨rfl, detailLines_inj same⟩
      | some a' => exact absurd same.symm (apart a' d' d)
  | some a =>
      cases a' with
      | none => exact absurd same (apart a d d')
      | some a' =>
          obtain ⟨rfl, details⟩ := headed_append_inj (detailLines_ends d) (detailLines_ends d') same
          exact ⟨rfl, detailLines_inj details⟩

/-- The lines of a block tell all that is in the result. -/
theorem blockLines_inj {r r' : Result} (same : r.blockLines = r'.blockLines) : r = r' := by
  rw [blockLines_eq, blockLines_eq] at same
  obtain ⟨outcome, key, same⟩ := titleLines_inj same
  have apart : ∀ t, ("  expected:" : String) ≠ "  reason  : " ++ t := by
    intro t
    simp [← String.toList_inj]
  obtain ⟨reason, same⟩ := reasonLines_inj apart same
  obtain ⟨texts, same⟩ := marked_append_inj (actualLines_ends r.actual r.detail)
    (actualLines_ends r'.actual r'.detail) same
  have expected := Text.lines_inj.mp texts
  obtain ⟨actual, detail⟩ := actualLines_inj same
  cases r
  cases r'
  simp_all

/-! ### Blocks -/

theorem singleLined_headed {heading margin : String} (head : '\n' ∉ heading.toList)
    (side : '\n' ∉ margin.toList) (t : String) : SingleLined (headed heading margin t) := by
  refine singleLined_cons.mpr ⟨head, fun l marked => ?_⟩
  obtain ⟨line, among, rfl⟩ := List.mem_map.mp marked
  rw [String.toList_append, List.mem_append]
  exact not_or.mpr ⟨side, Text.unbroken_of_mem_lines among⟩

theorem singleLined_titleLines (o : Outcome) {k : Key}
    (unbroken : SingleLined [k.backend, k.contract, k.scenario]) : SingleLined (titleLines o k) := by
  simp only [singleLined_cons, singleLined_nil, and_true] at unbroken
  obtain ⟨backend, contract, scenario⟩ := unbroken
  have heading : '\n' ∉ o.heading.toList := by cases o <;> decide
  simp [titleLines, Key.text, keySeparator, heading, backend, contract, scenario]

theorem singleLined_reasonLines (w : Option Reason) : SingleLined (reasonLines w) := by
  cases w with
  | none => exact singleLined_nil
  | some why =>
      have named : '\n' ∉ why.text.toList := by cases why <;> decide
      simpa [reasonLines] using named

theorem singleLined_actualLines (a : Option String) : SingleLined (actualLines a) := by
  cases a with
  | none => exact singleLined_nil
  | some a => exact singleLined_headed (by decide) (by decide) a

theorem singleLined_detailLines (d : String) : SingleLined (detailLines d) := by
  unfold detailLines
  split
  · exact singleLined_nil
  · exact singleLined_headed (by decide) (by decide) d

/-- The texts of a result may be broken into lines; the names in its key may not. -/
theorem singleLined_blockLines {r : Result}
    (unbroken : SingleLined [r.key.backend, r.key.contract, r.key.scenario]) :
    SingleLined r.blockLines := by
  have expected : SingleLined (headed "  expected:" "    | " r.expected) :=
    singleLined_headed (by decide) (by decide) r.expected
  rw [blockLines_eq]
  simp only [singleLined_append]
  exact ⟨singleLined_titleLines r.outcome unbroken, singleLined_reasonLines r.reason, expected,
    singleLined_actualLines r.actual, singleLined_detailLines r.detail⟩

theorem lines_block {r : Result}
    (unbroken : SingleLined [r.key.backend, r.key.contract, r.key.scenario]) :
    Text.lines r.block = r.blockLines := by
  have some_lines : r.blockLines ≠ [] := by
    rw [blockLines_eq]
    exact List.cons_ne_nil _ _
  rw [block, Text.lines_intercalate some_lines, (singleLined_blockLines unbroken).flatMap_lines]

/-- Two results are shown as the same block only if they are the same, in their key, outcome, reason,
expected and actual text and detail. Only the names in their keys have to be of one line; what looks
like a heading in one of their texts deceives nobody. -/
theorem block_eq_iff {r r' : Result}
    (unbroken : SingleLined [r.key.backend, r.key.contract, r.key.scenario])
    (unbroken' : SingleLined [r'.key.backend, r'.key.contract, r'.key.scenario]) :
    r.block = r'.block ↔ r = r' := by
  refine ⟨fun same => blockLines_inj ?_, congrArg block⟩
  rw [← lines_block unbroken, ← lines_block unbroken', same]

end Result

namespace Samples

/-- Nothing was rendered, but what was expected looks like a block itself. -/
def disguised : Result :=
  { key := ⟨"V8", "C", "a"⟩, outcome := .failed, reason := some .mismatch
    expected := "x\n  actual:\n    | y", actual := none, detail := "d" }

/-- What the first one would be taken for if its text stood there without a margin. -/
def undisguised : Result :=
  { key := ⟨"V8", "C", "a"⟩, outcome := .failed, reason := some .mismatch
    expected := "x", actual := some "y", detail := "d" }

theorem block_eq_iff_disguised :
    SingleLined [disguised.key.backend, disguised.key.contract, disguised.key.scenario] ∧
      SingleLined [undisguised.key.backend, undisguised.key.contract, undisguised.key.scenario] ∧
      disguised.block ≠ undisguised.block := by
  have unbroken : SingleLined ["V8", "C", "a"] := by simp [SingleLined]
  refine ⟨unbroken, unbroken, fun same => ?_⟩
  have equal : disguised = undisguised := (Result.block_eq_iff unbroken unbroken).mp same
  exact absurd equal (by decide)

end Samples

end Concord
