import Concord.Proofs.Consumers
/-!
Marked tests. A test that is marked debug-only is skipped if the gate's policy does not admit the
resource of its mark, and this is what the gate says of a debug-only binding of its backend with the
same resource, as long as the resource is named, or none is given, or an empty one by keyword. An empty
resource that is given by position is not replaced by the backend. The session asks for the resource
without a name then, so that the test may be skipped though the gate would let the binding run, and
the other way round.
-/

namespace Concord

variable {K : Kit}

namespace TestSession

/-! ### Marks -/

/-- A resource as it is written in a mark. -/
def resourceDatum : Option String → Datum
  | some r => .text r
  | none => .null

/-- How a resource, or none, is given by a mark. -/
inductive DebugMark.Gives : DebugMark → Option String → Prop
  | omitted : Gives {} none
  | keyword (r : Option String) : Gives { keyword := some (resourceDatum r) } r
  | positional (r : Option String) (more : List Datum) :
      Gives { positional := resourceDatum r :: more } r

/-- Something empty is given by position, and nothing by keyword. -/
def DebugMark.hollow (m : DebugMark) : Bool := m.keyword.isNone && m.positional.head?.any (!·.isTrue)

/-- The resource that is asked for. A hollow mark asks for the one without a name. -/
def DebugMark.asked (m : DebugMark) (b : Binding) : String := if m.hollow then "" else b.resourceName

/-- What the gate's policy says of a resource that debug-only work needs. -/
def verdict (h : Harness K) (resource : String) : Except Fault Bool :=
  (h.environment.admits true resource h.session.shared).answer

theorem verdict_eq (h : Harness K) (resource : String) :
    verdict h resource = if h.environment.includeDebugOnly then .ok true
      else (h.environment.available resource h.session.shared).answer := by
  unfold verdict Environment.admits
  cases h.environment.includeDebugOnly <;> rfl

/-- The gate's own decision on a debug-only binding is that of its policy. -/
theorem admits_of_debugOnly (h : Harness K) {b : Binding} (debugOnly : b.debugOnly = true) :
    (h.admits b).1 = verdict h b.resourceName := by
  have decided := (h.environment.admitsBinding_eq b h.session.shared).1
  rw [debugOnly] at decided
  exact decided

section Gives

variable {item : Item K} {m : DebugMark} {b : String} {more : List Datum} {r : Option String}

/-- Where a mark gives nothing, or nothing but an empty keyword, the backend is the resource. -/
theorem markedResource_of_backend (backend : item.function.backend = some (.text b :: more))
    (unnamed : m.keyword.filter (·.isTrue) = none) (nowhere : m.positional = []) :
    markedResource item m = .ok (.text b) := by
  have named : markedBackend item = .ok (some b) := by
    unfold markedBackend
    rw [backend]
    rfl
  unfold markedResource
  rw [unnamed, nowhere, named]
  rfl

/-- A mark of a test on a backend asks for the resource of the binding, unless it is hollow. -/
theorem admitsMark_of_gives (h : Harness K) (backend : item.function.backend = some (.text b :: more))
    (gives : m.Gives r) (contracts : List String) :
    ∃ d, markedResource item m = .ok d ∧
      (admitsMark h d).1 = verdict h (m.asked ⟨b, contracts, true, r⟩) := by
  cases gives with
  | omitted => exact ⟨.text b, markedResource_of_backend backend rfl rfl, rfl⟩
  | keyword =>
      cases r with
      | none => exact ⟨.text b, markedResource_of_backend backend rfl rfl, rfl⟩
      | some t =>
          have asked : ({ keyword := some (resourceDatum (some t)) } : DebugMark).asked
              ⟨b, contracts, true, some t⟩ = if t.isEmpty then b else t := rfl
          rw [asked]
          by_cases empty : t.isEmpty = true
          · refine ⟨.text b, markedResource_of_backend backend ?_ rfl, ?_⟩
            · simp [resourceDatum, Datum.isTrue, empty]
            · rw [if_pos empty]
              rfl
          · have named : Option.filter (·.isTrue) (some (Datum.text t)) = some (.text t) := by
              simp [Datum.isTrue, empty]
            refine ⟨.text t, ?_, ?_⟩
            · unfold markedResource
              rw [resourceDatum, named]
            · rw [if_neg empty]
              rfl
  | positional _ others =>
      refine ⟨resourceDatum r, rfl, ?_⟩
      cases r with
      | none => rfl
      | some t =>
          by_cases empty : t.isEmpty = true
          · obtain rfl : t = "" := by simpa using empty
            rfl
          · have asked : ({ positional := resourceDatum (some t) :: others } : DebugMark).asked
                ⟨b, contracts, true, some t⟩ = t := by
              simp [DebugMark.asked, DebugMark.hollow, resourceDatum, Datum.isTrue, empty,
                Binding.resourceName]
            rw [asked]
            rfl

end Gives

/-! ### Sweeping -/

/-- What becomes of one test when the marks are gone through. -/
def sweep (s : State K) (item : Item K) : Except Ending (Item K) × State K :=
  match item.function.debugOnly with
  | none => (.ok item, s)
  | some m =>
      match markedResource item m, s.harness with
      | .error t, _ => (.error (stop t), s)
      | .ok _, .error f => (.error (stop (.fault f)), s)
      | .ok d, .ok h =>
          match admitsMark h d with
          | (.error f, h) => (.error (stop (.fault f)), s.keep h)
          | (.ok runs, h) => (.ok (if runs then item else item.rejected), s.keep h)

theorem applyMarks_cons (s : State K) (item : Item K) (rest : List (Item K)) :
    applyMarks s (item :: rest) =
      match sweep s item with
      | (.error e, s') => (.error e, s')
      | (.ok kept, s') => ((applyMarks s' rest).1.map (kept :: ·), (applyMarks s' rest).2) := by
  rw [applyMarks]
  unfold sweep
  cases item.function.debugOnly with
  | none => rfl
  | some m =>
      dsimp only
      cases markedResource item m with
      | error t => rfl
      | ok d =>
          cases s.harness with
          | error f => rfl
          | ok h =>
              dsimp only
              rcases admitsMark h d with ⟨f | runs, h'⟩ <;> rfl

/-- Marks are gone through from the first test to the last, and what one of them has asked the next
ones know. -/
theorem applyMarks_append (s : State K) (xs ys : List (Item K)) :
    applyMarks s (xs ++ ys) =
      match applyMarks s xs with
      | (.error e, s') => (.error e, s')
      | (.ok kept, s') => ((applyMarks s' ys).1.map (kept ++ ·), (applyMarks s' ys).2) := by
  induction xs generalizing s with
  | nil =>
      show applyMarks s ys = ((applyMarks s ys).1.map ([] ++ ·), (applyMarks s ys).2)
      rcases applyMarks s ys with ⟨e | kept, s'⟩ <;> rfl
  | cons item xs ih =>
      rw [List.cons_append, applyMarks_cons, applyMarks_cons]
      rcases sweep s item with ⟨e | first, s₁⟩
      · rfl
      · dsimp only
        rw [ih s₁]
        rcases applyMarks s₁ xs with ⟨e | kept, s₂⟩
        · rfl
        · dsimp only [Except.map]
          rcases applyMarks s₂ ys with ⟨e | others, s₃⟩ <;> rfl

theorem length_applyMarks {s s' : State K} {items kept : List (Item K)}
    (swept : applyMarks s items = (.ok kept, s')) : kept.length = items.length := by
  induction items generalizing s s' kept with
  | nil =>
      cases swept
      rfl
  | cons item items ih =>
      rw [applyMarks_cons] at swept
      rcases one : sweep s item with ⟨e | first, s₁⟩
      · simp [one] at swept
      · rcases rest : applyMarks s₁ items with ⟨e | others, s₂⟩
        · simp [one, rest, Except.map] at swept
        · simp only [one, rest, Except.map, Prod.mk.injEq, Except.ok.injEq] at swept
          rw [← swept.1, List.length_cons, ih rest, List.length_cons]

/-- The test that comes after others is kept or rejected as it is in the state that they leave. -/
theorem applyMarks_at {s s₁ : State K} {before earlier : List (Item K)}
    (reached : applyMarks s before = (.ok earlier, s₁)) (item : Item K) (after : List (Item K)) :
    (∀ e, (sweep s₁ item).1 = .error e → (applyMarks s (before ++ item :: after)).1 = .error e) ∧
      ∀ kept, (applyMarks s (before ++ item :: after)).1 = .ok kept →
        ∃ swept, (sweep s₁ item).1 = .ok swept ∧ kept[before.length]? = some swept := by
  rw [applyMarks_append, reached]
  simp only [applyMarks_cons]
  rcases sweep s₁ item with ⟨e | swept, s₂⟩
  · refine ⟨fun e' same => ?_, fun kept impossible => by cases impossible⟩
    cases same
    rfl
  · refine ⟨fun e impossible => ?_, fun kept ended => ⟨swept, rfl, ?_⟩⟩
    · cases impossible
    rcases rest : applyMarks s₂ after with ⟨e | others, s₃⟩
    · simp [rest, Except.map] at ended
    · simp only [rest, Except.map, Except.ok.injEq] at ended
      rw [← ended, ← length_applyMarks reached, List.getElem?_append_right (Nat.le_refl _),
        Nat.sub_self]
      rfl

/-! ### Tests and bindings -/

/-- What becomes of the marked test at `place`, beside what the gate says of a debug-only binding with
the same backend and the same resource. -/
structure Screened (h : Harness K) (m : DebugMark) (binding : Binding) (item : Item K) (place : Nat)
    (outcome : Except Ending (List (Item K))) : Prop where
  /-- Unless the mark is hollow, the test is skipped just if the gate rejects the binding. -/
  follows : m.hollow = false → ∀ kept, outcome = .ok kept →
    ∃ skips : Bool, kept[place]? = some (if skips then item.rejected else item) ∧
      (skips = true ↔ (h.admits binding).1 = .ok false)
  interrupted : m.hollow = false → ∀ f, (h.admits binding).1 = .error f →
    outcome = .error (stop (.fault f))
  nameless : m.hollow = true → ∀ kept, outcome = .ok kept →
    ∃ skips : Bool, kept[place]? = some (if skips then item.rejected else item) ∧
      (skips = true ↔ h.environment.includeDebugOnly = false ∧
        (h.environment.available "" h.session.shared).answer = .ok false)
  /-- A hollow mark goes with the gate just if it makes no difference whether there is something
  without a name, or whether there is the backend. -/
  agrees_iff : m.hollow = true →
    (((h.environment.includeDebugOnly = false ∧
        (h.environment.available "" h.session.shared).answer = .ok false) ↔
      (h.admits binding).1 = .ok false) ↔
    (h.environment.includeDebugOnly = true ∨
      ((h.environment.available "" h.session.shared).answer = .ok false ↔
        (h.environment.available binding.backend h.session.shared).answer = .ok false)))

section Screened

variable {h : Harness K} {s s₁ : State K} {item : Item K} {m : DebugMark} {b : String}
  {more : List Datum} {r : Option String}

theorem verdict_eq_rejection {resource : String} : verdict h resource = .ok false ↔
    h.environment.includeDebugOnly = false ∧
      (h.environment.available resource h.session.shared).answer = .ok false := by
  rw [verdict_eq]
  cases h.environment.includeDebugOnly <;> simp

/-- What is not given by name is left to the backend by the binding. -/
theorem resourceName_of_hollow (gives : m.Gives r) (hollow : m.hollow = true)
    (contracts : List String) : (⟨b, contracts, true, r⟩ : Binding).resourceName = b := by
  cases gives with
  | omitted => cases hollow
  | keyword => cases hollow
  | positional _ others =>
      cases r with
      | none => rfl
      | some t =>
          have empty : t.isEmpty = true := by
            simpa [DebugMark.hollow, resourceDatum, Datum.isTrue] using hollow
          exact if_pos empty

theorem sweep_of_gives (harness : s.harness = .ok h)
    (backend : item.function.backend = some (.text b :: more))
    (marked : item.function.debugOnly = some m) (gives : m.Gives r) (contracts : List String) :
    (sweep s item).1 = match verdict h (m.asked ⟨b, contracts, true, r⟩) with
      | .error f => .error (stop (.fault f))
      | .ok runs => .ok (if runs then item else item.rejected) := by
  obtain ⟨d, resource, answer⟩ := admitsMark_of_gives h backend gives contracts
  rw [← answer]
  unfold sweep
  rw [marked]
  dsimp only
  rw [resource, harness]
  dsimp only
  rcases admitsMark h d with ⟨f | runs, h'⟩ <;> rfl

/-- A test of a backend that is marked debug-only is skipped just if the gate would reject a debug-only
binding of the backend with the resource of the mark, be it given by position or by keyword, or not at
all. Only where an empty resource is given by position may that be different, and it is just if the
resource without a name and the backend are not both there, or both missing. -/
theorem marks_follow_gate {before after earlier : List (Item K)}
    (reached : applyMarks s before = (.ok earlier, s₁)) (harness : s₁.harness = .ok h)
    (backend : item.function.backend = some (.text b :: more))
    (marked : item.function.debugOnly = some m) (gives : m.Gives r) (contracts : List String) :
    Screened h m ⟨b, contracts, true, r⟩ item before.length
      (applyMarks s (before ++ item :: after)).1 := by
  have swept := sweep_of_gives harness backend marked gives contracts
  obtain ⟨ends, keeps⟩ := applyMarks_at reached item after
  have gate : (h.admits ⟨b, contracts, true, r⟩).1 =
      verdict h (⟨b, contracts, true, r⟩ : Binding).resourceName := admits_of_debugOnly h rfl
  have decides {resource : String} (asked : m.asked ⟨b, contracts, true, r⟩ = resource) :
      ∀ kept, (applyMarks s (before ++ item :: after)).1 = .ok kept →
        ∃ skips : Bool, kept[before.length]? = some (if skips then item.rejected else item) ∧
          (skips = true ↔ verdict h resource = .ok false) := by
    intro kept ended
    obtain ⟨left, one, there⟩ := keeps kept ended
    rw [swept, asked] at one
    cases answer : verdict h resource with
    | error f =>
        rw [answer] at one
        cases one
    | ok runs =>
        rw [answer] at one
        refine ⟨!runs, ?_, by cases runs <;> simp⟩
        rw [there, ← Except.ok.inj one]
        cases runs <;> rfl
  refine ⟨fun solid kept ended => ?_, fun solid f raised => ?_, fun hollow kept ended => ?_,
    fun hollow => ?_⟩
  · rw [gate]
    exact decides (if_neg (by simp [solid])) kept ended
  · refine ends _ ?_
    rw [gate] at raised
    rw [swept, DebugMark.asked, if_neg (by simp [solid]), raised]
  · obtain ⟨skips, there, iff⟩ := decides (if_pos hollow) kept ended
    exact ⟨skips, there, iff.trans verdict_eq_rejection⟩
  · rw [gate, resourceName_of_hollow gives hollow contracts, verdict_eq_rejection]
    cases h.environment.includeDebugOnly <;> simp

end Screened

end TestSession

namespace Samples

/-- An empty resource, given by position. -/
def hollowMark : TestSession.DebugMark := { positional := [.text ""] }

def hollowTest : TestSession.Item PlainText.kit :=
  { name := "test_0"
    function := { kind := .parser, backend := some [.text "V8"], debugOnly := some hollowMark } }

/-- A session to which the backend was declared to be there. -/
def onV8 : TestSession.State PlainText.kit :=
  { world := ⟨[], [], {}, numberedRun "run"⟩, options := { resources := ["V8"] } }

def hollowBinding : Binding := ⟨"V8", ["C"], true, some ""⟩

/-- The test is skipped, though the gate lets the binding run. -/
theorem marks_follow_gate_hollow : ∃ h, onV8.harness = .ok h ∧
    TestSession.Screened h hollowMark hollowBinding hollowTest 0
      (TestSession.applyMarks onV8 [hollowTest]).1 ∧
    (TestSession.applyMarks onV8 [hollowTest]).1 = .ok [hollowTest.rejected] ∧
    (h.admits hollowBinding).1 = .ok true := by
  obtain ⟨h, made⟩ : ∃ h, onV8.harness = .ok h := ⟨_, rfl⟩
  refine ⟨h, made, ?_, rfl, ?_⟩
  · have reached : TestSession.applyMarks onV8 [] = (.ok [], onV8) := rfl
    exact TestSession.marks_follow_gate reached made rfl rfl (.positional (some "") []) ["C"]
  · cases made
    rfl

end Samples

end Concord
