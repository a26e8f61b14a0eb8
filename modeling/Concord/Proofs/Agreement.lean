import Concord.Proofs.Resolver
import Concord.PlainText.Blueprint
/-!
Callers of one resolver, in any interleaving of their actions and of clearings. Every state that
such a run can reach is traced: each caller is at a spot that its deeds lead to, and the session is
sound for all of them. From that follow how often a backend is constructed, and that all who have
obtained the same context have been told the same.
-/

namespace Concord

variable {K : Kit}

/-! ### Runs of callers -/

/-- Callers of a resolver: what each has yet to do, and the session that they share. -/
structure Callers (K : Kit) where
  works : List (Work K (Except Fault (Option Nat)))
  session : Session K

/-- What can happen: a caller performs its next action, or the resolver is cleared. -/
inductive Occurrence (K : Kit)
  | did (caller : Nat) (deed : Deed K)
  | cleared

inductive Callers.Step : Callers K → Occurrence K → Callers K → Prop
  | act {x : Callers K} (p : Nat) (thread : String) {action : Action K}
      {next : action.Answer → Work K (Except Fault (Option Nat))} {r : action.Answer}
      {s : Session K} (turn : x.works[p]? = some (Procedure.act action next))
      (performed : Session.perform true thread action x.session = some (r, s)) :
      Step x (.did p ⟨action, r⟩) ⟨x.works.set p (next r), s⟩
  | clear (x : Callers K) : Step x .cleared ⟨x.works, x.session.clear⟩

inductive Callers.Run : Callers K → List (Occurrence K) → Callers K → Prop
  | nil (x : Callers K) : Run x [] x
  | cons {x y z : Callers K} {o : Occurrence K} {t : List (Occurrence K)} :
      Step x o y → Run y t z → Run x (o :: t) z

def Callers.start (catalog : Catalog K) (identities : List String) (s : Session K) : Callers K :=
  ⟨identities.map (resolve catalog), s⟩

theorem Callers.Run.split {x z : Callers K} {t₁ t₂ : List (Occurrence K)}
    (run : Run x (t₁ ++ t₂) z) : ∃ y, Run x t₁ y ∧ Run y t₂ z := by
  induction t₁ generalizing x with
  | nil => exact ⟨x, .nil x, run⟩
  | cons o t₁ ih =>
      cases run with
      | cons step rest =>
          obtain ⟨y, first, second⟩ := ih rest
          exact ⟨y, .cons step first, second⟩

namespace Occurrence

/-- What a caller did, if this was its deed and more than a record. -/
def deedOf? (p : Nat) : Occurrence K → Option (Deed K)
  | .did q d => if q = p ∧ d.isWrite = false then some d else none
  | .cleared => none

def isOpening (identity : String) : Occurrence K → Bool
  | .did _ ⟨.enter i, .opened _⟩ => i == identity
  | _ => false

def isCall (identity : String) : Occurrence K → Bool
  | .did _ ⟨.construct b, _⟩ => b.identity == identity
  | _ => false

end Occurrence

def deeds (p : Nat) (t : List (Occurrence K)) : List (Deed K) := t.filterMap (·.deedOf? p)

def openings (identity : String) (t : List (Occurrence K)) : Nat := t.countP (Occurrence.isOpening identity)

def calls (identity : String) (t : List (Occurrence K)) : Nat := t.countP (Occurrence.isCall identity)

theorem deeds_snoc_self (p : Nat) (t : List (Occurrence K)) (d : Deed K) :
    deeds p (t ++ [.did p d]) = deeds p t ++ [d].filter (!·.isWrite) := by
  cases written : d.isWrite <;> simp [deeds, Occurrence.deedOf?, written]

theorem deeds_snoc_of_ne {p q : Nat} (other : p ≠ q) (t : List (Occurrence K)) (d : Deed K) :
    deeds q (t ++ [.did p d]) = deeds q t := by
  simp [deeds, Occurrence.deedOf?, other]

/-! ### What a run keeps -/

/-- A builder of the identity that has not called the constructor yet. -/
def Ask.isAtDoor (identity : String) (a : Ask) : Bool :=
  match a.spot with
  | .entered _ => a.identity == identity
  | _ => false

/-- The callers of these identities are where their deeds have led them. -/
structure Callers.Traced (catalog : Catalog K) (identities : List String) (t : List (Occurrence K))
    (x : Callers K) (asks : List Ask) : Prop where
  identities : asks.map (·.identity) = identities
  length : x.works.length = asks.length
  stands : ∀ (p : Nat) (a : Ask), asks[p]? = some a →
    ∃ w, x.works[p]? = some w ∧ a.Stands catalog (deeds p t) w
  sound : Ask.Sound 0 asks x.session
  balance : ∀ identity, calls identity t + asks.countP (Ask.isAtDoor identity) = openings identity t

/-- What a move does to the cache and to the balance of openings and calls. -/
theorem Ask.Moves.balance {catalog : Catalog K} {a : Ask} {s s' : Session K} {d : Deed K}
    {spot : Spot} (moves : Ask.Moves catalog a.identity s d a.spot spot s') (p : Nat)
    (identity : String) :
    ((Occurrence.did p d).isCall identity).toNat +
        ((⟨a.identity, spot⟩ : Ask).isAtDoor identity).toNat =
      ((Occurrence.did p d).isOpening identity).toNat + (a.isAtDoor identity).toNat := by
  obtain ⟨mine, spot'⟩ := a
  cases moves with
  | calls c registered made =>
      obtain rfl := Catalog.identity_of_backend? registered
      simp [Occurrence.isCall, Occurrence.isOpening, isAtDoor]
  | _ => simp [Occurrence.isCall, Occurrence.isOpening, isAtDoor]

theorem Ask.Moves.cache {catalog : Catalog K} {a : Ask} {s s' : Session K} {d : Deed K}
    {spot : Spot} (moves : Ask.Moves catalog a.identity s d a.spot spot s') (p : Nat)
    (identity : String) :
    ((Occurrence.did p d).isOpening identity = true ∧ s.cache.lookup identity = none ∧
        (s'.cache.lookup identity).isSome = true) ∨
      ((Occurrence.did p d).isOpening identity = false ∧
        s'.cache.lookup identity = s.cache.lookup identity) := by
  obtain ⟨mine, spot'⟩ := a
  cases moves with
  | opens unasked =>
      by_cases same : identity = mine
      · subst same
        exact .inl ⟨by simp [Occurrence.isOpening], unasked, by simp⟩
      · refine .inr ⟨by simpa [Occurrence.isOpening] using Ne.symm same, ?_⟩
        simp only [List.lookup_cons, beq_false_of_ne same]
  | calls c registered made =>
      obtain ⟨_, rfl, _⟩ := Session.construct_cases made
      exact .inr ⟨rfl, rfl⟩
  | _ => exact .inr ⟨rfl, rfl⟩

namespace Callers.Traced

variable {catalog : Catalog K} {identities : List String} {t : List (Occurrence K)}
  {x y : Callers K} {asks : List Ask}

theorem start (catalog : Catalog K) (identities : List String) {s : Session K}
    (unopened : s.contexts = []) (unasked : s.cache = []) :
    Traced catalog identities [] (Callers.start catalog identities s)
      (identities.map (Ask.start catalog)) := by
  have orderly : s.Orderly 0 := by
    refine ⟨Nat.zero_le _, fun c _ below => by omega, fun i c cached => ?_, fun c x k here => ?_⟩
    · simp [unasked] at cached
    · simp [unopened] at here
  refine ⟨?_, ?_, ?_, .start catalog identities orderly (by simp [Callers.start, unopened]), ?_⟩
  · simp [Ask.start, Function.comp_def]
  · simp [Callers.start]
  · intro p a here
    rw [List.getElem?_map] at here
    obtain ⟨i, at_p, rfl⟩ := Option.map_eq_some_iff.mp here
    exact ⟨resolve catalog i, by simp [Callers.start, at_p], .start catalog i⟩
  · intro identity
    have nobody : (identities.map (Ask.start catalog)).countP (Ask.isAtDoor identity) = 0 := by
      rw [List.countP_eq_zero]
      intro a member
      obtain ⟨i, _, rfl⟩ := List.mem_map.mp member
      unfold Ask.start Ask.isAtDoor
      cases (catalog.backend? i).isSome <;> simp
    simp [calls, openings, nobody]

/-- A deed moves the caller that did it, and the others stand where they were. -/
theorem act (traced : Traced catalog identities t x asks) {p : Nat} {d : Deed K}
    (step : Step x (.did p d) y) :
    ∃ a spot, asks[p]? = some a ∧
      Ask.Moves catalog a.identity x.session d a.spot spot y.session ∧
      Traced catalog identities (t ++ [.did p d]) y (asks.set p ⟨a.identity, spot⟩) := by
  cases step with
  | act _ _ turn performed =>
      have inside : p < asks.length := traced.length ▸ (List.getElem?_eq_some_iff.mp turn).1
      have here : asks[p]? = some asks[p] := List.getElem?_eq_getElem inside
      obtain ⟨w, found, stands⟩ := traced.stands p _ here
      obtain rfl := Option.some.inj (turn.symm.trans found)
      obtain ⟨spot, moves, stands'⟩ := stands.step performed
      refine ⟨_, spot, here, moves, ?_, ?_, ?_, (traced.sound.move here moves).2, ?_⟩
      · rw [← traced.identities, List.map_set]
        have same : (asks.map (·.identity))[p]? = some asks[p].identity := by simp [here]
        obtain ⟨_, at_p⟩ := List.getElem?_eq_some_iff.mp same
        rw [← at_p, List.set_getElem_self]
      · simp [traced.length]
      · intro q a there
        rcases getElem?_set_cases there with ⟨rfl, rfl⟩ | ⟨other, there⟩
        · rw [deeds_snoc_self]
          exact ⟨_, by simp [traced.length, inside], stands'⟩
        · rw [deeds_snoc_of_ne other]
          obtain ⟨w', found', stands''⟩ := traced.stands q a there
          exact ⟨w', by rwa [List.getElem?_set_ne other], stands''⟩
      · intro identity
        have before := traced.balance identity
        have change := countP_set_add (Ask.isAtDoor identity) here ⟨asks[p].identity, spot⟩
        have balance := moves.balance p identity
        simp only [calls, openings, countP_snoc] at before ⊢
        omega

theorem clear (traced : Traced catalog identities t x asks) :
    Traced catalog identities (t ++ [.cleared]) ⟨x.works, x.session.clear⟩ asks := by
  refine ⟨traced.identities, traced.length, ?_, traced.sound.clear, ?_⟩
  · intro p a here
    have same : deeds p (t ++ [.cleared]) = deeds p t := by simp [deeds, Occurrence.deedOf?]
    rw [same]
    exact traced.stands p a here
  · intro identity
    simp only [calls, openings, countP_snoc, Occurrence.isCall, Occurrence.isOpening,
      Bool.toNat_false, Nat.add_zero]
    exact traced.balance identity

/-- A whole run: the callers stay traced, and what is published stays. -/
theorem run (traced : Traced catalog identities t x asks) {t' : List (Occurrence K)}
    (run : Run x t' y) :
    (∃ asks', Traced catalog identities (t ++ t') y asks') ∧ x.session.Later y.session := by
  induction run generalizing t asks with
  | nil x => exact ⟨⟨asks, by simpa using traced⟩, .refl _⟩
  | @cons x y z o t' step rest ih =>
      cases o with
      | did p d =>
          obtain ⟨a, spot, here, moves, traced'⟩ := traced.act step
          obtain ⟨⟨asks', traced''⟩, later⟩ := ih traced'
          refine ⟨⟨asks', by simpa using traced''⟩, ?_⟩
          exact (traced.sound.move here moves).1.trans later
      | cleared =>
          cases step
          obtain ⟨⟨asks', traced''⟩, later⟩ := ih traced.clear
          refine ⟨⟨asks', by simpa using traced''⟩, .trans ?_ later⟩
          exact ⟨fun _ c found => ⟨c, found, rfl, fun _ => rfl⟩, Nat.le_refl _⟩

/-- Between clearings one construction of an identity is begun at most, and none while the identity
has a context. -/
theorem openings_le (traced : Traced catalog identities t x asks) {t' : List (Occurrence K)}
    (run : Run x t' y) (uncleared : .cleared ∉ t') (identity : String) :
    openings identity t' ≤ 1 ∧
      ((x.session.cache.lookup identity).isSome = true → openings identity t' = 0) := by
  induction run generalizing t asks with
  | nil x => simp [openings]
  | @cons x y z o t' step rest ih =>
      cases o with
      | cleared => simp at uncleared
      | did p d =>
          obtain ⟨a, spot, _, moves, traced'⟩ := traced.act step
          obtain ⟨few, none⟩ := ih traced' (by simpa using uncleared)
          simp only [openings, List.countP_cons] at few none ⊢
          rcases moves.cache p identity with ⟨opens, unasked, cached⟩ | ⟨opens, same⟩
          · have zero := none cached
            simp only [opens, if_true]
            refine ⟨by omega, fun asked => ?_⟩
            rw [unasked] at asked
            cases asked
          · rw [same] at none
            simp only [opens, Bool.false_eq_true, if_false, Nat.add_zero]
            exact ⟨few, none⟩

end Callers.Traced

/-! ### Agreement -/

/-- Constructors return a parser, or raise. -/
def Catalog.ReturnsParsers (c : Catalog K) : Prop :=
  ∀ b ∈ c.backends, ∀ s, (b.construct s).result ≠ .ok none

theorem Catalog.ReturnsParsers.made {catalog : Catalog K} (parsers : catalog.ReturnsParsers)
    {identity : String} {b : Backend K} (registered : catalog.backend? identity = some b)
    {s s' : Session K} {r : Except Fault (Option Nat)} (made : s.construct true b = some (r, s')) :
    r ≠ .ok none := by
  have some := parsers b (List.mem_of_find?_eq_some registered) s.shared
  obtain ⟨_, _, ⟨f, _, rfl, _⟩ | ⟨none, _, _⟩ | ⟨_, _, rfl, _⟩⟩ := Session.construct_cases made
  · intro same
    cases same
  · exact absurd none some
  · intro same
    cases same

theorem reading_cases {identity : String} {r : Except Fault (Option Nat)} (given : r ≠ .ok none) :
    (∃ k, reading identity r = .ok k) ∨
      ∃ reason cause, reading identity r = .error (.construction identity reason cause) := by
  match r with
  | .ok (some k) => exact .inl ⟨k, rfl⟩
  | .ok none => exact absurd rfl given
  | .error f =>
      cases ordinary : f.isOrdinary <;> simp [reading, publishedFailure, ordinary]

namespace Ask.Stands

variable {catalog : Catalog K} {a : Ask} {ds : List (Deed K)}
  {w : Work K (Except Fault (Option Nat))}

theorem of_entered (stands : a.Stands catalog ds w) {i : String} {e : Entry}
    (member : ⟨.enter i, e⟩ ∈ ds) :
    i = a.identity ∧
      match e with
      | .opened c => a.spot.opened? = some c
      | .joined c _ => a.spot.context? = some c := by
  induction stands with
  | logging _ _ ih => exact ih member
  | refused | asking => cases member
  | entered | called | built =>
      simp only [List.mem_cons, List.not_mem_nil, or_false, Deed.mk.injEq, reduceCtorEq,
        Action.enter.injEq, false_and, heq_eq_eq] at member
      obtain ⟨rfl, rfl⟩ := member
      exact ⟨rfl, rfl⟩
  | joined | read =>
      simp only [List.mem_cons, List.not_mem_nil, or_false, Deed.mk.injEq, reduceCtorEq,
        Action.enter.injEq, false_and, heq_eq_eq] at member
      obtain ⟨rfl, rfl⟩ := member
      exact ⟨rfl, rfl⟩

theorem of_unregistered (stands : a.Stands catalog ds w)
    (unregistered : catalog.backend? a.identity = none) :
    ds = [] ∧ w = .done (.error (.unregistered a.identity)) := by
  have refused : a.spot = .refused := by
    induction stands with
    | refused => rfl
    | logging _ _ ih => exact ih unregistered
    | asking registered | entered registered | called registered | built registered
    | joined registered | read registered =>
        rw [registered] at unregistered
        cases unregistered
  cases stands with
  | refused => exact ⟨rfl, rfl⟩
  | logging going => exact absurd refused going
  | _ => cases refused

end Ask.Stands

def Obtained (p c : Nat) (t : List (Occurrence K)) : Prop :=
  (∃ i, ⟨.enter i, .opened c⟩ ∈ deeds p t) ∨ ∃ i pending, ⟨.enter i, .joined c pending⟩ ∈ deeds p t

def Interrupted (p : Nat) (f : Fault) (t : List (Occurrence K)) : Prop :=
  f.isOrdinary = false ∧ ∃ b, ⟨.construct b, .error f⟩ ∈ deeds p t

namespace Callers

namespace Traced

variable {catalog : Catalog K} {identities : List String} {t : List (Occurrence K)}
  {x y : Callers K} {asks : List Ask}

theorem place (traced : Traced catalog identities t x asks) {p : Nat}
    {w : Work K (Except Fault (Option Nat))} (found : x.works[p]? = some w) :
    ∃ a, asks[p]? = some a ∧ a.Stands catalog (deeds p t) w := by
  have inside : p < asks.length := traced.length ▸ (List.getElem?_eq_some_iff.mp found).1
  obtain ⟨w', found', stands⟩ := traced.stands p _ (List.getElem?_eq_getElem inside)
  obtain rfl := Option.some.inj (found.symm.trans found')
  exact ⟨_, List.getElem?_eq_getElem inside, stands⟩

theorem builder (traced : Traced catalog identities t x asks) (parsers : catalog.ReturnsParsers)
    {c : Nat} {y : Context Nat} {o : Except Fault Nat} (found : x.session.contexts[c]? = some y)
    (published : y.outcome? = some o) : ∃ r, r ≠ .ok none ∧ o = reading y.identity r := by
  obtain ⟨p, a, r, here, built, same, told⟩ :=
    traced.sound.builder (Nat.zero_le _) found published
  obtain ⟨w, _, stands⟩ := traced.stands p _ here
  obtain ⟨b, registered, ⟨s, s', made⟩, _⟩ := stands.of_built built
  exact ⟨r, parsers.made registered made, same ▸ told⟩

theorem agreed (traced : Traced catalog identities t x asks) (parsers : catalog.ReturnsParsers)
    {p c : Nat} {v : Except Fault (Option Nat)} (obtained : Obtained p c t)
    (done : x.works[p]? = some (.done v)) :
    ∃ y o, x.session.contexts[c]? = some y ∧ y.outcome? = some o ∧
      ((∃ k, o = .ok k) ∨ ∃ reason cause, o = .error (.construction y.identity reason cause)) ∧
      ((∀ f, ¬ Interrupted p f t) → v = o.map some) ∧
      ∀ f, Interrupted p f t → v = .error f ∧
        o = .error (.construction y.identity "construction interrupted" none) := by
  obtain ⟨⟨identity, spot⟩, here, stands⟩ := traced.place done
  have context : spot.context? = some c := by
    rcases obtained with ⟨i, member⟩ | ⟨i, pending, member⟩
    · exact Spot.context?_of_opened? (stands.of_entered member).2
    · exact (stands.of_entered member).2
  have fits := traced.sound.fits p _ here
  rcases stands.of_done with ⟨rfl, _⟩ | ⟨c', r, b, rfl, registered, ⟨s, s', made⟩, did, rfl⟩ |
    ⟨c', pending, o, rfl, _, did, rfl⟩
  · cases context
  · cases context
    refine ⟨_, _, fits.1, outcome?_publication _ _, ?_, ?_, ?_⟩
    · simpa using reading_cases (parsers.made registered made)
    · intro calm
      match r with
      | .ok (some k) => rfl
      | .ok none => exact absurd rfl (parsers.made registered made)
      | .error f =>
          cases ordinary : f.isOrdinary with
          | true => simp [delivery, reading, ordinary, Except.map]
          | false => exact absurd ⟨ordinary, b, by simp [did]⟩ (calm f)
    · rintro f ⟨interrupt, b', member⟩
      simp only [did, List.mem_cons, List.not_mem_nil, or_false, Deed.mk.injEq, reduceCtorEq,
        Action.construct.injEq, false_and, false_or, heq_eq_eq] at member
      obtain ⟨rfl, rfl⟩ := member
      simp [delivery, reading, publishedFailure, interrupt]
  · cases context
    obtain ⟨y, found, same, published⟩ := fits
    obtain ⟨r, given, told⟩ := traced.builder parsers found published
    refine ⟨y, o, found, published, told ▸ reading_cases given, fun _ => rfl, ?_⟩
    rintro f ⟨_, b, member⟩
    simp [did] at member

/-- A part of a run without clearings, and what went before it. -/
theorem parts (begin : Traced catalog identities [] x asks) {t₁ t₂ t₃ : List (Occurrence K)}
    (run : Run x (t₁ ++ t₂ ++ t₃) y) (uncleared : .cleared ∉ t₂) (identity : String) :
    openings identity t₂ ≤ 1 ∧ calls identity t₁ ≤ openings identity t₁ ∧
      calls identity t₁ + calls identity t₂ ≤ openings identity t₁ + openings identity t₂ := by
  obtain ⟨y₂, run₁₂, _⟩ := run.split
  obtain ⟨y₁, run₁, run₂⟩ := run₁₂.split
  obtain ⟨⟨asks₁, traced₁⟩, _⟩ := begin.run run₁
  obtain ⟨⟨asks₂, traced₂⟩, _⟩ := begin.run run₁₂
  have few := (traced₁.openings_le run₂ uncleared identity).1
  have first := traced₁.balance identity
  have both := traced₂.balance identity
  simp only [calls, openings, List.nil_append, List.countP_append] at first both few ⊢
  omega

end Traced

end Callers

end Concord
