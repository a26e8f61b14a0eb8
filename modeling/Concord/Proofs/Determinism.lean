import Concord.Proofs.Promise
/-!
What resolutions come to where constructors always answer alike. After a clear a backend may be
constructed once more, by a worker that asks for it late; an identity can have several instances then.
If every constructor answers at any time as it would have answered when the run began, each of these
instances is as good as another, and whoever resolves the identity, before or after the clear, comes
to the same.
-/

namespace Concord

variable {K : Kit} {catalog : Catalog K}

namespace Session

/-- The shared states that a run and the workers that outlast it can lead to: by constructors, and by
calls on the promised instances. -/
inductive Abroad (catalog : Catalog K) (promise : String → Except Fault (Instance K))
    (first : K.Shared) : K.Shared → Prop
  | start : Abroad catalog promise first first
  | construct {b : Backend K} {t : K.Shared} (abroad : Abroad catalog promise first t)
      (registered : catalog.backend? b.identity = some b) :
      Abroad catalog promise first (b.construct t).shared
  | call {i : String} {x : Instance K} {own own' : K.Own} {t t' : K.Shared} {action : Action K}
      {r : action.Answer} (abroad : Abroad catalog promise first t)
      (promised : promise i = .ok x) (reached : x.parser.Reached catalog.Uses x.own own)
      (within : action.Within catalog.Uses)
      (taken : x.parser.take own t action = some (r, own', t')) :
      Abroad catalog promise first t'

/-- Constructors answer alike whenever they are called: with a parser or an ordinary fault. What is
resolved when the run begins is what they would answer then, apart from calls since; and a reset
makes a parser forget what it was asked before. -/
structure Deterministic (s : Session K) (catalog : Catalog K) : Prop where
  returns : ∀ i b, catalog.backend? i = some b →
    (∃ x, (b.construct s.shared).result = .ok (some x)) ∨
      ∃ f, (b.construct s.shared).result = .error f ∧ f.isOrdinary = true
  repeats : ∀ i b t, catalog.backend? i = some b →
    Abroad catalog (s.clear.promise catalog) s.shared t →
    (b.construct t).result = (b.construct s.shared).result
  apart : ∀ i j k, s.known i = some (.ok k) → s.known j = some (.ok k) → i = j
  failed : ∀ i f, (catalog.backend? i).isSome = true → s.known i = some (.error f) →
    s.clear.promise catalog i = .error f
  made : ∀ i k, (catalog.backend? i).isSome = true → s.known i = some (.ok k) →
    ∃ x own, s.clear.promise catalog i = .ok x ∧ s.instances[k]? = some ⟨x.parser, own⟩ ∧
      x.parser.Reached catalog.Uses x.own own
  restarts : ∀ i x, s.clear.promise catalog i = .ok x → x.parser.Restarts catalog.Uses x.own

/-- The contexts that a run can come to read: those that are cached when it begins, and new ones. -/
def Live (s : Session K) (c : Nat) : Prop :=
  s.contexts.length ≤ c ∨ ∃ i, s.cache.lookup i = some c

end Session

/-- What holds while resolutions go on and whatever is cleared meanwhile. -/
structure Ask.Rooted (catalog : Catalog K) (first : Session K) (homes : Nat → String → Prop)
    (asks : List Ask) (s : Session K) : Prop where
  houses : s.Houses catalog (first.clear.promise catalog) homes
  kept : ∀ c y o, first.Live c → s.contexts[c]? = some y → y.outcome? = some o →
    (catalog.backend? y.identity).isSome = true →
    Kept (first.clear.promise catalog) homes y.identity (o.map some)
  cached : ∀ i c, s.cache.lookup i = some c → first.Live c
  entered : ∀ (p : Nat) (a : Ask) (c : Nat), asks[p]? = some a → a.spot.context? = some c →
    first.Live c
  answered : ∀ (p : Nat) (a : Ask) (r : Except Fault (Option Nat)), asks[p]? = some a →
    a.spot.answer? = some r →
    Contained r ∧ Kept (first.clear.promise catalog) homes a.identity (delivery a.identity r)
  abroad : Session.Abroad catalog (first.clear.promise catalog) first.shared s.shared

namespace Ask.Rooted

variable {first s s' : Session K} {homes : Nat → String → Prop} {asks : List Ask} {p : Nat} {a : Ask}

/-- Whatever leaves the instances and the shared state alone. -/
theorem frame (rooted : Rooted catalog first homes asks s) (instances : s'.instances = s.instances)
    (shared : s'.shared = s.shared) (cached : ∀ i c, s'.cache.lookup i = some c → first.Live c)
    (kept : ∀ c y o, first.Live c → s'.contexts[c]? = some y → y.outcome? = some o →
      (catalog.backend? y.identity).isSome = true →
      Kept (first.clear.promise catalog) homes y.identity (o.map some)) :
    Rooted catalog first homes asks s' := by
  refine ⟨⟨rooted.houses.sole, ?_⟩, kept, cached, rooted.entered, rooted.answered, ?_⟩
  · rw [instances]
    exact rooted.houses.housed
  · rw [shared]
    exact rooted.abroad

theorem clear (rooted : Rooted catalog first homes asks s) :
    Rooted catalog first homes asks s.clear :=
  rooted.frame rfl rfl (fun i c cached => by cases cached) rooted.kept

theorem goes_on (rooted : Rooted catalog first homes asks s) (here : asks[p]? = some a) {spot : Spot}
    (entered : ∀ c, spot.context? = some c → first.Live c) (answer : spot.answer? = a.spot.answer?) :
    Rooted catalog first homes (asks.set p ⟨a.identity, spot⟩) s := by
  refine ⟨rooted.houses, rooted.kept, rooted.cached, ?_, ?_, rooted.abroad⟩
  · intro q a' c there context
    rcases getElem?_set_cases there with ⟨rfl, rfl⟩ | ⟨_, there⟩
    · exact entered c context
    · exact rooted.entered q a' c there context
  · intro q a' r there answered
    rcases getElem?_set_cases there with ⟨rfl, rfl⟩ | ⟨_, there⟩
    · exact rooted.answered _ a r here (answer ▸ answered)
    · exact rooted.answered q a' r there answered

theorem enter (rooted : Rooted catalog first homes asks s)
    (orderly : s.Orderly first.contexts.length) {identity : String}
    (here : asks[p]? = some ⟨identity, .asking⟩) (begun : List String) :
    Rooted catalog first homes (asks.set p ⟨identity, .entered s.contexts.length⟩)
      { s with
        contexts := s.contexts ++ [{ identity }]
        cache := (identity, s.contexts.length) :: s.cache
        begun } := by
  have live : first.Live s.contexts.length := .inl orderly.based
  have framed : Rooted catalog first homes asks
      { s with
        contexts := s.contexts ++ [{ identity }]
        cache := (identity, s.contexts.length) :: s.cache
        begun } := by
    refine rooted.frame rfl rfl (fun i c cached => ?_) fun c y o live found published => ?_
    · by_cases same : i = identity
      · subst same
        obtain rfl : s.contexts.length = c := by simpa using cached
        exact live
      · refine rooted.cached i c ?_
        simpa only [List.lookup_cons, beq_false_of_ne same] using cached
    · simp only [List.getElem?_append] at found
      split at found
      · exact rooted.kept c y o live found published
      · -- The context that was just opened is not published.
        obtain rfl := List.mem_singleton.mp (List.mem_of_getElem? found)
        cases published
  refine framed.goes_on here ?_ rfl
  rintro c ⟨⟩
  exact live

theorem publish (rooted : Rooted catalog first homes asks s)
    (sound : Ask.Sound first.contexts.length asks s) {identity : String} {c : Nat}
    {r : Except Fault (Option Nat)} (here : asks[p]? = some ⟨identity, .called c r⟩) :
    Rooted catalog first homes (asks.set p ⟨identity, .built c r⟩)
      (s.publish c (publication identity r)) := by
  obtain ⟨pending, _⟩ := sound.fits p _ here
  obtain ⟨contained, kept⟩ := rooted.answered p _ r here rfl
  have framed : Rooted catalog first homes asks (s.publish c (publication identity r)) := by
    refine rooted.frame rfl rfl rooted.cached fun c' y o live found published registered => ?_
    by_cases same : c = c'
    · subst same
      obtain rfl : y = Context.publish { identity } (publication identity r) := by
        simpa [Session.publish, pending] using found.symm
      rw [outcome?_publication] at published
      cases published
      rw [Context.identity_publish]
      exact kept.reading contained
    · have found' : s.contexts[c']? = some y := by
        simpa [Session.publish, same] using found
      exact rooted.kept c' y o live found' published registered
  exact framed.goes_on here (fun c' context => rooted.entered p _ c' here context) rfl

/-- Calling a constructor, be it for the first time or again: it answers as promised, and an instance
that it makes gets a home. -/
theorem construct (rooted : Rooted catalog first homes asks s)
    (deterministic : first.Deterministic catalog) {identity : String} {c : Nat}
    (here : asks[p]? = some ⟨identity, .entered c⟩) {b : Backend K}
    (registered : catalog.backend? identity = some b) {r : Except Fault (Option Nat)}
    (made : s.construct true b = some (r, s')) :
    ∃ homes' : Nat → String → Prop, (∀ k i, homes k i → homes' k i) ∧
      Rooted catalog first homes' (asks.set p ⟨identity, .called c r⟩) s' := by
  obtain ⟨instances, rfl, delivers⟩ := first.clear.delivers registered rfl
    (deterministic.returns identity b registered)
    (deterministic.repeats identity b s.shared registered rooted.abroad) made
  have grown (k : Nat) (i : String) (home : homes k i) : housing homes identity r k i := .inl home
  refine ⟨housing homes identity r, grown, rooted.houses.construct delivers _, ?_, rooted.cached, ?_,
    ?_, ?_⟩
  · intro c' y o live found published known
    exact (rooted.kept c' y o live found published known).mono grown
  · intro q a' c' there context
    rcases getElem?_set_cases there with ⟨rfl, rfl⟩ | ⟨_, there⟩
    · exact rooted.entered _ ⟨identity, .entered c⟩ c' here context
    · exact rooted.entered q a' c' there context
  · intro q a' r' there answered
    rcases getElem?_set_cases there with ⟨rfl, rfl⟩ | ⟨_, there⟩
    · cases answered
      exact delivers.kept homes
    · obtain ⟨contained, kept⟩ := rooted.answered q a' r' there answered
      exact ⟨contained, kept.mono grown⟩
  · obtain rfl := Catalog.identity_of_backend? registered
    exact .construct rooted.abroad registered

theorem move (rooted : Rooted catalog first homes asks s)
    (sound : Ask.Sound first.contexts.length asks s) (deterministic : first.Deterministic catalog)
    (here : asks[p]? = some a) {d : Deed K} {spot : Spot}
    (moves : Ask.Moves catalog a.identity s d a.spot spot s') :
    ∃ homes' : Nat → String → Prop, (∀ k i, homes k i → homes' k i) ∧
      Rooted catalog first homes' (asks.set p ⟨a.identity, spot⟩) s' := by
  obtain ⟨identity, spot'⟩ := a
  cases moves with
  | writes _ r thread =>
      have framed : Rooted catalog first homes asks (s.write thread [r]) :=
        rooted.frame rfl rfl rooted.cached rooted.kept
      exact ⟨homes, fun _ _ home => home,
        framed.goes_on here (fun c context => framed.entered p _ c here context) rfl⟩
  | opens unasked => exact ⟨homes, fun _ _ home => home, rooted.enter sound.orderly here _⟩
  | joins pending cached =>
      refine ⟨homes, fun _ _ home => home, rooted.goes_on here ?_ rfl⟩
      rintro c ⟨⟩
      exact rooted.cached identity _ cached
  | calls c registered made => exact rooted.construct deterministic here registered made
  | publishes c r => exact ⟨homes, fun _ _ home => home, rooted.publish sound here⟩
  | reads pending found published =>
      exact ⟨homes, fun _ _ home => home,
        rooted.goes_on here (fun c context => rooted.entered p _ c here context) rfl⟩

theorem of_done (rooted : Rooted catalog first homes asks s)
    (sound : Ask.Sound first.contexts.length asks s) (here : asks[p]? = some a) {ds : List (Deed K)}
    {v : Except Fault (Option Nat)} (stands : a.Stands catalog ds (.done v)) :
    Kept (first.clear.promise catalog) homes a.identity v := by
  have fits := sound.fits p a here
  obtain ⟨identity, spot⟩ := a
  rcases stands.of_done with ⟨_, unregistered, _, rfl⟩ | ⟨c, r, b, rfl, _, _, _, rfl⟩ |
    ⟨c, pending, o, rfl, registered, _, rfl⟩
  · have unregistered' : catalog.backend? identity = none := unregistered
    simp [Kept, Session.promise, unregistered']
  · exact (rooted.answered p _ r here rfl).2
  · obtain ⟨y, found, rfl, published⟩ := fits
    exact rooted.kept c y o (rooted.entered p _ c here rfl) found published registered

theorem call (rooted : Rooted catalog first homes asks s) {k : Nat} {i : String} (home : homes k i)
    {action : Action K} {r : action.Answer} {thread : String} (target : action.target? = some k)
    (within : action.Within catalog.Uses)
    (performed : Session.perform true thread action s = some (r, s')) :
    Rooted catalog first homes asks s' := by
  obtain ⟨houses, x, own, own', shared, log, promised, _, reached, taken, rfl⟩ :=
    rooted.houses.call home target within performed
  exact ⟨houses, rooted.kept, rooted.cached, rooted.entered, rooted.answered,
    .call rooted.abroad promised reached within taken⟩

theorem start (orderly : first.Orderly first.contexts.length)
    (deterministic : first.Deterministic catalog) (identities : List String) :
    Rooted catalog first
      (fun k i => (catalog.backend? i).isSome = true ∧ first.known i = some (.ok k))
      (identities.map (Ask.start catalog)) first := by
  constructor
  case houses =>
    refine ⟨fun k i j home home' => deterministic.apart i j k home.2 home'.2, ?_⟩
    rintro k i ⟨registered, published⟩
    exact deterministic.made i k registered published
  case kept =>
    intro c y o live found published registered
    rcases live with beyond | ⟨i, cached⟩
    · have inside := (List.getElem?_eq_some_iff.mp found).1
      omega
    · obtain ⟨z, found', same⟩ := orderly.cached i c cached
      obtain rfl := Option.some.inj (found.symm.trans found')
      subst same
      have known : first.known y.identity = some o := by
        simp only [Session.known, cached, Option.bind_some, found, published]
      cases o with
      | error f => exact deterministic.failed _ f registered known
      | ok k => exact ⟨registered, known⟩
  case cached => exact fun i c cached => .inr ⟨i, cached⟩
  case entered =>
    intro p a c here context
    rw [(Ask.unbegun_of_start here).1] at context
    cases context
  case answered =>
    intro p a r here answered
    rw [(Ask.unbegun_of_start here).2] at answered
    cases answered
  case abroad => exact .start

end Ask.Rooted

end Concord
