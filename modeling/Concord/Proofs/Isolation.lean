import Concord.Proofs.Determinism
import Concord.Proofs.ScheduleIndependence
/-!
One backend among others that may do anything. The constructors and parsers of other identities may
raise what they like, answer differently each time and keep whatever state they want; they may even be
interrupted. As long as the constructor of this one identity answers the same whatever the others have
done before, and its parser forgets at a reset, what is reported on its units can be told when the
workers begin. The invariant follows the instances of this identity only: nobody else is ever given
one of them.
-/

namespace Concord

variable {K : Kit} {catalog : Catalog K} {replays workers base : Nat}

/-! ### What the others may do -/

namespace Session

/-- The sessions that a run can lead to before it calls the constructor of an identity, as far as the
supplied code can tell them apart: by other constructors, and by calls on whatever instances there
are. -/
inductive Around (catalog : Catalog K) (identity : String) (first : Session K) : Session K → Prop
  | start : Around catalog identity first first
  | frame {s s' : Session K} (around : Around catalog identity first s) (shared : s'.shared = s.shared)
      (instances : s'.instances = s.instances) : Around catalog identity first s'
  | construct {s s' : Session K} {b : Backend K} {r : Except Fault (Option Nat)}
      (around : Around catalog identity first s) (registered : catalog.backend? b.identity = some b)
      (other : b.identity ≠ identity) (made : s.construct true b = some (r, s')) :
      Around catalog identity first s'
  | call {s s' : Session K} {action : Action K} {r : action.Answer} {thread : String} {k : Nat}
      (around : Around catalog identity first s) (target : action.target? = some k)
      (within : action.Within catalog.Uses)
      (performed : Session.perform true thread action s = some (r, s')) :
      Around catalog identity first s'

/-- The code of one identity keeps to itself, whatever the others do: its instance is its own, its
constructor returns a parser or raises an ordinary fault and does so whatever happened around, and a
reset makes its parser forget what it was asked before. -/
structure Isolates (s : Session K) (catalog : Catalog K) (identity : String) : Prop where
  apart : ∀ i k, s.known identity = some (.ok k) → s.known i = some (.ok k) → i = identity
  returns : ∀ b, catalog.backend? identity = some b → s.known identity = none →
    (∃ x, (b.construct s.shared).result = .ok (some x)) ∨
      ∃ f, (b.construct s.shared).result = .error f ∧ f.isOrdinary = true
  unmoved : ∀ b t, catalog.backend? identity = some b → s.known identity = none →
    Around catalog identity s t →
    (b.construct t.shared).result = (b.construct s.shared).result
  restarts : ∀ x, s.promise catalog identity = .ok x → x.parser.Restarts catalog.Uses x.own

end Session

/-- What a resolution came to, seen from one identity: its own resolutions end as promised, and those
of others with no instance of it. -/
inductive Owned (promise : String → Except Fault (Instance K)) (homes : Nat → String → Prop)
    (identity : String) : String → Except Fault (Option Nat) → Prop
  | mine {v : Except Fault (Option Nat)} (kept : Kept promise homes identity v) :
      Owned promise homes identity identity v
  | foreign {i : String} {v : Except Fault (Option Nat)} (other : i ≠ identity)
      (apart : ∀ k, v = .ok (some k) → ¬ homes k identity) : Owned promise homes identity i v

namespace Owned

variable {promise : String → Except Fault (Instance K)} {homes homes' : Nat → String → Prop}
  {identity i : String} {v : Except Fault (Option Nat)}

theorem kept (owned : Owned promise homes identity i v) (same : i = identity) :
    Kept promise homes i v := by
  cases owned with
  | mine kept => exact kept
  | foreign other => exact absurd same other

theorem apart (owned : Owned promise homes identity i v) (other : i ≠ identity) {k : Nat}
    (ended : v = .ok (some k)) : ¬ homes k identity := by
  cases owned with
  | mine => exact absurd rfl other
  | foreign _ apart => exact apart k ended

/-- The identity may be given further instances, none of which anybody has been given before. -/
theorem mono (owned : Owned promise homes identity i v) (grown : ∀ k i, homes k i → homes' k i)
    (new : ∀ k, v = .ok (some k) → homes' k identity → homes k identity) :
    Owned promise homes' identity i v := by
  cases owned with
  | mine kept => exact .mine (kept.mono grown)
  | foreign other apart => exact .foreign other fun k ended home => apart k ended (new k ended home)

/-- Whoever reads a constructor's answer is told what its caller is told. -/
theorem reading {r : Except Fault (Option Nat)} (contained : i = identity → Contained r)
    (owned : Owned promise homes identity i (delivery i r)) :
    Owned promise homes identity i ((Concord.reading i r).map some) := by
  cases owned with
  | mine kept => exact .mine (kept.reading (contained rfl))
  | foreign other apart =>
      refine .foreign other fun k told => apart k ?_
      match r with
      | .ok (some k') => exact told
      | .ok none => cases told
      | .error f => cases told

end Owned

/-! ### Resolutions -/

/-- What holds while resolutions go on, seen from one identity: `homes` tells its instances. -/
structure Ask.Isolated (catalog : Catalog K) (first : Session K) (identity : String)
    (homes : Nat → String → Prop) (asks : List Ask) (s : Session K) : Prop where
  only : ∀ k i, homes k i → i = identity
  housed : ∀ k i, homes k i → ∃ x own, first.promise catalog i = .ok x ∧
    s.instances[k]? = some ⟨x.parser, own⟩ ∧ x.parser.Reached catalog.Uses x.own own
  kept : ∀ c y o, first.Live c → s.contexts[c]? = some y → y.outcome? = some o →
    (catalog.backend? y.identity).isSome = true →
    Owned (first.promise catalog) homes identity y.identity (o.map some)
  cached : ∀ i c, s.cache.lookup i = some c → first.Live c
  entered : ∀ (p : Nat) (a : Ask) (c : Nat), asks[p]? = some a → a.spot.context? = some c →
    first.Live c
  answered : ∀ (p : Nat) (a : Ask) (r : Except Fault (Option Nat)), asks[p]? = some a →
    a.spot.answer? = some r → (a.identity = identity → Contained r) ∧
      Owned (first.promise catalog) homes identity a.identity (delivery a.identity r)
  older : ∀ c, first.cache.lookup identity = some c → s.cache.lookup identity = some c
  opened : ∀ (p : Nat) (a : Ask) (c : Nat), asks[p]? = some a → a.identity = identity →
    a.spot.opened? = some c → s.cache.lookup identity = some c ∧ first.known identity = none
  around : first.known identity = none →
    (∀ (p : Nat) (a : Ask), asks[p]? = some a → a.identity = identity → a.spot.answer? = none) →
    Session.Around catalog identity first s

namespace Ask.Isolated

variable {first s s' : Session K} {identity : String} {homes : Nat → String → Prop}
  {asks : List Ask} {p : Nat} {a : Ask}

theorem houses (isolated : Isolated catalog first identity homes asks s) :
    s.Houses catalog (first.promise catalog) homes :=
  ⟨fun k i j home home' => (isolated.only k i home).trans (isolated.only k j home').symm,
    isolated.housed⟩

theorem inside (isolated : Isolated catalog first identity homes asks s) {k : Nat} {i : String}
    (home : homes k i) : k < s.instances.length := by
  obtain ⟨_, _, _, found, _⟩ := isolated.housed k i home
  exact (List.getElem?_eq_some_iff.mp found).1

/-- Whatever leaves the instances and the shared state alone and keeps what is cached. -/
theorem frame (isolated : Isolated catalog first identity homes asks s)
    (instances : s'.instances = s.instances) (shared : s'.shared = s.shared)
    (cached : ∀ i c, s'.cache.lookup i = some c → first.Live c)
    (stays : ∀ c, s.cache.lookup identity = some c → s'.cache.lookup identity = some c)
    (kept : ∀ c y o, first.Live c → s'.contexts[c]? = some y → y.outcome? = some o →
      (catalog.backend? y.identity).isSome = true →
      Owned (first.promise catalog) homes identity y.identity (o.map some)) :
    Isolated catalog first identity homes asks s' := by
  constructor
  case only => exact isolated.only
  case housed =>
    rw [instances]
    exact isolated.housed
  case kept => exact kept
  case cached => exact cached
  case entered => exact isolated.entered
  case answered => exact isolated.answered
  case older => exact fun c old => stays c (isolated.older c old)
  case opened =>
    intro p a c here mine opens
    obtain ⟨current, unknown⟩ := isolated.opened p a c here mine opens
    exact ⟨stays c current, unknown⟩
  case around =>
    exact fun unknown uncalled => (isolated.around unknown uncalled).frame shared instances

theorem goes_on (isolated : Isolated catalog first identity homes asks s) (here : asks[p]? = some a)
    {spot : Spot} (entered : ∀ c, spot.context? = some c → first.Live c)
    (opened : a.identity = identity → ∀ c, spot.opened? = some c →
      s.cache.lookup identity = some c ∧ first.known identity = none)
    (answer : spot.answer? = a.spot.answer?) :
    Isolated catalog first identity homes (asks.set p ⟨a.identity, spot⟩) s := by
  have inside : p < asks.length := (List.getElem?_eq_some_iff.mp here).1
  constructor
  case only => exact isolated.only
  case housed => exact isolated.housed
  case kept => exact isolated.kept
  case cached => exact isolated.cached
  case entered =>
    intro q a' c there context
    rcases getElem?_set_cases there with ⟨rfl, rfl⟩ | ⟨_, there⟩
    · exact entered c context
    · exact isolated.entered q a' c there context
  case answered =>
    intro q a' r there answered
    rcases getElem?_set_cases there with ⟨rfl, rfl⟩ | ⟨_, there⟩
    · exact isolated.answered _ a r here (answer ▸ answered)
    · exact isolated.answered q a' r there answered
  case older => exact isolated.older
  case opened =>
    intro q a' c there mine opens
    rcases getElem?_set_cases there with ⟨rfl, rfl⟩ | ⟨_, there⟩
    · exact opened mine c opens
    · exact isolated.opened q a' c there mine opens
  case around =>
    intro unknown uncalled
    refine isolated.around unknown fun q a' there mine => ?_
    by_cases moved : p = q
    · subst moved
      obtain rfl := Option.some.inj (here.symm.trans there)
      rw [← answer]
      exact uncalled p ⟨a.identity, spot⟩ (by simp [inside]) mine
    · exact uncalled q a' (by rwa [List.getElem?_set_ne moved]) mine

theorem enter (isolated : Isolated catalog first identity homes asks s)
    (orderly : s.Orderly first.contexts.length) {i : String}
    (here : asks[p]? = some ⟨i, .asking⟩) (unasked : s.cache.lookup i = none) (begun : List String) :
    Isolated catalog first identity homes (asks.set p ⟨i, .entered s.contexts.length⟩)
      { s with
        contexts := s.contexts ++ [{ identity := i }]
        cache := (i, s.contexts.length) :: s.cache
        begun } := by
  have live : first.Live s.contexts.length := .inl orderly.based
  have framed : Isolated catalog first identity homes asks
      { s with
        contexts := s.contexts ++ [{ identity := i }]
        cache := (i, s.contexts.length) :: s.cache
        begun } := by
    refine isolated.frame rfl rfl (fun j c cached => ?_) (fun c cached => ?_)
      fun c y o live found published => ?_
    · by_cases same : j = i
      · subst same
        obtain rfl : s.contexts.length = c := by simpa using cached
        exact live
      · refine isolated.cached j c ?_
        simpa only [List.lookup_cons, beq_false_of_ne same] using cached
    · have other : identity ≠ i := by
        rintro rfl
        rw [unasked] at cached
        cases cached
      simpa only [List.lookup_cons, beq_false_of_ne other] using cached
    · simp only [List.getElem?_append] at found
      split at found
      · exact isolated.kept c y o live found published
      · -- The context that was just opened is not published.
        obtain rfl := List.mem_singleton.mp (List.mem_of_getElem? found)
        cases published
  refine framed.goes_on here ?_ ?_ rfl
  · rintro c ⟨⟩
    exact live
  · rintro rfl c ⟨⟩
    refine ⟨by simp, ?_⟩
    cases cached : first.cache.lookup i with
    | none => simp [Session.known, cached]
    | some c =>
        rw [isolated.older c cached] at unasked
        cases unasked

theorem publish (isolated : Isolated catalog first identity homes asks s)
    (sound : Ask.Sound base asks s) {i : String} {c : Nat} {r : Except Fault (Option Nat)}
    (here : asks[p]? = some ⟨i, .called c r⟩) :
    Isolated catalog first identity homes (asks.set p ⟨i, .built c r⟩)
      (s.publish c (publication i r)) := by
  obtain ⟨pending, _⟩ := sound.fits p _ here
  obtain ⟨contained, owned⟩ := isolated.answered p _ r here rfl
  have framed : Isolated catalog first identity homes asks (s.publish c (publication i r)) := by
    refine isolated.frame rfl rfl isolated.cached (fun c cached => cached)
      fun c' y o live found published registered => ?_
    by_cases same : c = c'
    · subst same
      obtain rfl : y = Context.publish { identity := i } (publication i r) := by
        simpa [Session.publish, pending] using found.symm
      rw [outcome?_publication] at published
      cases published
      rw [Context.identity_publish]
      exact owned.reading contained
    · have found' : s.contexts[c']? = some y := by
        simpa [Session.publish, same] using found
      exact isolated.kept c' y o live found' published registered
  exact framed.goes_on here (fun c' context => isolated.entered p _ c' here context)
    (fun mine c' opened => isolated.opened p _ c' here mine opened) rfl

/-- Nobody has called the constructor of the identity when somebody is about to call it. -/
theorem uncalled (isolated : Isolated catalog first identity homes asks s)
    (sound : Ask.Sound base asks s) {c : Nat} (here : asks[p]? = some ⟨identity, .entered c⟩) {q : Nat}
    {a' : Ask} (there : asks[q]? = some a') (mine : a'.identity = identity) :
    a'.spot.answer? = none := by
  have alone (c' : Nat) (opens : a'.spot.opened? = some c') : q = p := by
    have current := (isolated.opened p _ c here rfl rfl).1
    rw [(isolated.opened q a' c' there mine opens).1] at current
    cases current
    exact sound.once q p a' _ _ there here opens rfl
  obtain ⟨i, spot⟩ := a'
  cases spot
  case called c' r =>
    obtain rfl := alone c' rfl
    rw [here] at there
    cases there
  case built c' r =>
    obtain rfl := alone c' rfl
    rw [here] at there
    cases there
  all_goals rfl

/-- A constructor was called: what follows from what its answer means to the identity. -/
theorem after_construct (isolated : Isolated catalog first identity homes asks s)
    (sound : Ask.Sound base asks s) {i : String} {c : Nat} (here : asks[p]? = some ⟨i, .entered c⟩)
    {r : Except Fault (Option Nat)} {shared : K.Shared} {instances : List (Instance K)}
    {homes' : Nat → String → Prop} (only : ∀ k i, homes' k i → i = identity)
    (housed : ∀ k i, homes' k i → ∃ x own, first.promise catalog i = .ok x ∧
      instances[k]? = some ⟨x.parser, own⟩ ∧ x.parser.Reached catalog.Uses x.own own)
    (grown : ∀ k i, homes k i → homes' k i)
    (new : ∀ k, k < s.instances.length → homes' k identity → homes k identity)
    (answered : (i = identity → Contained r) ∧
      Owned (first.promise catalog) homes' identity i (delivery i r))
    (around : i ≠ identity → Session.Around catalog identity first s →
      Session.Around catalog identity first { s with shared, instances }) :
    Isolated catalog first identity homes' (asks.set p ⟨i, .called c r⟩)
      { s with shared, instances } := by
  have length : p < asks.length := (List.getElem?_eq_some_iff.mp here).1
  constructor
  case only => exact only
  case housed => exact housed
  case kept =>
    intro c' y o live found published registered
    refine (isolated.kept c' y o live found published registered).mono grown fun k told => ?_
    have at_k : o = .ok k := by
      cases o with
      | error f => cases told
      | ok k' =>
          cases told
          rfl
    exact new k (sound.orderly.placed c' y k found (at_k ▸ published))
  case cached => exact isolated.cached
  case entered =>
    intro q a' c' there context
    rcases getElem?_set_cases there with ⟨rfl, rfl⟩ | ⟨_, there⟩
    · exact isolated.entered _ ⟨i, .entered c⟩ c' here context
    · exact isolated.entered q a' c' there context
  case answered =>
    intro q a' r' there answer
    rcases getElem?_set_cases there with ⟨rfl, rfl⟩ | ⟨_, there⟩
    · cases answer
      exact answered
    · obtain ⟨contained, owned⟩ := isolated.answered q a' r' there answer
      refine ⟨contained, owned.mono grown fun k delivered => new k ?_⟩
      have made : a'.spot.made? = some k := by
        have gave : r' = .ok (some k) := by
          cases r' with
          | error f => cases delivered
          | ok j =>
              cases delivered
              rfl
        obtain ⟨j, spot⟩ := a'
        cases spot <;> cases answer <;> rw [gave] <;> rfl
      exact (sound.fits q a' there).within made
  case older => exact isolated.older
  case opened =>
    intro q a' c' there mine opens
    rcases getElem?_set_cases there with ⟨rfl, rfl⟩ | ⟨_, there⟩
    · exact isolated.opened _ ⟨i, .entered c⟩ c' here mine opens
    · exact isolated.opened q a' c' there mine opens
  case around =>
    intro unknown uncalled
    have other : i ≠ identity := by
      intro mine
      cases uncalled p ⟨i, .called c r⟩ (by simp [length]) mine
    refine around other (isolated.around unknown fun q a' there mine => ?_)
    by_cases moved : p = q
    · subst moved
      obtain rfl := Option.some.inj (here.symm.trans there)
      exact absurd mine other
    · exact uncalled q a' (by rwa [List.getElem?_set_ne moved]) mine

/-- Calling a constructor: that of the identity answers as promised, and those of others make no
instance that is its own. -/
theorem construct (isolated : Isolated catalog first identity homes asks s)
    (sound : Ask.Sound base asks s) (isolates : first.Isolates catalog identity) {i : String}
    {c : Nat} (here : asks[p]? = some ⟨i, .entered c⟩) {b : Backend K}
    (registered : catalog.backend? i = some b) {r : Except Fault (Option Nat)}
    (made : s.construct true b = some (r, s')) :
    ∃ homes' : Nat → String → Prop, (∀ k i, homes k i → homes' k i) ∧
      Isolated catalog first identity homes' (asks.set p ⟨i, .called c r⟩) s' := by
  by_cases mine : i = identity
  · subst mine
    have unknown := (isolated.opened p _ c here rfl rfl).2
    have unmoved := isolates.unmoved b s registered unknown
      (isolated.around unknown fun q a' there mine => isolated.uncalled sound here there mine)
    obtain ⟨instances, rfl, delivers⟩ := first.delivers registered unknown
      (isolates.returns b registered unknown) unmoved made
    have houses := isolated.houses.construct delivers (b.construct s.shared).shared
    refine ⟨housing homes i r, fun k j home => .inl home, ?_⟩
    refine isolated.after_construct sound here ?_ houses.housed (fun k j home => .inl home) ?_ ?_
      fun other => absurd rfl other
    · rintro k j (home | ⟨_, rfl⟩)
      · exact isolated.only k j home
      · rfl
    · rintro k below (home | ⟨gave, _⟩)
      · exact home
      · have beyond := (delivers.new gave).1
        omega
    · obtain ⟨contained, kept⟩ := delivers.kept homes
      exact ⟨fun _ => contained, .mine kept⟩
  · obtain ⟨instances, rfl, answer⟩ := Session.construct_cases made
    refine ⟨homes, fun k j home => home, ?_⟩
    refine isolated.after_construct sound here isolated.only (fun k j home => ?_)
      (fun k j home => home) (fun k _ home => home) ⟨fun same => absurd same mine, ?_⟩
      fun other around => ?_
    · obtain ⟨x, own, promised, found, reached⟩ := isolated.housed k j home
      refine ⟨x, own, promised, ?_, reached⟩
      rcases answer with ⟨_, _, _, rfl⟩ | ⟨_, _, rfl⟩ | ⟨_, _, _, rfl⟩
      · exact found
      · exact found
      · rwa [List.getElem?_append_left (isolated.inside home)]
    · refine .foreign mine fun k delivered home => ?_
      have within := isolated.inside home
      rcases answer with ⟨_, _, rfl, _⟩ | ⟨_, rfl, _⟩ | ⟨_, _, rfl, _⟩
      · cases delivered
      · cases delivered
      · cases delivered
        omega
    · obtain rfl := Catalog.identity_of_backend? registered
      exact around.construct registered other made

theorem move (isolated : Isolated catalog first identity homes asks s)
    (sound : Ask.Sound first.contexts.length asks s) (isolates : first.Isolates catalog identity)
    (here : asks[p]? = some a) {d : Deed K} {spot : Spot}
    (moves : Ask.Moves catalog a.identity s d a.spot spot s') :
    ∃ homes' : Nat → String → Prop, (∀ k i, homes k i → homes' k i) ∧
      Isolated catalog first identity homes' (asks.set p ⟨a.identity, spot⟩) s' := by
  obtain ⟨i, spot'⟩ := a
  cases moves with
  | writes _ r thread =>
      have framed : Isolated catalog first identity homes asks (s.write thread [r]) :=
        isolated.frame rfl rfl isolated.cached (fun c cached => cached) isolated.kept
      exact ⟨homes, fun _ _ home => home, framed.goes_on here
        (fun c context => framed.entered p _ c here context)
        (fun mine c opened => framed.opened p _ c here mine opened) rfl⟩
  | opens unasked =>
      exact ⟨homes, fun _ _ home => home, isolated.enter sound.orderly here unasked _⟩
  | joins pending cached =>
      refine ⟨homes, fun _ _ home => home, isolated.goes_on here ?_ (fun _ c opened => ?_) rfl⟩
      · rintro c ⟨⟩
        exact isolated.cached i _ cached
      · cases opened
  | calls c registered made => exact isolated.construct sound isolates here registered made
  | publishes c r => exact ⟨homes, fun _ _ home => home, isolated.publish sound here⟩
  | reads pending found published =>
      refine ⟨homes, fun _ _ home => home, isolated.goes_on here
        (fun c context => isolated.entered p _ c here context) (fun _ c opened => ?_) rfl⟩
      cases opened

/-- A resolution of the identity ends as promised, and one of another with an instance of its own. -/
theorem of_done (isolated : Isolated catalog first identity homes asks s)
    (sound : Ask.Sound base asks s) (here : asks[p]? = some a) {ds : List (Deed K)}
    {v : Except Fault (Option Nat)} (stands : a.Stands catalog ds (.done v)) :
    Owned (first.promise catalog) homes identity a.identity v := by
  have fits := sound.fits p a here
  obtain ⟨i, spot⟩ := a
  rcases stands.of_done with ⟨_, unregistered, _, rfl⟩ | ⟨c, r, b, rfl, _, _, _, rfl⟩ |
    ⟨c, pending, o, rfl, registered, _, rfl⟩
  · by_cases mine : i = identity
    · subst mine
      have unregistered' : catalog.backend? i = none := unregistered
      exact .mine (by simp [Kept, Session.promise, unregistered'])
    · exact .foreign mine fun k ended => by cases ended
  · exact (isolated.answered p _ r here rfl).2
  · obtain ⟨y, found, rfl, published⟩ := fits
    exact isolated.kept c y o (isolated.entered p _ c here rfl) found published registered

/-- A call on any instance, be it of the identity or of another. -/
theorem call (isolated : Isolated catalog first identity homes asks s) {k : Nat} {action : Action K}
    {r : action.Answer} {thread : String} (target : action.target? = some k)
    (within : action.Within catalog.Uses)
    (performed : Session.perform true thread action s = some (r, s')) :
    Isolated catalog first identity homes asks s' := by
  have goes (unknown : first.known identity = none)
      (uncalled : ∀ (p : Nat) (a : Ask), asks[p]? = some a → a.identity = identity →
        a.spot.answer? = none) : Session.Around catalog identity first s' :=
    (isolated.around unknown uncalled).call target within performed
  obtain ⟨y, own', shared, log, found, taken, rfl⟩ := of_perform_call target performed
  have inside := (List.getElem?_eq_some_iff.mp found).1
  constructor
  case housed =>
    intro k' i home
    obtain ⟨x, own, promised, found', reached⟩ := isolated.housed k' i home
    by_cases same : k = k'
    · subst same
      obtain rfl := Option.some.inj (found'.symm.trans found)
      exact ⟨x, own', promised, by simp [inside], reached.call action within taken⟩
    · exact ⟨x, own, promised, by rwa [List.getElem?_set_ne same], reached⟩
  case only => exact isolated.only
  case kept => exact isolated.kept
  case cached => exact isolated.cached
  case entered => exact isolated.entered
  case answered => exact isolated.answered
  case older => exact isolated.older
  case opened => exact isolated.opened
  case around => exact goes

theorem start (orderly : first.Orderly first.contexts.length)
    (isolates : first.Isolates catalog identity) (identities : List String) :
    Isolated catalog first identity
      (fun k i => i = identity ∧ (catalog.backend? i).isSome = true ∧ first.known i = some (.ok k))
      (identities.map (Ask.start catalog)) first := by
  have promised {o : Except Fault Nat} (registered : (catalog.backend? identity).isSome = true)
      (published : first.known identity = some o) :
      first.promise catalog identity =
        match o with
        | .error f => .error f
        | .ok k => Session.present first.instances[k]? := by
    obtain ⟨b, found⟩ := Option.isSome_iff_exists.mp registered
    simp only [Session.promise, found, published]
    cases o <;> rfl
  constructor
  case only => exact fun k i home => home.1
  case housed =>
    rintro k i ⟨rfl, registered, published⟩
    have inside : k < first.instances.length := by
      obtain ⟨c, _, found⟩ := Option.bind_eq_some_iff.mp published
      obtain ⟨y, at_c, outcome⟩ := Option.bind_eq_some_iff.mp found
      exact orderly.placed c y k at_c outcome
    refine ⟨first.instances[k], first.instances[k].own, ?_, List.getElem?_eq_getElem inside, .start⟩
    rw [promised registered published]
    simp [Session.present, inside]
  case kept =>
    intro c y o live found published registered
    rcases live with beyond | ⟨i, cached⟩
    · have inside := (List.getElem?_eq_some_iff.mp found).1
      omega
    · obtain ⟨z, found', same⟩ := orderly.cached i c cached
      obtain rfl := Option.some.inj (found.symm.trans found')
      subst same
      have known : first.known y.identity = some o := by
        simp only [Session.known, cached, Option.bind_some, found, published]
      by_cases mine : y.identity = identity
      · subst mine
        refine .mine ?_
        cases o with
        | error f => exact promised registered known
        | ok k => exact ⟨rfl, registered, known⟩
      · refine .foreign mine fun k told home => mine (isolates.apart _ k home.2.2 ?_)
        cases o with
        | error f => cases told
        | ok k' =>
            cases told
            exact known
  case cached => exact fun i c cached => .inr ⟨i, cached⟩
  case entered =>
    intro p a c here context
    rw [(Ask.unbegun_of_start here).1] at context
    cases context
  case answered =>
    intro p a r here answered
    rw [(Ask.unbegun_of_start here).2] at answered
    cases answered
  case older => exact fun c cached => cached
  case opened =>
    intro p a c here _ opened
    have unopened := Spot.context?_of_opened? opened
    rw [(Ask.unbegun_of_start here).1] at unopened
    cases unopened
  case around => exact fun _ _ => .start

end Ask.Isolated

/-! ### Jobs -/

/-- The instance that an execution makes calls on is the one that its resolution ended with. -/
theorem Job.Stands.on_target {d : TestUnit K.Recipe × Bool} {a : Ask} {ds : List (Deed K)} {j : Job K}
    (stands : Job.Stands catalog replays d a ds j) {action : Action K}
    {next : action.Answer → Work K (Except Fault String)}
    (stage : j.stage = .running (Procedure.act action next)) {k : Nat}
    (target : action.target? = some k) : ∃ ds', a.Stands catalog ds' (.done (.ok (some k))) := by
  cases stands with
  | @running u _ ds es i w stands stint =>
      cases stage
      refine ⟨ds, ?_⟩
      generalize whole : Procedure.act action next = work at stint
      cases stint with
      | acquiring =>
          rw [execute_eq] at whole
          cases whole
          cases target
      | @replaying _ w plays =>
          cases w with
          | done rendered =>
              cases whole
              cases target
          | act action' g =>
              cases whole
              obtain ⟨k', rfl, target', _⟩ := plays.step
              obtain rfl := Option.some.inj (target'.symm.trans target)
              exact stands
      | judging plays =>
          cases whole
          cases target
      | judged plays => cases whole
  | _ => cases stage

/-- A step of a job keeps what holds from the view of one identity. -/
theorem Ask.Isolated.effect {first s s' : Session K} {identity backend : String}
    {homes : Nat → String → Prop} {asks : List Ask} {p : Nat} {a a' : Ask}
    (isolated : Isolated catalog first identity homes asks s)
    (sound : Ask.Sound first.contexts.length asks s) (isolates : first.Isolates catalog identity)
    (here : asks[p]? = some a) {ds : List (Deed K)} {j : Job K} {d : Option (Deed K)}
    (effect : Job.Effect catalog backend a ds j s d a' s')
    (within : ∀ w, j.stage = .running w → w.Every (·.Within catalog.Uses)) :
    ∃ homes' : Nat → String → Prop, (∀ k i, homes k i → homes' k i) ∧
      Isolated catalog first identity homes' (asks.set p a') s' := by
  have locks (busy : List String) (log : Array Record) :
      Isolated catalog first identity homes asks { s with busy, log } :=
    isolated.frame rfl rfl isolated.cached (fun _ cached => cached) isolated.kept
  cases effect with
  | logs log =>
      rw [set_of_getElem? here]
      exact ⟨homes, fun _ _ home => home, locks s.busy log⟩
  | asks _ moves => exact isolated.move sound isolates here moves
  | executes stage moves _ =>
      rw [set_of_getElem? here]
      refine ⟨homes, fun _ _ home => home, ?_⟩
      cases moves with
      | writes r thread => exact locks s.busy _
      | acquires free => exact locks _ s.log
      | releases => exact locks _ s.log
      | calls on target performed =>
          cases within _ stage with
          | act within _ => exact isolated.call target within performed

/-- The jobs of other backends touch no instance of the identity. -/
theorem Ask.Isolated.untouched {first s s' : Session K} {identity : String}
    {homes : Nat → String → Prop} {asks : List Ask} {p : Nat} {a a' : Ask}
    (isolated : Isolated catalog first identity homes asks s)
    (sound : Ask.Sound base asks s) (here : asks[p]? = some a)
    {d : TestUnit K.Recipe × Bool} {ds : List (Deed K)} {j : Job K} {deed : Option (Deed K)}
    (stands : Job.Stands catalog replays d a ds j) (mine : a.identity = d.1.key.backend)
    (other : d.1.key.backend ≠ identity)
    (effect : Job.Effect catalog d.1.key.backend a ds j s deed a' s') {k : Nat} {x : Instance K}
    (home : homes k identity) (found : s.instances[k]? = some x) : s'.instances[k]? = some x := by
  cases effect with
  | logs log => exact found
  | asks _ moves => exact moves.instances found
  | executes stage moves _ =>
      cases moves with
      | @calls _ _ _ k' _ on target performed =>
          obtain ⟨ds', ended⟩ := stands.on_target stage target
          have apart := (isolated.of_done sound here ended).apart (mine ▸ other) rfl
          obtain ⟨y, own, shared, log, _, _, rfl⟩ := of_perform_call target performed
          have elsewhere : k' ≠ k := fun same => apart (same ▸ home)
          rwa [List.getElem?_set_ne elsewhere]
      | _ => exact found

/-! ### Pools -/

/-- The jobs are tracked and transform by known recipes only, and those of one identity are on the way
to what was foretold. -/
structure Pool.Isolated (catalog : Catalog K) (replays : Nat) (first : Session K) (identity : String)
    (units : List (TestUnit K.Recipe × Bool)) (t : List (Nat × Option (Deed K))) (x : Pool K)
    (asks : List Ask) (homes : Nat → String → Prop) : Prop where
  tracked : Tracked catalog replays first.contexts.length units t x asks
  isolated : Ask.Isolated catalog first identity homes asks x.session
  within : ∀ (p : Nat) (j : Job K) (w : Work K (Except Fault String)), x.jobs[p]? = some j →
    j.stage = .running w → w.Every (·.Within catalog.Uses)
  expected : ∀ (p : Nat) (d : TestUnit K.Recipe × Bool) (j : Job K), units[p]? = some d →
    x.jobs[p]? = some j → d.1.key.backend = identity →
    j.Expected catalog replays first homes x.session d (gripping (deeds p t))

/-- A step of a job leaves it with known recipes. -/
theorem Job.Stands.within {d : TestUnit K.Recipe × Bool} {a : Ask} {ds : List (Deed K)}
    {j j' : Job K} {s s' : Session K} {deed : Option (Deed K)}
    (stands : Job.Stands catalog replays d a ds j) (used : catalog.Uses d.1.scenario.recipe)
    (within : ∀ w, j.stage = .running w → w.Every (·.Within catalog.Uses))
    (goes : j.Step catalog replays s deed j' s') (w : Work K (Except Fault String))
    (stage : j'.stage = .running w) : w.Every (·.Within catalog.Uses) := by
  cases goes with
  | obtains u i =>
      cases stage
      cases stands with
      | resolving stands =>
          refine (Work.Every.execute _ _ _ _).mono fun action such => ?_
          exact Action.Within.mono such.2 fun r same => same ▸ used
  | executes thread performed =>
      cases stage
      cases within _ rfl with
      | act _ goes => exact goes _
  | _ => cases stage

namespace Pool.Isolated

variable {first : Session K} {identity : String} {units : List (TestUnit K.Recipe × Bool)}
  {t : List (Nat × Option (Deed K))} {x y : Pool K} {asks : List Ask} {homes : Nat → String → Prop}

theorem step (isolated : Isolated catalog replays first identity units t x asks homes)
    (isolates : first.Isolates catalog identity) (fresh : ∀ d ∈ units, d.1.IsFresh)
    (used : ∀ d ∈ units, catalog.Uses d.1.scenario.recipe) {l : Nat × Option (Deed K)}
    (step : Step catalog replays workers x l y) :
    ∃ asks' homes', Isolated catalog replays first identity units (t ++ [l]) y asks' homes' := by
  cases step with
  | @step p j j' d s here goes turn =>
      obtain ⟨u, runs, a, a', planned, asked, mine, stands, effect, tracked'⟩ :=
        isolated.tracked.goes_on fresh here goes
      have sound := isolated.tracked.sound
      have recipe := used _ (List.mem_of_getElem? planned)
      have within (w : Work K (Except Fault String)) (stage : j.stage = .running w) :
          w.Every (·.Within catalog.Uses) := isolated.within p j w here stage
      obtain ⟨homes', wider, isolated'⟩ :=
        isolated.isolated.effect sound isolates asked effect within
      have moved : u.key.backend = identity →
          j'.Expected catalog replays first homes s (u, runs)
              (gripping (deeds p t ++ d.toList.filter (!·.isWrite))) ∧
            ∀ k x', x.session.instances[k]? = some x' → s.instances[k]? = some x' ∨
              gripping (deeds p t) = true ∧ homes k u.key.backend := by
        rintro rfl
        exact (isolated.expected p _ j planned here rfl).goes_on isolated.isolated.houses
          isolates.restarts recipe mine
          (fun ds v ended => (isolated.isolated.of_done sound asked ended).kept mine) stands goes
          effect
      refine ⟨asks.set p a', homes', tracked', isolated', ?_, ?_⟩
      · intro q i w there stage
        rcases getElem?_set_cases there with ⟨rfl, rfl⟩ | ⟨_, there⟩
        · exact stands.within recipe within goes w stage
        · exact isolated.within q i w there stage
      · intro q d' i planned' there yours
        rcases getElem?_set_cases there with ⟨rfl, rfl⟩ | ⟨other, there⟩
        · obtain rfl := Option.some.inj (planned.symm.trans planned')
          rw [deeds_snoc_self]
          exact (moved yours).1.others wider fun _ _ _ _ found => found
        · rw [deeds_snoc_of_ne other]
          refine (isolated.expected q d' i planned' there yours).others wider
            fun held k x' home found => ?_
          by_cases same : u.key.backend = identity
          · rcases (moved same).2 k x' found with stays | ⟨held', _⟩
            · exact stays
            · -- Both would hold the backend of the identity.
              refine absurd (isolated.tracked.locks.sole p q identity ?_ ?_) other
              · simp [holding, planned, held', same]
              · simp [holding, planned', held, yours]
          · exact isolated.isolated.untouched sound asked stands mine same effect (yours ▸ home) found

theorem run (isolated : Isolated catalog replays first identity units t x asks homes)
    (isolates : first.Isolates catalog identity) (fresh : ∀ d ∈ units, d.1.IsFresh)
    (used : ∀ d ∈ units, catalog.Uses d.1.scenario.recipe) {t' : List (Nat × Option (Deed K))}
    (run : Run catalog replays workers x t' y) :
    ∃ asks' homes', Isolated catalog replays first identity units (t ++ t') y asks' homes' := by
  induction run generalizing t asks homes with
  | nil x => exact ⟨asks, homes, by simpa using isolated⟩
  | cons step _ ih =>
      obtain ⟨asks', homes', isolated'⟩ := isolated.step isolates fresh used step
      obtain ⟨asks'', homes'', isolated''⟩ := ih isolated'
      exact ⟨asks'', homes'', by simpa using isolated''⟩

theorem start (replays : Nat) {s : Session K} (quiet : s.Quiet)
    (isolates : s.Isolates catalog identity) (fresh : ∀ d ∈ units, d.1.IsFresh) :
    ∃ asks homes, Isolated catalog replays s identity units [] ⟨units.map Job.start, s⟩ asks
      homes := by
  refine ⟨_, _, .start catalog replays units quiet.orderly quiet.idle,
    .start quiet.orderly isolates _, ?_, fun _ _ _ planned here _ => .start fresh planned here⟩
  intro p j w here stage
  rw [List.getElem?_map] at here
  obtain ⟨⟨u, runs⟩, _, rfl⟩ := Option.map_eq_some_iff.mp here
  cases runs <;> cases stage

/-- When all jobs are over, what was foretold is reported on the units of the identity. -/
theorem result (isolated : Isolated catalog replays first identity units t x asks homes)
    (complete : x.Complete) {p : Nat} {d : TestUnit K.Recipe × Bool} (planned : units[p]? = some d)
    (mine : d.1.key.backend = identity) :
    ∃ j, x.jobs[p]? = some j ∧ j.unit.result = foretold catalog replays first d := by
  obtain ⟨a, j, _, here, _, _⟩ := isolated.tracked.stands p d planned
  have finished := complete j (List.mem_of_getElem? here)
  have ended := isolated.expected p d j planned here mine
  refine ⟨j, here, ?_⟩
  cases ended with
  | finished reported => exact reported
  | _ => cases finished

end Pool.Isolated

end Concord
