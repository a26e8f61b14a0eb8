import Concord.Proofs.Restart
import Concord.Proofs.Launch
/-!
What resolutions come to where the supplied code keeps to itself. When a run begins, every identity
has a promise: a fault, or an instance as it is then. The promise is kept whoever constructs first and
whatever the other workers do meanwhile, and every instance belongs to one identity and is in a state
that calls lead to.
-/

namespace Concord

variable {K : Kit} {catalog : Catalog K}

namespace Session

/-- An instance, or the fault of using none. -/
def present : Option (Instance K) → Except Fault (Instance K)
  | some x => .ok x
  | none => .error noInstance

/-- What the resolution of an identity comes to in a run that begins in this session. -/
def promise (s : Session K) (catalog : Catalog K) (identity : String) : Except Fault (Instance K) :=
  match catalog.backend? identity, s.known identity with
  | none, _ => .error (.unregistered identity)
  | some _, some (.error f) => .error f
  | some _, some (.ok k) => present s.instances[k]?
  | some b, none =>
      match (b.construct s.shared).result with
      | .error f => .error (publishedFailure identity f)
      | .ok x => present x

/-- Where nothing is known of an identity, it has to be constructed. -/
theorem promise_of_unknown {s : Session K} {identity : String} (unknown : s.known identity = none)
    (catalog : Catalog K) :
    s.promise catalog identity =
      match catalog.backend? identity with
      | none => .error (.unregistered identity)
      | some b =>
          match (b.construct s.shared).result with
          | .error f => .error (publishedFailure identity f)
          | .ok x => present x := by
  unfold promise
  rw [unknown]
  cases catalog.backend? identity <;> rfl

theorem constructed_of_promise {s : Session K} {identity : String}
    (unknown : s.known identity = none) {x : Instance K}
    (promised : s.promise catalog identity = .ok x) :
    ∃ b, catalog.backend? identity = some b ∧ (b.construct s.shared).result = .ok (some x) := by
  rw [promise_of_unknown unknown] at promised
  cases registered : catalog.backend? identity with
  | none =>
      rw [registered] at promised
      cases promised
  | some b =>
      refine ⟨b, rfl, ?_⟩
      simp only [registered] at promised
      cases made : (b.construct s.shared).result with
      | error f =>
          rw [made] at promised
          cases promised
      | ok y =>
          rw [made] at promised
          cases y <;> cases promised
          rfl

/-- The shared states that a run can lead to before it calls the constructor of an identity: by other
constructors, and by calls on the promised instances. -/
inductive Aside (catalog : Catalog K) (promise : String → Except Fault (Instance K))
    (identity : String) (first : K.Shared) : K.Shared → Prop
  | start : Aside catalog promise identity first first
  | construct {b : Backend K} {t : K.Shared} (aside : Aside catalog promise identity first t)
      (registered : catalog.backend? b.identity = some b) (other : b.identity ≠ identity) :
      Aside catalog promise identity first (b.construct t).shared
  | call {i : String} {x : Instance K} {own own' : K.Own} {t t' : K.Shared} {action : Action K}
      {r : action.Answer} (aside : Aside catalog promise identity first t)
      (promised : promise i = .ok x) (reached : x.parser.Reached catalog.Uses x.own own)
      (within : action.Within catalog.Uses)
      (taken : x.parser.take own t action = some (r, own', t')) :
      Aside catalog promise identity first t'

/-- The supplied code keeps to itself: no instance is shared by two identities, a constructor returns
a parser or raises an ordinary fault and does so whatever happens aside, and a reset makes a parser
forget what it was asked before. -/
structure Independent (s : Session K) (catalog : Catalog K) : Prop where
  apart : ∀ i j k, s.known i = some (.ok k) → s.known j = some (.ok k) → i = j
  returns : ∀ i b, catalog.backend? i = some b → s.known i = none →
    (∃ x, (b.construct s.shared).result = .ok (some x)) ∨
      ∃ f, (b.construct s.shared).result = .error f ∧ f.isOrdinary = true
  unmoved : ∀ i b t, catalog.backend? i = some b → s.known i = none →
    Aside catalog (s.promise catalog) i s.shared t →
    (b.construct t).result = (b.construct s.shared).result
  restarts : ∀ i x, s.promise catalog i = .ok x → x.parser.Restarts catalog.Uses x.own

end Session

def Spot.answer? : Spot → Option (Except Fault (Option Nat))
  | .called _ r | .built _ r => some r
  | _ => none

theorem Ask.unbegun_of_start {identities : List String} {p : Nat} {a : Ask}
    (here : (identities.map (Ask.start catalog))[p]? = some a) :
    a.spot.context? = none ∧ a.spot.answer? = none := by
  rw [List.getElem?_map] at here
  obtain ⟨i, _, rfl⟩ := Option.map_eq_some_iff.mp here
  rcases Ask.spot_start catalog i with spot | spot <;> rw [spot] <;> exact ⟨rfl, rfl⟩

/-- A resolution ends as promised: with the fault, or with an instance that belongs to the identity. -/
def Kept (promise : String → Except Fault (Instance K)) (homes : Nat → String → Prop)
    (identity : String) : Except Fault (Option Nat) → Prop
  | .ok (some k) => homes k identity
  | .ok none => False
  | .error f => promise identity = .error f

theorem Kept.mono {promise : String → Except Fault (Instance K)} {homes homes' : Nat → String → Prop}
    {identity : String} {v : Except Fault (Option Nat)} (kept : Kept promise homes identity v)
    (grown : ∀ k i, homes k i → homes' k i) : Kept promise homes' identity v := by
  match v with
  | .ok (some k) => exact grown k identity kept
  | .ok none => exact kept
  | .error f => exact kept

/-- Whoever reads a constructor's answer is told what its caller is told. -/
theorem Kept.reading {promise : String → Except Fault (Instance K)} {homes : Nat → String → Prop}
    {identity : String} {r : Except Fault (Option Nat)} (contained : Contained r)
    (kept : Kept promise homes identity (delivery identity r)) :
    Kept promise homes identity ((Concord.reading identity r).map some) := by
  match r with
  | .ok (some k) => exact kept
  | .ok none => exact kept.elim
  | .error f =>
      have delivered : delivery identity (.error f) = .error (publishedFailure identity f) := by
        simp [delivery, contained f rfl]
      rw [delivered] at kept
      exact kept

/-! ### Instances and their homes -/

/-- Every instance that has a home is the promised one of its identity, in a state that calls lead
to. -/
structure Session.Houses (s : Session K) (catalog : Catalog K)
    (promise : String → Except Fault (Instance K)) (homes : Nat → String → Prop) : Prop where
  sole : ∀ k i j, homes k i → homes k j → i = j
  housed : ∀ k i, homes k i → ∃ x own, promise i = .ok x ∧
    s.instances[k]? = some ⟨x.parser, own⟩ ∧ x.parser.Reached catalog.Uses x.own own

/-- What a constructor that keeps its promise answers, and the instances after that. -/
inductive Session.Delivers (s : Session K) (promise : String → Except Fault (Instance K))
    (identity : String) : Except Fault (Option Nat) → List (Instance K) → Prop
  | raises {f : Fault} (ordinary : f.isOrdinary = true)
      (promised : promise identity = .error (publishedFailure identity f)) :
      Delivers s promise identity (.error f) s.instances
  | returns {x : Instance K} (promised : promise identity = .ok x) :
      Delivers s promise identity (.ok (some s.instances.length)) (s.instances ++ [x])

/-- The homes after a constructor has answered. -/
def housing (homes : Nat → String → Prop) (identity : String) (r : Except Fault (Option Nat))
    (k : Nat) (i : String) : Prop :=
  homes k i ∨ r = .ok (some k) ∧ i = identity

/-- A constructor that answers as it would have answered at first keeps its promise. -/
theorem Session.delivers (first : Session K) {s s' : Session K} {identity : String} {b : Backend K}
    (registered : catalog.backend? identity = some b) (unknown : first.known identity = none)
    (returns : (∃ x, (b.construct first.shared).result = .ok (some x)) ∨
      ∃ f, (b.construct first.shared).result = .error f ∧ f.isOrdinary = true)
    (unmoved : (b.construct s.shared).result = (b.construct first.shared).result)
    {r : Except Fault (Option Nat)} (made : s.construct true b = some (r, s')) :
    ∃ instances, s' = { s with shared := (b.construct s.shared).shared, instances } ∧
      s.Delivers (first.promise catalog) identity r instances := by
  obtain ⟨instances, same, answer⟩ := Session.construct_cases made
  refine ⟨instances, same, ?_⟩
  rw [unmoved] at answer
  rcases returns with ⟨x, returned⟩ | ⟨f, raised, ordinary⟩
  · rw [returned] at answer
    rcases answer with ⟨_, impossible, _⟩ | ⟨impossible, _⟩ | ⟨y, built, rfl, rfl⟩
    · cases impossible
    · cases impossible
    · cases built
      exact .returns (by simp [promise, registered, unknown, returned, present])
  · rw [raised] at answer
    rcases answer with ⟨g, failed, rfl, rfl⟩ | ⟨impossible, _⟩ | ⟨_, impossible, _⟩
    · cases failed
      exact .raises ordinary (by simp [promise, registered, unknown, raised])
    · cases impossible
    · cases impossible

namespace Session.Delivers

variable {s : Session K} {promise : String → Except Fault (Instance K)} {identity : String}
  {r : Except Fault (Option Nat)} {instances : List (Instance K)}

theorem stays (delivers : s.Delivers promise identity r instances) {k : Nat} {x : Instance K}
    (found : s.instances[k]? = some x) : instances[k]? = some x := by
  cases delivers with
  | raises => exact found
  | returns => rwa [List.getElem?_append_left (List.getElem?_eq_some_iff.mp found).1]

theorem new (delivers : s.Delivers promise identity r instances) {k : Nat}
    (gave : r = .ok (some k)) : k = s.instances.length ∧
      ∃ x, promise identity = .ok x ∧ instances[k]? = some x := by
  cases delivers with
  | raises => cases gave
  | returns promised =>
      cases gave
      exact ⟨rfl, _, promised, by simp⟩

theorem kept (delivers : s.Delivers promise identity r instances) (homes : Nat → String → Prop) :
    Contained r ∧ Kept promise (housing homes identity r) identity (delivery identity r) := by
  cases delivers with
  | raises ordinary promised =>
      refine ⟨?_, ?_⟩
      · rintro g ⟨⟩
        exact ordinary
      · simpa [delivery, ordinary, Kept] using promised
  | returns promised =>
      refine ⟨?_, .inr ⟨rfl, rfl⟩⟩
      rintro g ⟨⟩

end Session.Delivers

namespace Session.Houses

variable {s s' : Session K} {promise : String → Except Fault (Instance K)}
  {homes : Nat → String → Prop}

/-- An instance that a constructor makes gets a home. -/
theorem construct (houses : s.Houses catalog promise homes) {identity : String}
    {r : Except Fault (Option Nat)} {instances : List (Instance K)}
    (delivers : s.Delivers promise identity r instances) (shared : K.Shared) :
    ({ s with shared, instances } : Session K).Houses catalog promise
      (housing homes identity r) := by
  have old {k : Nat} {i : String} (home : homes k i) : k < s.instances.length := by
    obtain ⟨x, own, _, found, _⟩ := houses.housed k i home
    exact (List.getElem?_eq_some_iff.mp found).1
  constructor
  case sole =>
    rintro k i j (home | ⟨made, rfl⟩) (home' | ⟨made', rfl⟩)
    · exact houses.sole k i j home home'
    · exact absurd (old home) (by simp [(delivers.new made').1])
    · exact absurd (old home') (by simp [(delivers.new made).1])
    · rfl
  case housed =>
    rintro k i (home | ⟨made, rfl⟩)
    · obtain ⟨x, own, promised, found, reached⟩ := houses.housed k i home
      exact ⟨x, own, promised, delivers.stays found, reached⟩
    · obtain ⟨_, x, promised, found⟩ := delivers.new made
      exact ⟨x, x.own, promised, found, .start⟩

/-- A call on an instance leads it to a state that calls lead to. -/
theorem call (houses : s.Houses catalog promise homes) {k : Nat} {i : String} (home : homes k i)
    {action : Action K} {r : action.Answer} {thread : String} (target : action.target? = some k)
    (within : action.Within catalog.Uses)
    (performed : Session.perform true thread action s = some (r, s')) :
    s'.Houses catalog promise homes ∧
      ∃ x own own' shared log, promise i = .ok x ∧ s.instances[k]? = some ⟨x.parser, own⟩ ∧
        x.parser.Reached catalog.Uses x.own own ∧
        x.parser.take own s.shared action = some (r, own', shared) ∧
        s' = { s with shared, instances := s.instances.set k ⟨x.parser, own'⟩, log } := by
  obtain ⟨x, own, promised, found, reached⟩ := houses.housed k i home
  obtain ⟨y, own', shared, log, found', taken, rfl⟩ := of_perform_call target performed
  obtain rfl := Option.some.inj (found.symm.trans found')
  refine ⟨⟨houses.sole, fun k' j home' => ?_⟩,
    x, own, own', shared, log, promised, found, reached, taken, rfl⟩
  have inside := (List.getElem?_eq_some_iff.mp found).1
  by_cases same : k = k'
  · subst same
    obtain rfl := houses.sole k i j home home'
    exact ⟨x, own', promised, by simp [inside], reached.call action within taken⟩
  · obtain ⟨y, own₁, promised', found₁, reached'⟩ := houses.housed k' j home'
    exact ⟨y, own₁, promised', by rwa [List.getElem?_set_ne same], reached'⟩

end Session.Houses

/-! ### Resolutions -/

/-- What holds while resolutions go on: `homes` tells which instance belongs to which identity. -/
structure Ask.Housed (catalog : Catalog K) (first : Session K) (homes : Nat → String → Prop)
    (asks : List Ask) (s : Session K) : Prop where
  sole : ∀ k i j, homes k i → homes k j → i = j
  housed : ∀ k i, homes k i → ∃ x own, first.promise catalog i = .ok x ∧
    s.instances[k]? = some ⟨x.parser, own⟩ ∧ x.parser.Reached catalog.Uses x.own own
  kept : ∀ i o, (catalog.backend? i).isSome = true → s.known i = some o →
    Kept (first.promise catalog) homes i (o.map some)
  older : ∀ i c, first.cache.lookup i = some c → s.cache.lookup i = some c
  opened : ∀ (p : Nat) (a : Ask) (c : Nat), asks[p]? = some a → a.spot.opened? = some c →
    first.known a.identity = none
  current : ∀ (p : Nat) (a : Ask) (c : Nat), asks[p]? = some a → a.spot.context? = some c →
    s.cache.lookup a.identity = some c
  answered : ∀ (p : Nat) (a : Ask) (r : Except Fault (Option Nat)), asks[p]? = some a →
    a.spot.answer? = some r →
    Contained r ∧ Kept (first.promise catalog) homes a.identity (delivery a.identity r)
  aside : ∀ i, first.known i = none →
    (∀ (p : Nat) (a : Ask), asks[p]? = some a → a.identity = i → a.spot.answer? = none) →
    Session.Aside catalog (first.promise catalog) i first.shared s.shared

namespace Ask.Housed

variable {first s s' : Session K} {homes : Nat → String → Prop} {asks : List Ask} {p : Nat} {a : Ask}

theorem houses (housed : Housed catalog first homes asks s) :
    s.Houses catalog (first.promise catalog) homes := ⟨housed.sole, housed.housed⟩

/-- Whatever leaves the instances and the shared state alone and keeps what is cached. -/
theorem frame (housed : Housed catalog first homes asks s) (instances : s'.instances = s.instances)
    (shared : s'.shared = s.shared)
    (cache : ∀ i c, s.cache.lookup i = some c → s'.cache.lookup i = some c)
    (kept : ∀ i o, (catalog.backend? i).isSome = true → s'.known i = some o →
      Kept (first.promise catalog) homes i (o.map some)) :
    Housed catalog first homes asks s' := by
  constructor
  case sole => exact housed.sole
  case housed =>
    rw [instances]
    exact housed.housed
  case kept => exact kept
  case older => exact fun i c cached => cache i c (housed.older i c cached)
  case opened => exact housed.opened
  case current => exact fun p a c here context => cache _ c (housed.current p a c here context)
  case answered => exact housed.answered
  case aside =>
    rw [shared]
    exact housed.aside

theorem goes_on (housed : Housed catalog first homes asks s) (here : asks[p]? = some a) {spot : Spot}
    (opened : ∀ c, spot.opened? = some c → first.known a.identity = none)
    (current : ∀ c, spot.context? = some c → s.cache.lookup a.identity = some c)
    (answer : spot.answer? = a.spot.answer?) :
    Housed catalog first homes (asks.set p ⟨a.identity, spot⟩) s := by
  have inside : p < asks.length := (List.getElem?_eq_some_iff.mp here).1
  constructor
  case sole => exact housed.sole
  case housed => exact housed.housed
  case kept => exact housed.kept
  case older => exact housed.older
  case opened =>
    intro q a' c there opens
    rcases getElem?_set_cases there with ⟨rfl, rfl⟩ | ⟨_, there⟩
    · exact opened c opens
    · exact housed.opened q a' c there opens
  case current =>
    intro q a' c there context
    rcases getElem?_set_cases there with ⟨rfl, rfl⟩ | ⟨_, there⟩
    · exact current c context
    · exact housed.current q a' c there context
  case answered =>
    intro q a' r there answered
    rcases getElem?_set_cases there with ⟨rfl, rfl⟩ | ⟨_, there⟩
    · exact housed.answered _ a r here (answer ▸ answered)
    · exact housed.answered q a' r there answered
  case aside =>
    intro i unknown uncalled
    refine housed.aside i unknown fun q a' there same => ?_
    by_cases moved : p = q
    · subst moved
      obtain rfl := Option.some.inj (here.symm.trans there)
      rw [← answer]
      exact uncalled p ⟨a.identity, spot⟩ (by simp [inside]) same
    · exact uncalled q a' (by rwa [List.getElem?_set_ne moved]) same

theorem enter {base : Nat} (housed : Housed catalog first homes asks s) (orderly : s.Orderly base)
    {identity : String} (here : asks[p]? = some ⟨identity, .asking⟩)
    (unasked : s.cache.lookup identity = none) (begun : List String) :
    Housed catalog first homes (asks.set p ⟨identity, .entered s.contexts.length⟩)
      { s with
        contexts := s.contexts ++ [{ identity }]
        cache := (identity, s.contexts.length) :: s.cache
        begun } := by
  have older {i : String} {c : Nat} (cached : s.cache.lookup i = some c) : i ≠ identity := by
    rintro rfl
    rw [unasked] at cached
    cases cached
  have framed : Housed catalog first homes asks
      { s with
        contexts := s.contexts ++ [{ identity }]
        cache := (identity, s.contexts.length) :: s.cache
        begun } := by
    refine housed.frame rfl rfl (fun i c cached => ?_) fun i o registered known => ?_
    · simpa only [List.lookup_cons, beq_false_of_ne (older cached)] using cached
    · obtain ⟨c, cached, found⟩ := Option.bind_eq_some_iff.mp known
      obtain ⟨y, at_c, published⟩ := Option.bind_eq_some_iff.mp found
      by_cases same : i = identity
      · -- The context that was just opened is not published.
        subst same
        obtain rfl : s.contexts.length = c := by simpa using cached
        obtain rfl : { identity := i } = y := by simpa using at_c
        cases published
      · have cached' : s.cache.lookup i = some c := by
          simpa only [List.lookup_cons, beq_false_of_ne same] using cached
        obtain ⟨z, found', _⟩ := orderly.cached i c cached'
        have at_c' : s.contexts[c]? = some y := by
          rw [← at_c]
          exact (List.getElem?_append_left (List.getElem?_eq_some_iff.mp found').1).symm
        refine housed.kept i o registered ?_
        simp only [Session.known, cached', Option.bind_some, at_c', published]
  refine framed.goes_on here (fun c _ => ?_) (fun c context => ?_) rfl
  · cases cached : first.cache.lookup identity with
    | none => simp [Session.known, cached]
    | some c' => exact absurd rfl (older (housed.older identity c' cached))
  · cases context
    simp

theorem publish {base : Nat} (housed : Housed catalog first homes asks s)
    (sound : Ask.Sound base asks s) {identity : String} {c : Nat} {r : Except Fault (Option Nat)}
    (here : asks[p]? = some ⟨identity, .called c r⟩) :
    Housed catalog first homes (asks.set p ⟨identity, .built c r⟩)
      (s.publish c (publication identity r)) := by
  obtain ⟨pending, _⟩ := sound.fits p _ here
  obtain ⟨contained, kept⟩ := housed.answered p _ r here rfl
  have framed : Housed catalog first homes asks (s.publish c (publication identity r)) := by
    refine housed.frame rfl rfl (fun i c cached => cached) fun i o registered known => ?_
    obtain ⟨c', cached, found⟩ := Option.bind_eq_some_iff.mp known
    obtain ⟨y, at_c, published⟩ := Option.bind_eq_some_iff.mp found
    by_cases same : c = c'
    · subst same
      obtain ⟨z, found', mine⟩ := sound.orderly.cached i c cached
      obtain rfl := Option.some.inj (pending.symm.trans found')
      have now : y = Context.publish { identity } (publication identity r) := by
        simpa [Session.publish, pending] using at_c.symm
      rw [now, outcome?_publication] at published
      cases published
      exact mine ▸ Kept.reading contained kept
    · have at_c' : s.contexts[c']? = some y := by
        simpa [Session.publish, same] using at_c
      refine housed.kept i o registered ?_
      have cached' : s.cache.lookup i = some c' := cached
      simp only [Session.known, cached', Option.bind_some, at_c', published]
  exact framed.goes_on here (fun c' opened => housed.opened p _ c' here opened)
    (fun c' context => housed.current p _ c' here context) rfl

/-- Nobody else has called the constructor of an identity that is about to be constructed. -/
theorem uncalled {base : Nat} (housed : Housed catalog first homes asks s)
    (sound : Ask.Sound base asks s) {identity : String} {c : Nat}
    (here : asks[p]? = some ⟨identity, .entered c⟩) {q : Nat} {a' : Ask} (there : asks[q]? = some a')
    (same : a'.identity = identity) : a'.spot.answer? = none := by
  have cached := housed.current p _ c here rfl
  have alone (c' : Nat) (opened : a'.spot.opened? = some c') : q = p := by
    have cached' := housed.current q a' c' there (Spot.context?_of_opened? opened)
    rw [same, cached] at cached'
    cases cached'
    exact sound.once q p a' _ c there here opened rfl
  obtain ⟨i, spot⟩ := a'
  cases spot
  case called c' r =>
    obtain rfl := alone c' rfl
    rw [here] at there
    cases there
  case built c' r =>
    obtain rfl := alone c' rfl
    rw [here] at there
    cases there
  all_goals rfl

/-- Calling a constructor: it answers as promised, and an instance that it makes gets a home. -/
theorem construct {base : Nat} (housed : Housed catalog first homes asks s)
    (sound : Ask.Sound base asks s) (independent : first.Independent catalog) {identity : String}
    {c : Nat} (here : asks[p]? = some ⟨identity, .entered c⟩) {b : Backend K}
    (registered : catalog.backend? identity = some b) {r : Except Fault (Option Nat)}
    (made : s.construct true b = some (r, s')) :
    ∃ homes' : Nat → String → Prop, (∀ k i, homes k i → homes' k i) ∧
      Housed catalog first homes' (asks.set p ⟨identity, .called c r⟩) s' := by
  have unknown := housed.opened p _ c here rfl
  have unmoved : (b.construct s.shared).result = (b.construct first.shared).result := by
    refine independent.unmoved identity b s.shared registered unknown (housed.aside identity unknown ?_)
    exact fun q a' there same => housed.uncalled sound here there same
  obtain ⟨instances, rfl, delivers⟩ := first.delivers registered unknown
    (independent.returns identity b registered unknown) unmoved made
  have houses := housed.houses.construct delivers (b.construct s.shared).shared
  have grown (k : Nat) (i : String) (home : homes k i) : housing homes identity r k i := .inl home
  refine ⟨housing homes identity r, grown, ?_⟩
  constructor
  case sole => exact houses.sole
  case housed => exact houses.housed
  case kept =>
    intro i o registered known
    exact (housed.kept i o registered known).mono grown
  case older => exact housed.older
  case opened =>
    intro q a' c' there opened
    rcases getElem?_set_cases there with ⟨rfl, rfl⟩ | ⟨_, there⟩
    · exact housed.opened _ ⟨identity, .entered c⟩ c here rfl
    · exact housed.opened q a' c' there opened
  case current =>
    intro q a' c' there context
    rcases getElem?_set_cases there with ⟨rfl, rfl⟩ | ⟨_, there⟩
    · exact housed.current _ ⟨identity, .entered c⟩ c' here context
    · exact housed.current q a' c' there context
  case answered =>
    intro q a' r' there answered
    rcases getElem?_set_cases there with ⟨rfl, rfl⟩ | ⟨_, there⟩
    · cases answered
      exact delivers.kept homes
    · obtain ⟨contained, kept⟩ := housed.answered q a' r' there answered
      exact ⟨contained, kept.mono grown⟩
  case aside =>
    intro i unasked uncalled
    have inside : p < asks.length := (List.getElem?_eq_some_iff.mp here).1
    have other : identity ≠ i := by
      rintro rfl
      cases uncalled p ⟨identity, .called c r⟩ (by simp [inside]) rfl
    obtain rfl := Catalog.identity_of_backend? registered
    refine .construct (housed.aside i unasked fun q a' there same => ?_) registered other
    by_cases moved : p = q
    · subst moved
      obtain rfl := Option.some.inj (here.symm.trans there)
      exact absurd same other
    · exact uncalled q a' (by rwa [List.getElem?_set_ne moved]) same

theorem move {base : Nat} (housed : Housed catalog first homes asks s)
    (sound : Ask.Sound base asks s) (independent : first.Independent catalog)
    (here : asks[p]? = some a) {d : Deed K} {spot : Spot}
    (moves : Ask.Moves catalog a.identity s d a.spot spot s') :
    ∃ homes' : Nat → String → Prop, (∀ k i, homes k i → homes' k i) ∧
      Housed catalog first homes' (asks.set p ⟨a.identity, spot⟩) s' := by
  obtain ⟨identity, spot'⟩ := a
  cases moves with
  | writes _ r thread =>
      have framed : Housed catalog first homes asks (s.write thread [r]) :=
        housed.frame rfl rfl (fun _ _ cached => cached) housed.kept
      exact ⟨homes, fun _ _ home => home, framed.goes_on here
        (fun c opened => framed.opened p _ c here opened)
        (fun c context => framed.current p _ c here context) rfl⟩
  | opens unasked =>
      exact ⟨homes, fun _ _ home => home, housed.enter sound.orderly here unasked _⟩
  | joins pending cached =>
      refine ⟨homes, fun _ _ home => home, housed.goes_on here (fun c opened => ?_) ?_ rfl⟩
      · cases opened
      · rintro c ⟨⟩
        exact cached
  | calls c registered made => exact housed.construct sound independent here registered made
  | publishes c r => exact ⟨homes, fun _ _ home => home, housed.publish sound here⟩
  | reads pending found published =>
      refine ⟨homes, fun _ _ home => home, housed.goes_on here (fun c opened => ?_) ?_ rfl⟩
      · cases opened
      · exact fun c context => housed.current p _ c here context

theorem of_done {base : Nat} (housed : Housed catalog first homes asks s)
    (sound : Ask.Sound base asks s) (here : asks[p]? = some a) {ds : List (Deed K)}
    {v : Except Fault (Option Nat)} (stands : a.Stands catalog ds (.done v)) :
    Kept (first.promise catalog) homes a.identity v := by
  have fits := sound.fits p a here
  obtain ⟨identity, spot⟩ := a
  rcases stands.of_done with ⟨_, unregistered, _, rfl⟩ | ⟨c, r, b, rfl, _, _, _, rfl⟩ |
    ⟨c, pending, o, rfl, registered, _, rfl⟩
  · have unregistered' : catalog.backend? identity = none := unregistered
    simp [Kept, Session.promise, unregistered']
  · exact (housed.answered p _ r here rfl).2
  · obtain ⟨y, found, _, published⟩ := fits
    have cached := housed.current p _ c here rfl
    refine housed.kept identity o registered ?_
    simp only [Session.known, cached, Option.bind_some, found, published]

theorem call (housed : Housed catalog first homes asks s) {k : Nat} {i : String} (home : homes k i)
    {action : Action K} {r : action.Answer} {thread : String} (target : action.target? = some k)
    (within : action.Within catalog.Uses)
    (performed : Session.perform true thread action s = some (r, s')) :
    Housed catalog first homes asks s' := by
  obtain ⟨houses, x, own, own', shared, log, promised, found, reached, taken, rfl⟩ :=
    housed.houses.call home target within performed
  constructor
  case sole => exact houses.sole
  case housed => exact houses.housed
  case kept => exact housed.kept
  case older => exact housed.older
  case opened => exact housed.opened
  case current => exact housed.current
  case answered => exact housed.answered
  case aside =>
    intro j unknown uncalled
    exact .call (housed.aside j unknown uncalled) promised reached within taken

theorem start {base : Nat} (orderly : first.Orderly base) (independent : first.Independent catalog)
    (identities : List String) :
    Housed catalog first
      (fun k i => (catalog.backend? i).isSome = true ∧ first.known i = some (.ok k))
      (identities.map (Ask.start catalog)) first := by
  have known {i : String} {o : Except Fault Nat} (registered : (catalog.backend? i).isSome = true)
      (published : first.known i = some o) :
      first.promise catalog i =
        match o with
        | .error f => .error f
        | .ok k => Session.present first.instances[k]? := by
    obtain ⟨b, found⟩ := Option.isSome_iff_exists.mp registered
    simp only [Session.promise, found, published]
    cases o <;> rfl
  constructor
  case sole => exact fun k i j home home' => independent.apart i j k home.2 home'.2
  case housed =>
    rintro k i ⟨registered, published⟩
    have inside : k < first.instances.length := by
      obtain ⟨c, _, found⟩ := Option.bind_eq_some_iff.mp published
      obtain ⟨y, at_c, outcome⟩ := Option.bind_eq_some_iff.mp found
      exact orderly.placed c y k at_c outcome
    refine ⟨first.instances[k], first.instances[k].own, ?_, List.getElem?_eq_getElem inside, .start⟩
    rw [known registered published]
    simp [Session.present, inside]
  case kept =>
    intro i o registered published
    have promised := known registered published
    cases o with
    | error f => exact promised
    | ok k => exact ⟨registered, published⟩
  case older => exact fun i c cached => cached
  case opened =>
    intro p a c here opened
    have unopened := Spot.context?_of_opened? opened
    rw [(Ask.unbegun_of_start here).1] at unopened
    cases unopened
  case current =>
    intro p a c here context
    rw [(Ask.unbegun_of_start here).1] at context
    cases context
  case answered =>
    intro p a r here answered
    rw [(Ask.unbegun_of_start here).2] at answered
    cases answered
  case aside => exact fun i _ _ => .start

end Ask.Housed

end Concord
