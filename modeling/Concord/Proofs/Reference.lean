import Concord.Proofs.Launch
import Concord.Proofs.Replay
import Concord.Proofs.Resolver
import Mathlib.Logic.Function.Basic
/-!
A reference for whole runs. The reference knows no contexts, locks, moves or records: it goes through
the decided units in plan order with a bench on which every backend is constructed at most once,
and threads the states of parsers and recipes from one unit to the next. The main statement says
that a run with one worker and no deadline reports what the reference says.
-/

namespace Concord

variable {K : Kit}

/-! ### The reference -/

/-- What a run has made of its backends so far: how the construction of each ended, with the
instance as it stands now, and the state of the supplied code. -/
structure Bench (K : Kit) where
  shared : K.Shared
  made : String → Option (Except Fault (Option (Instance K))) := fun _ => none

namespace Bench

/-- Obtains a backend. It is constructed when it is first asked for; how that ended is kept. -/
def obtain (x : Bench K) (b : Backend K) : Except Fault (Option (Instance K)) × Bench K :=
  match x.made b.identity with
  | some known => (known, x)
  | none =>
      let built := b.construct x.shared
      let known := built.result.mapError fun f =>
        .construction b.identity f.described (some f.label)
      (known, ⟨built.shared, Function.update x.made b.identity (some known)⟩)

/-- Executes the scenario of a unit on its instance, which stays as the execution leaves it. -/
def execute (x : Bench K) (replays : Nat) (u : TestUnit K.Recipe) (i : Option (Instance K)) :
    Except Fault String × Bench K :=
  match i with
  | none => (.error noInstance, x)
  | some i =>
      let v := i.parser.verdict replays u.key u.scenario i.own x.shared
      (v.result,
        ⟨v.shared, Function.update x.made u.key.backend (some (.ok (some ⟨i.parser, v.own⟩)))⟩)

def attempt (catalog : Catalog K) (replays : Nat) (u : TestUnit K.Recipe) (x : Bench K) :
    Result × Bench K :=
  match catalog.backend? u.key.backend with
  | none => (u.unavailable .unregistered (.unregistered u.key.backend), x)
  | some b =>
      match x.obtain b with
      | (.error f, x) => (u.unavailable .construction f, x)
      | (.ok i, x) =>
          let (v, x) := x.execute replays u i
          (u.judged v, x)

def attemptAll (catalog : Catalog K) (replays : Nat) :
    List (TestUnit K.Recipe × Bool) → Bench K → List Result × Bench K
  | [], x => ([], x)
  | (u, false) :: us, x =>
      let (rs, x) := attemptAll catalog replays us x
      (u.rejected :: rs, x)
  | (u, true) :: us, x =>
      let (r, x) := x.attempt catalog replays u
      let (rs, x) := attemptAll catalog replays us x
      (r :: rs, x)

end Bench

/-! ### What supplied code is trusted with -/

/-- Every call, with recipes of one kind, returns or raises an ordinary fault. -/
structure Parser.WellBehaved (p : Parser K) (recipes : K.Recipe → Prop) : Prop where
  reset : ∀ o s, Contained (p.reset o s).result
  parse : ∀ t o s, Contained (p.parse t o s).result
  transform : ∀ t r o s, recipes r → Contained (p.transform t r o s).result
  print : ∀ t o s, Contained (p.print t o s).result
  diagnostics : ∀ t o s, Contained (p.diagnostics t o s).result

/-- The constructor returns a parser or raises an ordinary fault. -/
structure Backend.WellBehaved (b : Backend K) (recipes : K.Recipe → Prop) : Prop where
  contained : ∀ s, Contained (b.construct s).result
  parser : ∀ s x, (b.construct s).result = .ok x → ∃ i, x = some i ∧ i.parser.WellBehaved recipes

def Catalog.WellBehaved (c : Catalog K) : Prop := ∀ b ∈ c.backends, b.WellBehaved c.Uses

theorem Played.contained_andThen {α β : Type} {p : Played K α}
    {f : α → K.Own → K.Shared → Played K β} (first : Contained p.result)
    (next : ∀ v o s, Contained (f v o s).result) : Contained (p.andThen f).result := by
  intro e raised
  unfold Played.andThen at raised
  cases ended : p.result with
  | ok v => exact next v p.own p.shared e (by simpa only [ended] using raised)
  | error e' =>
      have same : e' = e := by simpa only [ended, Except.error.injEq] using raised
      exact first e (same ▸ ended)

namespace Parser.WellBehaved

variable {p : Parser K} {recipes : K.Recipe → Prop} {sc : Scenario K.Recipe}

theorem render (behaved : p.WellBehaved recipes) (used : recipes sc.recipe) (o : K.Own)
    (s : K.Shared) : Contained (p.render sc o s).result := by
  refine Played.contained_andThen (behaved.reset o s) fun _ o s => ?_
  refine Played.contained_andThen (behaved.parse _ o s) fun parsed o s => ?_
  refine Played.contained_andThen (behaved.transform _ _ o s used) fun tree o s => ?_
  refine Played.contained_andThen (behaved.print _ o s) fun text o s => ?_
  refine Played.contained_andThen (behaved.diagnostics _ o s) fun ds o s => ?_
  intro f raised
  cases raised

theorem replays (behaved : p.WellBehaved recipes) (used : recipes sc.recipe) (n : Nat) (o : K.Own)
    (s : K.Shared) : Contained (p.replays sc n o s).result := by
  induction n generalizing o s with
  | zero =>
      intro f raised
      cases raised
  | succ n ih =>
      refine Played.contained_andThen (behaved.render used o s) fun r o s => ?_
      refine Played.contained_andThen (ih o s) fun rs o s => ?_
      intro f raised
      cases raised

theorem verdict (behaved : p.WellBehaved recipes) (used : recipes sc.recipe) (n : Nat) (key : Key)
    (o : K.Own) (s : K.Shared) : Contained (p.verdict n key sc o s).result :=
  Played.contained_andThen (behaved.replays used n o s) fun rs _ _ => contained_judge key sc rs

end Parser.WellBehaved

/-! ### What a bench can hold -/

namespace Bench

variable {c : Catalog K} {x : Bench K}

theorem obtain_of_made {b : Backend K} {e : Except Fault (Option (Instance K))}
    (made : x.made b.identity = some e) : x.obtain b = (e, x) := by
  simp only [obtain, made]

theorem obtain_of_raised {b : Backend K} {f : Fault} (new : x.made b.identity = none)
    (raised : (b.construct x.shared).result = .error f) :
    x.obtain b =
      (.error (.construction b.identity f.described (some f.label)),
        ⟨(b.construct x.shared).shared, Function.update x.made b.identity
          (some (.error (.construction b.identity f.described (some f.label))))⟩) := by
  simp only [obtain, new, raised]
  rfl

theorem obtain_of_built {b : Backend K} {o : Option (Instance K)} (new : x.made b.identity = none)
    (built : (b.construct x.shared).result = .ok o) :
    x.obtain b =
      (.ok o, ⟨(b.construct x.shared).shared, Function.update x.made b.identity (some (.ok o))⟩) := by
  simp only [obtain, new, built]
  rfl

/-- What well-behaved constructors of a catalog make: a failure wraps what the constructor raised,
and everything else is a well-behaved parser. -/
structure Proper (c : Catalog K) (x : Bench K) : Prop where
  failed : ∀ identity f, x.made identity = some (.error f) →
    ∃ b s g, c.backend? identity = some b ∧ (b.construct s).result = .error g ∧
      f = .construction identity g.described (some g.label)
  made : ∀ identity o, x.made identity = some (.ok o) →
    ∃ i, o = some i ∧ i.parser.WellBehaved c.Uses

theorem Proper.update (proper : x.Proper c) (shared : K.Shared) {identity : String}
    {e : Except Fault (Option (Instance K))}
    (failed : ∀ f, e = .error f →
      ∃ b s g, c.backend? identity = some b ∧ (b.construct s).result = .error g ∧
        f = .construction identity g.described (some g.label))
    (made : ∀ o, e = .ok o → ∃ i, o = some i ∧ i.parser.WellBehaved c.Uses) :
    Proper c ⟨shared, Function.update x.made identity (some e)⟩ := by
  constructor
  · intro other f here
    by_cases same : other = identity
    · subst same
      simp only [Function.update_self, Option.some.injEq] at here
      exact failed f here
    · simp only [Function.update_of_ne same] at here
      exact proper.failed other f here
  · intro other o here
    by_cases same : other = identity
    · subst same
      simp only [Function.update_self, Option.some.injEq] at here
      exact made o here
    · simp only [Function.update_of_ne same] at here
      exact proper.made other o here

theorem made_obtain (x : Bench K) (b : Backend K) :
    (x.obtain b).2.made b.identity = some (x.obtain b).1 := by
  cases made : x.made b.identity with
  | some e =>
      rw [obtain_of_made made]
      exact made
  | none => simp only [obtain, made, Function.update_self]

theorem Proper.obtain (proper : x.Proper c) (behaved : c.WellBehaved) {b : Backend K}
    (registered : c.backend? b.identity = some b) : (x.obtain b).2.Proper c := by
  cases made : x.made b.identity with
  | some e =>
      rw [obtain_of_made made]
      exact proper
  | none =>
      have trusted := behaved b (List.mem_of_find?_eq_some registered)
      cases built : (b.construct x.shared).result with
      | error f =>
          rw [obtain_of_raised made built]
          refine proper.update _ ?_ ?_
          · intro g same
            exact ⟨b, x.shared, f, registered, built, (Except.error.inj same).symm⟩
          · intro o same
            cases same
      | ok o =>
          rw [obtain_of_built made built]
          refine proper.update _ ?_ ?_
          · intro g same
            cases same
          · intro o' same
            cases same
            exact trusted.parser x.shared o built

variable {u : TestUnit K.Recipe} {n : Nat} {b : Backend K}

theorem attempt_of_unregistered (unregistered : c.backend? u.key.backend = none) :
    x.attempt c n u = (u.unavailable .unregistered (.unregistered u.key.backend), x) := by
  simp only [attempt, unregistered]

theorem attempt_of_failed {f : Fault} (same : b.identity = u.key.backend)
    (registered : c.backend? b.identity = some b) (failed : (x.obtain b).1 = .error f) :
    x.attempt c n u = (u.unavailable .construction f, (x.obtain b).2) := by
  simp only [attempt, ← same, registered]
  rw [show x.obtain b = (.error f, (x.obtain b).2) from Prod.ext failed rfl]

theorem attempt_of_built {o : Option (Instance K)} (same : b.identity = u.key.backend)
    (registered : c.backend? b.identity = some b) (built : (x.obtain b).1 = .ok o) :
    x.attempt c n u =
      (u.judged ((x.obtain b).2.execute n u o).1, ((x.obtain b).2.execute n u o).2) := by
  simp only [attempt, ← same, registered]
  rw [show x.obtain b = (.ok o, (x.obtain b).2) from Prod.ext built rfl]

end Bench

/-! ### Resolution without company -/

theorem advance_resolve_known {c : Catalog K} {identity : String} {b : Backend K} {s : Session K}
    {o : Except Fault Nat} (registered : c.backend? identity = some b)
    (known : s.known identity = some o) (thread : String) :
    ∃ log, (resolve c identity).advance true thread s = (.done (o.map some), { s with log }) := by
  obtain ⟨place, cached, found⟩ := Option.bind_eq_some_iff.mp known
  rw [resolve_eq_of_registered registered]
  simp only [Work.advance, Procedure.advance, Session.perform, Session.enter, cached, entering, readFrom]
  simp only [Work.log, Work.act, Procedure.perform, bind, Procedure.bind, Procedure.advance,
    Session.perform, Session.write, found, Option.map_some]
  exact ⟨_, rfl⟩

/-- The session after an identity that nobody had asked for was constructed alone. -/
def Session.constructed (s : Session K) (b : Backend K) (outcome : Except Fault (Option Nat))
    (made : List (Instance K)) (log : Array Record) : Session K :=
  { s with
    shared := (b.construct s.shared).shared
    contexts := s.contexts ++ [Context.publish { identity := b.identity } outcome]
    cache := (b.identity, s.contexts.length) :: s.cache
    begun := b.identity :: s.begun
    instances := s.instances ++ made
    log }

theorem advance_resolve_failing {c : Catalog K} {b : Backend K} {s : Session K} {f : Fault}
    (registered : c.backend? b.identity = some b) (unasked : s.cache.lookup b.identity = none)
    (raised : (b.construct s.shared).result = .error f) (ordinary : f.isOrdinary = true)
    (thread : String) :
    ∃ log, (resolve c b.identity).advance true thread s =
      (.done (.error (.construction b.identity f.described (some f.label))),
        s.constructed b (.error (.construction b.identity f.described (some f.label))) [] log) := by
  rw [resolve_eq_of_registered registered]
  simp only [Work.advance, Procedure.advance, Session.perform, Session.enter, unasked, entering, buildIn,
    Work.log, Work.act, Procedure.perform, bind, Procedure.bind, Session.write, Session.construct,
    raised, ordinary, publishedFailure, Session.publish, modify_last, Bool.not_true, Bool.and_false,
    Bool.false_eq_true, if_true, if_false, Session.constructed, List.append_nil]
  exact ⟨_, rfl⟩

theorem advance_resolve_building {c : Catalog K} {b : Backend K} {s : Session K} {x : Instance K}
    (registered : c.backend? b.identity = some b) (unasked : s.cache.lookup b.identity = none)
    (built : (b.construct s.shared).result = .ok (some x)) (thread : String) :
    ∃ log, (resolve c b.identity).advance true thread s =
      (.done (.ok (some s.instances.length)),
        s.constructed b (.ok (some s.instances.length)) [x] log) := by
  rw [resolve_eq_of_registered registered]
  simp only [Work.advance, Procedure.advance, Session.perform, Session.enter, unasked, entering, buildIn,
    Work.log, Work.act, Procedure.perform, bind, Procedure.bind, Session.write, Session.construct,
    built, Session.publish, modify_last, Bool.not_true, Bool.and_false, Bool.false_eq_true,
    if_false, Session.constructed]
  exact ⟨_, rfl⟩

theorem Session.known_constructed_self (s : Session K) (b : Backend K) (log : Array Record)
    (o : Except Fault (Option Nat)) (made : List (Instance K)) :
    (s.constructed b o made log).known b.identity =
      (Context.publish (ι := Nat) { identity := b.identity } o).outcome? := by
  simp [known, constructed]

theorem Session.known_constructed_of_ne {s : Session K} {b : Backend K} {identity : String}
    (other : identity ≠ b.identity) {r : Except Fault Nat} (known : s.known identity = some r)
    (log : Array Record) (o : Except Fault (Option Nat)) (made : List (Instance K)) :
    (s.constructed b o made log).known identity = some r := by
  obtain ⟨place, cached, found⟩ := Option.bind_eq_some_iff.mp known
  obtain ⟨x, at_place, published⟩ := Option.bind_eq_some_iff.mp found
  have inside : place < s.contexts.length := (List.getElem?_eq_some_iff.mp at_place).1
  have still : (s.constructed b o made log).contexts[place]? = some x := by
    simpa only [constructed, List.getElem?_append_left inside] using at_place
  have looked : (s.constructed b o made log).cache.lookup identity = some place := by
    simpa only [constructed, List.lookup_cons, beq_false_of_ne other] using cached
  simp only [Session.known, looked, Option.bind_some, still, published]

/-! ### The session follows the bench -/

/-- How a session shows what a bench has made of an identity. -/
def Session.Shows (s : Session K) (identity : String) :
    Option (Except Fault (Option (Instance K))) → Prop
  | none => s.cache.lookup identity = none
  | some (.error f) => s.known identity = some (.error f)
  | some (.ok none) => False
  | some (.ok (some i)) => ∃ k, s.known identity = some (.ok k) ∧ s.instances[k]? = some i

/-- Nobody is at work, and the session has published what the bench has made. Different identities
have different instances. -/
structure Session.Follows (s : Session K) (x : Bench K) : Prop where
  shared : s.shared = x.shared
  idle : s.busy = []
  shows : ∀ identity, s.Shows identity (x.made identity)
  apart : ∀ a b k, s.known a = some (.ok k) → s.known b = some (.ok k) → a = b

namespace Session.Follows

variable {s : Session K} {x : Bench K}

theorem made_of_known (follows : s.Follows x) {identity : String} {k : Nat}
    (known : s.known identity = some (.ok k)) :
    ∃ i, x.made identity = some (.ok (some i)) ∧ s.instances[k]? = some i := by
  have shown := follows.shows identity
  cases made : x.made identity with
  | none =>
      rw [made] at shown
      simp [Session.known, show s.cache.lookup identity = none from shown] at known
  | some e =>
      rw [made] at shown
      cases e with
      | error f => exact absurd (known.symm.trans shown) (by simp)
      | ok i =>
          cases i with
          | none => exact shown.elim
          | some i =>
              obtain ⟨k', known', here⟩ := shown
              have same : k = k' := by simpa using known.symm.trans known'
              exact ⟨i, rfl, same ▸ here⟩

theorem relog (follows : s.Follows x) (log : Array Record) :
    Session.Follows { s with log } x :=
  ⟨follows.shared, follows.idle, follows.shows, follows.apart⟩

/-- The instance of an identity may change with the bench; the others stay. -/
theorem execute (follows : s.Follows x) {identity : String} {k : Nat} {i : Instance K}
    (known : s.known identity = some (.ok k)) (shared : K.Shared) (log : Array Record) :
    Session.Follows { s with shared, instances := s.instances.set k i, log }
      ⟨shared, Function.update x.made identity (some (.ok (some i)))⟩ := by
  obtain ⟨old, _, here⟩ := follows.made_of_known known
  have inside : k < s.instances.length := (List.getElem?_eq_some_iff.mp here).1
  refine ⟨rfl, follows.idle, ?_, follows.apart⟩
  intro other
  by_cases same : other = identity
  · subst same
    simp only [Function.update_self]
    exact ⟨k, known, by simp [inside]⟩
  · simp only [Function.update_of_ne same]
    have shown := follows.shows other
    revert shown
    match x.made other with
    | none => exact id
    | some (.error _) => exact id
    | some (.ok none) => exact id
    | some (.ok (some j)) =>
        rintro ⟨k', known', there⟩
        have elsewhere : k ≠ k' := by
          rintro rfl
          exact same (follows.apart _ _ _ known' known)
        exact ⟨k', known', by simpa [List.getElem?_set_ne elsewhere] using there⟩

theorem known_before (follows : s.Follows x) {b : Backend K} {o : Except Fault (Option Nat)}
    {made : List (Instance K)} {log : Array Record} {identity : String} {k : Nat}
    (other : identity ≠ b.identity)
    (known : (s.constructed b o made log).known identity = some (.ok k)) :
    s.known identity = some (.ok k) ∧ k < s.instances.length := by
  have shown := follows.shows identity
  revert shown
  match x.made identity with
  | none =>
      intro (unasked : s.cache.lookup identity = none)
      have still : (s.constructed b o made log).cache.lookup identity = none := by
        simpa only [Session.constructed, List.lookup_cons, beq_false_of_ne other] using unasked
      simp [Session.known, still] at known
  | some (.error f) =>
      intro failed
      have still := Session.known_constructed_of_ne other failed log o made
      exact absurd (known.symm.trans still) (by simp)
  | some (.ok none) => exact False.elim
  | some (.ok (some i)) =>
      rintro ⟨k', known', here⟩
      have still := Session.known_constructed_of_ne other known' log o made
      obtain rfl : k = k' := by simpa using known.symm.trans still
      exact ⟨known', (List.getElem?_eq_some_iff.mp here).1⟩

theorem construct (follows : s.Follows x) {b : Backend K} {o : Except Fault (Option Nat)}
    {made : List (Instance K)} {log : Array Record} {e : Except Fault (Option (Instance K))}
    (shown : (s.constructed b o made log).Shows b.identity (some e))
    (last : ∀ k, (s.constructed b o made log).known b.identity = some (.ok k) →
      k = s.instances.length) :
    (s.constructed b o made log).Follows
      ⟨(b.construct x.shared).shared, Function.update x.made b.identity (some e)⟩ := by
  refine ⟨by simp only [Session.constructed, follows.shared], follows.idle, ?_, ?_⟩
  · intro identity
    by_cases same : identity = b.identity
    · subst same
      simpa only [Function.update_self] using shown
    · simp only [Function.update_of_ne same]
      have before := follows.shows identity
      revert before
      match x.made identity with
      | none =>
          intro (unasked : s.cache.lookup identity = none)
          show (s.constructed b o made log).cache.lookup identity = none
          simpa only [Session.constructed, List.lookup_cons, beq_false_of_ne same] using unasked
      | some (.error f) => exact fun failed => Session.known_constructed_of_ne same failed log o made
      | some (.ok none) => exact id
      | some (.ok (some i)) =>
          rintro ⟨k, known, here⟩
          refine ⟨k, Session.known_constructed_of_ne same known log o made, ?_⟩
          have inside : k < s.instances.length := (List.getElem?_eq_some_iff.mp here).1
          simpa only [Session.constructed, List.getElem?_append_left inside] using here
  · intro a c k knownA knownC
    by_cases sameA : a = b.identity
    · by_cases sameC : c = b.identity
      · exact sameA.trans sameC.symm
      · have before := follows.known_before sameC knownC
        have new := last k (sameA ▸ knownA)
        omega
    · by_cases sameC : c = b.identity
      · have before := follows.known_before sameA knownA
        have new := last k (sameC ▸ knownC)
        omega
      · exact follows.apart a c k (follows.known_before sameA knownA).1
          (follows.known_before sameC knownC).1

/-- Resolving a registered backend alone ends as obtaining it from the bench does. -/
theorem obtain {c : Catalog K} {b : Backend K} (follows : s.Follows x) (proper : x.Proper c)
    (behaved : c.WellBehaved) (registered : c.backend? b.identity = some b) (thread : String) :
    ∃ s', s'.Follows (x.obtain b).2 ∧
      ((∃ f, (x.obtain b).1 = .error f ∧
          (resolve c b.identity).advance true thread s = (.done (.error f), s')) ∨
        ∃ i k, (x.obtain b).1 = .ok (some i) ∧
          s'.known b.identity = some (.ok k) ∧ s'.instances[k]? = some i ∧
          (resolve c b.identity).advance true thread s = (.done (.ok (some k)), s')) := by
  have shown := follows.shows b.identity
  cases made : x.made b.identity with
  | some e =>
      rw [made] at shown
      rw [Bench.obtain_of_made made]
      cases e with
      | error f =>
          obtain ⟨log, read⟩ := advance_resolve_known registered shown thread
          exact ⟨{ s with log }, follows.relog log, .inl ⟨f, rfl, read⟩⟩
      | ok o =>
          obtain ⟨i, rfl, _⟩ := proper.made b.identity o made
          obtain ⟨k, known, here⟩ := shown
          obtain ⟨log, read⟩ := advance_resolve_known registered known thread
          exact ⟨{ s with log }, follows.relog log, .inr ⟨i, k, rfl, known, here, read⟩⟩
  | none =>
      rw [made] at shown
      have trusted := behaved b (List.mem_of_find?_eq_some registered)
      cases built : (b.construct s.shared).result with
      | error f =>
          have ordinary := trusted.contained s.shared f built
          obtain ⟨log, ended⟩ := advance_resolve_failing registered shown built ordinary thread
          have published := s.known_constructed_self b log
            (.error (.construction b.identity f.described (some f.label))) []
          rw [Bench.obtain_of_raised made (follows.shared ▸ built)]
          refine ⟨_, follows.construct published fun k known => ?_, .inl ⟨_, rfl, ended⟩⟩
          rw [published] at known
          cases known
      | ok o =>
          obtain ⟨i, rfl, _⟩ := trusted.parser s.shared o built
          obtain ⟨log, ended⟩ := advance_resolve_building registered shown built thread
          have published := s.known_constructed_self b log (.ok (some s.instances.length)) [i]
          have here : (s.instances ++ [i])[s.instances.length]? = some i := by simp
          rw [Bench.obtain_of_built made (follows.shared ▸ built)]
          refine ⟨_, follows.construct ⟨_, published, here⟩ fun k known => ?_,
            .inr ⟨i, s.instances.length, rfl, published, here, ended⟩⟩
          rw [published] at known
          cases known
          rfl

/-- A queued unit is worked off without waiting, and reported as the bench reports it. -/
theorem attempt {c : Catalog K} (follows : s.Follows x) (proper : x.Proper c)
    (behaved : c.WellBehaved) (replays : Nat) {u : TestUnit K.Recipe} (fresh : u.IsFresh)
    (used : c.Uses u.scenario.recipe) (thread : String) :
    ∃ u' s', Job.advance c replays true thread ⟨u, .queued⟩ s = (⟨u', .over⟩, s') ∧
      u'.result = (x.attempt c replays u).1 ∧ s'.Follows (x.attempt c replays u).2 := by
  simp only [Job.advance, Job.goResolving, fresh.moved_resolve]
  cases registered : c.backend? u.key.backend with
  | none =>
      rw [Bench.attempt_of_unregistered registered, resolve_eq_of_unregistered registered]
      exact ⟨_, _, rfl, result_unresolved u _, follows.relog _⟩
  | some b =>
      have same := Catalog.identity_of_backend? registered
      rw [← same] at registered
      have proper' := proper.obtain behaved registered
      have made' := x.made_obtain b
      obtain ⟨s', follows', ⟨f, failed, ended⟩ | ⟨i, k, built, known, here, ended⟩⟩ :=
        follows.obtain proper behaved registered thread
      · rw [Bench.attempt_of_failed same registered failed, ← same, ended]
        obtain ⟨_, _, g, _, _, rfl⟩ := proper'.failed b.identity f (failed ▸ made')
        exact ⟨_, _, rfl, result_unresolved u _, follows'.relog _⟩
      · have free : u.key.backend ∉ s'.busy := by simp [follows'.idle]
        obtain ⟨log, executed⟩ := advance_execute here free replays u.scenario thread
        obtain ⟨_, ⟨⟩, parser⟩ := proper'.made b.identity _ (built ▸ made')
        have judged := result_executed u (parser.verdict used replays u.key i.own s'.shared)
        rw [Bench.attempt_of_built same registered built, ← same, ended]
        simp only [Job.goRunning, TestUnit.moved_run, TestUnit.onWay_key, TestUnit.onWay_scenario,
          executed, Bench.execute, ← follows'.shared, ← same]
        exact ⟨_, _, rfl, judged, (follows'.execute known _ _).relog _⟩

end Session.Follows

end Concord
