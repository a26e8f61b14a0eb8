import Concord.Proofs.Agreement
import Concord.Proofs.Consumers
/-!
The books of the constructors. Whoever begins a construction is counted, and then calls the
constructor before it does anything else but log. So at any time, whoever is at work and in whatever
order, the count of an identity is the number of calls of its constructor and of those who are just
about to call it. Everything that is asked of a harness can come about in this way, and leaves nobody
about to call.
-/

namespace Concord

variable {K : Kit} {α : Type} {catalog : Catalog K} {replays : Nat}

/-! ### Work that keeps the books -/

/-- A call of the identity's constructor. -/
def Deed.isCall (identity : String) (d : Deed K) : Bool :=
  match d.action with
  | .construct b => b.identity == identity
  | _ => false

/-- How often an identity's constructor was called, among some deeds. -/
def constructorCalls (identity : String) (ds : List (Deed K)) : Nat :=
  ds.countP (Deed.isCall identity)

/-- Whether the next thing to be done, records apart, is to call a constructor. -/
def Work.isCalling : Work K α → Bool
  | Procedure.act (.construct _) _ => true
  | Procedure.act (.write _) next => isCalling (next ())
  | _ => false

/-- Work that begins constructions of one registered identity only, and then calls its constructor
at once. It is `owing` between the two. -/
inductive Work.Books (catalog : Catalog K) (identity : String) : Bool → Work K α → Prop
  | done (v : α) : Books catalog identity false (.done v)
  | enters {next : Entry → Work K α} (registered : (catalog.backend? identity).isSome = true)
      (opened : ∀ c, Books catalog identity true (next (.opened c)))
      (joined : ∀ c pending, Books catalog identity false (next (.joined c pending))) :
      Books catalog identity false (Procedure.act (.enter identity) next)
  | calls {b : Backend K} {next : Except Fault (Option Nat) → Work K α}
      (registered : catalog.backend? identity = some b)
      (goes : ∀ r, Books catalog identity false (next r)) :
      Books catalog identity true (Procedure.act (.construct b) next)
  | writes {owing : Bool} {r : Record} {next : Unit → Work K α}
      (goes : Books catalog identity owing (next ())) :
      Books catalog identity owing (Procedure.act (.write r) next)
  | others {action : Action K} {next : action.Answer → Work K α} (plain : action.isPlain = true)
      (goes : ∀ r, Books catalog identity false (next r)) :
      Books catalog identity false (Procedure.act action next)

namespace Work.Books

variable {identity : String} {owing : Bool}

theorem isCalling_eq {w : Work K α} (books : w.Books catalog identity owing) :
    w.isCalling = owing := by
  induction books with
  | done | enters | calls => rfl
  | writes _ ih => exact ih
  | @others action next plain _ ih =>
      cases action with
      | write r => exact ih ()
      | enter i => cases plain
      | construct b => cases plain
      | _ => rfl

theorem booked {w : Work K α} (books : w.Books catalog identity owing) :
    w.Books catalog identity w.isCalling := by
  rwa [books.isCalling_eq]

theorem of_plain {w : Work K α} (every : w.Every (·.isPlain = true)) :
    w.Books catalog identity false := by
  induction every with
  | done v => exact .done v
  | act plain _ ih => exact .others plain ih

theorem resolve (catalog : Catalog K) (identity : String) :
    Work.Books catalog identity false (Concord.resolve catalog identity) := by
  cases registered : catalog.backend? identity with
  | none =>
      rw [resolve_eq_of_unregistered registered]
      exact .done _
  | some b =>
      rw [resolve_eq_of_registered registered]
      refine .enters (by simp [registered]) (fun c => ?_) fun c pending => ?_
      · show Work.Books catalog identity true (buildIn b c)
        rw [buildIn_eq]
        exact .writes (.calls registered fun r => of_plain (.building b c r))
      · exact .writes (.others rfl fun o => .done _)

theorem execute (n : Nat) (parser : Option Nat) (key : Key) (s : Scenario K.Recipe) :
    Work.Books catalog identity false (Concord.execute n parser key s) :=
  of_plain ((Work.Every.execute s n parser key).mono fun _ such => such.1)

end Work.Books

/-- What a step does to the books of an identity: it begins a construction, joins one, calls the
constructor that it owes, or leaves the books alone. -/
inductive Session.Booking (catalog : Catalog K) (identity : String) (s s' : Session K) :
    Option (Deed K) → Bool → Bool → Prop
  | opens (c : Nat) (registered : (catalog.backend? identity).isSome = true)
      (unasked : s.cache.lookup identity = none) (cache : s'.cache = (identity, c) :: s.cache)
      (begun : s'.begun = identity :: s.begun) :
      Booking catalog identity s s' (some ⟨.enter identity, .opened c⟩) false true
  | joins {c : Nat} (pending : Bool) (cached : s.cache.lookup identity = some c)
      (same : s' = s) :
      Booking catalog identity s s' (some ⟨.enter identity, .joined c pending⟩) false false
  | calls {b : Backend K} (r : Except Fault (Option Nat))
      (registered : catalog.backend? identity = some b) (cache : s'.cache = s.cache)
      (begun : s'.begun = s.begun) :
      Booking catalog identity s s' (some ⟨.construct b, r⟩) true false
  | rests {d : Option (Deed K)} (owing : Bool) (plain : ∀ e ∈ d, e.action.isPlain = true)
      (cache : s'.cache = s.cache) (begun : s'.begun = s.begun) :
      Booking catalog identity s s' d owing owing

theorem Session.perform_plain {action : Action K} (plain : action.isPlain = true) {thread : String}
    {s s' : Session K} {r : action.Answer}
    (performed : Session.perform true thread action s = some (r, s')) :
    s'.cache = s.cache ∧ s'.begun = s.begun := by
  cases target : action.target? with
  | some k =>
      obtain ⟨_, _, _, _, _, _, rfl⟩ := of_perform_call target performed
      exact ⟨rfl, rfl⟩
  | none =>
      cases action with
      | enter i => cases plain
      | construct b => cases plain
      | await c =>
          obtain ⟨o, _, same⟩ := Option.map_eq_some_iff.mp performed
          cases same
          exact ⟨rfl, rfl⟩
      | acquire b =>
          simp only [Session.perform] at performed
          split at performed
          · cases performed
          · cases performed
            exact ⟨rfl, rfl⟩
      | write | publish | release =>
          cases performed
          exact ⟨rfl, rfl⟩
      | _ => cases target

theorem Deed.not_isCall_of_isPlain {d : Deed K} (plain : d.action.isPlain = true)
    (identity : String) : d.isCall identity = false := by
  obtain ⟨action, r⟩ := d
  cases action with
  | construct b => cases plain
  | _ => rfl

theorem constructorCalls_of_plain {d : Option (Deed K)}
    (plain : ∀ e ∈ d, e.action.isPlain = true) (i : String) : constructorCalls i d.toList = 0 := by
  rw [constructorCalls, List.countP_eq_zero]
  intro e member
  simp [Deed.not_isCall_of_isPlain (plain e (by simpa using member))]

namespace Session.Booking

variable {identity : String} {s s' : Session K} {d : Option (Deed K)} {owing owing' : Bool}

/-- The count grows by what was called and what is newly owed. -/
theorem balance (booking : Booking catalog identity s s' d owing owing') (i : String) :
    s'.constructions i + (identity == i && owing).toNat =
      s.constructions i + constructorCalls i d.toList + (identity == i && owing').toNat := by
  cases booking with
  | opens c registered unasked cache begun =>
      simp only [Session.constructions, begun, List.count_cons, constructorCalls]
      by_cases same : identity = i <;> simp [same, Deed.isCall]
  | joins pending cached same => simp [same, constructorCalls, Deed.isCall]
  | @calls b r registered cache begun =>
      obtain rfl := Catalog.identity_of_backend? registered
      simp only [Session.constructions, begun, constructorCalls]
      by_cases same : b.identity = i <;> simp [same, Deed.isCall]
  | rests owing plain cache begun =>
      simp only [Session.constructions, begun, constructorCalls_of_plain plain, Nat.add_zero]

/-- An identity comes to have a context by what was called and what is newly owed. -/
theorem cached (booking : Booking catalog identity s s' d owing owing') (i : String) :
    (s'.cache.lookup i).isSome.toNat + (identity == i && owing).toNat =
      (s.cache.lookup i).isSome.toNat + constructorCalls i d.toList +
        (identity == i && owing').toNat := by
  cases booking with
  | opens c registered unasked cache begun =>
      by_cases same : identity = i
      · subst same
        simp [cache, unasked, constructorCalls, Deed.isCall]
      · have other : i ≠ identity := Ne.symm same
        simp [cache, List.lookup_cons, beq_false_of_ne other, same, constructorCalls, Deed.isCall]
  | joins pending cached same => simp [same, constructorCalls, Deed.isCall]
  | @calls b r registered cache begun =>
      obtain rfl := Catalog.identity_of_backend? registered
      by_cases same : b.identity = i <;> simp [cache, same, constructorCalls, Deed.isCall]
  | rests owing plain cache begun =>
      simp only [cache, constructorCalls_of_plain plain, Nat.add_zero]

/-- A context that is newly cached is that of the identity, which is registered. -/
theorem new (booking : Booking catalog identity s s' d owing owing') {i : String}
    (cached : (s'.cache.lookup i).isSome = true) :
    (s.cache.lookup i).isSome = true ∨ i = identity ∧ (catalog.backend? identity).isSome = true := by
  cases booking with
  | opens c registered unasked cache begun =>
      by_cases same : i = identity
      · exact .inr ⟨same, registered⟩
      · left
        simpa only [cache, List.lookup_cons, beq_false_of_ne same] using cached
  | joins pending cached' same => exact .inl (same ▸ cached)
  | calls r registered cache begun => exact .inl (cache ▸ cached)
  | rests owing plain cache begun => exact .inl (cache ▸ cached)

theorem kept (booking : Booking catalog identity s s' d owing owing') {i : String}
    (cached : (s.cache.lookup i).isSome = true) : (s'.cache.lookup i).isSome = true := by
  cases booking with
  | opens c registered unasked cache begun =>
      by_cases same : i = identity
      · simp [cache, same]
      · simpa only [cache, List.lookup_cons, beq_false_of_ne same] using cached
  | joins pending cached' same => exact same ▸ cached
  | calls r registered cache begun => exact cache ▸ cached
  | rests owing plain cache begun => exact cache ▸ cached

/-- Who has looked the identity up has left it with a context. -/
theorem entered {e : Entry} (booking : Booking catalog identity s s' d owing owing')
    (looked : d = some ⟨.enter identity, e⟩) : (s'.cache.lookup identity).isSome = true := by
  cases booking with
  | opens c registered unasked cache begun => simp [cache]
  | joins pending cached same => simp [same, cached]
  | calls r registered cache begun => cases looked
  | rests owing plain cache begun =>
      have looking := plain ⟨.enter identity, e⟩ (by simp [looked])
      cases looking

end Session.Booking

/-- Whatever is done next is booked. -/
theorem Work.Books.step {identity : String} {owing : Bool} {action : Action K}
    {next : action.Answer → Work K α}
    (books : Work.Books catalog identity owing (Procedure.act action next)) {thread : String}
    {s s' : Session K} {r : action.Answer}
    (performed : Session.perform true thread action s = some (r, s')) :
    ∃ owing', Work.Books catalog identity owing' (next r) ∧
      Session.Booking catalog identity s s' (some ⟨action, r⟩) owing owing' := by
  cases books with
  | enters registered opened joined =>
      simp only [Session.perform, Session.enter] at performed
      split at performed
      · rename_i c cached
        cases performed
        exact ⟨_, joined _ _, .joins _ cached rfl⟩
      · rename_i unasked
        cases performed
        exact ⟨_, opened _, .opens _ registered unasked rfl rfl⟩
  | calls registered goes =>
      obtain ⟨instances, rfl, _⟩ := Session.construct_cases performed
      exact ⟨_, goes r, .calls r registered rfl rfl⟩
  | writes goes =>
      cases performed
      exact ⟨_, goes, .rests _ (by simp [Action.isPlain]) rfl rfl⟩
  | others plain goes =>
      obtain ⟨cache, begun⟩ := Session.perform_plain plain performed
      exact ⟨_, goes r, .rests _ (by simpa using plain) cache begun⟩

/-- Nobody waits for a constructor: who has to wait is not about to call one. -/
theorem Work.isCalling_of_waits {action : Action K} {next : action.Answer → Work K α}
    {thread : String} {s : Session K} (waits : Session.perform true thread action s = none) :
    Work.isCalling (Procedure.act action next) = false := by
  cases action with
  | construct b =>
      simp only [Session.perform, Session.construct, Bool.not_true, Bool.and_false,
        Bool.false_eq_true, if_false] at waits
      split at waits <;> cases waits
  | write r => cases waits
  | _ => rfl

/-! ### All who are at work -/

/-- Somebody at work: at the job of a unit, or resolving an identity on its own. -/
inductive Party (K : Kit)
  | job (j : Job K)
  | caller (identity : String) (w : Work K (Except Fault (Option Nat)))

namespace Party

inductive Step (catalog : Catalog K) (replays : Nat) :
    Party K → Session K → Option (Deed K) → Party K → Session K → Prop
  | works {j j' : Job K} {s s' : Session K} {d : Option (Deed K)}
      (goes : j.Step catalog replays s d j' s') : Step catalog replays (.job j) s d (.job j') s'
  | asks {identity : String} {action : Action K}
      {next : action.Answer → Work K (Except Fault (Option Nat))} {r : action.Answer}
      {s s' : Session K} (thread : String)
      (performed : Session.perform true thread action s = some (r, s')) :
      Step catalog replays (.caller identity (Procedure.act action next)) s (some ⟨action, r⟩)
        (.caller identity (next r)) s'

def identity : Party K → String
  | .job j => j.unit.key.backend
  | .caller identity _ => identity

/-- About to call a constructor. -/
def isCalling : Party K → Bool
  | .job ⟨_, .resolving w⟩ => w.isCalling
  | .job ⟨_, .running w⟩ => w.isCalling
  | .caller _ w => w.isCalling
  | _ => false

def isCallingOf (identity : String) (a : Party K) : Bool := a.identity == identity && a.isCalling

def Books (catalog : Catalog K) (a : Party K) : Prop :=
  match a with
  | .job ⟨u, .resolving w⟩ => w.Books catalog u.key.backend w.isCalling
  | .job ⟨u, .running w⟩ => w.Books catalog u.key.backend w.isCalling
  | .caller identity w => w.Books catalog identity w.isCalling
  | _ => True

theorem books_of_idle (catalog : Catalog K) {j : Job K} (idle : j.isActive = false) :
    (Party.job j).Books catalog ∧ (Party.job j).isCalling = false := by
  obtain ⟨u, stage⟩ := j
  cases stage with
  | resolving | running => cases idle
  | _ => exact ⟨trivial, rfl⟩

/-- A step of somebody is booked under its identity. -/
theorem Books.step {a a' : Party K} {s s' : Session K} {d : Option (Deed K)}
    (books : a.Books catalog) (step : a.Step catalog replays s d a' s') :
    a'.Books catalog ∧ a'.identity = a.identity ∧
      Session.Booking catalog a.identity s s' d a.isCalling a'.isCalling := by
  have quiet {s s' : Session K} {i : String} (cache : s'.cache = s.cache)
      (begun : s'.begun = s.begun) : Session.Booking catalog i s s' none false false :=
    .rests false (by simp) cache begun
  cases step with
  | asks thread performed =>
      obtain ⟨owing, books', booking⟩ := Work.Books.step books performed
      refine ⟨books'.booked, rfl, ?_⟩
      rw [← books'.isCalling_eq] at booking
      exact booking
  | works goes =>
      cases goes with
      | begins u s =>
          have starts := Work.Books.resolve catalog u.key.backend
          refine ⟨?_, congrArg Key.backend (u.key_moved .resolve), ?_⟩
          · show Work.Books catalog (u.moved .resolve).key.backend _ _
            rw [u.key_moved]
            exact starts.booked
          · show Session.Booking catalog _ s s none false (resolve catalog u.key.backend).isCalling
            rw [starts.isCalling_eq]
            exact quiet rfl rfl
      | resolves thread performed =>
          obtain ⟨owing, books', booking⟩ := Work.Books.step books performed
          refine ⟨books'.booked, rfl, ?_⟩
          rw [← books'.isCalling_eq] at booking
          exact booking
      | obtains u i s =>
          have starts : Work.Books catalog u.key.backend false
              (execute replays i u.key u.scenario) := .execute replays i u.key u.scenario
          refine ⟨?_, congrArg Key.backend (u.key_moved .run), ?_⟩
          · show Work.Books catalog (u.moved .run).key.backend _ _
            rw [u.key_moved]
            exact starts.booked
          · show Session.Booking catalog _ s s none false
              (execute replays i u.key u.scenario).isCalling
            rw [starts.isCalling_eq]
            exact quiet rfl rfl
      | fails u f s thread =>
          exact ⟨trivial, congrArg Key.backend (key_unresolved u f), quiet rfl rfl⟩
      | executes thread performed =>
          obtain ⟨owing, books', booking⟩ := Work.Books.step books performed
          refine ⟨books'.booked, rfl, ?_⟩
          rw [← books'.isCalling_eq] at booking
          exact booking
      | ends u r s thread =>
          exact ⟨trivial, congrArg Key.backend (key_executed u r), quiet rfl rfl⟩

end Party

/-- Nobody is about to call a constructor. -/
def Resting (parties : List (Party K)) : Prop := ∀ a ∈ parties, a.isCalling = false

theorem Resting.snoc {parties : List (Party K)} (resting : Resting parties) {a : Party K}
    (quiet : a.isCalling = false) : Resting (parties ++ [a]) := by
  intro c member
  rcases List.mem_append.mp member with early | last
  · exact resting c early
  · rwa [List.mem_singleton.mp last]

theorem Resting.countP_eq_zero {parties : List (Party K)} (resting : Resting parties) (i : String) :
    parties.countP (Party.isCallingOf i) = 0 := by
  rw [List.countP_eq_zero]
  intro a member
  simp [Party.isCallingOf, resting a member]

/-- Everybody who is at work, and the session that they share. -/
structure Scene (K : Kit) where
  parties : List (Party K)
  session : Session K

namespace Scene

/-- What can happen: somebody at work takes a step, somebody comes, the gate asks its probes or
something is logged, or the contexts are cleared. -/
inductive Step (catalog : Catalog K) (replays : Nat) : Scene K → Option (Deed K) → Scene K → Prop
  | acts {x : Scene K} {p : Nat} {a a' : Party K} {d : Option (Deed K)} {s : Session K}
      (here : x.parties[p]? = some a) (goes : a.Step catalog replays x.session d a' s) :
      Step catalog replays x d ⟨x.parties.set p a', s⟩
  | comes (x : Scene K) {j : Job K} (idle : j.isActive = false) :
      Step catalog replays x none ⟨x.parties ++ [.job j], x.session⟩
  | asks (x : Scene K) (identity : String) :
      Step catalog replays x none
        ⟨x.parties ++ [.caller identity (resolve catalog identity)], x.session⟩
  | gates (x : Scene K) (shared : K.Shared) (log : Array Record) :
      Step catalog replays x none ⟨x.parties, { x.session with shared, log }⟩
  | clears (x : Scene K) : Step catalog replays x none ⟨x.parties, x.session.clear⟩

/-- Anything that can happen, step after step, with the deeds that were done. -/
inductive Run (catalog : Catalog K) (replays : Nat) : Scene K → List (Deed K) → Scene K → Prop
  | nil (x : Scene K) : Run catalog replays x [] x
  | cons {x y z : Scene K} {d : Option (Deed K)} {t : List (Deed K)} :
      Step catalog replays x d y → Run catalog replays y t z →
      Run catalog replays x (d.toList ++ t) z

def Books (catalog : Catalog K) (x : Scene K) : Prop := ∀ a ∈ x.parties, a.Books catalog

variable {x y z : Scene K} {t t' : List (Deed K)}

theorem Run.append (first : Run catalog replays x t y) (second : Run catalog replays y t' z) :
    Run catalog replays x (t ++ t') z := by
  induction first with
  | nil => exact second
  | cons step _ ih =>
      rw [List.append_assoc]
      exact .cons step (ih second)

theorem Run.single {d : Option (Deed K)} (step : Step catalog replays x d y) :
    Run catalog replays x d.toList y := by
  have run := Run.cons step (.nil y)
  rwa [List.append_nil] at run

theorem Books.step (books : x.Books catalog) {d : Option (Deed K)}
    (step : Step catalog replays x d y) :
    y.Books catalog ∧ ∀ i,
      y.session.constructions i + x.parties.countP (Party.isCallingOf i) =
        x.session.constructions i + constructorCalls i d.toList +
          y.parties.countP (Party.isCallingOf i) := by
  cases step with
  | @acts p a a' _ s here goes =>
      obtain ⟨books', same, booking⟩ := (books a (List.mem_of_getElem? here)).step goes
      refine ⟨fun c member => ?_, fun i => ?_⟩
      · rcases List.mem_or_eq_of_mem_set member with old | rfl
        · exact books c old
        · exact books'
      · have balance := booking.balance i
        have change := countP_set_add (Party.isCallingOf i) here a'
        simp only [Party.isCallingOf, same] at change ⊢
        omega
  | comes idle =>
      obtain ⟨books', quiet⟩ := Party.books_of_idle catalog idle
      refine ⟨fun c member => ?_, fun i => ?_⟩
      · rcases List.mem_append.mp member with old | new
        · exact books c old
        · rwa [List.mem_singleton.mp new]
      · simp [Party.isCallingOf, quiet, constructorCalls]
  | asks identity =>
      have starts := Work.Books.resolve catalog identity
      refine ⟨fun c member => ?_, fun i => ?_⟩
      · rcases List.mem_append.mp member with old | new
        · exact books c old
        · rw [List.mem_singleton.mp new]
          exact starts.booked
      · simp [Party.isCallingOf, Party.isCalling, starts.isCalling_eq, constructorCalls]
  | gates shared log => exact ⟨books, fun i => by simp [Session.constructions, constructorCalls]⟩
  | clears =>
      exact ⟨books, fun i => by simp [Session.constructions, Session.clear, constructorCalls]⟩

/-- Over anything that can happen, the count of an identity grows by the calls of its constructor,
and by those who are about to call it. -/
theorem Books.run (books : x.Books catalog) (run : Run catalog replays x t y) :
    y.Books catalog ∧ ∀ i,
      y.session.constructions i + x.parties.countP (Party.isCallingOf i) =
        x.session.constructions i + constructorCalls i t +
          y.parties.countP (Party.isCallingOf i) := by
  induction run with
  | nil => exact ⟨books, fun i => by simp [constructorCalls]⟩
  | cons step _ ih =>
      obtain ⟨books', balance⟩ := books.step step
      obtain ⟨books'', balance'⟩ := ih books'
      refine ⟨books'', fun i => ?_⟩
      have first := balance i
      have rest := balance' i
      simp only [constructorCalls, List.countP_append] at first rest ⊢
      omega

/-- What can come about. -/
def Reaches (catalog : Catalog K) (replays : Nat) (x y : Scene K) : Prop :=
  ∃ t, Run catalog replays x t y

theorem Reaches.refl (x : Scene K) : Reaches catalog replays x x := ⟨[], .nil x⟩

theorem Reaches.trans (first : Reaches catalog replays x y) (next : Reaches catalog replays y z) :
    Reaches catalog replays x z := by
  obtain ⟨t, run⟩ := first
  obtain ⟨t', run'⟩ := next
  exact ⟨t ++ t', run.append run'⟩

theorem Step.reaches {d : Option (Deed K)} (step : Step catalog replays x d y) :
    Reaches catalog replays x y :=
  ⟨d.toList, .single step⟩

theorem reaches_of_step {a a' : Party K} {s s' : Session K} {d : Option (Deed K)}
    (goes : a.Step catalog replays s d a' s') (old later : List (Party K)) :
    Reaches catalog replays ⟨old ++ a :: later, s⟩ ⟨old ++ a' :: later, s'⟩ := by
  have here : (old ++ a :: later)[old.length]? = some a := by simp
  have acts : Step catalog replays ⟨old ++ a :: later, s⟩ d
      ⟨(old ++ a :: later).set old.length a', s'⟩ := .acts here goes
  rw [List.set_append_right _ _ (Nat.le_refl _), Nat.sub_self, List.set_cons_zero] at acts
  exact acts.reaches

theorem reaches_of_job {j j' : Job K} {s s' : Session K} {ds : List (Option (Deed K))}
    (run : Job.Run catalog replays j s ds j' s') (old later : List (Party K)) :
    Reaches catalog replays ⟨old ++ .job j :: later, s⟩ ⟨old ++ .job j' :: later, s'⟩ := by
  induction run with
  | nil => exact .refl _
  | cons step _ ih => exact (reaches_of_step (.works step) old later).trans ih

/-- To follow the resolution of an identity is to take its steps. -/
theorem reaches_of_caller (identity : String) (w : Work K (Except Fault (Option Nat)))
    (thread : String) (s : Session K) (old : List (Party K)) :
    Reaches catalog replays ⟨old ++ [.caller identity w], s⟩
      ⟨old ++ [.caller identity (w.advance true thread s).1], (w.advance true thread s).2⟩ := by
  induction w generalizing s with
  | done v => exact .refl _
  | act action next ih =>
      cases performed : Session.perform true thread action s with
      | none =>
          simp only [Work.advance, Procedure.advance, performed]
          exact .refl _
      | some r =>
          simp only [Work.advance, Procedure.advance, performed]
          exact (reaches_of_step (.asks thread performed) old []).trans (ih r.1 r.2)

theorem reaches_coming (old : List (Party K)) {js : List (Job K)}
    (idle : ∀ j ∈ js, j.isActive = false) (s : Session K) :
    Reaches catalog replays ⟨old, s⟩ ⟨old ++ js.map .job, s⟩ := by
  induction js generalizing old with
  | nil =>
      rw [List.map_nil, List.append_nil]
      exact .refl _
  | cons j js ih =>
      have first : Step catalog replays ⟨old, s⟩ none ⟨old ++ [.job j], s⟩ :=
        .comes _ (idle j List.mem_cons_self)
      have rest := ih (old ++ [.job j]) fun i member => idle i (List.mem_cons_of_mem _ member)
      rw [List.append_assoc] at rest
      exact first.reaches.trans rest

/-- Working off jobs can come about, with or without a deadline. -/
theorem reaches_dispatch (patient : Bool) (workers : Nat) (turns : Option Nat) (waiting : Nat)
    (old : List (Party K)) (js : List (Job K)) (s : Session K) :
    Reaches catalog replays ⟨old ++ js.map .job, s⟩
      ⟨old ++ (dispatch catalog replays patient workers turns waiting js s).1.map .job,
        (dispatch catalog replays patient workers turns waiting js s).2⟩ := by
  refine Pool.dispatch_induction
    (M := fun js s js' s' =>
      Reaches catalog replays ⟨old ++ js.map .job, s⟩ ⟨old ++ js'.map .job, s'⟩)
    (fun _ _ => .refl _) (fun first second => first.trans second) ?_ patient turns waiting [] js s
  intro j j' s s' ds run ps js
  have goes := reaches_of_job run (old ++ ps.map .job) (js.map .job)
  simpa only [List.map_append, List.map_cons, List.append_assoc] using goes

theorem isCalling_of_blocked {thread : String} {j : Job K} {s : Session K}
    (blocked : j.Blocked thread s) : (Party.job j).isCalling = false := by
  obtain ⟨u, stage⟩ := j
  obtain ⟨action, waits, ⟨next, same⟩ | ⟨next, same⟩⟩ := blocked
  · cases same
    exact Work.isCalling_of_waits waits
  · cases same
    exact Work.isCalling_of_waits waits

theorem isCalling_of_advanced {thread : String} {j : Job K} {s : Session K}
    {result : Job K × Session K} (advanced : Job.Advanced catalog replays true thread j s result) :
    (Party.job result.1).isCalling = false := by
  rcases advanced.2 with finished | ⟨_, blocked⟩
  · have idle : result.1.isActive = false := by simp [Job.isActive, finished]
    exact (Party.books_of_idle catalog idle).2
  · exact isCalling_of_blocked (blocked rfl)

/-- Those who wait when a deadline has passed go on in turn, and none of them stops before a
constructor. -/
theorem reaches_finishLate (waiting : Nat) (old : List (Party K))
    (resting : Resting old) (js : List (Job K)) (s : Session K) :
    ∃ parties, Resting parties ∧
      Reaches catalog replays ⟨old ++ js.map .job, s⟩
        ⟨parties, finishLate catalog replays waiting js s⟩ := by
  induction js generalizing old waiting s with
  | nil => exact ⟨old, resting, by simpa [finishLate] using Reaches.refl _⟩
  | cons j js ih =>
      by_cases stays : (j.stage.isOver || j.stage.isQueued) = true
      · have idle : j.isActive = false := by
          cases finished : j.stage.isOver <;> simp_all [Job.isActive]
        have quiet := (Party.books_of_idle catalog idle).2
        obtain ⟨parties, rests, rest⟩ := ih waiting (old ++ [.job j]) (resting.snoc quiet) s
        rw [List.append_assoc] at rest
        simp only [finishLate, stays, if_true]
        exact ⟨parties, rests, rest⟩
      · have unfinished : j.stage.isOver = false := by simp_all
        have advanced := Job.advance_advanced catalog replays true (workerName waiting) unfinished s
        obtain ⟨_, run⟩ := advanced.1
        have quiet := isCalling_of_advanced advanced
        simp only [finishLate, stays]
        generalize j.advance catalog replays true (workerName waiting) s = result at run quiet ⊢
        obtain ⟨parties, rests, rest⟩ :=
          ih (waiting + 1) (old ++ [.job result.1]) (resting.snoc quiet) result.2
        rw [List.append_assoc] at rest
        exact ⟨parties, rests, (reaches_of_job run old (js.map .job)).trans rest⟩

end Scene

theorem CommandLine.session_lines (h : Harness K) (planned : List (Planned K.Recipe)) :
    ∃ shared log, (lines h planned).2.session = { h.session with shared, log } := by
  induction planned generalizing h with
  | nil => exact ⟨_, _, rfl⟩
  | cons p ps ih =>
      have asked : ∃ shared log, (h.admits p.binding).2.session = { h.session with shared, log } :=
        ⟨_, _, rfl⟩
      rcases admitted : h.admits p.binding with ⟨f | runs, h'⟩ <;> rw [admitted] at asked <;>
        simp only [lines, admitted]
      · exact asked
      · obtain ⟨_, _, before⟩ := asked
        obtain ⟨shared, log, session⟩ := ih h'
        exact ⟨shared, log, by rw [session, before]⟩

namespace Harness

variable {h : Harness K} {old : List (Party K)}

/-- What an operation does can come about among all who are at work, and afterwards nobody is about
to call a constructor. -/
def Takes (h : Harness K) (old : List (Party K)) (session : Session K) : Prop :=
  ∃ parties, Resting parties ∧
    Scene.Reaches h.catalog h.replays ⟨old, h.session⟩ ⟨parties, session⟩

theorem Takes.gates (resting : Resting old) (shared : K.Shared) (log : Array Record) :
    h.Takes old { h.session with shared, log } :=
  ⟨old, resting, (Scene.Step.gates ⟨old, h.session⟩ shared log).reaches⟩

/-- A check takes steps of a job that nobody else knows of. -/
theorem takes_check (resting : Resting old) (key : Key) (s : Scenario K.Recipe) :
    h.Takes old (h.check key s).2.session := by
  obtain ⟨ds, j, run, ended⟩ := h.check_run key s
  have comes : Scene.Step h.catalog h.replays ⟨old, h.session⟩ none
      ⟨old ++ [.job ⟨{ key, scenario := s }, .queued⟩], h.session⟩ := .comes _ rfl
  have reaches := comes.reaches.trans (Scene.reaches_of_job run old [])
  refine ⟨old ++ [.job j], resting.snoc ?_, reaches⟩
  rcases ended with ⟨f, rfl, _⟩ | ⟨v, rfl, _⟩ | ⟨_, blocked⟩
  · rfl
  · rfl
  · exact Scene.isCalling_of_blocked blocked

theorem takes_resolve (resting : Resting old) (identity : String) :
    h.Takes old (h.resolve identity).2.session := by
  have asks : Scene.Step h.catalog h.replays ⟨old, h.session⟩ none
      ⟨old ++ [.caller identity (Concord.resolve h.catalog identity)], h.session⟩ := .asks _ identity
  have reaches := asks.reaches.trans
    (Scene.reaches_of_caller identity (Concord.resolve h.catalog identity) "MainThread" h.session old)
  refine ⟨_, resting.snoc ?_, reaches⟩
  have waits (action : Action K) (next : action.Answer → Work K (Except Fault (Option Nat))) :=
    Work.perform_of_advance (Concord.resolve h.catalog identity) true "MainThread" h.session
      action next
  generalize (Concord.resolve h.catalog identity).advance true "MainThread" h.session = advanced
    at waits ⊢
  obtain ⟨rest, s'⟩ := advanced
  cases rest with
  | done r => rfl
  | act action next => exact Work.isCalling_of_waits (waits action next rfl)

theorem session_run {planned : List (Planned K.Recipe)} {workers : Int}
    (deadline : Option Text.Seconds) (positive : 1 ≤ workers) (plan : h.catalog.plan = .ok planned)
    (calm : (h.decisions planned).interrupt = none) :
    ∃ log log',
      let worked := h.worked workers deadline planned log
      (h.run workers deadline).2.session =
        finishLate h.catalog h.replays 0 worked.1 { worked.2.clear with log := log' } := by
  obtain ⟨h', ran, left⟩ := run_eq deadline positive plan calm
  rw [ran]
  exact ⟨_, _, left⟩

/-- Either a run gets to its workers, or it raises, having done no more than ask probes. -/
theorem run_launches (h : Harness K) (workers : Int) (deadline : Option Text.Seconds) :
    (1 ≤ workers ∧ ∃ planned, h.catalog.plan = .ok planned ∧
        (h.decisions planned).interrupt = none) ∨
      ((∃ f, (h.run workers deadline).1 = .error f) ∧ ∃ shared log,
        (h.run workers deadline).2.session = { h.session with shared, log }) := by
  by_cases few : workers < 1
  · rw [run_without_worker few]
    exact .inr ⟨⟨_, rfl⟩, _, _, rfl⟩
  · have positive : 1 ≤ workers := by omega
    cases plan : h.catalog.plan with
    | error f =>
        rw [run_of_defect deadline positive plan]
        exact .inr ⟨⟨f, rfl⟩, _, _, rfl⟩
    | ok planned =>
        cases calm : (h.decisions planned).interrupt with
        | some f =>
            obtain ⟨h', raised, log, left⟩ := run_interrupted deadline positive plan calm
            rw [raised, left]
            exact .inr ⟨⟨f, rfl⟩, _, log, rfl⟩
        | none => exact .inl ⟨positive, planned, rfl, calm⟩

/-- A run works its jobs off, is cleared, and lets those who wait finish. -/
theorem takes_run (resting : Resting old) (workers : Int) (deadline : Option Text.Seconds) :
    h.Takes old (h.run workers deadline).2.session := by
  rcases h.run_launches workers deadline with
    ⟨positive, planned, plan, calm⟩ | ⟨_, shared, log, session⟩
  · obtain ⟨log, log', left⟩ := session_run deadline positive plan calm
    have gated : Scene.Reaches h.catalog h.replays ⟨old, h.session⟩ ⟨old, h.launched planned log⟩ :=
      (Scene.Step.gates _ _ log).reaches
    have worked := (gated.trans (Scene.reaches_coming old (h.unbegun_jobs planned) _)).trans
      (Scene.reaches_dispatch deadline.isNone workers.toNat
        (turnsWithin deadline (h.headStart (h.runs + 1))) 0 old (h.jobs planned) _)
    change Scene.Reaches _ _ _ ⟨old ++ (h.worked workers deadline planned log).1.map .job,
      (h.worked workers deadline planned log).2⟩ at worked
    rw [left]
    generalize h.worked workers deadline planned log = ended at worked ⊢
    obtain ⟨parties, rests, late⟩ :
        ∃ parties, Resting parties ∧ Scene.Reaches h.catalog h.replays
          ⟨old ++ ended.1.map .job, { ended.2.clear with log := log' }⟩
          ⟨parties, finishLate h.catalog h.replays 0 ended.1 { ended.2.clear with log := log' }⟩ :=
      Scene.reaches_finishLate 0 old resting ended.1 _
    have cleared := worked.trans (Scene.Step.clears _).reaches
    have logged := cleared.trans (Scene.Step.gates _ ended.2.shared log').reaches
    exact ⟨parties, rests, logged.trans late⟩
  · rw [session]
    exact .gates resting shared log

theorem takes_consume (resting : Resting old) (c : Consumer) :
    h.Takes old (c.pairs h).2.session := by
  have unchanged : h.Takes old h.session := ⟨old, resting, .refl _⟩
  cases c with
  | run workers deadline => exact takes_run resting workers deadline
  | listing =>
      cases plan : h.catalog.plan with
      | error f =>
          simp only [Consumer.pairs, plan_of_error plan]
          exact unchanged
      | ok planned =>
          simp only [Consumer.pairs, plan_of_ok plan]
          obtain ⟨shared, log, session⟩ :=
            CommandLine.session_lines (h.write [Catalog.planRecord planned]) planned
          rw [session]
          exact .gates resting shared log
  | collection =>
      cases plan : h.catalog.plan with
      | error f =>
          simp only [Consumer.pairs, TestSession.planUnits, plan_of_error plan]
          exact unchanged
      | ok planned =>
          simp only [Consumer.pairs, TestSession.planUnits, plan_of_ok plan]
          rw [decide_eq_decisions (g := h.write [Catalog.planRecord planned]) (h := h) rfl rfl]
          exact .gates resting _ _

theorem takes_operate (resting : Resting old) (op : Operation K) :
    h.Takes old (h.operate op).session := by
  have unchanged : h.Takes old h.session := ⟨old, resting, .refl _⟩
  cases op with
  | plan =>
      simp only [operate, Harness.plan]
      split
      · exact unchanged
      · exact .gates resting _ _
  | available resource => exact .gates resting _ _
  | admits b => exact .gates resting _ _
  | consume c => exact takes_consume resting c
  | check key s => exact takes_check resting key s
  | resolve identity => exact takes_resolve resting identity
  | clear => exact ⟨old, resting, (Scene.Step.clears _).reaches⟩
  | environment | isResolved | constructions => exact unchanged

/-- Whatever is asked of a harness, step by step. -/
theorem takes_after (resting : Resting old) (ops : List (Operation K)) :
    h.Takes old (h.after ops).session := by
  induction ops generalizing h old with
  | nil => exact ⟨old, resting, .refl _⟩
  | cons op ops ih =>
      obtain ⟨parties, rests, first⟩ := takes_operate (h := h) resting op
      obtain ⟨parties', rests', next⟩ := ih (h := h.operate op) rests
      rw [(h.operate_keeps op).catalog, (h.operate_keeps op).replays] at next
      exact ⟨parties', rests', first.trans next⟩

end Harness

end Concord
