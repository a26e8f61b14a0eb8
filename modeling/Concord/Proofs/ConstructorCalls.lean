import Concord.Proofs.Accounting
/-!
Which constructors a run calls. A run that begins with nothing resolved calls the constructor of a
backend once if the backend is registered and has an approved unit, and else not at all; by then all
probes have been asked. Somebody who watches the supplied code sees the probes first and the
constructors after them.
-/

namespace Concord

variable {K : Kit} {catalog : Catalog K} {replays : Nat}

/-! ### Once in each run -/

namespace Pool

/-- The deeds of all workers, in the order in which they were done. -/
def allDeeds (t : List (Nat × Option (Deed K))) : List (Deed K) := t.filterMap (·.2)

theorem allDeeds_cons (p : Nat) (d : Option (Deed K)) (t : List (Nat × Option (Deed K))) :
    allDeeds ((p, d) :: t) = d.toList ++ allDeeds t := by
  cases d <;> rfl

theorem allDeeds_snoc (t : List (Nat × Option (Deed K))) (p : Nat) (d : Option (Deed K)) :
    allDeeds (t ++ [(p, d)]) = allDeeds t ++ d.toList := by
  cases d <;> simp [allDeeds]

/-- A job that has not looked its backend up yet. -/
def Unasked (catalog : Catalog K) (j : Job K) : Prop :=
  j.stage = .queued ∨ j.stage = .resolving (resolve catalog j.unit.key.backend)

/-- The books of a run that began with nothing resolved: an identity has a context if its constructor
was called or is about to be, and that is so for the registered backends of approved units, once
they were looked up. -/
structure Charged (catalog : Catalog K) (units : List (TestUnit K.Recipe × Bool))
    (t : List (Nat × Option (Deed K))) (x : Pool K) : Prop where
  gated : Gated units x.jobs
  books : ∀ j ∈ x.jobs, (Party.job j).Books catalog
  cached : ∀ i, (x.session.cache.lookup i).isSome.toNat =
    constructorCalls i (allDeeds t) + (x.jobs.map Party.job).countP (Party.isCallingOf i)
  needed : ∀ i, (x.session.cache.lookup i).isSome = true →
    (catalog.backend? i).isSome = true ∧ ∃ u, (u, true) ∈ units ∧ u.key.backend = i
  asked : ∀ j ∈ x.jobs, j.unit.phase ≠ .skipped →
    (catalog.backend? j.unit.key.backend).isSome = true →
    Unasked catalog j ∨ (x.session.cache.lookup j.unit.key.backend).isSome = true

theorem Gated.at_job {units : List (TestUnit K.Recipe × Bool)} {jobs : List (Job K)}
    (gated : Gated units jobs) {p : Nat} {j : Job K} (here : jobs[p]? = some j) :
    ∃ d ∈ units, j.Gated d := by
  induction gated generalizing p with
  | nil => cases here
  | @cons d i units jobs first _ ih =>
      cases p with
      | zero =>
          cases here
          exact ⟨d, List.mem_cons_self, first⟩
      | succ p =>
          obtain ⟨d', listed, gated'⟩ := ih here
          exact ⟨d', List.mem_cons_of_mem _ listed, gated'⟩

theorem Gated.of_unit {units : List (TestUnit K.Recipe × Bool)} {jobs : List (Job K)}
    (gated : Gated units jobs) {d : TestUnit K.Recipe × Bool} (listed : d ∈ units) :
    ∃ j ∈ jobs, j.Gated d := by
  induction gated with
  | nil => cases listed
  | @cons e i units jobs first _ ih =>
      rcases List.mem_cons.mp listed with rfl | later
      · exact ⟨i, List.mem_cons_self, first⟩
      · obtain ⟨j, member, gated'⟩ := ih later
        exact ⟨j, List.mem_cons_of_mem _ member, gated'⟩

namespace Charged

variable {units : List (TestUnit K.Recipe × Bool)} {t : List (Nat × Option (Deed K))} {x y : Pool K}
  {workers : Nat}

theorem start (fresh : ∀ d ∈ units, d.1.IsFresh) {s : Session K} (unasked : s.cache = []) :
    Charged catalog units [] ⟨units.map Job.start, s⟩ := by
  have idle : ∀ j ∈ units.map Job.start, j.isActive = false := by
    intro j member
    obtain ⟨⟨u, runs⟩, _, rfl⟩ := List.mem_map.mp member
    cases runs <;> rfl
  constructor
  case gated => exact .start fresh
  case books => exact fun j member => (Party.books_of_idle catalog (idle j member)).1
  case cached =>
    intro i
    have resting : Resting ((units.map (Job.start (K := K))).map Party.job) := by
      intro a member
      obtain ⟨j, listed, rfl⟩ := List.mem_map.mp member
      exact (Party.books_of_idle catalog (idle j listed)).2
    rw [resting.countP_eq_zero i]
    simp [unasked, allDeeds, constructorCalls]
  case needed =>
    intro i cached
    simp [unasked] at cached
  case asked =>
    intro j member going _
    obtain ⟨⟨u, runs⟩, listed, rfl⟩ := List.mem_map.mp member
    cases runs with
    | true => exact .inl (.inl rfl)
    | false =>
        have gated := Job.Gated.start (fresh _ listed)
        exact absurd (gated.skipped.mpr rfl) going

theorem goes_on (charged : Charged catalog units t x) {p : Nat} {j j' : Job K} {d : Option (Deed K)}
    {s : Session K} (here : x.jobs[p]? = some j) (goes : j.Step catalog replays x.session d j' s) :
    Charged catalog units (t ++ [(p, d)]) ⟨x.jobs.set p j', s⟩ := by
  have member := List.mem_of_getElem? here
  obtain ⟨books', same, booking⟩ := (charged.books j member).step (.works goes)
  obtain ⟨⟨u, runs⟩, listed, gated⟩ := charged.gated.at_job here
  obtain ⟨rfl, going⟩ := gated.approved goes
  constructor
  case gated => exact charged.gated.set here fun _ before => before.step goes
  case books =>
    intro i inside
    rcases List.mem_or_eq_of_mem_set inside with old | rfl
    · exact charged.books i old
    · exact books'
  case cached =>
    intro i
    have before := charged.cached i
    have change := booking.cached i
    have there : (x.jobs.map Party.job)[p]? = some (.job j) := by simp [here]
    have moved := countP_set_add (Party.isCallingOf i) there (.job j')
    rw [Party.isCallingOf, Party.isCallingOf, same] at moved
    rw [List.map_set, allDeeds_snoc]
    simp only [constructorCalls, List.countP_append] at before change ⊢
    omega
  case needed =>
    intro i cached
    rcases booking.new cached with old | ⟨rfl, registered⟩
    · exact charged.needed i old
    · exact ⟨registered, u, listed, congrArg Key.backend gated.key.symm⟩
  case asked =>
    intro i inside going' registered
    rcases List.mem_or_eq_of_mem_set inside with old | rfl
    · exact (charged.asked i old going' registered).imp_right booking.kept
    · have backend : i.unit.key.backend = j.unit.key.backend := same
      rw [backend] at registered ⊢
      obtain ⟨b, found⟩ := Option.isSome_iff_exists.mp registered
      have before := charged.asked j member going registered
      rw [Unasked, resolve_eq_of_registered found] at before
      -- Only the look-up itself ends the time in which nobody has asked.
      have cached (unqueued : j.stage ≠ .queued) (looks : ∀ next : Entry → _,
          j.stage = .resolving (Procedure.act (.enter j.unit.key.backend) next) →
          ∃ e, d = some ⟨.enter j.unit.key.backend, e⟩) :
          (s.cache.lookup j.unit.key.backend).isSome = true := by
        rcases before with (queued | unasked) | cached
        · exact absurd queued unqueued
        · obtain ⟨e, looked⟩ := looks _ unasked
          exact booking.entered looked
        · exact booking.kept cached
      cases goes with
      | begins u s =>
          exact .inl (.inr (congrArg (fun k => Stage.resolving (resolve catalog k)) backend.symm))
      | @resolves _ action next r _ _ thread performed =>
          refine .inr (cached (by simp) fun next' same => ?_)
          injection same with same
          injection same with looks _
          dsimp only at looks ⊢
          subst looks
          exact ⟨r, rfl⟩
      | obtains u i s => exact .inr (cached (by simp) fun next' same => by cases same)
      | fails u f s thread => exact .inr (cached (by simp) fun next' same => by cases same)
      | executes thread performed => exact .inr (cached (by simp) fun next' same => by cases same)
      | ends u r s thread => exact .inr (cached (by simp) fun next' same => by cases same)

theorem run (charged : Charged catalog units t x) {t' : List (Nat × Option (Deed K))}
    (run : Run catalog replays workers x t' y) : Charged catalog units (t ++ t') y := by
  induction run generalizing t with
  | nil => rwa [List.append_nil]
  | @cons x y z l t' step _ ih =>
      cases step with
      | step here goes turn =>
          have whole := ih (charged.goes_on here goes)
          rwa [List.append_assoc] at whole

/-- When all is done, the constructor of a backend was called once if the backend is registered and
has an approved unit, and else it was not called. -/
theorem complete (charged : Charged catalog units t x) (complete : x.Complete) (i : String) :
    ((catalog.backend? i).isSome = true ∧ (∃ u, (u, true) ∈ units ∧ u.key.backend = i) →
        constructorCalls i (allDeeds t) = 1) ∧
      (¬ ((catalog.backend? i).isSome = true ∧ ∃ u, (u, true) ∈ units ∧ u.key.backend = i) →
        constructorCalls i (allDeeds t) = 0) := by
  have resting : Resting (x.jobs.map Party.job) := by
    intro a member
    obtain ⟨j, listed, rfl⟩ := List.mem_map.mp member
    have idle : j.isActive = false := by simp [Job.isActive, complete j listed]
    exact (Party.books_of_idle catalog idle).2
  have cached := charged.cached i
  rw [resting.countP_eq_zero i, Nat.add_zero] at cached
  rw [← cached]
  constructor
  · rintro ⟨registered, u, approved, rfl⟩
    obtain ⟨j, member, gated⟩ := charged.gated.of_unit approved
    have going : j.unit.phase ≠ .skipped := by simp [gated.skipped]
    have finished := complete j member
    rw [← gated.key] at registered ⊢
    rcases charged.asked j member going registered with (queued | unasked) | here
    · simp [queued, Stage.isOver] at finished
    · simp [unasked, Stage.isOver] at finished
    · rw [here]
      rfl
  · intro unneeded
    cases here : (x.session.cache.lookup i).isSome with
    | false => rfl
    | true => exact absurd (charged.needed i here) unneeded

end Charged

end Pool

/-! ### Probes first -/

/-- What somebody sees who watches the supplied code. -/
inductive Sighting
  | probed (resource : String)
  | constructed (identity : String)
  deriving DecidableEq

def Deed.sighting? (d : Deed K) : Option Sighting :=
  match d.action with
  | .construct b => some (.constructed b.identity)
  | _ => none

/-- A parser whose calls are not seen. -/
def Parser.Unseen (seen : K.Shared → List Sighting) (p : Parser K) : Prop :=
  ∀ action own s r own' s', p.take own s action = some (r, own', s') → seen s' = seen s

/-- Constructors are seen when they are called, and the parsers that they return are not. -/
structure Catalog.Watched (catalog : Catalog K) (seen : K.Shared → List Sighting) : Prop where
  constructors : ∀ i b, catalog.backend? i = some b → ∀ s,
    seen (b.construct s).shared = seen s ++ [.constructed i]
  parsers : ∀ i b, catalog.backend? i = some b → ∀ s x,
    (b.construct s).result = .ok (some x) → x.parser.Unseen seen

def Environment.Watched (e : Environment K.Shared) (seen : K.Shared → List Sighting) : Prop :=
  ∀ resource probe, e.probes.lookup resource = some probe → ∀ s,
    seen (probe.ask s).2 = seen s ++ [.probed resource]

/-- The gate is seen to ask probes, and nothing else. -/
theorem Environment.Watched.decide {ρ : Type} {e : Environment K.Shared}
    {seen : K.Shared → List Sighting} (watched : e.Watched seen) (s : K.Shared)
    (planned : List (Planned ρ)) :
    ∃ resources : List String, seen (e.decide s planned).shared = seen s ++ resources.map .probed := by
  induction planned generalizing e s with
  | nil => exact ⟨[], by simp [Environment.decide]⟩
  | cons p ps ih =>
      obtain ⟨later, cases⟩ := e.admitsBinding_cases p.binding s
      have first : ∃ resources : List String,
          seen (e.admitsBinding p.binding s).shared = seen s ++ resources.map .probed := by
        rcases cases with ⟨_, _, _, _, unasked⟩ | ⟨probe, _, found, asked, _⟩
        · exact ⟨[], by simp [unasked]⟩
        · exact ⟨[p.binding.resourceName], by rw [asked, watched _ probe found]; rfl⟩
      obtain ⟨resources, seen₁⟩ := first
      cases answer : (e.admitsBinding p.binding s).answer with
      | error f =>
          simp only [Environment.decide, answer]
          exact ⟨resources, seen₁⟩
      | ok runs =>
          have watched' : (e.admitsBinding p.binding s).environment.Watched seen := by
            intro resource probe found
            rw [later.probes] at found
            exact watched resource probe found
          obtain ⟨resources', seen₂⟩ := ih watched' (e.admitsBinding p.binding s).shared
          simp only [Environment.decide, answer]
          exact ⟨resources ++ resources', by rw [seen₂, seen₁, List.map_append, List.append_assoc]⟩

/-- Of all actions only a construction is seen. -/
theorem Catalog.Watched.perform {seen : K.Shared → List Sighting} (watched : catalog.Watched seen)
    {action : Action K} {thread : String} {s s' : Session K} {r : action.Answer}
    (registered : ∀ b, action = .construct b → catalog.backend? b.identity = some b)
    (unseen : ∀ y ∈ s.instances, y.parser.Unseen seen)
    (performed : Session.perform true thread action s = some (r, s')) :
    seen s'.shared = seen s.shared ++ (Deed.sighting? ⟨action, r⟩).toList ∧
      ∀ y ∈ s'.instances, y.parser.Unseen seen := by
  cases target : action.target? with
  | some k =>
      obtain ⟨x, own, shared, log, here, taken, rfl⟩ := of_perform_call target performed
      have silent := unseen x (List.mem_of_getElem? here)
      have unsighted : Deed.sighting? ⟨action, r⟩ = none := by cases action <;> first | rfl | cases target
      refine ⟨by simpa [unsighted] using silent _ _ _ _ _ _ taken, fun y member => ?_⟩
      rcases List.mem_or_eq_of_mem_set member with old | rfl
      · exact unseen y old
      · exact silent
  | none =>
      have stays {t : Session K} (shared : t.shared = s.shared) (instances : t.instances = s.instances)
          (unsighted : Deed.sighting? ⟨action, r⟩ = none) :
          seen t.shared = seen s.shared ++ (Deed.sighting? ⟨action, r⟩).toList ∧
            ∀ y ∈ t.instances, y.parser.Unseen seen := by
        rw [shared, instances, unsighted]
        exact ⟨by simp, unseen⟩
      cases action with
      | construct b =>
          have found := registered b rfl
          obtain ⟨instances, rfl, answer⟩ := Session.construct_cases performed
          refine ⟨watched.constructors _ b found s.shared, fun y member => ?_⟩
          rcases answer with ⟨_, _, _, rfl⟩ | ⟨_, _, rfl⟩ | ⟨x, made, _, rfl⟩
          · exact unseen y member
          · exact unseen y member
          · rcases List.mem_append.mp member with old | new
            · exact unseen y old
            · rw [List.mem_singleton.mp new]
              exact watched.parsers _ b found s.shared x made
      | enter i =>
          simp only [Session.perform, Session.enter] at performed
          split at performed <;> cases performed <;> exact stays rfl rfl rfl
      | await c =>
          obtain ⟨o, _, same⟩ := Option.map_eq_some_iff.mp performed
          cases same
          exact stays rfl rfl rfl
      | acquire b =>
          simp only [Session.perform] at performed
          split at performed <;> cases performed
          exact stays rfl rfl rfl
      | write | publish | release =>
          cases performed
          exact stays rfl rfl rfl
      | _ => cases target

theorem Work.Books.registered {α : Type} {identity : String} {owing : Bool} {action : Action K}
    {next : action.Answer → Work K α}
    (books : Work.Books catalog identity owing (Procedure.act action next)) {b : Backend K}
    (constructs : action = .construct b) : catalog.backend? b.identity = some b := by
  cases books with
  | calls registered goes =>
      cases constructs
      obtain rfl := Catalog.identity_of_backend? registered
      exact registered
  | others plain goes =>
      subst constructs
      cases plain
  | enters | writes => cases constructs

theorem Job.Step.sighted {seen : K.Shared → List Sighting} (watched : catalog.Watched seen)
    {j j' : Job K} {s s' : Session K} {d : Option (Deed K)} (books : (Party.job j).Books catalog)
    (unseen : ∀ y ∈ s.instances, y.parser.Unseen seen) (goes : j.Step catalog replays s d j' s') :
    seen s'.shared = seen s.shared ++ d.toList.filterMap Deed.sighting? ∧
      ∀ y ∈ s'.instances, y.parser.Unseen seen := by
  have acts {action : Action K} {r : action.Answer} {thread : String} {s s' : Session K}
      (registered : ∀ b, action = .construct b → catalog.backend? b.identity = some b)
      (unseen : ∀ y ∈ s.instances, y.parser.Unseen seen)
      (performed : Session.perform true thread action s = some (r, s')) :
      seen s'.shared =
          seen s.shared ++ (some (⟨action, r⟩ : Deed K)).toList.filterMap Deed.sighting? ∧
        ∀ y ∈ s'.instances, y.parser.Unseen seen := by
    obtain ⟨sighted, unseen'⟩ := watched.perform registered unseen performed
    refine ⟨sighted.trans ?_, unseen'⟩
    cases sighting : Deed.sighting? (⟨action, r⟩ : Deed K) <;> simp [sighting]
  have logs (log : Array Record) : seen ({ s with log } : Session K).shared =
      seen s.shared ++ (none : Option (Deed K)).toList.filterMap Deed.sighting? := by simp
  cases goes with
  | begins u s => exact ⟨logs s.log, unseen⟩
  | resolves thread performed =>
      exact acts (fun b => Work.Books.registered books) unseen performed
  | obtains u i s => exact ⟨logs s.log, unseen⟩
  | fails u f s thread => exact ⟨logs _, unseen⟩
  | executes thread performed =>
      exact acts (fun b => Work.Books.registered books) unseen performed
  | ends u r s thread => exact ⟨logs _, unseen⟩

/-- The workers are seen to call constructors, in the order in which they call them. -/
theorem Pool.Charged.sighted {seen : K.Shared → List Sighting} (watched : catalog.Watched seen)
    {units : List (TestUnit K.Recipe × Bool)} {t t' : List (Nat × Option (Deed K))} {x y : Pool K}
    {workers : Nat} (charged : Charged catalog units t x)
    (unseen : ∀ y ∈ x.session.instances, y.parser.Unseen seen)
    (run : Run catalog replays workers x t' y) :
    seen y.session.shared = seen x.session.shared ++ (allDeeds t').filterMap Deed.sighting? := by
  induction run generalizing t with
  | nil => simp [allDeeds]
  | @cons x y z l t' step _ ih =>
      cases step with
      | @step p j j' d s here goes turn =>
          have books := charged.books j (List.mem_of_getElem? here)
          obtain ⟨first, unseen'⟩ := goes.sighted watched books unseen
          have rest := ih (charged.goes_on here goes) unseen'
          rw [rest, first, allDeeds_cons, List.filterMap_append, List.append_assoc]

/-! ### Nothing stays resolved -/

/-- Work that looks nothing up any more. -/
def Work.Past {α : Type} (w : Work K α) : Prop := w.Every fun action => ∀ i, action ≠ .enter i

theorem Session.cache_of_perform {action : Action K} (passes : ∀ i, action ≠ .enter i)
    {patient : Bool} {thread : String} {s s' : Session K} {r : action.Answer}
    (performed : Session.perform patient thread action s = some (r, s')) : s'.cache = s.cache := by
  have performed' := Session.perform_of_impatient performed
  cases action with
  | enter i => exact absurd rfl (passes i)
  | construct b =>
      obtain ⟨_, rfl, _⟩ := Session.construct_cases performed'
      rfl
  | _ => exact (Session.perform_plain rfl performed').1

namespace Work.Past

variable {α : Type}

theorem of_plain {w : Work K α} (every : w.Every (·.isPlain = true)) : w.Past := by
  refine every.mono ?_
  rintro action plain i rfl
  cases plain

theorem execute (n : Nat) (parser : Option Nat) (key : Key) (s : Scenario K.Recipe) :
    (Concord.execute n parser key s).Past :=
  of_plain ((Work.Every.execute s n parser key).mono fun _ such => such.1)

/-- Whoever has looked up all that it looks up leaves the cache alone. -/
theorem advance {w : Work K α} (past : w.Past) (patient : Bool) (thread : String) (s : Session K) :
    (w.advance patient thread s).1.Past ∧ (w.advance patient thread s).2.cache = s.cache := by
  induction past generalizing s with
  | done v => exact ⟨.done v, rfl⟩
  | @act action next passes goes ih =>
      cases performed : Session.perform patient thread action s with
      | none =>
          simp only [Work.advance, Procedure.advance, performed]
          exact ⟨.act passes goes, trivial⟩
      | some r =>
          obtain ⟨rest, kept⟩ := ih r.1 r.2
          simp only [Work.advance, Procedure.advance, performed] at rest kept ⊢
          exact ⟨rest, kept.trans (Session.cache_of_perform passes performed)⟩

end Work.Past

/-- A job that looks nothing up any more, unless it is still in the queue. -/
def Job.Past (j : Job K) : Prop :=
  match j.stage with
  | .resolving w => w.Past
  | .running w => w.Past
  | _ => True

namespace Job.Past

theorem goRunning (patient : Bool) (thread : String) (u : TestUnit K.Recipe)
    {w : Work K (Except Fault String)} (past : w.Past) (s : Session K) :
    (Job.goRunning patient thread u w s).1.Past ∧
      (Job.goRunning patient thread u w s).2.cache = s.cache := by
  obtain ⟨rest, kept⟩ := past.advance patient thread s
  unfold Job.goRunning
  generalize w.advance patient thread s = advanced at rest kept
  obtain ⟨rest', s'⟩ := advanced
  cases rest' with
  | done r => exact ⟨trivial, kept⟩
  | act action next => exact ⟨rest, kept⟩

theorem goResolving (replays : Nat) (patient : Bool) (thread : String) (u : TestUnit K.Recipe)
    {w : Work K (Except Fault (Option Nat))} {s : Session K}
    (past : (w.advance patient thread s).1.Past) :
    (Job.goResolving replays patient thread u w s).1.Past ∧
      (Job.goResolving replays patient thread u w s).2.cache =
        (w.advance patient thread s).2.cache := by
  unfold Job.goResolving
  generalize w.advance patient thread s = advanced at past
  obtain ⟨rest, s'⟩ := advanced
  match rest with
  | .done (.ok i) => exact goRunning patient thread _ (.execute replays i u.key u.scenario) s'
  | .done (.error f) => exact ⟨trivial, rfl⟩
  | Procedure.act action next => exact ⟨past, rfl⟩

/-- Whoever resolves looks its identity up at once. -/
theorem resolve (catalog : Catalog K) (identity : String) (patient : Bool) (thread : String)
    (s : Session K) : ((Concord.resolve catalog identity).advance patient thread s).1.Past := by
  cases registered : catalog.backend? identity with
  | none =>
      rw [resolve_eq_of_unregistered registered]
      exact .done _
  | some b =>
      rw [resolve_eq_of_registered registered]
      have next (e : Entry) : (entering b identity e).Past := by
        cases e with
        | opened c =>
            show (buildIn b c).Past
            rw [buildIn_eq]
            exact .act (by simp) fun _ => .act (by simp) fun r => Work.Past.of_plain (.building b c r)
        | joined c pending => exact .act (by simp) fun _ => .act (by simp) fun _ => .done _
      exact ((next (s.enter identity).1).advance patient thread (s.enter identity).2).1

theorem dispatch (patient : Bool) (workers : Nat) (turns : Option Nat) (waiting : Nat)
    {js : List (Job K)} (unbegun : ∀ j ∈ js, j.isActive = false) (s : Session K) :
    ∀ j ∈ (Concord.dispatch catalog replays patient workers turns waiting js s).1, j.Past := by
  induction js generalizing turns waiting s with
  | nil =>
      intro j impossible
      cases impossible
  | cons i js ih =>
      have later : ∀ j ∈ js, j.isActive = false := fun j member =>
        unbegun j (List.mem_cons_of_mem _ member)
      obtain ⟨u, stage⟩ := i
      intro j member
      by_cases stays : (stage.isOver || decide (workers ≤ waiting) || turns == some 0) = true
      · rw [Pool.dispatch_of_skipped stays] at member
        rcases List.mem_cons.mp member with rfl | member
        · have idle := unbegun _ List.mem_cons_self
          cases stage with
          | resolving | running => cases idle
          | _ => exact trivial
        · exact ih turns waiting later s j member
      · have idle := unbegun _ List.mem_cons_self
        cases stage with
        | resolving | running => cases idle
        | queued =>
            have taken := (goResolving replays patient (workerName waiting) (u.moved .resolve)
              (resolve catalog u.key.backend patient (workerName waiting) s)).1
            rw [Pool.dispatch_of_taken stays rfl] at member
            rcases List.mem_cons.mp member with rfl | member
            · exact taken
            · exact ih _ _ later _ j member
        | _ => exact absurd rfl stays

theorem finishLate (waiting : Nat) {js : List (Job K)} (past : ∀ j ∈ js, j.Past) (s : Session K) :
    (Concord.finishLate catalog replays waiting js s).cache = s.cache := by
  induction js generalizing waiting s with
  | nil => rfl
  | cons i js ih =>
      have later : ∀ j ∈ js, j.Past := fun j member => past j (List.mem_cons_of_mem _ member)
      have here := past i List.mem_cons_self
      by_cases stays : (i.stage.isOver || i.stage.isQueued) = true
      · simp only [Concord.finishLate, stays, if_true]
        exact ih waiting later s
      · simp only [Concord.finishLate, stays]
        refine (ih (waiting + 1) later _).trans ?_
        obtain ⟨u, stage⟩ := i
        cases stage with
        | running w => exact (goRunning true _ u here s).2
        | resolving w =>
            have advanced := here.advance true (workerName waiting) s
            exact (goResolving replays true _ u advanced.1).2.trans advanced.2
        | _ => exact absurd rfl stays

end Job.Past

/-! ### The account of a harness -/

namespace Harness

/-- A run has to construct a registered backend of an approved unit. -/
def Needs (h : Harness K) (planned : List (Planned K.Recipe)) (identity : String) : Prop :=
  (h.catalog.backend? identity).isSome = true ∧
    ∃ u, (u, true) ∈ decided (h.decisions planned).entries ∧ u.key.backend = identity

/-- A run of this plan, step by step, with its deeds: any interleaving of its workers. -/
def Works (h : Harness K) (planned : List (Planned K.Recipe)) (t : List (Nat × Option (Deed K)))
    (x : Pool K) : Prop :=
  ∃ log workers,
    Pool.Run h.catalog h.replays workers ⟨h.jobs planned, h.launched planned log⟩ t x

/-- What a run of this plan does: -/
structure ConstructsOnce (h : Harness K) (planned : List (Planned K.Recipe)) : Prop where
  /-- When all is done, the constructors that are needed were called once, and no others. -/
  once : ∀ t x, h.Works planned t x → x.Complete → ∀ identity,
    (h.Needs planned identity → constructorCalls identity (Pool.allDeeds t) = 1) ∧
      (¬ h.Needs planned identity → constructorCalls identity (Pool.allDeeds t) = 0)
  /-- At any time it was seen to ask probes first and to call constructors after that. -/
  ordered : ∀ seen, h.environment.Watched seen → h.catalog.Watched seen →
    (∀ y ∈ h.session.instances, y.parser.Unseen seen) → ∀ t x, h.Works planned t x →
    ∃ resources : List String, seen x.session.shared =
      seen h.session.shared ++ resources.map .probed ++ (Pool.allDeeds t).filterMap Deed.sighting?

theorem constructsOnce {h : Harness K} {planned : List (Planned K.Recipe)}
    (unasked : h.session.cache = []) (plan : h.catalog.plan = .ok planned)
    (calm : (h.decisions planned).interrupt = none) : h.ConstructsOnce planned := by
  have charged (log : Array Record) : Pool.Charged h.catalog (decided (h.decisions planned).entries)
      [] ⟨h.jobs planned, h.launched planned log⟩ :=
    .start (h.isFresh_of_decided plan calm) unasked
  constructor
  · rintro t x ⟨log, workers, run⟩ complete identity
    exact ((charged log).run run).complete complete identity
  · rintro seen probes constructors unseen t x ⟨log, workers, run⟩
    obtain ⟨resources, gated⟩ := probes.decide h.session.shared planned
    refine ⟨resources, ?_⟩
    rw [(charged log).sighted constructors unseen run, ← gated]
    rfl

/-- A run whose workers have begun leaves nothing resolved, whatever was resolved before. -/
theorem cache_of_launched {h : Harness K} {planned : List (Planned K.Recipe)} {workers : Int}
    (deadline : Option Text.Seconds) (positive : 1 ≤ workers) (plan : h.catalog.plan = .ok planned)
    (calm : (h.decisions planned).interrupt = none) :
    (h.run workers deadline).2.session.cache = [] := by
  obtain ⟨log, log', left⟩ := session_run deadline positive plan calm
  have past : ∀ j ∈ (h.worked workers deadline planned log).1, j.Past :=
    Job.Past.dispatch _ _ _ 0 (h.unbegun_jobs planned) _
  rw [left, Job.Past.finishLate 0 past]
  rfl

theorem cache_run {h : Harness K} {workers : Int} {deadline : Option Text.Seconds} {report : Report}
    (ran : (h.run workers deadline).1 = .ok report) :
    (h.run workers deadline).2.session.cache = [] := by
  rcases h.run_launches workers deadline with ⟨positive, planned, plan, calm⟩ | ⟨⟨f, raised⟩, _⟩
  · exact cache_of_launched deadline positive plan calm
  · rw [raised] at ran
    cases ran

/-- A run that raises has done no more than ask probes, unless it was to wait for too long: then it
leaves nothing resolved. -/
theorem session_of_raised {h : Harness K} {workers : Int} {deadline : Option Text.Seconds}
    {f : Fault} (raised : (h.run workers deadline).1 = .error f) :
    (∃ shared log, (h.run workers deadline).2.session = { h.session with shared, log }) ∨
      deadline.bind waitFault? = some f ∧ (h.run workers deadline).2.session.cache = [] := by
  rcases h.run_launches workers deadline with ⟨positive, planned, plan, calm⟩ | ⟨_, session⟩
  · refine .inr ⟨?_, cache_of_launched deadline positive plan calm⟩
    rw [fst_run deadline positive plan calm] at raised
    exact waitFault?_of_overrun (ending_eq_error_iff.mp raised)
  · exact .inl session

/-- The account of the constructors of a harness. If nothing is resolved when a run begins, every
constructor that is needed is called once, no other is called, and all probes are asked before, in
whatever order the workers act; where nobody else is at work, a run without a deadline is such a run
to the end. A run that raises has done no more than ask probes, unless it was to wait for too long;
then, like a run that returns, it leaves nothing resolved. And whatever is asked of the harness, run or
check or look-up or clearing in any order, an identity is counted as often as its constructor was
called, whatever the calls came to: at any time but for those who are just about to call it, and exactly
whenever an operation is over. -/
theorem constructions_accounted (h : Harness K) :
    (h.session.cache = [] → ∀ planned, h.catalog.plan = .ok planned →
        (h.decisions planned).interrupt = none →
        h.ConstructsOnce planned ∧ (h.session.Quiet → ∀ workers, 1 ≤ workers → ∃ t x log,
          h.Works planned t x ∧ x.Complete ∧
          (h.run workers none).1 = .ok ⟨h.runName (h.runs + 1), x.jobs.map (·.unit.result)⟩ ∧
          (h.run workers none).2.session = { x.session.clear with log })) ∧
      (∀ workers deadline f, (h.run workers deadline).1 = .error f →
        (∃ shared log, (h.run workers deadline).2.session = { h.session with shared, log }) ∨
          deadline.bind waitFault? = some f ∧
            ∀ identity, (h.run workers deadline).2.session.isResolved identity = false) ∧
      (∀ workers deadline report, (h.run workers deadline).1 = .ok report →
        ∀ identity, (h.run workers deadline).2.session.isResolved identity = false) ∧
      (∀ t x, Scene.Run h.catalog h.replays ⟨[], h.session⟩ t x → ∀ identity,
        x.session.constructions identity =
          h.session.constructions identity + constructorCalls identity t +
            x.parties.countP (Party.isCallingOf identity)) ∧
      ∀ ops, ∃ t parties,
        Scene.Run h.catalog h.replays ⟨[], h.session⟩ t ⟨parties, (h.after ops).session⟩ ∧
        ∀ identity, (h.after ops).session.constructions identity =
          h.session.constructions identity + constructorCalls identity t := by
  have books : Scene.Books h.catalog ⟨[], h.session⟩ := by
    intro a impossible
    cases impossible
  have counted (t : List (Deed K)) (x : Scene K)
      (run : Scene.Run h.catalog h.replays ⟨[], h.session⟩ t x) (identity : String) :
      x.session.constructions identity =
        h.session.constructions identity + constructorCalls identity t +
          x.parties.countP (Party.isCallingOf identity) := (books.run run).2 identity
  refine ⟨fun unasked planned plan calm => ⟨constructsOnce unasked plan calm, ?_⟩, ?_, ?_, counted, ?_⟩
  · intro quiet workers positive
    obtain ⟨log, t, x, h', ran, run, complete, log', left⟩ :=
      run_eq_complete quiet positive plan calm
    rw [ran]
    exact ⟨t, x, log', ⟨log, _, run⟩, complete, rfl, left⟩
  · intro workers deadline f raised
    refine (session_of_raised raised).imp_right fun ⟨long, unasked⟩ => ⟨long, fun identity => ?_⟩
    simp [Session.isResolved, unasked]
  · intro workers deadline report ran identity
    simp [Session.isResolved, cache_run ran]
  · intro ops
    have nobody : Resting ([] : List (Party K)) := by
      intro a impossible
      cases impossible
    obtain ⟨parties, resting, t, run⟩ := takes_after (h := h) nobody ops
    refine ⟨t, parties, run, fun identity => ?_⟩
    rw [counted t _ run identity, resting.countP_eq_zero identity, Nat.add_zero]

end Harness

namespace Samples

/-- Supplied code that notes every probe and every construction, and nothing else. -/
abbrev spyKit : Kit := ⟨Unit, Unit, Unit, List Sighting⟩

def silent : Parser spyKit where
  label := "Silent"
  reset o s := { result := .ok (), own := o, shared := s }
  parse _ o s := { result := .ok (), own := o, shared := s }
  transform _ _ o s := { result := .ok (), own := o, shared := s }
  print _ o s := { result := .ok "", own := o, shared := s }
  diagnostics _ o s := { result := .ok [], own := o, shared := s }

def noting (identity : String) (result : Except Fault (Option (Instance spyKit))) :
    Registration spyKit :=
  .backend ⟨identity, .empty, fun s => { result, shared := s ++ [.constructed identity] }, ""⟩

/-- One backend with an approved and a rejected binding, one that raises, one that is not registered,
and one that is only behind the gate. -/
def spiedRegistrations : List (Registration spyKit) :=
  [.contract "Prints" [⟨"nothing", "", (), "", none⟩] [],
   .contract "Keeps" [⟨"nothing", "", (), "", none⟩] [],
   noting "Plain" (.ok (some ⟨silent, ()⟩)), noting "Broken" (.error (.breakdown .runtime "broken")),
   noting "Gated" (.ok (some ⟨silent, ()⟩)),
   .probe "tool" ⟨0, fun s => (.ok false, s ++ [.probed "tool"])⟩,
   .binding ⟨"Plain", ["Prints"], false, none⟩, .binding ⟨"Plain", ["Keeps"], true, some "tool"⟩,
   .binding ⟨"Broken", ["Prints", "Keeps"], false, none⟩,
   .binding ⟨"Absent", ["Prints"], false, none⟩, .binding ⟨"Gated", ["Prints"], true, some "tool"⟩]

def spied : Harness spyKit :=
  ((Harness.start (K := spyKit) [] (.make false [] []) defaultReplays
    (numberedRun "run")).registerAll spiedRegistrations).2

theorem silent_unseen : Parser.Unseen (K := spyKit) id silent := by
  intro action own s r own' s' taken
  cases action <;> cases taken <;> rfl

theorem spied_probes : Environment.Watched (K := spyKit) spied.environment id := by
  have probes : spied.environment.probes =
      [("tool", ⟨0, fun s => (.ok false, s ++ [.probed "tool"])⟩)] := by rfl
  intro resource probe found s
  rw [probes] at found
  by_cases same : resource = "tool"
  · subst same
    cases found
    rfl
  · simp [List.lookup_cons, beq_false_of_ne same] at found

theorem spied_constructors : spied.catalog.Watched (K := spyKit) id := by
  have registered {i : String} {b : Backend spyKit} (found : spied.catalog.backend? i = some b) :
      (∃ result, b = ⟨i, .empty, fun s => { result, shared := s ++ [.constructed i] }, ""⟩ ∧
        ∀ x, result = .ok (some x) → x.parser = silent) := by
    obtain rfl := Catalog.identity_of_backend? found
    rcases Harness.mem_backends_of_registerAll (List.mem_of_find?_eq_some found) with
      impossible | listed
    · cases impossible
    · simp only [spiedRegistrations, noting, List.mem_cons, List.not_mem_nil,
        Registration.backend.injEq, reduceCtorEq, or_false, false_or] at listed
      rcases listed with rfl | rfl | rfl
      · exact ⟨_, rfl, fun x made => by cases made; rfl⟩
      · exact ⟨_, rfl, fun x made => by cases made⟩
      · exact ⟨_, rfl, fun x made => by cases made; rfl⟩
  constructor
  · intro i b found s
    obtain ⟨_, rfl, _⟩ := registered found
    rfl
  · intro i b found s x made
    obtain ⟨_, rfl, parser⟩ := registered found
    rw [parser x made]
    exact silent_unseen

end Samples

/-- The probe is seen first, and then the two constructors that are needed; the one behind the gate
is not called. -/
theorem Harness.constructions_accounted_spied :
    Samples.spied.session.Quiet ∧ Samples.spied.session.cache = [] ∧
      (Samples.spied.run 2 none).2.session.shared =
        [.probed "tool", .constructed "Plain", .constructed "Broken"] ∧
      ∃ planned, Samples.spied.catalog.plan = .ok planned ∧ Samples.spied.ConstructsOnce planned ∧
        Samples.spied.Needs planned "Broken" ∧ ¬ Samples.spied.Needs planned "Gated" ∧
        Samples.spied.environment.Watched id ∧ Samples.spied.catalog.Watched id := by
  have built : Samples.spied.Built := Harness.Built.registerAll (.start ..) _
  have cache : Samples.spied.session.cache = [] := built.idle.2.1
  have gated : (Samples.spied.catalog.plan.toOption.map fun planned =>
      ((Samples.spied.decisions planned).interrupt.isNone,
        (decided (Samples.spied.decisions planned).entries).map fun d => (d.1.key.backend, d.2))) =
      some (true, [("Plain", true), ("Plain", false), ("Broken", true), ("Broken", true),
        ("Absent", true), ("Gated", false)]) := by decide +kernel
  refine ⟨built.quiet, cache, by decide +kernel, ?_⟩
  cases plan : Samples.spied.catalog.plan with
  | error f => simp [plan, Except.toOption] at gated
  | ok planned =>
      simp only [plan, Except.toOption, Option.map_some, Option.some.injEq, Prod.mk.injEq,
        Option.isNone_iff_eq_none] at gated
      obtain ⟨calm, decisions⟩ := gated
      have approved (backend : String) : (∃ u, (u, true) ∈
          decided (Samples.spied.decisions planned).entries ∧ u.key.backend = backend) ↔
          (backend, true) ∈ (decided (Samples.spied.decisions planned).entries).map
            fun d => (d.1.key.backend, d.2) := by
        simp
      refine ⟨planned, rfl, (((constructions_accounted Samples.spied).1 cache planned plan calm).1),
        ⟨by decide +kernel, ?_⟩, ?_, Samples.spied_probes, Samples.spied_constructors⟩
      · rw [approved, decisions]
        decide
      · rintro ⟨_, needed⟩
        rw [approved, decisions] at needed
        revert needed
        decide

end Concord
