import Concord.Proofs.Dispatch
import Concord.Proofs.PlainTextTrust
import Concord.Proofs.Promise
/-!
Schedule independence. Where the supplied code keeps to itself, what is reported on a unit can be
told when the workers begin, from the promise of its backend and from the scenario alone. A job that
is executed holds its backend from the first call to the last, so that nobody else touches its
instance in between; so every complete interleaving of any number of workers reports the same.
-/

namespace Concord

variable {K : Kit} {catalog : Catalog K} {replays workers base : Nat}

/-- The report on a decided unit, as it can be told when the workers begin. -/
def foretold (catalog : Catalog K) (replays : Nat) (first : Session K)
    (d : TestUnit K.Recipe × Bool) : Result :=
  if d.2 then
    match first.promise catalog d.1.key.backend with
    | .error f => (unresolved (d.1.onWay .resolving) f).1.result
    | .ok x =>
        (executed (d.1.onWay .running)
          (x.parser.verdict replays d.1.key d.1.scenario x.own first.shared).result).1.result
  else d.1.rejected

/-- A job is on the way to what was foretold. While its worker holds the backend, the instance is in
the state from which the rest of the execution comes to the verdict. -/
inductive Job.Expected (catalog : Catalog K) (replays : Nat) (first : Session K)
    (homes : Nat → String → Prop) (s : Session K) (d : TestUnit K.Recipe × Bool) (held : Bool) :
    Job K → Prop
  | queued (u : TestUnit K.Recipe) : Expected catalog replays first homes s d held ⟨u, .queued⟩
  | resolving (u : TestUnit K.Recipe) (w : Work K (Except Fault (Option Nat))) :
      Expected catalog replays first homes s d held ⟨u, .resolving w⟩
  | running {u : TestUnit K.Recipe} {w : Work K (Except Fault String)} {k : Nat} {x : Instance K}
      {own : Option K.Own} (home : homes k d.1.key.backend)
      (promised : first.promise catalog d.1.key.backend = .ok x) (holds : own.isSome = held)
      (state : ∀ o, own = some o → s.instances[k]? = some ⟨x.parser, o⟩)
      (foretells : Work.Foretells x.parser catalog.Uses k x.own
        (x.parser.verdict replays d.1.key d.1.scenario x.own first.shared).result own w) :
      Expected catalog replays first homes s d held ⟨u, .running w⟩
  | finished {u : TestUnit K.Recipe} (reported : u.result = foretold catalog replays first d) :
      Expected catalog replays first homes s d held ⟨u, .over⟩

/-- What others do leaves a job on its way: they do not touch the instance that it holds. -/
theorem Job.Expected.others {first : Session K} {homes homes' : Nat → String → Prop}
    {s s' : Session K} {d : TestUnit K.Recipe × Bool} {held : Bool} {j : Job K}
    (expected : j.Expected catalog replays first homes s d held)
    (wider : ∀ k i, homes k i → homes' k i)
    (untouched : held = true → ∀ k x, homes k d.1.key.backend → s.instances[k]? = some x →
      s'.instances[k]? = some x) : j.Expected catalog replays first homes' s' d held := by
  cases expected with
  | queued u => exact .queued u
  | resolving u w => exact .resolving u w
  | finished reported => exact .finished reported
  | running home promised holds state foretells =>
      refine .running (wider _ _ home) promised holds ?_ foretells
      rintro o rfl
      exact untouched holds.symm _ _ home (state o rfl)

/-- One action of an execution: it goes on to the verdict, and touches no instance but the one that
it holds. -/
theorem Work.Foretells.step {s s' : Session K} {promise : String → Except Fault (Instance K)}
    {homes : Nat → String → Prop} (houses : s.Houses catalog promise homes) {k : Nat} {i : String}
    (home : homes k i) {x : Instance K} (promised : promise i = .ok x) {own : Option K.Own}
    (state : ∀ o, own = some o → s.instances[k]? = some ⟨x.parser, o⟩) {v : Except Fault String}
    {action : Action K} {next : action.Answer → Work K (Except Fault String)}
    (foretells : Work.Foretells x.parser catalog.Uses k x.own v own (Procedure.act action next))
    {thread : String} {r : action.Answer}
    (performed : Session.perform true thread action s = some (r, s')) :
    (∀ k' y, s.instances[k']? = some y →
        s'.instances[k']? = some y ∨ own.isSome = true ∧ k' = k) ∧
      ∃ own' : Option K.Own, own'.isSome = Deed.grip own.isSome ⟨action, r⟩ ∧
        (∀ o, own' = some o → s'.instances[k]? = some ⟨x.parser, o⟩) ∧
        Work.Foretells x.parser catalog.Uses k x.own v own' (next r) := by
  cases foretells with
  | write goes =>
      cases performed
      exact ⟨fun _ _ found => .inl found, own, rfl, state, goes⟩
  | acquire goes =>
      simp only [Session.perform] at performed
      split at performed <;> cases performed
      obtain ⟨x', o, promised', found, reached⟩ := houses.housed k i home
      obtain rfl := Except.ok.inj (promised.symm.trans promised')
      refine ⟨fun _ _ found => .inl found, some o, rfl, ?_, goes o reached⟩
      rintro _ ⟨⟩
      exact found
  | release goes =>
      cases performed
      refine ⟨fun _ _ found => .inl found, none, rfl, ?_, goes⟩
      rintro o ⟨⟩
  | @call o _ _ target within goes =>
      obtain ⟨_, x', o', own', shared, log, promised', found, _, taken, rfl⟩ :=
        houses.call home target within performed
      obtain rfl := Except.ok.inj (promised.symm.trans promised')
      have same : o = o' := by
        have here := (state o rfl).symm.trans found
        simpa using here
      subst same
      have inside := (List.getElem?_eq_some_iff.mp found).1
      refine ⟨fun k' y there => ?_, some own', ?_, ?_, goes _ _ _ _ taken⟩
      · by_cases other : k = k'
        · exact .inr ⟨rfl, other.symm⟩
        · exact .inl (by rwa [List.getElem?_set_ne other])
      · exact (grip_of_target? (d := ⟨action, r⟩) target true).symm
      · rintro _ ⟨⟩
        simp [inside]

/-- Calls of an execution are made on the instance of the job's backend. -/
theorem Job.Expected.calls {first s : Session K} {homes : Nat → String → Prop}
    {d : TestUnit K.Recipe × Bool} {held : Bool} {j : Job K}
    (expected : j.Expected catalog replays first homes s d held) {action : Action K}
    {next : action.Answer → Work K (Except Fault String)}
    (stage : j.stage = .running (Procedure.act action next)) {k : Nat}
    (target : action.target? = some k) :
    homes k d.1.key.backend ∧ action.Within catalog.Uses := by
  cases expected with
  | running home _ _ _ foretells =>
      cases stage
      cases foretells with
      | call target' within _ =>
          obtain rfl := Option.some.inj (target'.symm.trans target)
          exact ⟨home, within⟩
      | _ => cases target
  | _ => cases stage

/-- The jobs are tracked, the instances are housed, and every job is on the way to what was foretold. -/
structure Pool.Foretold (catalog : Catalog K) (replays base : Nat) (first : Session K)
    (units : List (TestUnit K.Recipe × Bool)) (t : List (Nat × Option (Deed K))) (x : Pool K)
    (asks : List Ask) (homes : Nat → String → Prop) : Prop where
  tracked : Tracked catalog replays base units t x asks
  housed : Ask.Housed catalog first homes asks x.session
  expected : ∀ (p : Nat) (d : TestUnit K.Recipe × Bool) (j : Job K), units[p]? = some d →
    x.jobs[p]? = some j →
    j.Expected catalog replays first homes x.session d (gripping (deeds p t))

theorem Ask.Moves.instances {identity : String} {s s' : Session K} {d : Deed K} {spot spot' : Spot}
    (moves : Ask.Moves catalog identity s d spot spot' s') {k : Nat} {y : Instance K}
    (found : s.instances[k]? = some y) : s'.instances[k]? = some y := by
  cases moves with
  | calls c registered made =>
      obtain ⟨instances, rfl, answer⟩ := Session.construct_cases made
      rcases answer with ⟨_, _, _, rfl⟩ | ⟨_, _, rfl⟩ | ⟨_, _, _, rfl⟩
      · exact found
      · exact found
      · rwa [List.getElem?_append_left (List.getElem?_eq_some_iff.mp found).1]
  | _ => exact found

/-- A job goes on as was foretold, and touches no instance but the one that it holds. -/
theorem Job.Expected.goes_on {first s s' : Session K} {homes : Nat → String → Prop}
    (houses : s.Houses catalog (first.promise catalog) homes)
    {u : TestUnit K.Recipe} {runs : Bool}
    (restarts : ∀ x, first.promise catalog u.key.backend = .ok x →
      x.parser.Restarts catalog.Uses x.own) (used : catalog.Uses u.scenario.recipe) {a a' : Ask}
    (mine : a.identity = u.key.backend)
    (resolves : ∀ ds v, a.Stands catalog ds (.done v) →
      Kept (first.promise catalog) homes a.identity v)
    {ds : List (Deed K)} {j j' : Job K} (stands : Job.Stands catalog replays (u, runs) a ds j)
    (expected : j.Expected catalog replays first homes s (u, runs) (gripping ds))
    {d : Option (Deed K)} (goes : j.Step catalog replays s d j' s')
    (effect : Job.Effect catalog u.key.backend a ds j s d a' s') :
    j'.Expected catalog replays first homes s' (u, runs)
        (gripping (ds ++ d.toList.filter (!·.isWrite))) ∧
      ∀ k y, s.instances[k]? = some y → s'.instances[k]? = some y ∨
        gripping ds = true ∧ homes k u.key.backend := by
  cases goes with
  | begins => exact ⟨.resolving _ _, fun _ _ found => .inl found⟩
  | resolves thread performed =>
      cases effect with
      | asks _ moves => exact ⟨.resolving _ _, fun _ _ found => .inl (moves.instances found)⟩
      | executes stage => cases stage
  | obtains u' i =>
      cases stands with
      | resolving stands =>
          have kept := resolves _ _ stands
          cases i with
          | none => exact kept.elim
          | some k =>
              have home : homes k u.key.backend := mine ▸ kept
              obtain ⟨x, own, promised, _⟩ := houses.housed k _ home
              have free : (none : Option K.Own).isSome = gripping (ds ++ []) :=
                (stands.gripping_eq []).symm
              refine ⟨.running home promised free ?_
                (.execute (restarts x promised) replays u.key used first.shared),
                fun _ _ found => .inl found⟩
              rintro o ⟨⟩
  | fails u' f s thread =>
      cases stands with
      | resolving stands =>
          have kept := resolves _ _ stands
          refine ⟨.finished ?_, fun _ _ found => .inl found⟩
          have promised : first.promise catalog u.key.backend = .error f := mine ▸ kept
          simp only [foretold, promised, if_true]
  | executes thread performed =>
      cases expected with
      | running home promised holds state foretells =>
          obtain ⟨untouched, own', holds', state', foretells'⟩ :=
            foretells.step houses home promised state performed
          refine ⟨?_, fun k y found => ?_⟩
          · rw [holds] at holds'
            refine .running home promised ?_ state' foretells'
            rw [Option.toList_some, gripping_noted, holds']
          · rcases untouched k y found with stays | ⟨held, rfl⟩
            · exact .inl stays
            · exact .inr ⟨holds ▸ held, home⟩
  | ends u' r s thread =>
      cases expected with
      | running home promised holds state foretells =>
          cases foretells
          cases stands with
          | running stands stint =>
              refine ⟨.finished ?_, fun _ _ found => .inl found⟩
              simp only [foretold, promised, if_true]

/-- What a step of a job preserves is what logging and locking, the moves of resolutions, and calls on
instances at home preserve. -/
theorem Job.Effect.preserves {first s s' : Session K} {homes : Nat → String → Prop}
    {asks : List Ask} (holds : (Nat → String → Prop) → List Ask → Session K → Prop) {p : Nat}
    {a a' : Ask} (asked : asks[p]? = some a) {d : TestUnit K.Recipe × Bool} {held : Bool}
    {ds : List (Deed K)} {j : Job K} {deed : Option (Deed K)}
    (effect : Job.Effect catalog d.1.key.backend a ds j s deed a' s')
    (expected : j.Expected catalog replays first homes s d held)
    (locks : ∀ busy log, holds homes asks { s with busy, log })
    (moves : ∀ deed spot s', Ask.Moves catalog a.identity s deed a.spot spot s' →
      ∃ homes' : Nat → String → Prop, (∀ k i, homes k i → homes' k i) ∧
        holds homes' (asks.set p ⟨a.identity, spot⟩) s')
    (calls : ∀ k (action : Action K) (r : action.Answer) thread s', homes k d.1.key.backend →
      action.target? = some k → action.Within catalog.Uses →
      Session.perform true thread action s = some (r, s') → holds homes asks s') :
    ∃ homes' : Nat → String → Prop, (∀ k i, homes k i → homes' k i) ∧
      holds homes' (asks.set p a') s' := by
  cases effect with
  | logs log =>
      rw [set_of_getElem? asked]
      exact ⟨homes, fun _ _ home => home, locks s.busy log⟩
  | asks _ step => exact moves _ _ _ step
  | executes stage step _ =>
      rw [set_of_getElem? asked]
      refine ⟨homes, fun _ _ home => home, ?_⟩
      cases step with
      | writes r thread => exact locks s.busy _
      | acquires free => exact locks _ s.log
      | releases => exact locks _ s.log
      | calls on target performed =>
          obtain ⟨home, within⟩ := expected.calls stage target
          exact calls _ _ _ _ _ home target within performed

theorem Job.Expected.start {first s : Session K} {homes : Nat → String → Prop}
    {units : List (TestUnit K.Recipe × Bool)} (fresh : ∀ d ∈ units, d.1.IsFresh) {p : Nat}
    {d : TestUnit K.Recipe × Bool} (planned : units[p]? = some d) {j : Job K}
    (here : (units.map Job.start)[p]? = some j) {held : Bool} :
    j.Expected catalog replays first homes s d held := by
  obtain ⟨u, runs⟩ := d
  have mine : j = Job.start (u, runs) := by
    simpa [planned] using here.symm
  subst mine
  cases runs with
  | true => exact .queued u
  | false => exact .finished (fresh _ (List.mem_of_getElem? planned)).result_skip

/-- When one job has gone on, all are on the way to what was foretold. -/
theorem Pool.Tracked.onward {first : Session K} {units : List (TestUnit K.Recipe × Bool)}
    {t : List (Nat × Option (Deed K))} {x : Pool K} {asks : List Ask}
    {homes homes' : Nat → String → Prop} (tracked : Tracked catalog replays base units t x asks)
    (sole : ∀ k i j, homes k i → homes k j → i = j)
    (expected : ∀ (p : Nat) (d : TestUnit K.Recipe × Bool) (j : Job K), units[p]? = some d →
      x.jobs[p]? = some j →
      j.Expected catalog replays first homes x.session d (gripping (deeds p t)))
    (wider : ∀ k i, homes k i → homes' k i) {p : Nat} {u : TestUnit K.Recipe} {runs : Bool}
    (planned : units[p]? = some (u, runs)) {j' : Job K} {d : Option (Deed K)} {s : Session K}
    (moved : j'.Expected catalog replays first homes s (u, runs)
      (gripping (deeds p t ++ d.toList.filter (!·.isWrite))))
    (untouched : ∀ k y, x.session.instances[k]? = some y → s.instances[k]? = some y ∨
      gripping (deeds p t) = true ∧ homes k u.key.backend)
    (q : Nat) (d' : TestUnit K.Recipe × Bool) (i : Job K) (planned' : units[q]? = some d')
    (there : (x.jobs.set p j')[q]? = some i) :
    i.Expected catalog replays first homes' s d' (gripping (deeds q (t ++ [(p, d)]))) := by
  rcases getElem?_set_cases there with ⟨rfl, rfl⟩ | ⟨other, there⟩
  · obtain rfl := Option.some.inj (planned.symm.trans planned')
    rw [deeds_snoc_self]
    exact moved.others wider fun _ _ _ _ found => found
  · rw [deeds_snoc_of_ne other]
    refine (expected q d' i planned' there).others wider fun held k y home found => ?_
    rcases untouched k y found with stays | ⟨held', home'⟩
    · exact stays
    · -- Both would hold the one backend that the instance belongs to.
      have one := sole k _ _ home home'
      refine absurd (tracked.locks.sole p q u.key.backend ?_ ?_) other
      · simp [holding, planned, held']
      · simp [holding, planned', held, one]

/-- When all jobs are over, what was foretold is reported. -/
theorem Pool.Tracked.results {first : Session K} {units : List (TestUnit K.Recipe × Bool)}
    {t : List (Nat × Option (Deed K))} {x : Pool K} {asks : List Ask}
    {homes : Nat → String → Prop} (tracked : Tracked catalog replays base units t x asks)
    (expected : ∀ (p : Nat) (d : TestUnit K.Recipe × Bool) (j : Job K), units[p]? = some d →
      x.jobs[p]? = some j →
      j.Expected catalog replays first homes x.session d (gripping (deeds p t)))
    (complete : x.Complete) :
    x.jobs.map (·.unit.result) = units.map (foretold catalog replays first) := by
  apply List.ext_getElem?
  intro p
  rw [List.getElem?_map, List.getElem?_map]
  cases planned : units[p]? with
  | none =>
      have beyond : x.jobs[p]? = none := by
        rw [List.getElem?_eq_none_iff, tracked.everyJob]
        exact List.getElem?_eq_none_iff.mp planned
      rw [beyond]
      rfl
  | some d =>
      obtain ⟨a, j, _, here, _, _⟩ := tracked.stands p d planned
      have finished := complete j (List.mem_of_getElem? here)
      have ended := expected p d j planned here
      rw [here]
      cases ended with
      | finished reported => exact congrArg some reported
      | _ => cases finished

namespace Pool.Foretold

variable {first : Session K} {units : List (TestUnit K.Recipe × Bool)}
  {t : List (Nat × Option (Deed K))} {x y : Pool K} {asks : List Ask} {homes : Nat → String → Prop}

theorem step (foretold : Foretold catalog replays base first units t x asks homes)
    (independent : first.Independent catalog) (fresh : ∀ d ∈ units, d.1.IsFresh)
    (used : ∀ d ∈ units, catalog.Uses d.1.scenario.recipe) {l : Nat × Option (Deed K)}
    (step : Step catalog replays workers x l y) :
    ∃ asks' homes', Foretold catalog replays base first units (t ++ [l]) y asks' homes' := by
  cases step with
  | @step p j j' d s here goes turn =>
      obtain ⟨u, runs, a, a', planned, asked, mine, stands, effect, tracked'⟩ :=
        foretold.tracked.goes_on fresh here goes
      have sound := foretold.tracked.sound
      have expected := foretold.expected p _ j planned here
      have housed := foretold.housed
      obtain ⟨homes', wider, housed'⟩ := effect.preserves (Ask.Housed catalog first) asked expected
        (fun _ _ => housed.frame rfl rfl (fun _ _ cached => cached) housed.kept)
        (fun _ _ _ moves => housed.move sound independent asked moves)
        (fun _ _ _ _ _ home target within performed => housed.call home target within performed)
      obtain ⟨expected', untouched⟩ := expected.goes_on housed.houses (independent.restarts _)
        (used _ (List.mem_of_getElem? planned)) mine
        (fun ds v stands => housed.of_done sound asked stands) stands goes effect
      exact ⟨asks.set p a', homes', tracked', housed',
        foretold.tracked.onward housed.sole foretold.expected wider planned expected' untouched⟩

theorem run (foretold : Foretold catalog replays base first units t x asks homes)
    (independent : first.Independent catalog) (fresh : ∀ d ∈ units, d.1.IsFresh)
    (used : ∀ d ∈ units, catalog.Uses d.1.scenario.recipe) {t' : List (Nat × Option (Deed K))}
    (run : Run catalog replays workers x t' y) :
    ∃ asks' homes', Foretold catalog replays base first units (t ++ t') y asks' homes' := by
  induction run generalizing t asks homes with
  | nil x => exact ⟨asks, homes, by simpa using foretold⟩
  | cons step _ ih =>
      obtain ⟨asks', homes', foretold'⟩ := foretold.step independent fresh used step
      obtain ⟨asks'', homes'', foretold''⟩ := ih foretold'
      exact ⟨asks'', homes'', by simpa using foretold''⟩

theorem start (replays : Nat) {s : Session K} (quiet : s.Quiet) (independent : s.Independent catalog)
    (fresh : ∀ d ∈ units, d.1.IsFresh) :
    ∃ asks homes, Foretold catalog replays s.contexts.length s units [] ⟨units.map Job.start, s⟩
      asks homes :=
  ⟨_, _, .start catalog replays units quiet.orderly quiet.idle,
    .start quiet.orderly independent _, fun _ _ _ planned here => .start fresh planned here⟩

theorem results (foretold : Foretold catalog replays base first units t x asks homes)
    (complete : x.Complete) :
    x.jobs.map (·.unit.result) = units.map (Concord.foretold catalog replays first) :=
  foretold.tracked.results foretold.expected complete

end Pool.Foretold

theorem key_foretold (first : Session K) (d : TestUnit K.Recipe × Bool) :
    (foretold catalog replays first d).key = d.1.key := by
  unfold foretold
  split
  · split
    · exact key_unresolved (d.1.onWay .resolving) _
    · exact key_executed (d.1.onWay .running) _
  · rfl

/-! ### Runs -/

namespace Harness

/-- Whatever the number of workers and however they interleave, a complete run without a deadline
reports what was foretold. -/
theorem results_eq_foretold {h : Harness K} {planned : List (Planned K.Recipe)}
    (quiet : h.session.Quiet) (plan : h.catalog.plan = .ok planned)
    (calm : (h.decisions planned).interrupt = none)
    (independent : (h.launched planned #[]).Independent h.catalog) {log : Array Record}
    {t : List (Nat × Option (Deed K))} {x : Pool K}
    (run : Pool.Run h.catalog h.replays workers ⟨h.jobs planned, h.launched planned log⟩ t x)
    (complete : x.Complete) :
    x.jobs.map (·.unit.result) =
      (decided (h.decisions planned).entries).map
        (foretold h.catalog h.replays (h.launched planned #[])) := by
  have fresh := h.isFresh_of_decided plan calm
  have independent' : (h.launched planned log).Independent h.catalog :=
    ⟨independent.apart, independent.returns, independent.unmoved, independent.restarts⟩
  obtain ⟨asks, homes, start⟩ := Pool.Foretold.start h.replays
    (quiet_launched quiet planned log) independent' fresh
  obtain ⟨asks', homes', ended⟩ := start.run independent' fresh (h.uses_of_decided plan calm) run
  exact ended.results complete

/-- Where the supplied code keeps to itself, a run without a deadline reports the same, in plan
order, with any number of workers and in any complete interleaving of their steps. -/
theorem run_schedule_independent {h : Harness K} {planned : List (Planned K.Recipe)}
    (quiet : h.session.Quiet) (plan : h.catalog.plan = .ok planned)
    (independent : (h.launched planned #[]).Independent h.catalog) :
    (∃ f, (h.decisions planned).interrupt = some f ∧
        ∀ workers : Int, 1 ≤ workers → ∃ h', h.run workers none = (.error f, h')) ∨
      ∃ results h₁, h.run 1 none = (.ok ⟨h.runName (h.runs + 1), results⟩, h₁) ∧
        results.map (·.key) = (planned.flatMap (·.units)).map (·.key) ∧
        ∀ workers : Int, 1 ≤ workers →
          (∃ h', h.run workers none = (.ok ⟨h.runName (h.runs + 1), results⟩, h')) ∧
          ∀ log t x, Pool.Run h.catalog h.replays workers.toNat
              ⟨h.jobs planned, h.launched planned log⟩ t x → x.Complete →
            x.jobs.map (·.unit.result) = results := by
  cases interrupt : (h.decisions planned).interrupt with
  | some f =>
      refine .inl ⟨f, rfl, fun workers positive => ?_⟩
      obtain ⟨h', raised, _⟩ := run_interrupted none positive plan interrupt
      exact ⟨h', raised⟩
  | none =>
      have reports (workers : Int) (positive : 1 ≤ workers) :
          ∃ h', h.run workers none = (.ok ⟨h.runName (h.runs + 1),
            (decided (h.decisions planned).entries).map
              (foretold h.catalog h.replays (h.launched planned #[]))⟩, h') := by
        obtain ⟨log, t, x, h', ran, run, complete, _⟩ :=
          run_eq_complete quiet positive plan interrupt
        rw [results_eq_foretold quiet plan interrupt independent run complete] at ran
        exact ⟨h', ran⟩
      obtain ⟨h₁, ran⟩ := reports 1 (by decide)
      refine .inr ⟨_, h₁, ran, ?_, fun workers positive => ⟨reports workers positive, ?_⟩⟩
      · rw [← h.decided_in_order interrupt, List.map_map, List.map_map]
        exact List.map_congr_left fun d _ => key_foretold _ d
      · intro log t x run complete
        exact results_eq_foretold quiet plan interrupt independent run complete

end Harness

namespace Samples

open PlainText

theorem mixed_independent (planned : List (Planned Recipe)) :
    (mixed.launched planned #[]).Independent mixed.catalog := by
  have unknown (i : String) : (mixed.launched planned #[]).known i = none := by
    have unasked : (mixed.launched planned #[]).cache = [] := mixed_built.idle.2.1
    simp [Session.known, unasked]
  have constructs {i : String} {b : Backend kit} (registered : mixed.catalog.backend? i = some b) :=
    mixed_constructs (List.mem_of_find?_eq_some registered)
  constructor
  case apart =>
    intro i j k published
    rw [unknown] at published
    cases published
  case returns =>
    intro i b registered _
    rcases constructs registered with ⟨level, returns⟩ | raises
    · exact .inl ⟨_, returns _⟩
    · exact .inr ⟨_, raises _, rfl⟩
  case unmoved =>
    intro i b t registered _ _
    rcases constructs registered with ⟨level, returns⟩ | raises
    · rw [returns, returns]
    · rw [raises, raises]
  case restarts =>
    intro i x promised
    obtain ⟨b, registered, made⟩ := Session.constructed_of_promise (unknown i) promised
    rcases constructs registered with ⟨level, returns⟩ | raises
    · rw [returns] at made
      cases made
      exact parser_restarts level defaultCharset rfl (fun _ => mixed_pure) _
    · rw [raises] at made
      cases made

end Samples

namespace Harness

/-- Three workers report on the sample harness what one worker reports. -/
theorem run_schedule_independent_mixed :
    ∃ results h₁ h₃, Samples.mixed.run 1 none = (.ok ⟨"run-0001", results⟩, h₁) ∧
      Samples.mixed.run 3 none = (.ok ⟨"run-0001", results⟩, h₃) ∧ results.length = 8 := by
  obtain ⟨planned, plan, length⟩ := Samples.mixed_plan
  rcases run_schedule_independent Samples.mixed_built.quiet plan (Samples.mixed_independent planned)
    with ⟨f, interrupt, _⟩ | ⟨results, h₁, ran, keys, same⟩
  · have calm := Environment.decide_contained Samples.mixed_probes Samples.mixed.session.shared planned
    rw [decisions, calm] at interrupt
    cases interrupt
  · obtain ⟨⟨h₃, ran'⟩, _⟩ := same 3 (by decide)
    have counted := congrArg List.length keys
    rw [List.length_map, List.length_map, length] at counted
    exact ⟨results, h₁, h₃, Samples.mixed_runName ▸ ran, Samples.mixed_runName ▸ ran', counted⟩

end Harness

end Concord
