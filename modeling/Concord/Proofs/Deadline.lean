import Concord.Proofs.Determinism
import Concord.Proofs.ScheduleIndependence
/-!
Deadlines. When a deadline passes, the contexts are cleared and the units are reported one after the
other, while the workers that are not done go on behind the reader. Where constructors always answer
alike, what a finished unit shows is what was foretold of it when the workers began, and a unit that is
not finished shows nothing but where it was left: a deadline loses verdicts and changes none.
-/

namespace Concord

variable {K : Kit} {catalog : Catalog K} {replays workers : Nat}

/-! ### Reports that are cut off -/

/-- The results of the jobs from the `n`th on, read one after the other. Between two reads any worker
may take steps, whether or not its turn has come, and the contexts may be cleared. -/
inductive Pool.Reports (catalog : Catalog K) (replays : Nat) : Pool K → Nat → List Result → Prop
  | done {x : Pool K} {n : Nat} (all : x.jobs.length = n) : Reports catalog replays x n []
  | reads {x : Pool K} {n : Nat} {j : Job K} {rs : List Result} (here : x.jobs[n]? = some j)
      (rest : Reports catalog replays x (n + 1) rs) :
      Reports catalog replays x n (j.unit.result :: rs)
  | steps {x : Pool K} {n p : Nat} {j j' : Job K} {d : Option (Deed K)} {s : Session K}
      {rs : List Result} (here : x.jobs[p]? = some j) (goes : j.Step catalog replays x.session d j' s)
      (rest : Reports catalog replays ⟨x.jobs.set p j', s⟩ n rs) : Reports catalog replays x n rs
  | clears {x : Pool K} {n : Nat} {rs : List Result}
      (rest : Reports catalog replays ⟨x.jobs, x.session.clear⟩ n rs) :
      Reports catalog replays x n rs

/-- What may be reported of a decided unit when the run is cut off: the whole result, or, if the gate
has approved the unit, that it was left on its way. -/
inductive Cut {ρ : Type} (d : TestUnit ρ × Bool) (whole : Result) : Result → Prop
  | kept : Cut d whole whole
  | lost {phase : Phase} (approved : d.2 = true)
      (left : phase ∈ [Phase.pending, Phase.resolving, Phase.running]) :
      Cut d whole (d.1.left phase)

/-- A report that was cut off, beside the whole one: there is a result for every unit, in order; it is
the whole one, or lost; and a unit that the gate has rejected is skipped in both. -/
structure Curtails {ρ : Type} (units : List (TestUnit ρ × Bool)) (whole cut : List Result) :
    Prop where
  inOrder : cut.map (·.key) = units.map (·.1.key)
  each : ∀ (p : Nat) (d : TestUnit ρ × Bool), units[p]? = some d →
    ∃ w r, whole[p]? = some w ∧ cut[p]? = some r ∧ Cut d w r
  rejected : ∀ (p : Nat) (u : TestUnit ρ), units[p]? = some (u, false) →
    whole[p]? = some u.rejected ∧ cut[p]? = some u.rejected

/-- Whoever reads without a pause reads the pool as it stands. -/
theorem Pool.Reports.at_once (x : Pool K) (n : Nat) (inside : n ≤ x.jobs.length) :
    Reports catalog replays x n ((x.jobs.drop n).map (·.unit.result)) := by
  induction left : x.jobs.length - n generalizing n with
  | zero =>
      have all : x.jobs.length = n := by omega
      rw [List.drop_eq_nil_of_le (by omega)]
      exact .done all
  | succ m ih =>
      have here : n < x.jobs.length := by omega
      rw [List.drop_eq_getElem_cons here]
      exact .reads (List.getElem?_eq_getElem here) (ih (n + 1) here (by omega))

/-! ### What a unit shows at any time -/

/-- At any time a unit shows what was foretold, or where it is left. -/
theorem Job.Expected.cut {first s : Session K} {homes : Nat → String → Prop}
    {d : TestUnit K.Recipe × Bool} {held : Bool} {j : Job K} {a : Ask} {ds : List (Deed K)}
    (fresh : d.1.IsFresh) (stands : Job.Stands catalog replays d a ds j)
    (expected : j.Expected catalog replays first homes s d held) :
    Cut d (foretold catalog replays first d) j.unit.result := by
  have finished {u : TestUnit K.Recipe}
      (ended : Job.Expected catalog replays first homes s d held ⟨u, .over⟩) :
      Cut d (foretold catalog replays first d) u.result := by
    cases ended with
    | finished reported => exact reported ▸ .kept
  cases stands with
  | rejected u => exact finished expected
  | queued u =>
      have fresh' : u.IsFresh := fresh
      have pending : u.result = u.left .pending := by
        rw [fresh']
        rfl
      exact pending ▸ .lost rfl (by simp)
  | @resolving u _ _ _ stands =>
      rw [u.result_onWay rfl]
      exact .lost rfl (by simp)
  | unresolved stands => exact finished expected
  | @running u _ _ _ _ _ stands stint =>
      rw [u.result_onWay rfl]
      exact .lost rfl (by simp)
  | executed stands stint => exact finished expected

theorem key_cut {ρ : Type} {d : TestUnit ρ × Bool} {w r : Result} (cut : Cut d w r)
    (same : w.key = d.1.key) : r.key = d.1.key := by
  cases cut with
  | kept => exact same
  | lost approved left => rfl

/-! ### Pools that are cleared -/

theorem Pool.Tracked.clear {base : Nat} {units : List (TestUnit K.Recipe × Bool)}
    {t : List (Nat × Option (Deed K))} {x : Pool K} {asks : List Ask}
    (tracked : Tracked catalog replays base units t x asks) :
    Tracked catalog replays base units t ⟨x.jobs, x.session.clear⟩ asks :=
  ⟨tracked.everyJob, tracked.everyAsk, tracked.stands, tracked.sound.clear, tracked.locks⟩

/-- The jobs are tracked, the instances are rooted, and every job is on the way to what was foretold,
whatever was cleared meanwhile. -/
structure Pool.Assured (catalog : Catalog K) (replays : Nat) (first : Session K)
    (units : List (TestUnit K.Recipe × Bool)) (t : List (Nat × Option (Deed K))) (x : Pool K)
    (asks : List Ask) (homes : Nat → String → Prop) : Prop where
  tracked : Tracked catalog replays first.contexts.length units t x asks
  rooted : Ask.Rooted catalog first homes asks x.session
  expected : ∀ (p : Nat) (d : TestUnit K.Recipe × Bool) (j : Job K), units[p]? = some d →
    x.jobs[p]? = some j →
    j.Expected catalog replays first.clear homes x.session d (gripping (deeds p t))

namespace Pool.Assured

variable {first : Session K} {units : List (TestUnit K.Recipe × Bool)}
  {t : List (Nat × Option (Deed K))} {x y : Pool K} {asks : List Ask} {homes : Nat → String → Prop}

theorem start (replays : Nat) {s : Session K} (quiet : s.Quiet)
    (deterministic : s.Deterministic catalog) (fresh : ∀ d ∈ units, d.1.IsFresh) :
    ∃ asks homes, Assured catalog replays s units [] ⟨units.map Job.start, s⟩ asks homes :=
  ⟨_, _, .start catalog replays units quiet.orderly quiet.idle,
    .start quiet.orderly deterministic _, fun _ _ _ planned here => .start fresh planned here⟩

theorem goes_on (assured : Assured catalog replays first units t x asks homes)
    (deterministic : first.Deterministic catalog) (fresh : ∀ d ∈ units, d.1.IsFresh)
    (used : ∀ d ∈ units, catalog.Uses d.1.scenario.recipe) {p : Nat} {j j' : Job K}
    {d : Option (Deed K)} {s : Session K} (here : x.jobs[p]? = some j)
    (goes : j.Step catalog replays x.session d j' s) :
    ∃ asks' homes', Assured catalog replays first units (t ++ [(p, d)]) ⟨x.jobs.set p j', s⟩ asks'
      homes' := by
  obtain ⟨u, runs, a, a', planned, asked, mine, stands, effect, tracked'⟩ :=
    assured.tracked.goes_on fresh here goes
  have sound := assured.tracked.sound
  have expected := assured.expected p _ j planned here
  have rooted := assured.rooted
  obtain ⟨homes', wider, rooted'⟩ := effect.preserves (Ask.Rooted catalog first) asked expected
    (fun _ _ => rooted.frame rfl rfl rooted.cached rooted.kept)
    (fun _ _ _ moves => rooted.move sound deterministic asked moves)
    (fun _ _ _ _ _ home target within performed => rooted.call home target within performed)
  obtain ⟨expected', untouched⟩ := expected.goes_on rooted.houses (deterministic.restarts _)
    (used _ (List.mem_of_getElem? planned)) mine
    (fun ds v stands => rooted.of_done sound asked stands) stands goes effect
  exact ⟨asks.set p a', homes', tracked', rooted',
    assured.tracked.onward rooted.houses.sole assured.expected wider planned expected' untouched⟩

theorem run (assured : Assured catalog replays first units t x asks homes)
    (deterministic : first.Deterministic catalog) (fresh : ∀ d ∈ units, d.1.IsFresh)
    (used : ∀ d ∈ units, catalog.Uses d.1.scenario.recipe) {t' : List (Nat × Option (Deed K))}
    (run : Run catalog replays workers x t' y) :
    ∃ t'' asks' homes', Assured catalog replays first units t'' y asks' homes' := by
  induction run generalizing t asks homes with
  | nil x => exact ⟨t, asks, homes, assured⟩
  | cons step _ ih =>
      cases step with
      | step here goes _ =>
          obtain ⟨asks', homes', assured'⟩ := assured.goes_on deterministic fresh used here goes
          exact ih assured'

theorem clear (assured : Assured catalog replays first units t x asks homes) :
    Assured catalog replays first units t ⟨x.jobs, x.session.clear⟩ asks homes := by
  refine ⟨assured.tracked.clear, assured.rooted.clear, fun p d j planned here => ?_⟩
  exact (assured.expected p d j planned here).others (fun _ _ home => home)
    fun _ _ _ _ found => found

theorem cut (assured : Assured catalog replays first units t x asks homes)
    (fresh : ∀ d ∈ units, d.1.IsFresh) {p : Nat} {d : TestUnit K.Recipe × Bool}
    (planned : units[p]? = some d) :
    ∃ j, x.jobs[p]? = some j ∧ Cut d (foretold catalog replays first.clear d) j.unit.result := by
  obtain ⟨a, j, _, here, _, stands⟩ := assured.tracked.stands p d planned
  exact ⟨j, here, (assured.expected p d j planned here).cut (fresh d (List.mem_of_getElem? planned))
    stands⟩

/-- Whatever happens while a report is read, each result that is read is whole or lost. -/
theorem reports (assured : Assured catalog replays first units t x asks homes)
    (deterministic : first.Deterministic catalog) (fresh : ∀ d ∈ units, d.1.IsFresh)
    (used : ∀ d ∈ units, catalog.Uses d.1.scenario.recipe) {n : Nat} {rs : List Result}
    (reports : Reports catalog replays x n rs) :
    n + rs.length = units.length ∧ ∀ (q : Nat) (d : TestUnit K.Recipe × Bool),
      units[n + q]? = some d →
      ∃ r, rs[q]? = some r ∧ Cut d (foretold catalog replays first.clear d) r := by
  induction reports generalizing t asks homes with
  | @done x n all =>
      have ended : n = units.length := all.symm.trans assured.tracked.everyJob
      refine ⟨by simpa using ended, fun q d planned => ?_⟩
      have inside := (List.getElem?_eq_some_iff.mp planned).1
      omega
  | @reads x n j rs here rest ih =>
      obtain ⟨length, later⟩ := ih assured
      refine ⟨by rw [List.length_cons]; omega, fun q d planned => ?_⟩
      cases q with
      | zero =>
          obtain ⟨j', here', cut⟩ := assured.cut fresh planned
          obtain rfl := Option.some.inj (here.symm.trans here')
          exact ⟨_, rfl, cut⟩
      | succ q =>
          have planned' : units[n + 1 + q]? = some d := by
            rw [← planned]
            congr 1
            omega
          simpa using later q d planned'
  | steps here goes _ ih =>
      obtain ⟨asks', homes', assured'⟩ := assured.goes_on deterministic fresh used here goes
      exact ih assured'
  | clears _ ih => exact ih assured.clear

theorem curtails (assured : Assured catalog replays first units t x asks homes)
    (deterministic : first.Deterministic catalog) (fresh : ∀ d ∈ units, d.1.IsFresh)
    (used : ∀ d ∈ units, catalog.Uses d.1.scenario.recipe) {rs : List Result}
    (reported : Reports catalog replays x 0 rs) :
    Curtails units (units.map (foretold catalog replays first.clear)) rs := by
  obtain ⟨length, each⟩ := assured.reports deterministic fresh used reported
  simp only [Nat.zero_add] at length each
  constructor
  case inOrder =>
    apply List.ext_getElem?
    intro p
    rw [List.getElem?_map, List.getElem?_map]
    cases planned : units[p]? with
    | none =>
        have beyond : rs[p]? = none := by
          rw [List.getElem?_eq_none_iff, length]
          exact List.getElem?_eq_none_iff.mp planned
        rw [beyond]
        rfl
    | some d =>
        obtain ⟨r, read, cut⟩ := each p d planned
        rw [read]
        exact congrArg some (key_cut cut (key_foretold _ d))
  case each =>
    intro p d planned
    obtain ⟨r, read, cut⟩ := each p d planned
    exact ⟨_, r, by simp [planned], read, cut⟩
  case rejected =>
    intro p u planned
    obtain ⟨r, read, cut⟩ := each p _ planned
    refine ⟨by simp [planned, foretold], ?_⟩
    cases cut with
    | kept => simpa [foretold] using read
    | lost approved left => cases approved

/-- A complete pool has lost nothing. -/
theorem results (assured : Assured catalog replays first units t x asks homes)
    (complete : x.Complete) :
    x.jobs.map (·.unit.result) = units.map (foretold catalog replays first.clear) :=
  assured.tracked.results assured.expected complete

end Pool.Assured

/-! ### Runs with a deadline -/

namespace Harness

/-- The whole report, as it can be told when the workers begin. -/
def wholeReport (h : Harness K) (planned : List (Planned K.Recipe)) : List Result :=
  (decided (h.decisions planned).entries).map
    (foretold h.catalog h.replays (h.launched planned #[]).clear)

/-- However many workers there are and wherever they are cut off, a report that is read afterwards
curtails the whole one; and if they are done, nothing is lost. -/
theorem curtails_of_run {h : Harness K} {planned : List (Planned K.Recipe)}
    (quiet : h.session.Quiet) (plan : h.catalog.plan = .ok planned)
    (calm : (h.decisions planned).interrupt = none)
    (deterministic : (h.launched planned #[]).Deterministic h.catalog) {log : Array Record}
    {t : List (Nat × Option (Deed K))} {x : Pool K}
    (run : Pool.Run h.catalog h.replays workers ⟨h.jobs planned, h.launched planned log⟩ t x) :
    (x.Complete → x.jobs.map (·.unit.result) = h.wholeReport planned) ∧
      ∀ cut, Pool.Reports h.catalog h.replays x 0 cut →
        Curtails (decided (h.decisions planned).entries) (h.wholeReport planned) cut := by
  have fresh := h.isFresh_of_decided plan calm
  have used := h.uses_of_decided plan calm
  have deterministic' : (h.launched planned log).Deterministic h.catalog :=
    ⟨deterministic.returns, deterministic.repeats, deterministic.apart, deterministic.failed,
      deterministic.made, deterministic.restarts⟩
  obtain ⟨asks, homes, start⟩ := Pool.Assured.start h.replays
    (quiet_launched quiet planned log) deterministic' fresh
  obtain ⟨t', asks', homes', assured⟩ := start.run deterministic' fresh used run
  exact ⟨fun complete => assured.results complete,
    fun cut reports => assured.curtails deterministic' fresh used reports⟩

/-- Where constructors always answer alike, a deadline loses verdicts and changes none. The run without
a deadline reports the same with any number of workers; a run with one, and any report that is read
after the workers were cut off at any point, holds for every unit, in plan order, that result or that
the unit was left pending, resolving or running. Only a deadline that nobody can wait for cuts nothing
off; it may leave the run without a report. -/
theorem run_deadline_curtails {h : Harness K} {planned : List (Planned K.Recipe)}
    (quiet : h.session.Quiet) (plan : h.catalog.plan = .ok planned)
    (deterministic : (h.launched planned #[]).Deterministic h.catalog) :
    (∃ f, (h.decisions planned).interrupt = some f ∧
        ∀ (workers : Int) (deadline : Option Text.Seconds), 1 ≤ workers →
          ∃ h', h.run workers deadline = (.error f, h')) ∨
      (decided (h.decisions planned).entries).map (·.1) = planned.flatMap (·.units) ∧
      ∃ results, results.map (·.key) = (planned.flatMap (·.units)).map (·.key) ∧
        ∀ workers : Int, 1 ≤ workers →
          (∃ h', h.run workers none = (.ok ⟨h.runName (h.runs + 1), results⟩, h')) ∧
          (∀ seconds,
            (∃ f h', waitFault? seconds = some f ∧ h.run workers (some seconds) = (.error f, h')) ∨
            ∃ cut h', h.run workers (some seconds) = (.ok ⟨h.runName (h.runs + 1), cut⟩, h') ∧
              Curtails (decided (h.decisions planned).entries) results cut) ∧
          ∀ log t x, Pool.Run h.catalog h.replays workers.toNat
              ⟨h.jobs planned, h.launched planned log⟩ t x →
            (x.Complete → x.jobs.map (·.unit.result) = results) ∧
            ∀ cut, Pool.Reports h.catalog h.replays x 0 cut →
              Curtails (decided (h.decisions planned).entries) results cut := by
  cases interrupt : (h.decisions planned).interrupt with
  | some f =>
      refine .inl ⟨f, rfl, fun workers deadline positive => ?_⟩
      obtain ⟨h', raised, _⟩ := run_interrupted deadline positive plan interrupt
      exact ⟨h', raised⟩
  | none =>
      refine .inr ⟨h.decided_in_order interrupt, h.wholeReport planned, ?_,
        fun workers positive => ⟨?_, ?_, ?_⟩⟩
      · rw [← h.decided_in_order interrupt, wholeReport, List.map_map, List.map_map]
        exact List.map_congr_left fun d _ => key_foretold _ d
      · obtain ⟨log, t, x, h', ran, run, complete, _⟩ :=
          run_eq_complete quiet positive plan interrupt
        rw [(curtails_of_run quiet plan interrupt deterministic run).1 complete] at ran
        exact ⟨h', ran⟩
      · intro seconds
        obtain ⟨log, t, x, h', ran, run, _⟩ :=
          run_eq_interleaving (some seconds) quiet positive plan interrupt
        have curtails := (curtails_of_run quiet plan interrupt deterministic run).2
        cases overrun : overrun? (some seconds) x.jobs with
        | some f =>
            rw [ending_of_overrun overrun] at ran
            exact .inl ⟨f, h', waitFault?_of_overrun overrun, ran⟩
        | none =>
            rw [ending_of_patient overrun] at ran
            exact .inr ⟨_, h', ran, curtails _ (.at_once x 0 (Nat.zero_le _))⟩
      · intro log t x run
        exact curtails_of_run quiet plan interrupt deterministic run

end Harness

/-! ### A sample with a constructor that outlasts every deadline -/

namespace PlainText

/-- Constructors of plain-text parsers that take no notice of the shared state answer alike, and with
pure recipes a reset makes such parsers forget. -/
theorem deterministic_of_pure {h : Harness kit} (built : h.Built)
    (constructs : ∀ b ∈ h.catalog.backends, ∃ level charset, ∀ t,
      (b.construct t).result = .ok (fresh (parser level charset .plain)))
    (pure : ∀ r, h.catalog.Uses r → ∀ source s t, (r.apply source s).1 = (r.apply source t).1)
    (planned : List (Planned Recipe)) : (h.launched planned #[]).Deterministic h.catalog := by
  have unknown (i : String) : (h.launched planned #[]).known i = none := by
    have unasked : (h.launched planned #[]).cache = [] := built.idle.2.1
    simp [Session.known, unasked]
  have registered {i : String} {b : Backend kit} (found : h.catalog.backend? i = some b) :=
    constructs b (List.mem_of_find?_eq_some found)
  constructor
  case returns =>
    intro i b found
    obtain ⟨level, charset, returned⟩ := registered found
    exact .inl ⟨_, returned _⟩
  case repeats =>
    intro i b t found _
    obtain ⟨level, charset, returned⟩ := registered found
    rw [returned, returned]
  case apart =>
    intro i j k published
    rw [unknown] at published
    cases published
  case failed =>
    intro i f _ published
    rw [unknown] at published
    cases published
  case made =>
    intro i k _ published
    rw [unknown] at published
    cases published
  case restarts =>
    intro i x promised
    obtain ⟨b, found, made⟩ := Session.constructed_of_promise rfl promised
    obtain ⟨level, charset, returned⟩ := registered found
    rw [returned] at made
    cases made
    exact parser_restarts level charset rfl pure _

end PlainText

namespace Samples

open PlainText

def sluggishRegistrations : List (Registration kit) :=
  [addImport, plain "V8" 8 0 "", backend "Slow" 8 (.block 8 defaultCharset) 1 "",
   plain "V11" 11 2 "", bind "V8" ["AddImport"], bind "Slow" ["AddImport"],
   .binding ⟨"V11", ["AddImport"], true, none⟩]

/-- A harness with a parser, a backend whose construction takes long, and one behind the gate. -/
def sluggish : Harness kit :=
  ((Harness.start (K := kit) {} (.make false [] []) defaultReplays (numberedRun "run")).registerAll
    sluggishRegistrations).2

theorem sluggish_built : sluggish.Built := Harness.Built.registerAll (.start ..) _

theorem sluggish_deterministic (planned : List (Planned Recipe)) :
    (sluggish.launched planned #[]).Deterministic sluggish.catalog := by
  refine deterministic_of_pure sluggish_built (fun b member => ?_) (fun r used => ?_) planned
  · rcases Harness.mem_backends_of_registerAll member with impossible | listed
    · cases impossible
    · simp only [sluggishRegistrations, addImport, plain, backend, bind, List.mem_cons,
        List.not_mem_nil, Registration.backend.injEq, reduceCtorEq, or_false, false_or] at listed
      rcases listed with rfl | rfl | rfl <;> exact ⟨_, _, fun t => rfl⟩
  · rcases Harness.uses_of_registerAll used with ⟨_, impossible, _⟩ | ⟨_, _, _, listed, s, inside, same⟩
    · cases impossible
    · simp only [sluggishRegistrations, addImport, plain, backend, bind, List.mem_cons,
        List.not_mem_nil, Registration.contract.injEq, reduceCtorEq, or_false] at listed
      obtain ⟨_, rfl, _⟩ := listed
      simp only [List.mem_cons, List.not_mem_nil, or_false] at inside
      intro source t t'
      rcases inside with rfl | rfl <;> rw [← same, apply_addImport, apply_addImport]

end Samples

namespace Harness

/-- One worker passes every unit that the gate approves. With a deadline it does not come back from the
slow constructor: the unit that asked for it is left resolving and the next one pending. -/
theorem run_deadline_curtails_sluggish :
    ∃ planned results cut h₁ h₂, Samples.sluggish.catalog.plan = .ok planned ∧
      Samples.sluggish.run 1 none = (.ok ⟨"run-0001", results⟩, h₁) ∧
      Samples.sluggish.run 1 (some (.whole 5)) = (.ok ⟨"run-0001", cut⟩, h₂) ∧
      results.map (·.outcome) = [.passed, .passed, .passed, .passed, .skipped, .skipped] ∧
      cut.map (·.outcome) = [.passed, .passed, .stuck, .stuck, .skipped, .skipped] ∧
      Curtails (decided (Samples.sluggish.decisions planned).entries) results cut := by
  have whole : (Samples.sluggish.run 1 none).1.toOption.map (·.results.map (·.outcome)) =
      some [.passed, .passed, .passed, .passed, .skipped, .skipped] := by decide +kernel
  have part : (Samples.sluggish.run 1 (some (.whole 5))).1.toOption.map
      (·.results.map (·.outcome)) =
        some [.passed, .passed, .stuck, .stuck, .skipped, .skipped] := by decide +kernel
  have plans : Samples.sluggish.catalog.plan.toOption.isSome = true := by decide +kernel
  have named : Samples.sluggish.runName (Samples.sluggish.runs + 1) = "run-0001" := by
    decide +kernel
  have one : (1 : Int) ≤ 1 := by decide
  cases plan : Samples.sluggish.catalog.plan with
  | error f => simp [plan, Except.toOption] at plans
  | ok planned =>
      rcases run_deadline_curtails Samples.sluggish_built.quiet plan
        (Samples.sluggish_deterministic planned) with ⟨f, _, raised⟩ | ⟨_, results, _, reports⟩
      · obtain ⟨h', ran⟩ := raised 1 none one
        rw [ran] at whole
        cases whole
      · obtain ⟨⟨h₁, ran⟩, cuts, _⟩ := reports 1 one
        obtain ⟨_, _, impossible, _⟩ | ⟨cut, h₂, ran', curtails⟩ := cuts (.whole 5)
        · cases impossible
        refine ⟨planned, results, cut, h₁, h₂, rfl, named ▸ ran, named ▸ ran', ?_, ?_, curtails⟩
        · rw [ran] at whole
          simpa [Except.toOption] using whole
        · rw [ran'] at part
          simpa [Except.toOption] using part

end Harness

end Concord
