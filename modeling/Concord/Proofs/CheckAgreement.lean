import Concord.Proofs.Accounting
import Concord.Proofs.Deadline
import Concord.Proofs.Verdict
/-!
Checks and runs agree. A check resolves and executes one unit and leaves the backend resolved; a run
works off all units and forgets every backend afterwards. Where constructors always answer alike and
parsers forget at a reset, neither makes a difference to a verdict: whatever was checked and run before,
in whatever order and how often, a check of a unit comes to the one verdict that every run reports.
-/

namespace Concord

variable {K : Kit} {catalog : Catalog K} {replays : Nat}

namespace Harness

/-- What the resolution of an identity comes to where it has to be constructed. -/
def promise (h : Harness K) (identity : String) : Except Fault (Instance K) :=
  h.session.clear.promise h.catalog identity

/-- The shared states that the life of a harness can lead to: by probes, by constructors, and by calls
on the promised instances. -/
inductive Roams (h : Harness K) : K.Shared → Prop
  | start : Roams h h.session.shared
  | probe {t : K.Shared} {resource : String} {p : Probe K.Shared} (roams : Roams h t)
      (registered : h.environment.probes.lookup resource = some p) : Roams h (p.ask t).2
  | construct {t : K.Shared} {b : Backend K} (roams : Roams h t)
      (registered : h.catalog.backend? b.identity = some b) : Roams h (b.construct t).shared
  | call {t t' : K.Shared} {i : String} {x : Instance K} {own own' : K.Own} {action : Action K}
      {r : action.Answer} (roams : Roams h t) (promised : h.promise i = .ok x)
      (reached : x.parser.Reached h.catalog.Uses x.own own) (within : action.Within h.catalog.Uses)
      (taken : x.parser.take own t action = some (r, own', t')) : Roams h t'

/-- Constructors answer alike whenever they are called, with a parser or an ordinary fault; a reset
makes a parser forget what it was asked before; and parsers raise only errors of their own. -/
structure Steady (h : Harness K) : Prop where
  returns : ∀ i b, h.catalog.backend? i = some b →
    (∃ x, (b.construct h.session.shared).result = .ok (some x)) ∨
      ∃ f, (b.construct h.session.shared).result = .error f ∧ f.isOrdinary = true
  repeats : ∀ i b t, h.catalog.backend? i = some b → h.Roams t →
    (b.construct t).result = (b.construct h.session.shared).result
  restarts : ∀ i x, h.promise i = .ok x → x.parser.Restarts h.catalog.Uses x.own
  foreign : ∀ i x, h.promise i = .ok x → x.parser.RaisesForeign h.catalog.Uses x.own

/-- The verdict on a unit: the fault of its backend, or what is judged on the promised instance. -/
def verdict (h : Harness K) (u : TestUnit K.Recipe) : Except Fault String :=
  match h.promise u.key.backend with
  | .error f => .error f
  | .ok x => (x.parser.verdict h.replays u.key u.scenario x.own h.session.shared).result

theorem Roams.decide {ρ : Type} {h : Harness K} {e : Environment K.Shared} {s : K.Shared}
    (roams : h.Roams s) (probes : e.probes = h.environment.probes) (planned : List (Planned ρ)) :
    h.Roams (e.decide s planned).shared := by
  induction planned generalizing e s with
  | nil => exact roams
  | cons p ps ih =>
      obtain ⟨continues, asked⟩ := e.admitsBinding_cases p.binding s
      have next : h.Roams (e.admitsBinding p.binding s).shared := by
        rcases asked with ⟨_, _, _, _, unasked⟩ | ⟨probe, _, found, shared, _⟩
        · rw [unasked]
          exact roams
        · rw [shared]
          exact .probe roams (probes ▸ found)
      cases answer : (e.admitsBinding p.binding s).answer with
      | error f => simpa only [Environment.decide, answer] using next
      | ok runs =>
          simp only [Environment.decide, answer]
          exact ih next (continues.probes.trans probes)

end Harness

/-- Only registered identities come to be cached by a job. -/
theorem Job.Run.registered {j j' : Job K} {s s' : Session K} {ds : List (Option (Deed K))}
    (run : Job.Run catalog replays j s ds j' s') (books : (Party.job j).Books catalog) {i : String}
    (cached : (s'.cache.lookup i).isSome = true) :
    (s.cache.lookup i).isSome = true ∨ (catalog.backend? i).isSome = true := by
  induction run with
  | nil => exact .inl cached
  | cons step _ ih =>
      obtain ⟨books', _, booking⟩ := books.step (.works step)
      rcases ih books' cached with old | registered
      · rcases booking.new old with older | ⟨rfl, registered⟩
        · exact .inl older
        · exact .inr registered
      · exact .inr registered

namespace Harness

/-! ### What checks and runs leave -/

/-- A harness at some later time of its life: nobody is at work, and whatever it remembers of an
identity is what was promised. -/
structure Along (h₀ h : Harness K) : Prop where
  keeps : h₀.Keeps h
  quiet : h.session.Quiet
  roams : h₀.Roams h.session.shared
  registered : ∀ i, (h.session.cache.lookup i).isSome = true → (h₀.catalog.backend? i).isSome = true
  remembers : ∃ homes : Nat → String → Prop, h.session.Houses h₀.catalog h₀.promise homes ∧
    ∀ i o, h.session.known i = some o → Kept h₀.promise homes i (o.map some)

theorem Steady.promise_eq {h : Harness K} (steady : h.Steady) {s : Session K}
    (roams : h.Roams s.shared) : s.clear.promise h.catalog = h.promise := by
  funext i
  rw [promise, Session.promise_of_unknown rfl, Session.promise_of_unknown rfl]
  cases registered : h.catalog.backend? i with
  | none => rfl
  | some b =>
      have same := steady.repeats i b s.shared registered roams
      simp only [Session.clear, same]

theorem Roams.of_abroad {h : Harness K} {first t : K.Shared} (roams : h.Roams first)
    (abroad : Session.Abroad h.catalog h.promise first t) : h.Roams t := by
  induction abroad with
  | start => exact roams
  | construct _ registered ih => exact .construct ih registered
  | call _ promised reached within taken ih => exact .call ih promised reached within taken

namespace Along

variable {h₀ h h' : Harness K}

theorem start (built : h₀.Built) : h₀.Along h₀ := by
  have unasked : h₀.session.cache = [] := built.idle.2.1
  refine ⟨.refl h₀, built.quiet, .start, fun i cached => ?_, fun _ _ => False, ?_, fun i o known => ?_⟩
  · simp [unasked] at cached
  · exact ⟨fun _ _ _ impossible => impossible.elim, fun _ _ impossible => impossible.elim⟩
  · simp [Session.known, unasked] at known

/-- The session of a harness is as constructors that always answer alike leave it, whatever probes and
records have come since. -/
theorem deterministic (along : h₀.Along h) (steady : h₀.Steady) {t : K.Shared} (roams : h₀.Roams t)
    (log : Array Record) :
    ({ h.session with shared := t, log } : Session K).Deterministic h₀.catalog := by
  have promised : ({ h.session with shared := t, log } : Session K).clear.promise h₀.catalog =
      h₀.promise := steady.promise_eq roams
  obtain ⟨homes, houses, kept⟩ := along.remembers
  constructor
  case returns =>
    intro i b registered
    rw [steady.repeats i b t registered roams]
    exact steady.returns i b registered
  case repeats =>
    intro i b t' registered abroad
    rw [promised] at abroad
    rw [steady.repeats i b t' registered (roams.of_abroad abroad),
      steady.repeats i b t registered roams]
  case apart => exact fun i j k known known' => houses.sole k i j (kept i _ known) (kept j _ known')
  case failed =>
    intro i f _ known
    rw [promised]
    exact kept i _ known
  case made =>
    intro i k _ known
    rw [promised]
    exact houses.housed k i (kept i _ known)
  case restarts =>
    rw [promised]
    exact steady.restarts

/-- Asking probes and writing records leaves the rest as it is. -/
theorem probed (along : h₀.Along h) (keeps : h.Keeps h') {t : K.Shared} (roams : h₀.Roams t)
    {log : Array Record} (session : h'.session = { h.session with shared := t, log }) :
    h₀.Along h' := by
  constructor
  case keeps => exact along.keeps.trans keeps
  case quiet =>
    rw [session]
    exact along.quiet.frame t log
  case roams =>
    rw [session]
    exact roams
  case registered =>
    rw [session]
    exact along.registered
  case remembers =>
    obtain ⟨homes, houses, kept⟩ := along.remembers
    refine ⟨homes, ?_, ?_⟩
    · rw [session]
      exact ⟨houses.sole, houses.housed⟩
    · rw [session]
      exact kept

theorem decisions (along : h₀.Along h) (planned : List (Planned K.Recipe)) :
    h₀.Roams (h.decisions planned).shared :=
  along.roams.decide along.keeps.environment.probes planned

/-- What was begun on a harness and is over leaves it with what was promised. -/
theorem worked (along : h₀.Along h) (steady : h₀.Steady) (keeps : h.Keeps h') {t : K.Shared}
    (roams : h₀.Roams t) {log : Array Record} {homes : Nat → String → Prop} {asks : List Ask}
    (quiet : h'.session.Quiet)
    (rooted : Ask.Rooted h₀.catalog { h.session with shared := t, log } homes asks h'.session)
    (registered : ∀ i, (h'.session.cache.lookup i).isSome = true →
      (h₀.catalog.backend? i).isSome = true) : h₀.Along h' := by
  have promised : ({ h.session with shared := t, log } : Session K).clear.promise h₀.catalog =
      h₀.promise := steady.promise_eq roams
  have abroad := rooted.abroad
  have houses := rooted.houses
  rw [promised] at abroad houses
  refine ⟨along.keeps.trans keeps, quiet, roams.of_abroad abroad, registered, homes, houses, ?_⟩
  intro i o known
  -- What is known of an identity stands in its cached context, and contexts hold what was promised.
  obtain ⟨c, cached, found⟩ := Option.bind_eq_some_iff.mp known
  obtain ⟨y, at_c, published⟩ := Option.bind_eq_some_iff.mp found
  obtain ⟨z, at_c', rfl⟩ := quiet.orderly.cached i c cached
  obtain rfl := Option.some.inj (at_c.symm.trans at_c')
  have kept := rooted.kept c y o (rooted.cached _ c cached) at_c published
    (registered _ (by simp [cached]))
  rwa [promised] at kept

theorem clear (along : h₀.Along h) (keeps : h.Keeps h') {t : K.Shared} (roams : h₀.Roams t)
    (quiet : h'.session.Quiet) (shared : h'.session.shared = t) (forgotten : h'.session.cache = []) :
    h₀.Along h' := by
  refine ⟨along.keeps.trans keeps, quiet, shared ▸ roams, fun i cached => ?_, fun _ _ => False, ?_,
    fun i o known => ?_⟩
  · simp [forgotten] at cached
  · exact ⟨fun _ _ _ impossible => impossible.elim, fun _ _ impossible => impossible.elim⟩
  · simp [Session.known, forgotten] at known

end Along

/-! ### Verdicts that are told in advance -/

/-- A promise is broken only for want of a registration or by a failed construction. -/
theorem Steady.of_promise_error {h : Harness K} (steady : h.Steady) {i : String} {f : Fault}
    (promised : h.promise i = .error f) :
    f = .unregistered i ∨ ∃ why cause, f = .construction i why cause := by
  rw [promise, Session.promise_of_unknown rfl] at promised
  cases registered : h.catalog.backend? i with
  | none =>
      rw [registered] at promised
      cases promised
      exact .inl rfl
  | some b =>
      simp only [registered, Session.clear] at promised
      rcases steady.returns i b registered with ⟨x, returned⟩ | ⟨g, raised, ordinary⟩
      · rw [returned] at promised
        cases promised
      · rw [raised] at promised
        cases promised
        exact .inr ⟨g.described, some g.label, by simp only [publishedFailure, ordinary, if_true]⟩

/-- What is foretold of an approved unit agrees with its verdict. -/
theorem Steady.agrees {h : Harness K} (steady : h.Steady) {first : Session K}
    (roams : h.Roams first.shared) {u : TestUnit K.Recipe} (used : h.catalog.Uses u.scenario.recipe) :
    Agrees (h.verdict u) (foretold h.catalog h.replays first.clear (u, true)) := by
  simp only [foretold, verdict, steady.promise_eq roams, if_true]
  cases promised : h.promise u.key.backend with
  | error f =>
      dsimp only
      rw [result_unresolved]
      rcases steady.of_promise_error promised with rfl | ⟨why, cause, rfl⟩
      · exact (agrees_unavailable u).1 _
      · exact (agrees_unavailable u).2 _ why cause
  | ok x =>
      have restarts := steady.restarts _ x promised
      have judges (f : Fault)
          (raised : (x.parser.verdict h.replays u.key u.scenario x.own h.session.shared).result =
            .error f) : f.Judges :=
        x.parser.judges_verdict (steady.foreign _ x promised) used _ _ _ raised
      dsimp only
      rw [restarts.verdict_eq used h.replays u.key first.clear.shared h.session.shared,
        result_executed u fun f raised => (judges f raised).isOrdinary]
      exact agrees_judged u judges

end Harness

/-! ### Checks -/

/-- A job that knows the answer of its check. -/
inductive Job.Answers (u : TestUnit K.Recipe) : Job K → Except Fault String → Prop
  | unresolved (f : Fault) :
      Answers u ⟨u.onWay .resolving, .resolving (.done (.error f))⟩ (.error f)
  | executed (v : Except Fault String) : Answers u ⟨u.onWay .running, .running (.done v)⟩ v

/-- Such a job has one step left, which logs and ends it. -/
theorem Job.Answers.step {u : TestUnit K.Recipe} {j : Job K} {v : Except Fault String}
    (answers : j.Answers u v) (catalog : Catalog K) (replays : Nat) (s : Session K) :
    ∃ j' log, j.Step catalog replays s none j' { s with log } ∧ j'.stage.isOver = true := by
  cases answers with
  | unresolved f => exact ⟨_, _, .fails _ f s "", rfl⟩
  | executed v => exact ⟨_, _, .ends _ v s "", rfl⟩

theorem Job.Stands.of_resolving {d : TestUnit K.Recipe × Bool} {a : Ask} {ds : List (Deed K)}
    {j : Job K} (stands : Job.Stands catalog replays d a ds j)
    {w : Work K (Except Fault (Option Nat))} (stage : j.stage = .resolving w) :
    a.Stands catalog ds w := by
  cases stands with
  | resolving stands =>
      cases stage
      exact stands
  | _ => cases stage

/-- The answer is the promised fault, or the verdict on the promised instance. -/
theorem Pool.Assured.answer {first s : Session K} {u : TestUnit K.Recipe}
    {t : List (Nat × Option (Deed K))} {j : Job K} {asks : List Ask} {homes : Nat → String → Prop}
    (assured : Assured catalog replays first [(u, true)] t ⟨[j], s⟩ asks homes)
    {v : Except Fault String} (answers : j.Answers u v) :
    v = match first.clear.promise catalog u.key.backend with
      | .error f => .error f
      | .ok x => (x.parser.verdict replays u.key u.scenario x.own first.shared).result := by
  cases answers with
  | unresolved f =>
      obtain ⟨a, j, asked, here, mine, stands⟩ := assured.tracked.stands 0 (u, true) rfl
      cases here
      have kept := assured.rooted.of_done assured.tracked.sound asked (stands.of_resolving rfl)
      have promised : first.clear.promise catalog u.key.backend = .error f := mine ▸ kept
      rw [promised]
  | executed v =>
      have expected := assured.expected 0 (u, true) _ rfl rfl
      cases expected with
      | running home promised holds state foretells =>
          cases foretells
          rw [promised]
          rfl

namespace Harness

/-- A check of a harness on which nobody is at work knows its answer in the end. -/
theorem answers_of_check {h : Harness K} (quiet : h.session.Quiet) (key : Key)
    (s : Scenario K.Recipe) :
    ∃ t j v, (h.check key s).1 = some v ∧ Job.Answers { key, scenario := s } j v ∧
      Pool.Run h.catalog h.replays 1 ⟨[⟨{ key, scenario := s }, .queued⟩], h.session⟩ t
        ⟨[j], (h.check key s).2.session⟩ ∧
      ∀ i, ((h.check key s).2.session.cache.lookup i).isSome = true →
        (h.session.cache.lookup i).isSome = true ∨ (h.catalog.backend? i).isSome = true := by
  obtain ⟨ds, j, run, ended⟩ := h.check_run key s
  generalize unit : ({ key, scenario := s } : TestUnit K.Recipe) = u at run ended ⊢
  have fresh : ∀ d ∈ [(u, true)], d.1.IsFresh := List.forall_mem_singleton.mpr (unit ▸ rfl)
  have here : ([⟨u, .queued⟩] : List (Job K))[0]? = some ⟨u, .queued⟩ := rfl
  obtain ⟨t, ran⟩ : ∃ t, Pool.Run h.catalog h.replays 1 ⟨[⟨u, .queued⟩], h.session⟩ t
      ⟨[j], (h.check key s).2.session⟩ :=
    Pool.run_of_job run here fun _ =>
      ⟨fun q before => absurd before (Nat.not_lt_zero q), Nat.zero_lt_one⟩
  have start := Pool.Tracked.start h.catalog h.replays [(u, true)] quiet.orderly quiet.idle
  obtain ⟨asks, tracked⟩ := start.run fresh ran
  have registered (i : String) := run.registered (Party.books_of_idle h.catalog rfl).1 (i := i)
  rcases ended with ⟨f, rfl, answer⟩ | ⟨v, rfl, answer⟩ | ⟨active, blocked⟩
  · exact ⟨t, _, _, answer, .unresolved f, ran, registered⟩
  · exact ⟨t, _, _, answer, .executed v, ran, registered⟩
  · -- Nobody else is at work, so there is nobody to wait for.
    have alone : Pool.Tracked h.catalog h.replays h.session.contexts.length [(u, true)] ([] ++ t)
        ⟨[] ++ j :: [], (h.check key s).2.session⟩ asks := tracked
    have finished := Pool.over_of_alone alone (by simp) (by simp) (.inr ⟨active, blocked⟩)
    simp [Job.isActive, finished] at active

namespace Along

variable {h₀ h : Harness K}

/-- A check ends with the verdict on its unit, whatever was remembered before. -/
theorem check (along : h₀.Along h) (steady : h₀.Steady) (key : Key) {s : Scenario K.Recipe}
    (used : h₀.catalog.Uses s.recipe) :
    (h.check key s).1 = some (h₀.verdict { key, scenario := s }) ∧ h₀.Along (h.check key s).2 := by
  obtain ⟨t, j, v, answer, answers, run, registered⟩ := answers_of_check along.quiet key s
  rw [along.keeps.catalog, along.keeps.replays] at run
  rw [along.keeps.catalog] at registered
  have keeps : h.Keeps (h.check key s).2 := h.operate_keeps (.check key s)
  generalize unit : ({ key, scenario := s } : TestUnit K.Recipe) = u at run answers ⊢
  have fresh : ∀ d ∈ [(u, true)], d.1.IsFresh := List.forall_mem_singleton.mpr (unit ▸ rfl)
  have recipe : h₀.catalog.Uses u.scenario.recipe := unit ▸ used
  have recipes : ∀ d ∈ [(u, true)], h₀.catalog.Uses d.1.scenario.recipe :=
    List.forall_mem_singleton.mpr recipe
  have deterministic : h.session.Deterministic h₀.catalog :=
    along.deterministic steady along.roams h.session.log
  obtain ⟨asks, homes, start⟩ :=
    Pool.Assured.start h₀.replays along.quiet deterministic fresh
  obtain ⟨t', asks', homes', assured⟩ := start.run deterministic fresh recipes run
  refine ⟨?_, ?_⟩
  · rw [answer, assured.answer answers, verdict, steady.promise_eq along.roams]
    cases promised : h₀.promise u.key.backend with
    | error f => rfl
    | ok x =>
        have restarts := steady.restarts _ x promised
        exact congrArg some (restarts.verdict_eq recipe h₀.replays u.key _ _)
  · -- A check stops one step before its job is over. That step only logs, so the session is quiet.
    obtain ⟨j', log, step, finished⟩ :=
      answers.step h₀.catalog h₀.replays (h.check key s).2.session
    obtain ⟨asks'', homes'', ended⟩ := assured.goes_on (p := 0) deterministic fresh recipes rfl step
    have complete : Pool.Complete ⟨[j'], { (h.check key s).2.session with log }⟩ :=
      List.forall_mem_singleton.mpr finished
    have quiet : (h.check key s).2.session.Quiet :=
      (ended.tracked.quiet_session complete).frame _ (h.check key s).2.session.log
    refine along.worked steady keeps along.roams quiet assured.rooted fun i cached => ?_
    rcases registered i cached with old | new
    · exact along.registered i old
    · exact new

end Along

/-! ### Runs -/

/-- A run of a harness agrees with the checks of its units: unless a probe interrupts it, every number
of workers and every complete interleaving of their steps reports the same, in plan order, and on
every approved unit what its verdict says. -/
inductive RunAgrees (h : Harness K) (planned : List (Planned K.Recipe))
    (verdict : TestUnit K.Recipe → Except Fault String) : Prop
  | interrupted {f : Fault} (interrupt : (h.decisions planned).interrupt = some f)
      (raised : ∀ workers : Int, 1 ≤ workers → ∃ h', h.run workers none = (.error f, h'))
  | reported {results : List Result}
      (inOrder : (decided (h.decisions planned).entries).map (·.1) = planned.flatMap (·.units))
      (runs : ∀ workers : Int, 1 ≤ workers →
        ∃ h', h.run workers none = (.ok ⟨h.runName (h.runs + 1), results⟩, h'))
      (interleavings : ∀ workers log t x,
        Pool.Run h.catalog h.replays workers ⟨h.jobs planned, h.launched planned log⟩ t x →
          x.Complete → x.jobs.map (·.unit.result) = results)
      (agrees : List.Forall₂ (fun d r => r.key = d.1.key ∧
          (d.2 = true → Agrees (verdict d.1) r) ∧ (d.2 = false → r = d.1.rejected))
        (decided (h.decisions planned).entries) results)

namespace Along

variable {h₀ h : Harness K} {planned : List (Planned K.Recipe)}

/-- While the workers are at the units of a harness, all goes as was promised. -/
theorem assured (along : h₀.Along h) (steady : h₀.Steady) (plan : h.catalog.plan = .ok planned)
    (calm : (h.decisions planned).interrupt = none) {workers : Nat} {log : Array Record}
    {t : List (Nat × Option (Deed K))} {x : Pool K}
    (run : Pool.Run h.catalog h.replays workers ⟨h.jobs planned, h.launched planned log⟩ t x) :
    ∃ t' asks homes, Pool.Assured h.catalog h.replays (h.launched planned log)
      (decided (h.decisions planned).entries) t' x asks homes := by
  have fresh := h.isFresh_of_decided plan calm
  have deterministic : (h.launched planned log).Deterministic h.catalog := by
    rw [along.keeps.catalog]
    exact along.deterministic steady (along.decisions planned) log
  obtain ⟨asks, homes, start⟩ := Pool.Assured.start h.replays
    (quiet_launched along.quiet planned log) deterministic fresh
  exact start.run deterministic fresh (h.uses_of_decided plan calm) run

theorem plan (along : h₀.Along h) (plan : h₀.catalog.plan = .ok planned) :
    h.catalog.plan = .ok planned := by
  rw [along.keeps.catalog, plan]

theorem runAgrees (along : h₀.Along h) (steady : h₀.Steady)
    (plan : h₀.catalog.plan = .ok planned) : h.RunAgrees planned h₀.verdict := by
  have plan' := along.plan plan
  cases interrupt : (h.decisions planned).interrupt with
  | some f =>
      refine .interrupted interrupt fun workers positive => ?_
      obtain ⟨h', raised, _⟩ := run_interrupted none positive plan' interrupt
      exact ⟨h', raised⟩
  | none =>
      have results {workers : Nat} {log : Array Record} {t : List (Nat × Option (Deed K))}
          {x : Pool K}
          (run : Pool.Run h.catalog h.replays workers ⟨h.jobs planned, h.launched planned log⟩ t x)
          (complete : x.Complete) : x.jobs.map (·.unit.result) = h.wholeReport planned := by
        obtain ⟨_, _, _, assured⟩ := along.assured steady plan' interrupt run
        exact assured.results complete
      refine .reported (h.decided_in_order interrupt) (fun workers positive => ?_)
        (fun workers log t x run complete => results run complete) ?_
      · obtain ⟨log, t, x, h', ran, run, complete, _⟩ :=
          run_eq_complete along.quiet positive plan' interrupt
        rw [results run complete] at ran
        exact ⟨h', ran⟩
      · rw [wholeReport, List.forall₂_map_right_iff, List.forall₂_same]
        rintro ⟨u, runs⟩ member
        refine ⟨key_foretold _ _, ?_, ?_⟩
        · rintro rfl
          have used := h.uses_of_decided plan' interrupt _ member
          rw [along.keeps.catalog] at used ⊢
          rw [along.keeps.replays]
          exact steady.agrees (along.decisions planned) used
        · rintro rfl
          rfl

/-- A run forgets every backend, or was interrupted before it began. -/
theorem run (along : h₀.Along h) (steady : h₀.Steady) (plan : h₀.catalog.plan = .ok planned)
    (workers : Int) : h₀.Along (h.run workers none).2 := by
  have keeps : h.Keeps (h.run workers none).2 := (Consumer.run workers none).keeps h
  have quiet := quiet_run along.quiet workers
  have plan' := along.plan plan
  by_cases few : workers < 1
  · rw [run_without_worker few]
    exact along.probed ⟨rfl, rfl, .refl _⟩ along.roams rfl
  · have positive : 1 ≤ workers := by omega
    cases interrupt : (h.decisions planned).interrupt with
    | some f =>
        obtain ⟨h', raised, log, left⟩ := run_interrupted none positive plan' interrupt
        rw [raised] at keeps ⊢
        exact along.probed keeps (along.decisions planned) left
    | none =>
        obtain ⟨log, t, x, h', ran, run, _, log', left⟩ :=
          run_eq_complete along.quiet positive plan' interrupt
        obtain ⟨_, _, _, assured⟩ := along.assured steady plan' interrupt run
        have abroad := assured.rooted.abroad
        have promised : (h.launched planned log).clear.promise h₀.catalog = h₀.promise :=
          steady.promise_eq (along.decisions planned)
        rw [along.keeps.catalog, promised] at abroad
        rw [ran] at keeps quiet ⊢
        refine along.clear keeps ((along.decisions planned).of_abroad abroad) quiet ?_ ?_
        · rw [left]
          rfl
        · rw [left]
          rfl

end Along

end Harness

/-! ### Histories -/

/-- What may be asked of a harness between checks of planned units and runs without a deadline. -/
def Operation.Regular (planned : List (Planned K.Recipe)) : Operation K → Prop
  | .check key s => ∃ u ∈ planned.flatMap (·.units), u.key = key ∧ u.scenario = s
  | .consume (.run _ deadline) => deadline = none
  | .resolve _ => False
  | _ => True

theorem CommandLine.shared_lines (h : Harness K) (planned : List (Planned K.Recipe)) :
    (lines h planned).2.session.shared = (h.decisions planned).shared := by
  induction planned generalizing h with
  | nil => rfl
  | cons p ps ih =>
      rcases admitted : h.admits p.binding with ⟨f | runs, h'⟩
      · obtain ⟨answer, rfl⟩ := Prod.mk.inj admitted
        simp only [lines, admitted, Harness.decisions, Environment.decide, answer]
        rfl
      · obtain ⟨answer, rfl⟩ := Prod.mk.inj admitted
        simp only [lines, admitted, Harness.decisions, Environment.decide, answer]
        exact ih _

namespace Harness.Along

variable {h₀ h : Harness K} {planned : List (Planned K.Recipe)}

theorem consume (along : h₀.Along h) (steady : h₀.Steady) (plan : h₀.catalog.plan = .ok planned)
    {c : Consumer} (regular : (Operation.consume (K := K) c).Regular planned) :
    h₀.Along (c.pairs h).2 := by
  have keeps := c.keeps h
  have plan' := along.plan plan
  cases c with
  | listing =>
      simp only [Consumer.pairs, plan_of_ok plan'] at keeps ⊢
      have shared := CommandLine.shared_lines (h.write [Catalog.planRecord planned]) planned
      obtain ⟨t, log, session⟩ :=
        CommandLine.session_lines (h.write [Catalog.planRecord planned]) planned
      have same : t = (h.decisions planned).shared := by
        rw [session] at shared
        exact shared
      have roams : h₀.Roams t := by
        rw [same]
        exact along.decisions planned
      exact along.probed keeps roams session
  | collection =>
      simp only [Consumer.pairs, TestSession.planUnits, plan_of_ok plan'] at keeps ⊢
      rw [decide_eq_decisions (g := h.write [Catalog.planRecord planned]) (h := h) rfl rfl] at keeps ⊢
      exact along.probed keeps (along.decisions planned) rfl
  | run workers deadline =>
      obtain rfl : deadline = none := regular
      exact along.run steady plan workers

/-- Whatever is asked of a harness leaves it with what was promised. -/
theorem operate (along : h₀.Along h) (steady : h₀.Steady) (plan : h₀.catalog.plan = .ok planned)
    {op : Operation K} (regular : op.Regular planned) : h₀.Along (h.operate op) := by
  have keeps := h.operate_keeps op
  cases op with
  | plan =>
      simp only [Harness.operate, plan_of_ok (along.plan plan)] at keeps ⊢
      exact along.probed keeps along.roams rfl
  | environment => exact along.probed keeps along.roams rfl
  | available resource =>
      refine along.probed keeps ?_ rfl
      rcases h.environment.available_cases resource h.session.shared with ⟨v, _, same⟩ |
        ⟨_, _, probe, found, asked, _⟩
      · rw [same]
        exact along.roams
      · rw [asked]
        exact .probe along.roams (along.keeps.environment.probes ▸ found)
  | admits b =>
      refine along.probed keeps ?_ rfl
      rcases (h.environment.admitsBinding_cases b h.session.shared).2 with ⟨_, _, _, _, unasked⟩ |
        ⟨probe, _, found, asked, _⟩
      · rw [unasked]
        exact along.roams
      · rw [asked]
        exact .probe along.roams (along.keeps.environment.probes ▸ found)
  | consume c => exact along.consume steady plan regular
  | check key s =>
      obtain ⟨u, member, rfl, rfl⟩ := regular
      obtain ⟨p, inside, here⟩ := List.mem_flatMap.mp member
      exact (along.check steady u.key (Catalog.uses_of_plan plan inside here)).2
  | resolve identity => exact regular.elim
  | isResolved identity => exact along
  | constructions identity => exact along
  | clear => exact along.clear keeps along.roams along.quiet.clear rfl rfl

theorem after (along : h₀.Along h) (steady : h₀.Steady) (plan : h₀.catalog.plan = .ok planned)
    {ops : List (Operation K)} (regular : ∀ op ∈ ops, op.Regular planned) :
    h₀.Along (h.after ops) := by
  induction ops generalizing h with
  | nil => exact along
  | cons op ops ih =>
      refine ih (along.operate steady plan (regular op List.mem_cons_self)) ?_
      exact fun op member => regular op (List.mem_cons_of_mem _ member)

end Harness.Along

namespace Harness

/-- Checks and runs agree. There is one verdict on every planned unit: whatever was asked of the harness
before, checks and runs in whatever order and how often, a check of the unit comes to this verdict, and
every run that approves the unit reports it. -/
theorem check_agrees_with_run {h : Harness K} {planned : List (Planned K.Recipe)} (built : h.Built)
    (plan : h.catalog.plan = .ok planned) (steady : h.Steady) :
    ∃ verdict : TestUnit K.Recipe → Except Fault String,
      ∀ ops : List (Operation K), (∀ op ∈ ops, op.Regular planned) →
        (∀ u ∈ planned.flatMap (·.units),
          ((h.after ops).check u.key u.scenario).1 = some (verdict u)) ∧
        (h.after ops).RunAgrees planned verdict := by
  refine ⟨h.verdict, fun ops regular => ?_⟩
  have along := (Along.start built).after steady plan regular
  refine ⟨fun u member => ?_, along.runAgrees steady plan⟩
  obtain ⟨p, inside, here⟩ := List.mem_flatMap.mp member
  have fresh : u.IsFresh := Catalog.isFresh_of_plan plan inside here
  have checked := (along.check steady u.key (Catalog.uses_of_plan plan inside here)).1
  rwa [← fresh] at checked

end Harness

theorem PlainText.foreign_refusal {charset source : String} {f : Fault}
    (refused : refusal? charset source = some f) : f.IsForeign := by
  refine ⟨?_, contained_refusal refused⟩
  unfold refusal? at refused
  split at refused
  · cases refused
    exact ⟨_, _, rfl⟩
  · obtain ⟨text, _, rfl⟩ := Option.map_eq_some_iff.mp refused
    exact ⟨_, _, rfl⟩

/-- A plain-text parser raises foreign errors only, if the recipes that it is given do. -/
theorem PlainText.parser_raisesForeign (level : Int) (charset : String) (m : Manner)
    {recipes : Recipe → Prop}
    (foreign : ∀ r, recipes r → ∀ s t f, (r.apply s t).1 = .error f → f.IsForeign)
    (first : Workings) : (parser level charset m).RaisesForeign recipes first := by
  intro own _ action s s' own' r within taken f raised
  cases action with
  | parse k source =>
      cases taken
      dsimp -iota only [parser, Fittings.parser, fittings] at raised
      cases refused : refusal? charset source with
      | none =>
          rw [refused] at raised
          cases raised
      | some g =>
          rw [refused] at raised
          cases raised
          exact foreign_refusal refused
  | transform k tree recipe =>
      cases taken
      rw [(transform_eq level charset m tree recipe own s).1] at raised
      cases applied : (recipe.apply tree s).1 with
      | ok tree' =>
          rw [applied] at raised
          cases raised
      | error g =>
          rw [applied] at raised
          cases raised
          exact foreign recipe within tree s _ applied
  | reset => cases taken; cases raised
  | print => cases taken; cases raised
  | diagnose => cases taken; cases raised
  | _ => cases taken

namespace Samples

open PlainText

theorem mixed_promise {i : String} {x : Instance kit} (promised : mixed.promise i = .ok x) :
    ∃ level, PlainText.fresh (parser level defaultCharset .plain) = some x := by
  obtain ⟨b, registered, made⟩ := Session.constructed_of_promise rfl promised
  rcases mixed_constructs (List.mem_of_find?_eq_some registered) with ⟨level, returns⟩ | raises
  · rw [returns] at made
    cases made
    exact ⟨level, rfl⟩
  · rw [raises] at made
    cases made

theorem mixed_steady : mixed.Steady := by
  have constructs {i : String} {b : Backend kit} (registered : mixed.catalog.backend? i = some b) :=
    mixed_constructs (List.mem_of_find?_eq_some registered)
  constructor
  case returns =>
    intro i b registered
    rcases constructs registered with ⟨level, returns⟩ | raises
    · exact .inl ⟨_, returns _⟩
    · exact .inr ⟨_, raises _, rfl⟩
  case repeats =>
    intro i b t registered _
    rcases constructs registered with ⟨level, returns⟩ | raises
    · rw [returns, returns]
    · rw [raises, raises]
  case restarts =>
    intro i x promised
    obtain ⟨level, made⟩ := mixed_promise promised
    cases made
    exact parser_restarts level defaultCharset rfl (fun r used => mixed_pure used) _
  case foreign =>
    intro i x promised
    obtain ⟨level, made⟩ := mixed_promise promised
    cases made
    refine parser_raisesForeign level defaultCharset .plain (fun r used s t f raised => ?_) _
    rw [mixed_uses used, apply_addImport] at raised
    cases raised

end Samples

namespace Harness

/-- Checks and runs agree on the eight units of the sample harness. -/
theorem check_agrees_with_run_mixed :
    ∃ planned, Samples.mixed.catalog.plan = .ok planned ∧ (planned.flatMap (·.units)).length = 8 ∧
      ∃ verdict : TestUnit PlainText.Recipe → Except Fault String,
        ∀ ops : List (Operation PlainText.kit), (∀ op ∈ ops, op.Regular planned) →
          (∀ u ∈ planned.flatMap (·.units),
            ((Samples.mixed.after ops).check u.key u.scenario).1 = some (verdict u)) ∧
          (Samples.mixed.after ops).RunAgrees planned verdict := by
  obtain ⟨planned, plan, length⟩ := Samples.mixed_plan
  exact ⟨planned, plan, length,
    check_agrees_with_run Samples.mixed_built plan Samples.mixed_steady⟩

end Harness

end Concord
