import Concord.Proofs.Launch
import Concord.Proofs.PlainTextTrust
/-!
Whole runs. With one worker and no deadline the workers go through the jobs in plan order and never
wait, so that the session follows the bench from one unit to the next. The main statement gives the
report of such a run: it is the reference's, and it tells for each unit whether the gate rejected it,
whether its backend was registered, whether the constructor raised, and else what its execution came
to on the instance as the units before it left it.
-/

namespace Concord

variable {K : Kit}

namespace Bench

variable {c : Catalog K} {x y : Bench K} {n : Nat}

theorem Proper.empty (c : Catalog K) (shared : K.Shared) : Proper c { shared } := by
  constructor <;> (intro _ _ made; cases made)

theorem Proper.attempt (proper : x.Proper c) (behaved : c.WellBehaved) (u : TestUnit K.Recipe) :
    (x.attempt c n u).2.Proper c := by
  cases registered : c.backend? u.key.backend with
  | none =>
      rw [attempt_of_unregistered registered]
      exact proper
  | some b =>
      have same := Catalog.identity_of_backend? registered
      rw [← same] at registered
      have proper' := proper.obtain behaved registered
      have made := x.made_obtain b
      cases obtained : (x.obtain b).1 with
      | error f =>
          rw [attempt_of_failed same registered obtained]
          exact proper'
      | ok o =>
          rw [attempt_of_built same registered obtained]
          obtain ⟨i, rfl, trusted⟩ := proper'.made b.identity o (obtained ▸ made)
          refine proper'.update _ ?_ ?_
          · intro f failed
            cases failed
          · intro o built
            cases built
            exact ⟨_, rfl, trusted⟩

/-- A later bench: a failed construction stays failed for the same reason, and an instance stays. -/
structure Before (x y : Bench K) : Prop where
  failed : ∀ identity f, x.made identity = some (.error f) → y.made identity = some (.error f)
  made : ∀ identity o, x.made identity = some (.ok o) → ∃ o', y.made identity = some (.ok o')

theorem Before.refl (x : Bench K) : x.Before x :=
  ⟨fun _ _ failed => failed, fun _ o made => ⟨o, made⟩⟩

theorem Before.trans {z : Bench K} (first : x.Before y) (next : y.Before z) : x.Before z := by
  refine ⟨fun identity f failed => next.failed identity f (first.failed identity f failed), ?_⟩
  intro identity o made
  obtain ⟨o', made'⟩ := first.made identity o made
  exact next.made identity o' made'

theorem before_obtain (x : Bench K) (b : Backend K) : x.Before (x.obtain b).2 := by
  cases made : x.made b.identity with
  | some e =>
      rw [obtain_of_made made]
      exact Before.refl x
  | none =>
      have kept (identity : String) (e : Except Fault (Option (Instance K)))
          (here : x.made identity = some e) : (x.obtain b).2.made identity = some e := by
        have other : identity ≠ b.identity := by
          rintro rfl
          simp [made] at here
        simp only [Bench.obtain, made, Function.update_of_ne other, here]
      exact ⟨fun identity f => kept identity _, fun identity o here => ⟨o, kept identity _ here⟩⟩

theorem before_execute {u : TestUnit K.Recipe} {o : Option (Instance K)} (o' : Option (Instance K))
    (made : x.made u.key.backend = some (.ok o)) : x.Before (x.execute n u o').2 := by
  cases o' with
  | none => exact Before.refl x
  | some i =>
      refine ⟨?_, ?_⟩
      · intro identity f failed
        have other : identity ≠ u.key.backend := by
          rintro rfl
          simp [made] at failed
        simp only [execute, Function.update_of_ne other, failed]
      · intro identity o here
        by_cases same : identity = u.key.backend
        · subst same
          exact ⟨_, Function.update_self ..⟩
        · exact ⟨o, by simp only [execute, Function.update_of_ne same, here]⟩

theorem before_attempt (c : Catalog K) (n : Nat) (u : TestUnit K.Recipe) (x : Bench K) :
    x.Before (x.attempt c n u).2 := by
  cases registered : c.backend? u.key.backend with
  | none =>
      rw [attempt_of_unregistered registered]
      exact Before.refl x
  | some b =>
      have same := Catalog.identity_of_backend? registered
      rw [← same] at registered
      have first := before_obtain x b
      cases obtained : (x.obtain b).1 with
      | error f =>
          rw [attempt_of_failed same registered obtained]
          exact first
      | ok o =>
          rw [attempt_of_built same registered obtained]
          exact first.trans (before_execute _ (same ▸ obtained ▸ x.made_obtain b))

theorem before_attemptAll (c : Catalog K) (n : Nat) (units : List (TestUnit K.Recipe × Bool))
    (x : Bench K) : x.Before (attemptAll c n units x).2 := by
  induction units generalizing x with
  | nil => exact Before.refl x
  | cons d units ih =>
      obtain ⟨u, runs⟩ := d
      cases runs with
      | false => exact ih x
      | true => exact (before_attempt c n u x).trans (ih _)

theorem length_attemptAll (c : Catalog K) (n : Nat) (units : List (TestUnit K.Recipe × Bool))
    (x : Bench K) : (attemptAll c n units x).1.length = units.length := by
  induction units generalizing x with
  | nil => rfl
  | cons d units ih =>
      obtain ⟨u, runs⟩ := d
      cases runs <;> simp [attemptAll, ih]

/-- A rejected unit is reported so, and an approved one as it fares on the bench that the units
before it have left; the last bench is a later one. -/
theorem attemptAll_at {units : List (TestUnit K.Recipe × Bool)} {i : Nat} {u : TestUnit K.Recipe}
    {runs : Bool} (here : units[i]? = some (u, runs)) (c : Catalog K) (n : Nat) (x : Bench K) :
    (attemptAll c n units x).1[i]? =
        some (if runs then ((attemptAll c n (units.take i) x).2.attempt c n u).1 else u.rejected) ∧
      (runs = true → ((attemptAll c n (units.take i) x).2.attempt c n u).2.Before
        (attemptAll c n units x).2) := by
  induction units generalizing i x with
  | nil => simp at here
  | cons d units ih =>
      cases i with
      | zero =>
          obtain rfl : d = (u, runs) := by simpa using here
          cases runs with
          | false => exact ⟨rfl, fun impossible => by cases impossible⟩
          | true => exact ⟨rfl, fun _ => before_attemptAll c n units _⟩
      | succ i =>
          have there : units[i]? = some (u, runs) := by simpa using here
          obtain ⟨v, goes⟩ := d
          cases goes with
          | false => exact ih there x
          | true => exact ih there (x.attempt c n v).2

theorem Proper.attemptAll (proper : x.Proper c) (behaved : c.WellBehaved)
    (units : List (TestUnit K.Recipe × Bool)) : (attemptAll c n units x).2.Proper c := by
  induction units generalizing x with
  | nil => exact proper
  | cons d units ih =>
      obtain ⟨u, runs⟩ := d
      cases runs with
      | false => exact ih proper
      | true => exact ih (proper.attempt behaved u)

end Bench

/-! ### What the reference says of one unit -/

/-- How the report on one unit comes about: from the gate's decision on it, from the bench that the
units before it left, and from how the construction of its backend ended in the whole run. -/
structure Accounted (c : Catalog K) (n : Nat) (before last : Bench K) (u : TestUnit K.Recipe)
    (runs : Bool) (r : Result) : Prop where
  key : r.key = u.key
  expected : r.expected = u.scenario.expected
  rejected_iff : r.outcome = .skipped ∧ r.reason = some .gate ↔ runs = false
  rejected : runs = false → r = u.rejected
  unregistered_iff : r.outcome = .errored ∧ r.reason = some .unregistered ↔
    runs = true ∧ c.backend? u.key.backend = none
  unregistered : runs = true → c.backend? u.key.backend = none →
    r = u.unavailable .unregistered (.unregistered u.key.backend)
  failed_iff : r.outcome = .errored ∧ r.reason = some .construction ↔
    runs = true ∧ ∃ f, last.made u.key.backend = some (.error f)
  failed : ∀ f, runs = true → last.made u.key.backend = some (.error f) →
    r = u.unavailable .construction f ∧
      ∃ b s g, c.backend? u.key.backend = some b ∧ (b.construct s).result = .error g ∧
        f = .construction u.key.backend g.described (some g.label)
  executed : ∀ b, runs = true → c.backend? u.key.backend = some b →
    (∀ f, last.made u.key.backend ≠ some (.error f)) →
    ∃ i, (before.obtain b).1 = .ok (some i) ∧
      r = u.judged (i.parser.verdict n u.key u.scenario i.own (before.obtain b).2.shared).result

namespace Accounted

variable {c : Catalog K} {n : Nat} {before last : Bench K} {u : TestUnit K.Recipe}

theorem of_rejected : Accounted c n before last u false u.rejected := by
  constructor <;> simp [TestUnit.rejected]

theorem of_unregistered (proper : last.Proper c) (unregistered : c.backend? u.key.backend = none) :
    Accounted c n before last u true
      (u.unavailable .unregistered (.unregistered u.key.backend)) := by
  have intact (f : Fault) : last.made u.key.backend ≠ some (.error f) := by
    intro made
    obtain ⟨b, _, _, registered, _⟩ := proper.failed u.key.backend f made
    rw [unregistered] at registered
    cases registered
  constructor <;> simp [TestUnit.unavailable, unregistered, intact]

theorem of_failed {f : Fault} (proper : last.Proper c)
    (made : last.made u.key.backend = some (.error f)) :
    Accounted c n before last u true (u.unavailable .construction f) := by
  obtain ⟨b, s, g, registered, raised, wrapped⟩ := proper.failed u.key.backend f made
  constructor
  case failed =>
    intro f' _ made'
    obtain rfl : f' = f := by simpa [made] using made'.symm
    exact ⟨rfl, b, s, g, registered, raised, wrapped⟩
  case executed =>
    intro b' _ _ intact
    exact absurd made (intact f)
  all_goals simp [TestUnit.unavailable, registered, made]

theorem of_executed {b : Backend K} {i : Instance K} {o : Option (Instance K)}
    (registered : c.backend? u.key.backend = some b)
    (obtained : (before.obtain b).1 = .ok (some i))
    (made : last.made u.key.backend = some (.ok o)) :
    Accounted c n before last u true
      (u.judged (i.parser.verdict n u.key u.scenario i.own (before.obtain b).2.shared).result) := by
  have known := u.key_judged
    (i.parser.verdict n u.key u.scenario i.own (before.obtain b).2.shared).result
  have outcome := u.outcome_judged
    (i.parser.verdict n u.key u.scenario i.own (before.obtain b).2.shared).result
  constructor
  case key => exact known.1
  case expected => exact known.2
  case rejected_iff => rcases outcome with outcome | outcome <;> simp [outcome]
  case unregistered_iff => rcases outcome with outcome | outcome <;> simp [outcome, registered]
  case failed_iff => rcases outcome with outcome | outcome <;> simp [outcome, made]
  case executed =>
    intro b' _ registered' _
    obtain rfl : b' = b := by simpa [registered] using registered'.symm
    exact ⟨i, obtained, rfl⟩
  all_goals simp [registered, made]

/-- A unit is accounted for by its attempt on the bench before it, and stays so. -/
theorem of_attempt (proper : before.Proper c) (behaved : c.WellBehaved)
    (later : (before.attempt c n u).2.Before last) (proper' : last.Proper c) :
    Accounted c n before last u true (before.attempt c n u).1 := by
  cases registered : c.backend? u.key.backend with
  | none =>
      rw [Bench.attempt_of_unregistered registered]
      exact of_unregistered proper' registered
  | some b =>
      have same := Catalog.identity_of_backend? registered
      have registered' : c.backend? b.identity = some b := same ▸ registered
      have made := before.made_obtain b
      cases obtained : (before.obtain b).1 with
      | error f =>
          rw [Bench.attempt_of_failed same registered' obtained] at later ⊢
          exact of_failed proper' (later.failed _ _ (same ▸ obtained ▸ made))
      | ok o =>
          obtain ⟨i, rfl, _⟩ :=
            (proper.obtain behaved registered').made b.identity o (obtained ▸ made)
          rw [Bench.attempt_of_built same registered' obtained] at later ⊢
          have executed := Bench.before_execute (n := n) (u := u) (some i) (same ▸ obtained ▸ made)
          have kept := executed.trans later
          obtain ⟨o', made'⟩ := kept.made _ _ (same ▸ obtained ▸ made)
          exact of_executed registered obtained made'

end Accounted

theorem Bench.attemptAll_accounted {c : Catalog K} {x : Bench K} (proper : x.Proper c)
    (behaved : c.WellBehaved) (n : Nat) {units : List (TestUnit K.Recipe × Bool)} {i : Nat}
    {u : TestUnit K.Recipe} {runs : Bool} (here : units[i]? = some (u, runs)) :
    ∃ r, (attemptAll c n units x).1[i]? = some r ∧
      Accounted c n (attemptAll c n (units.take i) x).2 (attemptAll c n units x).2 u runs r := by
  obtain ⟨reported, later⟩ := attemptAll_at here c n x
  refine ⟨_, reported, ?_⟩
  cases runs with
  | false => exact Accounted.of_rejected
  | true =>
      exact Accounted.of_attempt (proper.attemptAll behaved _) behaved (later rfl)
        (proper.attemptAll behaved _)

/-! ### The workers keep to the reference -/

theorem dispatch_start {c : Catalog K} {n workers : Nat} (enough : 0 < workers)
    (behaved : c.WellBehaved) {units : List (TestUnit K.Recipe × Bool)}
    (fresh : ∀ d ∈ units, d.1.IsFresh ∧ c.Uses d.1.scenario.recipe) {s : Session K} {x : Bench K}
    (follows : s.Follows x) (proper : x.Proper c) :
    (dispatch c n true workers none 0 (units.map Job.start) s).1.map (·.unit.result) =
      (Bench.attemptAll c n units x).1 := by
  induction units generalizing s x with
  | nil => rfl
  | cons d units ih =>
      obtain ⟨u, runs⟩ := d
      obtain ⟨new, used⟩ := fresh (u, runs) (by simp)
      have later : ∀ d ∈ units, d.1.IsFresh ∧ c.Uses d.1.scenario.recipe :=
        fun d member => fresh d (List.mem_cons_of_mem _ member)
      cases runs with
      | false =>
          have rest := ih later follows proper
          simp only [List.map_cons, Job.start, dispatch, Stage.isOver, Bool.true_or, if_true,
            Bool.false_eq_true, if_false, new.result_skip, rest, Bench.attemptAll]
      | true =>
          obtain ⟨u', s', advanced, result, follows'⟩ :=
            follows.attempt proper behaved n new used (workerName 0)
          have rest := ih later follows' (proper.attempt behaved u)
          have awake : ¬ (workers ≤ 0) := by omega
          have turn : ((none : Option Nat) == some 0) = false := rfl
          simp only [List.map_cons, Job.start, dispatch, Stage.isOver, Bool.false_or, awake, turn,
            decide_false, Bool.false_eq_true, if_false, if_true, advanced, result, rest,
            Option.map_none, Bench.attemptAll]

/-! ### Runs -/

namespace Harness

theorem Built.follows {h : Harness K} (built : h.Built) (planned : List (Planned K.Recipe))
    (log : Array Record) :
    (h.launched planned log).Follows { shared := (h.decisions planned).shared } := by
  obtain ⟨_, unasked, idle⟩ := built.idle
  have unknown (identity : String) : (h.launched planned log).known identity = none := by
    simp [Session.known, launched, unasked]
  refine ⟨rfl, idle, ?_, ?_⟩
  · intro identity
    show (h.launched planned log).cache.lookup identity = none
    simp [launched, unasked]
  · intro a b k known
    rw [unknown a] at known
    cases known

/-- A run with one worker and no deadline, of a harness that was only built, reports what the
reference says: one result for each planned unit, in plan order, each accounted for by the gate's
decision, by its backend, and by what the units before it have left. -/
theorem run_eq_reference {h : Harness K} {planned : List (Planned K.Recipe)} (built : h.Built)
    (plan : h.catalog.plan = .ok planned) (behaved : h.catalog.WellBehaved)
    (probes : h.environment.ProbesContained) :
    let units := decided (h.decisions planned).entries
    let start : Bench K := { shared := (h.decisions planned).shared }
    units.map (·.1) = planned.flatMap (·.units) ∧
      ∃ results h', h.run 1 none = (.ok ⟨h.runName (h.runs + 1), results⟩, h') ∧
        results = (Bench.attemptAll h.catalog h.replays units start).1 ∧
        results.length = (planned.flatMap (·.units)).length ∧
        ∀ i u runs, units[i]? = some (u, runs) → ∃ r, results[i]? = some r ∧
          Accounted h.catalog h.replays
            (Bench.attemptAll h.catalog h.replays (units.take i) start).2
            (Bench.attemptAll h.catalog h.replays units start).2 u runs r := by
  intro units start
  have calm := Environment.decide_contained probes h.session.shared planned
  have inOrder : units.map (·.1) = planned.flatMap (·.units) := h.decided_in_order calm
  have proper : start.Proper h.catalog := .empty h.catalog _
  have fresh : ∀ d ∈ units, d.1.IsFresh ∧ h.catalog.Uses d.1.scenario.recipe := by
    intro d member
    exact ⟨h.isFresh_of_decided plan calm d member, h.uses_of_decided plan calm d member⟩
  have one : (1 : Int) ≤ 1 := by decide
  obtain ⟨log, h', ran, _⟩ := run_eq_dispatch none one plan calm
  rw [ending_none] at ran
  have enough : 0 < (1 : Int).toNat := by decide
  have reported :=
    dispatch_start (n := h.replays) enough behaved fresh (built.follows planned log) proper
  refine ⟨inOrder, _, h', ran, reported, ?_, ?_⟩
  · have counted := congrArg List.length inOrder
    rw [List.length_map] at counted
    exact ((congrArg List.length reported).trans (Bench.length_attemptAll ..)).trans counted
  · intro i u runs here
    obtain ⟨r, found, accounted⟩ := Bench.attemptAll_accounted proper behaved h.replays here
    exact ⟨r, (congrArg (·[i]?) reported).trans found, accounted⟩

theorem run_eq_reference_mixed :
    ∃ planned results h', Samples.mixed.catalog.plan = .ok planned ∧
      Samples.mixed.run 1 none = (.ok ⟨"run-0001", results⟩, h') ∧ results.length = 8 := by
  obtain ⟨planned, plan, length⟩ := Samples.mixed_plan
  obtain ⟨_, results, h', ran, _, counted, _⟩ :=
    run_eq_reference Samples.mixed_built plan Samples.mixed_wellBehaved Samples.mixed_probes
  exact ⟨planned, results, h', plan, Samples.mixed_runName ▸ ran, counted.trans length⟩

end Harness

end Concord
