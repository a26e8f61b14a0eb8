import Concord.Proofs.Dispatch
import Concord.Samples
/-!
Which units a run leaves behind. A unit whose resolution ends with a fault that resolution does not
declare, or whose execution is interrupted, stays where it is and is reported as stuck. Of a
resolution that is so in two cases: its own constructor was interrupted, or it read from a context
in which no instance was published. No other unit is stuck, whatever the workers do.
-/

namespace Concord

variable {K : Kit} {catalog : Catalog K} {replays workers base : Nat}

/-- The faults that resolution declares. -/
def Fault.isDeclared : Fault → Bool
  | .unregistered _ | .construction _ _ _ => true
  | _ => false

theorem Fault.isDeclared_publishedFailure (identity : String) (f : Fault) :
    (publishedFailure identity f).isDeclared = true := by
  unfold publishedFailure
  split <;> rfl

theorem Fault.isDeclared_of_interrupt {f : Fault} (interrupt : f.isOrdinary = false) :
    f.isDeclared = false := by
  cases f <;> first | rfl | cases interrupt

def endsWith {α : Type} (kind : Fault → Bool) : Except Fault α → Bool
  | .error f => kind f
  | .ok _ => false

/-- Whether a deed leaves its unit where it is: an interrupted constructor or call, and the news of
a fault that resolution does not declare. -/
def Deed.strands : Deed K → Bool
  | ⟨.construct _, .error f⟩ => !f.isOrdinary
  | ⟨.await _, .error f⟩ => !f.isDeclared
  | d => d.fault?.any (!·.isOrdinary)

/-! ### Resolutions and executions that strand -/

/-- A resolution strands its unit if and only if it ends with a fault that it does not declare. -/
theorem Ask.Stands.strands_eq {a : Ask} {ds : List (Deed K)} {v : Except Fault (Option Nat)}
    (stands : a.Stands catalog ds (.done v)) :
    ds.any Deed.strands = endsWith (!·.isDeclared) v := by
  rcases stands.of_done with ⟨_, _, rfl, rfl⟩ | ⟨c, r, b, _, _, _, rfl, rfl⟩ |
    ⟨c, pending, o, _, _, rfl, rfl⟩
  · rfl
  · cases r with
    | ok i => rfl
    | error f =>
        cases ordinary : f.isOrdinary with
        | true =>
            simp [Deed.strands, Deed.fault?, endsWith, delivery, ordinary,
              Fault.isDeclared_publishedFailure]
        | false =>
            simp [Deed.strands, Deed.fault?, endsWith, delivery, ordinary,
              Fault.isDeclared_of_interrupt ordinary]
  · cases o with
    | ok k => rfl
    | error f => simp [Deed.strands, Deed.fault?, endsWith, Except.map]

/-- What is done in an execution: the backend is taken and given back, and an instance is called. -/
theorem Stint.of_mem {i : Option Nat} {u : TestUnit K.Recipe} {es : List (Deed K)}
    {w : Work K (Except Fault String)} (stint : Stint replays i u es w) {d : Deed K}
    (member : d ∈ es) :
    (∃ k, i = some k ∧ d.action.target? = some k) ∨ d = ⟨.acquire u.key.backend, ()⟩ ∨
      d = ⟨.release u.key.backend, ()⟩ := by
  have early {es : List (Deed K)} {w : Work K (Except Fault (List Rendering))}
      (plays : Work.Replays i es w) (member : d ∈ ⟨.acquire u.key.backend, ()⟩ :: es) :
      (∃ k, i = some k ∧ d.action.target? = some k) ∨ d = ⟨.acquire u.key.backend, ()⟩ := by
    rcases List.mem_cons.mp member with taken | call
    · exact .inr taken
    · exact .inl (plays.called d call)
  have ended {es : List (Deed K)} {rendered : Except Fault (List Rendering)}
      (plays : Work.Replays i es (.done rendered))
      (member : d ∈ ⟨.acquire u.key.backend, ()⟩ :: es ++ [⟨.release u.key.backend, ()⟩]) :
      (∃ k, i = some k ∧ d.action.target? = some k) ∨ d = ⟨.acquire u.key.backend, ()⟩ ∨
        d = ⟨.release u.key.backend, ()⟩ := by
    rcases List.mem_append.mp member with before | given
    · exact (early plays before).imp_right .inl
    · exact .inr (.inr (List.mem_singleton.mp given))
  cases stint with
  | acquiring => cases member
  | replaying plays => exact (early plays member).imp_right .inl
  | judging plays => exact ended plays member
  | judged plays => exact ended plays member

theorem Deed.strands_of_target? {d : Deed K} {k : Nat} (target : d.action.target? = some k) :
    d.strands = d.fault?.any (!·.isOrdinary) := by
  obtain ⟨action, r⟩ := d
  cases action <;> first | rfl | cases target

theorem any_strands_eq {es : List (Deed K)}
    (plain : ∀ d ∈ es, d.strands = d.fault?.any (!·.isOrdinary)) :
    es.any Deed.strands = (faults es).any (!·.isOrdinary) := by
  induction es with
  | nil => rfl
  | cons d es ih =>
      have rest := ih fun d member => plain d (List.mem_cons_of_mem _ member)
      rw [List.any_cons, plain d List.mem_cons_self, rest]
      cases raised : d.fault? <;> simp [faults, raised]

/-- An execution strands its unit if and only if it ends with an interrupt. -/
theorem Stint.strands_eq {i : Option Nat} {u : TestUnit K.Recipe} {es : List (Deed K)}
    {v : Except Fault String} (stint : Stint replays i u es (.done v)) :
    es.any Deed.strands = endsWith (!·.isOrdinary) v := by
  have plain : ∀ d ∈ es, d.strands = d.fault?.any (!·.isOrdinary) := by
    intro d member
    rcases stint.of_mem member with ⟨k, _, target⟩ | rfl | rfl
    · exact Deed.strands_of_target? target
    · rfl
    · rfl
  rw [any_strands_eq plain]
  rcases stint.of_done.2 with ⟨f, rfl, raised⟩ | ⟨contained, calm⟩
  · simp [raised, endsWith]
  · rw [calm]
    cases v with
    | ok text => rfl
    | error f => simp [endsWith, contained f rfl]

/-! ### Units that are left -/

namespace TestUnit

variable {ρ : Type}

theorem isFinal_eq (u : TestUnit ρ) : u.phase.isFinal = !decide (u.result.outcome = .stuck) := by
  have same : u.result.outcome = u.outcome := rfl
  rw [same]
  unfold outcome
  cases u.phase <;> rfl

/-- What is reported on a unit: that it was left on its way if it was stranded, and else an outcome
that is neither stuck nor timed out. -/
def Reported (u : TestUnit ρ) (stranded : Bool) (r : Result) : Prop :=
  if stranded then r = u.left .resolving ∨ r = u.left .running
  else r.key = u.key ∧ r.outcome ≠ .stuck ∧ r.reason ≠ some .timeout

namespace Reported

variable {u : TestUnit ρ} {stranded : Bool} {r : Result}

theorem key (reported : u.Reported stranded r) : r.key = u.key := by
  cases stranded with
  | false => exact reported.1
  | true => rcases reported with rfl | rfl <;> rfl

theorem stuck_iff (reported : u.Reported stranded r) : r.outcome = .stuck ↔ stranded = true := by
  cases stranded with
  | false => simpa using reported.2.1
  | true => rcases reported with rfl | rfl <;> exact iff_of_true rfl rfl

theorem timeout_iff (reported : u.Reported stranded r) :
    r.reason = some .timeout ↔ stranded = true := by
  cases stranded with
  | false => simpa using reported.2.2
  | true => rcases reported with rfl | rfl <;> exact iff_of_true rfl rfl

theorem unresolved (u : TestUnit ρ) (f : Fault) :
    u.Reported (!f.isDeclared) (Concord.unresolved (u.onWay .resolving) f).1.result := by
  rw [result_unresolved]
  cases f with
  | unregistered b => exact ⟨rfl, by simp [unavailable], by simp [unavailable]⟩
  | construction b r c => exact ⟨rfl, by simp [unavailable], by simp [unavailable]⟩
  | _ => exact .inl rfl

theorem judged (u : TestUnit ρ) (v : Except Fault String) : u.Reported false (u.judged v) := by
  refine ⟨(u.key_judged v).1, ?_, ?_⟩
  · rcases u.outcome_judged v with outcome | outcome <;> simp [outcome]
  · cases v with
    | ok text => simp [TestUnit.judged]
    | error f => cases f <;> simp [TestUnit.judged]

theorem executed (u : TestUnit ρ) (v : Except Fault String) :
    u.Reported (endsWith (!·.isOrdinary) v)
      (Concord.executed (u.onWay .running) v).1.result := by
  cases v with
  | ok text =>
      rw [result_executed u fun f raised => by cases raised]
      exact judged u _
  | error f =>
      cases ordinary : f.isOrdinary with
      | true =>
          have contained : Contained (.error f : Except Fault String) := by
            rintro g ⟨⟩
            exact ordinary
          rw [result_executed u contained]
          simpa [endsWith, ordinary] using judged u (.error f)
      | false =>
          rw [result_interrupted u ordinary]
          simp [endsWith, ordinary, Reported]

end Reported

end TestUnit

/-- A job that is over reports its unit as stuck if one of its deeds has stranded it, and else not. -/
theorem Job.Stands.reported {u : TestUnit K.Recipe} {runs : Bool} {a : Ask} {ds : List (Deed K)}
    {j : Job K} (fresh : u.IsFresh) (stands : Job.Stands catalog replays (u, runs) a ds j)
    (finished : j.stage.isOver = true) :
    u.Reported (ds.any Deed.strands) j.unit.result := by
  cases stands with
  | rejected =>
      rw [fresh.result_skip]
      exact ⟨rfl, by simp [TestUnit.rejected], by simp [TestUnit.rejected]⟩
  | queued => cases finished
  | resolving stands => cases finished
  | unresolved stands =>
      rw [stands.strands_eq]
      exact .unresolved u _
  | running stands stint => cases finished
  | executed stands stint =>
      rw [List.any_append, stands.strands_eq, stint.strands_eq]
      exact .executed u _

/-! ### Where undeclared news comes from -/

theorem Ask.Stands.read_of_mem {a : Ask} {ds : List (Deed K)}
    {w : Work K (Except Fault (Option Nat))} (stands : a.Stands catalog ds w) {c : Nat}
    {o : Except Fault Nat} (told : ⟨.await c, o⟩ ∈ ds) : ∃ pending, a.spot = .read c pending o := by
  induction stands with
  | logging _ _ ih => exact ih told
  | read registered =>
      simp only [List.mem_cons, List.not_mem_nil, or_false] at told
      rcases told with entered | same
      · cases entered
      · cases same
        exact ⟨_, rfl⟩
  | _ => simp at told

/-- What was done at a job begins with its resolution, and the rest is its execution. -/
theorem Job.Stands.resolution {d : TestUnit K.Recipe × Bool} {a : Ask} {ds : List (Deed K)}
    {j : Job K} (stands : Job.Stands catalog replays d a ds j) :
    ∃ es es' w, a.Stands catalog es w ∧ ds = es ++ es' ∧
      ∀ e ∈ es', (∃ k, e.action.target? = some k) ∨ e = ⟨.acquire d.1.key.backend, ()⟩ ∨
        e = ⟨.release d.1.key.backend, ()⟩ := by
  cases stands with
  | rejected u => exact ⟨[], [], _, .start catalog u.key.backend, rfl, by simp⟩
  | queued u => exact ⟨[], [], _, .start catalog u.key.backend, rfl, by simp⟩
  | resolving stands => exact ⟨_, [], _, stands, (List.append_nil _).symm, by simp⟩
  | unresolved stands => exact ⟨_, [], _, stands, (List.append_nil _).symm, by simp⟩
  | running stands stint =>
      refine ⟨_, _, _, stands, rfl, fun e member => ?_⟩
      exact (stint.of_mem member).imp_left fun ⟨k, _, target⟩ => ⟨k, target⟩
  | executed stands stint =>
      refine ⟨_, _, _, stands, rfl, fun e member => ?_⟩
      exact (stint.of_mem member).imp_left fun ⟨k, _, target⟩ => ⟨k, target⟩

theorem eq_none_of_reading {identity : String} {r : Except Fault (Option Nat)} {f : Fault}
    (told : reading identity r = .error f) (undeclared : f.isDeclared = false) : r = .ok none := by
  match r with
  | .ok (some k) => cases told
  | .ok none => rfl
  | .error g =>
      cases told
      rw [Fault.isDeclared_publishedFailure] at undeclared
      cases undeclared

namespace Pool.Tracked

variable {units : List (TestUnit K.Recipe × Bool)} {t : List (Nat × Option (Deed K))} {x : Pool K}
  {asks : List Ask}

/-- Who gets undeclared news reads it from an old context, or from one that a worker has opened whose
constructor returned without an instance. -/
theorem source_of_news (tracked : Tracked catalog replays base units t x asks) {p : Nat}
    {d : TestUnit K.Recipe × Bool} (planned : units[p]? = some d) {c : Nat} {f : Fault}
    (told : ⟨.await c, .error f⟩ ∈ deeds p t) (undeclared : f.isDeclared = false) :
    c < base ∨ ∃ q b i, ⟨.enter i, .opened c⟩ ∈ deeds q t ∧ ⟨.construct b, .ok none⟩ ∈ deeds q t := by
  refine or_iff_not_imp_left.mpr fun above => ?_
  obtain ⟨a, j, asked, _, _, stands⟩ := tracked.stands p d planned
  obtain ⟨es, es', w, asking, split, executing⟩ := stands.resolution
  obtain ⟨pending, spot⟩ : ∃ pending, a.spot = .read c pending (.error f) := by
    rw [split] at told
    rcases List.mem_append.mp told with told | told
    · exact asking.read_of_mem told
    · rcases executing _ told with ⟨k, target⟩ | other | other
      · cases target
      · cases other
      · cases other
  have fits := tracked.sound.fits p a asked
  unfold Ask.Fits at fits
  rw [spot] at fits
  obtain ⟨y, found, _, published⟩ := fits
  obtain ⟨q, a', r, asked', built, _, news⟩ :=
    tracked.sound.builder (Nat.le_of_not_lt above) found published
  obtain rfl := eq_none_of_reading news.symm undeclared
  have inside : q < units.length := tracked.everyAsk ▸ (List.getElem?_eq_some_iff.mp asked').1
  obtain ⟨a'', j', asked'', _, _, stands'⟩ :=
    tracked.stands q _ (List.getElem?_eq_getElem inside)
  obtain rfl := Option.some.inj (asked'.symm.trans asked'')
  obtain ⟨es, es', w, asking, split, _⟩ := stands'.resolution
  obtain ⟨b, _, _, rfl⟩ := asking.of_built built
  exact ⟨q, b, a'.identity, by simp [split], by simp [split]⟩

end Pool.Tracked

/-! ### Runs -/

/-- What becomes of the units when the workers have gone some way: they can go on until every job is
over, and then exactly the stranded units are stuck. -/
structure Pool.Settled (catalog : Catalog K) (replays workers base : Nat)
    (units : List (TestUnit K.Recipe × Bool)) (t : List (Nat × Option (Deed K))) (x : Pool K) :
    Prop where
  goes_on : ¬ x.Complete → ∃ l y, Step catalog replays workers x l y
  stuck_iff : x.Complete → ∀ p u runs, units[p]? = some (u, runs) →
    ∃ j, x.jobs[p]? = some j ∧ j.unit.result.key = u.key ∧
      (j.unit.phase.isFinal = false ↔ (deeds p t).any Deed.strands = true) ∧
      (j.unit.result.outcome = .stuck ↔ (deeds p t).any Deed.strands = true) ∧
      (j.unit.result.reason = some .timeout ↔ (deeds p t).any Deed.strands = true)
  news : ∀ p d c f, units[p]? = some d → ⟨.await c, .error f⟩ ∈ deeds p t → f.isDeclared = false →
    c < base ∨ ∃ q b i, ⟨.enter i, .opened c⟩ ∈ deeds q t ∧ ⟨.construct b, .ok none⟩ ∈ deeds q t

theorem Pool.Tracked.settled {units : List (TestUnit K.Recipe × Bool)}
    {t : List (Nat × Option (Deed K))} {x : Pool K} {asks : List Ask}
    (tracked : Tracked catalog replays base units t x asks) (enough : 0 < workers)
    (fresh : ∀ d ∈ units, d.1.IsFresh) : Settled catalog replays workers base units t x := by
  constructor
  case goes_on => exact tracked.progress enough
  case news =>
    intro p d c f planned told undeclared
    exact tracked.source_of_news planned told undeclared
  case stuck_iff =>
    intro complete p u runs planned
    obtain ⟨a, j, _, here, _, stands⟩ := tracked.stands p (u, runs) planned
    have reported := stands.reported (fresh _ (List.mem_of_getElem? planned))
      (complete j (List.mem_of_getElem? here))
    refine ⟨j, here, reported.key, ?_, reported.stuck_iff, reported.timeout_iff⟩
    rw [TestUnit.isFinal_eq, ← reported.stuck_iff]
    simp

namespace Harness

/-- Of a run without a deadline: unless a probe is interrupted it returns, what it reports comes of
one interleaving of the workers, and in every interleaving exactly the stranded units are stuck. -/
theorem run_stuck_iff_stranded {h : Harness K} {planned : List (Planned K.Recipe)} {workers : Int}
    (quiet : h.session.Quiet) (positive : 1 ≤ workers) (plan : h.catalog.plan = .ok planned) :
    (∃ f h', (h.decisions planned).interrupt = some f ∧ h.run workers none = (.error f, h')) ∨
      (decided (h.decisions planned).entries).map (·.1) = planned.flatMap (·.units) ∧
      ∃ log,
        (∃ t x h', Pool.Run h.catalog h.replays workers.toNat
            ⟨h.jobs planned, h.launched planned log⟩ t x ∧ x.Complete ∧
          h.run workers none =
            (.ok ⟨h.runName (h.runs + 1), x.jobs.map (·.unit.result)⟩, h')) ∧
        ∀ t x, Pool.Run h.catalog h.replays workers.toNat
            ⟨h.jobs planned, h.launched planned log⟩ t x →
          Pool.Settled h.catalog h.replays workers.toNat h.session.contexts.length
            (decided (h.decisions planned).entries) t x := by
  cases interrupt : (h.decisions planned).interrupt with
  | some f =>
      obtain ⟨h', raised, _⟩ := run_interrupted none positive plan interrupt
      exact .inl ⟨f, h', rfl, raised⟩
  | none =>
      have enough : 0 < workers.toNat := by omega
      obtain ⟨log, t, x, h', ran, run, complete, _⟩ :=
        run_eq_complete quiet positive plan interrupt
      refine .inr ⟨h.decided_in_order interrupt, log, ⟨t, x, h', run, complete, ran⟩, ?_⟩
      intro t x run
      obtain ⟨asks, tracked⟩ := h.tracked quiet plan interrupt run
      exact tracked.settled enough (h.isFresh_of_decided plan interrupt)

/-- A harness with a backend whose constructor returns without an instance. -/
def hollow : Harness PlainText.kit :=
  ((Harness.start (K := PlainText.kit) {} (.make false [] []) defaultReplays
    (numberedRun "run")).registerAll
      [Samples.addImport, Samples.backend "Hollow" 8 .nothing 0 "",
       Samples.bind "Hollow" ["AddImport"]]).2

/-- Its first unit fails for want of an instance. Its second unit is told that there is none, and is
stuck. -/
theorem run_stuck_iff_stranded_hollow :
    ∃ (t : List (Nat × Option (Deed PlainText.kit))) (x : Pool PlainText.kit) (h' : Harness _)
      (j : Job PlainText.kit), hollow.run 2 none = (.ok ⟨"run-0001", x.jobs.map (·.unit.result)⟩, h') ∧
      x.jobs[1]? = some j ∧ j.unit.result.outcome = .stuck ∧
      (Pool.deeds 0 t).any Deed.strands = false ∧ (Pool.deeds 1 t).any Deed.strands = true := by
  have reports : (hollow.run 2 none).1.toOption.map (·.results.map (·.outcome)) =
      some [.failed, .stuck] := by decide +kernel
  have plans : hollow.catalog.plan.toOption.map (fun ps => (ps.flatMap (·.units)).length) =
      some 2 := by decide +kernel
  have named : hollow.runName (hollow.runs + 1) = "run-0001" := by decide +kernel
  have quiet : hollow.session.Quiet := Built.quiet (.registerAll (.start ..) _)
  have two : (1 : Int) ≤ 2 := by decide
  cases plan : hollow.catalog.plan with
  | error f => simp [plan, Except.toOption] at plans
  | ok planned =>
      rcases run_stuck_iff_stranded quiet two plan with
        ⟨f, h', _, raised⟩ | ⟨units, log, ⟨t, x, h', run, complete, ran⟩, settled⟩
      · rw [raised] at reports
        cases reports
      · have outcomes : x.jobs.map (·.unit.result.outcome) = [.failed, .stuck] := by
          rw [ran] at reports
          simpa [Except.toOption, Function.comp_def] using reports
        have both : (decided (hollow.decisions planned).entries).length = 2 := by
          have listed := congrArg List.length units
          rw [List.length_map] at listed
          exact listed.trans (by simpa [plan, Except.toOption] using plans)
        have at_ (p : Nat) (inside : p < 2) : ∃ j, x.jobs[p]? = some j ∧
            (j.unit.result.outcome = .stuck ↔ (Pool.deeds p t).any Deed.strands = true) := by
          obtain ⟨j, here, _, _, stuck, _⟩ := (settled t x run).stuck_iff complete p _ _
            (List.getElem?_eq_getElem (both ▸ inside))
          exact ⟨j, here, stuck⟩
        obtain ⟨j, here, stuck⟩ := at_ 0 (by decide)
        obtain ⟨j', here', stuck'⟩ := at_ 1 (by decide)
        have failed : j.unit.result.outcome = .failed := by
          have found := congrArg (·[0]?) outcomes
          simpa [here] using found
        have left : j'.unit.result.outcome = .stuck := by
          have found := congrArg (·[1]?) outcomes
          simpa [here'] using found
        refine ⟨t, x, h', j', named ▸ ran, here', left, ?_, stuck'.mp left⟩
        simpa [failed] using stuck

end Harness

end Concord
