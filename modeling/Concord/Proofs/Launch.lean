import Concord.Harness
import Concord.Proofs.UnitResult
/-!
How a run is launched. The catalog is planned, the gate decides on every binding, and the decided
units become jobs: rejected ones are over, approved ones are queued. Everything before the workers
begin changes nothing of the session but the state of the supplied code and the log.
-/

namespace Concord

variable {K : Kit} {ρ σ : Type}

/-- The planned units in plan order, each with the gate's decision on its binding. -/
def decided (entries : List (Planned ρ × Bool)) : List (TestUnit ρ × Bool) :=
  entries.flatMap fun e => e.1.units.map fun u => (u, e.2)

/-- The job of a decided unit when the workers begin. -/
def Job.start (d : TestUnit K.Recipe × Bool) : Job K :=
  if d.2 then ⟨d.1, .queued⟩ else ⟨d.1.moved (.skip .gate), .over⟩

theorem decided_map_fst {ρ : Type} (entries : List (Planned ρ × Bool)) :
    (decided entries).map (·.1) = (entries.map (·.1)).flatMap (·.units) := by
  simp only [decided, List.map_flatMap, List.flatMap_map, List.map_map]
  congr 1
  funext e
  exact List.map_id _

theorem openJobs_jobsOf (entries : List (Planned K.Recipe × Bool)) :
    openJobs (jobsOf entries) = (decided entries).map Job.start := by
  simp only [openJobs, jobsOf, decided, List.map_flatMap, List.map_map]
  congr 1
  funext e
  apply List.map_congr_left
  intro u _
  obtain ⟨p, runs⟩ := e
  cases runs <;> rfl

/-! ### Planning -/

theorem Catalog.isFresh_of_mem_units {c : Catalog K} {b : Binding} {u : TestUnit K.Recipe}
    (member : u ∈ c.units b) : u.IsFresh := by
  obtain ⟨name, _, inside⟩ := List.mem_flatMap.mp member
  unfold Catalog.contractUnits at inside
  split at inside
  · cases inside
  · obtain ⟨s, _, rfl⟩ := List.mem_map.mp inside
    rfl

theorem Catalog.eq_of_plan {c : Catalog K} {planned : List (Planned K.Recipe)}
    (plan : c.plan = .ok planned) : planned = c.bindings.map fun b => ⟨b, c.units b⟩ := by
  unfold Catalog.plan at plan
  split at plan
  · cases plan
  · split at plan
    · cases plan
    · exact (Except.ok.inj plan).symm

theorem Catalog.isFresh_of_plan {c : Catalog K} {planned : List (Planned K.Recipe)}
    (plan : c.plan = .ok planned) {p : Planned K.Recipe} (member : p ∈ planned)
    {u : TestUnit K.Recipe} (inside : u ∈ p.units) : u.IsFresh := by
  rw [Catalog.eq_of_plan plan] at member
  obtain ⟨b, _, rfl⟩ := List.mem_map.mp member
  exact Catalog.isFresh_of_mem_units inside

/-- A recipe of a registered scenario. -/
def Catalog.Uses (c : Catalog K) (r : K.Recipe) : Prop :=
  ∃ k ∈ c.contracts, ∃ s ∈ k.scenarios, s.recipe = r

theorem Catalog.uses_of_plan {c : Catalog K} {planned : List (Planned K.Recipe)}
    (plan : c.plan = .ok planned) {p : Planned K.Recipe} (member : p ∈ planned)
    {u : TestUnit K.Recipe} (inside : u ∈ p.units) : c.Uses u.scenario.recipe := by
  rw [Catalog.eq_of_plan plan] at member
  obtain ⟨b, _, rfl⟩ := List.mem_map.mp member
  obtain ⟨name, _, here⟩ := List.mem_flatMap.mp inside
  unfold Catalog.contractUnits at here
  split at here
  · cases here
  · rename_i k found
    obtain ⟨s, listed, rfl⟩ := List.mem_map.mp here
    exact ⟨k, List.mem_of_find?_eq_some found, s, listed, rfl⟩

/-! ### Gating -/

namespace Environment

/-- Every probe answers or raises an ordinary fault. -/
def ProbesContained (e : Environment σ) : Prop :=
  ∀ p ∈ e.probes, ∀ s, Contained (p.2.ask s).1

theorem available_contained {e : Environment σ} (contained : e.ProbesContained) (resource : String)
    (s : σ) :
    (∃ b, (e.available resource s).answer = .ok b) ∧
      (e.available resource s).environment.ProbesContained := by
  unfold available
  split
  · exact ⟨⟨_, rfl⟩, contained⟩
  · split
    · exact ⟨⟨_, rfl⟩, contained⟩
    · rename_i probe found
      obtain ⟨before, after, split, _⟩ := List.lookup_eq_some_iff.mp found
      have asked := contained (resource, probe) (by simp [split]) s
      split
      · exact ⟨⟨_, rfl⟩, contained⟩
      · split
        · exact ⟨⟨_, rfl⟩, contained⟩
        · rename_i f _ raised
          rw [if_pos (asked f (by rw [raised]))]
          exact ⟨⟨_, rfl⟩, contained⟩

theorem admitsBinding_contained {e : Environment σ} (contained : e.ProbesContained) (b : Binding)
    (s : σ) :
    (∃ runs, (e.admitsBinding b s).answer = .ok runs) ∧
      (e.admitsBinding b s).environment.ProbesContained := by
  have admitted : (∃ runs, (e.admits b.debugOnly b.resourceName s).answer = .ok runs) ∧
      (e.admits b.debugOnly b.resourceName s).environment.ProbesContained := by
    unfold admits
    split
    · exact available_contained contained _ s
    · exact ⟨⟨_, rfl⟩, contained⟩
  obtain ⟨⟨runs, answer⟩, kept⟩ := admitted
  cases runs with
  | false =>
      simp only [admitsBinding, answer]
      exact ⟨⟨false, rfl⟩, kept⟩
  | true =>
      simp only [admitsBinding, answer]
      exact ⟨⟨true, rfl⟩, kept⟩

theorem decide_contained {e : Environment σ} (contained : e.ProbesContained) (s : σ)
    (planned : List (Planned ρ)) : (e.decide s planned).interrupt = none := by
  induction planned generalizing e s with
  | nil => rfl
  | cons p ps ih =>
      obtain ⟨⟨runs, answer⟩, contained'⟩ := admitsBinding_contained contained p.binding s
      simp only [decide, answer]
      exact ih contained' (e.admitsBinding p.binding s).shared

/-- A gate that is not interrupted decides on every planned binding, in plan order. -/
theorem entries_of_calm {e : Environment σ} {s : σ} {planned : List (Planned ρ)}
    (calm : (e.decide s planned).interrupt = none) :
    (e.decide s planned).entries.map (·.1) = planned := by
  induction planned generalizing e s with
  | nil => rfl
  | cons p ps ih =>
      cases answer : (e.admitsBinding p.binding s).answer with
      | error f => simp [decide, answer] at calm
      | ok runs =>
          simp only [decide, answer] at calm ⊢
          rw [List.map_cons, ih calm]

end Environment

/-! ### The workers begin -/

namespace Harness

/-- The gate's decisions on a plan in the harness as it stands. -/
def decisions (h : Harness K) (planned : List (Planned K.Recipe)) :
    Environment.Decisions K.Shared K.Recipe :=
  h.environment.decide h.session.shared planned

def jobs (h : Harness K) (planned : List (Planned K.Recipe)) : List (Job K) :=
  (decided (h.decisions planned).entries).map Job.start

/-- The session when the workers begin, with whatever was logged on the way. -/
def launched (h : Harness K) (planned : List (Planned K.Recipe)) (log : Array Record) : Session K :=
  { h.session with shared := (h.decisions planned).shared, log }

theorem decided_in_order (h : Harness K) {planned : List (Planned K.Recipe)}
    (calm : (h.decisions planned).interrupt = none) :
    (decided (h.decisions planned).entries).map (·.1) = planned.flatMap (·.units) := by
  rw [decided_map_fst]
  exact congrArg _ (Environment.entries_of_calm calm)

theorem mem_of_decided (h : Harness K) {planned : List (Planned K.Recipe)}
    (calm : (h.decisions planned).interrupt = none) {d : TestUnit K.Recipe × Bool}
    (member : d ∈ decided (h.decisions planned).entries) : ∃ p ∈ planned, d.1 ∈ p.units := by
  have listed : d.1 ∈ planned.flatMap (·.units) :=
    h.decided_in_order calm ▸ List.mem_map_of_mem member
  exact List.mem_flatMap.mp listed

theorem isFresh_of_decided (h : Harness K) {planned : List (Planned K.Recipe)}
    (plan : h.catalog.plan = .ok planned) (calm : (h.decisions planned).interrupt = none) :
    ∀ d ∈ decided (h.decisions planned).entries, d.1.IsFresh := by
  intro d member
  obtain ⟨p, inside, here⟩ := h.mem_of_decided calm member
  exact Catalog.isFresh_of_plan plan inside here

theorem uses_of_decided (h : Harness K) {planned : List (Planned K.Recipe)}
    (plan : h.catalog.plan = .ok planned) (calm : (h.decisions planned).interrupt = none) :
    ∀ d ∈ decided (h.decisions planned).entries, h.catalog.Uses d.1.scenario.recipe := by
  intro d member
  obtain ⟨p, inside, here⟩ := h.mem_of_decided calm member
  exact Catalog.uses_of_plan plan inside here

theorem finishLate_of_over {c : Catalog K} {replays waiting : Nat} {js : List (Job K)}
    (finished : ∀ j ∈ js, j.stage.isOver = true) (s : Session K) :
    finishLate c replays waiting js s = s := by
  induction js with
  | nil => rfl
  | cons j js ih =>
      simp only [finishLate, finished j List.mem_cons_self, Bool.true_or, if_true]
      exact ih fun j member => finished j (List.mem_cons_of_mem _ member)

/-- The record that a run begins with, after planning and gating. -/
def launchRecord (runId : String) (entries : List (Planned ρ × Bool)) (workers : Nat) : Record :=
  let units := jobsOf entries
  let approved := units.countP (·.2)
  Source.runner.record .info
    s!"Run {runId}: {units.length} unit(s) planned, {approved} approved, {workers} worker(s)"

/-- What is written down when the report is made: how many jobs the deadline has cut off, if any, and
the summary. -/
def closingRecords (deadline : Option Text.Seconds) (r : Report) (js : List (Job K)) : List Record :=
  let unfinished := js.countP (!·.stage.isOver)
  (match deadline with
    | some t =>
        if unfinished = 0 then []
        else [Source.runner.record .error
          s!"Run {r.runId}: {unfinished} unit(s) did not finish within {t.text}s"]
    | none => [])
  ++ [Source.runner.record .info s!"Run {r.runId} finished: {r.summary}"]

/-- What is written down when a run ends: nothing without a report. -/
def lastRecords (deadline : Option Text.Seconds) (js : List (Job K)) :
    Except Fault Report → List Record
  | .ok r => closingRecords deadline r js
  | .error _ => []

/-- How a run ends whose workers leave the jobs so. -/
def ending (runId : String) (deadline : Option Text.Seconds) (js : List (Job K)) :
    Except Fault Report :=
  match overrun? deadline js with
  | some f => .error f
  | none => .ok ⟨runId, js.map (·.unit.result)⟩

@[simp] theorem overrun?_none (js : List (Job K)) : overrun? none js = none := by
  unfold overrun?
  split <;> rfl

theorem waitFault?_of_overrun {deadline : Option Text.Seconds} {js : List (Job K)} {f : Fault}
    (overrun : overrun? deadline js = some f) : deadline.bind waitFault? = some f := by
  unfold overrun? at overrun
  split at overrun
  · cases overrun
  · exact overrun

theorem ending_eq_error_iff {runId : String} {deadline : Option Text.Seconds} {js : List (Job K)}
    {f : Fault} : ending runId deadline js = .error f ↔ overrun? deadline js = some f := by
  unfold ending
  cases overrun? deadline js <;> simp

theorem ending_eq_ok_iff {runId : String} {deadline : Option Text.Seconds} {js : List (Job K)}
    {r : Report} : ending runId deadline js = .ok r ↔
      overrun? deadline js = none ∧ r = ⟨runId, js.map (·.unit.result)⟩ := by
  unfold ending
  cases overrun? deadline js <;> simp [eq_comm]

theorem ending_of_overrun {deadline : Option Text.Seconds} {js : List (Job K)} {f : Fault}
    (overrun : overrun? deadline js = some f) (runId : String) :
    ending runId deadline js = .error f := ending_eq_error_iff.mpr overrun

theorem ending_of_patient {deadline : Option Text.Seconds} {js : List (Job K)}
    (patient : overrun? deadline js = none) (runId : String) :
    ending runId deadline js = .ok ⟨runId, js.map (·.unit.result)⟩ :=
  ending_eq_ok_iff.mpr ⟨patient, rfl⟩

@[simp] theorem ending_none (runId : String) (js : List (Job K)) :
    ending runId none js = .ok ⟨runId, js.map (·.unit.result)⟩ :=
  ending_of_patient (overrun?_none js) runId

/-- The workers work off the jobs, the report is made as they leave them, and those that wait finish
later. -/
theorem workOff_eq (c : Catalog K) (replays workers : Nat) (deadline : Option Text.Seconds)
    (headStart : Nat) (runId : String) (entries : List (Planned K.Recipe × Bool)) (s : Session K) :
    workOff c replays workers deadline headStart runId entries s =
      let worked := dispatch c replays deadline.isNone workers (turnsWithin deadline headStart) 0
        ((decided entries).map Job.start) (s.write "MainThread" [launchRecord runId entries workers])
      let ended := ending runId deadline worked.1
      (ended, finishLate c replays 0 worked.1
        (worked.2.clear.write "MainThread" (lastRecords deadline worked.1 ended))) := by
  simp only [workOff]
  rw [openJobs_jobsOf]
  unfold launchRecord
  generalize dispatch c replays deadline.isNone workers _ 0 _ _ = worked
  cases overrun : overrun? deadline worked.1 with
  | some f =>
      simp only [ending, overrun]
      rfl
  | none =>
      simp only [ending, overrun]
      cases deadline with
      | none => rfl
      | some t =>
          simp only [lastRecords, closingRecords]
          split <;> rfl

theorem plan_settled {h : Harness K} {planned : List (Planned K.Recipe)}
    (plan : h.catalog.plan = .ok planned) :
    h.settled.plan = (.ok planned, h.settled.write [Catalog.planRecord planned]) := by
  simp only [Harness.plan, show h.settled.catalog.plan = .ok planned from plan]

/-- Planning changes neither the environment nor the state of the supplied code, so the gate decides
as it would have before. -/
theorem decide_eq_decisions {g h : Harness K} {planned : List (Planned K.Recipe)}
    (asked : g.environment = h.environment) (state : g.session.shared = h.session.shared) :
    g.decide planned =
      (match (h.decisions planned).interrupt with
        | some f => .error f
        | none => .ok (h.decisions planned).entries,
      g.answered (h.decisions planned).environment (h.decisions planned).shared
        (h.decisions planned).records) := by
  simp only [Harness.decide, decisions, asked, state]
  cases (h.environment.decide h.session.shared planned).interrupt <;> rfl

/-- What is written down before the workers begin. -/
def openingRecords (h : Harness K) (planned : List (Planned K.Recipe)) (workers : Int) : List Record :=
  Catalog.planRecord planned :: ((h.decisions planned).records ++
    [launchRecord (h.runName (h.runs + 1)) (h.decisions planned).entries workers.toNat])

/-- The jobs of a run as its workers leave them, and the session. -/
def worked (h : Harness K) (workers : Int) (deadline : Option Text.Seconds)
    (planned : List (Planned K.Recipe)) (log : Array Record) : List (Job K) × Session K :=
  dispatch h.catalog h.replays deadline.isNone workers.toNat
    (turnsWithin deadline (h.headStart (h.runs + 1))) 0 (h.jobs planned) (h.launched planned log)

theorem run_eq {h : Harness K} {planned : List (Planned K.Recipe)} {workers : Int}
    (deadline : Option Text.Seconds) (positive : 1 ≤ workers) (plan : h.catalog.plan = .ok planned)
    (calm : (h.decisions planned).interrupt = none) :
    ∃ h',
      let worked := h.worked workers deadline planned
        (h.session.write "MainThread" (h.openingRecords planned workers)).log
      let ended := ending (h.runName (h.runs + 1)) deadline worked.1
      h.run workers deadline = (ended, h') ∧
        h'.session = finishLate h.catalog h.replays 0 worked.1
          (worked.2.clear.write "MainThread" (lastRecords deadline worked.1 ended)) := by
  have enough : ¬ workers < 1 := by omega
  have opened : (h.launched planned (((h.session.write "MainThread" [Catalog.planRecord planned]).write
      "MainThread" (h.decisions planned).records).log)).write "MainThread"
        [launchRecord (h.runName (h.runs + 1)) (h.decisions planned).entries workers.toNat] =
      h.launched planned (h.session.write "MainThread" (h.openingRecords planned workers)).log := by
    simp [Session.write, launched, openingRecords, List.foldl_append]
  have worked := workOff_eq h.catalog h.replays workers.toNat deadline (h.headStart (h.runs + 1))
    (h.runName (h.runs + 1)) (h.decisions planned).entries
    (h.launched planned (((h.session.write "MainThread" [Catalog.planRecord planned]).write
      "MainThread" (h.decisions planned).records).log))
  rw [opened] at worked
  simp only [Harness.run, enough, if_false, plan_settled plan]
  rw [decide_eq_decisions (h := h), calm]
  · exact ⟨_, Prod.ext (congrArg (·.1) worked) rfl, congrArg (·.2) worked⟩
  · rfl
  · rfl

/-- The jobs of a run when its report is made, or when nobody can wait for them. -/
def awaited (h : Harness K) (workers : Int) (deadline : Option Text.Seconds)
    (planned : List (Planned K.Recipe)) : List (Job K) :=
  (h.worked workers deadline planned
    (h.session.write "MainThread" (h.openingRecords planned workers)).log).1

theorem fst_run {h : Harness K} {planned : List (Planned K.Recipe)} {workers : Int}
    (deadline : Option Text.Seconds) (positive : 1 ≤ workers) (plan : h.catalog.plan = .ok planned)
    (calm : (h.decisions planned).interrupt = none) :
    (h.run workers deadline).1 =
      ending (h.runName (h.runs + 1)) deadline (h.awaited workers deadline planned) := by
  obtain ⟨h', ran, _⟩ := run_eq deadline positive plan calm
  rw [ran, awaited]

/-- What is reported is what the workers report when the deadline passes. If they have finished, what
is left is what they leave. -/
theorem run_eq_dispatch {h : Harness K} {planned : List (Planned K.Recipe)} {workers : Int}
    (deadline : Option Text.Seconds) (positive : 1 ≤ workers) (plan : h.catalog.plan = .ok planned)
    (calm : (h.decisions planned).interrupt = none) :
    ∃ log h',
      let worked := h.worked workers deadline planned log
      h.run workers deadline = (ending (h.runName (h.runs + 1)) deadline worked.1, h') ∧
        ((∀ j ∈ worked.1, j.stage.isOver = true) →
          ∃ log', h'.session = { worked.2.clear with log := log' }) := by
  obtain ⟨h', ran, left⟩ := run_eq deadline positive plan calm
  refine ⟨_, h', ran, fun finished => ⟨_, left.trans (finishLate_of_over finished _)⟩⟩

/-- A probe that is interrupted ends the run before any worker begins. -/
theorem run_interrupted {h : Harness K} {planned : List (Planned K.Recipe)} {workers : Int}
    (deadline : Option Text.Seconds) (positive : 1 ≤ workers) (plan : h.catalog.plan = .ok planned)
    {f : Fault} (interrupt : (h.decisions planned).interrupt = some f) :
    ∃ h', h.run workers deadline = (.error f, h') ∧
      ∃ log, h'.session = h.launched planned log := by
  have enough : ¬ workers < 1 := by omega
  simp only [Harness.run, enough, if_false, plan_settled plan]
  rw [decide_eq_decisions (h := h), interrupt]
  · exact ⟨_, rfl, _, rfl⟩
  · rfl
  · rfl

end Harness

end Concord
