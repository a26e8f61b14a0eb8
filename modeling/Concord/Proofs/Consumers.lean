import Concord.CommandLine.Perform
import Concord.Proofs.Dispatch
import Concord.Proofs.PlainTextTrust
import Concord.TestSession
import Mathlib.Data.List.Forall2
/-!
Who goes through the plan. The listing, the collection of tests and the run each plan and ask the
gate in a loop of their own. What the gate has decided it remembers in the environment of the
harness, and nothing but a registration makes it forget, so that whoever comes later finds every
decision made: a probe that would now answer otherwise is not asked again.
-/

namespace Concord

variable {K : Kit} {σ ρ : Type}

/-! ### What the gate remembers -/

namespace Environment

/-- What is settled about a resource without asking its probe. -/
def known? (e : Environment σ) (resource : String) : Option Bool :=
  if resource ∈ e.resources then some true
  else if (e.probes.lookup resource).isNone then some false
  else e.memo.lookup resource

/-- The gate's decision on a binding, as far as it is settled. -/
def settles? (e : Environment σ) (b : Binding) : Option Bool :=
  if b.debugOnly && !e.includeDebugOnly then e.known? b.resourceName else some true

/-- The same environment later on: it may remember more. -/
structure Continues (e e' : Environment σ) : Prop where
  optedIn : e'.includeDebugOnly = e.includeDebugOnly
  resources : e'.resources = e.resources
  probes : e'.probes = e.probes
  memo : ∀ r v, e.memo.lookup r = some v → e'.memo.lookup r = some v

theorem Continues.refl (e : Environment σ) : e.Continues e := ⟨rfl, rfl, rfl, fun _ _ kept => kept⟩

theorem Continues.trans {e₁ e₂ e₃ : Environment σ} (first : e₁.Continues e₂)
    (next : e₂.Continues e₃) : e₁.Continues e₃ where
  optedIn := next.optedIn.trans first.optedIn
  resources := next.resources.trans first.resources
  probes := next.probes.trans first.probes
  memo r v kept := next.memo r v (first.memo r v kept)

theorem Continues.remembering (e : Environment σ) {resource : String}
    (forgotten : e.memo.lookup resource = none) (v : Bool) :
    e.Continues { e with memo := (resource, v) :: e.memo } := by
  refine ⟨rfl, rfl, rfl, fun r w remembered => ?_⟩
  have other : r ≠ resource := by
    rintro rfl
    rw [forgotten] at remembered
    cases remembered
  simpa only [List.lookup_cons, beq_false_of_ne other] using remembered

theorem Continues.known? {e e' : Environment σ} (later : e.Continues e') {r : String} {v : Bool}
    (known : e.known? r = some v) : e'.known? r = some v := by
  unfold Environment.known? at known ⊢
  rw [later.resources, later.probes]
  split at known
  · rw [if_pos ‹_›, known]
  · rw [if_neg ‹_›]
    split at known
    · rw [if_pos ‹_›, known]
    · rw [if_neg ‹_›]
      exact later.memo r v known

theorem Continues.settles? {e e' : Environment σ} (later : e.Continues e') {b : Binding}
    {runs : Bool} (settled : e.settles? b = some runs) : e'.settles? b = some runs := by
  unfold Environment.settles? at settled ⊢
  rw [later.optedIn]
  split at settled
  · rw [if_pos ‹_›]
    exact later.known? settled
  · rw [if_neg ‹_›, settled]

/-- A question is answered from what is known, or else a probe is asked, and its answer remembered
unless it was interrupted. -/
theorem available_cases (e : Environment σ) (resource : String) (s : σ) :
    (∃ v, e.known? resource = some v ∧ e.available resource s = ⟨.ok v, e, s, []⟩) ∨
      (e.known? resource = none ∧ e.memo.lookup resource = none ∧
        ∃ probe, e.probes.lookup resource = some probe ∧
          (e.available resource s).shared = (probe.ask s).2 ∧
          ((∃ v, (e.available resource s).answer = .ok v ∧
              (e.available resource s).environment = { e with memo := (resource, v) :: e.memo }) ∨
            ∃ f, (e.available resource s).answer = .error f ∧
              (e.available resource s).environment = e)) := by
  unfold available known?
  by_cases declared : resource ∈ e.resources
  · simp only [declared, if_true]
    exact .inl ⟨true, rfl, rfl⟩
  · simp only [declared, if_false]
    cases found : e.probes.lookup resource with
    | none => exact .inl ⟨false, rfl, rfl⟩
    | some probe =>
        cases remembered : e.memo.lookup resource with
        | some known => exact .inl ⟨known, by simp, rfl⟩
        | none =>
            refine .inr ⟨by simp, rfl, probe, rfl, ?_⟩
            rcases asked : probe.ask s with ⟨f | b, s'⟩
            · cases ordinary : f.isOrdinary <;>
                simp only [asked, ordinary, Bool.false_eq_true, if_true, if_false]
              · exact ⟨trivial, .inr ⟨f, rfl, trivial⟩⟩
              · exact ⟨trivial, .inl ⟨false, rfl, rfl⟩⟩
            · simp only [asked]
              exact ⟨trivial, .inl ⟨b, rfl, rfl⟩⟩

/-- The record of a rejection apart, a decision is what the policy says. -/
theorem admitsBinding_eq (e : Environment σ) (b : Binding) (s : σ) :
    (e.admitsBinding b s).answer = (e.admits b.debugOnly b.resourceName s).answer ∧
      (e.admitsBinding b s).environment = (e.admits b.debugOnly b.resourceName s).environment ∧
      (e.admitsBinding b s).shared = (e.admits b.debugOnly b.resourceName s).shared := by
  unfold admitsBinding
  dsimp only
  split <;> exact ⟨rfl, rfl, rfl⟩

/-- A binding is decided on from what is settled, or else a probe is asked, after which it is
settled, unless the probe was interrupted. -/
theorem admitsBinding_cases (e : Environment σ) (b : Binding) (s : σ) :
    e.Continues (e.admitsBinding b s).environment ∧
      ((∃ runs, e.settles? b = some runs ∧ (e.admitsBinding b s).answer = .ok runs ∧
          (e.admitsBinding b s).environment = e ∧ (e.admitsBinding b s).shared = s) ∨
        ∃ probe, e.settles? b = none ∧ e.probes.lookup b.resourceName = some probe ∧
          (e.admitsBinding b s).shared = (probe.ask s).2 ∧
          ∀ runs, (e.admitsBinding b s).answer = .ok runs →
            (e.admitsBinding b s).environment.settles? b = some runs) := by
  obtain ⟨answer, environment, shared⟩ := e.admitsBinding_eq b s
  rw [answer, environment, shared]
  unfold admits settles?
  by_cases gated : (b.debugOnly && !e.includeDebugOnly) = true
  · simp only [gated, if_true]
    rcases e.available_cases b.resourceName s with ⟨v, known, same⟩ |
      ⟨unknown, forgotten, probe, found, asked, ⟨v, answered, noted⟩ | ⟨f, raised, kept⟩⟩
    · rw [same]
      exact ⟨.refl e, .inl ⟨v, known, rfl, rfl, rfl⟩⟩
    · rw [noted, answered]
      refine ⟨.remembering e forgotten v, .inr ⟨probe, unknown, found, asked, ?_⟩⟩
      intro runs same
      cases same
      have undeclared : b.resourceName ∉ e.resources := by
        intro declared
        simp [known?, declared] at unknown
      simp [gated, known?, undeclared, found]
    · rw [kept, raised]
      exact ⟨.refl e, .inr ⟨probe, unknown, found, asked, fun runs impossible => by cases impossible⟩⟩
  · simp only [gated]
    exact ⟨.refl e, .inl ⟨true, rfl, rfl, rfl, rfl⟩⟩

theorem settles_of_admitsBinding {e : Environment σ} {b : Binding} {s : σ} {runs : Bool}
    (answer : (e.admitsBinding b s).answer = .ok runs) :
    (e.admitsBinding b s).environment.settles? b = some runs := by
  rcases (e.admitsBinding_cases b s).2 with ⟨runs', settled, answer', same, _⟩ | ⟨_, _, _, _, settles⟩
  · rw [same, settled, ← Except.ok.inj (answer'.symm.trans answer)]
  · exact settles runs answer

theorem decide_continues (e : Environment σ) (s : σ) (planned : List (Planned ρ)) :
    e.Continues (e.decide s planned).environment := by
  induction planned generalizing e s with
  | nil => exact .refl e
  | cons p ps ih =>
      have first := (e.admitsBinding_cases p.binding s).1
      cases answer : (e.admitsBinding p.binding s).answer with
      | error f => simpa only [decide, answer] using first
      | ok runs =>
          simp only [decide, answer]
          exact first.trans (ih _ _)

/-- Every decision of a loop is settled when the loop is over. -/
theorem settles_of_decide (e : Environment σ) (s : σ) (planned : List (Planned ρ)) :
    ∀ x ∈ (e.decide s planned).entries,
      (e.decide s planned).environment.settles? x.1.binding = some x.2 := by
  induction planned generalizing e s with
  | nil =>
      intro x impossible
      cases impossible
  | cons p ps ih =>
      intro x member
      cases answer : (e.admitsBinding p.binding s).answer with
      | error f => simp [decide, answer] at member
      | ok runs =>
          simp only [decide, answer] at member ⊢
          rcases List.mem_cons.mp member with rfl | later
          · exact (decide_continues _ _ ps).settles? (settles_of_admitsBinding answer)
          · exact ih _ _ x later

/-- Where everything is settled nothing is asked, and the decisions are those that were made. -/
theorem decide_of_settled {e : Environment σ} {entries : List (Planned ρ × Bool)}
    (settled : ∀ x ∈ entries, e.settles? x.1.binding = some x.2) (s : σ) :
    (e.decide s (entries.map (·.1))).entries = entries ∧
      (e.decide s (entries.map (·.1))).interrupt = none ∧
      (e.decide s (entries.map (·.1))).environment = e := by
  induction entries with
  | nil => exact ⟨rfl, rfl, rfl⟩
  | cons x xs ih =>
      have here := settled x List.mem_cons_self
      obtain ⟨rest, calm, same⟩ := ih fun y member => settled y (List.mem_cons_of_mem _ member)
      rcases e.admitsBinding_cases x.1.binding s with
        ⟨_, ⟨runs, settled', answer, kept, unasked⟩ | ⟨_, unsettled, _⟩⟩
      · obtain rfl := Option.some.inj (here.symm.trans settled')
        simp only [List.map_cons, decide, answer, kept, unasked]
        exact ⟨by rw [rest], calm, same⟩
      · rw [unsettled] at here
        cases here

theorem available_continues (e : Environment σ) (resource : String) (s : σ) :
    e.Continues (e.available resource s).environment := by
  rcases e.available_cases resource s with ⟨v, _, same⟩ |
    ⟨_, forgotten, _, _, _, ⟨v, _, noted⟩ | ⟨f, _, kept⟩⟩
  · rw [same]
    exact .refl e
  · rw [noted]
    exact .remembering e forgotten v
  · rw [kept]
    exact .refl e

end Environment

/-! ### Going through the plan -/

/-- The planned units by their keys, in plan order, each with whether it runs. -/
def shown (entries : List (Planned ρ × Bool)) : List (Key × Bool) :=
  (decided entries).map fun d => (d.1.key, d.2)

theorem shown_cons (p : Planned ρ) (runs : Bool) (entries : List (Planned ρ × Bool)) :
    shown ((p, runs) :: entries) = (p.units.map fun u => (u.key, runs)) ++ shown entries := by
  simp [shown, decided]

theorem shown_map_fst (entries : List (Planned ρ × Bool)) :
    (shown entries).map (·.1) = ((entries.map (·.1)).flatMap (·.units)).map (·.key) := by
  rw [← decided_map_fst, shown, List.map_map, List.map_map]
  rfl

/-- The units that are listed, with whether each is to run. -/
def CommandLine.lines (h : Harness K) :
    List (Planned K.Recipe) → Except Fault (List (Key × Bool)) × Harness K
  | [] => (.ok [], h)
  | p :: ps =>
      match h.admits p.binding with
      | (.error f, h) => (.error f, h)
      | (.ok runs, h) =>
          let (rest, h) := lines h ps
          (rest.map (p.units.map (fun u => (u.key, runs)) ++ ·), h)

/-- Everybody who goes through the plan of a harness and asks the gate about it. -/
inductive Consumer
  | listing
  | collection
  | run (workers : Int) (deadline : Option Text.Seconds)

/-- A run has a worker. -/
def Consumer.Able : Consumer → Prop
  | .run workers _ => 1 ≤ workers
  | _ => True

/-- What a run raises that comes to wait for too long a deadline. -/
def Consumer.waitFault? : Consumer → Option Fault
  | .run _ deadline => deadline.bind Concord.waitFault?
  | _ => none

/-- The units that a consumer comes upon, by their keys, each with whether it runs: of a report,
whether it was not skipped. -/
def Consumer.pairs : Consumer → Harness K → Except Fault (List (Key × Bool)) × Harness K
  | .listing, h =>
      match h.plan with
      | (.error f, h) => (.error f, h)
      | (.ok planned, h) => CommandLine.lines h planned
  | .collection, h =>
      let (r, h) := TestSession.planUnits h
      (r.map fun units => units.map fun d => (d.1.key, d.2), h)
  | .run workers deadline, h =>
      let (r, h) := h.run workers deadline
      (r.map fun report => report.results.map fun r => (r.key, r.outcome != .skipped), h)

/-- Everything that can be asked of a harness without registering anything. -/
inductive Operation (K : Kit)
  | plan
  | environment
  | available (resource : String)
  | admits (b : Binding)
  | consume (c : Consumer)
  | check (key : Key) (s : Scenario K.Recipe)
  | resolve (identity : String)
  | isResolved (identity : String)
  | constructions (identity : String)
  | clear

namespace Harness

def operate (h : Harness K) : Operation K → Harness K
  | .plan => h.plan.2
  | .environment => h.settled
  | .available resource => (h.available resource).2
  | .admits b => (h.admits b).2
  | .consume c => (c.pairs h).2
  | .check key s => (h.check key s).2
  | .resolve identity => (h.resolve identity).2
  | .isResolved _ | .constructions _ => h
  | .clear => h.clear

def after (h : Harness K) (ops : List (Operation K)) : Harness K := ops.foldl operate h

/-- The harness with whatever its workers have made of the session. -/
def resumed (h : Harness K) (session : Session K) : Harness K := { h with session }

/-- What a loop over a plan comes to: the units with the decisions, or the interrupt of a probe. -/
def gate (h : Harness K) (planned : List (Planned K.Recipe)) :
    Except Fault (List (Key × Bool)) :=
  match (h.decisions planned).interrupt with
  | some f => .error f
  | none => .ok (shown (h.decisions planned).entries)

/-- Nothing was registered, and nothing that was decided is forgotten. -/
structure Keeps (h h' : Harness K) : Prop where
  catalog : h'.catalog = h.catalog
  replays : h'.replays = h.replays
  environment : h.environment.Continues h'.environment

theorem Keeps.refl (h : Harness K) : h.Keeps h := ⟨rfl, rfl, .refl _⟩

theorem Keeps.trans {h₁ h₂ h₃ : Harness K} (first : h₁.Keeps h₂) (next : h₂.Keeps h₃) :
    h₁.Keeps h₃ :=
  ⟨next.catalog.trans first.catalog, next.replays.trans first.replays,
    first.environment.trans next.environment⟩

/-- A harness after somebody has gone through the plan. -/
structure GoneThrough (h : Harness K) (planned : List (Planned K.Recipe)) (h' : Harness K) :
    Prop where
  catalog : h'.catalog = h.catalog
  replays : h'.replays = h.replays
  environment : h'.environment = (h.decisions planned).environment

theorem GoneThrough.keeps {h h' : Harness K} {planned : List (Planned K.Recipe)}
    (gone : h.GoneThrough planned h') : h.Keeps h' :=
  ⟨gone.catalog, gone.replays, gone.environment ▸ Environment.decide_continues _ _ planned⟩

theorem plan_of_ok {h : Harness K} {planned : List (Planned K.Recipe)}
    (plan : h.catalog.plan = .ok planned) :
    h.plan = (.ok planned, h.write [Catalog.planRecord planned]) := by
  simp only [Harness.plan, plan]

theorem plan_of_error {h : Harness K} {f : Fault} (plan : h.catalog.plan = .error f) :
    h.plan = (.error f, h) := by
  simp only [Harness.plan, plan]

end Harness

/-- The gate decides on a plan binding by binding. -/
theorem Harness.decisions_cons {h h' : Harness K} {p : Planned K.Recipe} {runs : Bool}
    (admitted : h.admits p.binding = (.ok runs, h')) (ps : List (Planned K.Recipe)) :
    (h.decisions (p :: ps)).entries = (p, runs) :: (h'.decisions ps).entries ∧
      (h.decisions (p :: ps)).interrupt = (h'.decisions ps).interrupt ∧
      (h.decisions (p :: ps)).environment = (h'.decisions ps).environment := by
  obtain ⟨answer, rfl⟩ := Prod.mk.inj admitted
  simp only [decisions, Environment.decide, answer]
  exact ⟨rfl, rfl, rfl⟩

theorem Harness.decisions_interrupted {h h' : Harness K} {p : Planned K.Recipe} {f : Fault}
    (raised : h.admits p.binding = (.error f, h')) (ps : List (Planned K.Recipe)) :
    (h.decisions (p :: ps)).entries = [] ∧ (h.decisions (p :: ps)).interrupt = some f ∧
      (h.decisions (p :: ps)).environment = h'.environment := by
  obtain ⟨answer, rfl⟩ := Prod.mk.inj raised
  simp only [decisions, Environment.decide, answer]
  exact ⟨trivial, trivial, rfl⟩

namespace CommandLine

theorem lines_eq (h : Harness K) (planned : List (Planned K.Recipe)) :
    (lines h planned).1 = h.gate planned ∧ h.GoneThrough planned (lines h planned).2 := by
  induction planned generalizing h with
  | nil => exact ⟨rfl, rfl, rfl, rfl⟩
  | cons p ps ih =>
      have kept : (h.admits p.binding).2.catalog = h.catalog ∧
          (h.admits p.binding).2.replays = h.replays := ⟨rfl, rfl⟩
      rcases admitted : h.admits p.binding with ⟨f | runs, h'⟩ <;> rw [admitted] at kept
      · obtain ⟨_, interrupt, environment⟩ := Harness.decisions_interrupted admitted ps
        simp only [lines, admitted, Harness.gate, interrupt]
        exact ⟨trivial, kept.1, kept.2, environment.symm⟩
      · obtain ⟨entries, interrupt, environment⟩ := Harness.decisions_cons admitted ps
        obtain ⟨pairs, gone⟩ := ih h'
        simp only [lines, admitted, Harness.gate, entries, interrupt, shown_cons, pairs]
        refine ⟨?_, gone.catalog.trans kept.1, gone.replays.trans kept.2,
          gone.environment.trans environment.symm⟩
        cases (h'.decisions ps).interrupt <;> rfl

def lineOf (pair : Key × Bool) : String := planLine pair.1 pair.2

/-- What is printed: a line for each unit, and how many there are, run and are gated out. -/
def planText (pairs : List (Key × Bool)) : String :=
  String.join (pairs.map lineOf) ++
    s!"{pairs.length} unit(s), {pairs.countP (·.2)} to run, {pairs.countP (!·.2)} gated out\n"

theorem planLines_eq (p : Planned ρ) (runs : Bool) :
    planLines p runs = String.join ((p.units.map fun u => (u.key, runs)).map lineOf) := by
  simp [planLines, lineOf, Function.comp_def]

/-- A listing prints and counts the units that it goes through. -/
theorem list_of_lines {h : Harness K} {planned : List (Planned K.Recipe)}
    {pairs : List (Key × Bool)} (listed : (lines h planned).1 = .ok pairs) :
    (list h planned).interrupt = none ∧
      (list h planned).text = String.join (pairs.map lineOf) ∧
      (list h planned).total = pairs.length ∧
      (list h planned).skipped = pairs.countP (!·.2) := by
  induction planned generalizing h pairs with
  | nil =>
      cases listed
      exact ⟨rfl, rfl, rfl, rfl⟩
  | cons p ps ih =>
      rcases admitted : h.admits p.binding with ⟨f | runs, h'⟩ <;>
        simp only [lines, admitted] at listed
      · cases listed
      · obtain ⟨rest, there, rfl⟩ := eq_ok_of_map listed
        obtain ⟨calm, text, total, skipped⟩ := ih there
        simp only [list, admitted, calm, text, total, skipped, planLines_eq]
        refine ⟨trivial, ?_, by simp, ?_⟩
        · rw [List.map_append, String.join_append]
        · cases runs <;> simp [Function.comp_def]

/-- The command prints the plan as the harness lists it. -/
theorem performPlan_of_lines (w : Surroundings K) {h : Harness K}
    {planned : List (Planned K.Recipe)} (plan : h.catalog.plan = .ok planned)
    {pairs : List (Key × Bool)}
    (listed : (lines (h.write [Catalog.planRecord planned]) planned).1 = .ok pairs) :
    (performPlan w h).output = planText pairs := by
  obtain ⟨calm, text, total, skipped⟩ := list_of_lines listed
  have counted : pairs.length - pairs.countP (!·.2) = pairs.countP (·.2) := by
    have parts : pairs.length = pairs.countP (·.2) + pairs.countP (!·.2) := by
      simpa using pairs.length_eq_countP_add_countP (·.2)
    omega
  simp only [performPlan, Harness.plan_of_ok plan, calm, text, total, skipped, counted, planText]

end CommandLine

/-! ### The gate and the workers -/

theorem TestUnit.outcome_eq_skipped_iff (u : TestUnit ρ) :
    u.outcome = .skipped ↔ u.phase = .skipped := by
  unfold TestUnit.outcome
  cases u.phase <;> simp

theorem TestUnit.phase_moved_ne_skipped {u : TestUnit ρ} {m : Move} (going : u.phase ≠ .skipped)
    (other : m.target ≠ .skipped) : (u.moved m).phase ≠ .skipped := by
  by_cases allowed : m.target ∈ u.phase.successors
  · rw [moved_of_mem allowed]
    exact other
  · rwa [moved, attempt, if_neg allowed]

theorem phase_unresolved_ne_skipped {u : TestUnit ρ} (going : u.phase ≠ .skipped) (f : Fault) :
    (unresolved u f).1.phase ≠ .skipped := by
  cases f with
  | unregistered b => exact TestUnit.phase_moved_ne_skipped going (by simp [Move.target])
  | construction b r c => exact TestUnit.phase_moved_ne_skipped going (by simp [Move.target])
  | _ => exact going

theorem phase_executed_ne_skipped {u : TestUnit ρ} (going : u.phase ≠ .skipped)
    (r : Except Fault String) : (executed u r).1.phase ≠ .skipped := by
  have ends {m : Move} (other : m.target ≠ .skipped) : (u.moved m).phase ≠ .skipped :=
    TestUnit.phase_moved_ne_skipped going other
  cases r with
  | ok text => exact ends (by simp [Move.target])
  | error f =>
      cases f with
      | flaky k e rs => exact ends (by simp [Move.target])
      | mismatch k e a w => exact ends (by simp [Move.target])
      | _ =>
          simp only [executed]
          split
          · exact ends (by simp [Move.target])
          · exact going

/-- A job is skipped exactly if the gate has rejected its unit, and then it is over from the start. -/
structure Job.Gated (d : TestUnit K.Recipe × Bool) (j : Job K) : Prop where
  key : j.unit.key = d.1.key
  skipped : j.unit.phase = .skipped ↔ d.2 = false
  finished : d.2 = false → j.stage.isOver = true

namespace Job.Gated

variable {catalog : Catalog K} {replays workers : Nat} {d : TestUnit K.Recipe × Bool} {j j' : Job K}
  {s s' : Session K}

theorem start (fresh : d.1.IsFresh) : (Job.start d).Gated d := by
  obtain ⟨u, runs⟩ := d
  dsimp only at fresh
  rw [fresh]
  cases runs with
  | false => exact ⟨rfl, ⟨fun _ => rfl, fun _ => rfl⟩, fun _ => rfl⟩
  | true => exact ⟨rfl, by simp [Job.start], by simp⟩

/-- Only approved units are worked at. -/
theorem approved (gated : j.Gated d) {e : Option (Deed K)}
    (step : j.Step catalog replays s e j' s') : d.2 = true ∧ j.unit.phase ≠ .skipped := by
  have runs : d.2 = true := by
    cases runs : d.2 with
    | true => rfl
    | false =>
        have finished := gated.finished runs
        cases step <;> cases finished
  refine ⟨runs, fun skipped => ?_⟩
  rw [gated.skipped.mp skipped] at runs
  cases runs

/-- No step of a worker skips a unit. -/
theorem step (gated : j.Gated d) {e : Option (Deed K)} (step : j.Step catalog replays s e j' s') :
    j'.Gated d := by
  obtain ⟨approved, going⟩ := gated.approved step
  have goes_on (key : j'.unit.key = j.unit.key) (going' : j'.unit.phase ≠ .skipped) : j'.Gated d := by
    refine ⟨key.trans gated.key, ?_, fun rejected => ?_⟩
    · simp [going', approved]
    · rw [rejected] at approved
      cases approved
  cases step with
  | begins u s =>
      exact goes_on (u.key_moved _) (TestUnit.phase_moved_ne_skipped going (by simp [Move.target]))
  | resolves thread performed => exact goes_on rfl going
  | obtains u i s =>
      exact goes_on (u.key_moved _) (TestUnit.phase_moved_ne_skipped going (by simp [Move.target]))
  | fails u f s thread => exact goes_on (key_unresolved u f) (phase_unresolved_ne_skipped going f)
  | executes thread performed => exact goes_on rfl going
  | ends u r s thread => exact goes_on (key_executed u r) (phase_executed_ne_skipped going r)

theorem run (gated : j.Gated d) {es : List (Option (Deed K))}
    (run : Job.Run catalog replays j s es j' s') : j'.Gated d := by
  induction run with
  | nil => exact gated
  | cons goes _ ih => exact ih (gated.step goes)

end Job.Gated

/-- What a report says of a job: its unit's key, and whether it was not skipped. -/
def Job.shown (j : Job K) : Key × Bool := (j.unit.result.key, j.unit.result.outcome != .skipped)

theorem Job.Gated.shown_eq {d : TestUnit K.Recipe × Bool} {j : Job K} (gated : j.Gated d) :
    j.shown = (d.1.key, d.2) := by
  refine Prod.ext gated.key ?_
  have skipped := j.unit.outcome_eq_skipped_iff.trans gated.skipped
  show (j.unit.outcome != .skipped) = d.2
  cases runs : d.2 <;> simp [skipped, runs]

namespace Pool

variable {catalog : Catalog K} {replays workers : Nat}

/-- The jobs of these units, each as the gate has decided. -/
def Gated (units : List (TestUnit K.Recipe × Bool)) (jobs : List (Job K)) : Prop :=
  List.Forall₂ (fun d j => Job.Gated d j) units jobs

theorem Gated.start {units : List (TestUnit K.Recipe × Bool)} (fresh : ∀ d ∈ units, d.1.IsFresh) :
    Gated units (units.map Job.start) := by
  unfold Gated
  rw [List.forall₂_map_right_iff, List.forall₂_same]
  exact fun d member => .start (fresh d member)

theorem Gated.set {units : List (TestUnit K.Recipe × Bool)} {jobs : List (Job K)}
    (gated : Gated units jobs) {p : Nat} {j j' : Job K} (here : jobs[p]? = some j)
    (goes_on : ∀ d, j.Gated d → j'.Gated d) : Gated units (jobs.set p j') := by
  induction gated generalizing p with
  | nil => cases here
  | cons first rest ih =>
      cases p with
      | zero =>
          cases here
          exact .cons (goes_on _ first) rest
      | succ p => exact .cons first (ih here)

/-- Whatever the workers do and in whatever order, the gate's decisions can be read off the jobs. -/
theorem Gated.run {units : List (TestUnit K.Recipe × Bool)} {x y : Pool K}
    {t : List (Nat × Option (Deed K))} (gated : Gated units x.jobs)
    (run : Run catalog replays workers x t y) : Gated units y.jobs := by
  induction run with
  | nil => exact gated
  | cons step _ ih =>
      cases step with
      | step here goes turn => exact ih (gated.set here fun _ before => before.step goes)

theorem Gated.shown {units : List (TestUnit K.Recipe × Bool)} {jobs : List (Job K)}
    (gated : Gated units jobs) : jobs.map Job.shown = units.map fun d => (d.1.key, d.2) := by
  induction gated with
  | nil => rfl
  | cons first _ ih => rw [List.map_cons, List.map_cons, first.shown_eq, ih]

/-- Working off jobs keeps them as the gate has decided. -/
theorem Gated.dispatch {units : List (TestUnit K.Recipe × Bool)} {jobs : List (Job K)}
    (gated : Gated units jobs) (patient : Bool) (turns : Option Nat) (waiting : Nat)
    (s : Session K) :
    Gated units (dispatch catalog replays patient workers turns waiting jobs s).1 := by
  induction gated generalizing turns waiting s with
  | nil => exact .nil
  | @cons d j units jobs first rest ih =>
      by_cases stays : (j.stage.isOver || decide (workers ≤ waiting) || turns == some 0) = true
      · rw [dispatch_of_skipped stays]
        exact .cons first (ih turns waiting s)
      · have unfinished : j.stage.isOver = false := by simp_all
        rw [dispatch_of_taken stays rfl]
        obtain ⟨⟨_, run⟩, _⟩ :=
          Job.advance_advanced catalog replays patient (workerName waiting) unfinished s
        exact .cons (first.run run) (ih _ _ _)

end Pool

/-! ### All consumers -/

namespace Harness

theorem gated_jobs {h : Harness K} {planned : List (Planned K.Recipe)}
    (plan : h.catalog.plan = .ok planned) (calm : (h.decisions planned).interrupt = none) :
    Pool.Gated (decided (h.decisions planned).entries) (h.jobs planned) :=
  .start (h.isFresh_of_decided plan calm)

/-- A run leaves the environment in which its units were decided on. -/
theorem goneThrough_run {h : Harness K} {planned : List (Planned K.Recipe)} {workers : Int}
    (deadline : Option Text.Seconds) (positive : 1 ≤ workers)
    (plan : h.catalog.plan = .ok planned) :
    h.GoneThrough planned (h.run workers deadline).2 := by
  have enough : ¬ workers < 1 := by omega
  simp only [Harness.run, enough, if_false, plan_settled plan]
  rw [decide_eq_decisions (h := h)]
  · cases (h.decisions planned).interrupt <;> exact ⟨rfl, rfl, rfl⟩
  · rfl
  · rfl

theorem run_of_defect {h : Harness K} {f : Fault} {workers : Int} (deadline : Option Text.Seconds)
    (positive : 1 ≤ workers) (plan : h.catalog.plan = .error f) :
    h.run workers deadline = (.error f, h.settled) := by
  have enough : ¬ workers < 1 := by omega
  simp only [Harness.run, enough, if_false, plan_of_error (h := h.settled) plan]

theorem run_without_worker {workers : Int} (few : workers < 1) (h : Harness K)
    (deadline : Option Text.Seconds) :
    h.run workers deadline =
      (.error (.breakdown .value s!"workers must be at least 1, got {workers}"), h.settled) := by
  simp only [Harness.run, few, if_true]

end Harness

namespace Consumer

variable {h : Harness K} {c : Consumer}

/-- A consumer has come upon what the gate decides on a plan, unless it is a run that was to wait for
too long. -/
def Finds (c : Consumer) (h : Harness K) (found : Except Fault (List (Key × Bool))) : Prop :=
  (c.pairs h).1 = found ∨ ∃ f, c.waitFault? = some f ∧ (c.pairs h).1 = .error f

theorem finds_run {planned : List (Planned K.Recipe)} {workers : Int}
    (deadline : Option Text.Seconds) (positive : 1 ≤ workers)
    (plan : h.catalog.plan = .ok planned) :
    (Consumer.run workers deadline).Finds h (h.gate planned) := by
  unfold Harness.gate
  cases calm : (h.decisions planned).interrupt with
  | some f =>
      obtain ⟨h', raised, _⟩ := Harness.run_interrupted deadline positive plan calm
      refine .inl ?_
      simp only [pairs, raised]
      rfl
  | none =>
      obtain ⟨log, h', ran, _⟩ := Harness.run_eq_dispatch deadline positive plan calm
      have gated : Pool.Gated (decided (h.decisions planned).entries)
          (h.worked workers deadline planned log).1 :=
        (Harness.gated_jobs plan calm).dispatch deadline.isNone _ 0 _
      cases overrun : overrun? deadline (h.worked workers deadline planned log).1 with
      | some f =>
          refine .inr ⟨f, Harness.waitFault?_of_overrun overrun, ?_⟩
          simp only [pairs, ran, Harness.ending_of_overrun overrun]
          rfl
      | none =>
          refine .inl ?_
          simp only [pairs, ran, Harness.ending_of_patient overrun, shown, ← gated.shown, Except.map,
            List.map_map]
          rfl

/-- Whoever goes through a plan finds what the gate decides on it, and leaves it decided. -/
theorem finds_of_plan {planned : List (Planned K.Recipe)} (able : c.Able)
    (plan : h.catalog.plan = .ok planned) :
    c.Finds h (h.gate planned) ∧ h.GoneThrough planned (c.pairs h).2 := by
  cases c with
  | listing =>
      simp only [Finds, pairs, Harness.plan_of_ok plan]
      obtain ⟨pairs, gone⟩ := CommandLine.lines_eq (h.write [Catalog.planRecord planned]) planned
      exact ⟨.inl pairs, gone.catalog, gone.replays, gone.environment⟩
  | collection =>
      simp only [Finds, pairs, TestSession.planUnits, Harness.plan_of_ok plan]
      rw [Harness.decide_eq_decisions (g := h.write [Catalog.planRecord planned]) (h := h) rfl rfl]
      refine ⟨.inl ?_, rfl, rfl, rfl⟩
      unfold Harness.gate
      cases (h.decisions planned).interrupt <;> rfl
  | run workers deadline =>
      exact ⟨finds_run deadline able plan, Harness.goneThrough_run deadline able plan⟩

theorem pairs_of_defect {f : Fault} (able : c.Able) (plan : h.catalog.plan = .error f) :
    (c.pairs h).1 = .error f := by
  cases c with
  | listing => simp only [pairs, Harness.plan_of_error plan]
  | collection =>
      simp only [pairs, TestSession.planUnits, Harness.plan_of_error plan]
      rfl
  | run workers deadline =>
      simp only [pairs, Harness.run_of_defect deadline able plan]
      rfl

theorem keeps (c : Consumer) (h : Harness K) : h.Keeps (c.pairs h).2 := by
  by_cases able : c.Able
  · cases plan : h.catalog.plan with
    | ok planned => exact (finds_of_plan able plan).2.keeps
    | error f =>
        cases c with
        | listing =>
            simp only [pairs, Harness.plan_of_error plan]
            exact .refl h
        | collection =>
            simp only [pairs, TestSession.planUnits, Harness.plan_of_error plan]
            exact .refl h
        | run workers deadline =>
            simp only [pairs, Harness.run_of_defect deadline able plan]
            exact ⟨rfl, rfl, .refl _⟩
  · cases c with
    | listing => exact absurd trivial able
    | collection => exact absurd trivial able
    | run workers deadline =>
        have few : workers < 1 := by simpa [Able] using able
        simp only [pairs, Harness.run_without_worker few]
        exact ⟨rfl, rfl, .refl _⟩

end Consumer

namespace Harness

theorem operate_keeps (h : Harness K) (op : Operation K) : h.Keeps (h.operate op) := by
  cases op with
  | plan =>
      simp only [operate, Harness.plan]
      split <;> exact ⟨rfl, rfl, .refl _⟩
  | available resource => exact ⟨rfl, rfl, Environment.available_continues _ resource _⟩
  | admits b => exact ⟨rfl, rfl, (Environment.admitsBinding_cases _ b _).1⟩
  | consume c => exact c.keeps h
  | _ => exact ⟨rfl, rfl, .refl _⟩

theorem after_keeps (h : Harness K) (ops : List (Operation K)) : h.Keeps (h.after ops) := by
  induction ops generalizing h with
  | nil => exact .refl h
  | cons op ops ih => exact (h.operate_keeps op).trans (ih (h.operate op))

/-- Every decision on the plan is made. -/
structure Settled (h : Harness K) (entries : List (Planned K.Recipe × Bool)) : Prop where
  plan : h.catalog.plan = .ok (entries.map (·.1))
  settled : ∀ x ∈ entries, h.environment.settles? x.1.binding = some x.2

theorem Settled.keeps {h h' : Harness K} {entries : List (Planned K.Recipe × Bool)}
    (settled : h.Settled entries) (keeps : h.Keeps h') : h'.Settled entries :=
  ⟨by rw [keeps.catalog, settled.plan],
    fun x member => keeps.environment.settles? (settled.settled x member)⟩

/-- The decisions of a harness in which everything is decided are those that were made. -/
theorem Settled.gate {h : Harness K} {entries : List (Planned K.Recipe × Bool)}
    (settled : h.Settled entries) :
    (h.decisions (entries.map (·.1))).interrupt = none ∧
      (h.decisions (entries.map (·.1))).entries = entries := by
  obtain ⟨entries', calm, _⟩ := Environment.decide_of_settled settled.settled h.session.shared
  exact ⟨calm, entries'⟩

theorem entries_in_order (h : Harness K) {planned : List (Planned K.Recipe)}
    (calm : (h.decisions planned).interrupt = none) :
    (h.decisions planned).entries.map (·.1) = planned :=
  Environment.entries_of_calm calm

/-- Whoever has gone through a plan leaves every decision on it made. -/
theorem settled_of_pairs {h : Harness K} {c : Consumer} {planned : List (Planned K.Recipe)}
    (able : c.Able) (plan : h.catalog.plan = .ok planned)
    (calm : (h.decisions planned).interrupt = none) :
    (c.pairs h).2.Settled (h.decisions planned).entries := by
  have gone := (Consumer.finds_of_plan able plan).2
  constructor
  · rw [gone.catalog, plan, h.entries_in_order calm]
  · intro x member
    rw [gone.environment]
    exact Environment.settles_of_decide _ _ planned x member

/-- Everybody who goes through the plan of this harness comes upon these units: a listing, a
collection and a run, what is printed, and whoever looks at the workers at any time. -/
structure Shows (h : Harness K) (pairs : List (Key × Bool)) : Prop where
  consumed : ∀ c : Consumer, c.Able → c.Finds h (.ok pairs)
  /-- The units of a run are these also where it cannot wait for its workers. -/
  gated : ∀ planned workers deadline log, h.catalog.plan = .ok planned →
    (h.worked workers deadline planned log).1.map Job.shown = pairs
  printed : ∀ w, (CommandLine.performPlan w h).output = CommandLine.planText pairs
  watched : ∀ planned log workers t x, h.catalog.plan = .ok planned →
    Pool.Run h.catalog h.replays workers ⟨h.jobs planned, h.launched planned log⟩ t x →
    x.jobs.map Job.shown = pairs

theorem shows_of_calm {h : Harness K} {planned : List (Planned K.Recipe)}
    (plan : h.catalog.plan = .ok planned) (calm : (h.decisions planned).interrupt = none) :
    h.Shows (shown (h.decisions planned).entries) := by
  have gate : h.gate planned = .ok (shown (h.decisions planned).entries) := by
    simp only [Harness.gate, calm]
  constructor
  · intro c able
    exact gate ▸ (Consumer.finds_of_plan able plan).1
  · intro planned' workers deadline log plan'
    obtain rfl := Except.ok.inj (plan.symm.trans plan')
    exact ((gated_jobs plan calm).dispatch deadline.isNone _ 0 _).shown
  · intro w
    have listed := (CommandLine.lines_eq (h.write [Catalog.planRecord planned]) planned).1
    exact CommandLine.performPlan_of_lines w plan (listed.trans gate)
  · intro planned' log workers t x plan' run
    obtain rfl := Except.ok.inj (plan.symm.trans plan')
    exact ((gated_jobs plan calm).run run).shown

theorem Settled.shows {h : Harness K} {entries : List (Planned K.Recipe × Bool)}
    (settled : h.Settled entries) : h.Shows (shown entries) := by
  obtain ⟨calm, entries'⟩ := settled.gate
  have shows := shows_of_calm settled.plan calm
  rwa [entries'] at shows

/-- All who go through the plan of a harness agree, whatever its probes answer from one question to
the next: where the plan has a defect all are told so, and else they all come upon the same units in
plan order with the same decisions, at once and again after anything that was asked of the harness
in between and whatever its workers have done to the session. -/
theorem consumers_agree (h : Harness K) (contained : h.environment.ProbesContained) :
    (∃ f, h.catalog.plan = .error f ∧
        ∀ ops (c : Consumer), c.Able → (c.pairs (h.after ops)).1 = .error f) ∨
      ∃ planned pairs, h.catalog.plan = .ok planned ∧
        pairs.map (·.1) = (planned.flatMap (·.units)).map (·.key) ∧ h.Shows pairs ∧
        ∀ c : Consumer, c.Able → ∀ ops session,
          (((c.pairs h).2.after ops).resumed session).Shows pairs := by
  cases plan : h.catalog.plan with
  | error f =>
      refine .inl ⟨f, rfl, fun ops c able => Consumer.pairs_of_defect able ?_⟩
      rw [(h.after_keeps ops).catalog, plan]
  | ok planned =>
      have calm : (h.decisions planned).interrupt = none :=
        Environment.decide_contained contained _ _
      refine .inr ⟨planned, shown (h.decisions planned).entries, rfl, ?_, shows_of_calm plan calm, ?_⟩
      · rw [shown_map_fst, h.entries_in_order calm]
      · intro c able ops session
        have settled := (settled_of_pairs able plan calm).keeps (after_keeps _ ops)
        have resumed : ((c.pairs h).2.after ops).Keeps (((c.pairs h).2.after ops).resumed session) :=
          ⟨rfl, rfl, .refl _⟩
        exact (settled.keeps resumed).shows

end Harness

namespace Samples

open PlainText

/-- A probe that changes its mind with every question, and one that always raises. -/
def fickleRegistrations : List (Registration kit) :=
  [addImport, plain "V8" 8 0 "", plain "V11" 11 1 "",
   .probe "fickle" ((Answering.inTurn [.bool true, .bool false]).probe 2),
   .probe "faulty" ((Answering.raising (.breakdown .runtime "no toolchain")).probe 3),
   .binding ⟨"V8", ["AddImport"], true, some "fickle"⟩,
   .binding ⟨"V11", ["AddImport"], true, some "faulty"⟩]

def fickle : Harness kit :=
  ((Harness.start (K := kit) {} (.make false [] []) defaultReplays (numberedRun "run")).registerAll
    fickleRegistrations).2

/-- A probe that does not raise an interrupt of its own is contained. -/
theorem contained_probe {a : Answering} (ordinary : ∀ f, a = .raising f → f.isOrdinary = true)
    (tag : Nat) (t : Tallies) : Contained ((a.probe tag).ask t).1 := by
  intro f raised
  unfold Answering.probe Answering.answer at raised
  cases a with
  | always d => cases raised
  | inTurn ds =>
      dsimp only at raised
      split at raised
      · cases raised
      · cases raised
        rfl
  | raising g =>
      cases raised
      exact ordinary f rfl

theorem fickle_probes : fickle.environment.ProbesContained := by
  have probes : fickle.environment.probes =
      [("fickle", (Answering.inTurn [.bool true, .bool false]).probe 2),
       ("faulty", (Answering.raising (.breakdown .runtime "no toolchain")).probe 3)] := by rfl
  intro p member
  rw [probes] at member
  simp only [List.mem_cons, List.not_mem_nil, or_false] at member
  rcases member with rfl | rfl
  · exact contained_probe (by simp) 2
  · exact contained_probe (by rintro f ⟨⟩; rfl) 3

end Samples

/-- The fickle probe would say no the second time. It is asked once, and all who come later find the
question answered. -/
theorem Harness.consumers_agree_fickle :
    let units : List (Key × Bool) :=
      [(⟨"V8", "AddImport", "adds-missing-import"⟩, true),
       (⟨"V8", "AddImport", "keeps-existing-import"⟩, true),
       (⟨"V11", "AddImport", "adds-missing-import"⟩, false),
       (⟨"V11", "AddImport", "keeps-existing-import"⟩, false)]
    Samples.fickle.environment.ProbesContained ∧ Samples.fickle.Shows units ∧
      ∀ c : Consumer, c.Able → ∀ ops session,
        (((c.pairs Samples.fickle).2.after ops).resumed session).Shows units := by
  intro units
  have listed : (Consumer.listing.pairs Samples.fickle).1.toOption = some units := by decide +kernel
  refine ⟨Samples.fickle_probes, ?_⟩
  rcases consumers_agree Samples.fickle Samples.fickle_probes with
    ⟨f, plan, refused⟩ | ⟨planned, pairs, plan, _, shows, later⟩
  · rw [show Samples.fickle = Samples.fickle.after [] from rfl, refused [] .listing trivial] at listed
    cases listed
  · obtain found | ⟨_, impossible, _⟩ := shows.consumed .listing trivial
    · rw [found] at listed
      cases listed
      exact ⟨shows, later⟩
    · cases impossible

end Concord
