import Concord.Proofs.Consumers
import Concord.Proofs.Isolation
/-!
Failures stay where they arise. Two harnesses are run beside each other that have the same bindings
and differ in what some of the supplied code does: in the backends other than one, or in the recipe of
one scenario. What they report on the units that are not concerned is the same, with any number of
workers and in any interleaving of their steps.
-/

namespace Concord

variable {K : Kit} {ρ ρ' σ : Type}

/-! ### The part of a report -/

/-- The part of a report on the units with some keys. -/
def portion (about : Key → Bool) (results : List Result) : List Result :=
  results.filter fun r => about r.key

theorem portion_of_told {about : Key → Bool} {units : List (TestUnit ρ × Bool)}
    {results : List Result} {told : TestUnit ρ × Bool → Result}
    (each : List.Forall₂ (fun d r => r.key = d.1.key ∧ (about d.1.key = true → r = told d)) units
      results) :
    portion about results = (units.filter fun d => about d.1.key).map told := by
  unfold portion
  induction each with
  | nil => rfl
  | @cons d r units results first _ ih =>
      obtain ⟨key, same⟩ := first
      rw [List.filter_cons, List.filter_cons, key]
      split
      · rename_i included
        rw [List.map_cons, ih, same included]
      · exact ih

/-! ### One run -/

theorem Session.Around.of_same {catalog : Catalog K} {identity : String} {first first' t : Session K}
    (around : Around catalog identity first t) (shared : first.shared = first'.shared)
    (instances : first.instances = first'.instances) : Around catalog identity first' t := by
  induction around with
  | start => exact .frame .start shared instances
  | frame _ shared instances ih => exact .frame ih shared instances
  | construct _ registered other made ih => exact .construct ih registered other made
  | call _ target within performed ih => exact .call ih target within performed

/-- What was logged is nothing to the supplied code. -/
theorem Session.Isolates.relog {catalog : Catalog K} {identity : String} {s : Session K}
    (isolates : s.Isolates catalog identity) (log : Array Record) :
    ({ s with log } : Session K).Isolates catalog identity :=
  ⟨isolates.apart, isolates.returns,
    fun b t registered unknown around =>
      isolates.unmoved b t registered unknown (around.of_same rfl rfl),
    isolates.restarts⟩

namespace Harness

/-- What a harness reports on the units with some keys, with any number of workers and in any
complete interleaving of their steps. -/
structure Reports (h : Harness K) (planned : List (Planned K.Recipe)) (about : Key → Bool)
    (part : List Result) : Prop where
  runs : ∀ workers : Int, 1 ≤ workers → ∃ results h',
    h.run workers none = (.ok ⟨h.runName (h.runs + 1), results⟩, h') ∧
      results.map (·.key) = (planned.flatMap (·.units)).map (·.key) ∧ portion about results = part
  interleavings : ∀ workers log t x,
    Pool.Run h.catalog h.replays workers ⟨h.jobs planned, h.launched planned log⟩ t x → x.Complete →
      portion about (x.jobs.map (·.unit.result)) = part

/-- On the units of isolated backends, every complete interleaving reports what was foretold. -/
theorem results_told {h : Harness K} {planned : List (Planned K.Recipe)} (quiet : h.session.Quiet)
    (plan : h.catalog.plan = .ok planned) (calm : (h.decisions planned).interrupt = none)
    {about : Key → Bool}
    (isolates : ∀ d ∈ decided (h.decisions planned).entries, about d.1.key = true →
      (h.launched planned #[]).Isolates h.catalog d.1.key.backend)
    {workers : Nat} {log : Array Record} {t : List (Nat × Option (Deed K))} {x : Pool K}
    (run : Pool.Run h.catalog h.replays workers ⟨h.jobs planned, h.launched planned log⟩ t x)
    (complete : x.Complete) :
    List.Forall₂ (fun d r => r.key = d.1.key ∧
        (about d.1.key = true → r = foretold h.catalog h.replays (h.launched planned #[]) d))
      (decided (h.decisions planned).entries) (x.jobs.map (·.unit.result)) := by
  have gated := (gated_jobs plan calm).run run
  have fresh := h.isFresh_of_decided plan calm
  rw [List.forall₂_map_right_iff, List.forall₂_iff_get]
  refine ⟨gated.length_eq, fun p inside inside' => ?_⟩
  have planned' := List.getElem?_eq_getElem inside
  have here := List.getElem?_eq_getElem inside'
  refine ⟨(List.Forall₂.get gated inside inside').key, fun included => ?_⟩
  have alone := (isolates _ (List.getElem_mem inside) included).relog log
  obtain ⟨asks, homes, start⟩ :=
    Pool.Isolated.start h.replays (quiet_launched quiet planned log) alone fresh
  obtain ⟨asks', homes', ended⟩ := start.run alone fresh (h.uses_of_decided plan calm) run
  obtain ⟨j, found, told⟩ := ended.result complete planned' rfl
  obtain rfl := Option.some.inj (here.symm.trans found)
  exact told

/-- A harness reports what was foretold on the units of isolated backends. -/
theorem reports_foretold {h : Harness K} {planned : List (Planned K.Recipe)}
    (quiet : h.session.Quiet) (plan : h.catalog.plan = .ok planned)
    (calm : (h.decisions planned).interrupt = none) (about : Key → Bool)
    (isolates : ∀ d ∈ decided (h.decisions planned).entries, about d.1.key = true →
      (h.launched planned #[]).Isolates h.catalog d.1.key.backend) :
    h.Reports planned about
      (((decided (h.decisions planned).entries).filter fun d => about d.1.key).map
        (foretold h.catalog h.replays (h.launched planned #[]))) := by
  constructor
  case interleavings =>
    intro workers log t x run complete
    exact portion_of_told (results_told quiet plan calm isolates run complete)
  case runs =>
    intro workers positive
    obtain ⟨log, t, x, h', ran, run, complete, _⟩ := run_eq_complete quiet positive plan calm
    refine ⟨_, h', ran, ?_, portion_of_told (results_told quiet plan calm isolates run complete)⟩
    have shown := ((gated_jobs plan calm).run run).shown
    rw [← h.decided_in_order calm, List.map_map, List.map_map]
    simpa [Job.shown, Function.comp_def] using congrArg (List.map Prod.fst) shown

end Harness

/-! ### Two runs -/

/-- The gate decides on bindings: whatever is made of their units, the decisions are the same. -/
theorem Environment.decide_map (e : Environment σ) (s : σ) (planned : List (Planned ρ))
    (change : Planned ρ → Planned ρ') (binding : ∀ p, (change p).binding = p.binding) :
    e.decide s (planned.map change) =
      ⟨(e.decide s planned).entries.map fun d => (change d.1, d.2), (e.decide s planned).interrupt,
        (e.decide s planned).environment, (e.decide s planned).shared,
        (e.decide s planned).records⟩ := by
  induction planned generalizing e s with
  | nil => rfl
  | cons p ps ih =>
      simp only [List.map_cons, decide, binding]
      cases (e.admitsBinding p.binding s).answer with
      | error f => rfl
      | ok runs => simp only [ih, List.map_cons]

/-- A planned binding with each of its units changed. -/
def Planned.change (change : TestUnit ρ → TestUnit ρ') (p : Planned ρ) : Planned ρ' :=
  ⟨p.binding, p.units.map change⟩

theorem decided_change (change : TestUnit ρ → TestUnit ρ') (entries : List (Planned ρ × Bool)) :
    decided (entries.map fun e => (e.1.change change, e.2)) =
      (decided entries).map fun d => (change d.1, d.2) := by
  simp only [decided, List.flatMap_map, List.map_flatMap, Planned.change, List.map_map]
  rfl

/-- What a session remembers of an identity: the fault of its construction, or its instance. -/
def Session.recalled (s : Session K) (identity : String) : Option (Except Fault (Option (Instance K))) :=
  (s.known identity).map fun o => o.map fun k => s.instances[k]?

theorem Session.promise_congr {catalog catalog' : Catalog K} {s s' : Session K} {identity : String}
    (backend : catalog'.backend? identity = catalog.backend? identity)
    (shared : s'.shared = s.shared) (recalled : s'.recalled identity = s.recalled identity) :
    s'.promise catalog' identity = s.promise catalog identity := by
  unfold Session.recalled at recalled
  unfold promise
  rw [backend, shared]
  cases catalog.backend? identity with
  | none => rfl
  | some b =>
      cases known' : s'.known identity with
      | none =>
          rw [known', Option.map_none, eq_comm, Option.map_eq_none_iff] at recalled
          rw [recalled]
      | some o' =>
          rw [known', Option.map_some, eq_comm, Option.map_eq_some_iff] at recalled
          obtain ⟨o, known, same⟩ := recalled
          rw [known]
          cases o' with
          | error f =>
              cases o <;> cases same
              rfl
          | ok k' =>
              cases o with
              | error f => cases same
              | ok k => exact congrArg present (Except.ok.inj same).symm

namespace Harness

/-- Two harnesses with the same bindings, of which the second plans each unit as changed. They ask the
same environment in the same state. -/
structure Varies (h h' : Harness K) (change : TestUnit K.Recipe → TestUnit K.Recipe) : Prop where
  bindings : h'.catalog.bindings = h.catalog.bindings
  units : ∀ b, h'.catalog.units b = (h.catalog.units b).map change
  key : ∀ u, (change u).key = u.key
  environment : h'.environment = h.environment
  replays : h'.replays = h.replays
  shared : h'.session.shared = h.session.shared

/-- Two harnesses report the same on the units with some keys, unless the same probe interrupts
both. -/
inductive ReportAlike (h h' : Harness K) (planned planned' : List (Planned K.Recipe))
    (about : Key → Bool) : Prop
  | interrupted {f : Fault}
      (first : ∀ workers : Int, 1 ≤ workers → ∃ g, h.run workers none = (.error f, g))
      (second : ∀ workers : Int, 1 ≤ workers → ∃ g, h'.run workers none = (.error f, g))
  | reported {part : List Result} (first : h.Reports planned about part)
      (second : h'.Reports planned' about part)

namespace Varies

variable {h h' : Harness K} {change : TestUnit K.Recipe → TestUnit K.Recipe}
  {planned planned' : List (Planned K.Recipe)}

theorem planned_eq (varies : h.Varies h' change) (plan : h.catalog.plan = .ok planned)
    (plan' : h'.catalog.plan = .ok planned') : planned' = planned.map (Planned.change change) := by
  rw [Catalog.eq_of_plan plan, Catalog.eq_of_plan plan', varies.bindings, List.map_map]
  apply List.map_congr_left
  intro b _
  simp [Planned.change, varies.units]

theorem decisions_eq (varies : h.Varies h' change) (plan : h.catalog.plan = .ok planned)
    (plan' : h'.catalog.plan = .ok planned') :
    (h'.decisions planned').interrupt = (h.decisions planned).interrupt ∧
      (h'.decisions planned').shared = (h.decisions planned).shared ∧
      decided (h'.decisions planned').entries =
        (decided (h.decisions planned).entries).map fun d => (change d.1, d.2) := by
  have same : h'.decisions planned' =
      h.environment.decide h.session.shared (planned.map (Planned.change change)) := by
    rw [decisions, varies.environment, varies.shared, varies.planned_eq plan plan']
  rw [same, Environment.decide_map _ _ _ (Planned.change change) fun _ => rfl]
  exact ⟨rfl, rfl, decided_change change _⟩

/-- Where the units, the promises and the isolation of backends are the same, so are the reports. -/
theorem alike (varies : h.Varies h' change) (quiet : h.session.Quiet) (quiet' : h'.session.Quiet)
    (plan : h.catalog.plan = .ok planned) (plan' : h'.catalog.plan = .ok planned')
    {about : Key → Bool} (same : ∀ u, about u.key = true → change u = u)
    (promise : ∀ k, about k = true → (h'.launched planned' #[]).promise h'.catalog k.backend =
      (h.launched planned #[]).promise h.catalog k.backend)
    (isolates : ∀ k, about k = true → (h.launched planned #[]).Isolates h.catalog k.backend)
    (isolates' : ∀ k, about k = true → (h'.launched planned' #[]).Isolates h'.catalog k.backend) :
    h.ReportAlike h' planned planned' about := by
  obtain ⟨interrupts, shared, units⟩ := varies.decisions_eq plan plan'
  cases interrupt : (h.decisions planned).interrupt with
  | some f =>
      have interrupt' := interrupts.trans interrupt
      refine .interrupted (f := f) (fun workers positive => ?_) fun workers positive => ?_
      · obtain ⟨g, raised, _⟩ := run_interrupted none positive plan interrupt
        exact ⟨g, raised⟩
      · obtain ⟨g, raised, _⟩ := run_interrupted none positive plan' interrupt'
        exact ⟨g, raised⟩
  | none =>
      have first := reports_foretold quiet plan interrupt about
        fun d _ included => isolates d.1.key included
      have second := reports_foretold quiet' plan' (interrupts.trans interrupt) about
        fun d _ included => isolates' d.1.key included
      refine .reported first ?_
      have parts : ((decided (h'.decisions planned').entries).filter fun d => about d.1.key).map
            (foretold h'.catalog h'.replays (h'.launched planned' #[])) =
          ((decided (h.decisions planned).entries).filter fun d => about d.1.key).map
            (foretold h.catalog h.replays (h.launched planned #[])) := by
        rw [units, List.filter_map, List.map_map]
        simp only [Function.comp_def, varies.key]
        apply List.map_congr_left
        intro d member
        have included : about d.1.key = true := (List.mem_filter.mp member).2
        simp only [same d.1 included, foretold, promise d.1.key included, varies.replays]
        rw [show (h'.launched planned' #[]).shared = (h.launched planned #[]).shared from shared]
      rwa [parts] at second

end Varies

end Harness

/-! ### Other backends -/

/-- Two harnesses that differ only in what backends other than this one do: the others may be
registered in one and not in the other, and their constructors and parsers are anybody's. -/
structure Harness.SameFor (b : String) (h h' : Harness K) : Prop where
  contracts : h'.catalog.contracts = h.catalog.contracts
  bindings : h'.catalog.bindings = h.catalog.bindings
  backend : h'.catalog.backend? b = h.catalog.backend? b
  environment : h'.environment = h.environment
  replays : h'.replays = h.replays
  shared : h'.session.shared = h.session.shared
  recalled : h'.session.recalled b = h.session.recalled b

theorem Catalog.units_of_contracts {c c' : Catalog K} (contracts : c'.contracts = c.contracts)
    (b : Binding) : c'.units b = c.units b := by
  have same : c'.contractUnits b.backend = c.contractUnits b.backend := by
    funext name
    simp only [contractUnits, contract?, contracts]
  rw [units, units, same]

theorem Harness.SameFor.varies {b : String} {h h' : Harness K} (same : h.SameFor b h') :
    h.Varies h' id where
  bindings := same.bindings
  units i := by rw [List.map_id, Catalog.units_of_contracts same.contracts]
  key _ := rfl
  environment := same.environment
  replays := same.replays
  shared := same.shared

/-! ### Another recipe -/

/-- The scenario with another recipe, if it is the one of that name. -/
def Scenario.withRecipe (s : Scenario ρ) (name : String) (recipe : ρ) : Scenario ρ :=
  if s.name = name then { s with recipe } else s

def Contract.withRecipe (k : Contract ρ) (contract scenario : String) (recipe : ρ) : Contract ρ :=
  if k.name = contract then { k with scenarios := k.scenarios.map (·.withRecipe scenario recipe) }
  else k

/-- The catalog in which one scenario of one contract has another recipe. -/
def Catalog.withRecipe (c : Catalog K) (contract scenario : String) (recipe : K.Recipe) : Catalog K :=
  { c with contracts := c.contracts.map (·.withRecipe contract scenario recipe) }

def Harness.withRecipe (h : Harness K) (contract scenario : String) (recipe : K.Recipe) : Harness K :=
  { h with catalog := h.catalog.withRecipe contract scenario recipe }

/-- The unit as it is planned with the other recipe. -/
def TestUnit.withRecipe (u : TestUnit ρ) (contract scenario : String) (recipe : ρ) : TestUnit ρ :=
  if u.key.contract = contract ∧ u.key.scenario = scenario then
    { u with scenario := { u.scenario with recipe } }
  else u

/-- The keys of all units but those of one scenario. -/
def Key.elsewhere (contract scenario : String) (k : Key) : Bool :=
  !(k.contract == contract && k.scenario == scenario)

@[simp] theorem Contract.name_withRecipe (k : Contract ρ) (contract scenario : String) (recipe : ρ) :
    (k.withRecipe contract scenario recipe).name = k.name := by
  unfold withRecipe
  split <;> rfl

@[simp] theorem Contract.required_withRecipe (k : Contract ρ) (contract scenario : String)
    (recipe : ρ) : (k.withRecipe contract scenario recipe).required = k.required := by
  unfold withRecipe
  split <;> rfl

@[simp] theorem TestUnit.key_withRecipe (u : TestUnit ρ) (contract scenario : String) (recipe : ρ) :
    (u.withRecipe contract scenario recipe).key = u.key := by
  unfold withRecipe
  split <;> rfl

theorem TestUnit.withRecipe_of_elsewhere {u : TestUnit ρ} {contract scenario : String}
    (elsewhere : u.key.elsewhere contract scenario = true) (recipe : ρ) :
    u.withRecipe contract scenario recipe = u := by
  unfold withRecipe
  rw [if_neg]
  rintro ⟨same, same'⟩
  simp [Key.elsewhere, same, same'] at elsewhere

namespace Catalog

variable {c : Catalog K} {contract scenario : String} {recipe : K.Recipe}

theorem contract?_withRecipe (c : Catalog K) (contract scenario : String) (recipe : K.Recipe)
    (name : String) :
    (c.withRecipe contract scenario recipe).contract? name =
      (c.contract? name).map (·.withRecipe contract scenario recipe) := by
  simp only [contract?, withRecipe, List.find?_map, Function.comp_def, Contract.name_withRecipe]

theorem contractUnits_withRecipe (c : Catalog K) (contract scenario : String) (recipe : K.Recipe)
    (backend name : String) :
    (c.withRecipe contract scenario recipe).contractUnits backend name =
      (c.contractUnits backend name).map (·.withRecipe contract scenario recipe) := by
  unfold contractUnits
  rw [contract?_withRecipe]
  cases found : c.contract? name with
  | none => rfl
  | some k =>
      have named : k.name = name := by simpa using List.find?_some found
      simp only [Option.map_some, List.map_map]
      by_cases mine : k.name = contract
      · have chosen : (k.withRecipe contract scenario recipe).scenarios =
            k.scenarios.map (·.withRecipe scenario recipe) := by simp [Contract.withRecipe, mine]
        rw [chosen, List.map_map]
        apply List.map_congr_left
        intro s _
        simp only [Function.comp_apply, TestUnit.withRecipe, ← named, mine, true_and,
          Scenario.withRecipe]
        split <;> rfl
      · have other : (k.withRecipe contract scenario recipe).scenarios = k.scenarios := by
          simp [Contract.withRecipe, mine]
        rw [other]
        apply List.map_congr_left
        intro s _
        simp [TestUnit.withRecipe, ← named, mine]

theorem units_withRecipe (c : Catalog K) (contract scenario : String) (recipe : K.Recipe)
    (b : Binding) :
    (c.withRecipe contract scenario recipe).units b =
      (c.units b).map (·.withRecipe contract scenario recipe) := by
  have each : (c.withRecipe contract scenario recipe).contractUnits b.backend =
      fun name => (c.contractUnits b.backend name).map (·.withRecipe contract scenario recipe) := by
    funext name
    exact contractUnits_withRecipe c contract scenario recipe b.backend name
  rw [units, each, units, List.map_flatMap]

/-- A plan does not look at recipes. -/
theorem plan_withRecipe {planned : List (Planned K.Recipe)} (plan : c.plan = .ok planned)
    (contract scenario : String) (recipe : K.Recipe) :
    ∃ planned', (c.withRecipe contract scenario recipe).plan = .ok planned' := by
  have defects : (c.withRecipe contract scenario recipe).defect? = c.defect? := by
    funext b
    have each : (c.withRecipe contract scenario recipe).contractDefect? b.backend =
        c.contractDefect? b.backend := by
      funext name
      unfold contractDefect?
      rw [contract?_withRecipe]
      cases c.contract? name with
      | none => rfl
      | some k => simp only [Option.map_some, Backend.lacks, Contract.required_withRecipe]; rfl
    simp only [defect?, each]
  have keys : (c.withRecipe contract scenario recipe).keys = c.keys := by
    have bindings : (c.withRecipe contract scenario recipe).bindings = c.bindings := rfl
    simp only [Catalog.keys, units_withRecipe, List.map_map, Function.comp_def,
      TestUnit.key_withRecipe, bindings]
  have bindings : (c.withRecipe contract scenario recipe).bindings = c.bindings := rfl
  unfold Catalog.plan at plan ⊢
  rw [defects, keys, bindings]
  cases found : c.bindings.findSome? c.defect? with
  | some f => simp [found] at plan
  | none =>
      cases repeated : firstRepeat [] c.keys with
      | some k => simp [found, repeated] at plan
      | none => exact ⟨_, rfl⟩

end Catalog

theorem Harness.varies_withRecipe (h : Harness K) (contract scenario : String) (recipe : K.Recipe) :
    h.Varies (h.withRecipe contract scenario recipe) (·.withRecipe contract scenario recipe) where
  bindings := rfl
  units := h.catalog.units_withRecipe contract scenario recipe
  key u := u.key_withRecipe contract scenario recipe
  environment := rfl
  replays := rfl
  shared := rfl

/-! ### Failure isolation -/

namespace Harness

/-- Failures stay where they arise. What is reported on the units of one isolated backend does not
depend on what the other backends do; and where all backends are isolated, what is reported on the
units of other scenarios does not depend on the recipe of one. -/
theorem failures_isolated {h : Harness K} {planned : List (Planned K.Recipe)}
    (quiet : h.session.Quiet) (plan : h.catalog.plan = .ok planned) :
    (∀ (b : String) (h' : Harness K) (planned' : List (Planned K.Recipe)), h.SameFor b h' →
      h'.session.Quiet → h'.catalog.plan = .ok planned' →
      (h.launched planned #[]).Isolates h.catalog b →
      (h'.launched planned' #[]).Isolates h'.catalog b →
      h.ReportAlike h' planned planned' (·.backend == b)) ∧
    ∀ (contract scenario : String) (recipe : K.Recipe),
      ∃ planned', (h.withRecipe contract scenario recipe).catalog.plan = .ok planned' ∧
        ((∀ i, (h.launched planned #[]).Isolates h.catalog i) →
          (∀ i, ((h.withRecipe contract scenario recipe).launched planned' #[]).Isolates
            (h.withRecipe contract scenario recipe).catalog i) →
          h.ReportAlike (h.withRecipe contract scenario recipe) planned planned'
            (Key.elsewhere contract scenario)) := by
  constructor
  · intro b h' planned' same quiet' plan' isolates isolates'
    have varies := same.varies
    refine varies.alike quiet quiet' plan plan' (fun _ _ => rfl) ?_ ?_ ?_
    · intro k included
      obtain rfl : k.backend = b := by simpa using included
      exact Session.promise_congr same.backend (varies.decisions_eq plan plan').2.1 same.recalled
    · intro k included
      obtain rfl : k.backend = b := by simpa using included
      exact isolates
    · intro k included
      obtain rfl : k.backend = b := by simpa using included
      exact isolates'
  · intro contract scenario recipe
    obtain ⟨planned', plan'⟩ := Catalog.plan_withRecipe plan contract scenario recipe
    refine ⟨planned', plan', fun isolates isolates' => ?_⟩
    have varies := h.varies_withRecipe contract scenario recipe
    refine varies.alike quiet quiet plan plan'
      (fun u elsewhere => TestUnit.withRecipe_of_elsewhere elsewhere recipe) ?_
      (fun k _ => isolates k.backend) fun k _ => isolates' k.backend
    intro k _
    exact Session.promise_congr rfl (varies.decisions_eq plan plan').2.1 rfl

end Harness

theorem Catalog.uses_withRecipe {c : Catalog K} {contract scenario : String} {recipe r : K.Recipe}
    (used : (c.withRecipe contract scenario recipe).Uses r) : c.Uses r ∨ r = recipe := by
  obtain ⟨k', listed, s', inside, rfl⟩ := used
  obtain ⟨k, member, rfl⟩ := List.mem_map.mp listed
  unfold Contract.withRecipe at inside
  split at inside
  · obtain ⟨s, here, rfl⟩ := List.mem_map.mp inside
    unfold Scenario.withRecipe
    split
    · exact .inr rfl
    · exact .inl ⟨k, member, s, here, rfl⟩
  · exact .inl ⟨k, member, s', inside, rfl⟩

namespace Samples

open PlainText

/-- With pure recipes, a backend that was not asked for is isolated if its constructor always returns
a plain parser, or always raises the same ordinary fault. -/
theorem isolates_plain {h : Harness kit} (unasked : h.session.cache = []) {i : String}
    (constructs : ∀ b, h.catalog.backend? i = some b →
      (∃ level, ∀ s, (b.construct s).result =
          .ok (PlainText.fresh (parser level defaultCharset .plain))) ∨
        ∀ s, (b.construct s).result = .error (.breakdown .runtime "toolchain missing"))
    (pure : ∀ r, h.catalog.Uses r → ∀ source s t, (r.apply source s).1 = (r.apply source t).1)
    (planned : List (Planned Recipe)) : (h.launched planned #[]).Isolates h.catalog i := by
  have unknown (j : String) : (h.launched planned #[]).known j = none := by
    have empty : (h.launched planned #[]).cache = [] := unasked
    simp [Session.known, empty]
  constructor
  case apart =>
    intro j k published
    rw [unknown] at published
    cases published
  case returns =>
    intro b registered _
    rcases constructs b registered with ⟨level, returns⟩ | raises
    · exact .inl ⟨_, returns _⟩
    · exact .inr ⟨_, raises _, rfl⟩
  case unmoved =>
    intro b t registered _ _
    rcases constructs b registered with ⟨level, returns⟩ | raises
    · rw [returns, returns]
    · rw [raises, raises]
  case restarts =>
    intro x promised
    obtain ⟨b, registered, made⟩ := Session.constructed_of_promise (unknown i) promised
    rcases constructs b registered with ⟨level, returns⟩ | raises
    · rw [returns] at made
      cases made
      exact parser_restarts level defaultCharset rfl pure _
    · rw [raises] at made
      cases made

/-- The backend, which can no longer be constructed unless it is `V8`. -/
def sabotage (b : Backend kit) : Backend kit :=
  if b.identity = "V8" then b
  else { b with construct := fun t => ⟨.error (.breakdown .os "no such device"), t, false⟩ }

def sabotaged : Harness kit :=
  { mixed with catalog := { mixed.catalog with backends := mixed.catalog.backends.map sabotage } }

theorem sabotaged_sameFor : mixed.SameFor "V8" sabotaged := by
  have named (b : Backend kit) : (sabotage b).identity = b.identity := by
    unfold sabotage
    split <;> rfl
  have backend : sabotaged.catalog.backend? "V8" = mixed.catalog.backend? "V8" := by
    simp only [Catalog.backend?, sabotaged, List.find?_map, Function.comp_def, named]
    cases found : mixed.catalog.backends.find? (·.identity == "V8") with
    | none => rfl
    | some b =>
        have spared : b.identity = "V8" := by simpa using List.find?_some found
        simp [sabotage, spared]
  exact ⟨rfl, rfl, backend, rfl, rfl, rfl, rfl⟩

theorem sabotaged_plan : ∃ planned, sabotaged.catalog.plan = .ok planned := by
  have planned : sabotaged.catalog.plan.toOption.isSome = true := by decide +kernel
  cases plan : sabotaged.catalog.plan with
  | error f => simp [plan, Except.toOption] at planned
  | ok planned => exact ⟨planned, rfl⟩

theorem exploding_pure (text : String) (source : PlainText.Source) (s t : Tallies) :
    ((Recipe.exploding text).apply source s).1 = ((Recipe.exploding text).apply source t).1 := by
  simp only [Recipe.apply, Recipe.visit]

end Samples

namespace Harness

/-- The sample harness reports the same on `V8` when all its other constructors raise, and the same on
the second scenario when the recipe of the first explodes. -/
theorem failures_isolated_sabotaged :
    ∃ planned, Samples.mixed.catalog.plan = .ok planned ∧
      (∃ planned', Samples.mixed.ReportAlike Samples.sabotaged planned planned' (·.backend == "V8")) ∧
      ∃ planned', Samples.mixed.ReportAlike
        (Samples.mixed.withRecipe "AddImport" "adds-missing-import" (.exploding "boom")) planned planned'
        (Key.elsewhere "AddImport" "adds-missing-import") := by
  have unasked : Samples.mixed.session.cache = [] := Samples.mixed_built.idle.2.1
  have constructs {i : String} (b : Backend PlainText.kit)
      (registered : Samples.mixed.catalog.backend? i = some b) :=
    Samples.mixed_constructs (List.mem_of_find?_eq_some registered)
  have pure (r : PlainText.Recipe) (used : Samples.mixed.catalog.Uses r) := Samples.mixed_pure used
  obtain ⟨planned, plan, _⟩ := Samples.mixed_plan
  have isolates (i : String) := Samples.isolates_plain unasked (i := i) constructs pure planned
  obtain ⟨others, recipes⟩ := failures_isolated Samples.mixed_built.quiet plan
  refine ⟨planned, plan, ?_, ?_⟩
  · obtain ⟨planned', plan'⟩ := Samples.sabotaged_plan
    have same := Samples.sabotaged_sameFor
    refine ⟨planned', others "V8" _ planned' same Samples.mixed_built.quiet plan' (isolates "V8") ?_⟩
    refine Samples.isolates_plain (h := Samples.sabotaged) unasked (fun b registered => ?_) pure
      planned'
    exact constructs b (same.backend.symm.trans registered)
  · obtain ⟨planned', plan', alike⟩ :=
      recipes "AddImport" "adds-missing-import" (.exploding "boom")
    refine ⟨planned', alike isolates fun i => ?_⟩
    refine Samples.isolates_plain
      (h := Samples.mixed.withRecipe "AddImport" "adds-missing-import" (.exploding "boom")) unasked
      constructs (fun r used => ?_) planned'
    rcases Catalog.uses_withRecipe used with old | rfl
    · exact pure r old
    · exact Samples.exploding_pure "boom"

end Harness

end Concord
