import Concord.Proofs.Availability
import Concord.Proofs.Overriding
/-!
Probes that are registered late. The environment of a harness is derived from the one that was given
and the registered probes when it is first asked for, and what the gate learns is remembered there.
Registering a probe drops it, so that the next question derives it anew, from an environment that
has learned nothing. So the answers of the other probes are forgotten as well, but for those that
the given environment had remembered by itself, and such a probe is evaluated again by the next
question, with whatever it says then. Between two registrations of probes nothing is forgotten.
-/

namespace Concord

variable {K : Kit} {σ : Type}

/-! ### Known and unknown resources -/

/-- The answer that the gate makes of one call of a probe. -/
def Probe.verdict (p : Probe σ) (s : σ) : Except Fault Bool :=
  match (p.ask s).1 with
  | .ok b => .ok b
  | .error f => if f.isOrdinary then .ok false else .error f

namespace Environment

/-- A question about the resource is put to the probe, in whatever state. -/
structure Consults (e : Environment σ) (resource : String) (probe : Probe σ) : Prop where
  found : e.probes.lookup resource = some probe
  answer : ∀ s, (e.available resource s).answer = probe.verdict s
  called : ∀ s, e.calls resource s = [(probe.tag, (probe.ask s).1)]

theorem known?_eq_none_iff {e : Environment σ} {r : String} :
    e.known? r = none ↔
      r ∉ e.resources ∧ (∃ probe, e.probes.lookup r = some probe) ∧ e.memo.lookup r = none := by
  unfold known?
  by_cases declared : r ∈ e.resources
  · simp [declared]
  · cases found : e.probes.lookup r <;> simp [declared]

theorem consults_of_unknown {e : Environment σ} {r : String} (unknown : e.known? r = none) :
    ∃ probe, e.Consults r probe := by
  obtain ⟨undeclared, ⟨probe, found⟩, forgotten⟩ := known?_eq_none_iff.mp unknown
  refine ⟨probe, found, fun s => ?_, fun s => ?_⟩
  · simp only [available, undeclared, if_false, found, forgotten, Probe.verdict]
    rcases probe.ask s with ⟨f | b, s'⟩
    · cases ordinary : f.isOrdinary <;> simp [ordinary]
    · rfl
  · have unknown' : e.traced.known? r = none := (e.known?_traced r).trans unknown
    rcases e.traced.available_cases r (s, []) with ⟨v, known, _⟩ | ⟨_, _, probe', found', asked, _⟩
    · rw [unknown'] at known
      cases known
    · have same : probe' = probe.traced := by
        simpa [traced, lookup_traced, found] using found'.symm
      rw [calls, asked, same]
      rfl

/-- What an environment knows about a resource, and which probe it has for it, is all that a
question about it depends on. -/
theorem available_congr {e e' : Environment σ} {r : String} (known : e'.known? r = e.known? r)
    (probe : e'.probes.lookup r = e.probes.lookup r) (s : σ) :
    (e'.available r s).answer = (e.available r s).answer ∧ e'.calls r s = e.calls r s := by
  cases settled : e.known? r with
  | some v =>
      rw [settled] at known
      rw [available_of_known known, available_of_known settled, calls_of_known known,
        calls_of_known settled]
      exact ⟨rfl, rfl⟩
  | none =>
      rw [settled] at known
      obtain ⟨p, consults⟩ := consults_of_unknown settled
      obtain ⟨p', consults'⟩ := consults_of_unknown known
      obtain rfl : p' = p :=
        Option.some.inj (consults'.found.symm.trans (probe.trans consults.found))
      rw [consults.answer, consults'.answer, consults.called, consults'.called]
      exact ⟨rfl, rfl⟩

theorem calls_eq_nil_iff {e : Environment σ} {r : String} {s : σ} :
    e.calls r s = [] ↔ ∃ v, e.known? r = some v := by
  cases known : e.known? r with
  | some v => simp [calls_of_known known]
  | none =>
      obtain ⟨probe, consults⟩ := consults_of_unknown known
      simp [consults.called]

/-- A probe for another resource changes neither what is known about this one nor its probe. -/
theorem known?_override_of_ne (e : Environment σ) {r other : String} (different : other ≠ r)
    (p : Probe σ) :
    (e.override { probes := [(r, p)] }).known? other = e.known? other ∧
      (e.override { probes := [(r, p)] }).probes.lookup other = e.probes.lookup other := by
  have untouched : ([(r, p)] : List (String × Probe σ)).lookup other = none := by
    simp [List.lookup_cons, beq_false_of_ne different]
  have probes := e.lookup_probes_override (o := { probes := [(r, p)] }) untouched
  refine ⟨?_, probes⟩
  have resources : (e.override { probes := [(r, p)] }).resources = e.resources :=
    NameSet.union_empty _
  unfold known?
  rw [resources, probes, lookup_memo_override, untouched]
  rfl

end Environment

/-! ### Histories -/

theorem Operation.run_or_other (op : Operation K) :
    (∃ workers deadline, op = .consume (.run workers deadline)) ∨
      ∀ workers deadline, op ≠ .consume (.run workers deadline) := by
  cases op with
  | consume c =>
      cases c with
      | run workers deadline => exact .inl ⟨workers, deadline, rfl⟩
      | _ => exact .inr fun _ _ same => by cases same
  | _ => exact .inr fun _ _ same => by cases same

/-- What happens to a harness: something is registered, or something is asked of it. -/
inductive Event (K : Kit)
  | register (r : Registration K)
  | operate (op : Operation K)

/-- The resource that a probe is registered for. -/
def Event.probed? : Event K → Option String
  | .register (.probe resource _) => some resource
  | _ => none

namespace Harness

def undergo (h : Harness K) : Event K → Harness K
  | .register r => (h.attempt r).2
  | .operate op => h.operate op

def undergone (h : Harness K) (events : List (Event K)) : Harness K := events.foldl undergo h

/-- A registration touches the catalog and the session, or else it is that of a probe. -/
theorem undergo_register (h : Harness K) (r : Registration K) :
    ((Event.register r).probed? = none ∧ ∃ catalog session,
        h.undergo (.register r) = { h with catalog, session }) ∨
      ∃ resource p, r = .probe resource p ∧
        h.undergo (.register r) =
          { h with probes := setEntry resource p h.probes, derived := none } := by
  cases ok : h.register r with
  | error f =>
      have unprobed : (Event.register r).probed? = none := by
        cases r with
        | probe resource p => cases ok
        | _ => rfl
      exact .inl ⟨unprobed, h.catalog, h.session, by rw [undergo, register_eq_error_iff.mp ok]⟩
  | ok h' =>
      simp only [undergo, register_eq_ok_iff.mp ok]
      obtain ⟨nothing, same⟩ | probed := gate_of_register ok
      · refine .inl ⟨?_, _, _, same⟩
        cases r with
        | probe resource p => cases nothing
        | _ => rfl
      · exact .inr probed

/-- What the environment is derived from is the same, and runs are named in the same way. -/
structure Abides (h h' : Harness K) : Prop where
  base : h'.base = h.base
  probes : h'.probes = h.probes
  runName : h'.runName = h.runName

/-- Besides, no run was counted. -/
structure Stays (h h' : Harness K) : Prop extends h.Abides h' where
  runs : h'.runs = h.runs

namespace Stays

variable {h h₁ h₂ h₃ : Harness K}

theorem refl (h : Harness K) : h.Stays h := ⟨⟨rfl, rfl, rfl⟩, rfl⟩

theorem trans (first : h₁.Stays h₂) (next : h₂.Stays h₃) : h₁.Stays h₃ :=
  ⟨⟨next.base.trans first.base, next.probes.trans first.probes, next.runName.trans first.runName⟩,
    next.runs.trans first.runs⟩

theorem write (h : Harness K) (rs : List Record) : h.Stays (h.write rs) := ⟨⟨rfl, rfl, rfl⟩, rfl⟩

theorem plan (h : Harness K) : h.Stays h.plan.2 := by
  unfold Harness.plan
  split <;> exact ⟨⟨rfl, rfl, rfl⟩, rfl⟩

theorem decide (h : Harness K) (planned : List (Planned K.Recipe)) :
    h.Stays (h.decide planned).2 := by
  unfold Harness.decide
  dsimp only
  split <;> exact ⟨⟨rfl, rfl, rfl⟩, rfl⟩

theorem lines (h : Harness K) (planned : List (Planned K.Recipe)) :
    h.Stays (CommandLine.lines h planned).2 := by
  induction planned generalizing h with
  | nil => exact .refl h
  | cons p planned ih =>
      have asked : h.Stays (h.admits p.binding).2 := ⟨⟨rfl, rfl, rfl⟩, rfl⟩
      unfold CommandLine.lines
      split
      · rename_i f h' raised
        rw [raised] at asked
        exact asked
      · rename_i runs h' answered
        rw [answered] at asked
        exact asked.trans (ih h')

theorem listing (h : Harness K) : h.Stays (Consumer.listing.pairs h).2 := by
  cases plan : h.catalog.plan with
  | error f =>
      simp only [Consumer.pairs, plan_of_error plan]
      exact .refl h
  | ok planned =>
      simp only [Consumer.pairs, plan_of_ok plan]
      exact (write h _).trans (lines _ planned)

theorem collection (h : Harness K) : h.Stays (Consumer.collection.pairs h).2 := by
  cases plan : h.catalog.plan with
  | error f =>
      simp only [Consumer.pairs, TestSession.planUnits, plan_of_error plan]
      exact .refl h
  | ok planned =>
      simp only [Consumer.pairs, TestSession.planUnits, plan_of_ok plan]
      exact (write h _).trans (decide _ planned)

theorem operate (h : Harness K) {op : Operation K}
    (other : ∀ workers deadline, op ≠ .consume (.run workers deadline)) :
    h.Stays (h.operate op) := by
  cases op with
  | plan => exact plan h
  | consume c =>
      cases c with
      | listing => exact listing h
      | collection => exact collection h
      | run workers deadline => exact absurd rfl (other workers deadline)
  | _ => exact ⟨⟨rfl, rfl, rfl⟩, rfl⟩

end Stays

/-- What a run with a worker and a plan leaves: some session, what the gate has learned on the way, and
one name that is used up. -/
theorem run_leaves {h : Harness K} {planned : List (Planned K.Recipe)} {workers : Int}
    (deadline : Option Text.Seconds) (positive : 1 ≤ workers)
    (plan : h.catalog.plan = .ok planned) :
    ∃ session, (h.run workers deadline).2 =
      { h with
        session
        derived := some (h.decisions planned).environment
        runs := h.runs + 1 } := by
  have enough : ¬ workers < 1 := by omega
  simp only [Harness.run, enough, if_false, plan_settled plan]
  rw [decide_eq_decisions (h := h)]
  · cases (h.decisions planned).interrupt <;> exact ⟨_, rfl⟩
  · rfl
  · rfl

namespace Abides

variable {h h' : Harness K}

theorem anew (abides : h.Abides h') : h'.anew = h.anew := by
  rw [Harness.anew, Harness.anew, abides.base, abides.probes]

theorem run (h : Harness K) (workers : Int) (deadline : Option Text.Seconds) :
    h.Abides (h.run workers deadline).2 := by
  by_cases few : workers < 1
  · rw [run_without_worker few]
    exact ⟨rfl, rfl, rfl⟩
  · have positive : 1 ≤ workers := by omega
    cases plan : h.catalog.plan with
    | error f =>
        rw [run_of_defect deadline positive plan]
        exact ⟨rfl, rfl, rfl⟩
    | ok planned =>
        obtain ⟨_, left⟩ := run_leaves deadline positive plan
        rw [left]
        exact ⟨rfl, rfl, rfl⟩

theorem operate (h : Harness K) (op : Operation K) : h.Abides (h.operate op) := by
  rcases op.run_or_other with ⟨workers, deadline, rfl⟩ | other
  · exact run h workers deadline
  · exact (Stays.operate h other).toAbides

end Abides

theorem base_undergo (h : Harness K) (ev : Event K) : (h.undergo ev).base = h.base := by
  cases ev with
  | operate op => exact (Abides.operate h op).base
  | register r => obtain ⟨_, _, _, same⟩ | ⟨_, _, _, same⟩ := h.undergo_register r <;> rw [same]

theorem base_undergone (h : Harness K) (events : List (Event K)) :
    (h.undergone events).base = h.base := by
  induction events generalizing h with
  | nil => rfl
  | cons ev events ih => exact (ih (h.undergo ev)).trans (h.base_undergo ev)

/-- The environment is the one that would be derived anew, but that it may have learned more. -/
structure Coherent (h : Harness K) : Prop where
  distinct : (h.probes.map (·.1)).Nodup
  continues : h.anew.Continues h.environment

namespace Coherent

variable {h : Harness K}

theorem start (shared : K.Shared) (base : Environment K.Shared) (replays : Nat)
    (runName : Nat → String) (headStart : Nat → Nat) :
    (Harness.start shared base replays runName headStart).Coherent :=
  ⟨distinct_nil, .refl _⟩

theorem operate (coherent : h.Coherent) (op : Operation K) : (h.operate op).Coherent := by
  have abides := Abides.operate h op
  refine ⟨abides.probes ▸ coherent.distinct, ?_⟩
  rw [abides.anew]
  exact coherent.continues.trans (h.operate_keeps op).environment

theorem undergo (coherent : h.Coherent) (ev : Event K) : (h.undergo ev).Coherent := by
  cases ev with
  | operate op => exact coherent.operate op
  | register r =>
      obtain ⟨_, _, _, same⟩ | ⟨resource, p, _, same⟩ := h.undergo_register r <;> rw [same]
      · exact ⟨coherent.distinct, coherent.continues⟩
      · exact ⟨distinct_setEntry resource p coherent.distinct, .refl _⟩

theorem undergone (coherent : h.Coherent) (events : List (Event K)) :
    (h.undergone events).Coherent := by
  induction events generalizing h with
  | nil => exact coherent
  | cons ev events ih => exact ih (coherent.undergo ev)

end Coherent

/-! ### What is forgotten -/

/-- An answer that was learned since the environment was derived, and is nowhere else. -/
structure Fleeting (h : Harness K) (resource : String) (v : Bool) : Prop where
  known : h.environment.known? resource = some v
  unlearned : h.anew.known? resource = none

/-- A fleeting answer is one that a probe gave, either a registered one, or one of the given
environment that had not been asked before. -/
theorem Coherent.fleeting_iff {h : Harness K} (coherent : h.Coherent) {resource : String}
    {v : Bool} :
    h.Fleeting resource v ↔
      h.environment.memo.lookup resource = some v ∧ resource ∉ h.base.resources ∧
        (∃ probe, h.environment.probes.lookup resource = some probe) ∧
        ((∃ p, h.probes.lookup resource = some p) ∨ h.base.memo.lookup resource = none) := by
  have resources : h.anew.resources = h.base.resources := NameSet.union_empty _
  have memo : h.anew.memo.lookup resource = none ↔
      (∃ p, h.probes.lookup resource = some p) ∨ h.base.memo.lookup resource = none := by
    rw [anew, Environment.lookup_memo_override]
    cases h.probes.lookup resource <;> simp
  have unlearned := Environment.known?_eq_none_iff (e := h.anew) (r := resource)
  rw [resources, memo, ← coherent.continues.probes] at unlearned
  constructor
  · rintro ⟨known, none⟩
    obtain ⟨undeclared, ⟨probe, found⟩, learned⟩ := unlearned.mp none
    refine ⟨?_, undeclared, ⟨probe, found⟩, learned⟩
    rw [← resources, ← coherent.continues.resources] at undeclared
    simpa [Environment.known?, undeclared, found] using known
  · rintro ⟨remembered, undeclared, ⟨probe, found⟩, learned⟩
    refine ⟨?_, unlearned.mpr ⟨undeclared, ⟨probe, found⟩, learned⟩⟩
    rw [← resources, ← coherent.continues.resources] at undeclared
    simpa [Environment.known?, undeclared, found] using remembered

/-- The question after a registration derives the environment anew. -/
theorem Coherent.environment_of_probe {h : Harness K} (coherent : h.Coherent) (r : String)
    (p : Probe K.Shared) :
    (h.undergo (.register (.probe r p))).environment = h.anew.override { probes := [(r, p)] } :=
  h.base.override_setEntry coherent.distinct r p

/-- What is known of another resource after a probe was registered is what the environment derived
anew knows. -/
theorem Coherent.known?_of_probe {h : Harness K} (coherent : h.Coherent) {r other : String}
    (different : other ≠ r) (p : Probe K.Shared) :
    (h.undergo (.register (.probe r p))).environment.known? other = h.anew.known? other ∧
      (h.undergo (.register (.probe r p))).environment.probes.lookup other =
        h.environment.probes.lookup other := by
  rw [coherent.environment_of_probe, coherent.continues.probes]
  exact h.anew.known?_override_of_ne different p

/-- What becomes of the gate's answer about a resource: an answer that is known is asked for again
just if it was fleeting, and then it is whatever the probe says now. Nothing else changes. -/
structure Reopens (h h' : Harness K) (resource : String) : Prop where
  again_iff : ∀ v, h.environment.known? resource = some v → ∀ s,
    h'.environment.calls resource s ≠ [] ↔ h.Fleeting resource v
  consulted : ∀ v, h.Fleeting resource v → ∃ probe,
    h.environment.probes.lookup resource = some probe ∧ h'.environment.Consults resource probe
  steady : (∀ v, ¬ h.Fleeting resource v) → ∀ s,
    (h'.environment.available resource s).answer = (h.environment.available resource s).answer ∧
      h'.environment.calls resource s = h.environment.calls resource s

theorem Coherent.reopens {h : Harness K} (coherent : h.Coherent) {r other : String}
    (different : other ≠ r) (p : Probe K.Shared) :
    h.Reopens (h.undergo (.register (.probe r p))) other := by
  -- The next question is put to the environment derived anew, of which the one at hand is a later
  -- state; so what they know differs just where the one at hand has learned something.
  obtain ⟨known', found'⟩ := coherent.known?_of_probe different p
  constructor
  · intro v known s
    rw [ne_eq, Environment.calls_eq_nil_iff, known']
    constructor
    · intro unknown
      exact ⟨known, by simpa [Option.eq_none_iff_forall_ne_some] using unknown⟩
    · rintro ⟨_, unlearned⟩
      simp [unlearned]
  · rintro v ⟨_, unlearned⟩
    obtain ⟨probe, consults⟩ := Environment.consults_of_unknown (known'.trans unlearned)
    exact ⟨probe, found'.symm.trans consults.found, consults⟩
  · intro kept s
    refine Environment.available_congr (known'.trans ?_) found' s
    cases known : h.anew.known? other with
    | some v => exact (coherent.continues.known? known).symm
    | none =>
        cases learned : h.environment.known? other with
        | none => rfl
        | some v => exact absurd ⟨learned, known⟩ (kept v)

/-- The policy, asked about a binding. -/
theorem admits_eq (h : Harness K) (b : Binding) :
    (h.admits b).1 = if b.debugOnly && !h.environment.includeDebugOnly then
      (h.environment.available b.resourceName h.session.shared).answer else .ok true := by
  have decided := (h.environment.admitsBinding_eq b h.session.shared).1
  rw [Harness.admits, decided]
  unfold Environment.admits
  split <;> rfl

/-- The decision on a binding that needs another resource changes just if it hangs on a fleeting
answer of which the probe has changed its mind. -/
theorem Coherent.admits_changed_iff {h : Harness K} (coherent : h.Coherent) {r : String}
    (p : Probe K.Shared) {b : Binding} (different : b.resourceName ≠ r) :
    ((h.undergo (.register (.probe r p))).admits b).1 ≠ (h.admits b).1 ↔
      (b.debugOnly && !h.environment.includeDebugOnly) = true ∧
        ∃ v probe, h.Fleeting b.resourceName v ∧
          h.environment.probes.lookup b.resourceName = some probe ∧
          probe.verdict h.session.shared ≠ .ok v := by
  have reopens := coherent.reopens different p
  have optedIn : (h.undergo (.register (.probe r p))).environment.includeDebugOnly =
      h.environment.includeDebugOnly := by
    rw [coherent.environment_of_probe, coherent.continues.optedIn]
    rfl
  have session : (h.undergo (.register (.probe r p))).session = h.session := rfl
  rw [admits_eq, admits_eq, optedIn, session]
  by_cases gated : (b.debugOnly && !h.environment.includeDebugOnly) = true
  · simp only [gated, if_true, true_and]
    -- Only a lost answer is asked for again, and then the probe decides.
    by_cases lost : ∃ v, h.Fleeting b.resourceName v
    · obtain ⟨v, fleeting⟩ := lost
      obtain ⟨probe, found, consults⟩ := reopens.consulted v fleeting
      rw [consults.answer, Environment.available_of_known fleeting.known]
      constructor
      · intro changed
        exact ⟨v, probe, fleeting, found, changed⟩
      · rintro ⟨v', probe', fleeting', found', changed⟩
        obtain rfl := Option.some.inj (fleeting.known.symm.trans fleeting'.known)
        obtain rfl := Option.some.inj (found.symm.trans found')
        exact changed
    · rw [(reopens.steady (not_exists.mp lost) _).1]
      constructor
      · intro changed
        exact absurd rfl changed
      · rintro ⟨v, _, fleeting, _⟩
        exact absurd ⟨v, fleeting⟩ lost
  · simp [gated]

/-! ### What lasts -/

/-- Nothing but the registration of a probe makes the gate forget. -/
theorem continues_undergo (h : Harness K) {ev : Event K} (unprobed : ev.probed? = none) :
    h.environment.Continues (h.undergo ev).environment := by
  cases ev with
  | operate op => exact (h.operate_keeps op).environment
  | register r =>
      obtain ⟨_, _, _, same⟩ | ⟨_, _, rfl, _⟩ := h.undergo_register r
      · rw [same]
        exact .refl _
      · cases unprobed

theorem continues_undergone (h : Harness K) {events : List (Event K)}
    (unprobed : ∀ ev ∈ events, ev.probed? = none) :
    h.environment.Continues (h.undergone events).environment := by
  induction events generalizing h with
  | nil => exact .refl _
  | cons ev events ih =>
      exact (h.continues_undergo (unprobed ev List.mem_cons_self)).trans
        (ih (h.undergo ev) fun later member => unprobed later (List.mem_cons_of_mem _ member))

theorem Coherent.anew_undergo {h : Harness K} (coherent : h.Coherent) {ev : Event K}
    {other : String} (unprobed : ev.probed? ≠ some other) :
    (h.undergo ev).anew.known? other = h.anew.known? other := by
  cases ev with
  | operate op =>
      have abides : h.Abides (h.undergo (.operate op)) := Abides.operate h op
      rw [abides.anew]
  | register r =>
      obtain ⟨_, _, _, same⟩ | ⟨resource, p, rfl, same⟩ := h.undergo_register r
      · rw [same]
        rfl
      · have different : other ≠ resource := fun same => unprobed (congrArg some same.symm)
        have overridden := h.base.override_setEntry coherent.distinct resource p
        rw [same, anew, overridden]
        exact (h.anew.known?_override_of_ne different p).1

/-- What the environment derived anew knows is known for good, until the resource gets another
probe. -/
theorem Coherent.known?_undergone {h : Harness K} (coherent : h.Coherent) {events : List (Event K)}
    {other : String} {v : Bool} (known : h.anew.known? other = some v)
    (unprobed : ∀ ev ∈ events, ev.probed? ≠ some other) :
    (h.undergone events).environment.known? other = some v := by
  induction events generalizing h with
  | nil => exact coherent.continues.known? known
  | cons ev events ih =>
      refine ih (coherent.undergo ev) ?_ fun later member =>
        unprobed later (List.mem_cons_of_mem _ member)
      rw [coherent.anew_undergo (unprobed ev List.mem_cons_self), known]

/-- What the registration of a probe does to the gate, at any point of the history of a harness. Of
another resource the gate forgets what it has learned since the environment was derived, so that a
probe that was evaluated is evaluated again by the next question, and the decision on a binding that
hangs on it changes just if the probe now says something else. Everything else stays, and what the
given environment knows by itself is never asked for again; between two registrations of probes
nothing is. -/
theorem probe_registration (shared : K.Shared) (base : Environment K.Shared) (replays : Nat)
    (runName : Nat → String) (headStart : Nat → Nat) (before : List (Event K)) (r : String)
    (p : Probe K.Shared) :
    let h := (start shared base replays runName headStart).undergone before
    let h' := h.undergo (.register (.probe r p))
    (∀ other, other ≠ r → h.Reopens h' other) ∧
      (∀ b : Binding, b.resourceName ≠ r →
        ((h'.admits b).1 ≠ (h.admits b).1 ↔
          (b.debugOnly && !h.environment.includeDebugOnly) = true ∧
            ∃ v probe, h.Fleeting b.resourceName v ∧
              h.environment.probes.lookup b.resourceName = some probe ∧
              probe.verdict h.session.shared ≠ .ok v)) ∧
      (∀ other v, h.Fleeting other v ↔
        h.environment.memo.lookup other = some v ∧ other ∉ base.resources ∧
          (∃ probe, h.environment.probes.lookup other = some probe) ∧
          ((∃ p, h.probes.lookup other = some p) ∨ base.memo.lookup other = none)) ∧
      ∀ other v after,
        (h.anew.known? other = some v → other ≠ r → (∀ ev ∈ after, ev.probed? ≠ some other) →
          (h'.undergone after).environment.known? other = some v) ∧
        (h'.environment.known? other = some v → (∀ ev ∈ after, ev.probed? = none) →
          (h'.undergone after).environment.known? other = some v) := by
  intro h h'
  have coherent : h.Coherent := (Coherent.start shared base replays runName headStart).undergone before
  have given : h.base = base := base_undergone _ before
  refine ⟨fun other different => coherent.reopens different p,
    fun b different => coherent.admits_changed_iff p different, fun other v => ?_,
    fun other v after => ⟨fun known different unprobed => ?_, fun known unprobed => ?_⟩⟩
  · rw [coherent.fleeting_iff, given]
  · have elsewhere : (Event.register (.probe r p) : Event K).probed? ≠ some other := fun same =>
      different (Option.some.inj same).symm
    have kept : h'.anew.known? other = some v := (coherent.anew_undergo elsewhere).trans known
    exact (coherent.undergo _).known?_undergone kept unprobed
  · exact (h'.continues_undergone unprobed).known? known

end Harness

namespace Samples

open PlainText

def needsFickle : Binding := ⟨"V8", ["AddImport"], true, some "fickle"⟩

/-- The gate has decided on a binding that hangs on a probe that changes its mind. -/
def decidedOnce : Harness kit :=
  (Harness.start (K := kit) {} (.make false [] []) defaultReplays (numberedRun "run")).undergone
    (fickleRegistrations.map .register ++ [.operate (.admits needsFickle)])

def needless : Probe kit.Shared := (Answering.always (.bool true)).probe 9

end Samples

/-- The probe has said yes. Another probe is registered, and the first one is evaluated a second
time and says no: the binding is rejected from then on. -/
theorem Harness.probe_registration_fickle :
    let h := Samples.decidedOnce
    let h' := h.undergo (.register (.probe "gpu" Samples.needless))
    h.Fleeting "fickle" true ∧ (∀ s, h'.environment.calls "fickle" s ≠ []) ∧
      (h.admits Samples.needsFickle).1 = .ok true ∧ (h'.admits Samples.needsFickle).1 = .ok false ∧
      ∃ v probe, h.Fleeting "fickle" v ∧ h.environment.probes.lookup "fickle" = some probe ∧
        probe.verdict h.session.shared ≠ .ok v := by
  intro h h'
  obtain ⟨reopens, changed, _⟩ := probe_registration (K := PlainText.kit) {} (.make false [] [])
    defaultReplays (numberedRun "run") (fun _ => 1)
    (Samples.fickleRegistrations.map .register ++ [.operate (.admits Samples.needsFickle)]) "gpu"
    Samples.needless
  have fleeting : h.Fleeting "fickle" true := ⟨by rfl, by rfl⟩
  have before : (h.admits Samples.needsFickle).1 = .ok true := by rfl
  have after : (h'.admits Samples.needsFickle).1 = .ok false := by rfl
  have differ : (h'.admits Samples.needsFickle).1 ≠ (h.admits Samples.needsFickle).1 := by
    rw [before, after]
    simp
  have again := (reopens "fickle" (by decide)).again_iff true fleeting.known
  exact ⟨fleeting, fun s => (again s).mpr fleeting, before, after,
    ((changed Samples.needsFickle (by decide)).mp differ).2⟩

end Concord
