import Concord.Proofs.Consumers
import Mathlib.Data.List.Nodup
/-!
Availability in families of environments. Environments are constructed, derived from one another and
asked about resources, in any order. Each of them remembers what its probes have said, and one that is
derived takes over what was remembered, except for probes that it replaces. So an environment gives one
answer about a resource however often it is asked, with at most one call of a probe, and nothing that is
done with one environment is noticed by another.
-/

namespace Concord

variable {σ : Type}

/-! ### One question -/

/-- What the outcome of a probe counts as: one that raised has said no. -/
def countsAs : Except Fault Bool → Bool
  | .ok b => b
  | .error _ => false

/-- The same probe, which also leaves its tag and its outcome behind whenever it is called. -/
def Probe.traced (p : Probe σ) : Probe (σ × List (Nat × Except Fault Bool)) :=
  ⟨p.tag, fun s => ((p.ask s.1).1, (p.ask s.1).2, s.2 ++ [(p.tag, (p.ask s.1).1)])⟩

namespace Environment

/-- The same environment with traced probes. -/
def traced (e : Environment σ) : Environment (σ × List (Nat × Except Fault Bool)) where
  includeDebugOnly := e.includeDebugOnly
  resources := e.resources
  probes := e.probes.map fun p => (p.1, p.2.traced)
  memo := e.memo

/-- The calls of probes, by tag and outcome, that a question about a resource leads to. -/
def calls (e : Environment σ) (resource : String) (s : σ) : List (Nat × Except Fault Bool) :=
  (e.traced.available resource (s, [])).shared.2

theorem available_of_known {e : Environment σ} {r : String} {v : Bool} (known : e.known? r = some v)
    (s : σ) : e.available r s = ⟨.ok v, e, s, []⟩ := by
  rcases e.available_cases r s with ⟨w, known', same⟩ | ⟨unknown, _⟩
  · rw [same, Option.some.inj (known.symm.trans known')]
  · rw [unknown] at known
    cases known

/-- What is not known is asked of the probe, and its answer is remembered. -/
theorem available_of_unknown {e : Environment σ} {r : String} (unknown : e.known? r = none) :
    ∃ probe, e.probes.lookup r = some probe ∧ r ∉ e.resources ∧
      ∀ s, Contained (probe.ask s).1 →
        (e.available r s).answer = .ok (countsAs (probe.ask s).1) ∧
        (e.available r s).environment =
          { e with memo := (r, countsAs (probe.ask s).1) :: e.memo } ∧
        (e.available r s).shared = (probe.ask s).2 := by
  unfold known? at unknown
  split at unknown
  · cases unknown
  · rename_i undeclared
    cases found : e.probes.lookup r with
    | none => simp [found] at unknown
    | some probe =>
        have forgotten : e.memo.lookup r = none := by simpa [found] using unknown
        refine ⟨probe, rfl, undeclared, fun s contained => ?_⟩
        unfold available
        simp only [undeclared, if_false, found, forgotten]
        rcases asked : probe.ask s with ⟨f | b, s'⟩
        · have ordinary : f.isOrdinary = true := contained f (by rw [asked])
          simp only [ordinary, if_true, countsAs]
          exact ⟨trivial, trivial, trivial⟩
        · exact ⟨rfl, rfl, rfl⟩

theorem contained_of_lookup {e : Environment σ} (contained : e.ProbesContained) {r : String}
    {probe : Probe σ} (found : e.probes.lookup r = some probe) (s : σ) : Contained (probe.ask s).1 := by
  obtain ⟨before, after, split, _⟩ := List.lookup_eq_some_iff.mp found
  exact contained (r, probe) (by simp [split]) s

theorem lookup_traced (probes : List (String × Probe σ)) (r : String) :
    (probes.map fun p => (p.1, p.2.traced)).lookup r = (probes.lookup r).map Probe.traced := by
  induction probes with
  | nil => rfl
  | cons p probes ih =>
      obtain ⟨n, probe⟩ := p
      by_cases h : r = n
      · simp [h]
      · simpa [List.lookup_cons, beq_false_of_ne h] using ih

theorem known?_traced (e : Environment σ) (r : String) : e.traced.known? r = e.known? r := by
  simp only [known?, traced, lookup_traced, Option.isNone_map]

/-- Tracing changes neither the answers nor what is left behind otherwise, and each call is noted
behind those before it. -/
theorem available_traced (e : Environment σ) (r : String) (s : σ) (l : List (Nat × Except Fault Bool)) :
    (e.traced.available r (s, l)).answer = (e.available r s).answer ∧
      (e.traced.available r (s, l)).environment = (e.available r s).environment.traced ∧
      (e.traced.available r (s, l)).shared = ((e.available r s).shared, l ++ e.calls r s) := by
  unfold calls available
  simp only [traced, lookup_traced]
  split
  · exact ⟨rfl, rfl, by simp⟩
  · cases e.probes.lookup r with
    | none => exact ⟨rfl, rfl, by simp⟩
    | some probe =>
        cases e.memo.lookup r with
        | some known => exact ⟨rfl, rfl, by simp⟩
        | none =>
            simp only [Option.map_some, Probe.traced]
            rcases probe.ask s with ⟨f | b, s'⟩
            · cases ordinary : f.isOrdinary <;> simp [ordinary]
            · exact ⟨rfl, rfl, by simp⟩

theorem calls_of_known {e : Environment σ} {r : String} {v : Bool} (known : e.known? r = some v)
    (s : σ) : e.calls r s = [] := by
  rw [calls, available_of_known ((e.known?_traced r).trans known)]

/-- A question for which a probe is called, and its answer remembered. -/
structure Inquires (e : Environment σ) (r : String) (s : σ) (probe : Probe σ) : Prop where
  found : e.probes.lookup r = some probe
  undeclared : r ∉ e.resources
  answer : (e.available r s).answer = .ok (countsAs (probe.ask s).1)
  noted : (e.available r s).environment =
    { e with memo := (r, countsAs (probe.ask s).1) :: e.memo }
  called : e.calls r s = [(probe.tag, (probe.ask s).1)]

theorem inquires_of_unknown {e : Environment σ} (contained : e.ProbesContained) {r : String}
    (unknown : e.known? r = none) (s : σ) : ∃ probe, e.Inquires r s probe := by
  obtain ⟨probe, found, undeclared, asked⟩ := available_of_unknown unknown
  obtain ⟨probe', found', _, asked'⟩ := available_of_unknown ((e.known?_traced r).trans unknown)
  have same : probe' = probe.traced := by
    simpa [traced, lookup_traced, found] using found'.symm
  subst same
  have calm := contained_of_lookup contained found s
  obtain ⟨answer, noted, _⟩ := asked s calm
  refine ⟨probe, found, undeclared, answer, noted, ?_⟩
  rw [calls, (asked' (s, []) calm).2.2]
  rfl

/-- What a probe was called for is known from then on. -/
theorem Inquires.known {e : Environment σ} {r : String} {s : σ} {probe : Probe σ}
    (inquires : e.Inquires r s probe) :
    (e.available r s).environment.known? r = some (countsAs (probe.ask s).1) := by
  rw [inquires.noted]
  simp [known?, inquires.undeclared, inquires.found]

end Environment

/-! ### What is remembered -/

/-- A question, its answer, and the calls of probes that it led to. -/
structure Asked where
  member : Nat
  resource : String
  answer : Except Fault Bool
  calls : List (Nat × Except Fault Bool)

/-- The probe with the tag was called for the resource, and what came of it counts as `v`. -/
def Said (log : List Asked) (resource : String) (tag : Nat) (v : Bool) : Prop :=
  ∃ x ∈ log, x.resource = resource ∧ ∃ outcome, (tag, outcome) ∈ x.calls ∧ countsAs outcome = v

theorem Said.mono {log log' : List Asked} (more : log ⊆ log') {r : String} {tag : Nat} {v : Bool}
    (said : Said log r tag v) : Said log' r tag v := by
  obtain ⟨x, member, rest⟩ := said
  exact ⟨x, more member, rest⟩

namespace Environment

/-- Everything that is remembered was said by the probe that stands there, and the probes are
contained. -/
structure Proper (log : List Asked) (e : Environment σ) : Prop where
  vouched : ∀ r v, e.memo.lookup r = some v →
    ∃ probe, e.probes.lookup r = some probe ∧ Said log r probe.tag v
  contained : e.ProbesContained

theorem Proper.mono {log log' : List Asked} (more : log ⊆ log') {e : Environment σ}
    (proper : e.Proper log) : e.Proper log' := by
  refine ⟨fun r v remembered => ?_, proper.contained⟩
  obtain ⟨probe, found, said⟩ := proper.vouched r v remembered
  exact ⟨probe, found, said.mono more⟩

theorem Proper.make {log : List Asked} {optedIn : Bool} {resources : List String}
    {probes : List (String × Probe σ)} (contained : ∀ p ∈ probes, ∀ s, Contained (p.2.ask s).1) :
    (make optedIn resources probes).Proper log := by
  constructor
  · intro r v impossible
    cases impossible
  · intro p member
    rcases mem_overlay member with impossible | new
    · cases impossible
    · exact contained p new

theorem lookup_memo_override (e : Environment σ) (o : Override σ) (r : String) :
    (e.override o).memo.lookup r = if (o.probes.lookup r).isNone then e.memo.lookup r else none := by
  unfold override
  dsimp only
  induction e.memo with
  | nil => simp
  | cons m memo ih =>
      obtain ⟨n, v⟩ := m
      by_cases h : r = n
      · subst h
        by_cases kept : (o.probes.lookup r).isNone = true
        · simp [kept]
        · simpa [List.filter_cons, kept] using ih
      · by_cases kept : (o.probes.lookup n).isNone = true
        · simpa [List.filter_cons, kept, List.lookup_cons, beq_false_of_ne h] using ih
        · simpa [List.filter_cons, kept, List.lookup_cons, beq_false_of_ne h] using ih

theorem lookup_probes_override (e : Environment σ) {o : Override σ} {r : String}
    (untouched : o.probes.lookup r = none) :
    (e.override o).probes.lookup r = e.probes.lookup r := lookup_overlay_of_none untouched

theorem Proper.override {log : List Asked} {e : Environment σ} (proper : e.Proper log)
    {o : Override σ} (contained : ∀ p ∈ o.probes, ∀ s, Contained (p.2.ask s).1) :
    (e.override o).Proper log := by
  constructor
  · intro r v remembered
    rw [lookup_memo_override] at remembered
    split at remembered
    · rename_i untouched
      rw [lookup_probes_override e (Option.isNone_iff_eq_none.mp untouched)]
      exact proper.vouched r v remembered
    · cases remembered
  · intro p member
    rcases mem_overlay member with old | new
    · exact proper.contained p old
    · exact contained p new

/-- A question is noted together with the calls that it led to. -/
theorem Proper.available {log : List Asked} {e : Environment σ} (proper : e.Proper log)
    {x : Asked} {s : σ} (noted : x.calls = e.calls x.resource s) :
    (e.available x.resource s).environment.Proper (log ++ [x]) := by
  have kept := proper.mono (List.subset_append_left log [x])
  cases known : e.known? x.resource with
  | some v =>
      rw [available_of_known known]
      exact kept
  | none =>
      obtain ⟨probe, inquires⟩ := inquires_of_unknown proper.contained known s
      rw [inquires.noted]
      refine ⟨fun n v remembered => ?_, proper.contained⟩
      by_cases same : n = x.resource
      · subst same
        refine ⟨probe, inquires.found, x, by simp, rfl, (probe.ask s).1, ?_, ?_⟩
        · simp [noted, inquires.called]
        · simpa using remembered
      · exact kept.vouched n v (by simpa [List.lookup_cons, beq_false_of_ne same] using remembered)

/-- What is remembered is handed on, unless the probe is replaced. -/
theorem Proper.known?_override {log : List Asked} {e : Environment σ} (proper : e.Proper log)
    {o : Override σ} {r : String} {v : Bool} (remembered : e.memo.lookup r = some v)
    (untouched : o.probes.lookup r = none) (undeclared : r ∉ (e.override o).resources) :
    (e.override o).known? r = some v := by
  obtain ⟨probe, found, _⟩ := proper.vouched r v remembered
  unfold known?
  rw [if_neg undeclared, lookup_probes_override e untouched, found, lookup_memo_override, untouched]
  exact remembered

/-- The known answer is yes just if the resource is declared or its probe is remembered to have said
so. -/
theorem Proper.known_true_iff {log : List Asked} {e : Environment σ} (proper : e.Proper log)
    {r : String} {v : Bool} (known : e.known? r = some v) :
    v = true ↔ r ∈ e.resources ∨ e.memo.lookup r = some true := by
  unfold known? at known
  split at known
  · rename_i declared
    cases known
    simp [declared]
  · rename_i undeclared
    split at known
    · rename_i unprobed
      cases known
      have forgotten : e.memo.lookup r ≠ some true := by
        intro remembered
        obtain ⟨probe, found, _⟩ := proper.vouched r true remembered
        simp [found] at unprobed
      simp [undeclared, forgotten]
    · simp [undeclared, known]

end Environment

/-! ### Families of environments -/

/-- Environments in the order in which they came up, and the state that their probes share. -/
structure Lineage (σ : Type) where
  members : List (Environment σ)
  shared : σ

namespace Lineage

/-- What is done with a family: an environment is constructed, one is derived from a member, or a
member is asked about a resource. -/
inductive Act (σ : Type)
  | construct (includeDebugOnly : Bool) (resources : List String) (probes : List (String × Probe σ))
  | derive (parent : Nat) (o : Override σ)
  | ask (member : Nat) (resource : String)

/-- The probes that are brought in answer or raise ordinary faults. -/
def Act.Contained : Act σ → Prop
  | .construct _ _ probes => ∀ p ∈ probes, ∀ s, Concord.Contained (p.2.ask s).1
  | .derive _ o => ∀ p ∈ o.probes, ∀ s, Concord.Contained (p.2.ask s).1
  | .ask _ _ => True

def start (s : σ) : Lineage σ := ⟨[], s⟩

/-- Does something with a family. What names a member that there is not does nothing. -/
def perform (f : Lineage σ) : Act σ → Lineage σ
  | .construct optedIn resources probes =>
      { f with members := f.members ++ [.make optedIn resources probes] }
  | .derive i o =>
      match f.members[i]? with
      | none => f
      | some e => { f with members := f.members ++ [e.override o] }
  | .ask i r =>
      match f.members[i]? with
      | none => f
      | some e => ⟨f.members.set i (e.available r f.shared).environment, (e.available r f.shared).shared⟩

def asked? (f : Lineage σ) : Act σ → Option Asked
  | .ask i r =>
      f.members[i]?.map fun e => ⟨i, r, (e.available r f.shared).answer, e.calls r f.shared⟩
  | _ => none

def after (f : Lineage σ) (acts : List (Act σ)) : Lineage σ := acts.foldl perform f

/-- The questions that were asked, one after the other. -/
def asked (f : Lineage σ) : List (Act σ) → List Asked
  | [] => []
  | a :: acts => (f.asked? a).toList ++ (f.perform a).asked acts

theorem asked?_eq_some {f : Lineage σ} {a : Act σ} {x : Asked} (question : f.asked? a = some x) :
    ∃ e, a = .ask x.member x.resource ∧ f.members[x.member]? = some e ∧
      x.answer = (e.available x.resource f.shared).answer ∧ x.calls = e.calls x.resource f.shared := by
  cases a with
  | construct optedIn resources probes => cases question
  | derive i o => cases question
  | ask i r =>
      obtain ⟨e, here, rfl⟩ := Option.map_eq_some_iff.mp question
      exact ⟨e, rfl, here, rfl, rfl⟩

/-! ### What becomes of a member -/

/-- What is not asked of a member leaves it as it is. -/
theorem member_perform_of_ne {f : Lineage σ} {i : Nat} {e : Environment σ}
    (here : f.members[i]? = some e) {a : Act σ} (other : ∀ r, a ≠ .ask i r) :
    (f.perform a).members[i]? = some e := by
  have inside : i < f.members.length := (List.getElem?_eq_some_iff.mp here).1
  cases a with
  | construct optedIn resources probes => simpa [perform, List.getElem?_append_left inside] using here
  | derive j o =>
      simp only [perform]
      split
      · exact here
      · simpa [List.getElem?_append_left inside] using here
  | ask j r =>
      have apart : j ≠ i := by
        rintro rfl
        exact other r rfl
      simp only [perform]
      split
      · exact here
      · simpa [List.getElem?_set_ne apart] using here

theorem member_perform_ask {f : Lineage σ} {i : Nat} {e : Environment σ}
    (here : f.members[i]? = some e) (r : String) :
    (f.perform (.ask i r)).members[i]? = some (e.available r f.shared).environment := by
  have inside : i < f.members.length := (List.getElem?_eq_some_iff.mp here).1
  simp only [perform, here]
  exact List.getElem?_set_self inside

theorem member_perform_derive {f : Lineage σ} {i : Nat} {e : Environment σ}
    (here : f.members[i]? = some e) (o : Override σ) :
    (f.perform (.derive i o)).members[f.members.length]? = some (e.override o) := by
  simp [perform, here]

theorem member_perform {f : Lineage σ} {i : Nat} {e : Environment σ}
    (here : f.members[i]? = some e) (a : Act σ) :
    ∃ e', (f.perform a).members[i]? = some e' ∧ e.Continues e' := by
  by_cases own : ∃ r, a = .ask i r
  · obtain ⟨r, rfl⟩ := own
    exact ⟨_, member_perform_ask here r, e.available_continues r f.shared⟩
  · exact ⟨e, member_perform_of_ne here fun r same => own ⟨r, same⟩, .refl e⟩

theorem member_after {f : Lineage σ} {i : Nat} {e : Environment σ} (here : f.members[i]? = some e)
    (acts : List (Act σ)) : ∃ e', (f.after acts).members[i]? = some e' ∧ e.Continues e' := by
  induction acts generalizing f e with
  | nil => exact ⟨e, here, .refl e⟩
  | cons a acts ih =>
      obtain ⟨e₁, here₁, first⟩ := member_perform here a
      obtain ⟨e₂, here₂, next⟩ := ih here₁
      exact ⟨e₂, here₂, first.trans next⟩

/-- All members are proper, by the questions asked so far. -/
def Proper (log : List Asked) (f : Lineage σ) : Prop := ∀ e ∈ f.members, e.Proper log

theorem Proper.add {log : List Asked} {f : Lineage σ} (proper : f.Proper log) {e : Environment σ}
    (new : e.Proper log) : ({ f with members := f.members ++ [e] } : Lineage σ).Proper log := by
  intro e' member
  rcases List.mem_append.mp member with old | added
  · exact proper e' old
  · rw [List.mem_singleton.mp added]
    exact new

theorem Proper.perform {log : List Asked} {f : Lineage σ} (proper : f.Proper log) {a : Act σ}
    (contained : a.Contained) : (f.perform a).Proper (log ++ (f.asked? a).toList) := by
  cases a with
  | construct optedIn resources probes =>
      simpa [asked?, Lineage.perform] using proper.add (.make contained)
  | derive i o =>
      simp only [asked?, Lineage.perform, Option.toList_none, List.append_nil]
      split
      · exact proper
      · rename_i e here
        exact proper.add ((proper e (List.mem_of_getElem? here)).override contained)
  | ask i r =>
      simp only [asked?, Lineage.perform]
      split
      · rename_i absent
        simpa [absent] using proper
      · rename_i e here
        simp only [here, Option.map_some, Option.toList_some]
        intro e' member
        rcases List.mem_or_eq_of_mem_set member with old | rfl
        · exact (proper e' old).mono (List.subset_append_left _ _)
        · exact (proper e (List.mem_of_getElem? here)).available rfl

theorem Proper.after {log : List Asked} {f : Lineage σ} (proper : f.Proper log) {acts : List (Act σ)}
    (contained : ∀ a ∈ acts, a.Contained) : (f.after acts).Proper (log ++ f.asked acts) := by
  induction acts generalizing f log with
  | nil => simpa [asked, Lineage.after] using proper
  | cons a acts ih =>
      have next := ih (proper.perform (contained a List.mem_cons_self))
        fun b member => contained b (List.mem_cons_of_mem a member)
      simpa [asked, Lineage.after] using next

theorem proper_start (s : σ) : (start s).Proper [] := by
  intro e impossible
  cases impossible

/-! ### What becomes of a question -/

/-- What is known is answered alike ever after, without a call. -/
theorem recalled {f : Lineage σ} {i : Nat} {e : Environment σ} (here : f.members[i]? = some e)
    {r : String} {v : Bool} (known : e.known? r = some v) (acts : List (Act σ)) :
    ∀ x ∈ f.asked acts, x.member = i → x.resource = r → x.answer = .ok v ∧ x.calls = [] := by
  induction acts generalizing f e with
  | nil =>
      intro x impossible
      cases impossible
  | cons a acts ih =>
      intro x member atI onR
      rcases List.mem_append.mp member with now | later
      · obtain ⟨e', rfl, here', answer, calls⟩ := asked?_eq_some (Option.mem_toList.mp now)
        subst atI onR
        obtain rfl := Option.some.inj (here.symm.trans here')
        rw [answer, calls, Environment.available_of_known known, Environment.calls_of_known known]
        exact ⟨rfl, rfl⟩
      · obtain ⟨e', here', continues⟩ := member_perform here a
        exact ih here' (continues.known? known) x later atI onR

/-- What an environment that was asked holds of the question. -/
structure Settled (x : Asked) (e : Environment σ) (b : Bool) : Prop where
  answer : x.answer = .ok b
  known : e.known? x.resource = some b
  called : x.calls = [] ∨ ∃ probe outcome, x.resource ∉ e.resources ∧
    e.probes.lookup x.resource = some probe ∧ x.calls = [(probe.tag, outcome)] ∧ countsAs outcome = b

theorem Settled.continues {x : Asked} {e e' : Environment σ} {b : Bool} (settled : Settled x e b)
    (later : e.Continues e') : Settled x e' b := by
  refine ⟨settled.answer, later.known? settled.known, ?_⟩
  rw [later.resources, later.probes]
  exact settled.called

theorem Settled.unique {x y : Asked} {e : Environment σ} {b c : Bool} (first : Settled x e b)
    (second : Settled y e c) (alike : x.resource = y.resource) : b = c := by
  have known := second.known
  rw [← alike, first.known] at known
  exact Option.some.inj known

theorem Settled.of_call {x : Asked} {e : Environment σ} {b : Bool} (settled : Settled x e b)
    {c : Nat × Except Fault Bool} (call : c ∈ x.calls) :
    ∃ probe, x.resource ∉ e.resources ∧ e.probes.lookup x.resource = some probe ∧ c.1 = probe.tag ∧
      x.answer = .ok (countsAs c.2) := by
  rcases settled.called with none | ⟨probe, outcome, undeclared, found, one, counts⟩
  · rw [none] at call
    cases call
  · rw [one, List.mem_singleton] at call
    subst call
    exact ⟨probe, undeclared, found, rfl, counts ▸ settled.answer⟩

theorem settled_of_asked? {log : List Asked} {f : Lineage σ} (proper : f.Proper log) {a : Act σ}
    {x : Asked} (question : f.asked? a = some x) :
    ∃ e b, (f.perform a).members[x.member]? = some e ∧ Settled x e b := by
  obtain ⟨e, rfl, here, answer, calls⟩ := asked?_eq_some question
  have there := member_perform_ask here x.resource
  cases known : e.known? x.resource with
  | some v =>
      rw [Environment.available_of_known known] at there answer
      rw [Environment.calls_of_known known] at calls
      exact ⟨e, v, there, answer, known, .inl calls⟩
  | none =>
      have contained := (proper e (List.mem_of_getElem? here)).contained
      obtain ⟨probe, inquires⟩ := Environment.inquires_of_unknown contained known f.shared
      refine ⟨_, _, there, answer.trans inquires.answer, inquires.known, .inr ?_⟩
      rw [inquires.noted]
      exact ⟨probe, _, inquires.undeclared, inquires.found, calls.trans inquires.called, rfl⟩

/-- Every question is answered, and settled in the end for the environment that was asked. -/
theorem settled_of_asked {log : List Asked} {f : Lineage σ} (proper : f.Proper log)
    {acts : List (Act σ)} (contained : ∀ a ∈ acts, a.Contained) :
    ∀ x ∈ f.asked acts, ∃ e b, (f.after acts).members[x.member]? = some e ∧ Settled x e b := by
  induction acts generalizing f log with
  | nil =>
      intro x impossible
      cases impossible
  | cons a acts ih =>
      intro x member
      rcases List.mem_append.mp member with now | later
      · obtain ⟨e, b, here, settled⟩ := settled_of_asked? proper (Option.mem_toList.mp now)
        obtain ⟨e', here', continues⟩ := member_after here acts
        exact ⟨e', b, here', settled.continues continues⟩
      · exact ih (proper.perform (contained a List.mem_cons_self))
          (fun b member => contained b (List.mem_cons_of_mem a member)) x later

/-! ### Calls -/

/-- For which member and which resource a question led to a call, once for each call. -/
def sites (x : Asked) : List (Nat × String) := x.calls.map fun _ => (x.member, x.resource)

/-- The calls that the questions to one member led to. -/
def callsOf (log : List Asked) (i : Nat) : List (Nat × Except Fault Bool) :=
  (log.filter fun x => x.member = i).flatMap (·.calls)

/-- A member calls at most one probe for a resource, and that once. -/
theorem sites_nodup {log : List Asked} {f : Lineage σ} (proper : f.Proper log)
    {acts : List (Act σ)} (contained : ∀ a ∈ acts, a.Contained) :
    ((f.asked acts).flatMap sites).Nodup := by
  induction acts generalizing f log with
  | nil => exact List.nodup_nil
  | cons a acts ih =>
      have rest := ih (proper.perform (contained a List.mem_cons_self))
        fun b member => contained b (List.mem_cons_of_mem a member)
      cases question : f.asked? a with
      | none => simpa [asked, question] using rest
      | some x =>
          obtain ⟨e, b, here, settled⟩ := settled_of_asked? proper question
          have single : (sites x).Nodup := by
            rcases settled.called with none | ⟨probe, outcome, _, _, one, _⟩
            · simp [sites, none]
            · simp [sites, one]
          -- Whatever was called for now is known later, so that nothing is called for it again.
          have apart : ∀ site ∈ sites x, site ∉ ((f.perform a).asked acts).flatMap sites := by
            intro site first again
            obtain ⟨_, _, rfl⟩ := List.mem_map.mp first
            obtain ⟨y, member, second⟩ := List.mem_flatMap.mp again
            obtain ⟨c, called, same⟩ := List.mem_map.mp second
            obtain ⟨atI, onR⟩ := Prod.mk.inj same
            have silent := (recalled here settled.known acts y member atI onR).2
            rw [silent] at called
            cases called
          simp only [asked, question, Option.toList_some, List.cons_append, List.nil_append,
            List.flatMap_cons]
          exact List.nodup_append.mpr ⟨single, rest, fun s first t again same =>
            apart s first (same ▸ again)⟩

/-- The calls of a probe that stands under one name only are calls for that name. -/
theorem countP_callsOf_le {log : List Asked} {i tag : Nat} {name : String}
    (own : ∀ x ∈ log, x.member = i → ∀ c ∈ x.calls, c.1 = tag → x.resource = name) :
    (callsOf log i).countP (fun c => c.1 = tag) ≤ (log.flatMap sites).count (i, name) := by
  induction log with
  | nil => exact Nat.le_refl 0
  | cons x log ih =>
      have rest := ih fun y member => own y (List.mem_cons_of_mem x member)
      rw [List.flatMap_cons, List.count_append]
      by_cases atI : x.member = i
      · have here : x.calls.countP (fun c => c.1 = tag) ≤ (sites x).count (i, name) := by
          by_cases onName : x.resource = name
          · simpa [sites, atI, onName, List.map_const'] using List.countP_le_length
          · have silent : x.calls.countP (fun c => c.1 = tag) = 0 :=
              List.countP_eq_zero.mpr fun c called same =>
                onName (own x List.mem_cons_self atI c called (of_decide_eq_true same))
            omega
        have split : callsOf (x :: log) i = x.calls ++ callsOf log i := by simp [callsOf, atI]
        rw [split, List.countP_append]
        omega
      · have skipped : callsOf (x :: log) i = callsOf log i := by simp [callsOf, atI]
        rw [skipped]
        omega

/-! ### Any history of a family -/

/-- What holds of the questions that were asked, and of the environments there are by then. -/
structure Steadfast (log : List Asked) (f : Lineage σ) : Prop where
  /-- A member answers every question about a resource alike. -/
  steady : ∀ x ∈ log, ∀ y ∈ log, x.member = y.member → x.resource = y.resource →
    ∃ b, x.answer = .ok b ∧ y.answer = .ok b
  /-- There is at most one call for a member and a resource. -/
  once : (log.flatMap sites).Nodup
  /-- The calls are those of a traced copy, which answers and remembers alike. -/
  traced : ∀ e ∈ f.members, ∀ r s l,
    (e.traced.available r (s, l)).answer = (e.available r s).answer ∧
      (e.traced.available r (s, l)).environment = (e.available r s).environment.traced ∧
      (e.traced.available r (s, l)).shared = ((e.available r s).shared, l ++ e.calls r s)
  /-- A probe that a member has under one name only is called by it at most once. -/
  sole : ∀ i e name tag, f.members[i]? = some e →
    (∀ n probe, e.probes.lookup n = some probe → probe.tag = tag → n = name) →
    (callsOf log i).countP (fun c => c.1 = tag) ≤ 1
  /-- What is called is the member's own probe for a resource that is not declared, and what comes of
  it is the answer. -/
  called : ∀ x ∈ log, ∀ c ∈ x.calls, ∃ e probe, f.members[x.member]? = some e ∧
    x.resource ∉ e.resources ∧ e.probes.lookup x.resource = some probe ∧ c.1 = probe.tag ∧
    x.answer = .ok (countsAs c.2)
  /-- A derived environment gives the remembered answer without a call, whatever happens later. -/
  inherited : ∀ i e o r v, f.members[i]? = some e → e.memo.lookup r = some v →
    o.probes.lookup r = none → r ∉ (e.override o).resources →
    ∀ later, ∀ x ∈ (f.perform (.derive i o)).asked later,
      x.member = f.members.length → x.resource = r → x.answer = .ok v ∧ x.calls = []
  /-- The answer is yes just if the resource is declared or the remembered result is a yes. -/
  truth : ∀ x ∈ log, ∃ e b, f.members[x.member]? = some e ∧ x.answer = .ok b ∧
    (b = true ↔ x.resource ∈ e.resources ∨ e.memo.lookup x.resource = some true)
  /-- What is remembered came of a call of the probe that stands there. -/
  vouched : ∀ e ∈ f.members, ∀ r v, e.memo.lookup r = some v →
    ∃ probe, e.probes.lookup r = some probe ∧ Said log r probe.tag v
  /-- Whatever is done next, the members that are not asked stay what they are: in their fields, in
  what they remember, and so in what they answer. -/
  apart : ∀ a i e, f.members[i]? = some e → (∀ r, a ≠ .ask i r) →
    (f.perform a).members[i]? = some e
  /-- A member that is asked may remember more, and is the same otherwise. -/
  kept : ∀ r i e, f.members[i]? = some e →
    ∃ e', (f.perform (.ask i r)).members[i]? = some e' ∧ e.Continues e'

theorem steadfast_after (s : σ) (acts : List (Act σ)) (contained : ∀ a ∈ acts, a.Contained) :
    Steadfast ((start s).asked acts) ((start s).after acts) := by
  have proper : ((start s).after acts).Proper ((start s).asked acts) :=
    (proper_start s).after contained
  have settled := settled_of_asked (proper_start s) contained
  have once := sites_nodup (proper_start s) contained
  have called : ∀ x ∈ (start s).asked acts, ∀ c ∈ x.calls, ∃ e probe,
      ((start s).after acts).members[x.member]? = some e ∧ x.resource ∉ e.resources ∧
      e.probes.lookup x.resource = some probe ∧ c.1 = probe.tag ∧ x.answer = .ok (countsAs c.2) := by
    intro x member c call
    obtain ⟨e, b, here, known⟩ := settled x member
    obtain ⟨probe, rest⟩ := known.of_call call
    exact ⟨e, probe, here, rest⟩
  refine ⟨?_, once, fun e _ => e.available_traced, ?_, called, ?_, ?_, ?_, ?_, ?_⟩
  · intro x memberX y memberY same alike
    obtain ⟨e, b, here, known⟩ := settled x memberX
    obtain ⟨e', b', here', known'⟩ := settled y memberY
    rw [same] at here
    obtain rfl := Option.some.inj (here.symm.trans here')
    obtain rfl := known.unique known' alike
    exact ⟨b, known.answer, known'.answer⟩
  · intro i e name tag here only
    have own : ∀ x ∈ (start s).asked acts, x.member = i → ∀ c ∈ x.calls, c.1 = tag →
        x.resource = name := by
      intro x member atI c call tagged
      obtain ⟨e', probe, here', _, found, own, _⟩ := called x member c call
      rw [atI] at here'
      obtain rfl := Option.some.inj (here.symm.trans here')
      exact only x.resource probe found (own.symm.trans tagged)
    exact Nat.le_trans (countP_callsOf_le own) (List.nodup_iff_count_le_one.mp once (i, name))
  · intro i e o r v here remembered untouched undeclared later
    have known := (proper e (List.mem_of_getElem? here)).known?_override remembered untouched undeclared
    exact recalled (member_perform_derive here o) known later
  · intro x member
    obtain ⟨e, b, here, known⟩ := settled x member
    exact ⟨e, b, here, known.answer, (proper e (List.mem_of_getElem? here)).known_true_iff known.known⟩
  · intro e member
    exact (proper e member).vouched
  · intro a i e here other
    exact member_perform_of_ne here other
  · intro r i e here
    exact member_perform here (.ask i r)

end Lineage

namespace Samples

open PlainText Lineage

/-- A probe that changes its mind and one that raises; both are asked through an environment, through
one that is derived from it once the first has spoken, and through one that replaces the first. -/
def household : List (Act Tallies) :=
  [.construct false [] [("fickle", (Answering.inTurn [.bool true, .bool false]).probe 2),
     ("faulty", (Answering.raising (.breakdown .runtime "no toolchain")).probe 3)],
   .ask 0 "fickle", .derive 0 { resources := .ofList ["jdk"] }, .ask 1 "fickle", .ask 1 "faulty",
   .derive 1 { probes := [("fickle", (Answering.always (.bool false)).probe 4)] }, .ask 2 "fickle",
   .ask 0 "faulty", .ask 0 "fickle", .ask 2 "faulty", .ask 2 "jdk", .ask 0 "jdk"]

theorem household_contained : ∀ a ∈ household, a.Contained := by
  unfold household
  simp only [List.mem_cons, List.not_mem_nil, or_false, forall_eq_or_imp, forall_eq, Act.Contained,
    false_imp_iff, implies_true, and_true, true_and]
  exact ⟨⟨contained_probe (by simp) 2, contained_probe (by rintro f ⟨⟩; rfl) 3⟩,
    contained_probe (by simp) 4⟩

end Samples

/-- The fickle probe is called for the first environment alone, and the faulty one for those two that
had to find out for themselves. -/
theorem Lineage.steadfast_after_household :
    (((start (σ := PlainText.Tallies) {}).asked Samples.household).map fun x =>
        (x.member, x.resource, x.answer.toOption, x.calls.map (·.1))) =
      [(0, "fickle", some true, [2]), (1, "fickle", some true, []), (1, "faulty", some false, [3]),
       (2, "fickle", some false, [4]), (0, "faulty", some false, [3]), (0, "fickle", some true, []),
       (2, "faulty", some false, []), (2, "jdk", some true, []), (0, "jdk", some false, [])] ∧
    (∀ a ∈ Samples.household, a.Contained) ∧
    Steadfast ((start {}).asked Samples.household) ((start {}).after Samples.household) :=
  ⟨by decide +kernel, Samples.household_contained,
    Lineage.steadfast_after {} Samples.household Samples.household_contained⟩

end Concord
