import Concord.Proofs.UnitResult
/-!
What a plan is. A catalog can be planned if every binding is valid and no key comes up twice; the plan
then has one entry for each binding, with a fresh unit for each scenario of each contract. Otherwise
it is refused: for the first contract of the first invalid binding that gives offence, and, where
every binding is valid, for the first key that came up before.
-/

namespace Concord

variable {K : Kit}

/-! ### Repeated keys -/

theorem firstRepeat_eq_none_iff {seen ks : List Key} :
    firstRepeat seen ks = none ↔ ks.Nodup ∧ ∀ k ∈ ks, k ∉ seen := by
  induction ks generalizing seen with
  | nil => simp [firstRepeat]
  | cons k ks ih =>
      by_cases old : k ∈ seen
      · simp [firstRepeat, old]
      · simp only [firstRepeat, old, if_false, ih, List.mem_cons, not_or, List.nodup_cons,
          forall_eq_or_imp, not_false_eq_true, true_and]
        constructor
        · rintro ⟨nodup, apart⟩
          exact ⟨⟨fun again => (apart k again).1 rfl, nodup⟩, fun x member => (apart x member).2⟩
        · rintro ⟨⟨new, nodup⟩, apart⟩
          refine ⟨nodup, fun x member => ⟨?_, apart x member⟩⟩
          rintro rfl
          exact new member

theorem firstRepeat_eq_some_iff {seen ks : List Key} {k : Key} :
    firstRepeat seen ks = some k ↔
      ∃ before after, ks = before ++ k :: after ∧ before.Nodup ∧ (∀ x ∈ before, x ∉ seen) ∧
        (k ∈ seen ∨ k ∈ before) := by
  induction ks generalizing seen with
  | nil => simp [firstRepeat]
  | cons x ks ih =>
      by_cases old : x ∈ seen
      · simp only [firstRepeat, old, if_true, Option.some.injEq]
        constructor
        · rintro rfl
          exact ⟨[], ks, rfl, .nil, by simp, .inl old⟩
        · rintro ⟨before, after, split, _, apart, _⟩
          cases before with
          | nil => exact (List.cons.inj split).1
          | cons y before =>
              obtain ⟨rfl, _⟩ := List.cons.inj split
              exact absurd old (apart x List.mem_cons_self)
      · simp only [firstRepeat, old, if_false, ih]
        constructor
        · rintro ⟨before, after, rfl, nodup, apart, again⟩
          refine ⟨x :: before, after, rfl, ?_, ?_, ?_⟩
          · exact List.nodup_cons.mpr ⟨fun member => apart x member List.mem_cons_self, nodup⟩
          · intro y member
            rcases List.mem_cons.mp member with rfl | member
            · exact old
            · exact fun seen => apart y member (List.mem_cons_of_mem _ seen)
          · rcases again with again | again
            · rcases List.mem_cons.mp again with rfl | again
              · exact .inr List.mem_cons_self
              · exact .inl again
            · exact .inr (List.mem_cons_of_mem _ again)
        · rintro ⟨before, after, split, nodup, apart, again⟩
          cases before with
          | nil =>
              obtain ⟨rfl, _⟩ := List.cons.inj split
              rcases again with again | again
              · exact absurd again old
              · cases again
          | cons y before =>
              obtain ⟨rfl, rfl⟩ := List.cons.inj split
              obtain ⟨new, nodup⟩ := List.nodup_cons.mp nodup
              refine ⟨before, after, rfl, nodup, fun z member seen => ?_, ?_⟩
              · rcases List.mem_cons.mp seen with rfl | seen
                · exact new member
                · exact apart z (List.mem_cons_of_mem _ member) seen
              · rcases again with again | again
                · exact .inl (List.mem_cons_of_mem _ again)
                · rcases List.mem_cons.mp again with rfl | again
                  · exact .inl List.mem_cons_self
                  · exact .inr again

namespace Catalog

variable {c : Catalog K}

/-! ### Offences -/

/-- A contract can be bound to a backend: it is registered, and the backend, if it is registered, has
every feature that the contract requires. -/
def Supports (c : Catalog K) (backend contract : String) : Prop :=
  ∃ k, c.contract? contract = some k ∧
    ∀ b, c.backend? backend = some b → ∀ feature ∈ k.required, feature ∈ b.features

def Valid (c : Catalog K) (b : Binding) : Prop := ∀ name ∈ b.contracts, c.Supports b.backend name

/-- Why a contract cannot be bound to a backend. -/
inductive Offends (c : Catalog K) (backend contract : String) : Fault → Prop
  | unknown (unregistered : c.contract? contract = none) :
      Offends c backend contract (.unknownContract contract)
  | unsupported {k : Contract K.Recipe} {b : Backend K} {missing : NameSet}
      (bound : c.contract? contract = some k) (registered : c.backend? backend = some b)
      (exactly : ∀ feature, feature ∈ missing ↔ feature ∈ k.required ∧ feature ∉ b.features)
      (some_missing : ∃ feature, feature ∈ missing) :
      Offends c backend contract (.missingFeatures backend contract missing)

theorem isEmpty_lacks_iff (b : Backend K) (k : Contract K.Recipe) :
    (b.lacks k).isEmpty = true ↔ ∀ feature ∈ k.required, feature ∈ b.features := by
  have lacking (feature : String) :
      feature ∈ (b.lacks k).names ↔ feature ∈ k.required ∧ feature ∉ b.features :=
    NameSet.mem_diff
  simp only [NameSet.isEmpty, List.isEmpty_iff, List.eq_nil_iff_forall_not_mem, lacking, not_and,
    Classical.not_not]

theorem contractDefect?_eq_none_iff {backend contract : String} :
    c.contractDefect? backend contract = none ↔ c.Supports backend contract := by
  unfold contractDefect? Supports
  cases c.contract? contract with
  | none => simp
  | some k =>
      cases c.backend? backend with
      | none => simp
      | some b => simp [← isEmpty_lacks_iff]

theorem contractDefect?_eq_some_iff {backend contract : String} {f : Fault} :
    c.contractDefect? backend contract = some f ↔ c.Offends backend contract f := by
  constructor
  · intro defect
    unfold contractDefect? at defect
    split at defect
    · cases defect
      exact .unknown ‹_›
    · rename_i k bound
      split at defect
      · cases defect
      · rename_i b registered
        split at defect <;> cases defect
        rename_i lacking
        refine .unsupported bound registered (fun feature => NameSet.mem_diff) ?_
        rw [NameSet.isEmpty, List.isEmpty_iff] at lacking
        exact List.exists_mem_of_ne_nil _ lacking
  · intro offends
    cases offends with
    | unknown unregistered => simp only [contractDefect?, unregistered]
    | @unsupported k b missing bound registered exactly some_missing =>
        have same : b.lacks k = missing := by
          ext feature
          rw [exactly]
          exact NameSet.mem_diff
        have lacking : ¬ missing.isEmpty = true := by
          obtain ⟨feature, member⟩ := some_missing
          rw [NameSet.isEmpty, List.isEmpty_iff]
          exact List.ne_nil_of_mem member
        simp only [contractDefect?, bound, registered, same, lacking, Bool.false_eq_true, if_false]

theorem defect?_eq_none_iff {b : Binding} : c.defect? b = none ↔ c.Valid b := by
  simp only [defect?, List.findSome?_eq_none_iff, contractDefect?_eq_none_iff, Valid]

/-! ### Plans -/

def scenarios (c : Catalog K) (contract : String) : List (Scenario K.Recipe) :=
  ((c.contract? contract).map (·.scenarios)).getD []

/-- Every contract of a binding with each of its scenarios, in the order of declaration. -/
def duties (c : Catalog K) (b : Binding) : List (String × Scenario K.Recipe) :=
  b.contracts.flatMap fun name => (c.scenarios name).map fun s => (name, s)

def expansion (c : Catalog K) : List Key :=
  c.bindings.flatMap fun b => (c.duties b).map fun d => ⟨b.backend, d.1, d.2.name⟩

/-- A plan with one entry for each binding, and in it one fresh unit for each scenario of each
contract, all in the order of declaration and under distinct keys. -/
structure Expands (c : Catalog K) (planned : List (Planned K.Recipe)) : Prop where
  bindings : planned.map (·.binding) = c.bindings
  units : ∀ p ∈ planned, p.units.map (fun u => (u.key, u.scenario)) =
    (c.duties p.binding).map fun d => (⟨p.binding.backend, d.1, d.2.name⟩, d.2)
  fresh : ∀ p ∈ planned, ∀ u ∈ p.units, u.IsFresh ∧ u.phase = .pending
  distinct : ((planned.flatMap (·.units)).map (·.key)).Nodup

/-- The fault with which planning is refused. Offences come before repeated keys. -/
inductive Refuses (c : Catalog K) : Fault → Prop
  | offence {before after : List Binding} {b : Binding} {names rest : List String} {name : String}
      {f : Fault} (bindings : c.bindings = before ++ b :: after)
      (valid : ∀ b' ∈ before, c.Valid b') (contracts : b.contracts = names ++ name :: rest)
      (supported : ∀ n ∈ names, c.Supports b.backend n) (offends : c.Offends b.backend name f) :
      Refuses c f
  | duplicate {before after : List Key} {k : Key} (valid : ∀ b ∈ c.bindings, c.Valid b)
      (keys : c.expansion = before ++ k :: after) (distinct : before.Nodup) (again : k ∈ before) :
      Refuses c (.duplicateUnit k)

theorem units_eq (c : Catalog K) (b : Binding) :
    c.units b = (c.duties b).map fun d => { key := ⟨b.backend, d.1, d.2.name⟩, scenario := d.2 } := by
  simp only [units, duties, List.map_flatMap, List.map_map]
  congr 1
  funext name
  unfold contractUnits scenarios
  cases c.contract? name <;> rfl

theorem keys_eq_expansion (c : Catalog K) : c.keys = c.expansion := by
  simp only [keys, expansion, units_eq, List.map_map]
  rfl

/-- A plan is determined by the keys and scenarios of its units, as these are fresh. -/
theorem Expands.eq {planned : List (Planned K.Recipe)} (expands : c.Expands planned) :
    planned = c.bindings.map fun b => ⟨b, c.units b⟩ := by
  rw [← expands.bindings, List.map_map]
  refine (List.map_id planned).symm.trans (List.map_congr_left fun p member => ?_)
  have units : p.units = c.units p.binding := by
    calc p.units
      _ = p.units.map fun u => { key := u.key, scenario := u.scenario } := by
          refine (List.map_id p.units).symm.trans (List.map_congr_left fun u inside => ?_)
          exact (expands.fresh p member u inside).1
      _ = (p.units.map fun u => (u.key, u.scenario)).map
            fun x => { key := x.1, scenario := x.2 } := by
          rw [List.map_map]
          rfl
      _ = c.units p.binding := by
          rw [expands.units p member, units_eq, List.map_map]
          rfl
  obtain ⟨binding, units'⟩ := p
  exact congrArg (Planned.mk binding) units

theorem expands_map (distinct : c.expansion.Nodup) :
    c.Expands (c.bindings.map fun b => ⟨b, c.units b⟩) := by
  constructor
  case bindings =>
    rw [List.map_map]
    exact List.map_id c.bindings
  case units =>
    intro p member
    obtain ⟨b, _, rfl⟩ := List.mem_map.mp member
    simp only [units_eq, List.map_map]
    rfl
  case fresh =>
    intro p member u inside
    obtain ⟨b, _, rfl⟩ := List.mem_map.mp member
    rw [units_eq] at inside
    obtain ⟨d, _, rfl⟩ := List.mem_map.mp inside
    exact ⟨rfl, rfl⟩
  case distinct =>
    rw [List.flatMap_map, List.map_flatMap]
    rwa [← keys_eq_expansion] at distinct

theorem plan_eq_ok_iff {planned : List (Planned K.Recipe)} :
    c.plan = .ok planned ↔
      (∀ b ∈ c.bindings, c.Valid b) ∧ c.expansion.Nodup ∧ c.Expands planned := by
  have sound : c.bindings.findSome? c.defect? = none ↔ ∀ b ∈ c.bindings, c.Valid b := by
    simp only [List.findSome?_eq_none_iff, defect?_eq_none_iff]
  have once : firstRepeat [] c.keys = none ↔ c.expansion.Nodup := by
    simp [firstRepeat_eq_none_iff, keys_eq_expansion]
  unfold plan
  constructor
  · intro ok
    split at ok
    · cases ok
    · rename_i valid
      split at ok
      · cases ok
      · rename_i distinct
        cases ok
        exact ⟨sound.mp valid, once.mp distinct, expands_map (once.mp distinct)⟩
  · rintro ⟨valid, distinct, expands⟩
    rw [sound.mpr valid, once.mpr distinct, expands.eq]

theorem plan_eq_error_iff {f : Fault} : c.plan = .error f ↔ c.Refuses f := by
  have first {b : Binding} : c.defect? b = some f ↔
      ∃ names name rest, b.contracts = names ++ name :: rest ∧ c.Offends b.backend name f ∧
        ∀ n ∈ names, c.Supports b.backend n := by
    simp only [defect?, List.findSome?_eq_some_iff, contractDefect?_eq_some_iff,
      contractDefect?_eq_none_iff]
  unfold plan
  constructor
  · intro refused
    split at refused
    · rename_i g defect
      cases refused
      obtain ⟨before, b, after, bindings, here, valid⟩ := List.findSome?_eq_some_iff.mp defect
      obtain ⟨names, name, rest, contracts, offends, supported⟩ := first.mp here
      exact .offence bindings (fun b' member => defect?_eq_none_iff.mp (valid b' member)) contracts
        supported offends
    · rename_i valid
      split at refused <;> cases refused
      rename_i k repeated
      obtain ⟨before, after, keys, distinct, _, again⟩ := firstRepeat_eq_some_iff.mp repeated
      rw [keys_eq_expansion] at keys
      refine .duplicate (fun b member => ?_) keys distinct (again.resolve_left List.not_mem_nil)
      exact defect?_eq_none_iff.mp (List.findSome?_eq_none_iff.mp valid b member)
  · intro refuses
    cases refuses with
    | @offence before after b names rest name _ bindings valid contracts supported offends =>
        have here : c.defect? b = some f := first.mpr ⟨names, name, rest, contracts, offends, supported⟩
        have defect : c.bindings.findSome? c.defect? = some f := by
          refine List.findSome?_eq_some_iff.mpr ⟨before, b, after, bindings, here, ?_⟩
          exact fun b' member => defect?_eq_none_iff.mpr (valid b' member)
        rw [defect]
    | @duplicate before after k valid keys distinct again =>
        have sound : c.bindings.findSome? c.defect? = none :=
          List.findSome?_eq_none_iff.mpr fun b member => defect?_eq_none_iff.mpr (valid b member)
        have repeated : firstRepeat [] c.keys = some k := by
          rw [keys_eq_expansion]
          exact firstRepeat_eq_some_iff.mpr ⟨before, after, keys, distinct, by simp, .inr again⟩
        rw [sound, repeated]

/-- Planning succeeds exactly if every binding is valid and no key comes up twice, and then gives the
expansion of the catalog; otherwise it is refused for the first offence, or else for the first key
that came up before. -/
theorem plan_eq_iff (c : Catalog K) :
    ((∃ planned, c.plan = .ok planned) ↔ (∀ b ∈ c.bindings, c.Valid b) ∧ c.expansion.Nodup) ∧
      (∀ planned, c.plan = .ok planned ↔
        (∀ b ∈ c.bindings, c.Valid b) ∧ c.expansion.Nodup ∧ c.Expands planned) ∧
      ∀ f, c.plan = .error f ↔ c.Refuses f := by
  refine ⟨⟨?_, ?_⟩, fun planned => plan_eq_ok_iff, fun f => plan_eq_error_iff⟩
  · rintro ⟨planned, ok⟩
    obtain ⟨valid, distinct, _⟩ := plan_eq_ok_iff.mp ok
    exact ⟨valid, distinct⟩
  · rintro ⟨valid, distinct⟩
    exact ⟨_, plan_eq_ok_iff.mpr ⟨valid, distinct, expands_map distinct⟩⟩

end Catalog

end Concord
