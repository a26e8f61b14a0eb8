import Concord.Proofs.RegistrationOrder
/-!
Overriding environments step by step. Two overrides in a row do what the two combined do, also to
what the environment remembers: an answer that the first one drops does not come back through the
second. So an environment that comes about in steps, from the settings, the options of a command and
the probes of a catalog, is the same however the steps are grouped.
-/

namespace Concord

variable {K : Kit} {σ : Type}

/-! ### Combined overrides -/

namespace Override

/-- Both overrides in one: the later flag counts if it is given, resources of both are added, and
the probes of the second lie over those of the first. -/
def andThen (a b : Override σ) : Override σ where
  includeDebugOnly := b.includeDebugOnly.or a.includeDebugOnly
  resources := a.resources.union b.resources
  probes := overlay (overlay [] a.probes) b.probes

/-- All overrides in one, from the first to the last. -/
def all (steps : List (Override σ)) : Override σ := steps.foldl andThen {}

end Override

namespace NameSet

theorem union_empty (a : NameSet) : a.union .empty = a := by
  ext n
  rw [mem_union]
  exact or_iff_left List.not_mem_nil

theorem union_assoc (a b c : NameSet) : (a.union b).union c = a.union (b.union c) := by
  ext n
  simp only [mem_union, or_assoc]

end NameSet

namespace Environment

theorem override_nothing (e : Environment σ) : e.override {} = e := by
  have kept :
      e.memo.filter (fun m => (([] : List (String × Probe σ)).lookup m.1).isNone) = e.memo :=
    List.filter_eq_self.mpr fun _ _ => rfl
  simp only [override, NameSet.union_empty, kept]
  rfl

/-- One override after the other is the two combined. What neither of them replaces stays
remembered. -/
theorem override_override (e : Environment σ) (a b : Override σ) :
    (e.override a).override b = e.override (a.andThen b) := by
  simp only [override, Override.andThen, Environment.mk.injEq]
  refine ⟨?_, NameSet.union_assoc _ _ _, ?_, ?_⟩
  · cases b.includeDebugOnly <;> cases a.includeDebugOnly <;> rfl
  · rw [overlay_assoc _ (distinct_overlay distinct_nil a.probes), overlay_overlay_nil]
  · rw [List.filter_filter]
    congr 1
    funext m
    rw [isNone_lookup_overlay, isNone_lookup_overlay]
    simp

theorem override_foldl_andThen (e : Environment σ) (first : Override σ)
    (steps : List (Override σ)) :
    e.override (steps.foldl Override.andThen first) = steps.foldl override (e.override first) := by
  induction steps generalizing first with
  | nil => rfl
  | cons next steps ih =>
      rw [List.foldl_cons, List.foldl_cons, ih, override_override]

theorem override_all (e : Environment σ) (steps : List (Override σ)) :
    e.override (Override.all steps) = steps.foldl override e := by
  rw [Override.all, override_foldl_andThen, override_nothing]

/-- Steps may be taken one by one or group by group. -/
theorem override_groups (e : Environment σ) (groups : List (List (Override σ))) :
    (groups.map Override.all).foldl override e = groups.flatten.foldl override e := by
  induction groups generalizing e with
  | nil => rfl
  | cons group groups ih =>
      rw [List.map_cons, List.foldl_cons, ih, override_all, List.flatten_cons, List.foldl_append]

/-- One more probe among those laid down is an override of its own. -/
theorem override_setEntry (e : Environment σ) {probes : List (String × Probe σ)}
    (distinct : (probes.map (·.1)).Nodup) (resource : String) (p : Probe σ) :
    e.override { probes := setEntry resource p probes } =
      (e.override { probes }).override { probes := [(resource, p)] } := by
  simp only [override, Environment.mk.injEq, NameSet.union_empty]
  refine ⟨rfl, trivial, overlay_setEntry _ distinct resource p, ?_⟩
  rw [List.filter_filter]
  congr 1
  funext m
  by_cases same : m.1 = resource
  · simp [same]
  · simp [same, List.lookup_cons, beq_false_of_ne same]

end Environment

/-! ### Registered probes -/

/-- What a registration does to the environment. -/
def Registration.step? : Registration K → Option (Override K.Shared)
  | .probe resource p => some { probes := [(resource, p)] }
  | _ => none

namespace Harness

variable {h h' : Harness K} {r : Registration K}

/-- The environment as it is derived anew from the given one, with every registered probe laid
down. -/
def anew (h : Harness K) : Environment K.Shared := h.base.override { probes := h.probes }

/-- The gate's part of a harness is touched by registered probes alone. -/
theorem gate_of_register (ok : h.register r = .ok h') :
    (r.step? = none ∧ h' = { h with catalog := h'.catalog, session := h'.session }) ∨
      ∃ resource p, r = .probe resource p ∧
        h' = { h with probes := setEntry resource p h.probes, derived := none } := by
  rw [register_eq_ok_iff] at ok
  cases r with
  | contract name scenarios required =>
      simp only [attempt] at ok
      split at ok
      · cases ok
      · obtain ⟨c, _, rfl⟩ := catalogued_eq_ok ok
        exact .inl ⟨rfl, rfl⟩
  | backend b =>
      obtain ⟨c, _, rfl⟩ := catalogued_eq_ok ok
      exact .inl ⟨rfl, rfl⟩
  | binding b =>
      obtain ⟨c, _, rfl⟩ := catalogued_eq_ok ok
      exact .inl ⟨rfl, rfl⟩
  | probe resource p =>
      cases ok
      exact .inr ⟨resource, p, rfl, rfl⟩

theorem register_of_step {o : Override K.Shared} (step : r.step? = some o) :
    ∃ h', h.register r = .ok h' := by
  cases r with
  | probe resource p => exact ⟨_, rfl⟩
  | _ => cases step

theorem distinct_register (distinct : (h.probes.map (·.1)).Nodup) (ok : h.register r = .ok h') :
    (h'.probes.map (·.1)).Nodup := by
  obtain ⟨_, same⟩ | ⟨resource, p, _, same⟩ := gate_of_register ok <;> rw [same]
  · exact distinct
  · exact distinct_setEntry resource p distinct

theorem anew_register (distinct : (h.probes.map (·.1)).Nodup) (ok : h.register r = .ok h') :
    h'.anew = r.step?.toList.foldl Environment.override h.anew := by
  obtain ⟨nothing, same⟩ | ⟨resource, p, rfl, same⟩ := gate_of_register ok <;> rw [same]
  · rw [nothing]
    rfl
  · exact h.base.override_setEntry distinct resource p

theorem anew_registerEach (distinct : (h.probes.map (·.1)).Nodup) (rs : List (Registration K)) :
    (h.registerEach rs).anew =
      (rs.filterMap Registration.step?).foldl Environment.override h.anew := by
  induction rs generalizing h with
  | nil => rfl
  | cons r rs ih =>
      rw [filterMap_cons_eq, List.foldl_append]
      cases registered : h.register r with
      | ok h' =>
          rw [registerEach_of_ok registered, ih (distinct_register distinct registered),
            anew_register distinct registered]
      | error f =>
          rw [registerEach_of_error registered]
          cases step : r.step? with
          | none => exact ih distinct
          | some o =>
              obtain ⟨h', ok⟩ := register_of_step (h := h) step
              rw [registered] at ok
              cases ok

/-- As long as nobody asks for the environment it is derived anew. -/
theorem environment_registerEach (asked : h.derived = none) (rs : List (Registration K)) :
    (h.registerEach rs).environment = (h.registerEach rs).anew := by
  induction rs generalizing h with
  | nil => simp [registerEach, environment, anew, asked]
  | cons r rs ih =>
      cases registered : h.register r with
      | ok h' =>
          rw [registerEach_of_ok registered]
          refine ih ?_
          obtain ⟨_, same⟩ | ⟨_, _, _, same⟩ := gate_of_register registered <;> rw [same]
          exact asked
      | error f =>
          rw [registerEach_of_error registered]
          exact ih asked

/-- Overriding is an action of combined overrides on environments: flag, resources, probes in their
order and what is remembered are the same whether two overrides are applied in turn or as one. So
any steps may be grouped in any way, and the environment of a harness is the first one after all the
steps that have led to it, those of the command and then one for each registered probe. -/
theorem environment_by_steps (e : Environment K.Shared) :
    (∀ a b, (e.override a).override b = e.override (a.andThen b)) ∧
      (∀ groups : List (List (Override K.Shared)),
        (groups.map Override.all).foldl Environment.override e =
          groups.flatten.foldl Environment.override e) ∧
      ∀ steps shared replays runName headStart (rs : List (Registration K)),
        ((start shared (steps.foldl Environment.override e) replays runName headStart).registerEach
            rs).environment =
          (steps ++ rs.filterMap Registration.step?).foldl Environment.override e := by
  refine ⟨e.override_override, e.override_groups, fun steps shared replays runName headStart rs => ?_⟩
  have fresh : (start shared (steps.foldl Environment.override e) replays runName headStart).anew =
      steps.foldl Environment.override e := Environment.override_nothing _
  rw [environment_registerEach rfl, anew_registerEach distinct_nil, fresh, List.foldl_append]

end Harness

end Concord
