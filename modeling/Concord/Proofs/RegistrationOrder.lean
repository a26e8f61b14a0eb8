import Concord.Proofs.Registration
import Concord.Samples
/-!
The order of registration. Contracts and backends are looked up by name, and no name is taken twice,
so that a plan depends on which of them are registered and not on when; the bindings alone have an
order. What is checked when a binding is declared is checked again when the plan is made, so that a
backend that lacks a feature cannot slip in by being registered after the binding.
-/

namespace Concord

variable {K : Kit}

namespace Registration

def contract? : Registration K → Option (Contract K.Recipe)
  | .contract name scenarios required => some ⟨name, scenarios, .ofList required⟩
  | _ => none

def backend? : Registration K → Option (Backend K)
  | .backend b => some b
  | _ => none

def binding? : Registration K → Option Binding
  | .binding b => some b
  | _ => none

end Registration

namespace Catalog

variable {c c' : Catalog K}

/-- A plan depends on the bindings in their order, and on what is found under each name. -/
theorem plan_congr (bindings : c.bindings = c'.bindings)
    (contracts : ∀ name, c.contract? name = c'.contract? name)
    (backends : ∀ identity, c.backend? identity = c'.backend? identity) : c.plan = c'.plan := by
  have defects : c.defect? = c'.defect? := by
    funext b
    unfold defect?
    congr 1
    funext name
    unfold contractDefect?
    rw [contracts, backends]
  have units : c.units = c'.units := by
    funext b
    unfold Catalog.units
    congr 1
    funext name
    unfold contractUnits
    rw [contracts]
  unfold plan keys
  rw [bindings, defects, units]

theorem Tidy.contract?_congr (tidy : c.Tidy) (tidy' : c'.Tidy) (same : c.contracts.Perm c'.contracts)
    (name : String) : c.contract? name = c'.contract? name := by
  ext k
  rw [tidy.contract?_eq_some_iff, tidy'.contract?_eq_some_iff, same.mem_iff]

theorem Tidy.backend?_congr (tidy : c.Tidy) (tidy' : c'.Tidy) (same : c.backends.Perm c'.backends)
    (identity : String) : c.backend? identity = c'.backend? identity := by
  ext b
  rw [tidy.backend?_eq_some_iff, tidy'.backend?_eq_some_iff, same.mem_iff]

/-- A feature that is found missing stays missing as more is registered. -/
theorem Tidy.offends_of_subset (tidy : c.Tidy) (tidy' : c'.Tidy)
    (contracts : ∀ k ∈ c.contracts, k ∈ c'.contracts) (backends : ∀ b ∈ c.backends, b ∈ c'.backends)
    {backend contract backend' contract' : String} {missing : NameSet}
    (offends : c.Offends backend contract (.missingFeatures backend' contract' missing)) :
    c'.Offends backend contract (.missingFeatures backend' contract' missing) := by
  cases offends with
  | unsupported bound registered exactly some_missing =>
      obtain ⟨listed, named⟩ := tidy.contract?_eq_some_iff.mp bound
      obtain ⟨listed', named'⟩ := tidy.backend?_eq_some_iff.mp registered
      exact .unsupported (tidy'.contract?_eq_some_iff.mpr ⟨contracts _ listed, named⟩)
        (tidy'.backend?_eq_some_iff.mpr ⟨backends _ listed', named'⟩) exactly some_missing

/-- Where the contracts of every binding are registered, an invalid binding lacks a feature. -/
theorem Tidy.plan_of_invalid (tidy : c.Tidy) {b : Binding} (declared : b ∈ c.bindings)
    (invalid : ¬ c.Valid b) :
    ∃ backend contract missing, c.plan = .error (.missingFeatures backend contract missing) := by
  cases plan : c.plan with
  | ok planned => exact absurd ((plan_eq_ok_iff.mp plan).1 b declared) invalid
  | error f =>
      cases plan_eq_error_iff.mp plan with
      | duplicate valid => exact absurd (valid b declared) invalid
      | @offence before after b' names rest name _ bindings _ contracts _ offends =>
          cases offends with
          | unsupported => exact ⟨_, _, _, rfl⟩
          | unknown unregistered =>
              have declared' : b' ∈ c.bindings := by simp [bindings]
              obtain ⟨k, registered, named⟩ := (tidy.bound b' declared').2 name (by simp [contracts])
              rw [tidy.contract?_eq_some_iff.mpr ⟨registered, named⟩] at unregistered
              cases unregistered

end Catalog

namespace Harness

variable {h h' : Harness K} {r : Registration K} {rs : List (Registration K)}

/-- Makes one registration after the other, also after one that is refused. -/
def registerEach (h : Harness K) : List (Registration K) → Harness K
  | [] => h
  | r :: rs => (h.attempt r).2.registerEach rs

theorem registerEach_of_ok (ok : h.register r = .ok h') (rs : List (Registration K)) :
    h.registerEach (r :: rs) = h'.registerEach rs := by
  rw [registerEach, register_eq_ok_iff.mp ok]

theorem registerEach_of_error {f : Fault} (refused : h.register r = .error f)
    (rs : List (Registration K)) : h.registerEach (r :: rs) = h.registerEach rs := by
  rw [registerEach, register_eq_error_iff.mp refused]

theorem Built.attempt (built : h.Built) (r : Registration K) : (h.attempt r).2.Built := by
  cases registered : h.register r with
  | ok h' =>
      rw [register_eq_ok_iff.mp registered]
      exact .register built registered
  | error f =>
      rw [register_eq_error_iff.mp registered]
      exact built

theorem Built.registerEach (built : h.Built) (rs : List (Registration K)) :
    (h.registerEach rs).Built := by
  induction rs generalizing h with
  | nil => exact built
  | cons r rs ih => exact ih (built.attempt r)

theorem catalog_of_register (ok : h.register r = .ok h') :
    h'.catalog =
      { contracts := h.catalog.contracts ++ r.contract?.toList
        backends := h.catalog.backends ++ r.backend?.toList
        bindings := h.catalog.bindings ++ r.binding?.toList } := by
  obtain ⟨_, _, ⟨_, _, _, rfl, catalog, _⟩ | ⟨_, rfl, catalog, _⟩ | ⟨_, rfl, catalog, _⟩ |
    ⟨_, _, rfl, catalog⟩⟩ := register_cases ok <;>
    simp [catalog, Registration.contract?, Registration.backend?, Registration.binding?]

/-- A catalog after registrations that are all accepted. -/
theorem catalog_of_registerAll (accepted : (h.registerAll rs).1 = none) :
    (h.registerAll rs).2.catalog =
      { contracts := h.catalog.contracts ++ rs.filterMap (·.contract?)
        backends := h.catalog.backends ++ rs.filterMap (·.backend?)
        bindings := h.catalog.bindings ++ rs.filterMap (·.binding?) } := by
  induction rs generalizing h with
  | nil => simp [Harness.registerAll]
  | cons r rs ih =>
      cases registered : h.register r with
      | error f =>
          rw [registerAll_of_error registered] at accepted
          cases accepted
      | ok h' =>
          rw [registerAll_of_ok registered] at accepted ⊢
          simp only [ih accepted, catalog_of_register registered, filterMap_cons_eq,
            List.append_assoc]

/-- Where some registrations may be refused, a catalog holds no more than if all were accepted. -/
theorem sublist_of_registerEach (rs : List (Registration K)) :
    (h.registerEach rs).catalog.contracts.Sublist
        (h.catalog.contracts ++ rs.filterMap (·.contract?)) ∧
      (h.registerEach rs).catalog.backends.Sublist
        (h.catalog.backends ++ rs.filterMap (·.backend?)) := by
  induction rs generalizing h with
  | nil => simp [Harness.registerEach]
  | cons r rs ih =>
      simp only [filterMap_cons_eq]
      cases registered : h.register r with
      | ok h' =>
          have later := ih (h := h')
          rw [catalog_of_register registered] at later
          rw [registerEach_of_ok registered]
          simpa only [List.append_assoc] using later
      | error f =>
          rw [registerEach_of_error registered]
          refine ⟨ih.1.trans ?_, ih.2.trans ?_⟩ <;>
            exact (List.Sublist.refl _).append (List.sublist_append_right _ _)

theorem missing_of_register {b : Binding} {backend contract : String} {missing : NameSet}
    (refused : h.register (.binding b) = .error (.missingFeatures backend contract missing)) :
    ∃ name ∈ b.contracts, h.catalog.Offends b.backend name (.missingFeatures backend contract missing) := by
  have refused' : (h.catalog.addBinding b).1 = some (.missingFeatures backend contract missing) := by
    rw [register, attempt, granted_catalogued] at refused
    exact granted_eq_error_iff.mp (eq_error_of_map refused)
  unfold Catalog.addBinding at refused'
  split at refused'
  · rename_i f checked
    cases refused'
    unfold Binding.checked checkKeyPart at checked
    split at checked
    · cases checked
    · split at checked <;> cases checked
  · rename_i b' checked
    obtain ⟨_, rfl⟩ := Catalog.checked_eq_ok checked
    split at refused'
    · cases refused'
    · split at refused' <;> cases refused'
      rename_i defect
      obtain ⟨name, member, offends⟩ := List.exists_of_findSome?_eq_some defect
      exact ⟨name, member, Catalog.contractDefect?_eq_some_iff.mp offends⟩

theorem plan_eq_catalog_plan (h : Harness K) : h.plan.1 = h.catalog.plan := by
  unfold Harness.plan
  split <;> simp [*]

variable {rs' : List (Registration K)}

/-- Where all is accepted in both orders, the same is found under each name. -/
theorem plan_of_accepted (built : h.Built) (same : rs.Perm rs')
    (order : rs.filterMap (·.binding?) = rs'.filterMap (·.binding?))
    (accepted : (h.registerAll rs).1 = none) (accepted' : (h.registerAll rs').1 = none) :
    (h.registerAll rs').2.plan.1 = (h.registerAll rs).2.plan.1 := by
  have tidy := (built.registerAll rs).tidy
  have tidy' := (built.registerAll rs').tidy
  have catalog := catalog_of_registerAll accepted
  have catalog' := catalog_of_registerAll accepted'
  rw [plan_eq_catalog_plan, plan_eq_catalog_plan]
  refine Catalog.plan_congr ?_ (tidy'.contract?_congr tidy ?_) (tidy'.backend?_congr tidy ?_)
  · rw [catalog, catalog', order]
  · rw [catalog, catalog']
    exact (same.symm.filterMap _).append_left _
  · rw [catalog, catalog']
    exact (same.symm.filterMap _).append_left _

/-- A binding that is refused for a missing feature is found invalid by the plan that any accepted
order leads to: all that it was checked against is registered there too. -/
theorem plan_of_refused (built : h.Built) {before after : List (Registration K)} {b : Binding}
    (same : rs.Perm (before ++ .binding b :: after)) (accepted : (h.registerAll rs).1 = none)
    {backend contract : String} {missing : NameSet}
    (refused : (h.registerEach before).register (.binding b) =
      .error (.missingFeatures backend contract missing)) :
    ∃ backend' contract' missing', (h.registerAll rs).2.plan.1 =
      .error (.missingFeatures backend' contract' missing') := by
  have tidy := (built.registerAll rs).tidy
  have catalog := catalog_of_registerAll accepted
  have tidy' := (built.registerEach before).tidy
  obtain ⟨name, listed, offends⟩ := missing_of_register refused
  obtain ⟨contracts, backends⟩ := sublist_of_registerEach (h := h) before
  have all {α : Type} (f : Registration K → Option α) (xs : List α) {ys : List α}
      (part : ys.Sublist (xs ++ before.filterMap f)) {y : α} (member : y ∈ ys) :
      y ∈ xs ++ rs.filterMap f := by
    have whole : (xs ++ before.filterMap f).Sublist
        (xs ++ (before ++ .binding b :: after).filterMap f) :=
      (List.Sublist.refl _).append ((List.sublist_append_left _ _).filterMap f)
    exact ((same.filterMap f).append_left xs).mem_iff.mpr ((part.trans whole).subset member)
  have offends' : (h.registerAll rs).2.catalog.Offends b.backend name
      (.missingFeatures backend contract missing) := by
    refine tidy'.offends_of_subset tidy (fun k member => ?_) (fun x member => ?_) offends
    · rw [catalog]
      exact all _ _ contracts member
    · rw [catalog]
      exact all _ _ backends member
  have declared : b ∈ (h.registerAll rs).2.catalog.bindings := by
    rw [catalog]
    exact List.mem_append_right _
      ((same.filterMap _).mem_iff.mpr (by simp [Registration.binding?]))
  rw [plan_eq_catalog_plan]
  refine tidy.plan_of_invalid declared fun valid => ?_
  have defect := Catalog.contractDefect?_eq_some_iff.mpr offends'
  rw [Catalog.contractDefect?_eq_none_iff.mpr (valid name listed)] at defect
  cases defect

/-- Registrations in another order, with the bindings in the same order among themselves: if all are
accepted, the plan is the same; and if a binding is refused for a missing feature, then the plan that
the accepted order leads to is refused for a missing feature. -/
theorem plan_of_reordered (built : h.Built) (same : rs.Perm rs')
    (order : rs.filterMap (·.binding?) = rs'.filterMap (·.binding?))
    (accepted : (h.registerAll rs).1 = none) :
    ((h.registerAll rs').1 = none → (h.registerAll rs').2.plan.1 = (h.registerAll rs).2.plan.1) ∧
      ∀ before b after, rs' = before ++ .binding b :: after →
        ∀ backend contract missing, (h.registerEach before).register (.binding b) =
            .error (.missingFeatures backend contract missing) →
          ∃ backend' contract' missing', (h.registerAll rs).2.plan.1 =
            .error (.missingFeatures backend' contract' missing') := by
  refine ⟨plan_of_accepted built same order accepted, ?_⟩
  rintro before b after rfl backend contract missing refused
  exact plan_of_refused built same accepted refused

end Harness

namespace Samples

open PlainText

def localVariable : Registration kit :=
  .contract "LocalVariable" [⟨"var-kept", "var x = 1;", .identity, "var x = 1;", none⟩] ["var"]

def fresh : Harness kit := .start {} (.make false [] []) defaultReplays (numberedRun "run")

def version8 : Registration kit := plain "V8" 8 0 ""

def version11 : Registration kit := plain "V11" 11 1 ""

/-- The backend that lacks the feature comes after the binding. -/
def late : List (Registration kit) :=
  [localVariable, version11, bind "V8" ["LocalVariable"], version8]

end Samples

namespace Harness

open Samples

/-- A backend that is registered late is refused when the plan is made, in whichever order the rest
is registered, and when the binding is declared if it is registered before. -/
theorem plan_of_reordered_late :
    (fresh.registerAll late).1 = none ∧
      (fresh.registerAll [version11, localVariable, bind "V8" ["LocalVariable"], version8]).2.plan.1 =
        (fresh.registerAll late).2.plan.1 ∧
      ∃ backend contract missing, (fresh.registerAll late).2.plan.1 =
        .error (.missingFeatures backend contract missing) := by
  have built : fresh.Built := .start ..
  have accepted : (fresh.registerAll late).1 = none := by decide +kernel
  refine ⟨accepted, ?_, ?_⟩
  · have same : late.Perm [version11, localVariable, bind "V8" ["LocalVariable"], version8] :=
      .swap ..
    exact (plan_of_reordered built same rfl accepted).1 (by decide +kernel)
  · have same : late.Perm [localVariable, version8, version11, bind "V8" ["LocalVariable"]] :=
      .cons _ (.trans (.cons _ (.swap ..)) (.swap ..))
    have refused : (fresh.registerEach [localVariable, version8, version11]).register
        (bind "V8" ["LocalVariable"]) =
          .error (.missingFeatures "V8" "LocalVariable" (.ofList ["var"])) := by
      rfl
    exact (plan_of_reordered built same rfl accepted).2 [localVariable, version8, version11] _ []
      rfl _ _ _ refused

end Harness

end Concord
