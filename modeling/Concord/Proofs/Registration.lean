import Concord.Harness
import Concord.Proofs.Planning
import Concord.Proofs.Reference
/-!
Harnesses that registrations lead to. A registration adds one thing to the catalog and touches
nothing that a run works with, so that on a harness that was only built nobody is at work and
nothing is resolved, and its catalog holds only what was registered.
-/

namespace Concord

variable {K : Kit}

namespace Catalog

variable {c c' : Catalog K}

theorem checked_eq_ok {α : Type} {kind name : String} {x y : α}
    (ok : ((checkKeyPart kind name).map fun _ => x) = .ok y) : isKeyPart name = true ∧ y = x := by
  obtain ⟨⟨⟩, checked, rfl⟩ := eq_ok_of_map ok
  exact ⟨checkKeyPart_eq_ok_iff.mp checked, rfl⟩

/-- A contract is added under a name that can be a part of a key and is not taken. -/
theorem of_addContract {k : Contract K.Recipe} (added : c.addContract k = (none, c')) :
    isKeyPart k.name = true ∧ c.contract? k.name = none ∧
      c' = { c with contracts := c.contracts ++ [k] } := by
  unfold addContract at added
  split at added
  · cases added
  · rename_i k' checked
    obtain ⟨part, rfl⟩ := checked_eq_ok checked
    split at added <;> cases added
    rename_i free
    exact ⟨part, by simpa using free, rfl⟩

theorem of_addBackend {b : Backend K} (added : c.addBackend b = (none, c')) :
    isKeyPart b.identity = true ∧ c.backend? b.identity = none ∧
      c' = { c with backends := c.backends ++ [b] } := by
  unfold addBackend at added
  split at added
  · cases added
  · rename_i b' checked
    obtain ⟨part, rfl⟩ := checked_eq_ok checked
    split at added <;> cases added
    rename_i free
    exact ⟨part, by simpa using free, rfl⟩

/-- A binding is added if it is valid as yet. -/
theorem of_addBinding {b : Binding} (added : c.addBinding b = (none, c')) :
    isKeyPart b.backend = true ∧ b.contracts ≠ [] ∧ c.Valid b ∧
      c' = { c with bindings := c.bindings ++ [b] } := by
  unfold addBinding at added
  split at added
  · cases added
  · rename_i b' checked
    obtain ⟨part, rfl⟩ := checked_eq_ok checked
    split at added
    · cases added
    · rename_i named
      split at added <;> cases added
      exact ⟨part, by simpa using named, defect?_eq_none_iff.mp ‹_›, rfl⟩

/-- What is refused leaves the catalog as it was. -/
theorem addContract_of_fault {k : Contract K.Recipe} {f : Fault}
    (refused : (c.addContract k).1 = some f) : (c.addContract k).2 = c := by
  unfold addContract at refused ⊢
  grind

theorem addBackend_of_fault {b : Backend K} {f : Fault} (refused : (c.addBackend b).1 = some f) :
    (c.addBackend b).2 = c := by
  unfold addBackend at refused ⊢
  grind

theorem addBinding_of_fault {b : Binding} {f : Fault} (refused : (c.addBinding b).1 = some f) :
    (c.addBinding b).2 = c := by
  unfold addBinding at refused ⊢
  grind

end Catalog

theorem isKeyPart_of_checkScenarios {ρ : Type} {scenarios : List (Scenario ρ)}
    (ok : checkScenarios scenarios = .ok ()) : ∀ s ∈ scenarios, isKeyPart s.name = true := by
  induction scenarios with
  | nil => intro s member; cases member
  | cons s ss ih =>
      unfold checkScenarios at ok
      split at ok
      · cases ok
      · rename_i checked
        intro s' member
        rcases List.mem_cons.mp member with rfl | later
        · exact (Catalog.checked_eq_ok checked).1
        · exact ih ok s' later

/-- The harnesses that registrations lead to. -/
inductive Harness.Built : Harness K → Prop
  | start (shared : K.Shared) (base : Environment K.Shared) (replays : Nat)
      (runName : Nat → String) (headStart : Nat → Nat) :
      Built (.start shared base replays runName headStart)
  | register {h h' : Harness K} {r : Registration K} :
      Built h → h.register r = .ok h' → Built h'

namespace Harness

variable {h h' : Harness K} {r : Registration K}

theorem granted_catalogued (h : Harness K) (added : Option Fault × Catalog K) (record : Record) :
    granted (h.catalogued added record) =
      (granted added).map fun c => { h with catalog := c }.write [record] := by
  obtain ⟨_ | _, _⟩ := added <;> rfl

theorem catalogued_eq_ok {added : Option Fault × Catalog K} {record : Record}
    (taken : h.catalogued added record = (none, h')) :
    ∃ c, added = (none, c) ∧ { h with catalog := c }.write [record] = h' := by
  rw [← granted_eq_ok_iff, granted_catalogued] at taken
  obtain ⟨c, added, same⟩ := eq_ok_of_map taken
  exact ⟨c, granted_eq_ok_iff.mp added, same⟩

theorem catalogued_of_fault {added : Option Fault × Catalog K} {record : Record} {f : Fault}
    (kept : ∀ g, added.1 = some g → added.2 = h.catalog)
    (refused : (h.catalogued added record).1 = some f) : (h.catalogued added record).2 = h := by
  obtain ⟨fault, c⟩ := added
  cases fault with
  | none => cases refused
  | some g =>
      obtain rfl : c = h.catalog := kept g rfl
      rfl

/-- A refused registration leaves the harness as it was. -/
theorem attempt_of_fault {f : Fault} (refused : (h.attempt r).1 = some f) :
    (h.attempt r).2 = h := by
  cases r with
  | contract name scenarios required =>
      simp only [attempt] at refused ⊢
      split at refused
      · rfl
      · exact catalogued_of_fault (fun _ => Catalog.addContract_of_fault) refused
  | backend b => exact catalogued_of_fault (fun _ => Catalog.addBackend_of_fault) refused
  | binding b => exact catalogued_of_fault (fun _ => Catalog.addBinding_of_fault) refused
  | probe resource p => cases refused

theorem register_eq_ok_iff : h.register r = .ok h' ↔ h.attempt r = (none, h') := granted_eq_ok_iff

theorem register_eq_error_iff {f : Fault} : h.register r = .error f ↔ h.attempt r = (some f, h) := by
  rw [register, granted_eq_error_iff]
  constructor
  · intro refused
    exact Prod.ext refused (attempt_of_fault refused)
  · intro refused
    rw [refused]

theorem registerAll_of_ok (ok : h.register r = .ok h') (rs : List (Registration K)) :
    h.registerAll (r :: rs) = h'.registerAll rs := by
  simp only [registerAll, register_eq_ok_iff.mp ok]

theorem registerAll_of_error {f : Fault} (refused : h.register r = .error f)
    (rs : List (Registration K)) : h.registerAll (r :: rs) = (some f, h) := by
  simp only [registerAll, register_eq_error_iff.mp refused]

theorem Built.registerAll (built : h.Built) (rs : List (Registration K)) :
    (h.registerAll rs).2.Built := by
  induction rs generalizing h with
  | nil => exact built
  | cons r rs ih =>
      cases registered : h.register r with
      | error f =>
          rw [registerAll_of_error registered]
          exact built
      | ok h' =>
          rw [registerAll_of_ok registered]
          exact ih (.register built registered)

/-- What an accepted registration is asked for and does: it adds its thing to the catalog, or its
probe, and logs. -/
theorem register_cases (ok : h.register r = .ok h') :
    ∃ log, h'.session = { h.session with log } ∧
      ((∃ name scenarios required, r = .contract name scenarios required ∧
          h'.catalog = { h.catalog with
            contracts := h.catalog.contracts ++ [⟨name, scenarios, .ofList required⟩] } ∧
          isKeyPart name = true ∧ (∀ s ∈ scenarios, isKeyPart s.name = true) ∧
          h.catalog.contract? name = none) ∨
        (∃ b, r = .backend b ∧
          h'.catalog = { h.catalog with backends := h.catalog.backends ++ [b] } ∧
          h.catalog.backend? b.identity = none) ∨
        (∃ b, r = .binding b ∧
          h'.catalog = { h.catalog with bindings := h.catalog.bindings ++ [b] } ∧
          isKeyPart b.backend = true ∧ h.catalog.Valid b) ∨
        ∃ resource p, r = .probe resource p ∧ h'.catalog = h.catalog) := by
  rw [register_eq_ok_iff] at ok
  cases r with
  | contract name scenarios required =>
      simp only [attempt] at ok
      split at ok
      · cases ok
      · rename_i checked
        obtain ⟨c, added, rfl⟩ := catalogued_eq_ok ok
        obtain ⟨part, free, catalog⟩ := Catalog.of_addContract added
        exact ⟨_, rfl, .inl ⟨name, scenarios, required, rfl, catalog, part,
          isKeyPart_of_checkScenarios checked, free⟩⟩
  | backend b =>
      obtain ⟨c, added, rfl⟩ := catalogued_eq_ok ok
      obtain ⟨_, free, catalog⟩ := Catalog.of_addBackend added
      exact ⟨_, rfl, .inr (.inl ⟨b, rfl, catalog, free⟩)⟩
  | binding b =>
      obtain ⟨c, added, rfl⟩ := catalogued_eq_ok ok
      obtain ⟨part, _, valid, catalog⟩ := Catalog.of_addBinding added
      exact ⟨_, rfl, .inr (.inr (.inl ⟨b, rfl, catalog, part, valid⟩))⟩
  | probe resource p =>
      cases ok
      exact ⟨_, rfl, .inr (.inr (.inr ⟨resource, p, rfl, rfl⟩))⟩

/-- On a harness that was only built nothing is resolved and nobody is at work. -/
theorem Built.idle (built : h.Built) :
    h.session.contexts = [] ∧ h.session.cache = [] ∧ h.session.busy = [] := by
  induction built with
  | start => exact ⟨rfl, rfl, rfl⟩
  | register _ ok ih =>
      obtain ⟨log, session, _⟩ := register_cases ok
      rw [session]
      exact ih

/-! ### What a catalog holds -/

theorem mem_backends_of_register (ok : h.register r = .ok h') {b : Backend K}
    (member : b ∈ h'.catalog.backends) : b ∈ h.catalog.backends ∨ r = .backend b := by
  obtain ⟨_, _, ⟨_, _, _, _, catalog, _⟩ | ⟨b', rfl, catalog, _⟩ | ⟨_, _, catalog, _⟩ |
    ⟨_, _, _, catalog⟩⟩ := register_cases ok <;> rw [catalog] at member
  · exact .inl member
  · rcases List.mem_append.mp member with old | new
    · exact .inl old
    · exact .inr (congrArg _ (List.mem_singleton.mp new).symm)
  · exact .inl member
  · exact .inl member

theorem uses_of_register (ok : h.register r = .ok h') {recipe : K.Recipe}
    (used : h'.catalog.Uses recipe) :
    h.catalog.Uses recipe ∨
      ∃ name scenarios required, r = .contract name scenarios required ∧
        ∃ s ∈ scenarios, s.recipe = recipe := by
  obtain ⟨_, _, ⟨name, scenarios, required, rfl, catalog, _⟩ | ⟨_, _, catalog, _⟩ |
    ⟨_, _, catalog, _⟩ | ⟨_, _, _, catalog⟩⟩ := register_cases ok <;> rw [catalog] at used
  · obtain ⟨k, member, s, listed, same⟩ := used
    rcases List.mem_append.mp member with old | new
    · exact .inl ⟨k, old, s, listed, same⟩
    · obtain rfl := List.mem_singleton.mp new
      exact .inr ⟨name, scenarios, required, rfl, s, listed, same⟩
  · exact .inl used
  · exact .inl used
  · exact .inl used

/-- A catalog holds no backends but those it had and those that were registered. -/
theorem mem_backends_of_registerAll {rs : List (Registration K)} {b : Backend K}
    (member : b ∈ (h.registerAll rs).2.catalog.backends) :
    b ∈ h.catalog.backends ∨ .backend b ∈ rs := by
  induction rs generalizing h with
  | nil => exact .inl member
  | cons r rs ih =>
      cases registered : h.register r with
      | error f =>
          rw [registerAll_of_error registered] at member
          exact .inl member
      | ok h' =>
          rw [registerAll_of_ok registered] at member
          rcases ih member with before | listed
          · rcases mem_backends_of_register registered before with old | rfl
            · exact .inl old
            · exact .inr List.mem_cons_self
          · exact .inr (List.mem_cons_of_mem _ listed)

/-- A catalog uses no recipes but those it used and those of registered scenarios. -/
theorem uses_of_registerAll {rs : List (Registration K)} {recipe : K.Recipe}
    (used : (h.registerAll rs).2.catalog.Uses recipe) :
    h.catalog.Uses recipe ∨
      ∃ name scenarios required, .contract name scenarios required ∈ rs ∧
        ∃ s ∈ scenarios, s.recipe = recipe := by
  induction rs generalizing h with
  | nil => exact .inl used
  | cons r rs ih =>
      cases registered : h.register r with
      | error f =>
          rw [registerAll_of_error registered] at used
          exact .inl used
      | ok h' =>
          rw [registerAll_of_ok registered] at used
          rcases ih used with before | ⟨name, scenarios, required, listed, inside⟩
          · rcases uses_of_register registered before with
              old | ⟨name, scenarios, required, rfl, inside⟩
            · exact .inl old
            · exact .inr ⟨name, scenarios, required, List.mem_cons_self, inside⟩
          · exact .inr ⟨name, scenarios, required, List.mem_cons_of_mem _ listed, inside⟩

end Harness

/-! ### Tidy catalogs -/

/-- What registrations see to: no name is taken twice, the names can be parts of keys, and the
contracts of every binding are registered. -/
structure Catalog.Tidy (c : Catalog K) : Prop where
  contracts : (c.contracts.map (·.name)).Nodup
  backends : (c.backends.map (·.identity)).Nodup
  named : ∀ k ∈ c.contracts, isKeyPart k.name = true ∧ ∀ s ∈ k.scenarios, isKeyPart s.name = true
  bound : ∀ b ∈ c.bindings, isKeyPart b.backend = true ∧
    ∀ name ∈ b.contracts, ∃ k ∈ c.contracts, k.name = name

namespace Catalog.Tidy

variable {c : Catalog K}

theorem contract?_eq_some_iff (tidy : c.Tidy) {name : String} {k : Contract K.Recipe} :
    c.contract? name = some k ↔ k ∈ c.contracts ∧ k.name = name :=
  find?_eq_some_iff_of_nodup tidy.contracts

theorem backend?_eq_some_iff (tidy : c.Tidy) {identity : String} {b : Backend K} :
    c.backend? identity = some b ↔ b ∈ c.backends ∧ b.identity = identity :=
  find?_eq_some_iff_of_nodup tidy.backends

theorem addContract (tidy : c.Tidy) {k : Contract K.Recipe} (free : c.contract? k.name = none)
    (part : isKeyPart k.name = true) (parts : ∀ s ∈ k.scenarios, isKeyPart s.name = true) :
    Tidy { c with contracts := c.contracts ++ [k] } := by
  refine ⟨nodup_map_snoc tidy.contracts free, tidy.backends, ?_, ?_⟩
  · intro k' member
    rcases List.mem_append.mp member with old | new
    · exact tidy.named k' old
    · obtain rfl := List.mem_singleton.mp new
      exact ⟨part, parts⟩
  · intro b member
    refine ⟨(tidy.bound b member).1, fun name listed => ?_⟩
    obtain ⟨k', registered, same⟩ := (tidy.bound b member).2 name listed
    exact ⟨k', List.mem_append_left _ registered, same⟩

theorem addBinding (tidy : c.Tidy) {b : Binding} (part : isKeyPart b.backend = true)
    (valid : c.Valid b) : Tidy { c with bindings := c.bindings ++ [b] } := by
  refine ⟨tidy.contracts, tidy.backends, tidy.named, ?_⟩
  intro b' member
  rcases List.mem_append.mp member with old | new
  · exact tidy.bound b' old
  · obtain rfl := List.mem_singleton.mp new
    refine ⟨part, fun name listed => ?_⟩
    obtain ⟨k, found, _⟩ := valid name listed
    exact ⟨k, tidy.contract?_eq_some_iff.mp found⟩

end Catalog.Tidy

theorem Harness.Built.tidy {h : Harness K} (built : h.Built) : h.catalog.Tidy := by
  induction built with
  | start => exact ⟨.nil, .nil, by simp [Harness.start, Catalog.empty], by simp [Harness.start, Catalog.empty]⟩
  | register _ ok tidy =>
      obtain ⟨_, _, ⟨_, _, _, _, catalog, part, parts, free⟩ | ⟨_, _, catalog, free⟩ |
        ⟨_, _, catalog, part, valid⟩ | ⟨_, _, _, catalog⟩⟩ := Harness.register_cases ok <;>
        rw [catalog]
      · exact tidy.addContract free part parts
      · exact ⟨tidy.contracts, nodup_map_snoc tidy.backends free, tidy.named, tidy.bound⟩
      · exact tidy.addBinding part valid
      · exact tidy

end Concord
