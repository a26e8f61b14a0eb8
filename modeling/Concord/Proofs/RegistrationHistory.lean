import Concord.Proofs.RegistrationOrder
/-!
Histories of registrations, of which some are refused. A refused registration changes nothing and an
accepted one adds its thing behind what is there, so that a catalog lists the accepted registrations in
their order and keeps each of them. What was checked when a binding was accepted is therefore still so
when the plan is made, but for one thing: a backend that was not registered then may have been
registered since. So a plan is refused for missing features only where a backend came later than a
binding to it.
-/

namespace Concord

variable {K : Kit}

/-! ### Growth -/

/-- What stands in `c` stands in `c'`, at the same place. -/
structure Catalog.Extends (c c' : Catalog K) : Prop where
  contracts : c.contracts <+: c'.contracts
  backends : c.backends <+: c'.backends
  bindings : c.bindings <+: c'.bindings

namespace Catalog.Extends

variable {c c' : Catalog K}

theorem contract? (grown : c.Extends c') {name : String} {k : Contract K.Recipe}
    (found : c.contract? name = some k) : c'.contract? name = some k :=
  grown.contracts.find?_eq_some found

theorem backend? (grown : c.Extends c') {identity : String} {b : Backend K}
    (found : c.backend? identity = some b) : c'.backend? identity = some b :=
  grown.backends.find?_eq_some found

end Catalog.Extends

namespace Harness

variable {h h' : Harness K} {r : Registration K} {rs : List (Registration K)}

theorem registerEach_append (h : Harness K) (rs rs' : List (Registration K)) :
    h.registerEach (rs ++ rs') = (h.registerEach rs).registerEach rs' := by
  induction rs generalizing h with
  | nil => rfl
  | cons r rs ih => exact ih (h.attempt r).2

/-- The registrations that are accepted, in their order. -/
def accepted (h : Harness K) : List (Registration K) → List (Registration K)
  | [] => []
  | r :: rs =>
      match h.attempt r with
      | (some _, h) => h.accepted rs
      | (none, h) => r :: h.accepted rs

theorem accepted_of_ok (ok : h.register r = .ok h') (rs : List (Registration K)) :
    h.accepted (r :: rs) = r :: h'.accepted rs := by
  simp only [accepted, register_eq_ok_iff.mp ok]

theorem accepted_of_error {f : Fault} (refused : h.register r = .error f)
    (rs : List (Registration K)) : h.accepted (r :: rs) = h.accepted rs := by
  simp only [accepted, register_eq_error_iff.mp refused]

/-- A part of the catalog, and what a registration adds to it if it is accepted. -/
structure Store (K : Kit) (α : Type) where
  items : Catalog K → List α
  item? : Registration K → Option α
  adds : ∀ {h h' : Harness K} {r : Registration K}, h.register r = .ok h' →
    items h'.catalog = items h.catalog ++ (item? r).toList

def contractStore : Store K (Contract K.Recipe) :=
  ⟨(·.contracts), (·.contract?), fun ok => by rw [catalog_of_register ok]⟩

def backendStore : Store K (Backend K) :=
  ⟨(·.backends), (·.backend?), fun ok => by rw [catalog_of_register ok]⟩

def bindingStore : Store K Binding :=
  ⟨(·.bindings), (·.binding?), fun ok => by rw [catalog_of_register ok]⟩

namespace Store

variable {α : Type}

/-- A store lists what it held, and then what was accepted. -/
theorem items_registerEach (store : Store K α) (h : Harness K) (rs : List (Registration K)) :
    store.items (h.registerEach rs).catalog =
      store.items h.catalog ++ (h.accepted rs).filterMap store.item? := by
  induction rs generalizing h with
  | nil => simp [registerEach, accepted]
  | cons r rs ih =>
      cases registered : h.register r with
      | ok h' =>
          rw [registerEach_of_ok registered, accepted_of_ok registered, ih, store.adds registered,
            filterMap_cons_eq, List.append_assoc]
      | error f => rw [registerEach_of_error registered, accepted_of_error registered, ih]

theorem grows (store : Store K α) (h : Harness K) (rs : List (Registration K)) :
    store.items h.catalog <+: store.items (h.registerEach rs).catalog :=
  ⟨_, (store.items_registerEach h rs).symm⟩

/-- Whatever has come into a store was put there by a registration that was accepted when the store
held just what stands before it. -/
theorem entered (store : Store K α) {before after : List α} {x : α}
    (listed : store.items (h.registerEach rs).catalog = before ++ x :: after)
    (new : (store.items h.catalog).length ≤ before.length) :
    ∃ earlier r later h', rs = earlier ++ r :: later ∧ store.item? r = some x ∧
      (h.registerEach earlier).register r = .ok h' ∧
      store.items (h.registerEach earlier).catalog = before := by
  induction rs generalizing h with
  | nil =>
      have long := congrArg List.length listed
      simp only [registerEach, List.length_append, List.length_cons] at long
      omega
  | cons r rs ih =>
      cases registered : h.register r with
      | error f =>
          rw [registerEach_of_error registered] at listed
          obtain ⟨earlier, r', later, h', rfl, item, accepted, held⟩ := ih listed new
          refine ⟨r :: earlier, r', later, h', rfl, item, ?_, ?_⟩ <;>
            rwa [registerEach_of_error registered]
      | ok h₁ =>
          rw [registerEach_of_ok registered] at listed
          by_cases later : (store.items h₁.catalog).length ≤ before.length
          · obtain ⟨earlier, r', later, h', rfl, item, accepted, held⟩ := ih listed later
            refine ⟨r :: earlier, r', later, h', rfl, item, ?_, ?_⟩ <;>
              rwa [registerEach_of_ok registered]
          · -- This registration has put it there.
            obtain ⟨more, grown⟩ := store.grows h₁ rs
            rw [listed, store.adds registered] at grown
            cases item : store.item? r with
            | none =>
                rw [store.adds registered, item] at later
                simp only [Option.toList_none, List.append_nil] at later
                exact absurd new later
            | some y =>
                rw [store.adds registered, item] at later
                rw [item, Option.toList_some, List.append_assoc] at grown
                simp only [Option.toList_some, List.length_append, List.length_singleton] at later
                have long : (store.items h.catalog).length = before.length := by omega
                obtain ⟨same, rest⟩ := List.append_inj grown long
                obtain ⟨rfl, _⟩ := List.cons.inj rest
                exact ⟨[], r, rs, h₁, rfl, item, registered, same⟩

end Store

theorem extends_registerEach (h : Harness K) (rs : List (Registration K)) :
    h.catalog.Extends (h.registerEach rs).catalog :=
  ⟨contractStore.grows h rs, backendStore.grows h rs, bindingStore.grows h rs⟩

theorem extends_of_split (first : Harness K) {before after : List (Registration K)}
    (split : rs = before ++ after) :
    (first.registerEach before).catalog.Extends (first.registerEach rs).catalog := by
  rw [split, registerEach_append]
  exact extends_registerEach _ _

theorem of_register_binding {b : Binding} (ok : h.register (.binding b) = .ok h') :
    isKeyPart b.backend = true ∧ b.contracts ≠ [] ∧ h.catalog.Valid b := by
  obtain ⟨c, added, _⟩ := catalogued_eq_ok (register_eq_ok_iff.mp ok)
  obtain ⟨part, named, valid, _⟩ := Catalog.of_addBinding added
  exact ⟨part, named, valid⟩

/-! ### Late backends -/

/-- A backend that lacks features of a contract was registered after it was bound to the contract. -/
inductive CameLate (first : Harness K) (rs : List (Registration K)) (backend contract : String)
    (missing : NameSet) : Prop
  | mk {before middle after : List (Registration K)} {b : Binding} {x : Backend K}
      {k : Contract K.Recipe} {h h' : Harness K}
      (history : rs = before ++ .binding b :: (middle ++ .backend x :: after))
      (declared : (first.registerEach before).register (.binding b) = .ok h)
      (bound : b.backend = backend ∧ contract ∈ b.contracts)
      (unregistered : (first.registerEach before).catalog.backend? backend = none)
      (registered : (first.registerEach (before ++ .binding b :: middle)).register (.backend x) = .ok h')
      (identity : x.identity = backend)
      (found : (first.registerEach rs).catalog.contract? contract = some k)
      (exactly : ∀ feature, feature ∈ missing ↔ feature ∈ k.required ∧ feature ∉ x.features)

/-- A backend that is found in the end under an identity that was free has been registered since. -/
theorem registered_since {identity : String} {x : Backend K}
    (free : h.catalog.backend? identity = none)
    (found : (h.registerEach rs).catalog.backend? identity = some x) :
    x.identity = identity ∧ ∃ middle after h', rs = middle ++ .backend x :: after ∧
      (h.registerEach middle).register (.backend x) = .ok h' := by
  have named : x.identity = identity := by simpa using List.find?_some found
  refine ⟨named, ?_⟩
  obtain ⟨more, grown⟩ := backendStore.grows h rs
  have absent : x ∉ h.catalog.backends := fun member => by
    simpa [named] using List.find?_eq_none.mp free x member
  have inside : x ∈ more := by
    have member : x ∈ (h.registerEach rs).catalog.backends := List.mem_of_find?_eq_some found
    rw [show (h.registerEach rs).catalog.backends = h.catalog.backends ++ more from grown.symm] at member
    exact (List.mem_append.mp member).resolve_left absent
  obtain ⟨since, rest, rfl⟩ := List.append_of_mem inside
  have listed : backendStore.items (h.registerEach rs).catalog =
      (h.catalog.backends ++ since) ++ x :: rest := by
    rw [List.append_assoc]
    exact grown.symm
  obtain ⟨middle, r, after, h', history, item, accepted, _⟩ :=
    backendStore.entered listed (by simp [backendStore])
  cases r <;> cases item
  exact ⟨middle, after, h', history, accepted⟩

/-- What is missing at a declared binding was not yet there to be missed when it was declared. -/
theorem cameLate_of_offends {first : Harness K} {before after : List Binding} {b : Binding}
    {name backend contract : String} {missing : NameSet}
    (listed : (first.registerEach rs).catalog.bindings = before ++ b :: after)
    (new : first.catalog.bindings.length ≤ before.length) (asked : name ∈ b.contracts)
    (offends : (first.registerEach rs).catalog.Offends b.backend name
      (.missingFeatures backend contract missing)) :
    CameLate first rs backend contract missing := by
  obtain ⟨earlier, r, later, h₁, history, item, declared, _⟩ := bindingStore.entered listed new
  cases r <;> cases item
  have rest : first.registerEach rs = h₁.registerEach later := by
    rw [history, registerEach_append, registerEach_of_ok declared]
  generalize ended : Fault.missingFeatures backend contract missing = f at offends
  cases offends with
  | unknown => cases ended
  | @unsupported k x _ found registered exactly lacking =>
      cases ended
      have since := extends_of_split first history
      have free : (first.registerEach earlier).catalog.backend? b.backend = none := by
        -- Had it been there, its features would have been checked.
        cases there : (first.registerEach earlier).catalog.backend? b.backend with
        | none => rfl
        | some x' =>
            obtain ⟨k', found', supports⟩ := (of_register_binding declared).2.2 name asked
            obtain rfl := Option.some.inj ((since.contract? found').symm.trans found)
            obtain rfl := Option.some.inj ((since.backend? there).symm.trans registered)
            obtain ⟨feature, member⟩ := lacking
            obtain ⟨required, absent⟩ := (exactly feature).mp member
            exact absurd (supports x' there feature required) absent
      have unmoved : h₁.catalog.backend? b.backend = none := by
        rw [catalog_of_register declared]
        simpa [Catalog.backend?, Registration.backend?] using free
      rw [rest] at registered
      obtain ⟨identity, middle, end_, h₂, rfl, accepted⟩ := registered_since unmoved registered
      rw [← registerEach_of_ok declared, ← registerEach_append] at accepted
      exact .mk history declared ⟨rfl, asked⟩ free accepted identity found exactly

/-! ### All histories -/

/-- What holds after registrations of which some may have been refused. -/
structure Chronicled (first : Harness K) (rs : List (Registration K)) : Prop where
  refused : ∀ before r after f, rs = before ++ r :: after →
    ((first.registerEach before).attempt r).1 = some f →
      first.registerEach (before ++ [r]) = first.registerEach before
  kept : ∀ before after, rs = before ++ after →
    (first.registerEach before).catalog.Extends (first.registerEach rs).catalog ∧
      (∀ name k, (first.registerEach before).catalog.contract? name = some k →
        (first.registerEach rs).catalog.contract? name = some k) ∧
      ∀ identity b, (first.registerEach before).catalog.backend? identity = some b →
        (first.registerEach rs).catalog.backend? identity = some b
  listed : (first.registerEach rs).catalog =
    { contracts := (first.accepted rs).filterMap (·.contract?)
      backends := (first.accepted rs).filterMap (·.backend?)
      bindings := (first.accepted rs).filterMap (·.binding?) }
  names : ((first.registerEach rs).catalog.contracts.map (·.name)).Nodup
  identities : ((first.registerEach rs).catalog.backends.map (·.identity)).Nodup
  bound : ∀ b ∈ (first.registerEach rs).catalog.bindings, isKeyPart b.backend = true ∧
    b.contracts ≠ [] ∧ ∀ name ∈ b.contracts,
      ∃ k, (first.registerEach rs).catalog.contract? name = some k
  unplanned : ∀ f, (first.registerEach rs).plan.1 = .error f →
    (∃ backend contract missing, f = .missingFeatures backend contract missing) ∨
      ∃ key, f = .duplicateUnit key
  late : ∀ backend contract missing,
    (first.registerEach rs).plan.1 = .error (.missingFeatures backend contract missing) →
      CameLate first rs backend contract missing

section

variable {first : Harness K} (empty : first.catalog = .empty)

include empty

/-- What was checked of a binding when it was declared still holds of it. -/
theorem bound_of_declared {b : Binding} (member : b ∈ (first.registerEach rs).catalog.bindings) :
    isKeyPart b.backend = true ∧ b.contracts ≠ [] ∧
      ∀ name ∈ b.contracts, ∃ k, (first.registerEach rs).catalog.contract? name = some k := by
  obtain ⟨before, after, listed⟩ := List.append_of_mem member
  obtain ⟨earlier, r, later, h₁, history, item, declared, _⟩ :=
    bindingStore.entered listed (by simp [bindingStore, empty, Catalog.empty])
  cases r <;> cases item
  obtain ⟨part, named, valid⟩ := of_register_binding declared
  refine ⟨part, named, fun name asked => ?_⟩
  obtain ⟨k, found, _⟩ := valid name asked
  exact ⟨k, (extends_of_split first history).contract? found⟩

/-- A plan is refused for features that a late backend lacks, or for a repeated unit. -/
theorem plan_refused_cases {f : Fault} (refused : (first.registerEach rs).plan.1 = .error f) :
    (∃ backend contract missing, f = .missingFeatures backend contract missing ∧
        CameLate first rs backend contract missing) ∨ ∃ key, f = .duplicateUnit key := by
  rw [plan_eq_catalog_plan] at refused
  cases Catalog.plan_eq_error_iff.mp refused with
  | duplicate => exact .inr ⟨_, rfl⟩
  | @offence before after b names rest name _ bindings _ contracts _ offends =>
      have asked : name ∈ b.contracts := by simp [contracts]
      cases offends with
      | unknown unregistered =>
          have member : b ∈ (first.registerEach rs).catalog.bindings := by simp [bindings]
          obtain ⟨k, found⟩ := (bound_of_declared empty member).2.2 name asked
          rw [found] at unregistered
          cases unregistered
      | unsupported found registered exactly lacking =>
          have late := cameLate_of_offends bindings (by simp [empty, Catalog.empty]) asked
            (.unsupported found registered exactly lacking)
          exact .inl ⟨_, _, _, rfl, late⟩

/-- A catalog is what was accepted. -/
theorem catalog_registerEach (rs : List (Registration K)) :
    (first.registerEach rs).catalog =
      { contracts := (first.accepted rs).filterMap (·.contract?)
        backends := (first.accepted rs).filterMap (·.backend?)
        bindings := (first.accepted rs).filterMap (·.binding?) } := by
  have contracts := contractStore.items_registerEach first rs
  have backends := backendStore.items_registerEach first rs
  have bindings := bindingStore.items_registerEach first rs
  simp only [contractStore, backendStore, bindingStore, empty, Catalog.empty, List.nil_append]
    at contracts backends bindings
  rw [← contracts, ← backends, ← bindings]

end

/-- Every history of registrations on a new harness. -/
theorem chronicled_start (shared : K.Shared) (base : Environment K.Shared) (replays : Nat)
    (runName : Nat → String) (headStart : Nat → Nat) (rs : List (Registration K)) :
    Chronicled (.start shared base replays runName headStart) rs := by
  have tidy := ((Built.start shared base replays runName headStart).registerEach rs).tidy
  generalize started : Harness.start shared base replays runName headStart = first at tidy ⊢
  have empty : first.catalog = .empty := by
    rw [← started]
    rfl
  constructor
  case refused =>
    intro before r after f _ error
    rw [registerEach_append]
    exact attempt_of_fault error
  case kept =>
    intro before after split
    have growth := extends_of_split first split
    exact ⟨growth, fun _ _ => growth.contract?, fun _ _ => growth.backend?⟩
  case listed => exact catalog_registerEach empty rs
  case names => exact tidy.contracts
  case identities => exact tidy.backends
  case bound => exact fun b member => bound_of_declared empty member
  case unplanned =>
    intro f refused
    rcases plan_refused_cases empty refused with ⟨backend, contract, missing, rfl, _⟩ | duplicate
    · exact .inl ⟨backend, contract, missing, rfl⟩
    · exact .inr duplicate
  case late =>
    intro backend contract missing refused
    rcases plan_refused_cases empty refused with ⟨_, _, _, same, late⟩ | ⟨key, same⟩
    · cases same
      exact late
    · cases same

end Harness

end Concord
