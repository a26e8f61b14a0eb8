import Concord.Proofs.Registration
import Concord.Samples
import Mathlib.Data.List.Nodup
/-!
How keys are displayed. The separator is two colons, and no part of a key holds it; but a part may
begin or end with one colon, and next to a separator it cannot be seen on which side of it such a
colon stands. Two keys are displayed alike exactly if they differ in nothing else. So the displayed
keys of a plan are distinct if no name of a contract or a scenario begins with a colon, or none of a
backend or a contract ends with one, but not always.
-/

namespace Concord

variable {K : Kit}

/-! ### Texts around a separator -/

theorem Text.occursIn_eq_true_iff {p cs : List Char} : occursIn p cs = true ↔ p <:+: cs := by
  induction cs with
  | nil => simp [occursIn]
  | cons c cs ih => simp [occursIn, ih, List.infix_cons_iff, List.isPrefixOf_iff_prefix]

/-- No separator stands inside. -/
def Unbroken (cs : List Char) : Prop := ¬ [':', ':'] <:+: cs

theorem isKeyPart_iff {name : String} :
    isKeyPart name = true ↔ name ≠ "" ∧ Unbroken name.toList := by
  simp only [isKeyPart, Text.contains, Unbroken, ← Text.occursIn_eq_true_iff, keySeparator]
  simp

theorem not_unbroken (xs ys : List Char) : ¬ Unbroken (xs ++ ':' :: ':' :: ys) := by
  intro unbroken
  exact unbroken ⟨xs, ys, by simp⟩

/-- A text up to a separator is determined but for one colon, if the longer reading is no part. -/
theorem eq_or_colon_of_append {x m r r' : List Char} (unbroken : Unbroken (x ++ m))
    (same : ':' :: ':' :: r = m ++ ':' :: ':' :: r') : m = [] ∧ r = r' ∨ m = [':'] ∧ r = ':' :: r' := by
  match m with
  | [] => exact .inl ⟨rfl, by simpa using same⟩
  | [c] =>
      obtain ⟨rfl, rfl⟩ : ':' = c ∧ r = ':' :: r' := by simpa using same
      exact .inr ⟨rfl, rfl⟩
  | c :: d :: m =>
      obtain ⟨rfl, rfl, _⟩ : ':' = c ∧ ':' = d ∧ r = m ++ ':' :: ':' :: r' := by simpa using same
      exact absurd unbroken (not_unbroken x m)

theorem split_cases {x x' r r' : List Char} (left : Unbroken x) (right : Unbroken x')
    (same : x ++ ':' :: ':' :: r = x' ++ ':' :: ':' :: r') :
    x' = x ∧ r = r' ∨ x' = x ++ [':'] ∧ r = ':' :: r' ∨ x = x' ++ [':'] ∧ r' = ':' :: r := by
  rcases List.append_eq_append_iff.mp same with ⟨m, rfl, rest⟩ | ⟨m, rfl, rest⟩
  · rcases eq_or_colon_of_append right rest with ⟨rfl, rfl⟩ | ⟨rfl, rfl⟩
    · exact .inl ⟨by simp, rfl⟩
    · exact .inr (.inl ⟨rfl, rfl⟩)
  · rcases eq_or_colon_of_append left rest with ⟨rfl, rfl⟩ | ⟨rfl, rfl⟩
    · exact .inl ⟨by simp, rfl⟩
    · exact .inr (.inr ⟨rfl, rfl⟩)

/-! ### Keys that are displayed alike -/

def colons (n : Nat) : String := String.ofList (List.replicate n ':')

@[simp] theorem toList_colons (n : Nat) : (colons n).toList = List.replicate n ':' := by
  simp [colons]

/-- Three texts with `i` and `j` colons around the first separator, `m` and `n` around the second. -/
def Key.around (a b c : String) (i j m n : Nat) : Key :=
  ⟨a ++ colons i, colons j ++ b ++ colons m, colons n ++ c⟩

/-- The keys differ at most in the side of a separator on which colons stand. -/
def Key.Confusable (k k' : Key) : Prop :=
  ∃ a b c i j m n i' j' m' n', k = around a b c i j m n ∧ k' = around a b c i' j' m' n' ∧
    i + j = i' + j' ∧ m + n = m' + n'

namespace Key

variable {k k' : Key}

def Proper (k : Key) : Prop :=
  isKeyPart k.backend = true ∧ isKeyPart k.contract = true ∧ isKeyPart k.scenario = true

theorem Confusable.symm (confusable : k.Confusable k') : k'.Confusable k := by
  obtain ⟨a, b, c, i, j, m, n, i', j', m', n', here, there, first, second⟩ := confusable
  exact ⟨a, b, c, i', j', m', n', i, j, m, n, there, here, first.symm, second.symm⟩

theorem toList_text (k : Key) :
    k.text.toList = k.backend.toList ++ ':' :: ':' ::
      (k.contract.toList ++ ':' :: ':' :: k.scenario.toList) := by
  simp [text, keySeparator]

/-- Only the number of colons around a separator shows. -/
theorem toList_text_around (a b c : String) (i j m n : Nat) :
    (around a b c i j m n).text.toList =
      a.toList ++ List.replicate (i + j + 2) ':' ++ b.toList ++ List.replicate (m + n + 2) ':' ++
        c.toList := by
  have pair (i j : Nat) (cs : List Char) :
      List.replicate i ':' ++ ':' :: ':' :: (List.replicate j ':' ++ cs) =
        List.replicate (i + j + 2) ':' ++ cs := by
    rw [show i + j + 2 = i + (2 + j) by omega, ← List.replicate_append_replicate,
      ← List.replicate_append_replicate]
    simp [List.replicate]
  simp only [toList_text, around, String.toList_append, toList_colons, List.append_assoc, pair]

theorem Confusable.text_eq (confusable : k.Confusable k') : k.text = k'.text := by
  obtain ⟨a, b, c, i, j, m, n, i', j', m', n', rfl, rfl, first, second⟩ := confusable
  rw [← String.toList_inj, toList_text_around, toList_text_around, first, second]

/-- Confusable keys, by the characters of their parts. -/
theorem Confusable.of_toList {a b c : List Char} (i j m n i' j' m' n' : Nat)
    (backend : k.backend.toList = a ++ List.replicate i ':')
    (contract : k.contract.toList = List.replicate j ':' ++ b ++ List.replicate m ':')
    (scenario : k.scenario.toList = List.replicate n ':' ++ c)
    (backend' : k'.backend.toList = a ++ List.replicate i' ':')
    (contract' : k'.contract.toList = List.replicate j' ':' ++ b ++ List.replicate m' ':')
    (scenario' : k'.scenario.toList = List.replicate n' ':' ++ c)
    (first : i + j = i' + j') (second : m + n = m' + n') : k.Confusable k' := by
  refine ⟨.ofList a, .ofList b, .ofList c, i, j, m, n, i', j', m', n', ?_, ?_, first, second⟩
  · obtain ⟨x, y, z⟩ := k
    simp only [around, mk.injEq, ← String.toList_inj]
    simp_all
  · obtain ⟨x, y, z⟩ := k'
    simp only [around, mk.injEq, ← String.toList_inj]
    simp_all

/-- The contracts differ if a colon has moved over the first separator. -/
theorem Confusable.of_longer (proper : k.Proper) (proper' : k'.Proper)
    (longer : k'.backend.toList = k.backend.toList ++ [':'])
    (rest : k.contract.toList ++ ':' :: ':' :: k.scenario.toList =
      ':' :: (k'.contract.toList ++ ':' :: ':' :: k'.scenario.toList)) : k.Confusable k' := by
  obtain ⟨filled, unbroken⟩ := isKeyPart_iff.mp proper.2.1
  obtain ⟨filled', unbroken'⟩ := isKeyPart_iff.mp proper'.2.1
  have some_contract : k.contract.toList ≠ [] := by simpa using filled
  have some_contract' : k'.contract.toList ≠ [] := by simpa using filled'
  generalize contract : k.contract.toList = y at *
  generalize contract' : k'.contract.toList = y' at *
  generalize scenario : k.scenario.toList = z at *
  generalize scenario' : k'.scenario.toList = z' at *
  have begins : ∃ b, y = ':' :: b := by
    cases y with
    | nil => exact absurd rfl some_contract
    | cons c b => exact ⟨b, by rw [(List.cons.inj rest).1]⟩
  obtain ⟨b, rfl⟩ := begins
  have rest' : b ++ ':' :: ':' :: z = y' ++ ':' :: ':' :: z' := by simpa using rest
  have inner : Unbroken b := fun inside => unbroken (inside.trans (List.suffix_cons _ _).isInfix)
  rcases split_cases inner unbroken' rest' with ⟨rfl, rfl⟩ | ⟨rfl, rfl⟩ | ⟨rfl, rfl⟩
  · exact .of_toList (a := k.backend.toList) (b := y') (c := z) 0 1 0 0 1 0 0 0 (by simp)
      (by simp [contract]) (by simp [scenario]) (by simp [longer]) (by simp [contract'])
      (by simp [scenario']) rfl rfl
  · exact .of_toList (a := k.backend.toList) (b := b) (c := z') 0 1 0 1 1 0 1 0 (by simp)
      (by simp [contract]) (by simp [scenario]) (by simp [longer]) (by simp [contract'])
      (by simp [scenario']) rfl rfl
  · exact .of_toList (a := k.backend.toList) (b := y') (c := z) 0 1 1 0 1 0 0 1 (by simp)
      (by simp [contract]) (by simp [scenario]) (by simp [longer]) (by simp [contract'])
      (by simp [scenario']) rfl rfl

/-- Keys are displayed alike exactly if they differ in nothing but the side of a separator on which
colons stand. -/
theorem text_eq_iff (proper : k.Proper) (proper' : k'.Proper) : k.text = k'.text ↔ k.Confusable k' := by
  refine ⟨fun same => ?_, Confusable.text_eq⟩
  rw [← String.toList_inj, toList_text, toList_text] at same
  have unbroken := (isKeyPart_iff.mp proper.1).2
  have unbroken' := (isKeyPart_iff.mp proper'.1).2
  rcases split_cases unbroken unbroken' same with ⟨backend, rest⟩ | ⟨longer, rest⟩ | ⟨longer, rest⟩
  · rcases split_cases (isKeyPart_iff.mp proper.2.1).2 (isKeyPart_iff.mp proper'.2.1).2 rest with
      ⟨contract, scenario⟩ | ⟨contract, scenario⟩ | ⟨contract, scenario⟩
    · exact .of_toList (a := k.backend.toList) (b := k.contract.toList) (c := k.scenario.toList)
        0 0 0 0 0 0 0 0 (by simp) (by simp) (by simp) (by simp [backend]) (by simp [contract])
        (by simp [scenario]) rfl rfl
    · exact .of_toList (a := k.backend.toList) (b := k.contract.toList) (c := k'.scenario.toList)
        0 0 0 1 0 0 1 0 (by simp) (by simp) (by simp [scenario]) (by simp [backend])
        (by simp [contract]) (by simp) rfl rfl
    · exact .of_toList (a := k.backend.toList) (b := k'.contract.toList) (c := k.scenario.toList)
        0 0 1 0 0 0 0 1 (by simp) (by simp [contract]) (by simp) (by simp [backend]) (by simp)
        (by simp [scenario]) rfl rfl
  · exact .of_longer proper proper' longer rest
  · exact (Confusable.of_longer proper' proper longer rest).symm

/-- Where no contract or scenario begins with a colon, all colons around a separator stand before
it. -/
theorem Confusable.eq_of_begins (confusable : k.Confusable k')
    (begins : ∀ x ∈ [k, k'], x.contract.toList.head? ≠ some ':' ∧ x.scenario.toList.head? ≠ some ':') :
    k = k' := by
  have none_before {n : Nat} {cs : List Char}
      (other : (List.replicate n ':' ++ cs).head? ≠ some ':') : n = 0 := by
    cases n with
    | zero => rfl
    | succ n => exact absurd rfl other
  obtain ⟨a, b, c, i, j, m, n, i', j', m', n', rfl, rfl, first, second⟩ := confusable
  simp only [List.mem_cons, List.not_mem_nil, or_false, forall_eq_or_imp, forall_eq, around,
    String.toList_append, toList_colons, List.append_assoc] at begins
  obtain ⟨⟨contract, scenario⟩, contract', scenario'⟩ := begins
  obtain rfl := none_before contract
  obtain rfl := none_before scenario
  obtain rfl := none_before contract'
  obtain rfl := none_before scenario'
  obtain rfl : i = i' := by omega
  obtain rfl : m = m' := by omega
  rfl

/-- Where no backend or contract ends with a colon, all colons around a separator stand after it. -/
theorem Confusable.eq_of_ends (confusable : k.Confusable k')
    (ends : ∀ x ∈ [k, k'], x.backend.toList.getLast? ≠ some ':' ∧ x.contract.toList.getLast? ≠ some ':') :
    k = k' := by
  have none_after {n : Nat} {cs : List Char}
      (other : (cs ++ List.replicate n ':').getLast? ≠ some ':') : n = 0 := by
    cases n with
    | zero => rfl
    | succ n => exact absurd (by simp [List.replicate_succ']) other
  obtain ⟨a, b, c, i, j, m, n, i', j', m', n', rfl, rfl, first, second⟩ := confusable
  simp only [List.mem_cons, List.not_mem_nil, or_false, forall_eq_or_imp, forall_eq, around,
    String.toList_append, toList_colons] at ends
  obtain ⟨⟨backend, contract⟩, backend', contract'⟩ := ends
  obtain rfl := none_after backend
  obtain rfl := none_after contract
  obtain rfl := none_after backend'
  obtain rfl := none_after contract'
  obtain rfl : j = j' := by omega
  obtain rfl : n = n' := by omega
  rfl

end Key

/-! ### The keys of a plan -/

namespace Harness

variable {h : Harness K} {planned : List (Planned K.Recipe)}

theorem Built.proper_of_plan (built : h.Built) (plan : h.catalog.plan = .ok planned)
    {u : TestUnit K.Recipe} (member : u ∈ planned.flatMap (·.units)) : u.key.Proper := by
  obtain ⟨_, _, expands⟩ := Catalog.plan_eq_ok_iff.mp plan
  obtain ⟨p, entry, inside⟩ := List.mem_flatMap.mp member
  have declared : p.binding ∈ h.catalog.bindings := by
    rw [← expands.bindings]
    exact List.mem_map_of_mem entry
  have listed := List.mem_map_of_mem (f := fun u => (u.key, u.scenario)) inside
  rw [expands.units p entry] at listed
  obtain ⟨⟨name, s⟩, duty, same⟩ := List.mem_map.mp listed
  obtain ⟨name', _, there⟩ := List.mem_flatMap.mp duty
  obtain ⟨s', scenario, pair⟩ := List.mem_map.mp there
  cases pair
  unfold Catalog.scenarios at scenario
  cases found : h.catalog.contract? name with
  | none => simp [found] at scenario
  | some k =>
      rw [found] at scenario
      obtain ⟨registered, rfl⟩ := built.tidy.contract?_eq_some_iff.mp found
      obtain ⟨part, parts⟩ := built.tidy.named k registered
      rw [← (Prod.mk.inj same).1]
      exact ⟨(built.tidy.bound _ declared).1, part, parts s scenario⟩

/-- The displayed keys of a plan are distinct exactly if no two of its keys are confusable; it is
enough that no contract or scenario begins with a colon, or that no backend or contract ends with
one. -/
theorem displayed_distinct_iff (built : h.Built) (plan : h.catalog.plan = .ok planned) :
    (∀ u ∈ planned.flatMap (·.units), ∀ v ∈ planned.flatMap (·.units),
        u.key.text = v.key.text ↔ u.key.Confusable v.key) ∧
      (((planned.flatMap (·.units)).map (·.key.text)).Nodup ↔
        ∀ u ∈ planned.flatMap (·.units), ∀ v ∈ planned.flatMap (·.units),
          u.key.Confusable v.key → u.key = v.key) ∧
      ((∀ u ∈ planned.flatMap (·.units),
          u.key.contract.toList.head? ≠ some ':' ∧ u.key.scenario.toList.head? ≠ some ':') ∨
        (∀ u ∈ planned.flatMap (·.units),
          u.key.backend.toList.getLast? ≠ some ':' ∧ u.key.contract.toList.getLast? ≠ some ':') →
        ((planned.flatMap (·.units)).map (·.key.text)).Nodup) := by
  have alike : ∀ u ∈ planned.flatMap (·.units), ∀ v ∈ planned.flatMap (·.units),
      u.key.text = v.key.text ↔ u.key.Confusable v.key := fun u member v member' =>
    Key.text_eq_iff (built.proper_of_plan plan member) (built.proper_of_plan plan member')
  have keys := (Catalog.plan_eq_ok_iff.mp plan).2.2.distinct
  have distinct (apart : ∀ u ∈ planned.flatMap (·.units), ∀ v ∈ planned.flatMap (·.units),
      u.key.Confusable v.key → u.key = v.key) :
      ((planned.flatMap (·.units)).map (·.key.text)).Nodup := by
    rw [List.nodup_iff_pairwise_ne, List.pairwise_map] at keys ⊢
    refine keys.imp_of_mem fun {u v} member member' other same => other ?_
    exact apart u member v member' ((alike u member v member').mp same)
  refine ⟨alike, ⟨fun nodup u member v member' confusable => ?_, distinct⟩, fun colonless => ?_⟩
  · exact congrArg (·.key) (List.inj_on_of_nodup_map nodup member member' confusable.text_eq)
  · refine distinct fun u member v member' confusable => ?_
    rcases colonless with begins | ends
    · exact confusable.eq_of_begins (by simp [begins u member, begins v member'])
    · exact confusable.eq_of_ends (by simp [ends u member, ends v member'])

end Harness

namespace Samples

open PlainText

/-- Two bindings whose one unit each is displayed alike. -/
def ambiguous : Harness kit :=
  ((Harness.start (K := kit) {} (.make false [] []) defaultReplays (numberedRun "run")).registerAll
    [.contract ":B" [⟨"s", "x", .identity, "x", none⟩] [],
     .contract "B" [⟨"s", "x", .identity, "x", none⟩] [], bind "A" [":B"], bind "A:" ["B"]]).2

theorem ambiguous_plan : ∃ planned, ambiguous.catalog.plan = .ok planned ∧
    (planned.flatMap (·.units)).map (·.key) = [⟨"A", ":B", "s"⟩, ⟨"A:", "B", "s"⟩] := by
  have keys : (ambiguous.catalog.plan.toOption.map fun p => (p.flatMap (·.units)).map (·.key)) =
      some [⟨"A", ":B", "s"⟩, ⟨"A:", "B", "s"⟩] := by decide +kernel
  cases plan : ambiguous.catalog.plan with
  | error f => simp [plan, Except.toOption] at keys
  | ok planned => exact ⟨planned, rfl, by simpa [plan, Except.toOption] using keys⟩

end Samples

namespace Harness

/-- The displayed keys of a plan need not be distinct. -/
theorem displayed_distinct_iff_ambiguous : ∃ planned, Samples.ambiguous.catalog.plan = .ok planned ∧
    ¬ ((planned.flatMap (·.units)).map (·.key.text)).Nodup := by
  obtain ⟨planned, plan, keys⟩ := Samples.ambiguous_plan
  refine ⟨planned, plan, fun nodup => ?_⟩
  have built : Samples.ambiguous.Built := Built.registerAll (.start ..) _
  have apart := (displayed_distinct_iff built plan).2.1.mp nodup
  have planned_as {k : Key} (listed : k ∈ [(⟨"A", ":B", "s"⟩ : Key), ⟨"A:", "B", "s"⟩]) :
      ∃ u ∈ planned.flatMap (·.units), u.key = k := List.mem_map.mp (keys ▸ listed)
  obtain ⟨u, member, first⟩ := planned_as List.mem_cons_self
  obtain ⟨v, member', second⟩ := planned_as (List.mem_cons_of_mem _ List.mem_cons_self)
  have confusable : Key.Confusable ⟨"A", ":B", "s"⟩ ⟨"A:", "B", "s"⟩ :=
    ⟨"A", "B", "s", 0, 1, 0, 0, 1, 0, 0, 0, by decide +kernel, by decide +kernel, rfl, rfl⟩
  have same := apart u member v member' (first ▸ second ▸ confusable)
  rw [first, second] at same
  exact absurd same (by decide)

end Harness

end Concord
