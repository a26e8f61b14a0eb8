import Concord.Proofs.Registration
import Concord.Proofs.Restart
import Concord.Samples
/-!
Plain text can be trusted: its parsers raise only what a recipe raises, or ordinary faults about the
character set, and adding an import raises nothing. The sample harness below has units of every
kind: on a parser, on a backend that cannot be constructed, on one that is not registered, and
behind the gate.
-/

namespace Concord.PlainText

theorem contained_refusal {charset source : String} {f : Fault}
    (refused : refusal? charset source = some f) : f.isOrdinary = true := by
  unfold refusal? at refused
  split at refused
  · cases refused
    rfl
  · obtain ⟨text, _, rfl⟩ := Option.map_eq_some_iff.mp refused
    rfl

/-- A plain-text parser behaves as well as the recipes that it is given. -/
theorem parser_wellBehaved (level : Int) (charset : String) (m : Manner) {recipes : Recipe → Prop}
    (contained : ∀ r, recipes r → ∀ s t, Contained (r.apply s t).1) :
    (parser level charset m).WellBehaved recipes := by
  constructor
  case parse =>
    intro source o s f raised
    dsimp -iota only [parser, Fittings.parser, fittings] at raised
    cases refused : refusal? charset source with
    | none =>
        rw [refused] at raised
        cases raised
    | some g =>
        rw [refused] at raised
        cases raised
        exact contained_refusal refused
  case transform =>
    intro tree r o s used
    exact contained r used tree s
  all_goals
    intros
    intro f raised
    cases raised

theorem transform_eq (level : Int) (charset : String) (m : Manner) (tree : Source) (r : Recipe)
    (w : Workings) (t : Tallies) :
    ((parser level charset m).transform tree r w t).result = (r.apply tree t).1 ∧
      ((parser level charset m).transform tree r w t).own = m.note .apply w := by
  rw [parser, Fittings.transform_eq]
  exact ⟨rfl, rfl⟩

theorem parse_parsed (level : Int) (charset : String) (m : Manner) (source : String)
    {w w' : Workings} (same : w.parsed = w'.parsed) (t t' : Tallies) :
    let first := (parser level charset m).parse source w t
    let second := (parser level charset m).parse source w' t'
    first.result = second.result ∧ first.own.parsed = second.own.parsed := by
  dsimp -iota only [parser, Fittings.parser, fittings]
  cases refusal? charset source with
  | none => exact ⟨rfl, by simp only [Manner.parsed_note, same]⟩
  | some f => exact ⟨rfl, by simp only [Manner.parsed_note, same]⟩

/-- With pure recipes, the answers of a plain-text parser depend on how much it has parsed since the
last reset, and on nothing else. -/
theorem respects_parsed (level : Int) (charset : String) (m : Manner) {recipes : Recipe → Prop}
    (pure : ∀ r, recipes r → ∀ source s t, (r.apply source s).1 = (r.apply source t).1) :
    (parser level charset m).Respects recipes fun o₁ o₂ => o₁.parsed = o₂.parsed := by
  intro action o₁ o₂ o₁' o₂' s₁ s₂ s₁' s₂' r₁ r₂ within same taken₁ taken₂
  have noted (c : Call) : (m.note c o₁).parsed = (m.note c o₂).parsed := by
    rw [Manner.parsed_note, Manner.parsed_note, same]
  cases action with
  | reset k =>
      cases taken₁
      cases taken₂
      refine ⟨rfl, ?_⟩
      dsimp only [parser, Fittings.parser, fittings]
      split
      · exact noted .reset
      · rfl
  | parse k source =>
      cases taken₁
      cases taken₂
      exact parse_parsed level charset m source same s₁ s₂
  | transform k tree r =>
      cases taken₁
      cases taken₂
      have first := transform_eq level charset m tree r o₁ s₁
      have second := transform_eq level charset m tree r o₂ s₂
      rw [first.1, first.2, second.1, second.2]
      exact ⟨pure r within tree s₁ s₂, noted .apply⟩
  | print k tree =>
      cases taken₁
      cases taken₂
      refine ⟨?_, noted .print⟩
      dsimp only [parser, Fittings.parser, fittings]
      rw [same]
  | diagnose k tree =>
      cases taken₁
      cases taken₂
      exact ⟨rfl, noted .diagnostics⟩
  | _ => cases taken₁

/-- Unless it sticks to what it has parsed, a plain-text parser starts afresh after a reset. -/
theorem parser_restarts (level : Int) (charset : String) {m : Manner} (resets : m.sticks = false)
    {recipes : Recipe → Prop}
    (pure : ∀ r, recipes r → ∀ source s t, (r.apply source s).1 = (r.apply source t).1)
    (first : Workings) : (parser level charset m).Restarts recipes first := by
  intro o₁ o₂ _ _ s₁ s₂
  refine ⟨rfl, _, respects_parsed level charset m pure, ?_⟩
  dsimp only [parser, Fittings.parser, fittings]
  rw [resets]
  rfl

theorem apply_addImport (fqn : String) (s : Source) (t : Tallies) :
    (Recipe.addImport fqn).apply s t = (.ok (s.withImport fqn), t, false) := by
  simp only [Recipe.apply, Recipe.visit, Returned.onTree]

end Concord.PlainText

namespace Concord.Samples

open PlainText

def mixedRegistrations : List (Registration kit) :=
  [addImport, plain "V8" 8 0 "", plain "V11" 11 1 "",
   backend "Broken" 8 (.raising (.breakdown .runtime "toolchain missing")) 2 "",
   bind "V8" ["AddImport"], bind "Broken" ["AddImport"], bind "Absent" ["AddImport"],
   .binding ⟨"V11", ["AddImport"], true, none⟩]

def mixed : Harness kit :=
  ((Harness.start (K := kit) {} (.make false [] []) defaultReplays (numberedRun "run")).registerAll
    mixedRegistrations).2

theorem mixed_built : mixed.Built := Harness.Built.registerAll (.start ..) _

theorem mixed_uses {r : Recipe} (used : mixed.catalog.Uses r) : r = .addImport "java.util.List" := by
  rcases Harness.uses_of_registerAll used with ⟨_, impossible, _⟩ | ⟨_, _, _, listed, s, inside, same⟩
  · cases impossible
  · simp only [mixedRegistrations, addImport, plain, backend, bind, List.mem_cons, List.not_mem_nil,
      Registration.contract.injEq, reduceCtorEq, or_false] at listed
    obtain ⟨_, rfl, _⟩ := listed
    simp only [List.mem_cons, List.not_mem_nil, or_false] at inside
    rcases inside with rfl | rfl <;> exact same.symm

theorem mixed_pure {r : Recipe} (used : mixed.catalog.Uses r) (source : PlainText.Source)
    (s t : Tallies) :
    (r.apply source s).1 = (r.apply source t).1 := by
  rw [mixed_uses used, apply_addImport, apply_addImport]

theorem mixed_constructs {b : Backend kit} (member : b ∈ mixed.catalog.backends) :
    (∃ level, ∀ s, (b.construct s).result =
        .ok (PlainText.fresh (parser level defaultCharset .plain))) ∨
      ∀ s, (b.construct s).result = .error (.breakdown .runtime "toolchain missing") := by
  rcases Harness.mem_backends_of_registerAll member with impossible | listed
  · cases impossible
  · simp only [mixedRegistrations, addImport, plain, backend, bind, List.mem_cons, List.not_mem_nil,
      Registration.backend.injEq, reduceCtorEq, or_false, false_or] at listed
    rcases listed with rfl | rfl | rfl
    · exact .inl ⟨8, fun s => rfl⟩
    · exact .inl ⟨11, fun s => rfl⟩
    · exact .inr fun s => rfl

theorem mixed_wellBehaved : mixed.catalog.WellBehaved := by
  have contained : ∀ r, mixed.catalog.Uses r → ∀ s t, Contained (r.apply s t).1 := by
    intro r used s t f raised
    rw [mixed_uses used, apply_addImport] at raised
    cases raised
  intro b member
  rcases mixed_constructs member with ⟨level, returns⟩ | raises
  · constructor
    · intro s f raised
      rw [returns] at raised
      cases raised
    · intro s x built
      rw [returns] at built
      cases built
      exact ⟨_, rfl, parser_wellBehaved level defaultCharset .plain contained⟩
  · constructor
    · intro s f raised
      rw [raises] at raised
      cases raised
      rfl
    · intro s x built
      rw [raises] at built
      cases built

theorem mixed_probes : mixed.environment.ProbesContained := by
  have none : mixed.environment.probes.isEmpty = true := by decide +kernel
  intro p member
  rw [List.isEmpty_iff.mp none] at member
  cases member

theorem mixed_plan : ∃ planned, mixed.catalog.plan = .ok planned ∧
    (planned.flatMap (·.units)).length = 8 := by
  have counted : (mixed.catalog.plan.toOption.map fun p => (p.flatMap (·.units)).length) =
      some 8 := by decide +kernel
  cases plan : mixed.catalog.plan with
  | error f => simp [plan, Except.toOption] at counted
  | ok planned => exact ⟨planned, rfl, by simpa [plan, Except.toOption] using counted⟩

theorem mixed_runName : mixed.runName (mixed.runs + 1) = "run-0001" := by decide +kernel

end Concord.Samples
