import Concord.PlainText.Blueprint
import Concord.Proofs.Replay
import Mathlib.Control.Monad.Basic
/-!
Parity of language levels. A plain-text parser writes its level on every tree and never looks at it
again. Where a recipe does not look at it either, and leaves it as it is, two parsers that differ in
nothing but their level render the same in every replay, from the same states and into the same states.
Of the recipes at hand that is so for every one in which the recipe that prints the level has no part.
-/

namespace Concord

/-- Executions of the scenario on the two parsers, begun in the same states, end alike: both with the
same text or the same fault, and with the same state of what is shared. -/
def Parser.Parity {K : Kit} (p q : Parser K) (sc : Scenario K.Recipe) : Prop :=
  ∀ (n : Nat) (key : Key) (own : K.Own) (x y : Session K) (i j : Nat),
    x.instances[i]? = some ⟨p, own⟩ → y.instances[j]? = some ⟨q, own⟩ → x.shared = y.shared →
    key.backend ∉ x.busy → key.backend ∉ y.busy →
    ∃ v, ((execute n (some i) key sc).alone x).1 = some v ∧
      ((execute n (some j) key sc).alone y).1 = some v ∧
      ((execute n (some i) key sc).alone x).2.shared = ((execute n (some j) key sc).alone y).2.shared

theorem Parser.parity_of_replays {K : Kit} {p q : Parser K} {sc : Scenario K.Recipe}
    (same : ∀ n own shared, q.replays sc n own shared = p.replays sc n own shared) : p.Parity q sc := by
  intro n key own x y i j at_i at_j shared free_x free_y
  obtain ⟨log, ends⟩ := advance_execute at_i free_x n sc "MainThread"
  obtain ⟨log', ends'⟩ := advance_execute at_j free_y n sc "MainThread"
  have verdict : q.verdict n key sc own y.shared = p.verdict n key sc own x.shared := by
    simp only [Parser.verdict, same, shared]
  simp only [Work.alone, ends, ends', verdict, Procedure.value?]
  exact ⟨_, rfl, rfl, trivial⟩

namespace PlainText

variable {ρ σ : Type}

/-! ### Trees on another level -/

def Source.onLevel (s : Source) (level : Int) : Source := { s with level }

def Returned.onLevel (level : Int) : Returned → Returned
  | .tree s => .tree (s.onLevel level)
  | r => r

def Visit.onLevel (v : Visit) (level : Int) : Visit :=
  { v with result := v.result.map (Returned.onLevel level) }

/-- The recipe neither reads nor changes the level of a tree: on another level it does the same, and
what it returns is on that level. -/
def Fittings.Blind (f : Fittings ρ σ) (r : ρ) : Prop :=
  ∀ (tree : Source) (level : Int) (t : σ),
    f.apply r (tree.onLevel level) t =
      ((f.apply r tree t).1.map (·.onLevel level), (f.apply r tree t).2)

/-- What is printed of a tree does not tell its level. -/
def Fittings.PrintsBlind (f : Fittings ρ σ) : Prop :=
  ∀ (tree : Source) (level : Int) (parsed : Nat),
    f.printed (tree.onLevel level) parsed = f.printed tree parsed

/-! ### Recipes -/

namespace Recipe

mutual

/-- Whether the recipe that prints the level has no part in this one. -/
def levelFree : Recipe → Bool
  | .level _ => false
  | .chain _ members => levelFreeAll members
  | _ => true

def levelFreeAll : List Recipe → Bool
  | [] => true
  | m :: ms => levelFree m && levelFreeAll ms

end

/-- A visit that is made to a tree only, and there does the same on another level. -/
theorem onTree_onLevel (x : Returned) (asked : String) (level : Int) (t : Tallies)
    {g : Source → Except Fault Returned}
    (blind : ∀ s, g (s.onLevel level) = (g s).map (Returned.onLevel level)) :
    (⟨(x.onLevel level).onTree asked g, t, false⟩ : Visit) =
      Visit.onLevel ⟨x.onTree asked g, t, false⟩ level := by
  cases x with
  | tree s => simp only [Returned.onLevel, Returned.onTree, Visit.onLevel, blind s]
  | text text => rfl
  | nothing => rfl

theorem withImport_onLevel (s : Source) (level : Int) (fqn : String) :
    (s.onLevel level).withImport fqn = (s.withImport fqn).onLevel level := by
  have lines : (s.onLevel level).lines = s.lines := rfl
  simp only [Source.withImport, lines]
  split <;> rfl

theorem withMentions_onLevel (s : Source) (level : Int) (name : String) :
    (s.onLevel level).withMentions name = (s.withMentions name).onLevel level := by
  have mentions : (s.onLevel level).mentions name = s.mentions name := rfl
  unfold Source.withMentions
  rw [mentions]
  clear mentions
  generalize s.mentions name = found
  induction found generalizing s with
  | nil => rfl
  | cons n found ih => exact ih (s.withMarker s!"found {name} at line {n}")

mutual

/-- On another level a recipe that is free of levels does the same, also to what is no tree. -/
theorem visit_onLevel (r : Recipe) (free : r.levelFree = true) (x : Returned) (level : Int)
    (t : Tallies) : r.visit (x.onLevel level) t = (r.visit x t).onLevel level := by
  cases r with
  | identity => rfl
  | addImport fqn =>
      simp only [visit]
      refine onTree_onLevel x _ level _ fun s => ?_
      simp only [withImport_onLevel, Except.map, Returned.onLevel]
  | findType name =>
      simp only [visit]
      refine onTree_onLevel x _ level _ fun s => ?_
      simp only [withMentions_onLevel, Except.map, Returned.onLevel]
  | exploding text => rfl
  | datum d => rfl
  | drifting tag =>
      simp only [visit]
      exact onTree_onLevel x _ level _ fun s => rfl
  | driftingMarker tag =>
      simp only [visit]
      exact onTree_onLevel x _ level _ fun s => rfl
  | raising tag f => rfl
  | replace tag old new =>
      simp only [visit]
      exact onTree_onLevel x _ level _ fun s => rfl
  | mark tag marker =>
      simp only [visit]
      exact onTree_onLevel x _ level _ fun s => rfl
  | level tag => cases free
  | cycle tag texts =>
      simp only [visit]
      split
      · rfl
      · exact onTree_onLevel x _ level _ fun s => rfl
  | chain tag members =>
      simp only [visit]
      exact visitAll_onLevel members (by simpa only [levelFree] using free) x level t
  | returnsText tag =>
      simp only [visit]
      exact onTree_onLevel x _ level _ fun s => rfl
  | returnsNone tag => rfl
  | block tag => rfl

theorem visitAll_onLevel (rs : List Recipe) (free : levelFreeAll rs = true) (x : Returned)
    (level : Int) (t : Tallies) :
    visitAll rs (x.onLevel level) t = (visitAll rs x t).onLevel level := by
  cases rs with
  | nil => rfl
  | cons m ms =>
      obtain ⟨free_m, free_ms⟩ : m.levelFree = true ∧ levelFreeAll ms = true := by
        simpa only [levelFreeAll, Bool.and_eq_true] using free
      simp only [visitAll, visit_onLevel m free_m x level t]
      rcases m.visit x t with ⟨f | x', t', slow⟩
      · rfl
      · simp only [Visit.onLevel, Except.map, visitAll_onLevel ms free_ms x' level t']

end

theorem apply_onLevel {r : Recipe} (free : r.levelFree = true) (s : Source) (level : Int)
    (t : Tallies) :
    r.apply (s.onLevel level) t = ((r.apply s t).1.map (·.onLevel level), (r.apply s t).2) := by
  have visited := visit_onLevel r free (.tree s) level t
  unfold apply
  split
  · rfl
  · rw [show Returned.tree (s.onLevel level) = (Returned.tree s).onLevel level from rfl, visited]
    rcases r.visit (.tree s) t with ⟨f | ⟨s'⟩ | text | _, t', slow⟩ <;> rfl

end Recipe

theorem Manner.printed_onLevel (m : Manner) (tree : Source) (level : Int) (parsed : Nat) :
    m.printed (tree.onLevel level) parsed = m.printed tree parsed := rfl

/-! ### Parsers -/

/-- A replay leads from the same states to the same rendering and the same states on any level. -/
theorem Fittings.render_level {f : Fittings ρ σ} (prints : f.PrintsBlind) {sc : Scenario ρ}
    (blind : f.Blind sc.recipe) (level level' : Int) (m : Manner) (w : Workings) (t : σ) :
    (f.parser level' m).render sc w t = (f.parser level m).render sc w t := by
  unfold Parser.render
  simp only [Reply.played, Fittings.reset_eq, Played.andThen_ok]
  cases refused : f.refusal? sc.input with
  | some fault => simp only [f.parse_of_refusal _ m refused, Played.andThen]
  | none =>
      -- The two trees that were parsed are the same but for their levels.
      have moved : (⟨sc.input, level', []⟩ : Source) = Source.onLevel ⟨sc.input, level, []⟩ level' := rfl
      have applied := blind ⟨sc.input, level, []⟩ level' t
      simp only [f.parse_of_none _ m refused, Played.andThen_ok, Fittings.transform_eq, moved, applied]
      rcases f.apply sc.recipe ⟨sc.input, level, []⟩ t with ⟨fault | tree, t', slow⟩
      · rfl
      · have printed := prints tree level'
        simp only [Except.map, Played.andThen_ok, Fittings.print_eq, Fittings.diagnostics_eq, printed]
        rfl

theorem Fittings.replays_level {f : Fittings ρ σ} (prints : f.PrintsBlind) {sc : Scenario ρ}
    (blind : f.Blind sc.recipe) (level level' : Int) (m : Manner) (n : Nat) (w : Workings) (t : σ) :
    (f.parser level' m).replays sc n w t = (f.parser level m).replays sc n w t := by
  induction n generalizing w t with
  | zero => rfl
  | succ n ih => simp only [Parser.replays, Fittings.render_level prints blind level level', ih]

theorem fittings_printsBlind (charset : String) (m : Manner) : (fittings charset m).PrintsBlind :=
  m.printed_onLevel

/-- Parsers that differ in nothing but their level end every execution alike if the recipe neither
reads nor changes levels, whatever state it keeps and whatever it raises. Every recipe at hand is such
a recipe unless the one that prints the level has a part in it. -/
theorem execute_level_parity :
    (∀ {ρ σ : Type} (f : Fittings ρ σ) (m : Manner) (sc : Scenario ρ) (level level' : Int),
      f.PrintsBlind → f.Blind sc.recipe → (f.parser level m).Parity (f.parser level' m) sc) ∧
    ∀ (charset : String) (m : Manner) (sc : Scenario Recipe) (level level' : Int),
      sc.recipe.levelFree = true → (parser level charset m).Parity (parser level' charset m) sc := by
  constructor
  · intro ρ σ f m sc level level' prints blind
    exact Parser.parity_of_replays (Fittings.replays_level prints blind level level' m)
  · intro charset m sc level level' free
    have blind : (fittings charset m).Blind sc.recipe := fun tree l t => Recipe.apply_onLevel free tree l t
    exact Parser.parity_of_replays
      (Fittings.replays_level (fittings_printsBlind charset m) blind level level' m)

end PlainText

namespace Samples

open PlainText

def levelled (level : Int) : Session kit :=
  { shared := {}, instances := [⟨parser level defaultCharset .plain, {}⟩] }

/-- A recipe that keeps count and is composed of others. -/
def wavering : Scenario Recipe :=
  ⟨"wavering", "x", .chain 0 [.cycle 1 ["a", "b"], .chain 2 [.mark 3 "seen", .drifting 4]], "a // 0",
    none⟩

def waveringKey : Key := ⟨"V", "C", "wavering"⟩

/-- Both levels find the same two renderings. -/
theorem execute_level_parity_wavering :
    wavering.recipe.levelFree = true ∧
      ∃ v, v = .error (.flaky waveringKey "a // 0"
          ["a // 0\n[diagnostics] seen", "b // 1\n[diagnostics] seen"]) ∧
        ((execute 2 (some 0) waveringKey wavering).alone (levelled 8)).1 = some v ∧
        ((execute 2 (some 0) waveringKey wavering).alone (levelled 11)).1 = some v := by
  have free : wavering.recipe.levelFree = true := by decide +kernel
  have told : ((execute 2 (some 0) waveringKey wavering).alone (levelled 8)).1 =
      some (.error (.flaky waveringKey "a // 0"
        ["a // 0\n[diagnostics] seen", "b // 1\n[diagnostics] seen"])) := by decide +kernel
  obtain ⟨v, ends, ends', -⟩ := execute_level_parity.2 defaultCharset .plain wavering 8 11 free 2
    waveringKey {} (levelled 8) (levelled 11) 0 0 rfl rfl rfl (by simp [levelled]) (by simp [levelled])
  exact ⟨free, v, Option.some.inj (ends.symm.trans told), ends, ends'⟩

def telling : Scenario Recipe := ⟨"telling", "x", .level 0, "x @8", none⟩

/-- The recipe that prints the level tells the parsers apart. -/
example : ((execute 1 (some 0) waveringKey telling).alone (levelled 8)).1 = some (.ok "x @8") ∧
    ((execute 1 (some 0) waveringKey telling).alone (levelled 11)).1 =
      some (.error (.mismatch waveringKey "x @8" "x @11" "output")) := by decide +kernel

end Samples

end Concord
