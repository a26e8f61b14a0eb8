import Concord.PlainText.Blueprint
import Concord.Proofs.Replay
import Mathlib.Control.Monad.Basic
/-!
What is left of the past. Before each replay a parser is reset, and a plain-text parser that takes
notice of it has parsed one source whenever it prints. So with a pure recipe every replay comes to the
same, whatever was done with the parser before, also where a call had raised in the middle of a replay.
Replays that all come to the same get one verdict, however many they are.
-/

namespace Concord

variable {K : Kit} {α : Type}

/-! ### Replays that come to the same -/

theorem judge_replicate {ρ : Type} (key : Key) (sc : Scenario ρ) (r : Rendering) (n : Nat) :
    judge key sc (List.replicate (n + 1) r) = judge key sc [r] := by
  have agreed : agree (r :: List.replicate n r) = true := by simp [agree]
  have alone : agree [r] = true := rfl
  simp only [List.replicate_succ, judge, agreed, alone, if_true]

namespace Parser

variable {p : Parser K} {sc : Scenario K.Recipe}

theorem replays_of_render {r : Rendering}
    (rendered : ∀ own shared, (p.render sc own shared).result = .ok r) (n : Nat) (own : K.Own)
    (shared : K.Shared) : (p.replays sc n own shared).result = .ok (List.replicate n r) := by
  induction n generalizing own shared with
  | zero => rfl
  | succ n ih =>
      simp only [Parser.replays, Played.andThen, rendered own shared, ih]
      rfl

/-- Replays of the scenario come to the same, in whatever states they begin. -/
def Uniform (p : Parser K) (sc : Scenario K.Recipe) : Prop :=
  ∀ own own' shared shared', (p.render sc own shared).result = (p.render sc own' shared').result

/-- However many such replays there are, their verdict is the one on a single replay. -/
theorem Uniform.verdict_eq (uniform : p.Uniform sc) (key : Key) {n : Nat} (positive : 1 ≤ n)
    (own own' : K.Own) (shared shared' : K.Shared) :
    (p.verdict n key sc own shared).result = (p.verdict 1 key sc own' shared').result := by
  obtain ⟨n, rfl⟩ := Nat.exists_eq_add_of_le' positive
  cases rendered : (p.render sc own shared).result with
  | error f =>
      have rendered' := (uniform own' own shared' shared).trans rendered
      simp only [Parser.verdict, Parser.replays, Played.andThen, rendered, rendered']
  | ok r =>
      have always (own' : K.Own) (shared' : K.Shared) :=
        (uniform own' own shared' shared).trans rendered
      simp only [Parser.verdict, Played.andThen, replays_of_render always]
      exact judge_replicate key sc r n

end Parser

/-! ### Uses of an instance -/

/-- What a caller may do with an instance: a single call, one replay of a scenario, or an execution. -/
inductive Use (K : Kit)
  | reset
  | parse (source : String)
  | transform (tree : K.Tree) (recipe : K.Recipe)
  | print (tree : K.Tree)
  | diagnose (tree : K.Tree)
  | render (sc : Scenario K.Recipe)
  | execute (replays : Nat) (key : Key) (sc : Scenario K.Recipe)

namespace Session

/-- The session after a use of the instance `i`, whether it returned or raised. -/
def use (i : Nat) (s : Session K) : Use K → Session K
  | .reset => ((Work.act (.reset i)).alone s).2
  | .parse source => ((Work.act (.parse i source)).alone s).2
  | .transform tree recipe => ((Work.act (.transform i tree recipe)).alone s).2
  | .print tree => ((Work.act (.print i tree)).alone s).2
  | .diagnose tree => ((Work.act (.diagnose i tree)).alone s).2
  | .render sc => ((Concord.render i sc).alone s).2
  | .execute n key sc => ((Concord.execute n (some i) key sc).alone s).2

def useAll (i : Nat) (s : Session K) (history : List (Use K)) : Session K := history.foldl (use i) s

/-- The instance `i` has the parser `p`, in whatever state, and just these backends are in use. -/
structure Offers (s : Session K) (i : Nat) (p : Parser K) (busy : List String) : Prop where
  at_i : ∃ own, s.instances[i]? = some ⟨p, own⟩
  busy : s.busy = busy

namespace Offers

variable {s : Session K} {i : Nat} {p : Parser K} {busy : List String}

theorem plays (offers : s.Offers i p busy) {w : Work K (Except Fault α)}
    {f : K.Own → K.Shared → Played K α} (plays : Work.Plays i p w f) :
    (w.alone s).2.Offers i p busy := by
  obtain ⟨own, at_i⟩ := offers.at_i
  obtain ⟨log, ends⟩ := plays "MainThread" s own at_i
  have inside : i < s.instances.length := (List.getElem?_eq_some_iff.mp at_i).1
  simp only [Work.alone, ends]
  exact ⟨⟨(f own s.shared).own, by simp [inside]⟩, offers.busy⟩

/-- Where its backend is in use an execution waits, and nothing is done. -/
theorem execute (offers : s.Offers i p busy) (n : Nat) (key : Key) (sc : Scenario K.Recipe) :
    ((Concord.execute n (some i) key sc).alone s).2.Offers i p busy := by
  by_cases used : key.backend ∈ s.busy
  · have waits : (Concord.execute n (some i) key sc).advance true "MainThread" s =
        (Concord.execute n (some i) key sc, s) := by
      rw [execute_eq]
      simp only [Work.advance, Procedure.advance, Session.perform, used, if_true]
    simpa only [Work.alone, waits] using offers
  · obtain ⟨own, at_i⟩ := offers.at_i
    obtain ⟨log, ends⟩ := advance_execute at_i used n sc "MainThread"
    have inside : i < s.instances.length := (List.getElem?_eq_some_iff.mp at_i).1
    simp only [Work.alone, ends]
    exact ⟨⟨(p.verdict n key sc own s.shared).own, by simp [inside]⟩, offers.busy⟩

theorem use (offers : s.Offers i p busy) (u : Use K) : (s.use i u).Offers i p busy := by
  cases u with
  | reset =>
      exact offers.plays (Work.Plays.call (f := fun q => q.reset) fun _ _ _ _ called =>
        Work.advance_act (a := .reset i) called)
  | parse source =>
      exact offers.plays (Work.Plays.call (f := fun q => q.parse source) fun _ _ _ _ called =>
        Work.advance_act (a := .parse i source) called)
  | transform tree recipe =>
      exact offers.plays (Work.Plays.call (f := fun q => q.transform tree recipe) fun _ _ _ _ called =>
        Work.advance_act (a := .transform i tree recipe) called)
  | print tree =>
      exact offers.plays (Work.Plays.call (f := fun q => q.print tree) fun _ _ _ _ called =>
        Work.advance_act (a := .print i tree) called)
  | diagnose tree =>
      exact offers.plays (Work.Plays.call (f := fun q => q.diagnostics tree) fun _ _ _ _ called =>
        Work.advance_act (a := .diagnose i tree) called)
  | render sc => exact offers.plays (Work.Plays.render sc)
  | execute n key sc => exact offers.execute n key sc

theorem useAll (offers : s.Offers i p busy) (history : List (Use K)) :
    (s.useAll i history).Offers i p busy := by
  induction history generalizing s with
  | nil => exact offers
  | cons u history ih => exact ih (offers.use u)

/-- On a backend that is free an execution ends, with the verdict in the state of the instance. -/
theorem alone_execute (offers : s.Offers i p busy) {key : Key} (free : key.backend ∉ busy) (n : Nat)
    (sc : Scenario K.Recipe) :
    ∃ own, ((Concord.execute n (some i) key sc).alone s).1 =
      some (p.verdict n key sc own s.shared).result := by
  obtain ⟨own, at_i⟩ := offers.at_i
  rw [← offers.busy] at free
  obtain ⟨log, ends⟩ := advance_execute at_i free n sc "MainThread"
  refine ⟨own, ?_⟩
  simp only [Work.alone, ends, Procedure.value?]

end Offers

end Session

/-! ### Plain text -/

namespace PlainText

variable {ρ σ : Type}

/-- What the recipe does to a tree depends on nothing but the tree. -/
def Fittings.Pure (f : Fittings ρ σ) (r : ρ) : Prop :=
  ∀ tree t t', (f.apply r tree t).1 = (f.apply r tree t').1

/-- What a replay renders that follows a reset: one source was parsed. -/
def Fittings.rendered (f : Fittings ρ σ) (level : Int) (sc : Scenario ρ) (t : σ) :
    Except Fault Rendering :=
  match f.refusal? sc.input with
  | some fault => .error fault
  | none =>
      (f.apply sc.recipe ⟨sc.input, level, []⟩ t).1.map fun tree => ⟨f.printed tree 1, tree.markers⟩

theorem Fittings.result_render (f : Fittings ρ σ) (level : Int) {m : Manner}
    (resets : m.sticks = false) (sc : Scenario ρ) (w : Workings) (t : σ) :
    ((f.parser level m).render sc w t).result = f.rendered level sc t := by
  unfold Fittings.rendered Parser.render
  simp only [Reply.played, Fittings.reset_eq, resets, Played.andThen_ok]
  cases refused : f.refusal? sc.input with
  | some fault => simp only [f.parse_of_refusal level m refused, Played.andThen]
  | none =>
      simp only [f.parse_of_none level m refused, Played.andThen_ok, Fittings.transform_eq]
      rcases f.apply sc.recipe ⟨sc.input, level, []⟩ t with ⟨fault | tree, t', slow⟩
      · rfl
      · simp [Fittings.print_eq, Fittings.diagnostics_eq, Except.map]

theorem Fittings.uniform (f : Fittings ρ σ) (level : Int) {m : Manner} (resets : m.sticks = false)
    {sc : Scenario ρ} (pure : f.Pure sc.recipe) : (f.parser level m).Uniform sc := by
  intro w w' t t'
  rw [f.result_render level resets, f.result_render level resets]
  unfold Fittings.rendered
  rw [pure ⟨sc.input, level, []⟩ t t']

/-- After any history of uses an execution with a pure recipe ends as it does on a fresh parser, which
may be asked for another number of replays. -/
theorem execute_forgets (f : Fittings ρ σ) (level : Int) {m : Manner} (resets : m.sticks = false)
    {sc : Scenario ρ} (pure : f.Pure sc.recipe) (key : Key) {x y : Session (kitOf ρ σ)} {i j : Nat}
    (fresh_x : x.instances[i]? = some ⟨f.parser level m, {}⟩) (free_x : key.backend ∉ x.busy)
    (fresh_y : y.instances[j]? = some ⟨f.parser level m, {}⟩) (free_y : key.backend ∉ y.busy)
    (history : List (Use (kitOf ρ σ))) (n n' : Nat) (positive : 1 ≤ n) (positive' : 1 ≤ n') :
    ∃ v, ((execute n (some i) key sc).alone (x.useAll i history)).1 = some v ∧
      ((execute n' (some j) key sc).alone y).1 = some v := by
  have uniform := f.uniform level resets pure
  have used : (x.useAll i history).Offers i (f.parser level m) x.busy :=
    Session.Offers.useAll ⟨⟨_, fresh_x⟩, rfl⟩ history
  have unused : y.Offers j (f.parser level m) y.busy := ⟨⟨_, fresh_y⟩, rfl⟩
  obtain ⟨own, ends⟩ := used.alone_execute free_x n sc
  obtain ⟨own', ends'⟩ := unused.alone_execute free_y n' sc
  refine ⟨_, ends, ends'.trans ?_⟩
  rw [uniform.verdict_eq key positive own own (x.useAll i history).shared y.shared,
    uniform.verdict_eq key positive' own' own y.shared y.shared]

end PlainText

namespace Samples

open PlainText

/-- A parser for ASCII sources that prints how many it has parsed. -/
def telltale : Fittings Recipe Tallies := fittings "ascii" { leaks := true }

def counter : Session kit := { shared := {}, instances := [⟨telltale.parser 8 {}, {}⟩] }

def imported : Scenario Recipe :=
  ⟨"imported", "class A {}", .addImport "java.util.List", "import java.util.List;\n\nclass A {} #1",
    none⟩

/-- A source that is refused, a recipe that raises, replays that are divided, and a recipe that returns
no tree. -/
def checkered : List (Use kit) :=
  [.parse "é", .parse "x", .transform ⟨"x", 8, []⟩ (.exploding "boom"),
   .execute 2 ⟨"V8", "C", "drift"⟩ ⟨"drift", "x", .drifting 0, "x", none⟩,
   .render ⟨"none", "x", .returnsNone 1, "x", none⟩, .parse "y", .print ⟨"y", 8, []⟩]

/-- Two sources were parsed since the last reset, and yet both executions print that it was one. -/
theorem execute_forgets_checkered :
    (counter.useAll 0 checkered).instances.map (·.own.parsed) = [2] ∧
      ((execute 2 (some 0) ⟨"V8", "C", "imported"⟩ imported).alone (counter.useAll 0 checkered)).1 =
        some (.ok imported.expected) ∧
      ((execute 3 (some 0) ⟨"V8", "C", "imported"⟩ imported).alone counter).1 =
        some (.ok imported.expected) := by
  have pure : telltale.Pure imported.recipe := by
    intro tree t t'
    simp only [telltale, fittings, imported, Recipe.apply, Recipe.visit]
  have parsed : (counter.useAll 0 checkered).instances.map (·.own.parsed) = [2] := by decide +kernel
  have fresh : ((execute 3 (some 0) ⟨"V8", "C", "imported"⟩ imported).alone counter).1 =
      some (.ok imported.expected) := by decide +kernel
  have here : counter.instances[0]? = some ⟨telltale.parser 8 {}, {}⟩ := rfl
  have free : "V8" ∉ counter.busy := by simp [counter]
  obtain ⟨v, ends, ends'⟩ := execute_forgets telltale 8 rfl pure ⟨"V8", "C", "imported"⟩ here free here
    free checkered 2 3 (by decide) (by decide)
  exact ⟨parsed, ends.trans (ends'.symm.trans fresh), fresh⟩

end Samples

end Concord
