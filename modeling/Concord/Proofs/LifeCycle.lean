import Concord.Proofs.UnitResult
import Mathlib.Data.List.Chain
/-!
The life cycle of a unit. Moves may be attempted in any order and with anything that they can carry.
Those that are accepted go along a small graph, of which no path is longer than three edges, and a
refused move leaves nothing behind. So a unit holds what the one move carried that ended it, and as
long as it is on its way it holds nothing.
-/

namespace Concord

variable {ρ : Type}

/-! ### The graph -/

namespace Phase

/-- The edges of the life cycle. -/
inductive Edge : Phase → Phase → Prop
  | resolve : Edge .pending .resolving
  | skip : Edge .pending .skipped
  | run : Edge .resolving .running
  | unresolved : Edge .resolving .errored
  | pass : Edge .running .passed
  | fail : Edge .running .failed
  | err : Edge .running .errored

theorem edge_iff {p q : Phase} : p.Edge q ↔ q ∈ p.successors := by
  constructor
  · intro edge
    cases edge <;> decide
  · intro next
    cases p <;> cases q <;> first | exact absurd next (by decide) | constructor

/-- The number of edges that lie behind a phase. -/
def rank : Phase → Nat
  | .pending => 0
  | .resolving => 1
  | .running => 2
  | _ => 3

theorem rank_le (p : Phase) : p.rank ≤ 3 := by
  cases p <;> decide

theorem Edge.rank_lt {p q : Phase} (edge : p.Edge q) : p.rank < q.rank := by
  cases edge <;> decide

/-- A final phase is never left. -/
theorem Edge.isFinal_eq_false {p q : Phase} (edge : p.Edge q) : p.isFinal = false := by
  cases edge <;> rfl

end Phase

namespace TestUnit

/-! ### Attempts -/

/-- The unit after attempts at moves, of which some are refused. -/
def attempted (u : TestUnit ρ) (moves : List Move) : TestUnit ρ := moves.foldl moved u

/-- The moves that are accepted. -/
def accepted (u : TestUnit ρ) : List Move → List Move
  | [] => []
  | m :: moves =>
      match u.attempt m with
      | (some _, u) => u.accepted moves
      | (none, u) => m :: u.accepted moves

theorem attempt_of_edge {u : TestUnit ρ} {m : Move} (edge : u.phase.Edge m.target) :
    u.attempt m = (none, u.moved m) := by
  rw [moved, attempt, if_pos (Phase.edge_iff.mp edge)]

theorem attempt_of_not_edge {u : TestUnit ρ} {m : Move} (forbidden : ¬ u.phase.Edge m.target) :
    u.attempt m = (some (.illegalMove u.key u.phase.text m.target.text), u) :=
  if_neg fun next => forbidden (Phase.edge_iff.mpr next)

theorem moved_of_not_edge {u : TestUnit ρ} {m : Move} (forbidden : ¬ u.phase.Edge m.target) :
    u.moved m = u := by
  rw [moved, attempt_of_not_edge forbidden]

theorem move_eq_ok_iff {u v : TestUnit ρ} {m : Move} :
    u.move m = .ok v ↔ u.phase.Edge m.target ∧ v = u.moved m := by
  rw [move, granted_eq_ok_iff]
  by_cases edge : u.phase.Edge m.target
  · simp [attempt_of_edge edge, edge, eq_comm]
  · simp [attempt_of_not_edge edge, edge]

theorem accepted_of_edge {u : TestUnit ρ} {m : Move} (edge : u.phase.Edge m.target)
    (moves : List Move) : u.accepted (m :: moves) = m :: (u.moved m).accepted moves := by
  simp only [accepted, attempt_of_edge edge]

theorem accepted_of_not_edge {u : TestUnit ρ} {m : Move} (forbidden : ¬ u.phase.Edge m.target)
    (moves : List Move) : u.accepted (m :: moves) = u.accepted moves := by
  simp only [accepted, attempt_of_not_edge forbidden]

theorem attempted_cons (u : TestUnit ρ) (m : Move) (moves : List Move) :
    u.attempted (m :: moves) = (u.moved m).attempted moves := rfl

theorem phase_moved {u : TestUnit ρ} {m : Move} (edge : u.phase.Edge m.target) :
    (u.moved m).phase = m.target := by
  rw [moved_of_mem (Phase.edge_iff.mp edge)]

theorem key_attempted (u : TestUnit ρ) (moves : List Move) : (u.attempted moves).key = u.key := by
  induction moves generalizing u with
  | nil => rfl
  | cons m moves ih => rw [attempted_cons, ih, key_moved]

/-- The accepted moves go along the graph, from the phase of the unit to the one that it has come
to. -/
theorem path_accepted (u : TestUnit ρ) (moves : List Move) :
    List.IsChain Phase.Edge (u.phase :: (u.accepted moves).map Move.target) ∧
      (u.attempted moves).phase = ((u.accepted moves).map Move.target).getLastD u.phase := by
  induction moves generalizing u with
  | nil => exact ⟨.singleton _, rfl⟩
  | cons m moves ih =>
      rw [attempted_cons]
      by_cases edge : u.phase.Edge m.target
      · obtain ⟨chain, arrived⟩ := ih (u.moved m)
        rw [phase_moved edge] at chain arrived
        rw [accepted_of_edge edge, List.map_cons, List.getLastD_cons]
        exact ⟨.cons_cons edge chain, arrived⟩
      · rw [accepted_of_not_edge edge, moved_of_not_edge edge]
        exact ih u

theorem length_accepted (u : TestUnit ρ) (moves : List Move) :
    u.phase.rank + (u.accepted moves).length ≤ 3 := by
  induction moves generalizing u with
  | nil => exact u.phase.rank_le
  | cons m moves ih =>
      by_cases edge : u.phase.Edge m.target
      · have rest := ih (u.moved m)
        have further := edge.rank_lt
        rw [phase_moved edge] at rest
        rw [accepted_of_edge edge, List.length_cons]
        omega
      · rw [accepted_of_not_edge edge]
        exact ih u

theorem attempted_of_final {u : TestUnit ρ} (final : u.phase.isFinal = true) (moves : List Move) :
    u.attempted moves = u ∧ u.accepted moves = [] := by
  have forbidden (m : Move) : ¬ u.phase.Edge m.target := by
    intro edge
    rw [edge.isFinal_eq_false] at final
    cases final
  induction moves with
  | nil => exact ⟨rfl, rfl⟩
  | cons m moves ih =>
      rw [attempted_cons, accepted_of_not_edge (forbidden m), moved_of_not_edge (forbidden m)]
      exact ih

/-! ### What a unit holds -/

/-- A unit after the accepted moves: on its way with nothing noted, or ended by the last of them. -/
inductive Standing (u : TestUnit ρ) : List Move → TestUnit ρ → Prop
  | onWay {done : List Move} {p : Phase} : p.isFinal = false →
      (∀ m ∈ done, m.target.isFinal = false) → Standing u done (u.onWay p)
  | ended {done : List Move} {p : Phase} {m : Move} : (∀ m ∈ done, m.target.isFinal = false) →
      p.Edge m.target → m.target.isFinal = true → Standing u (done ++ [m]) ((u.onWay p).moved m)

/-- A move that does not end a unit carries nothing. -/
theorem moved_onWay {u : TestUnit ρ} {p : Phase} {m : Move} (edge : p.Edge m.target)
    (further : m.target.isFinal = false) : (u.onWay p).moved m = u.onWay m.target := by
  rw [moved_of_mem (Phase.edge_iff.mp edge)]
  cases m <;> first | rfl | cases further

theorem Standing.move {u v : TestUnit ρ} {done : List Move} (standing : u.Standing done v)
    {m : Move} (edge : v.phase.Edge m.target) : u.Standing (done ++ [m]) (v.moved m) := by
  cases standing with
  | @onWay _ p onTheWay before =>
      have edge' : p.Edge m.target := edge
      cases final : m.target.isFinal with
      | true => exact .ended before edge' final
      | false =>
          rw [moved_onWay edge' final]
          refine .onWay final fun x member => ?_
          rcases List.mem_append.mp member with earlier | last
          · exact before x earlier
          · rw [List.mem_singleton.mp last, final]
  | @ended before p last earlier edge' final =>
      -- A unit that was ended has no way to go on.
      rw [phase_moved (u := u.onWay p) edge'] at edge
      rw [edge.isFinal_eq_false] at final
      cases final

theorem Standing.attempted {u v : TestUnit ρ} {done : List Move} (standing : u.Standing done v)
    (moves : List Move) : u.Standing (done ++ v.accepted moves) (v.attempted moves) := by
  induction moves generalizing v done with
  | nil =>
      rw [accepted, List.append_nil]
      exact standing
  | cons m moves ih =>
      rw [attempted_cons]
      by_cases edge : v.phase.Edge m.target
      · rw [accepted_of_edge edge, List.append_cons]
        exact ih (standing.move edge)
      · rw [accepted_of_not_edge edge, moved_of_not_edge edge]
        exact ih standing

/-- What is reported of a unit after the accepted moves. A unit that was ended is reported with
exactly what the one move carried that ended it. -/
structure Reports (done : List Move) (v : TestUnit ρ) : Prop where
  unexplained_iff : v.result.reason = none ↔ v.phase = .passed
  stuck_iff : v.result.outcome = .stuck ∧ v.result.reason = some .timeout ∧
    v.result.actual = none ∧ v.result.detail = s!"unit left in state {v.phase.text}" ↔
      v.phase.isFinal = false
  textless : v.phase = .skipped ∨ v.phase = .errored → v.result.actual = none
  ended : v.phase.isFinal = true → ∃ m, done.filter (·.target.isFinal) = [m] ∧
    v.phase = m.target ∧ v.result.reason = m.reason? ∧ v.result.actual = m.actual? ∧
    v.result.detail = m.detail

theorem outcome_eq_stuck_iff (v : TestUnit ρ) : v.outcome = .stuck ↔ v.phase.isFinal = false := by
  unfold outcome
  cases v.phase <;> simp [Phase.isFinal]

theorem reports_onWay (u : TestUnit ρ) {p : Phase} (further : p.isFinal = false)
    (done : List Move) :
    (u.onWay p).Reports done := by
  have phase : (u.onWay p).phase = p := rfl
  constructor <;> rw [u.result_onWay further, phase]
  · constructor
    · intro unexplained
      cases unexplained
    · rintro rfl
      cases further
  · exact ⟨fun _ => further, fun _ => ⟨rfl, rfl, rfl, rfl⟩⟩
  · exact fun _ => rfl
  · intro final
    rw [further] at final
    cases final

theorem reports_ended (u : TestUnit ρ) {p : Phase} {m : Move} {done : List Move}
    (earlier : ∀ x ∈ done, x.target.isFinal = false) (edge : p.Edge m.target)
    (final : m.target.isFinal = true) : ((u.onWay p).moved m).Reports (done ++ [m]) := by
  have phase : ((u.onWay p).moved m).phase = m.target := phase_moved (u := u.onWay p) edge
  have settled : ((u.onWay p).moved m).outcome ≠ .stuck := by
    rw [ne_eq, outcome_eq_stuck_iff, phase, final]
    decide
  constructor <;> rw [u.result_onWay_moved (Phase.edge_iff.mp edge) final, phase]
  · cases m <;> simp [Move.reason?, Move.target] at final ⊢ <;> cases final
  · constructor
    · rintro ⟨stuck, _⟩
      exact absurd stuck settled
    · intro further
      rw [final] at further
      cases further
  · cases m <;> simp [Move.actual?, Move.target]
  · intro _
    refine ⟨m, ?_, rfl, rfl, rfl, rfl⟩
    rw [List.filter_append, List.filter_eq_nil_iff.mpr]
    · simp [final]
    · intro x member
      simp [earlier x member]

theorem Standing.reports {u v : TestUnit ρ} {done : List Move} (standing : u.Standing done v) :
    v.Reports done := by
  cases standing with
  | onWay further _ => exact u.reports_onWay further done
  | ended earlier edge final => exact u.reports_ended earlier edge final

/-- What any attempts at moves come to, for a unit that was pending and of which nothing was
noted. -/
structure Lived (u : TestUnit ρ) (moves : List Move) : Prop where
  path : List.IsChain Phase.Edge (.pending :: (u.accepted moves).map Move.target)
  arrived : (u.attempted moves).phase = ((u.accepted moves).map Move.target).getLastD .pending
  short : (u.accepted moves).length ≤ 3
  absorbed : (u.attempted moves).phase.isFinal = true → ∀ later,
    (u.attempted moves).attempted later = u.attempted moves ∧
      (u.attempted moves).accepted later = []
  granted_iff : ∀ m v, (u.attempted moves).move m = .ok v ↔
    (u.attempted moves).phase.Edge m.target ∧ v = (u.attempted moves).moved m
  refused_iff : ∀ m f, ((u.attempted moves).attempt m).1 = some f ↔
    ¬ (u.attempted moves).phase.Edge m.target ∧
      f = .illegalMove u.key (u.attempted moves).phase.text m.target.text
  unchanged : ∀ m f, ((u.attempted moves).attempt m).1 = some f →
    ((u.attempted moves).attempt m).2 = u.attempted moves
  reports : (u.attempted moves).Reports (u.accepted moves)

/-- The life cycle of a unit, under attempts at any moves with whatever they carry. -/
theorem life_cycle (key : Key) (s : Scenario ρ) (moves : List Move) :
    Lived { key, scenario := s } moves := by
  let u : TestUnit ρ := { key, scenario := s }
  obtain ⟨path, arrived⟩ := u.path_accepted moves
  have short := u.length_accepted moves
  have standing : u.Standing [] u := .onWay (p := .pending) rfl (by simp)
  refine ⟨path, arrived, ?_, attempted_of_final, fun _ _ => move_eq_ok_iff, fun m f => ?_,
    fun m f refused => ?_, (standing.attempted moves).reports⟩
  · exact (Nat.le_add_left _ _).trans short
  · rw [fst_attempt_eq_some_iff, Phase.edge_iff, key_attempted]
  · exact moved_of_not_edge fun edge =>
      (fst_attempt_eq_some_iff.mp refused).1 (Phase.edge_iff.mp edge)

end TestUnit

end Concord
