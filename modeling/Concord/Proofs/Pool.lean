import Concord.Proofs.Launch
import Concord.Proofs.Stint
/-!
Workers at the jobs of a run, in any interleaving. A step of a job is one action of its worker, or
one move of its unit; a queued job is taken up in plan order, when a worker is free. Every state that
such a run can reach is tracked: each job is where its deeds have led it, the session is sound for
all resolutions, and the busy backends are those that somebody holds. It follows that the workers
never wait for each other in a circle.
-/

namespace Concord

variable {K : Kit}

/-! ### Steps of jobs -/

/-- One step of a worker at its unit, with the deed if it was one. -/
inductive Job.Step (catalog : Catalog K) (replays : Nat) :
    Job K → Session K → Option (Deed K) → Job K → Session K → Prop
  | begins (u : TestUnit K.Recipe) (s : Session K) :
      Step catalog replays ⟨u, .queued⟩ s none
        ⟨u.moved .resolve, .resolving (resolve catalog u.key.backend)⟩ s
  | resolves {u : TestUnit K.Recipe} {action : Action K}
      {next : action.Answer → Work K (Except Fault (Option Nat))} {r : action.Answer}
      {s s' : Session K} (thread : String)
      (performed : Session.perform true thread action s = some (r, s')) :
      Step catalog replays ⟨u, .resolving (Procedure.act action next)⟩ s (some ⟨action, r⟩)
        ⟨u, .resolving (next r)⟩ s'
  | obtains (u : TestUnit K.Recipe) (i : Option Nat) (s : Session K) :
      Step catalog replays ⟨u, .resolving (.done (.ok i))⟩ s none
        ⟨u.moved .run, .running (execute replays i u.key u.scenario)⟩ s
  | fails (u : TestUnit K.Recipe) (f : Fault) (s : Session K) (thread : String) :
      Step catalog replays ⟨u, .resolving (.done (.error f))⟩ s none ⟨(unresolved u f).1, .over⟩
        (s.write thread (unresolved u f).2)
  | executes {u : TestUnit K.Recipe} {action : Action K}
      {next : action.Answer → Work K (Except Fault String)} {r : action.Answer}
      {s s' : Session K} (thread : String)
      (performed : Session.perform true thread action s = some (r, s')) :
      Step catalog replays ⟨u, .running (Procedure.act action next)⟩ s (some ⟨action, r⟩)
        ⟨u, .running (next r)⟩ s'
  | ends (u : TestUnit K.Recipe) (r : Except Fault String) (s : Session K) (thread : String) :
      Step catalog replays ⟨u, .running (.done r)⟩ s none ⟨(executed u r).1, .over⟩
        (s.write thread (executed u r).2)

def Job.isActive (j : Job K) : Bool := !j.stage.isOver && !j.stage.isQueued

/-- The jobs of a run and the session that their workers share. -/
structure Pool (K : Kit) where
  jobs : List (Job K)
  session : Session K

/-- One step of the pool: a job goes on. A queued job is the first one in the queue, and there is a
worker to take it. -/
inductive Pool.Step (catalog : Catalog K) (replays workers : Nat) :
    Pool K → Nat × Option (Deed K) → Pool K → Prop
  | step {x : Pool K} {p : Nat} {j j' : Job K} {d : Option (Deed K)} {s : Session K}
      (here : x.jobs[p]? = some j) (goes : j.Step catalog replays x.session d j' s)
      (turn : j.stage.isQueued = true →
        (∀ q < p, ∀ i, x.jobs[q]? = some i → i.stage.isQueued = false) ∧
          x.jobs.countP Job.isActive < workers) :
      Step catalog replays workers x (p, d) ⟨x.jobs.set p j', s⟩

inductive Pool.Run (catalog : Catalog K) (replays workers : Nat) :
    Pool K → List (Nat × Option (Deed K)) → Pool K → Prop
  | nil (x : Pool K) : Run catalog replays workers x [] x
  | cons {x y z : Pool K} {l : Nat × Option (Deed K)} {t : List (Nat × Option (Deed K))} :
      Step catalog replays workers x l y → Run catalog replays workers y t z →
      Run catalog replays workers x (l :: t) z

def Pool.Complete (x : Pool K) : Prop := ∀ j ∈ x.jobs, j.stage.isOver = true

namespace Pool

def deeds (p : Nat) (t : List (Nat × Option (Deed K))) : List (Deed K) :=
  (t.filterMap fun l => if l.1 = p then l.2 else none).filter (!·.isWrite)

theorem deeds_snoc_self (p : Nat) (t : List (Nat × Option (Deed K))) (d : Option (Deed K)) :
    deeds p (t ++ [(p, d)]) = deeds p t ++ d.toList.filter (!·.isWrite) := by
  cases d <;> simp [deeds]

theorem deeds_snoc_of_ne {p q : Nat} (other : p ≠ q) (t : List (Nat × Option (Deed K)))
    (d : Option (Deed K)) : deeds q (t ++ [(p, d)]) = deeds q t := by
  simp [deeds, other]

end Pool

/-! ### Where a job is -/

/-- How a job of a decided unit stands: how far its resolution is, what was done at it, and what is
left. -/
inductive Job.Stands (catalog : Catalog K) (replays : Nat) :
    TestUnit K.Recipe × Bool → Ask → List (Deed K) → Job K → Prop
  | rejected (u : TestUnit K.Recipe) :
      Stands catalog replays (u, false) (.start catalog u.key.backend) []
        ⟨u.moved (.skip .gate), .over⟩
  | queued (u : TestUnit K.Recipe) :
      Stands catalog replays (u, true) (.start catalog u.key.backend) [] ⟨u, .queued⟩
  | resolving {u : TestUnit K.Recipe} {a : Ask} {ds : List (Deed K)}
      {w : Work K (Except Fault (Option Nat))} (stands : a.Stands catalog ds w) :
      Stands catalog replays (u, true) a ds ⟨u.onWay .resolving, .resolving w⟩
  | unresolved {u : TestUnit K.Recipe} {a : Ask} {ds : List (Deed K)} {f : Fault}
      (stands : a.Stands catalog ds (.done (.error f))) :
      Stands catalog replays (u, true) a ds ⟨(unresolved (u.onWay .resolving) f).1, .over⟩
  | running {u : TestUnit K.Recipe} {a : Ask} {ds es : List (Deed K)} {i : Option Nat}
      {w : Work K (Except Fault String)} (stands : a.Stands catalog ds (.done (.ok i)))
      (stint : Stint replays i u es w) :
      Stands catalog replays (u, true) a (ds ++ es) ⟨u.onWay .running, .running w⟩
  | executed {u : TestUnit K.Recipe} {a : Ask} {ds es : List (Deed K)} {i : Option Nat}
      {v : Except Fault String} (stands : a.Stands catalog ds (.done (.ok i)))
      (stint : Stint replays i u es (.done v)) :
      Stands catalog replays (u, true) a (ds ++ es) ⟨(executed (u.onWay .running) v).1, .over⟩

/-- What a step of a job does: it logs, its resolution moves, or its execution does. -/
inductive Job.Effect (catalog : Catalog K) (backend : String) (a : Ask) (ds : List (Deed K))
    (j : Job K) (s : Session K) : Option (Deed K) → Ask → Session K → Prop
  | logs (log : Array Record) : Effect catalog backend a ds j s none a { s with log }
  | asks {w : Work K (Except Fault (Option Nat))} {d : Deed K} {spot : Spot} {s' : Session K}
      (stage : j.stage = .resolving w) (moves : Ask.Moves catalog a.identity s d a.spot spot s') :
      Effect catalog backend a ds j s (some d) ⟨a.identity, spot⟩ s'
  | executes {action : Action K} {next : action.Answer → Work K (Except Fault String)}
      {r : action.Answer} {i : Option Nat} {s' : Session K}
      (stage : j.stage = .running (Procedure.act action next))
      (moves : Stint.Moves backend i s ⟨action, r⟩ s')
      (held : ∀ b, action = .release b → gripping ds = true) :
      Effect catalog backend a ds j s (some ⟨action, r⟩) a s'

/-- A step leads a job to where its deeds say, with the effect that they have. -/
theorem Job.Stands.step {catalog : Catalog K} {replays : Nat} {u : TestUnit K.Recipe} {runs : Bool}
    {a : Ask} {ds : List (Deed K)} {j j' : Job K} {d : Option (Deed K)} {s s' : Session K}
    (fresh : u.IsFresh) (stands : Job.Stands catalog replays (u, runs) a ds j)
    (step : j.Step catalog replays s d j' s') :
    ∃ a', a'.identity = a.identity ∧ Job.Effect catalog u.key.backend a ds j s d a' s' ∧
      Job.Stands catalog replays (u, runs) a' (ds ++ d.toList.filter (!·.isWrite)) j' := by
  cases stands with
  | rejected => cases step
  | queued =>
      cases step
      rw [fresh.moved_resolve]
      exact ⟨_, rfl, .logs s.log, .resolving (.start catalog u.key.backend)⟩
  | resolving stands =>
      cases step with
      | resolves thread performed =>
          obtain ⟨spot, moves, stands'⟩ := stands.step performed
          exact ⟨⟨a.identity, spot⟩, rfl, .asks rfl moves, .resolving stands'⟩
      | obtains =>
          rw [TestUnit.moved_run]
          exact ⟨a, rfl, .logs s.log, .running stands .acquiring⟩
      | fails =>
          refine ⟨a, rfl, .logs _, ?_⟩
          simpa using Job.Stands.unresolved stands
  | unresolved stands => cases step
  | @running _ _ ds es i w stands stint =>
      cases step with
      | @executes _ action next r _ _ thread performed =>
          obtain ⟨moves, stint'⟩ := stint.step performed
          refine ⟨a, rfl, .executes rfl moves ?_, ?_⟩
          · rintro b rfl
            rw [stands.gripping_eq]
            exact stint.gripping_of_release
          · rw [List.append_assoc]
            exact .running stands stint'
      | ends =>
          refine ⟨a, rfl, .logs _, ?_⟩
          simpa using Job.Stands.executed stands stint
  | executed stands stint => cases step

/-! ### Locks -/

/-- The busy backends are those that are held, each by one. -/
structure Locks (held : Nat → Option String) (busy : List String) : Prop where
  busy_iff : ∀ b, b ∈ busy ↔ ∃ p, held p = some b
  sole : ∀ p q b, held p = some b → held q = some b → p = q
  nodup : busy.Nodup

namespace Locks

variable {held held' : Nat → Option String} {busy : List String} {p : Nat} {b : String}

theorem acquire (locks : Locks held busy) (free : b ∉ busy) (was : held p = none)
    (now : held' p = some b) (others : ∀ q, q ≠ p → held' q = held q) :
    Locks held' (b :: busy) := by
  have nobody (q : Nat) : held q ≠ some b := fun holds => free ((locks.busy_iff b).mpr ⟨q, holds⟩)
  have kept {q : Nat} {b' : String} (holds : held q = some b') : held' q = some b' := by
    rw [others q, holds]
    rintro rfl
    rw [was] at holds
    cases holds
  refine ⟨fun b' => ?_, ?_, List.nodup_cons.mpr ⟨free, locks.nodup⟩⟩
  · rw [List.mem_cons]
    constructor
    · rintro (rfl | member)
      · exact ⟨p, now⟩
      · obtain ⟨q, holds⟩ := (locks.busy_iff b').mp member
        exact ⟨q, kept holds⟩
    · rintro ⟨q, holds⟩
      by_cases same : q = p
      · subst same
        exact .inl (Option.some.inj (holds.symm.trans now))
      · exact .inr ((locks.busy_iff b').mpr ⟨q, (others q same) ▸ holds⟩)
  · intro q q' b' mine yours
    by_cases same : q = p <;> by_cases same' : q' = p
    · exact same.trans same'.symm
    · subst same
      obtain rfl := Option.some.inj (now.symm.trans mine)
      exact absurd ((others q' same') ▸ yours) (nobody q')
    · subst same'
      obtain rfl := Option.some.inj (now.symm.trans yours)
      exact absurd ((others q same) ▸ mine) (nobody q)
    · exact locks.sole q q' b' ((others q same) ▸ mine) ((others q' same') ▸ yours)

theorem release (locks : Locks held busy) (was : held p = some b) (now : held' p = none)
    (others : ∀ q, q ≠ p → held' q = held q) : Locks held' (busy.erase b) := by
  have mine (q : Nat) (b' : String) (holds : held' q = some b') : q ≠ p ∧ held q = some b' := by
    have other : q ≠ p := by
      rintro rfl
      rw [now] at holds
      cases holds
    exact ⟨other, (others q other) ▸ holds⟩
  refine ⟨fun b' => ?_, ?_, locks.nodup.erase b⟩
  · rw [locks.nodup.mem_erase_iff, locks.busy_iff]
    constructor
    · rintro ⟨other, q, holds⟩
      refine ⟨q, ?_⟩
      rw [others q, holds]
      rintro rfl
      exact other (Option.some.inj (holds.symm.trans was))
    · rintro ⟨q, holds⟩
      obtain ⟨other, holds'⟩ := mine q b' holds
      refine ⟨?_, q, holds'⟩
      rintro rfl
      exact other (locks.sole q p b' holds' was)
  · intro q q' b' holds holds'
    exact locks.sole q q' b' (mine q b' holds).2 (mine q' b' holds').2

end Locks

theorem grip_of_isWrite {d : Deed K} (written : d.isWrite = true) (held : Bool) :
    d.grip held = held := by
  obtain ⟨action, r⟩ := d
  cases action <;> simp_all [Deed.isWrite, Deed.grip]

theorem gripping_noted (ds : List (Deed K)) (d : Deed K) :
    gripping (ds ++ [d].filter (!·.isWrite)) = d.grip (gripping ds) := by
  cases written : d.isWrite with
  | false => simp [written]
  | true => simp [written, grip_of_isWrite written]

theorem Ask.Moves.grip {catalog : Catalog K} {identity : String} {s s' : Session K} {d : Deed K}
    {spot spot' : Spot} (moves : Ask.Moves catalog identity s d spot spot' s') :
    s'.busy = s.busy ∧ ∀ held, d.grip held = held := by
  cases moves with
  | calls c registered made =>
      obtain ⟨_, rfl, _⟩ := Session.construct_cases made
      exact ⟨rfl, fun _ => rfl⟩
  | _ => exact ⟨rfl, fun _ => rfl⟩

theorem Stint.Moves.frame {backend : String} {i : Option Nat} {s s' : Session K} {d : Deed K}
    (moves : Stint.Moves backend i s d s') :
    s'.contexts = s.contexts ∧ s'.cache = s.cache ∧ s'.instances.length = s.instances.length := by
  cases moves with
  | calls on target performed =>
      obtain ⟨x, own, shared, log, _, _, rfl⟩ := of_perform_call target performed
      exact ⟨rfl, rfl, List.length_set⟩
  | _ => exact ⟨rfl, rfl, rfl⟩

namespace Pool

/-- What is held at each job: its backend, while it is executed. -/
def holding (units : List (TestUnit K.Recipe × Bool)) (t : List (Nat × Option (Deed K))) (p : Nat) :
    Option String :=
  (units[p]?).bind fun d => if gripping (deeds p t) then some d.1.key.backend else none

/-- The jobs of these units are where their deeds have led them. -/
structure Tracked (catalog : Catalog K) (replays base : Nat)
    (units : List (TestUnit K.Recipe × Bool)) (t : List (Nat × Option (Deed K))) (x : Pool K)
    (asks : List Ask) : Prop where
  everyJob : x.jobs.length = units.length
  everyAsk : asks.length = units.length
  stands : ∀ (p : Nat) (d : TestUnit K.Recipe × Bool), units[p]? = some d →
    ∃ a j, asks[p]? = some a ∧ x.jobs[p]? = some j ∧ a.identity = d.1.key.backend ∧
      Job.Stands catalog replays d a (deeds p t) j
  sound : Ask.Sound base asks x.session
  locks : Locks (holding units t) x.session.busy

namespace Tracked

variable {catalog : Catalog K} {replays workers base : Nat}
  {units : List (TestUnit K.Recipe × Bool)} {t : List (Nat × Option (Deed K))} {x y : Pool K}
  {asks : List Ask}

theorem relock (tracked : Tracked catalog replays base units t x asks) {p : Nat}
    {u : TestUnit K.Recipe} {runs : Bool} (planned : units[p]? = some (u, runs)) {a a' : Ask}
    {j : Job K} {d : Option (Deed K)} {s : Session K}
    (effect : Job.Effect catalog u.key.backend a (deeds p t) j x.session d a' s) :
    Locks (holding units (t ++ [(p, d)])) s.busy := by
  have others (q : Nat) (other : q ≠ p) : holding units (t ++ [(p, d)]) q = holding units t q := by
    simp only [holding, deeds_snoc_of_ne (Ne.symm other)]
  have now : holding units (t ++ [(p, d)]) p =
      if gripping (deeds p t ++ d.toList.filter (!·.isWrite)) then some u.key.backend else none := by
    simp only [holding, planned, Option.bind_some, deeds_snoc_self]
  have was : holding units t p = if gripping (deeds p t) then some u.key.backend else none := by
    simp only [holding, planned, Option.bind_some]
  have same (kept : holding units (t ++ [(p, d)]) p = holding units t p) :
      holding units (t ++ [(p, d)]) = holding units t := by
    funext q
    by_cases here : q = p
    · rw [here, kept]
    · exact others q here
  cases effect with
  | logs log =>
      rw [same (by rw [now, was]; simp)]
      exact tracked.locks
  | asks _ moves =>
      obtain ⟨busy, grip⟩ := moves.grip
      rw [same (by rw [now, was, Option.toList_some, gripping_noted, grip]), busy]
      exact tracked.locks
  | @executes action _ r _ _ _ moves held =>
      rw [Option.toList_some, gripping_noted] at now
      cases moves with
      | writes r thread =>
          rw [same (by rw [now, was]; rfl)]
          exact tracked.locks
      | acquires free =>
          refine tracked.locks.acquire free ?_ now others
          by_cases gripped : gripping (deeds p t) = true
          · rw [if_pos gripped] at was
            exact absurd ((tracked.locks.busy_iff _).mpr ⟨p, was⟩) free
          · rw [was, if_neg gripped]
      | releases =>
          rw [held _ rfl, if_pos rfl] at was
          exact tracked.locks.release was now others
      | calls on target performed =>
          obtain ⟨_, _, _, _, _, _, rfl⟩ := of_perform_call target performed
          have kept := grip_of_target? (d := ⟨action, r⟩) target (gripping (deeds p t))
          rw [same (by rw [now, was, kept])]
          exact tracked.locks

theorem resound (tracked : Tracked catalog replays base units t x asks) {p : Nat} {a a' : Ask}
    (asked : asks[p]? = some a) {backend : String} {j : Job K} {d : Option (Deed K)} {s : Session K}
    (effect : Job.Effect catalog backend a (deeds p t) j x.session d a' s) :
    Ask.Sound base (asks.set p a') s := by
  cases effect with
  | logs log =>
      rw [set_of_getElem? asked]
      exact tracked.sound.frame rfl (fun _ _ cached => cached) (Nat.le_refl _)
  | asks _ moves => exact (tracked.sound.move asked moves).2
  | executes _ moves held =>
      obtain ⟨contexts, cache, instances⟩ := moves.frame
      rw [set_of_getElem? asked]
      exact tracked.sound.frame contexts (fun _ _ cached => cache ▸ cached) (instances ▸ Nat.le_refl _)

/-- A job goes on: it is tracked, and the others stand where they were. -/
theorem goes_on (tracked : Tracked catalog replays base units t x asks)
    (fresh : ∀ d ∈ units, d.1.IsFresh) {p : Nat} {j j' : Job K} {d : Option (Deed K)} {s : Session K}
    (here : x.jobs[p]? = some j) (goes : j.Step catalog replays x.session d j' s) :
    ∃ u runs a a', units[p]? = some (u, runs) ∧ asks[p]? = some a ∧ a.identity = u.key.backend ∧
      Job.Stands catalog replays (u, runs) a (deeds p t) j ∧
      Job.Effect catalog u.key.backend a (deeds p t) j x.session d a' s ∧
      Tracked catalog replays base units (t ++ [(p, d)]) ⟨x.jobs.set p j', s⟩ (asks.set p a') := by
  have inside : p < units.length := tracked.everyJob ▸ (List.getElem?_eq_some_iff.mp here).1
  obtain ⟨⟨u, runs⟩, planned⟩ : ∃ d, units[p]? = some d := ⟨_, List.getElem?_eq_getElem inside⟩
  obtain ⟨a, i, asked, found, mine, stands⟩ := tracked.stands p _ planned
  obtain rfl := Option.some.inj (here.symm.trans found)
  obtain ⟨a', identity, effect, stands'⟩ :=
    stands.step (fresh _ (List.mem_of_getElem? planned)) goes
  refine ⟨u, runs, a, a', planned, asked, mine, stands, effect, by simp [tracked.everyJob],
    by simp [tracked.everyAsk], ?_, tracked.resound asked effect, tracked.relock planned effect⟩
  intro q d' planned'
  by_cases same : p = q
  · subst same
    obtain rfl := Option.some.inj (planned.symm.trans planned')
    refine ⟨a', j', by simp [tracked.everyAsk, inside], by simp [tracked.everyJob, inside],
      identity.trans mine, ?_⟩
    rwa [deeds_snoc_self]
  · obtain ⟨b, i, asked', found', yours, stands''⟩ := tracked.stands q d' planned'
    refine ⟨b, i, ?_, ?_, yours, ?_⟩
    · rwa [List.getElem?_set_ne same]
    · rwa [List.getElem?_set_ne same]
    · rwa [deeds_snoc_of_ne same]

theorem step (tracked : Tracked catalog replays base units t x asks)
    (fresh : ∀ d ∈ units, d.1.IsFresh) {l : Nat × Option (Deed K)}
    (step : Step catalog replays workers x l y) :
    ∃ asks', Tracked catalog replays base units (t ++ [l]) y asks' := by
  cases step with
  | step here goes turn =>
      obtain ⟨_, _, _, a', _, _, _, _, _, tracked'⟩ := tracked.goes_on fresh here goes
      exact ⟨_, tracked'⟩

theorem run (tracked : Tracked catalog replays base units t x asks)
    (fresh : ∀ d ∈ units, d.1.IsFresh) {t' : List (Nat × Option (Deed K))}
    (run : Run catalog replays workers x t' y) :
    ∃ asks', Tracked catalog replays base units (t ++ t') y asks' := by
  induction run generalizing t asks with
  | nil x => exact ⟨asks, by simpa using tracked⟩
  | cons step rest ih =>
      obtain ⟨asks', tracked'⟩ := tracked.step fresh step
      obtain ⟨asks'', tracked''⟩ := ih tracked'
      exact ⟨asks'', by simpa using tracked''⟩

theorem start (catalog : Catalog K) (replays : Nat) (units : List (TestUnit K.Recipe × Bool))
    {s : Session K} (orderly : s.Orderly s.contexts.length) (idle : s.busy = []) :
    Tracked catalog replays s.contexts.length units [] ⟨units.map Job.start, s⟩
      ((units.map (·.1.key.backend)).map (Ask.start catalog)) := by
  refine ⟨by simp, by simp, ?_, .start catalog _ orderly (Nat.le_refl _), ?_⟩
  · rintro p ⟨u, runs⟩ planned
    refine ⟨.start catalog u.key.backend, Job.start (u, runs), by simp [planned], by simp [planned],
      rfl, ?_⟩
    cases runs with
    | false => exact .rejected u
    | true => exact .queued u
  · have nobody (p : Nat) : holding units [] p = none := by
      unfold holding
      cases units[p]? <;> simp [deeds]
    refine ⟨fun b => ?_, fun p q b holds => ?_, by simp [idle]⟩
    · simp [idle, nobody]
    · rw [nobody] at holds
      cases holds

end Tracked

end Pool

/-! ### Progress -/

def Job.Blocked (thread : String) (s : Session K) (j : Job K) : Prop :=
  ∃ action, Session.perform true thread action s = none ∧
    ((∃ next, j.stage = .resolving (Procedure.act action next)) ∨
      ∃ next, j.stage = .running (Procedure.act action next))

theorem Job.step_of_active {catalog : Catalog K} {replays : Nat} {thread : String} {s : Session K}
    {j : Job K} (active : j.isActive = true) (free : ¬ j.Blocked thread s) :
    ∃ d j' s', j.Step catalog replays s d j' s' := by
  obtain ⟨u, stage⟩ := j
  cases stage with
  | resolving w =>
      cases w with
      | done r =>
          cases r with
          | ok i => exact ⟨_, _, _, .obtains u i s⟩
          | error f => exact ⟨_, _, _, .fails u f s thread⟩
      | act action next =>
          cases performed : Session.perform true thread action s with
          | none => exact absurd ⟨action, performed, .inl ⟨next, rfl⟩⟩ free
          | some r => exact ⟨_, _, _, .resolves thread performed⟩
  | running w =>
      cases w with
      | done r => exact ⟨_, _, _, .ends u r s thread⟩
      | act action next =>
          cases performed : Session.perform true thread action s with
          | none => exact absurd ⟨action, performed, .inr ⟨next, rfl⟩⟩ free
          | some r => exact ⟨_, _, _, .executes thread performed⟩
  | _ => cases active

/-- Who waits in a resolution waits for a context that somebody else has yet to publish. -/
theorem Ask.Stands.blocked {catalog : Catalog K} {a : Ask} {ds : List (Deed K)}
    {action : Action K} {next : action.Answer → Work K (Except Fault (Option Nat))}
    (stands : a.Stands catalog ds (Procedure.act action next)) {thread : String} {s : Session K}
    (waits : Session.perform true thread action s = none) :
    ∃ c pending, a.spot = .joined c pending ∧ (s.contexts[c]?).bind (·.outcome?) = none := by
  cases stands with
  | asking registered => cases waits
  | entered registered =>
      simp only [Session.perform, Session.construct, Bool.not_true, Bool.and_false,
        Bool.false_eq_true, if_false] at waits
      split at waits <;> cases waits
  | called registered made => cases waits
  | joined registered => exact ⟨_, _, rfl, Option.map_eq_none_iff.mp waits⟩
  | logging going stands => cases waits

theorem Context.outcome?_of_ready {x : Context Nat} (ready : x.ready = true) : x.outcome? ≠ none := by
  unfold Context.outcome?
  rw [if_pos ready]
  split <;> simp

theorem Ask.Sound.obtained {catalog : Catalog K} {base : Nat} {asks : List Ask} {s : Session K}
    (sound : Ask.Sound base asks s) {p : Nat} {a : Ask} (asked : asks[p]? = some a)
    {ds : List (Deed K)} {k : Nat} (stands : a.Stands catalog ds (.done (.ok (some k)))) :
    k < s.instances.length := by
  have fits := sound.fits p a asked
  obtain ⟨identity, spot⟩ := a
  rcases stands.of_done with ⟨_, _, _, impossible⟩ | ⟨c, r, b, rfl, _, _, _, delivered⟩ |
    ⟨c, pending, o, rfl, _, _, told⟩
  · cases impossible
  · cases r with
    | error f => cases delivered
    | ok i =>
        cases delivered
        exact fits.within rfl
  · cases o with
    | error f => cases told
    | ok k' =>
        cases told
        obtain ⟨x, found, _, published⟩ := fits
        exact sound.orderly.placed c x k found published

namespace Job.Stands

variable {catalog : Catalog K} {replays : Nat} {d : TestUnit K.Recipe × Bool} {a : Ask}
  {ds : List (Deed K)} {j : Job K} {s : Session K}

/-- A builder that has not published has nothing to wait for. -/
theorem free_of_building (stands : Job.Stands catalog replays d a ds j) {c : Nat}
    (building : a.spot = .entered c ∨ ∃ r, a.spot = .called c r) (thread : String) :
    j.isActive = true ∧ ¬ j.Blocked thread s := by
  have begun (u : TestUnit K.Recipe) (same : a = Ask.start catalog u.key.backend) : False := by
    subst same
    rcases Ask.spot_start catalog u.key.backend with spot | spot <;> simp [spot] at building
  have unended {ds : List (Deed K)} {v : Except Fault (Option Nat)}
      (stands : a.Stands catalog ds (.done v)) : False := by
    rcases stands.of_done with ⟨spot, _⟩ | ⟨_, _, _, spot, _⟩ | ⟨_, _, _, spot, _⟩ <;>
      simp [spot] at building
  cases stands with
  | rejected u => exact (begun u rfl).elim
  | queued u => exact (begun u rfl).elim
  | unresolved stands => exact (unended stands).elim
  | running stands => exact (unended stands).elim
  | executed stands => exact (unended stands).elim
  | resolving stands =>
      refine ⟨rfl, ?_⟩
      rintro ⟨action, waits, ⟨next, same⟩ | ⟨next, same⟩⟩
      · cases same
        obtain ⟨_, _, spot, _⟩ := stands.blocked waits
        simp [spot] at building
      · cases same

/-- Who holds a backend has nothing to wait for. -/
theorem free_of_gripping (stands : Job.Stands catalog replays d a ds j)
    (gripped : gripping ds = true) (thread : String)
    (inside : ∀ ds k, a.Stands catalog ds (.done (.ok (some k))) → k < s.instances.length) :
    j.isActive = true ∧ ¬ j.Blocked thread s := by
  have loose {ds : List (Deed K)} {w : Work K (Except Fault (Option Nat))}
      (stands : a.Stands catalog ds w) : gripping ds = false := by
    simpa using stands.gripping_eq []
  cases stands with
  | rejected u => cases gripped
  | queued u => cases gripped
  | resolving stands =>
      rw [loose stands] at gripped
      cases gripped
  | unresolved stands =>
      rw [loose stands] at gripped
      cases gripped
  | executed stands stint =>
      rw [stands.gripping_eq, stint.of_done.1] at gripped
      cases gripped
  | @running u _ ds es i w stands stint =>
      rw [stands.gripping_eq] at gripped
      refine ⟨rfl, ?_⟩
      rintro ⟨action, waits, ⟨next, same⟩ | ⟨next, same⟩⟩
      · cases same
      · cases same
        obtain ⟨rfl, _⟩ := stint.blocked (fun k on => inside ds k (on ▸ stands)) waits
        cases gripped

theorem of_blocked (stands : Job.Stands catalog replays d a ds j) {thread : String}
    (blocked : j.Blocked thread s)
    (inside : ∀ ds k, a.Stands catalog ds (.done (.ok (some k))) → k < s.instances.length) :
    (∃ c pending, a.spot = .joined c pending ∧ (s.contexts[c]?).bind (·.outcome?) = none) ∨
      d.1.key.backend ∈ s.busy := by
  obtain ⟨action, waits, ⟨next, same⟩ | ⟨next, same⟩⟩ := blocked
  · cases stands with
    | resolving stands =>
        cases same
        exact .inl (stands.blocked waits)
    | _ => cases same
  · cases stands with
    | @running _ _ ds _ _ _ stands stint =>
        cases same
        exact .inr (stint.blocked (fun k on => inside ds k (on ▸ stands)) waits).2
    | _ => cases same

end Job.Stands

namespace Pool

/-- Some worker is at a job and has nothing to wait for. -/
def Awake (thread : String) (x : Pool K) : Prop :=
  ∃ (p : Nat) (j : Job K), x.jobs[p]? = some j ∧ j.isActive = true ∧ ¬ j.Blocked thread x.session

namespace Tracked

variable {catalog : Catalog K} {replays workers base : Nat}
  {units : List (TestUnit K.Recipe × Bool)} {t : List (Nat × Option (Deed K))} {x : Pool K}
  {asks : List Ask}

theorem awake_of_pending (tracked : Tracked catalog replays base units t x asks) (thread : String)
    {c : Nat} {y : Context Nat} (found : x.session.contexts[c]? = some y)
    (pending : y.outcome? = none) : x.Awake thread := by
  have above : base ≤ c := by
    refine Nat.le_of_not_lt fun below => ?_
    exact Context.outcome?_of_ready (tracked.sound.orderly.settled c y below found) pending
  obtain ⟨q, a, asked, opened⟩ :=
    tracked.sound.opened c above (List.getElem?_eq_some_iff.mp found).1
  have building : a.spot = .entered c ∨ ∃ r, a.spot = .called c r := by
    have fits := tracked.sound.fits q a asked
    obtain ⟨identity, spot⟩ := a
    cases spot <;> cases opened
    case entered => exact .inl rfl
    case called r => exact .inr ⟨r, rfl⟩
    case built r =>
      obtain rfl := Option.some.inj (fits.1.symm.trans found)
      rw [outcome?_publication] at pending
      cases pending
  have inside : q < units.length := tracked.everyAsk ▸ (List.getElem?_eq_some_iff.mp asked).1
  obtain ⟨a', j, asked', here, _, stands⟩ :=
    tracked.stands q _ (List.getElem?_eq_getElem inside)
  obtain rfl := Option.some.inj (asked.symm.trans asked')
  exact ⟨q, j, here, stands.free_of_building building thread⟩

theorem awake_of_busy (tracked : Tracked catalog replays base units t x asks) (thread : String)
    {b : String} (busy : b ∈ x.session.busy) : x.Awake thread := by
  obtain ⟨q, holds⟩ := (tracked.locks.busy_iff b).mp busy
  obtain ⟨d, planned, grips⟩ := Option.bind_eq_some_iff.mp holds
  have gripped : gripping (deeds q t) = true := by
    cases loose : gripping (deeds q t) with
    | true => rfl
    | false => simp [loose] at grips
  obtain ⟨a, j, asked, here, _, stands⟩ := tracked.stands q d planned
  exact ⟨q, j, here, stands.free_of_gripping gripped thread fun _ _ => tracked.sound.obtained asked⟩

/-- Where somebody is at work, somebody has nothing to wait for. -/
theorem awake (tracked : Tracked catalog replays base units t x asks) (thread : String) {p : Nat}
    {j : Job K} (here : x.jobs[p]? = some j) (active : j.isActive = true) : x.Awake thread := by
  by_cases blocked : j.Blocked thread x.session
  · have inside : p < units.length := tracked.everyJob ▸ (List.getElem?_eq_some_iff.mp here).1
    obtain ⟨a, j', asked, found, _, stands⟩ := tracked.stands p _ (List.getElem?_eq_getElem inside)
    obtain rfl := Option.some.inj (here.symm.trans found)
    rcases stands.of_blocked blocked fun _ _ => tracked.sound.obtained asked with
      ⟨c, pending, spot, unpublished⟩ | busy
    · have fits := tracked.sound.fits p a asked
      unfold Ask.Fits at fits
      rw [spot] at fits
      obtain ⟨y, found', _⟩ := fits
      rw [found'] at unpublished
      exact tracked.awake_of_pending thread found' unpublished
    · exact tracked.awake_of_busy thread busy
  · exact ⟨p, j, here, active, blocked⟩

/-- A run that is not over can go on, whatever happened before. -/
theorem progress (tracked : Tracked catalog replays base units t x asks) (enough : 0 < workers)
    (incomplete : ¬ x.Complete) : ∃ l y, Step catalog replays workers x l y := by
  by_cases active : ∃ (p : Nat) (j : Job K), x.jobs[p]? = some j ∧ j.isActive = true
  · obtain ⟨p, j, here, active⟩ := active
    obtain ⟨q, i, there, active', free⟩ := tracked.awake "" here active
    have goes : ∃ d i' s, i.Step catalog replays x.session d i' s :=
      Job.step_of_active active' free
    obtain ⟨d, i', s, goes⟩ := goes
    exact ⟨_, _, .step there goes fun queued => by simp [Job.isActive, queued] at active'⟩
  · -- Nobody is at work, so the first job in the queue can be taken up.
    have idle : x.jobs.countP Job.isActive = 0 := by
      rw [List.countP_eq_zero]
      intro j member busy
      obtain ⟨p, here⟩ := List.mem_iff_getElem?.mp member
      exact active ⟨p, j, here, busy⟩
    have waiting : ∃ j ∈ x.jobs, j.stage.isQueued = true := by
      obtain ⟨j, member, unfinished⟩ : ∃ j ∈ x.jobs, j.stage.isOver = false := by
        simpa [Complete] using incomplete
      refine ⟨j, member, ?_⟩
      have resting := List.countP_eq_zero.mp idle j member
      simpa [Job.isActive, unfinished] using resting
    have inside := List.findIdx_lt_length.mpr waiting
    have queued := List.findIdx_getElem (w := inside)
    obtain ⟨⟨u, stage⟩, there⟩ : ∃ j, x.jobs[x.jobs.findIdx (·.stage.isQueued)]? = some j :=
      ⟨_, List.getElem?_eq_getElem inside⟩
    rw [(List.getElem?_eq_some_iff.mp there).2] at queued
    cases stage <;> cases queued
    refine ⟨_, _, .step there (.begins u x.session) fun _ => ⟨fun q before i here => ?_, ?_⟩⟩
    · have earlier := List.not_of_lt_findIdx before
      rwa [(List.getElem?_eq_some_iff.mp here).2] at earlier
    · omega

end Tracked

end Pool

end Concord
