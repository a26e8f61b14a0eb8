import Concord.Proofs.Pool
import Concord.Proofs.Registration
/-!
A run of the harness is one of the interleavings. It works the jobs off one after the other; to
advance a job is to take its steps until it is over or has to wait. Without a deadline nobody else is
at work then, so that it never has to wait, and the run is complete. With a deadline a slow call, or
what somebody else began, may keep a worker waiting, and the run is cut off there.
-/

namespace Concord

variable {K : Kit} {catalog : Catalog K} {replays workers : Nat}

theorem Stage.isQueued_of_isOver {stage : Stage K} (finished : stage.isOver = true) :
    stage.isQueued = false := by
  cases stage <;> first | rfl | cases finished

theorem Stage.isOver_of_isQueued {stage : Stage K} (queued : stage.isQueued = true) :
    stage.isOver = false := by
  cases stage <;> first | rfl | cases queued

theorem Job.isQueued_of_isActive {j : Job K} (active : j.isActive = true) :
    j.stage.isQueued = false := by
  simp only [Job.isActive, Bool.and_eq_true, Bool.not_eq_true'] at active
  exact active.2

/-! ### Advancing is stepping -/

/-- Steps of one job while the others rest. -/
inductive Job.Run (catalog : Catalog K) (replays : Nat) :
    Job K → Session K → List (Option (Deed K)) → Job K → Session K → Prop
  | nil (j : Job K) (s : Session K) : Run catalog replays j s [] j s
  | cons {j j₁ j₂ : Job K} {s s₁ s₂ : Session K} {d : Option (Deed K)}
      {ds : List (Option (Deed K))} :
      j.Step catalog replays s d j₁ s₁ → Run catalog replays j₁ s₁ ds j₂ s₂ →
      Run catalog replays j s (d :: ds) j₂ s₂

theorem Job.Run.append {j j₁ j₂ : Job K} {s s₁ s₂ : Session K} {ds ds' : List (Option (Deed K))}
    (first : Job.Run catalog replays j s ds j₁ s₁)
    (second : Job.Run catalog replays j₁ s₁ ds' j₂ s₂) :
    Job.Run catalog replays j s (ds ++ ds') j₂ s₂ := by
  induction first with
  | nil => exact second
  | cons step _ ih => exact .cons step (ih second)

theorem Session.call_of_impatient {α : Type} {s : Session K} {patient : Bool} {thread : String}
    {i : Nat} (f : Parser K → K.Own → K.Shared → Reply K α) {r : Except Fault α × Session K}
    (called : s.call patient thread i f = some r) : s.call true thread i f = some r := by
  unfold Session.call at called ⊢
  cases here : s.instances[i]? with
  | none => simp [here] at called
  | some x =>
      simp only [here] at called ⊢
      split at called
      · cases called
      · simpa using called

/-- What is answered before a deadline is answered without one. -/
theorem Session.perform_of_impatient {patient : Bool} {thread : String} {action : Action K}
    {s : Session K} {r : action.Answer × Session K}
    (performed : Session.perform patient thread action s = some r) :
    Session.perform true thread action s = some r := by
  cases action with
  | construct b =>
      simp only [Session.perform, Session.construct] at performed ⊢
      split at performed
      · cases performed
      · simpa using performed
  | reset i => exact Session.call_of_impatient (fun p => p.reset) performed
  | parse i source => exact Session.call_of_impatient (fun p => p.parse source) performed
  | transform i tree recipe =>
      exact Session.call_of_impatient (fun p => p.transform tree recipe) performed
  | print i tree => exact Session.call_of_impatient (fun p => p.print tree) performed
  | diagnose i tree => exact Session.call_of_impatient (fun p => p.diagnostics tree) performed
  | _ => exact performed
/-- To advance a procedure of a job is to take steps of the job. -/
theorem Job.run_advance {α : Type} (stage : Work K α → Stage K) {u : TestUnit K.Recipe}
    {thread : String}
    (steps : ∀ (action : Action K) (next : action.Answer → Work K α) r (s s' : Session K),
      Session.perform true thread action s = some (r, s') →
      Job.Step catalog replays ⟨u, stage (Procedure.act action next)⟩ s (some ⟨action, r⟩)
        ⟨u, stage (next r)⟩ s')
    (patient : Bool) (w : Work K α) (s : Session K) :
    ∃ ds, Job.Run catalog replays ⟨u, stage w⟩ s ds ⟨u, stage (w.advance patient thread s).1⟩
      (w.advance patient thread s).2 := by
  induction w generalizing s with
  | done v => exact ⟨[], .nil _ _⟩
  | act action next ih =>
      cases performed : Session.perform patient thread action s with
      | none =>
          have stays : Work.advance (Procedure.act action next) patient thread s =
              (Procedure.act action next, s) := by
            simp only [Work.advance, Procedure.advance, performed]
          rw [stays]
          exact ⟨[], .nil _ _⟩
      | some r =>
          have goes : Work.advance (Procedure.act action next) patient thread s =
              Work.advance (next r.1) patient thread r.2 := by
            simp only [Work.advance, Procedure.advance, performed]
          rw [goes]
          obtain ⟨ds, rest⟩ := ih r.1 r.2
          exact ⟨_, .cons (steps action next r.1 s r.2 (Session.perform_of_impatient performed)) rest⟩

theorem Work.perform_of_advance {α : Type} (w : Work K α) (patient : Bool) (thread : String)
    (s : Session K) (action : Action K) (next : action.Answer → Work K α)
    (rest : (w.advance patient thread s).1 = Procedure.act action next) :
    Session.perform patient thread action (w.advance patient thread s).2 = none := by
  induction w generalizing s with
  | done v => cases rest
  | act action' next' ih =>
      cases performed : Session.perform patient thread action' s with
      | none =>
          simp only [Work.advance, Procedure.advance, performed] at rest ⊢
          cases rest
          exact performed
      | some r =>
          simp only [Work.advance, Procedure.advance, performed] at rest ⊢
          exact ih r.1 r.2 rest

/-- Going on after a procedure that may end in a fault: the second begins where the first one ends,
and where the first one has to wait, both wait. -/
theorem Work.advance_andThen {α β : Type} (w : Work K (Except Fault α))
    (f : α → Work K (Except Fault β)) (patient : Bool) (thread : String) (s : Session K) :
    Work.advance (Procedure.andThen w f) patient thread s =
      match w.advance patient thread s with
      | (.done (.ok v), s') => (f v).advance patient thread s'
      | (.done (.error e), s') => (.done (.error e), s')
      | (Procedure.act action next, s') =>
          (Procedure.andThen (Procedure.act action next) f, s') := by
  have waits (action : Action K) (next : action.Answer → Work K (Except Fault α)) :=
    Work.perform_of_advance w patient thread s action next
  unfold Work.advance Procedure.andThen at *
  rw [Procedure.advance_bind]
  generalize Procedure.advance (Session.perform patient thread) w s = advanced at waits ⊢
  obtain ⟨rest, s'⟩ := advanced
  cases rest with
  | done r => cases r <;> rfl
  | act action next =>
      have stuck := waits action next rfl
      simp only [Procedure.bind, Procedure.advance, stuck]

/-- A job was advanced: by steps, up to its end or to where it has to wait. The impatient also stop
at a slow call. -/
def Job.Advanced (catalog : Catalog K) (replays : Nat) (patient : Bool) (thread : String) (j : Job K)
    (s : Session K) (result : Job K × Session K) : Prop :=
  (∃ ds, Job.Run catalog replays j s ds result.1 result.2) ∧
    (result.1.stage.isOver = true ∨
      result.1.isActive = true ∧ (patient = true → result.1.Blocked thread result.2))

theorem Job.goRunning_advanced (catalog : Catalog K) (replays : Nat) (patient : Bool)
    (thread : String) (u : TestUnit K.Recipe) (w : Work K (Except Fault String)) (s : Session K) :
    Job.Advanced catalog replays patient thread ⟨u, .running w⟩ s
      (Job.goRunning patient thread u w s) := by
  obtain ⟨ds, run⟩ : ∃ ds, Job.Run catalog replays ⟨u, .running w⟩ s ds
      ⟨u, .running (w.advance patient thread s).1⟩ (w.advance patient thread s).2 :=
    Job.run_advance .running (fun _ _ _ _ _ performed => .executes thread performed) patient w s
  have waits (action : Action K) (next : action.Answer → Work K (Except Fault String)) :=
    Work.perform_of_advance w patient thread s action next
  unfold Job.goRunning
  generalize w.advance patient thread s = advanced at run waits
  obtain ⟨rest, s'⟩ := advanced
  cases rest with
  | done r => exact ⟨⟨_, run.append (.cons (.ends u r s' thread) (.nil _ _))⟩, .inl rfl⟩
  | act action next =>
      refine ⟨⟨ds, run⟩, .inr ⟨rfl, ?_⟩⟩
      rintro rfl
      exact ⟨action, waits action next rfl, .inr ⟨next, rfl⟩⟩

theorem Job.goResolving_advanced (catalog : Catalog K) (replays : Nat) (patient : Bool)
    (thread : String) (u : TestUnit K.Recipe) (w : Work K (Except Fault (Option Nat)))
    (s : Session K) :
    Job.Advanced catalog replays patient thread ⟨u, .resolving w⟩ s
      (Job.goResolving replays patient thread u w s) := by
  obtain ⟨ds, run⟩ : ∃ ds, Job.Run catalog replays ⟨u, .resolving w⟩ s ds
      ⟨u, .resolving (w.advance patient thread s).1⟩ (w.advance patient thread s).2 :=
    Job.run_advance .resolving (fun _ _ _ _ _ performed => .resolves thread performed) patient w s
  have waits (action : Action K) (next : action.Answer → Work K (Except Fault (Option Nat))) :=
    Work.perform_of_advance w patient thread s action next
  unfold Job.goResolving
  generalize w.advance patient thread s = advanced at run waits
  obtain ⟨rest, s'⟩ := advanced
  cases rest with
  | done r =>
      cases r with
      | error f => exact ⟨⟨_, run.append (.cons (.fails u f s' thread) (.nil _ _))⟩, .inl rfl⟩
      | ok i =>
          obtain ⟨⟨ds', run'⟩, ended⟩ := Job.goRunning_advanced catalog replays patient thread
            (u.moved .run) (execute replays i u.key u.scenario) s'
          exact ⟨⟨_, run.append (.cons (.obtains u i s') run')⟩, ended⟩
  | act action next =>
      refine ⟨⟨ds, run⟩, .inr ⟨rfl, ?_⟩⟩
      rintro rfl
      exact ⟨action, waits action next rfl, .inl ⟨next, rfl⟩⟩

theorem Job.advance_advanced (catalog : Catalog K) (replays : Nat) (patient : Bool)
    (thread : String) {j : Job K} (unfinished : j.stage.isOver = false) (s : Session K) :
    Job.Advanced catalog replays patient thread j s
      (j.advance catalog replays patient thread s) := by
  obtain ⟨u, stage⟩ := j
  cases stage with
  | queued =>
      obtain ⟨⟨ds, run⟩, ended⟩ := Job.goResolving_advanced catalog replays patient thread
        (u.moved .resolve) (resolve catalog u.key.backend) s
      exact ⟨⟨_, .cons (.begins u s) run⟩, ended⟩
  | resolving w => exact Job.goResolving_advanced catalog replays patient thread u w s
  | running w => exact Job.goRunning_advanced catalog replays patient thread u w s
  | _ => cases unfinished

/-! ### Working off is a run -/

namespace Pool

theorem Run.append {x y z : Pool K} {t t' : List (Nat × Option (Deed K))}
    (first : Run catalog replays workers x t y) (second : Run catalog replays workers y t' z) :
    Run catalog replays workers x (t ++ t') z := by
  induction first with
  | nil => exact second
  | cons step _ ih => exact .cons step (ih second)

theorem run_of_job {j j' : Job K} {s s' : Session K} {ds : List (Option (Deed K))}
    (run : Job.Run catalog replays j s ds j' s') {jobs : List (Job K)} {p : Nat}
    (here : jobs[p]? = some j)
    (turn : j.stage.isQueued = true →
      (∀ q < p, ∀ i, jobs[q]? = some i → i.stage.isQueued = false) ∧
        jobs.countP Job.isActive < workers) :
    ∃ t, Run catalog replays workers ⟨jobs, s⟩ t ⟨jobs.set p j', s'⟩ := by
  induction run generalizing jobs with
  | nil j s =>
      rw [set_of_getElem? here]
      exact ⟨[], .nil _⟩
  | @cons j j₁ j₂ s s₁ s₂ d ds step rest ih =>
      have inside := (List.getElem?_eq_some_iff.mp here).1
      have begun : j₁.stage.isQueued = false := by cases step <;> rfl
      have next : (jobs.set p j₁)[p]? = some j₁ := by simp [inside]
      obtain ⟨t, run⟩ := ih next fun queued => by
        rw [begun] at queued
        cases queued
      rw [List.set_set] at run
      exact ⟨_, .cons (.step here step turn) run⟩

/-- A job that is alone at work goes on to its end. -/
theorem over_of_alone {base : Nat} {units : List (TestUnit K.Recipe × Bool)}
    {t : List (Nat × Option (Deed K))} {ps js : List (Job K)} {j : Job K} {s : Session K}
    {asks : List Ask} (tracked : Tracked catalog replays base units t ⟨ps ++ j :: js, s⟩ asks)
    (before : ∀ i ∈ ps, i.isActive = false) (after : ∀ i ∈ js, i.isActive = false)
    {thread : String} (ended : j.stage.isOver = true ∨ j.isActive = true ∧ j.Blocked thread s) :
    j.stage.isOver = true := by
  rcases ended with finished | ⟨active, blocked⟩
  · exact finished
  · have here : (ps ++ j :: js)[ps.length]? = some j := by simp
    obtain ⟨q, i, there, active', free⟩ := tracked.awake thread here active
    -- Nobody else is at work.
    have member : i ∈ ps ++ j :: js := List.mem_of_getElem? there
    rcases List.mem_append.mp member with early | late
    · rw [before i early] at active'
      cases active'
    · rcases List.mem_cons.mp late with rfl | late
      · exact absurd blocked free
      · rw [after i late] at active'
        cases active'

/-- A queued job that comes next is advanced, and if the patient have nobody else at work, to its
end. -/
theorem advance_run {base : Nat} {units : List (TestUnit K.Recipe × Bool)}
    (fresh : ∀ d ∈ units, d.1.IsFresh) (patient : Bool) {t : List (Nat × Option (Deed K))}
    {ps js : List (Job K)} {j : Job K} {s : Session K} {asks : List Ask}
    (tracked : Tracked catalog replays base units t ⟨ps ++ j :: js, s⟩ asks)
    (free : ps.countP Job.isActive < workers) (before : ∀ i ∈ ps, i.stage.isQueued = false)
    (after : ∀ i ∈ js, i.isActive = false) (queued : j.stage.isQueued = true) (thread : String) :
    ∃ j' s' t' asks', j.advance catalog replays patient thread s = (j', s') ∧
      (j'.stage.isOver = true ∨ j'.isActive = true) ∧
      (patient = true → ps.countP Job.isActive = 0 → j'.stage.isOver = true) ∧
      Run catalog replays workers ⟨ps ++ j :: js, s⟩ t' ⟨ps ++ j' :: js, s'⟩ ∧
      Tracked catalog replays base units (t ++ t') ⟨ps ++ j' :: js, s'⟩ asks' := by
  have here : (ps ++ j :: js)[ps.length]? = some j := by simp
  have first : ∀ q < ps.length, ∀ i, (ps ++ j :: js)[q]? = some i → i.stage.isQueued = false := by
    intro q inside i there
    rw [List.getElem?_append_left inside] at there
    exact before i (List.mem_of_getElem? there)
  have worker : (ps ++ j :: js).countP Job.isActive < workers := by
    have resting : (j :: js).countP Job.isActive = 0 := by
      rw [List.countP_eq_zero]
      intro i member active
      rcases List.mem_cons.mp member with rfl | late
      · simp [Job.isActive, queued] at active
      · simp [after i late] at active
    rw [List.countP_append, resting]
    exact free
  obtain ⟨⟨ds, goes⟩, ended⟩ := Job.advance_advanced catalog replays patient thread
    (Stage.isOver_of_isQueued queued) s
  generalize j.advance catalog replays patient thread s = result at goes ended ⊢
  obtain ⟨j', s'⟩ := result
  obtain ⟨t', run⟩ := run_of_job goes here fun _ => ⟨first, worker⟩
  have moved : (ps ++ j :: js).set ps.length j' = ps ++ j' :: js := by simp
  rw [moved] at run
  obtain ⟨asks', tracked'⟩ := tracked.run fresh run
  refine ⟨j', s', t', asks', rfl, ended.imp_right And.left, fun waits alone => ?_, run, tracked'⟩
  have resting : ∀ i ∈ ps, i.isActive = false := fun i member => by
    simpa using List.countP_eq_zero.mp alone i member
  exact over_of_alone tracked' resting after (ended.imp_right fun stops => ⟨stops.1, stops.2 waits⟩)

theorem dispatch_of_skipped {patient : Bool} {turns : Option Nat} {waiting : Nat} {j : Job K}
    {js : List (Job K)} {s : Session K}
    (stays : (j.stage.isOver || decide (workers ≤ waiting) || turns == some 0) = true) :
    dispatch catalog replays patient workers turns waiting (j :: js) s =
      (j :: (dispatch catalog replays patient workers turns waiting js s).1,
        (dispatch catalog replays patient workers turns waiting js s).2) := by
  simp only [dispatch, stays, if_true]

theorem dispatch_of_taken {patient : Bool} {turns : Option Nat} {waiting : Nat} {j j' : Job K}
    {js : List (Job K)} {s s' : Session K}
    (taken : ¬ (j.stage.isOver || decide (workers ≤ waiting) || turns == some 0) = true)
    (advanced : j.advance catalog replays patient (workerName waiting) s = (j', s')) :
    dispatch catalog replays patient workers turns waiting (j :: js) s =
      (j' :: (dispatch catalog replays patient workers (turns.map (· - 1))
          (if j'.stage.isOver then waiting else waiting + 1) js s').1,
        (dispatch catalog replays patient workers (turns.map (· - 1))
          (if j'.stage.isOver then waiting else waiting + 1) js s').2) := by
  rw [dispatch, if_neg taken, advanced]

/-- Whatever relates the jobs and the session before and after steps of one job, relates them before
and after working off all jobs. -/
theorem dispatch_induction {M : List (Job K) → Session K → List (Job K) → Session K → Prop}
    (refl : ∀ js s, M js s js s)
    (trans : ∀ {js₁ js₂ js₃ s₁ s₂ s₃}, M js₁ s₁ js₂ s₂ → M js₂ s₂ js₃ s₃ → M js₁ s₁ js₃ s₃)
    (goes : ∀ {j j' s s' ds}, Job.Run catalog replays j s ds j' s' →
      ∀ ps js, M (ps ++ j :: js) s (ps ++ j' :: js) s')
    (patient : Bool) (turns : Option Nat) (waiting : Nat) (ps js : List (Job K)) (s : Session K) :
    M (ps ++ js) s (ps ++ (dispatch catalog replays patient workers turns waiting js s).1)
      (dispatch catalog replays patient workers turns waiting js s).2 := by
  induction js generalizing ps turns waiting s with
  | nil => exact refl _ _
  | cons j js ih =>
      by_cases stays : (j.stage.isOver || decide (workers ≤ waiting) || turns == some 0) = true
      · rw [dispatch_of_skipped stays]
        simpa using ih turns waiting (ps ++ [j]) s
      · have unfinished : j.stage.isOver = false := by simp_all
        obtain ⟨⟨ds, run⟩, _⟩ :=
          Job.advance_advanced catalog replays patient (workerName waiting) unfinished s
        rcases advanced : j.advance catalog replays patient (workerName waiting) s with ⟨j', s'⟩
        rw [advanced] at run
        rw [dispatch_of_taken stays advanced]
        refine trans (goes run ps js) ?_
        simpa using ih (turns.map (· - 1)) (if j'.stage.isOver then waiting else waiting + 1)
          (ps ++ [j']) s'

/-- Working off jobs of which none is begun is a run of the pool; without a deadline it ends them
all. The jobs in `ps` were looked at before: `waiting` of them keep a worker, and the others are over,
unless there was no worker or no turn left for them. -/
theorem dispatch_run {base : Nat} {units : List (TestUnit K.Recipe × Bool)}
    (fresh : ∀ d ∈ units, d.1.IsFresh) (enough : 0 < workers) (patient : Bool)
    {t : List (Nat × Option (Deed K))} (ps : List (Job K)) {js : List (Job K)} {s : Session K}
    {asks : List Ask} (tracked : Tracked catalog replays base units t ⟨ps ++ js, s⟩ asks)
    {turns : Option Nat} {waiting : Nat} (waits : ps.countP Job.isActive = waiting)
    (before : waiting < workers ∧ turns ≠ some 0 → ∀ i ∈ ps, i.stage.isQueued = false)
    (after : ∀ i ∈ js, i.isActive = false) :
    (∃ t', Run catalog replays workers ⟨ps ++ js, s⟩ t'
        ⟨ps ++ (dispatch catalog replays patient workers turns waiting js s).1,
          (dispatch catalog replays patient workers turns waiting js s).2⟩) ∧
      (patient = true → turns = none → waiting = 0 →
        ∀ i ∈ (dispatch catalog replays patient workers turns waiting js s).1,
          i.stage.isOver = true) := by
  induction js generalizing ps s t asks turns waiting with
  | nil => exact ⟨⟨[], .nil _⟩, fun _ _ _ i member => by cases member⟩
  | cons j js ih =>
      have later : ∀ i ∈ js, i.isActive = false := fun i member =>
        after i (List.mem_cons_of_mem _ member)
      have extended {i : Job K} {n : Nat} {left : Option Nat}
          (waits' : n < workers ∧ left ≠ some 0 → waiting < workers ∧ turns ≠ some 0)
          (begun : n < workers ∧ left ≠ some 0 → i.stage.isQueued = false) :
          n < workers ∧ left ≠ some 0 → ∀ i' ∈ ps ++ [i], i'.stage.isQueued = false := by
        intro free i' member
        rcases List.mem_append.mp member with early | last
        · exact before (waits' free) i' early
        · obtain rfl := List.mem_singleton.mp last
          exact begun free
      by_cases stays : (j.stage.isOver || decide (workers ≤ waiting) || turns == some 0) = true
      · have finished (free : waiting < workers ∧ turns ≠ some 0) : j.stage.isOver = true := by
          have taken : ¬ workers ≤ waiting := by omega
          simpa [taken, free.2] using stays
        have counted : (ps ++ [j]).countP Job.isActive = waiting := by
          simp [waits, after j List.mem_cons_self]
        have begun (free : waiting < workers ∧ turns ≠ some 0) : j.stage.isQueued = false :=
          Stage.isQueued_of_isOver (finished free)
        rw [List.append_cons] at tracked
        obtain ⟨⟨t', run⟩, ended⟩ := ih (ps ++ [j]) tracked counted (extended id begun) later
        rw [dispatch_of_skipped stays, List.append_cons ps j js]
        refine ⟨⟨t', by simpa using run⟩, fun patience unlimited idle i member => ?_⟩
        rcases List.mem_cons.mp member with rfl | member
        · exact finished ⟨by omega, by simp [unlimited]⟩
        · exact ended patience unlimited idle i member
      · obtain ⟨⟨unfinished, free⟩, turn⟩ :
            (j.stage.isOver = false ∧ waiting < workers) ∧ turns ≠ some 0 := by
          simpa using stays
        have queued : j.stage.isQueued = true := by
          have idle := after j List.mem_cons_self
          simpa [Job.isActive, unfinished] using idle
        obtain ⟨j', s', t₁, asks', advanced, ended, finishes, run₁, tracked'⟩ :=
          advance_run fresh patient tracked (waits ▸ free) (before ⟨free, turn⟩) later queued
            (workerName waiting)
        have begun : j'.stage.isQueued = false := by
          rcases ended with finished | active
          · exact Stage.isQueued_of_isOver finished
          · exact Job.isQueued_of_isActive active
        have counted : (ps ++ [j']).countP Job.isActive =
            if j'.stage.isOver then waiting else waiting + 1 := by
          cases finished : j'.stage.isOver <;>
            simp [Job.isActive, waits, finished, begun]
        have waits' : (if j'.stage.isOver then waiting else waiting + 1) < workers ∧
            turns.map (· - 1) ≠ some 0 → waiting < workers ∧ turns ≠ some 0 := fun _ => ⟨free, turn⟩
        rw [List.append_cons] at tracked'
        obtain ⟨⟨t₂, run₂⟩, ended₂⟩ := ih (ps ++ [j']) tracked' counted
          (extended waits' fun _ => begun) later
        rw [dispatch_of_taken stays advanced]
        refine ⟨⟨_, run₁.append (by simpa using run₂)⟩, fun patience unlimited idle i member => ?_⟩
        have finished := finishes patience (waits.trans idle)
        rcases List.mem_cons.mp member with rfl | member
        · exact finished
        · exact ended₂ patience (by simp [unlimited]) (by simpa [finished] using idle) i member

end Pool

/-! ### Runs of a harness -/

/-- Nobody is at work, and every context is published. -/
structure Session.Quiet (s : Session K) : Prop where
  orderly : s.Orderly s.contexts.length
  idle : s.busy = []

/-- Calls of supplied code and records keep a session quiet. -/
theorem Session.Quiet.frame {s : Session K} (quiet : s.Quiet) (shared : K.Shared)
    (log : Array Record) : ({ s with shared, log } : Session K).Quiet :=
  ⟨⟨Nat.le_refl _, quiet.orderly.settled, quiet.orderly.cached, quiet.orderly.placed⟩, quiet.idle⟩

theorem Session.Quiet.clear {s : Session K} (quiet : s.Quiet) : s.clear.Quiet := by
  refine ⟨⟨Nat.le_refl _, quiet.orderly.settled, fun i c cached => ?_, quiet.orderly.placed⟩, quiet.idle⟩
  cases cached

section Complete

variable {base : Nat} {units : List (TestUnit K.Recipe × Bool)} {t : List (Nat × Option (Deed K))}
  {x : Pool K} {asks : List Ask}

/-- When every job is over, every context is published and nobody holds a backend. -/
theorem Pool.Tracked.quiet_session (tracked : Tracked catalog replays base units t x asks)
    (complete : x.Complete) : x.session.Quiet := by
  have resting {j : Job K} {p : Nat} (here : x.jobs[p]? = some j) : j.isActive = false := by
    simp [Job.isActive, complete j (List.mem_of_getElem? here)]
  refine ⟨⟨Nat.le_refl _, ?_, tracked.sound.orderly.cached, tracked.sound.orderly.placed⟩, ?_⟩
  · intro c y below found
    cases ready : y.ready with
    | true => rfl
    | false =>
        have pending : y.outcome? = none := by simp [Context.outcome?, ready]
        obtain ⟨p, j, here, active, _⟩ := tracked.awake_of_pending "" found pending
        rw [resting here] at active
        cases active
  · apply List.eq_nil_iff_forall_not_mem.mpr
    intro b busy
    obtain ⟨p, j, here, active, _⟩ := tracked.awake_of_busy "" busy
    rw [resting here] at active
    cases active

theorem Pool.Tracked.quiet (tracked : Tracked catalog replays base units t x asks)
    (complete : x.Complete) (log : Array Record) : ({ x.session.clear with log } : Session K).Quiet :=
  (tracked.quiet_session complete).clear.frame x.session.shared log

end Complete

namespace Harness

theorem Built.quiet {h : Harness K} (built : h.Built) : h.session.Quiet := by
  obtain ⟨unopened, unasked, idle⟩ := built.idle
  refine ⟨⟨Nat.le_refl _, ?_, ?_, ?_⟩, idle⟩
  · intro c x below
    simp [unopened] at below
  · intro i c cached
    simp [unasked] at cached
  · intro c x k found
    simp [unopened] at found

theorem quiet_launched {h : Harness K} (quiet : h.session.Quiet)
    (planned : List (Planned K.Recipe)) (log : Array Record) : (h.launched planned log).Quiet :=
  quiet.frame (h.decisions planned).shared log

theorem tracked {h : Harness K} {planned : List (Planned K.Recipe)} (quiet : h.session.Quiet)
    (plan : h.catalog.plan = .ok planned) (calm : (h.decisions planned).interrupt = none)
    {log : Array Record} {t : List (Nat × Option (Deed K))} {x : Pool K}
    (run : Pool.Run h.catalog h.replays workers ⟨h.jobs planned, h.launched planned log⟩ t x) :
    ∃ asks, Pool.Tracked h.catalog h.replays h.session.contexts.length
      (decided (h.decisions planned).entries) t x asks := by
  have settled := quiet_launched quiet planned log
  have start := Pool.Tracked.start h.catalog h.replays (decided (h.decisions planned).entries)
    settled.orderly settled.idle
  exact start.run (h.isFresh_of_decided plan calm) run

theorem unbegun_jobs (h : Harness K) (planned : List (Planned K.Recipe)) :
    ∀ j ∈ h.jobs planned, j.isActive = false := by
  intro j member
  obtain ⟨⟨u, runs⟩, _, rfl⟩ := List.mem_map.mp member
  cases runs <;> rfl

/-- In a quiet session the workers make one of their interleavings, and end every job if there is no
deadline. -/
theorem dispatch_quiet {h : Harness K} {planned : List (Planned K.Recipe)} {workers : Int}
    (deadline : Option Text.Seconds) (quiet : h.session.Quiet) (positive : 1 ≤ workers)
    (plan : h.catalog.plan = .ok planned) (calm : (h.decisions planned).interrupt = none)
    (log : Array Record) :
    let worked := h.worked workers deadline planned log
    (∃ t, Pool.Run h.catalog h.replays workers.toNat ⟨h.jobs planned, h.launched planned log⟩ t
        ⟨worked.1, worked.2⟩) ∧
      (deadline = none → ∀ j ∈ worked.1, j.stage.isOver = true) := by
  have unmoved : Pool.Run h.catalog h.replays workers.toNat
      ⟨h.jobs planned, h.launched planned log⟩ [] ⟨h.jobs planned, h.launched planned log⟩ := .nil _
  obtain ⟨asks, start⟩ := h.tracked quiet plan calm unmoved
  have enough : 0 < workers.toNat := by omega
  obtain ⟨run, finished⟩ := Pool.dispatch_run (h.isFresh_of_decided plan calm) enough
    deadline.isNone [] start rfl (fun _ j member => by cases member) (h.unbegun_jobs planned)
  refine ⟨run, ?_⟩
  rintro rfl
  exact finished rfl rfl rfl

/-- A run is one of the interleavings of its workers, and complete if there is no deadline. -/
theorem run_eq_interleaving {h : Harness K} {planned : List (Planned K.Recipe)} {workers : Int}
    (deadline : Option Text.Seconds) (quiet : h.session.Quiet) (positive : 1 ≤ workers)
    (plan : h.catalog.plan = .ok planned) (calm : (h.decisions planned).interrupt = none) :
    ∃ log t x h', h.run workers deadline =
        (ending (h.runName (h.runs + 1)) deadline x.jobs, h') ∧
      Pool.Run h.catalog h.replays workers.toNat ⟨h.jobs planned, h.launched planned log⟩ t x ∧
      (deadline = none →
        x.Complete ∧ ∃ log', h'.session = { x.session.clear with log := log' }) := by
  obtain ⟨log, h', ran, left⟩ := run_eq_dispatch deadline positive plan calm
  obtain ⟨⟨t, run⟩, finished⟩ := dispatch_quiet deadline quiet positive plan calm log
  exact ⟨log, t, _, h', ran, run, fun none => ⟨finished none, left (finished none)⟩⟩

/-- Without a deadline the workers complete one of their interleavings. -/
theorem run_eq_complete {h : Harness K} {planned : List (Planned K.Recipe)} {workers : Int}
    (quiet : h.session.Quiet) (positive : 1 ≤ workers) (plan : h.catalog.plan = .ok planned)
    (calm : (h.decisions planned).interrupt = none) :
    ∃ log t x h', h.run workers none =
        (.ok ⟨h.runName (h.runs + 1), x.jobs.map (·.unit.result)⟩, h') ∧
      Pool.Run h.catalog h.replays workers.toNat ⟨h.jobs planned, h.launched planned log⟩ t x ∧
      x.Complete ∧ ∃ log', h'.session = { x.session.clear with log := log' } := by
  obtain ⟨log, t, x, h', ran, run, ends⟩ := run_eq_interleaving none quiet positive plan calm
  obtain ⟨complete, left⟩ := ends rfl
  rw [ending_none] at ran
  exact ⟨log, t, x, h', ran, run, complete, left⟩

/-- A run without a deadline leaves the harness as quiet as it found it, however it ends. -/
theorem quiet_run {h : Harness K} (quiet : h.session.Quiet) (workers : Int) :
    (h.run workers none).2.session.Quiet := by
  by_cases few : workers < 1
  · simp only [Harness.run, few, if_true]
    exact quiet
  · cases plan : h.catalog.plan with
    | error f =>
        have planning : h.settled.plan = (.error f, h.settled) := by
          simp only [Harness.plan, show h.settled.catalog.plan = .error f from plan]
        simp only [Harness.run, few, if_false, planning]
        exact quiet
    | ok planned =>
        have positive : 1 ≤ workers := by omega
        cases interrupt : (h.decisions planned).interrupt with
        | some f =>
            obtain ⟨h', raised, log, left⟩ := run_interrupted none positive plan interrupt
            rw [raised, left]
            exact quiet_launched quiet planned log
        | none =>
            obtain ⟨log, t, x, h', ran, run, complete, log', left⟩ :=
              run_eq_complete quiet positive plan interrupt
            obtain ⟨asks, tracked⟩ := h.tracked quiet plan interrupt run
            rw [ran, left]
            exact tracked.quiet complete log'

/-- A check takes the steps of a unit's job, up to where it knows its answer or has to wait. -/
theorem check_run (h : Harness K) (key : Key) (s : Scenario K.Recipe) :
    let u : TestUnit K.Recipe := { key, scenario := s }
    ∃ ds j, Job.Run h.catalog h.replays ⟨u, .queued⟩ h.session ds j (h.check key s).2.session ∧
      ((∃ f, j = ⟨u.onWay .resolving, .resolving (.done (.error f))⟩ ∧
          (h.check key s).1 = some (.error f)) ∨
        (∃ v, j = ⟨u.onWay .running, .running (.done v)⟩ ∧ (h.check key s).1 = some v) ∨
        (j.isActive = true ∧ j.Blocked "MainThread" (h.check key s).2.session)) := by
  intro u
  have begun : Job.Step h.catalog h.replays ⟨u, .queued⟩ h.session none
      ⟨u.onWay .resolving, .resolving (Concord.resolve h.catalog key.backend)⟩ h.session :=
    .begins u h.session
  have resolves (w : Work K (Except Fault (Option Nat))) (s' : Session K) :
      ∃ ds, Job.Run h.catalog h.replays ⟨u.onWay .resolving, .resolving w⟩ s' ds
        ⟨u.onWay .resolving, .resolving (w.advance true "MainThread" s').1⟩
        (w.advance true "MainThread" s').2 :=
    Job.run_advance .resolving (fun _ _ _ _ _ performed => .resolves "MainThread" performed) true w s'
  have executes (w : Work K (Except Fault String)) (s' : Session K) :
      ∃ ds, Job.Run h.catalog h.replays ⟨u.onWay .running, .running w⟩ s' ds
        ⟨u.onWay .running, .running (w.advance true "MainThread" s').1⟩
        (w.advance true "MainThread" s').2 :=
    Job.run_advance .running (fun _ _ _ _ _ performed => .executes "MainThread" performed) true w s'
  obtain ⟨ds, resolving⟩ := resolves (Concord.resolve h.catalog key.backend) h.session
  have checked : h.check key s =
      (((h.checkWork key s).advance true "MainThread" h.session).1.value?,
        { h with session := ((h.checkWork key s).advance true "MainThread" h.session).2 }) := rfl
  have waits (action : Action K) (next : action.Answer → Work K (Except Fault (Option Nat))) :=
    Work.perform_of_advance (Concord.resolve h.catalog key.backend) true "MainThread" h.session
      action next
  rw [checked, checkWork, Work.advance_andThen]
  generalize (Concord.resolve h.catalog key.backend).advance true "MainThread" h.session = resolved
    at resolving waits ⊢
  obtain ⟨rest, s'⟩ := resolved
  match rest with
  | .done (.error f) => exact ⟨_, _, .cons begun resolving, .inl ⟨f, rfl, rfl⟩⟩
  | Procedure.act action next =>
      exact ⟨_, _, .cons begun resolving,
        .inr (.inr ⟨rfl, action, waits action next rfl, .inl ⟨next, rfl⟩⟩)⟩
  | .done (.ok i) =>
      have obtained : Job.Step h.catalog h.replays ⟨u.onWay .resolving, .resolving (.done (.ok i))⟩ s'
          none ⟨u.onWay .running, .running (execute h.replays i key s)⟩ s' := .obtains _ i s'
      obtain ⟨ds', running⟩ := executes (execute h.replays i key s) s'
      have whole := (Job.Run.cons begun resolving).append (.cons obtained running)
      have waits' (action : Action K) (next : action.Answer → Work K (Except Fault String)) :=
        Work.perform_of_advance (execute h.replays i key s) true "MainThread" s' action next
      refine ⟨_, _, whole, .inr ?_⟩
      dsimp only
      generalize (execute h.replays i key s).advance true "MainThread" s' = ended at waits' ⊢
      obtain ⟨rest, s''⟩ := ended
      cases rest with
      | done v => exact .inl ⟨v, rfl, rfl⟩
      | act action next =>
          exact .inr ⟨rfl, action, waits' action next rfl, .inr ⟨next, rfl⟩⟩

end Harness

end Concord
