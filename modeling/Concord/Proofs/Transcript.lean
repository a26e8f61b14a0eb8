import Concord.Log.Recorder
import Concord.Proofs.FailureReason
import Concord.Proofs.Stranded
import Mathlib.Data.List.Perm.Basic
/-!
What a run writes down. Three write while the workers are at it: the runner says how each unit has
ended, the harness what it resolves and executes, and the supplied code what it likes. The runner
warns of every unit that has failed or could not be run, once. A unit that is left on its way it does
not mention at all, for that is what an interrupt does to the worker, too. So a bad run leaves a
warning or worse, unless all that is bad of it are such units, and then a flight recorder writes
nothing.
-/

namespace Concord

variable {K : Kit} {catalog : Catalog K} {replays workers : Nat} {ρ : Type}

/-! ### Records -/

/-- A warning or worse. -/
def Record.isSevere (r : Record) : Bool := decide (Severity.warning ≤ r.severity)

/-- The record as it was before a thread wrote it. -/
def Record.unsigned (r : Record) : Record := { r with thread := "MainThread" }

theorem Session.log_write (s : Session K) (thread : String) (rs : List Record) :
    (s.write thread rs).log.toList = s.log.toList ++ rs.map fun r => { r with thread } := by
  simp [Session.write]

/-- Whether the runner warns of a unit with this outcome. -/
def Outcome.isWarned : Outcome → Bool
  | .failed | .errored => true
  | _ => false

/-- The warning of a unit, if there is to be one. -/
def TestUnit.warnings (u : TestUnit ρ) : List Record :=
  if u.outcome.isWarned then [endRecord u] else []

theorem isSevere_endRecord (u : TestUnit ρ) : (endRecord u).isSevere = u.outcome.isWarned := by
  unfold endRecord
  split <;> simp_all [Outcome.isWarned] <;> rfl

theorem unsigned_endRecord (u : TestUnit ρ) : (endRecord u).unsigned = endRecord u := by
  unfold endRecord
  split <;> rfl

/-- The severe ones of some records, apart from who wrote them. -/
def severest (rs : List Record) : List Record := (rs.filter Record.isSevere).map Record.unsigned

theorem severest_append (rs rs' : List Record) : severest (rs ++ rs') = severest rs ++ severest rs' := by
  simp [severest]

theorem severest_signed (thread : String) (rs : List Record) :
    severest (rs.map fun r => { r with thread }) = severest rs := by
  unfold severest
  rw [List.filter_map, List.map_map]
  rfl

theorem severest_endRecord (u : TestUnit ρ) : severest [endRecord u] = u.warnings := by
  simp only [severest, TestUnit.warnings, List.filter_cons, isSevere_endRecord, List.filter_nil]
  split
  · rw [List.map_singleton, unsigned_endRecord]
  · rfl

theorem severest_unresolved {u : TestUnit ρ} (unwarned : u.outcome.isWarned = false) (f : Fault) :
    severest (unresolved u f).2 = (unresolved u f).1.warnings := by
  cases f with
  | unregistered b => exact severest_endRecord _
  | construction b r c => exact severest_endRecord _
  | _ => simp [unresolved, severest, TestUnit.warnings, unwarned]

theorem severest_executed {u : TestUnit ρ} (unwarned : u.outcome.isWarned = false)
    (v : Except Fault String) : severest (executed u v).2 = (executed u v).1.warnings := by
  have left : severest [] = u.warnings := by simp [severest, TestUnit.warnings, unwarned]
  cases v with
  | ok text => exact severest_endRecord _
  | error f =>
      cases f with
      | flaky k e rs => exact severest_endRecord _
      | mismatch k e a w => exact severest_endRecord _
      | _ =>
          simp only [executed]
          split
          · exact severest_endRecord _
          · exact left

/-! ### Transcripts -/

/-- What was written down in one step of a job. -/
structure Note (K : Kit) where
  job : Nat
  deed : Option (Deed K)
  records : List Record

/-- A course of jobs with what each step writes. -/
inductive Job.Transcript (catalog : Catalog K) (replays : Nat) :
    List (Job K) → List (Note K) → List (Job K) → Prop
  | nil (js : List (Job K)) : Transcript catalog replays js [] js
  | cons {js js' : List (Job K)} {ns : List (Note K)} {p : Nat} {j j' : Job K} {d : Option (Deed K)}
      {s s' : Session K} {rs : List Record} (here : js[p]? = some j)
      (goes : j.Step catalog replays s d j' s') (wrote : s'.log.toList = s.log.toList ++ rs)
      (rest : Transcript catalog replays (js.set p j') ns js') :
      Transcript catalog replays js (⟨p, d, rs⟩ :: ns) js'

/-- All that was written down. -/
def written (ns : List (Note K)) : List Record := ns.flatMap (·.records)

/-- What the runner itself has written: it speaks where no deed is done. -/
def Note.spoken (n : Note K) : List Record := if n.deed.isNone then n.records else []

/-- The supplied code was called. -/
def Note.isSupplied (n : Note K) : Bool := n.deed.any (·.action.target?.isSome)

/-- Who has written these records in a step: the runner, the harness or the supplied code. -/
inductive Voiced : Option (Deed K) → List Record → Prop
  | runner (rs : List Record) : Voiced none rs
  | harness (r : Record) (thread : String) : Voiced (some ⟨.write r, ()⟩) [{ r with thread }]
  | supplied {d : Deed K} (called : d.action.target?.isSome = true) (rs : List Record) :
      Voiced (some d) rs
  | nobody (d : Deed K) : Voiced (some d) []

theorem Session.log_call {α : Type} {s s' : Session K} {patient : Bool} {thread : String} {i : Nat}
    (f : Parser K → K.Own → K.Shared → Reply K α) {r : Except Fault α}
    (called : s.call patient thread i f = some (r, s')) :
    ∃ rs, s'.log.toList = s.log.toList ++ rs := by
  unfold Session.call at called
  split at called
  · cases called
  · dsimp only at called
    split at called
    · cases called
    · cases called
      exact ⟨_, Session.log_write _ _ _⟩

theorem Session.log_construct {s s' : Session K} {patient : Bool} {b : Backend K}
    {r : Except Fault (Option Nat)} (called : s.construct patient b = some (r, s')) :
    s'.log = s.log := by
  unfold Session.construct at called
  dsimp only at called
  split at called
  · cases called
  · split at called <;> cases called <;> rfl

/-- An action adds to the log, and what it adds is told from the action, unless it is a call. -/
theorem Session.perform_voiced {action : Action K} {s s' : Session K} {patient : Bool}
    {thread : String} {r : action.Answer}
    (performed : Session.perform patient thread action s = some (r, s')) :
    ∃ rs, s'.log.toList = s.log.toList ++ rs ∧ Voiced (some ⟨action, r⟩) rs := by
  have same {d : Deed K} (unchanged : s'.log = s.log) :
      ∃ rs, s'.log.toList = s.log.toList ++ rs ∧ Voiced (some d) rs :=
    ⟨[], by simp [unchanged], .nobody d⟩
  have call {d : Deed K} (called : d.action.target?.isSome = true)
      (grows : ∃ rs, s'.log.toList = s.log.toList ++ rs) :
      ∃ rs, s'.log.toList = s.log.toList ++ rs ∧ Voiced (some d) rs := by
    obtain ⟨rs, wrote⟩ := grows
    exact ⟨rs, wrote, .supplied called rs⟩
  cases action with
  | write x =>
      cases performed
      exact ⟨_, Session.log_write _ _ _, .harness x thread⟩
  | enter identity =>
      apply same
      simp only [Session.perform, Session.enter] at performed
      split at performed <;> cases performed <;> rfl
  | construct b => exact same (Session.log_construct performed)
  | publish c o =>
      cases performed
      exact same rfl
  | await c =>
      apply same
      obtain ⟨o, _, told⟩ := Option.map_eq_some_iff.mp performed
      cases told
      rfl
  | acquire b =>
      apply same
      simp only [Session.perform] at performed
      split at performed <;> cases performed
      rfl
  | release b =>
      cases performed
      exact same rfl
  | reset i => exact call rfl (Session.log_call (fun p => p.reset) performed)
  | parse i source => exact call rfl (Session.log_call (fun p => p.parse source) performed)
  | transform i tree recipe => exact call rfl (Session.log_call (fun p => p.transform tree recipe) performed)
  | print i tree => exact call rfl (Session.log_call (fun p => p.print tree) performed)
  | diagnose i tree => exact call rfl (Session.log_call (fun p => p.diagnostics tree) performed)

/-- What a step has added to the log. -/
theorem Job.Step.voiced {j j' : Job K} {s s' : Session K} {d : Option (Deed K)}
    (goes : j.Step catalog replays s d j' s') :
    ∃ rs, s'.log.toList = s.log.toList ++ rs ∧ Voiced d rs := by
  cases goes with
  | begins u s => exact ⟨[], by simp, .runner []⟩
  | resolves thread performed => exact Session.perform_voiced performed
  | obtains u i s => exact ⟨[], by simp, .runner []⟩
  | fails u f s thread => exact ⟨_, Session.log_write _ _ _, .runner _⟩
  | executes thread performed => exact Session.perform_voiced performed
  | ends u r s thread => exact ⟨_, Session.log_write _ _ _, .runner _⟩

/-- The runner warns in the step that ends a unit badly, and in no other. -/
theorem Job.Step.severest_spoken {j j' : Job K} {s s' : Session K} {d : Option (Deed K)}
    {rs : List Record} (goes : j.Step catalog replays s d j' s')
    (wrote : s'.log.toList = s.log.toList ++ rs) (unwarned : j.unit.outcome.isWarned = false)
    (underway : j'.stage.isOver = false → j'.unit.outcome.isWarned = false) (p : Nat) :
    severest (Note.mk p d rs).spoken = j'.unit.warnings := by
  have quiet (unwarned : j'.unit.outcome.isWarned = false) : severest [] = j'.unit.warnings := by
    simp [severest, TestUnit.warnings, unwarned]
  cases goes with
  | begins u s =>
      obtain rfl : rs = [] := by simpa using wrote
      exact quiet (underway rfl)
  | resolves thread performed => exact quiet (underway rfl)
  | obtains u i s =>
      obtain rfl : rs = [] := by simpa using wrote
      exact quiet (underway rfl)
  | fails u f s thread =>
      obtain rfl := List.append_cancel_left ((Session.log_write _ _ _).symm.trans wrote)
      exact (severest_signed thread _).trans (severest_unresolved unwarned f)
  | executes thread performed => exact quiet (underway rfl)
  | ends u r s thread =>
      obtain rfl := List.append_cancel_left ((Session.log_write _ _ _).symm.trans wrote)
      exact (severest_signed thread _).trans (severest_executed unwarned r)

namespace Job.Transcript

variable {js js' js'' : List (Job K)} {ns ns' : List (Note K)}

theorem append (first : Transcript catalog replays js ns js')
    (second : Transcript catalog replays js' ns' js'') :
    Transcript catalog replays js (ns ++ ns') js'' := by
  induction first with
  | nil => exact second
  | cons here goes wrote _ ih => exact .cons here goes wrote (ih second)

theorem course (transcript : Transcript catalog replays js ns js') :
    Course catalog replays js (ns.map fun n => (n.job, n.deed)) js' := by
  induction transcript with
  | nil js => exact .nil js
  | cons here goes _ _ ih => exact .cons here goes ih

theorem voiced (transcript : Transcript catalog replays js ns js') :
    ∀ n ∈ ns, Voiced n.deed n.records := by
  induction transcript with
  | nil => simp
  | cons here goes wrote _ ih =>
      obtain ⟨rs, wrote', voiced⟩ := goes.voiced
      obtain rfl := List.append_cancel_left (wrote'.symm.trans wrote)
      simpa using ⟨voiced, ih⟩

theorem of_job {j j' : Job K} {s s' : Session K} {ds : List (Option (Deed K))}
    (run : Job.Run catalog replays j s ds j' s') {p : Nat} (here : js[p]? = some j) :
    ∃ ns, Transcript catalog replays js ns (js.set p j') ∧
      s'.log.toList = s.log.toList ++ written ns := by
  induction run generalizing js with
  | nil j s =>
      rw [set_of_getElem? here]
      exact ⟨[], .nil _, by simp [written]⟩
  | @cons j j₁ j₂ s s₁ s₂ d ds step rest ih =>
      obtain ⟨rs, wrote, _⟩ := step.voiced
      have inside := (List.getElem?_eq_some_iff.mp here).1
      have next : (js.set p j₁)[p]? = some j₁ := by simp [inside]
      obtain ⟨ns, goes, wrote'⟩ := ih next
      rw [List.set_set] at goes
      refine ⟨_, .cons here step wrote goes, ?_⟩
      rw [wrote', wrote]
      simp [written]

/-- Working off jobs adds to the log what a transcript of it holds. -/
theorem dispatch (catalog : Catalog K) (replays workers : Nat) (patient : Bool)
    (turns : Option Nat) (waiting : Nat) (js : List (Job K)) (s : Session K) :
    ∃ ns, Transcript catalog replays js ns
        (Concord.dispatch catalog replays patient workers turns waiting js s).1 ∧
      (Concord.dispatch catalog replays patient workers turns waiting js s).2.log.toList =
        s.log.toList ++ written ns := by
  refine Pool.dispatch_induction
    (M := fun js s js' s' => ∃ ns, Transcript catalog replays js ns js' ∧
      s'.log.toList = s.log.toList ++ written ns)
    (fun js _ => ⟨[], .nil js, by simp [written]⟩) ?_ ?_ patient turns waiting [] js s
  · rintro js₁ js₂ js₃ s₁ s₂ s₃ ⟨ns, first, wrote⟩ ⟨ns', second, wrote'⟩
    exact ⟨ns ++ ns', first.append second, by simp [wrote', wrote, written]⟩
  · intro j j' s s' ds run ps js
    have here : (ps ++ j :: js)[ps.length]? = some j := by simp
    have goes := of_job run here
    rwa [show (ps ++ j :: js).set ps.length j' = ps ++ j' :: js by simp] at goes

end Job.Transcript

/-! ### Resolutions and executions from their first deed to their last -/

/-- A resolution that has come to its end: the identity was not registered, or the outcome was read
from the context of somebody else, or the constructor was called, which returned, raised or was
interrupted. -/
inductive Resolution (identity : String) : List (Deed K) → Except Fault (Option Nat) → Prop
  | refused : Resolution identity [] (.error (.unregistered identity))
  | read (c : Nat) (pending : Bool) {x : Record} (minor : x.isSevere = false) (o : Except Fault Nat) :
      Resolution identity
        [⟨.enter identity, .joined c pending⟩, ⟨.write x, ()⟩, ⟨.await c, o⟩] (o.map some)
  | built (b : Backend K) (c : Nat) {x y : Record} (minor : x.isSevere = false)
      (minor' : y.isSevere = false) (i : Option Nat) :
      Resolution identity
        [⟨.enter identity, .opened c⟩, ⟨.write x, ()⟩, ⟨.construct b, .ok i⟩, ⟨.write y, ()⟩,
          ⟨.publish c (.ok i), ()⟩] (.ok i)
  | failed (b : Backend K) (c : Nat) {x : Record} (y : Record) (minor : x.isSevere = false) {f : Fault}
      (ordinary : f.isOrdinary = true) :
      Resolution identity
        [⟨.enter identity, .opened c⟩, ⟨.write x, ()⟩, ⟨.construct b, .error f⟩, ⟨.write y, ()⟩,
          ⟨.publish c (.error (publishedFailure identity f)), ()⟩]
        (.error (publishedFailure identity f))
  | interrupted (b : Backend K) (c : Nat) {x : Record} (minor : x.isSevere = false) {f : Fault}
      (interrupt : f.isOrdinary = false) :
      Resolution identity
        [⟨.enter identity, .opened c⟩, ⟨.write x, ()⟩, ⟨.construct b, .error f⟩,
          ⟨.publish c (.error (publishedFailure identity f)), ()⟩] (.error f)

theorem Work.Leads.resolution {identity : String} {ds : List (Deed K)}
    {v : Except Fault (Option Nat)}
    (leads : Leads (Concord.resolve catalog identity) ds (.done v)) : Resolution identity ds v := by
  cases registered : catalog.backend? identity with
  | none =>
      rw [resolve_eq_of_unregistered registered] at leads
      cases leads
      exact .refused
  | some b =>
      obtain rfl := Catalog.identity_of_backend? registered
      rw [resolve_eq_of_registered registered] at leads
      cases leads with
      | @cons _ _ e _ _ rest =>
      cases e with
      | joined c pending =>
          cases rest with
          | cons rest =>
          cases rest with
          | cons rest =>
          cases rest
          exact .read c pending rfl _
      | opened c =>
          simp only [entering, buildIn_eq] at rest
          cases rest with
          | cons rest =>
          cases rest with
          | @cons _ _ r _ _ rest =>
          cases r with
          | ok i =>
              cases rest with
              | cons rest =>
              cases rest with
              | cons rest =>
              cases rest
              exact .built b c rfl rfl i
          | error f =>
              simp only [Concord.building, publication, delivery] at rest
              split at rest
              · rename_i ordinary
                cases rest with
                | cons rest =>
                cases rest with
                | cons rest =>
                cases rest
                exact .failed b c _ rfl ordinary
              · rename_i interrupt
                cases rest with
                | cons rest =>
                cases rest
                exact .interrupted b c rfl (by simpa using interrupt)

/-- The harness itself has written a warning or worse. -/
def Deed.isGrave (d : Deed K) : Bool :=
  match d.action with
  | .write r => r.isSevere
  | _ => false

namespace Resolution

variable {identity : String} {ds : List (Deed K)} {v : Except Fault (Option Nat)}

theorem strands_eq (resolution : Resolution identity ds v) :
    ds.any Deed.strands = endsWith (!·.isDeclared) v := by
  cases resolution with
  | refused => rfl
  | read c pending minor o =>
      cases o with
      | ok k => rfl
      | error f => simp [Deed.strands, Deed.fault?, endsWith, Except.map]
  | built => rfl
  | failed b c y minor ordinary =>
      simp [Deed.strands, Deed.fault?, endsWith, ordinary, Fault.isDeclared_publishedFailure]
  | interrupted b c minor interrupt =>
      simp [Deed.strands, Deed.fault?, endsWith, interrupt, Fault.isDeclared_of_interrupt interrupt]

/-- Only of a constructor that raised there is something grave to say. -/
theorem eq_of_grave (resolution : Resolution identity ds v) (grave : ds.any Deed.isGrave = true) :
    ∃ f : Fault, f.isOrdinary = true ∧ v = .error (publishedFailure identity f) := by
  cases resolution with
  | failed b c y minor ordinary => exact ⟨_, ordinary, rfl⟩
  | _ => simp_all [Deed.isGrave]

end Resolution

/-- What is done in an execution: an instance is called, a backend is taken and given back, and a
line is written that is no warning. -/
def Action.IsInner : Action K → Prop
  | .write r => r.isSevere = false
  | .acquire _ | .release _ => True
  | action => action.target?.isSome = true

theorem Work.Calls.every {α : Type} {k : Nat} {w : Work K (Except Fault α)} (calls : w.Calls k) :
    w.Every (·.IsInner) := by
  induction calls with
  | done v => exact .done _
  | @act action next target fails goes ih =>
      refine .act ?_ fun r => ?_
      · cases action <;> first | exact rfl | cases target
      · cases raised : Deed.fault? ⟨action, r⟩ with
        | none => exact ih r raised
        | some f =>
            rw [fails r f raised]
            exact .done _

theorem Work.Every.inner_execute (n : Nat) (i : Option Nat) (key : Key) (s : Scenario K.Recipe) :
    (Concord.execute n i key s).Every (·.IsInner) := by
  rw [execute_eq]
  refine .act trivial fun _ => bind ?_ fun rendered => .act trivial fun _ => ?_
  · cases i with
    | none => exact .done _
    | some k => exact (Work.Calls.replay s n []).every
  · cases rendered with
    | error f => exact .done _
    | ok rs =>
        simp only [Concord.judging]
        split
        · exact .done _
        · exact .act rfl fun _ => .done _

namespace Work.Leads

variable {n : Nat} {i : Option Nat} {key : Key} {s : Scenario K.Recipe} {ds : List (Deed K)}

theorem not_grave {w : Work K (Except Fault String)} (leads : Leads (Concord.execute n i key s) ds w) :
    ds.any Deed.isGrave = false := by
  refine List.any_eq_false.mpr fun d member => ?_
  have inner := leads.every (.inner_execute n i key s) d member
  obtain ⟨action, r⟩ := d
  cases action with
  | write x =>
      have minor : x.isSevere = false := inner
      simp [Deed.isGrave, minor]
  | _ => simp [Deed.isGrave]

theorem strands_eq {v : Except Fault String} (leads : Leads (Concord.execute n i key s) ds (.done v)) :
    ds.any Deed.strands = endsWith (!·.isOrdinary) v := by
  have plain : ∀ d ∈ ds, d.strands = d.fault?.any (!·.isOrdinary) := by
    intro d member
    have inner := leads.every (.inner_execute n i key s) d member
    obtain ⟨action, r⟩ := d
    cases action <;> first | rfl | cases inner
  rw [any_strands_eq plain]
  cases leads.execute.1 with
  | raised raised => simp [raised, endsWith]
  | absent uncalled =>
      rw [uncalled.calm]
      rfl
  | judged calm all =>
      have contained := contained_judge key s (renderings ds)
      rw [calm]
      cases verdict : judge key s (renderings ds) with
      | ok text => rfl
      | error f => simp [endsWith, contained f verdict]

end Work.Leads

/-! ### Jobs that are over -/

namespace Job.Records

variable {d : TestUnit K.Recipe × Bool} {ds : List (Deed K)} {j : Job K}

/-- A job that is over reports its unit as stuck if one of its deeds has stranded it, and else not. -/
theorem reported (fresh : d.1.IsFresh) (records : Records catalog replays d ds j)
    (finished : j.stage.isOver = true) : d.1.Reported (ds.any Deed.strands) j.unit.result := by
  cases records with
  | rejected u =>
      rw [show (u.moved (.skip .gate)).result = u.rejected from TestUnit.IsFresh.result_skip fresh]
      exact ⟨rfl, by simp [TestUnit.rejected], by simp [TestUnit.rejected]⟩
  | queued => cases finished
  | resolving => cases finished
  | unresolved leads =>
      rw [leads.resolution.strands_eq]
      exact .unresolved _ _
  | running => cases finished
  | executed obtained leads =>
      rw [List.any_append, obtained.resolution.strands_eq, leads.strands_eq]
      exact .executed _ _

/-- If the harness itself had something grave to say of a unit, there was no backend for it. -/
theorem errored_of_grave (records : Records catalog replays d ds j)
    (finished : j.stage.isOver = true) (grave : ds.any Deed.isGrave = true) :
    j.unit.outcome = .errored := by
  cases records with
  | rejected => cases grave
  | queued => cases finished
  | resolving => cases finished
  | @unresolved u _ _ leads =>
      obtain ⟨f, ordinary, same⟩ := leads.resolution.eq_of_grave grave
      cases same
      have built := result_unresolved u (publishedFailure u.key.backend f)
      rw [publishedFailure, if_pos ordinary] at built ⊢
      exact congrArg Result.outcome built
  | running => cases finished
  | executed obtained leads =>
      rw [List.any_append, leads.not_grave, Bool.or_false] at grave
      obtain ⟨f, _, same⟩ := obtained.resolution.eq_of_grave grave
      cases same

theorem unwarned (fresh : d.1.IsFresh) (records : Records catalog replays d ds j)
    (unfinished : j.stage.isOver = false) : j.unit.outcome.isWarned = false := by
  have stuck : j.unit.outcome = .stuck := records.outcome_of_unfinished fresh unfinished
  rw [stuck]
  rfl

end Job.Records

/-! ### What transcripts hold -/

/-- The warnings of these jobs. -/
def warningsOf (js : List (Job K)) : List Record := js.flatMap (·.unit.warnings)

theorem mem_warningsOf {js : List (Job K)} {j : Job K} (member : j ∈ js)
    (warned : j.unit.outcome.isWarned = true) : endRecord j.unit ∈ warningsOf js :=
  List.mem_flatMap.mpr ⟨j, member, by simp [TestUnit.warnings, warned]⟩

theorem exists_warned {js : List (Job K)} {r : Record} (member : r ∈ warningsOf js) :
    ∃ j ∈ js, j.unit.outcome.isWarned = true := by
  obtain ⟨j, inside, warns⟩ := List.mem_flatMap.mp member
  refine ⟨j, inside, ?_⟩
  unfold TestUnit.warnings at warns
  split at warns
  · assumption
  · cases warns

theorem warningsOf_set {js : List (Job K)} {p : Nat} {j : Job K} (here : js[p]? = some j)
    (unwarned : j.unit.outcome.isWarned = false) (j' : Job K) :
    (j'.unit.warnings ++ warningsOf js).Perm (warningsOf (js.set p j')) := by
  obtain ⟨inside, rfl⟩ := List.getElem?_eq_some_iff.mp here
  have others : (warningsOf (js.eraseIdx p)).Perm (warningsOf js) := by
    have same := (List.getElem_cons_eraseIdx_perm inside).flatMap_right (fun j => j.unit.warnings)
    have none : js[p].unit.warnings = [] := by simp [TestUnit.warnings, unwarned]
    rwa [List.flatMap_cons, none, List.nil_append] at same
  have changed := (List.set_perm_cons_eraseIdx inside j').flatMap_right (fun j => j.unit.warnings)
  rw [List.flatMap_cons] at changed
  exact ((others.symm.append_left _).trans changed.symm)

namespace Job.Recorded

variable {units : List (TestUnit K.Recipe × Bool)} {t : List (Nat × Option (Deed K))}
  {js : List (Job K)}

theorem at_job (recorded : Recorded catalog replays units t js) {p : Nat} {j : Job K}
    (here : js[p]? = some j) :
    ∃ d, units[p]? = some d ∧ Job.Records catalog replays d (Job.history p t) j := by
  have inside : p < units.length := recorded.everyJob ▸ (List.getElem?_eq_some_iff.mp here).1
  obtain ⟨j', there, records⟩ := recorded.records p _ (List.getElem?_eq_getElem inside)
  obtain rfl := Option.some.inj (here.symm.trans there)
  exact ⟨_, List.getElem?_eq_getElem inside, records⟩

theorem unwarned (recorded : Recorded catalog replays units t js) (fresh : ∀ d ∈ units, d.1.IsFresh)
    {p : Nat} {j : Job K} (here : js[p]? = some j) (unfinished : j.stage.isOver = false) :
    j.unit.outcome.isWarned = false := by
  obtain ⟨d, planned, records⟩ := recorded.at_job here
  exact records.unwarned (fresh d (List.mem_of_getElem? planned)) unfinished

end Job.Recorded

namespace Job.Transcript

variable {units : List (TestUnit K.Recipe × Bool)} {t : List (Nat × Option (Deed K))}
  {js js' : List (Job K)} {ns : List (Note K)}

/-- In whatever transcript, the runner has warned of each job that has ended badly meanwhile, once,
and of no other. -/
theorem warned (transcript : Transcript catalog replays js ns js')
    (recorded : Recorded catalog replays units t js) (fresh : ∀ d ∈ units, d.1.IsFresh) :
    (severest (ns.flatMap Note.spoken) ++ warningsOf js).Perm (warningsOf js') := by
  induction transcript generalizing t with
  | nil js => exact .refl _
  | @cons js js' ns p j j' d s s' rs here goes wrote rest ih =>
      have next := recorded.step fresh here goes
      have unfinished : j.stage.isOver = false := by cases goes <;> rfl
      have unwarned := recorded.unwarned fresh here unfinished
      have inside := (List.getElem?_eq_some_iff.mp here).1
      have there : (js.set p j')[p]? = some j' := by simp [inside]
      have speaks := goes.severest_spoken wrote unwarned (next.unwarned fresh there) p
      rw [List.flatMap_cons, severest_append, speaks, List.append_assoc]
      have moved := List.perm_append_comm_assoc j'.unit.warnings (severest (ns.flatMap Note.spoken))
        (warningsOf js)
      have ended := (warningsOf_set here unwarned j').append_left (severest (ns.flatMap Note.spoken))
      exact (moved.trans ended).trans (ih next)

theorem job_lt (transcript : Transcript catalog replays js ns js') : ∀ n ∈ ns, n.job < js.length := by
  induction transcript with
  | nil => simp
  | cons here _ _ _ ih =>
      have inside := (List.getElem?_eq_some_iff.mp here).1
      simpa using ⟨inside, by simpa using ih⟩

/-- What alarms in a transcript, told from how the jobs are left. -/
theorem alarms (transcript : Transcript catalog replays js ns js')
    (recorded : Recorded catalog replays units [] js) (fresh : ∀ d ∈ units, d.1.IsFresh)
    (alarm : (written ns).any Record.isSevere = true) :
    (∃ j ∈ js', j.unit.outcome.isWarned = true) ∨ (∃ j ∈ js', j.stage.isOver = false) ∨
      ∃ n ∈ ns, n.isSupplied = true ∧ n.records.any Record.isSevere = true := by
  obtain ⟨n, member, loud⟩ : ∃ n ∈ ns, n.records.any Record.isSevere = true := by
    simpa [written, List.any_flatMap] using alarm
  have voiced := transcript.voiced n member
  obtain ⟨p, d, rs⟩ := n
  cases voiced with
  | runner rs =>
      obtain ⟨r, inside, severe⟩ := List.any_eq_true.mp loud
      have said : r.unsigned ∈ severest (ns.flatMap Note.spoken) := by
        refine List.mem_map_of_mem (List.mem_filter.mpr ⟨?_, severe⟩)
        exact List.mem_flatMap.mpr ⟨_, member, inside⟩
      have warned := (transcript.warned recorded fresh).subset (List.mem_append_left _ said)
      exact .inl (exists_warned warned)
  | harness x thread =>
      have after : Recorded catalog replays units (ns.map fun n => (n.job, n.deed)) js' := by
        simpa using recorded.course fresh transcript.course
      have inside : p < js'.length := by
        rw [after.everyJob, ← recorded.everyJob]
        exact transcript.job_lt _ member
      obtain ⟨d, planned, records⟩ := after.at_job (List.getElem?_eq_getElem inside)
      cases finished : js'[p].stage.isOver with
      | false => exact .inr (.inl ⟨_, List.getElem_mem inside, finished⟩)
      | true =>
          have grave : (Job.history p (ns.map fun n => (n.job, n.deed))).any Deed.isGrave = true := by
            refine List.any_eq_true.mpr ⟨⟨.write x, ()⟩, ?_, ?_⟩
            · exact List.mem_filterMap.mpr ⟨_, List.mem_map_of_mem member, by simp⟩
            · simpa [Deed.isGrave, Record.isSevere] using loud
          have errored := records.errored_of_grave finished grave
          exact .inl ⟨_, List.getElem_mem inside, by rw [errored]; rfl⟩
  | supplied called rs => exact .inr (.inr ⟨_, member, called, loud⟩)
  | nobody d => cases loud

end Job.Transcript

/-! ### Runs -/

theorem Job.Run.log {j j' : Job K} {s s' : Session K} {ds : List (Option (Deed K))}
    (run : Job.Run catalog replays j s ds j' s') : s.log.toList <+: s'.log.toList := by
  induction run with
  | nil => exact List.prefix_refl _
  | cons step _ ih =>
      obtain ⟨rs, wrote, _⟩ := step.voiced
      exact (wrote ▸ List.prefix_append _ rs).trans ih

theorem any_isSevere_unsigned (rs : List Record) :
    (rs.map Record.unsigned).any Record.isSevere = rs.any Record.isSevere := by
  rw [List.any_map]
  rfl

/-- A report is made with an alarm if the deadline has cut something off. -/
theorem alarms_closingRecords (deadline : Option Text.Seconds) (r : Report) (js : List (Job K)) :
    (Harness.closingRecords deadline r js).any Record.isSevere = true ↔
      deadline ≠ none ∧ ∃ j ∈ js, j.stage.isOver = false := by
  have record (severity : Severity) (text : String) :
      (Source.runner.record severity text).isSevere = decide (Severity.warning ≤ severity) := rfl
  have cut : js.countP (!·.stage.isOver) = 0 ↔ ¬ ∃ j ∈ js, j.stage.isOver = false := by
    simp [List.countP_eq_zero]
  cases deadline with
  | none => simp [Harness.closingRecords, record, Severity.warning, Severity.info]
  | some t =>
      simp only [Harness.closingRecords]
      split
      · rename_i finished
        simp [record, Severity.warning, Severity.info, cut.mp finished]
      · rename_i unfinished
        have late := Classical.not_not.mp (mt cut.mpr unfinished)
        simp [record, Severity.warning, Severity.error, late]

namespace Harness

variable {h : Harness K} {planned : List (Planned K.Recipe)} {workers : Int}
  {deadline : Option Text.Seconds} {ns : List (Note K)} {js : List (Job K)}

theorem alarms_openingRecords (h : Harness K) (planned : List (Planned K.Recipe)) (workers : Int) :
    (h.openingRecords planned workers).any Record.isSevere =
      (h.decisions planned).records.any Record.isSevere := by
  have planning : (Catalog.planRecord planned).isSevere = false := rfl
  have launching (runId : String) (entries : List (Planned K.Recipe × Bool)) (n : Nat) :
      (launchRecord runId entries n).isSevere = false := rfl
  simp [openingRecords, planning, launching]

/-- The report of a run that leaves its jobs like this. -/
def reportOn (h : Harness K) (js : List (Job K)) : Report :=
  ⟨h.runName (h.runs + 1), js.map (·.unit.result)⟩

/-- All that is written down from when a run begins until its report is made. -/
def emitted (h : Harness K) (planned : List (Planned K.Recipe)) (workers : Int)
    (deadline : Option Text.Seconds) (ns : List (Note K)) (js : List (Job K)) : List Record :=
  (h.openingRecords planned workers).map Record.unsigned ++ written ns ++
    (closingRecords deadline (h.reportOn js) js).map Record.unsigned

/-- What the records of a run tell of its jobs. -/
structure Traced (h : Harness K) (planned : List (Planned K.Recipe)) (workers : Int)
    (deadline : Option Text.Seconds) (ns : List (Note K)) (js : List (Job K)) : Prop where
  /-- The runner has warned of each unit that has failed or could not be run, once. -/
  warned : (severest (ns.flatMap Note.spoken)).Perm (js.flatMap (·.unit.warnings))
  /-- There is an alarm for such a unit, for one that the deadline has cut off, and for what the gate
  and the supplied code complain of. -/
  alarms_iff : (deadline = none → ∀ j ∈ js, j.stage.isOver = true) →
    ((h.emitted planned workers deadline ns js).any Record.isSevere = true ↔
      (∃ j ∈ js, j.unit.outcome.isWarned = true) ∨ (∃ j ∈ js, j.stage.isOver = false) ∨
        (h.decisions planned).records.any Record.isSevere = true ∨
        ∃ n ∈ ns, n.isSupplied = true ∧ n.records.any Record.isSevere = true)
  /-- A bad run without an alarm is one in which units were stranded, and nothing else went wrong. -/
  untold_iff : (deadline = none → ∀ j ∈ js, j.stage.isOver = true) →
    ((h.reportOn js).ok = false ∧
        (h.emitted planned workers deadline ns js).any Record.isSevere = false ↔
      (∃ p < js.length, (Job.history p (ns.map fun n => (n.job, n.deed))).any Deed.strands = true) ∧
        (∀ j ∈ js, j.stage.isOver = true ∧ j.unit.outcome.isWarned = false) ∧
        (h.decisions planned).records.any Record.isSevere = false ∧
        ∀ n ∈ ns, n.isSupplied = true → n.records.any Record.isSevere = false)
  /-- A flight recorder has written all up to an alarm. -/
  flushed : ∀ (recorder : Log.Recorder) (before after : List Record) (r : Record),
    recorder.hasFile = true → recorder.trigger = .warning → r.isSevere = true →
    h.emitted planned workers deadline ns js = before ++ r :: after →
    recorder.written ++ recorder.buffer ++ (before ++ [r]) <+:
      (recorder.recordAll (h.emitted planned workers deadline ns js)).written
  /-- Without an alarm it has written nothing, as long as its buffer has room. -/
  unflushed : ∀ recorder : Log.Recorder, recorder.trigger = .warning →
    (h.emitted planned workers deadline ns js).any Record.isSevere = false →
    recorder.buffer.length + (h.emitted planned workers deadline ns js).length < recorder.capacity →
    (recorder.recordAll (h.emitted planned workers deadline ns js)).written = recorder.written

theorem warnings_jobs (fresh : ∀ d ∈ decided (h.decisions planned).entries, d.1.IsFresh) :
    warningsOf (h.jobs planned) = [] := by
  refine List.flatMap_eq_nil_iff.mpr fun j member => ?_
  obtain ⟨d, inside, rfl⟩ := List.mem_map.mp member
  have unwarned : (Job.start d).unit.outcome.isWarned = false := by
    obtain ⟨u, runs⟩ := d
    cases runs with
    | true =>
        have records : Job.Records h.catalog h.replays (u, true) [] ⟨u, .queued⟩ := .queued u
        exact records.unwarned (fresh _ inside) rfl
    | false =>
        have skipped := congrArg Result.outcome (TestUnit.IsFresh.result_skip (fresh _ inside))
        have outcome : (u.moved (.skip .gate)).outcome = .skipped := skipped
        show (u.moved (.skip .gate)).outcome.isWarned = false
        rw [outcome]
        rfl
  simp [TestUnit.warnings, unwarned]

theorem any_emitted :
    (h.emitted planned workers deadline ns js).any Record.isSevere = true ↔
      (h.decisions planned).records.any Record.isSevere = true ∨
        (written ns).any Record.isSevere = true ∨
        deadline ≠ none ∧ ∃ j ∈ js, j.stage.isOver = false := by
  rw [← alarms_closingRecords deadline (h.reportOn js) js, ← h.alarms_openingRecords planned workers]
  simp only [emitted, List.any_append, any_isSevere_unsigned, Bool.or_eq_true, or_assoc]

theorem alarms_iff (fresh : ∀ d ∈ decided (h.decisions planned).entries, d.1.IsFresh)
    (workers : Int) (transcript : Job.Transcript h.catalog h.replays (h.jobs planned) ns js)
    (ended : deadline = none → ∀ j ∈ js, j.stage.isOver = true) :
    (h.emitted planned workers deadline ns js).any Record.isSevere = true ↔
      (∃ j ∈ js, j.unit.outcome.isWarned = true) ∨ (∃ j ∈ js, j.stage.isOver = false) ∨
        (h.decisions planned).records.any Record.isSevere = true ∨
        ∃ n ∈ ns, n.isSupplied = true ∧ n.records.any Record.isSevere = true := by
  have recorded := Job.Recorded.start h.catalog h.replays (decided (h.decisions planned).entries)
  have noted {n : Note K} (member : n ∈ ns) {r : Record} (inside : r ∈ n.records)
      (severe : r.isSevere = true) : (written ns).any Record.isSevere = true :=
    List.any_eq_true.mpr ⟨r, List.mem_flatMap.mpr ⟨n, member, inside⟩, severe⟩
  rw [any_emitted]
  constructor
  · rintro (gate | worked | ⟨_, cut⟩)
    · exact .inr (.inr (.inl gate))
    · rcases transcript.alarms recorded fresh worked with warned | cut | supplied
      · exact .inl warned
      · exact .inr (.inl cut)
      · exact .inr (.inr (.inr supplied))
    · exact .inr (.inl cut)
  · rintro (⟨j, member, warned⟩ | ⟨j, member, unfinished⟩ | gate | ⟨n, member, _, loud⟩)
    · have told := (transcript.warned recorded fresh).symm.subset (mem_warningsOf member warned)
      rw [warnings_jobs fresh, List.append_nil] at told
      obtain ⟨r, said, _⟩ := List.mem_map.mp told
      obtain ⟨said, severe⟩ := List.mem_filter.mp said
      obtain ⟨n, noted', spoken⟩ := List.mem_flatMap.mp said
      refine .inr (.inl (noted noted' ?_ severe))
      unfold Note.spoken at spoken
      split at spoken
      · exact spoken
      · cases spoken
    · refine .inr (.inr ⟨fun none => ?_, j, member, unfinished⟩)
      rw [ended none j member] at unfinished
      cases unfinished
    · exact .inl gate
    · obtain ⟨r, inside, severe⟩ := List.any_eq_true.mp loud
      exact .inr (.inl (noted member inside severe))

/-- A job that is over is stuck just if its unit was stranded. -/
theorem stuck_iff (fresh : ∀ d ∈ decided (h.decisions planned).entries, d.1.IsFresh)
    (transcript : Job.Transcript h.catalog h.replays (h.jobs planned) ns js) {p : Nat} {j : Job K}
    (here : js[p]? = some j) (finished : j.stage.isOver = true) :
    j.unit.outcome = .stuck ↔
      (Job.history p (ns.map fun n => (n.job, n.deed))).any Deed.strands = true := by
  have recorded := (Job.Recorded.start h.catalog h.replays
    (decided (h.decisions planned).entries)).course fresh transcript.course
  obtain ⟨d, planned, records⟩ := recorded.at_job here
  exact (records.reported (fresh d (List.mem_of_getElem? planned)) finished).stuck_iff

theorem untold_iff (fresh : ∀ d ∈ decided (h.decisions planned).entries, d.1.IsFresh)
    (workers : Int) (transcript : Job.Transcript h.catalog h.replays (h.jobs planned) ns js)
    (ended : deadline = none → ∀ j ∈ js, j.stage.isOver = true) :
    (h.reportOn js).ok = false ∧
        (h.emitted planned workers deadline ns js).any Record.isSevere = false ↔
      (∃ p < js.length, (Job.history p (ns.map fun n => (n.job, n.deed))).any Deed.strands = true) ∧
        (∀ j ∈ js, j.stage.isOver = true ∧ j.unit.outcome.isWarned = false) ∧
        (h.decisions planned).records.any Record.isSevere = false ∧
        ∀ n ∈ ns, n.isSupplied = true → n.records.any Record.isSevere = false := by
  have alarms := alarms_iff fresh workers transcript ended
  rw [← Bool.not_eq_true ((h.emitted planned workers deadline ns js).any _), alarms,
    Report.ok_eq_false_iff]
  constructor
  · rintro ⟨⟨r, member, bad⟩, silent⟩
    simp only [not_or, not_exists, not_and, Bool.not_eq_true, Bool.not_eq_false] at silent
    obtain ⟨unwarned, finished, gate, supplied⟩ := silent
    obtain ⟨j, inside, rfl⟩ := List.mem_map.mp member
    have stuck : j.unit.outcome = .stuck := by
      have calm := unwarned j inside
      rcases bad with failed | errored | stuck
      · rw [show j.unit.outcome = .failed from failed] at calm
        cases calm
      · rw [show j.unit.outcome = .errored from errored] at calm
        cases calm
      · exact stuck
    obtain ⟨p, here⟩ := List.mem_iff_getElem?.mp inside
    have stranded := (stuck_iff fresh transcript here (finished j inside)).mp stuck
    exact ⟨⟨p, (List.getElem?_eq_some_iff.mp here).1, stranded⟩,
      fun j inside => ⟨finished j inside, unwarned j inside⟩, gate, supplied⟩
  · rintro ⟨⟨p, inside, stranded⟩, finished, gate, supplied⟩
    have here : js[p]? = some js[p] := List.getElem?_eq_getElem inside
    have stuck := (stuck_iff fresh transcript here (finished _ (List.getElem_mem inside)).1).mpr stranded
    refine ⟨⟨_, List.mem_map_of_mem (List.getElem_mem inside), .inr (.inr stuck)⟩, ?_⟩
    rintro (⟨j, member, warned⟩ | ⟨j, member, unfinished⟩ | loud | ⟨n, member, called, loud⟩)
    · rw [(finished j member).2] at warned
      cases warned
    · rw [(finished j member).1] at unfinished
      cases unfinished
    · rw [gate] at loud
      cases loud
    · rw [supplied n member called] at loud
      cases loud

theorem traced (fresh : ∀ d ∈ decided (h.decisions planned).entries, d.1.IsFresh) (workers : Int)
    (deadline : Option Text.Seconds)
    (transcript : Job.Transcript h.catalog h.replays (h.jobs planned) ns js) :
    h.Traced planned workers deadline ns js := by
  constructor
  case warned =>
    have warned := transcript.warned
      (Job.Recorded.start h.catalog h.replays (decided (h.decisions planned).entries)) fresh
    rwa [warnings_jobs fresh, List.append_nil] at warned
  case alarms_iff => exact alarms_iff fresh workers transcript
  case untold_iff => exact untold_iff fresh workers transcript
  case flushed =>
    intro recorder before after r file trigger severe split
    rw [split]
    exact Log.Recorder.written_of_trigger file (by simpa [trigger, Record.isSevere] using severe) after
  case unflushed =>
    intro recorder trigger silent room
    rw [Log.Recorder.recordAll_of_undue _ room]
    intro r member
    have minor := List.any_eq_false.mp silent r member
    simpa [trigger, Record.isSevere] using minor

/-- A harness with a recipe that is interrupted. -/
def interrupted : Harness PlainText.kit :=
  ((Harness.start (K := PlainText.kit) {} (.make false [] []) defaultReplays
    (numberedRun "run")).registerAll
      [.contract "Interrupted" [⟨"a", "x", .raising 0 (.breakdown .interrupt ""), "x", none⟩] [],
       Samples.plain "V8" 8 1 "", Samples.bind "V8" ["Interrupted"]]).2

end Harness

end Concord
