import Concord.Proofs.Dispatch
import Concord.Proofs.Restart
/-!
Histories. A procedure depends on nothing but the answers that it gets, so that what was done at a
unit tells how far its worker is, and when the worker is through, what it ended with: the first fault
that a call raised, or else the verdict on what the replays have rendered. That is so in whatever
order the workers act and whatever is done to the session meanwhile.
-/

namespace Concord

variable {K : Kit} {α β : Type}

/-! ### Answered work -/

/-- Answered as these deeds were, the work `w` comes to `w'`. -/
inductive Work.Leads : Work K α → List (Deed K) → Work K α → Prop
  | nil (w : Work K α) : Leads w [] w
  | cons {action : Action K} {next : action.Answer → Work K α} {r : action.Answer}
      {ds : List (Deed K)} {w' : Work K α} (rest : Leads (next r) ds w') :
      Leads (Procedure.act action next) (⟨action, r⟩ :: ds) w'

namespace Work.Leads

variable {ds : List (Deed K)}

theorem snoc {w : Work K α} {action : Action K} {next : action.Answer → Work K α}
    (leads : Leads w ds (Procedure.act action next)) (r : action.Answer) :
    Leads w (ds ++ [⟨action, r⟩]) (next r) := by
  generalize whole : Procedure.act action next = w' at leads
  induction leads with
  | nil w =>
      subst whole
      exact .cons (.nil _)
  | cons _ ih => exact .cons (ih whole)

/-- Two procedures that were followed to the end: the first one up to its value, and then the one
that goes on with it. -/
theorem of_bind {w : Work K α} {f : α → Work K β} {v : β} (leads : Leads (w.bind f) ds (.done v)) :
    ∃ x ds₁ ds₂, ds = ds₁ ++ ds₂ ∧ Leads w ds₁ (.done x) ∧ Leads (f x) ds₂ (.done v) := by
  induction w generalizing ds with
  | done x => exact ⟨x, [], ds, rfl, .nil _, leads⟩
  | act action next ih =>
      cases leads with
      | @cons _ _ r _ _ rest =>
          obtain ⟨x, ds₁, ds₂, rfl, first, second⟩ := ih r rest
          exact ⟨x, _ :: ds₁, ds₂, rfl, .cons first, second⟩

theorem of_andThen {w : Work K (Except Fault α)} {f : α → Work K (Except Fault β)}
    {v : Except Fault β} (leads : Leads (Procedure.andThen w f) ds (.done v)) :
    (∃ e, v = .error e ∧ Leads w ds (.done (.error e))) ∨
      ∃ x ds₁ ds₂, ds = ds₁ ++ ds₂ ∧ Leads w ds₁ (.done (.ok x)) ∧ Leads (f x) ds₂ (.done v) := by
  obtain ⟨r, ds₁, ds₂, rfl, first, second⟩ := of_bind leads
  cases r with
  | error e =>
      cases second
      exact .inl ⟨e, rfl, by simpa using first⟩
  | ok x => exact .inr ⟨x, ds₁, ds₂, rfl, first, second⟩

theorem of_act {action : Action K} {r : action.Answer} (leads : Leads (Work.act action) ds (.done r)) :
    ds = [⟨action, r⟩] := by
  cases leads with
  | cons rest =>
      cases rest
      rfl

theorem every {P : Action K → Prop} {w w' : Work K α} (leads : Leads w ds w') (every : w.Every P) :
    ∀ d ∈ ds, P d.action := by
  induction leads with
  | nil => simp
  | cons _ ih =>
      cases every with
      | act such goes => simpa using ⟨such, ih (goes _)⟩

end Work.Leads

/-! ### What calls leave -/

def Deed.printed? : Deed K → Option String
  | ⟨.print _ _, .ok text⟩ => some text
  | _ => none

def Deed.diagnosed? : Deed K → Option (List String)
  | ⟨.diagnose _ _, .ok found⟩ => some found
  | _ => none

/-- What the replays have rendered, one after the other: each printed text with the diagnostics that
were asked for after it. -/
def renderings (ds : List (Deed K)) : List Rendering :=
  List.zipWith Rendering.mk (ds.filterMap Deed.printed?) (ds.filterMap Deed.diagnosed?)

/-- These deeds raised nothing and rendered just this. -/
structure Rendered (ds : List (Deed K)) (rs : List Rendering) : Prop where
  calm : faults ds = []
  printed : ds.filterMap Deed.printed? = rs.map (·.text)
  diagnosed : ds.filterMap Deed.diagnosed? = rs.map (·.diagnostics)

theorem Rendered.eq {ds : List (Deed K)} {rs : List Rendering} (rendered : Rendered ds rs) :
    renderings ds = rs := by
  simp only [renderings, rendered.printed, rendered.diagnosed, List.zipWith_map, List.zipWith_self]
  exact List.map_id rs

theorem Rendered.append {ds ds' : List (Deed K)} {rs rs' : List Rendering}
    (first : Rendered ds rs) (second : Rendered ds' rs') : Rendered (ds ++ ds') (rs ++ rs') := by
  have calm := first.calm
  have calm' := second.calm
  unfold faults at calm calm'
  constructor
  · simp [faults, calm, calm']
  · simp [first.printed, second.printed]
  · simp [first.diagnosed, second.diagnosed]

/-- Only calls on an instance raise faults or render. -/
theorem Deed.silent_of_target? {d : Deed K} (apart : d.action.target? = none) :
    d.fault? = none ∧ d.printed? = none ∧ d.diagnosed? = none := by
  obtain ⟨action, r⟩ := d
  cases action <;> first | exact ⟨rfl, rfl, rfl⟩ | cases apart

theorem Rendered.of_uncalled {ds : List (Deed K)} (apart : ∀ d ∈ ds, d.action.target? = none) :
    Rendered ds [] := by
  constructor <;> refine List.filterMap_eq_nil_iff.mpr fun d member => ?_
  · exact (Deed.silent_of_target? (apart d member)).1
  · exact (Deed.silent_of_target? (apart d member)).2.1
  · exact (Deed.silent_of_target? (apart d member)).2.2

theorem Rendered.faults_append {ds : List (Deed K)} {rs : List Rendering} (rendered : Rendered ds rs)
    (es : List (Deed K)) : faults (ds ++ es) = faults es := by
  have calm := rendered.calm
  unfold faults at calm ⊢
  rw [List.filterMap_append, calm, List.nil_append]

theorem Rendered.renderings_append {ds : List (Deed K)} (uncalled : Rendered ds [])
    (es : List (Deed K)) : renderings (ds ++ es) = renderings es := by
  simp [renderings, uncalled.printed, uncalled.diagnosed]

/-! ### Rounds of calls -/

/-- One replay on the instance `i`: the five calls in their order, each with what the ones before it
gave, up to the first that raises. -/
inductive Round (i : Nat) (s : Scenario K.Recipe) : List (Deed K) → Except Fault Rendering → Prop
  | reset (f : Fault) : Round i s [⟨.reset i, .error f⟩] (.error f)
  | parse (f : Fault) :
      Round i s [⟨.reset i, .ok ()⟩, ⟨.parse i s.input, .error f⟩] (.error f)
  | transform (parsed : K.Tree) (f : Fault) :
      Round i s [⟨.reset i, .ok ()⟩, ⟨.parse i s.input, .ok parsed⟩,
        ⟨.transform i parsed s.recipe, .error f⟩] (.error f)
  | print (parsed tree : K.Tree) (f : Fault) :
      Round i s [⟨.reset i, .ok ()⟩, ⟨.parse i s.input, .ok parsed⟩,
        ⟨.transform i parsed s.recipe, .ok tree⟩, ⟨.print i tree, .error f⟩] (.error f)
  | diagnose (parsed tree : K.Tree) (text : String) (f : Fault) :
      Round i s [⟨.reset i, .ok ()⟩, ⟨.parse i s.input, .ok parsed⟩,
        ⟨.transform i parsed s.recipe, .ok tree⟩, ⟨.print i tree, .ok text⟩,
        ⟨.diagnose i tree, .error f⟩] (.error f)
  | whole (parsed tree : K.Tree) (text : String) (found : List String) :
      Round i s [⟨.reset i, .ok ()⟩, ⟨.parse i s.input, .ok parsed⟩,
        ⟨.transform i parsed s.recipe, .ok tree⟩, ⟨.print i tree, .ok text⟩,
        ⟨.diagnose i tree, .ok found⟩] (.ok ⟨text, found⟩)

/-- So many replays one after the other; one that raises is the last. -/
inductive Rounds (i : Nat) (s : Scenario K.Recipe) :
    Nat → List (Deed K) → Except Fault (List Rendering) → Prop
  | done : Rounds i s 0 [] (.ok [])
  | raised {n : Nat} {ds : List (Deed K)} {f : Fault} (round : Round i s ds (.error f)) :
      Rounds i s (n + 1) ds (.error f)
  | next {n : Nat} {ds ds' : List (Deed K)} {r : Rendering} {v : Except Fault (List Rendering)}
      (round : Round i s ds (.ok r)) (rest : Rounds i s n ds' v) :
      Rounds i s (n + 1) (ds ++ ds') (v.map (r :: ·))

/-- The end of some replays, told from what they did: the one fault that was raised, or everything
that was rendered. -/
inductive Replayed (n : Nat) (ds : List (Deed K)) : Except Fault (List Rendering) → Prop
  | raised {f : Fault} (raised : faults ds = [f]) : Replayed n ds (.error f)
  | rendered {rs : List Rendering} (length : rs.length = n) (rendered : Rendered ds rs) :
      Replayed n ds (.ok rs)

theorem Round.faults_eq {i : Nat} {s : Scenario K.Recipe} {ds : List (Deed K)} {f : Fault}
    (round : Round i s ds (.error f)) : faults ds = [f] := by
  cases round <;> rfl

theorem Round.rendered {i : Nat} {s : Scenario K.Recipe} {ds : List (Deed K)} {r : Rendering}
    (round : Round i s ds (.ok r)) : Rendered ds [r] := by
  cases round
  exact ⟨rfl, rfl, rfl⟩

theorem Rounds.replayed {i n : Nat} {s : Scenario K.Recipe} {ds : List (Deed K)}
    {v : Except Fault (List Rendering)} (rounds : Rounds i s n ds v) : Replayed n ds v := by
  induction rounds with
  | done => exact .rendered rfl ⟨rfl, rfl, rfl⟩
  | raised round => exact .raised round.faults_eq
  | next round rest ih =>
      cases ih with
      | raised raised => exact .raised (by rw [round.rendered.faults_append, raised])
      | rendered length rendered =>
          exact .rendered (by rw [List.length_cons, length]) (round.rendered.append rendered)

namespace Work.Leads

variable {ds : List (Deed K)} {i : Nat} {s : Scenario K.Recipe}

theorem round {v : Except Fault Rendering} (leads : Leads (Concord.render i s) ds (.done v)) :
    Round i s ds v := by
  rcases of_andThen leads with ⟨f, rfl, reset⟩ | ⟨_, _, _, rfl, reset, parses⟩
  · rw [of_act reset]
    exact .reset f
  obtain rfl := of_act reset
  rcases of_andThen parses with ⟨f, rfl, parse⟩ | ⟨parsed, _, _, rfl, parse, transforms⟩
  · rw [of_act parse]
    exact .parse f
  obtain rfl := of_act parse
  rcases of_andThen transforms with ⟨f, rfl, transform⟩ | ⟨tree, _, _, rfl, transform, prints⟩
  · rw [of_act transform]
    exact .transform parsed f
  obtain rfl := of_act transform
  rcases of_andThen prints with ⟨f, rfl, print⟩ | ⟨text, _, _, rfl, print, diagnoses⟩
  · rw [of_act print]
    exact .print parsed tree f
  obtain rfl := of_act print
  rcases of_andThen diagnoses with ⟨f, rfl, diagnose⟩ | ⟨found, _, _, rfl, diagnose, ends⟩
  · rw [of_act diagnose]
    exact .diagnose parsed tree text f
  obtain rfl := of_act diagnose
  cases ends
  exact .whole parsed tree text found

/-- The renderings seen before stay in front of those of the rounds to come. -/
theorem rounds_of_seen {n : Nat} {seen : List Rendering} {v : Except Fault (List Rendering)}
    (leads : Leads (Concord.replay i s n seen) ds (.done v)) :
    ∃ v', Rounds i s n ds v' ∧ v = v'.map (seen.reverse ++ ·) := by
  induction n generalizing ds seen with
  | zero =>
      cases leads
      exact ⟨_, .done, by simp [Except.map]⟩
  | succ n ih =>
      rcases of_andThen leads with ⟨f, rfl, first⟩ | ⟨r, ds₁, ds₂, rfl, first, later⟩
      · exact ⟨_, .raised (round first), rfl⟩
      · obtain ⟨v', rest, rfl⟩ := ih later
        refine ⟨_, .next (round first) rest, ?_⟩
        cases v' with
        | error f => rfl
        | ok rs => simp [Except.map]

theorem rounds {n : Nat} {v : Except Fault (List Rendering)}
    (leads : Leads (Concord.replay i s n []) ds (.done v)) : Rounds i s n ds v := by
  obtain ⟨v', rounds, rfl⟩ := rounds_of_seen leads
  cases v' with
  | error f => exact rounds
  | ok rs => exact rounds

end Work.Leads

/-- What an execution ends with, after these deeds: the fault that a call raised, or that there is no
instance, or the verdict on what the replays have rendered. -/
inductive Concludes {ρ : Type} (n : Nat) (key : Key) (s : Scenario ρ) (ds : List (Deed K)) :
    Except Fault String → Prop
  | raised {f : Fault} (raised : faults ds = [f]) : Concludes n key s ds (.error f)
  | absent (uncalled : Rendered ds []) : Concludes n key s ds (.error noInstance)
  | judged (calm : faults ds = []) (all : (renderings ds).length = n) :
      Concludes n key s ds (judge key s (renderings ds))

/-- What was done before an execution takes nothing from its conclusion. -/
theorem Concludes.prepend {ρ : Type} {n : Nat} {key : Key} {s : Scenario ρ} {ds es : List (Deed K)}
    {v : Except Fault String} (uncalled : Rendered ds []) (concludes : Concludes n key s es v) :
    Concludes n key s (ds ++ es) v := by
  cases concludes with
  | raised raised => exact .raised (by rw [uncalled.faults_append, raised])
  | absent nothing => exact .absent (uncalled.append nothing)
  | judged calm all =>
      rw [← uncalled.renderings_append es] at all ⊢
      exact .judged (by rw [uncalled.faults_append, calm]) all

/-- A verdict takes no more than a line in the log. -/
theorem Work.Leads.judging {key : Key} {s : Scenario K.Recipe}
    {rendered : Except Fault (List Rendering)} {ds : List (Deed K)} {v : Except Fault String}
    (leads : Leads (Concord.judging key s rendered) ds (.done v)) :
    v = verdictOn key s rendered ∧ ∀ d ∈ ds, d.isWrite = true := by
  cases rendered with
  | error f =>
      cases leads
      exact ⟨rfl, by simp⟩
  | ok rs =>
      simp only [Concord.judging] at leads
      split at leads
      · cases leads
        exact ⟨rfl, by simp⟩
      · cases leads with
        | cons rest =>
            cases rest
            exact ⟨rfl, by simp [Deed.isWrite]⟩

theorem Deed.target?_of_isWrite {d : Deed K} (write : d.isWrite = true) : d.action.target? = none := by
  obtain ⟨action, r⟩ := d
  cases action <;> first | rfl | cases write

theorem Work.Leads.rendering {n : Nat} {i : Option Nat} {s : Scenario K.Recipe}
    {ds : List (Deed K)} {v : Except Fault (List Rendering)}
    (leads : Leads (Concord.rendering n i s) ds (.done v)) :
    Replayed n ds v ∨ v = .error noInstance ∧ Rendered ds [] := by
  cases i with
  | none =>
      cases leads
      exact .inr ⟨rfl, rfl, rfl, rfl⟩
  | some k => exact .inl (rounds leads).replayed

/-- What was done in an execution tells what it ended with. -/
theorem Work.Leads.execute {n : Nat} {i : Option Nat} {key : Key} {s : Scenario K.Recipe}
    {ds : List (Deed K)} {v : Except Fault String}
    (leads : Leads (Concord.execute n i key s) ds (.done v)) :
    Concludes n key s ds v ∧ ⟨.acquire key.backend, ()⟩ ∈ ds := by
  rw [execute_eq] at leads
  cases leads with
  | @cons _ _ _ ds _ rest =>
      obtain ⟨rendered, ds₁, _, rfl, first, last⟩ := of_bind rest
      cases last with
      | @cons _ _ _ ds₂ _ last =>
          obtain ⟨rfl, writes⟩ := judging last
          refine ⟨?_, List.mem_cons_self⟩
          have taken : Rendered [(⟨.acquire key.backend, ()⟩ : Deed K)] [] := ⟨rfl, rfl, rfl⟩
          have given : Rendered (⟨.release key.backend, ()⟩ :: ds₂ : List (Deed K)) [] := by
            refine .of_uncalled fun d member => ?_
            rcases List.mem_cons.mp member with rfl | later
            · rfl
            · exact Deed.target?_of_isWrite (writes d later)
          have whole {rs : List Rendering} (rendered : Rendered ds₁ rs) :
              Rendered (⟨.acquire key.backend, ()⟩ :: (ds₁ ++ ⟨.release key.backend, ()⟩ :: ds₂)) rs := by
            simpa using taken.append (rendered.append given)
          rcases rendering first with (⟨raised⟩ | ⟨length, rendered⟩) | ⟨rfl, uncalled⟩
          · refine .raised ?_
            have end_ := given.calm
            unfold faults at raised end_ ⊢
            rw [List.filterMap_cons_none rfl, List.filterMap_append, raised, end_, List.append_nil]
          · have same := (whole rendered).eq
            have judged : Concludes n key s _ (judge key s (renderings _)) :=
              .judged (whole rendered).calm (by rw [same, length])
            rw [same] at judged
            exact judged
          · exact .absent (whole uncalled)

/-- Neither a call on an instance nor the taking of a backend. -/
def Action.IsAside : Action K → Prop
  | .acquire _ => False
  | action => action.target? = none

theorem Action.IsAside.target? {action : Action K} (aside : action.IsAside) :
    action.target? = none := by
  cases action <;> first | rfl | exact aside

theorem Work.Every.resolve (catalog : Catalog K) (identity : String) :
    Every Action.IsAside (Concord.resolve catalog identity) := by
  cases registered : catalog.backend? identity with
  | none =>
      rw [resolve_eq_of_unregistered registered]
      exact .done _
  | some b =>
      rw [resolve_eq_of_registered registered]
      refine .act rfl fun e => ?_
      cases e with
      | joined c pending => exact .act rfl fun _ => .act rfl fun _ => .done _
      | opened c =>
          simp only [entering, buildIn_eq]
          refine .act rfl fun _ => .act rfl fun r => ?_
          cases r with
          | ok i => exact .act rfl fun _ => .act rfl fun _ => .done _
          | error f =>
              simp only [Concord.building]
              split
              · exact .act rfl fun _ => .act rfl fun _ => .done _
              · exact .act rfl fun _ => .done _

/-- Resolving renders nothing and takes no backend. -/
theorem Work.Leads.resolve {catalog : Catalog K} {identity : String} {ds : List (Deed K)}
    {w : Work K (Except Fault (Option Nat))} (leads : Leads (Concord.resolve catalog identity) ds w) :
    Rendered ds [] ∧ ∀ b, ⟨.acquire b, ()⟩ ∉ ds := by
  have aside := leads.every (.resolve catalog identity)
  exact ⟨.of_uncalled fun d member => (aside d member).target?, fun b member => aside _ member⟩

/-! ### Jobs -/

/-- What was done at the job of a decided unit, and how far that has led it. -/
inductive Job.Records (catalog : Catalog K) (replays : Nat) :
    TestUnit K.Recipe × Bool → List (Deed K) → Job K → Prop
  | rejected (u : TestUnit K.Recipe) :
      Records catalog replays (u, false) [] ⟨u.moved (.skip .gate), .over⟩
  | queued (u : TestUnit K.Recipe) : Records catalog replays (u, true) [] ⟨u, .queued⟩
  | resolving {u : TestUnit K.Recipe} {ds : List (Deed K)} {w : Work K (Except Fault (Option Nat))}
      (leads : (resolve catalog u.key.backend).Leads ds w) :
      Records catalog replays (u, true) ds ⟨u.onWay .resolving, .resolving w⟩
  | unresolved {u : TestUnit K.Recipe} {ds : List (Deed K)} {f : Fault}
      (leads : (resolve catalog u.key.backend).Leads ds (.done (.error f))) :
      Records catalog replays (u, true) ds ⟨(unresolved (u.onWay .resolving) f).1, .over⟩
  | running {u : TestUnit K.Recipe} {ds es : List (Deed K)} {i : Option Nat}
      {w : Work K (Except Fault String)}
      (obtained : (resolve catalog u.key.backend).Leads ds (.done (.ok i)))
      (leads : (execute replays i u.key u.scenario).Leads es w) :
      Records catalog replays (u, true) (ds ++ es) ⟨u.onWay .running, .running w⟩
  | executed {u : TestUnit K.Recipe} {ds es : List (Deed K)} {i : Option Nat}
      {v : Except Fault String}
      (obtained : (resolve catalog u.key.backend).Leads ds (.done (.ok i)))
      (leads : (execute replays i u.key u.scenario).Leads es (.done v)) :
      Records catalog replays (u, true) (ds ++ es) ⟨(executed (u.onWay .running) v).1, .over⟩

namespace Job.Records

variable {catalog : Catalog K} {replays : Nat} {d : TestUnit K.Recipe × Bool} {ds : List (Deed K)}
  {j j' : Job K}

theorem start (d : TestUnit K.Recipe × Bool) : Records catalog replays d [] (Job.start d) := by
  obtain ⟨u, runs⟩ := d
  cases runs with
  | false => exact .rejected u
  | true => exact .queued u

theorem step (fresh : d.1.IsFresh) (records : Records catalog replays d ds j) {s s' : Session K}
    {e : Option (Deed K)} (step : j.Step catalog replays s e j' s') :
    Records catalog replays d (ds ++ e.toList) j' := by
  cases records with
  | rejected => cases step
  | queued u =>
      cases step
      rw [show u.moved .resolve = u.onWay .resolving from TestUnit.IsFresh.moved_resolve fresh]
      exact .resolving (.nil _)
  | resolving leads =>
      cases step with
      | resolves thread performed => exact .resolving (leads.snoc _)
      | obtains u i s =>
          rw [TestUnit.moved_run]
          exact .running leads (.nil _)
      | fails u f s thread =>
          rw [Option.toList_none, List.append_nil]
          exact .unresolved leads
  | unresolved leads => cases step
  | running obtained leads =>
      cases step with
      | executes thread performed =>
          rw [List.append_assoc]
          exact .running obtained (leads.snoc _)
      | ends u r s thread =>
          rw [Option.toList_none, List.append_nil]
          exact .executed obtained leads
  | executed obtained leads => cases step

end Job.Records

/-! ### Courses -/

/-- Workers at their jobs: any job may take the next step, in whatever session it finds, so that
anything may be done to the session between two steps. -/
inductive Job.Course (catalog : Catalog K) (replays : Nat) :
    List (Job K) → List (Nat × Option (Deed K)) → List (Job K) → Prop
  | nil (js : List (Job K)) : Course catalog replays js [] js
  | cons {js js' : List (Job K)} {t : List (Nat × Option (Deed K))} {p : Nat} {j j' : Job K}
      {d : Option (Deed K)} {s s' : Session K} (here : js[p]? = some j)
      (goes : j.Step catalog replays s d j' s') (rest : Course catalog replays (js.set p j') t js') :
      Course catalog replays js ((p, d) :: t) js'

/-- What was done at a job. -/
def Job.history (p : Nat) (t : List (Nat × Option (Deed K))) : List (Deed K) :=
  t.filterMap fun l => if l.1 = p then l.2 else none

theorem Job.history_snoc_self (p : Nat) (t : List (Nat × Option (Deed K))) (d : Option (Deed K)) :
    Job.history p (t ++ [(p, d)]) = Job.history p t ++ d.toList := by
  cases d <;> simp [Job.history]

theorem Job.history_snoc_of_ne {p q : Nat} (other : p ≠ q) (t : List (Nat × Option (Deed K)))
    (d : Option (Deed K)) : Job.history q (t ++ [(p, d)]) = Job.history q t := by
  simp [Job.history, other]

namespace Job.Course

variable {catalog : Catalog K} {replays workers : Nat} {js js' : List (Job K)}
  {t : List (Nat × Option (Deed K))}

theorem append {js'' : List (Job K)} {t' : List (Nat × Option (Deed K))}
    (first : Course catalog replays js t js') (second : Course catalog replays js' t' js'') :
    Course catalog replays js (t ++ t') js'' := by
  induction first with
  | nil => exact second
  | cons here goes _ ih => exact .cons here goes (ih second)

theorem of_pool {x y : Pool K} (run : Pool.Run catalog replays workers x t y) :
    Course catalog replays x.jobs t y.jobs := by
  induction run with
  | nil x => exact .nil _
  | cons step _ ih =>
      cases step with
      | step here goes turn => exact .cons here goes ih

theorem of_job {j j' : Job K} {s s' : Session K} {ds : List (Option (Deed K))}
    (run : Job.Run catalog replays j s ds j' s') {p : Nat} (here : js[p]? = some j) :
    Course catalog replays js (ds.map fun d => (p, d)) (js.set p j') := by
  induction run generalizing js with
  | nil j s =>
      rw [set_of_getElem? here]
      exact .nil _
  | @cons j j₁ j₂ s s₁ s₂ d ds step rest ih =>
      have inside := (List.getElem?_eq_some_iff.mp here).1
      have next : (js.set p j₁)[p]? = some j₁ := by simp [inside]
      have goes := ih next
      rw [List.set_set] at goes
      exact .cons here step goes

/-- Working off jobs is a course of them, whatever the session is. -/
theorem dispatch (catalog : Catalog K) (replays workers : Nat) (patient : Bool)
    (turns : Option Nat) (waiting : Nat) (js : List (Job K)) (s : Session K) :
    ∃ t, Course catalog replays js t
      (Concord.dispatch catalog replays patient workers turns waiting js s).1 := by
  refine Pool.dispatch_induction (M := fun js _ js' _ => ∃ t, Course catalog replays js t js')
    (fun js _ => ⟨[], .nil js⟩) ?_ ?_ patient turns waiting [] js s
  · rintro js₁ js₂ js₃ _ _ _ ⟨t, first⟩ ⟨t', second⟩
    exact ⟨t ++ t', first.append second⟩
  · intro j j' s s' ds run ps js
    have here : (ps ++ j :: js)[ps.length]? = some j := by simp
    have goes := of_job run here
    rw [show (ps ++ j :: js).set ps.length j' = ps ++ j' :: js by simp] at goes
    exact ⟨_, goes⟩

end Job.Course

/-- Each job of these units is where its own history has led it. -/
structure Job.Recorded (catalog : Catalog K) (replays : Nat) (units : List (TestUnit K.Recipe × Bool))
    (t : List (Nat × Option (Deed K))) (js : List (Job K)) : Prop where
  everyJob : js.length = units.length
  records : ∀ (p : Nat) (d : TestUnit K.Recipe × Bool), units[p]? = some d →
    ∃ j, js[p]? = some j ∧ Job.Records catalog replays d (Job.history p t) j

namespace Job.Recorded

variable {catalog : Catalog K} {replays : Nat} {units : List (TestUnit K.Recipe × Bool)}
  {t : List (Nat × Option (Deed K))} {js js' : List (Job K)}

theorem start (catalog : Catalog K) (replays : Nat) (units : List (TestUnit K.Recipe × Bool)) :
    Recorded catalog replays units [] (units.map Job.start) := by
  refine ⟨by simp, fun p d planned => ⟨Job.start d, by simp [planned], .start d⟩⟩

theorem step (recorded : Recorded catalog replays units t js) (fresh : ∀ d ∈ units, d.1.IsFresh)
    {p : Nat} {j j' : Job K} {e : Option (Deed K)} {s s' : Session K} (here : js[p]? = some j)
    (goes : j.Step catalog replays s e j' s') :
    Recorded catalog replays units (t ++ [(p, e)]) (js.set p j') := by
  refine ⟨by simp [recorded.everyJob], fun q d planned => ?_⟩
  obtain ⟨i, there, records⟩ := recorded.records q d planned
  by_cases same : p = q
  · subst same
    obtain rfl := Option.some.inj (here.symm.trans there)
    have inside := (List.getElem?_eq_some_iff.mp here).1
    refine ⟨j', by simp [inside], ?_⟩
    rw [history_snoc_self]
    exact records.step (fresh d (List.mem_of_getElem? planned)) goes
  · refine ⟨i, by rwa [List.getElem?_set_ne same], ?_⟩
    rwa [history_snoc_of_ne same]

/-- In whatever course, each job stays where its history leads it. -/
theorem course (recorded : Recorded catalog replays units t js) (fresh : ∀ d ∈ units, d.1.IsFresh)
    {t' : List (Nat × Option (Deed K))} (course : Course catalog replays js t' js') :
    Recorded catalog replays units (t ++ t') js' := by
  induction course generalizing t with
  | nil js => simpa using recorded
  | cons here goes _ ih => simpa using ih (recorded.step fresh here goes)

end Job.Recorded

/-! ### Runs -/

namespace Harness

/-- What is said of every unit of a run: of the decision on it, of what was done at it and of how its
job stands. It holds of the run that the harness makes, which ends every job if there is no deadline,
and of whatever else the workers might do. -/
structure RunsWith (h : Harness K) (planned : List (Planned K.Recipe)) (workers : Int)
    (deadline : Option Text.Seconds)
    (P : TestUnit K.Recipe × Bool → List (Deed K) → Job K → Prop) : Prop where
  reported : ∃ t js h', h.run workers deadline =
      (ending (h.runName (h.runs + 1)) deadline js, h') ∧
    Job.Course h.catalog h.replays (h.jobs planned) t js ∧
    (h.session.Quiet → deadline = none → ∀ j ∈ js, j.stage.isOver = true)
  always : ∀ t js, Job.Course h.catalog h.replays (h.jobs planned) t js →
    js.length = (decided (h.decisions planned).entries).length ∧
      ∀ (p : Nat) (d : TestUnit K.Recipe × Bool), (decided (h.decisions planned).entries)[p]? = some d →
        ∃ j, js[p]? = some j ∧ P d (Job.history p t) j

variable {h : Harness K} {planned : List (Planned K.Recipe)} {workers : Int}

theorem run_course (deadline : Option Text.Seconds) (positive : 1 ≤ workers)
    (plan : h.catalog.plan = .ok planned) (calm : (h.decisions planned).interrupt = none) :
    ∃ t js h', h.run workers deadline =
        (ending (h.runName (h.runs + 1)) deadline js, h') ∧
      Job.Course h.catalog h.replays (h.jobs planned) t js ∧
      (h.session.Quiet → deadline = none → ∀ j ∈ js, j.stage.isOver = true) := by
  by_cases calmly : h.session.Quiet ∧ deadline = none
  · obtain ⟨log, t, x, h', ran, run, complete⟩ :=
      run_eq_interleaving deadline calmly.1 positive plan calm
    exact ⟨t, x.jobs, h', ran, .of_pool run, fun _ none => (complete none).1⟩
  · obtain ⟨log, h', ran, _⟩ := run_eq_dispatch deadline positive plan calm
    obtain ⟨t, course⟩ := Job.Course.dispatch h.catalog h.replays workers.toNat deadline.isNone
      (turnsWithin deadline (h.headStart (h.runs + 1))) 0 (h.jobs planned) (h.launched planned log)
    exact ⟨t, _, h', ran, course, fun quiet none => absurd ⟨quiet, none⟩ calmly⟩

/-- What the history of a unit and the place of its job imply holds in every run, unless a probe is
interrupted before the workers begin. -/
theorem runsWith_of_records (deadline : Option Text.Seconds) (positive : 1 ≤ workers)
    (plan : h.catalog.plan = .ok planned)
    {P : TestUnit K.Recipe × Bool → List (Deed K) → Job K → Prop}
    (implies : ∀ d ds j, d.1.IsFresh → Job.Records h.catalog h.replays d ds j → P d ds j) :
    (∃ f h', (h.decisions planned).interrupt = some f ∧ h.run workers deadline = (.error f, h')) ∨
      ((decided (h.decisions planned).entries).map (·.1) = planned.flatMap (·.units) ∧
        h.RunsWith planned workers deadline P) := by
  cases calm : (h.decisions planned).interrupt with
  | some f =>
      obtain ⟨h', raised, _⟩ := run_interrupted deadline positive plan calm
      exact .inl ⟨f, h', rfl, raised⟩
  | none =>
      have fresh := h.isFresh_of_decided plan calm
      refine .inr ⟨h.decided_in_order calm, run_course deadline positive plan calm,
        fun t js course => ?_⟩
      have recorded := (Job.Recorded.start h.catalog h.replays _).course fresh course
      refine ⟨recorded.everyJob, fun p d decided => ?_⟩
      obtain ⟨j, here, records⟩ := recorded.records p d decided
      exact ⟨j, here, implies d _ j (fresh d (List.mem_of_getElem? decided)) records⟩

end Harness

end Concord
