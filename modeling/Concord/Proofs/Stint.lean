import Concord.Proofs.Replay
import Concord.Proofs.Resolver
import Concord.Proofs.UnitResult
/-!
Execution among others. While a worker executes a scenario it first waits for the backend, then
makes calls on one instance and on nothing else, and then gives the backend back and judges. The
first fault of a call ends the calls. `Stint` says which of these a worker is at, and `Stint.step`
what its next action does to the session.
-/

namespace Concord

variable {K : Kit} {α β : Type}

/-! ### Calls -/

def Action.target? : Action K → Option Nat
  | .reset k | .parse k _ | .transform k _ _ | .print k _ | .diagnose k _ => some k
  | _ => none

def Deed.fault? : Deed K → Option Fault
  | ⟨.reset _, .error f⟩ | ⟨.parse _ _, .error f⟩ | ⟨.transform _ _ _, .error f⟩
  | ⟨.print _ _, .error f⟩ | ⟨.diagnose _ _, .error f⟩ => some f
  | _ => none

/-- What a parser answers to a call, and the states that it leaves. -/
def Parser.take (p : Parser K) (own : K.Own) (shared : K.Shared) :
    (a : Action K) → Option (a.Answer × K.Own × K.Shared)
  | .reset _ => some ((p.reset own shared).result, (p.reset own shared).own, (p.reset own shared).shared)
  | .parse _ t =>
      some ((p.parse t own shared).result, (p.parse t own shared).own, (p.parse t own shared).shared)
  | .transform _ t r =>
      some ((p.transform t r own shared).result, (p.transform t r own shared).own,
        (p.transform t r own shared).shared)
  | .print _ t =>
      some ((p.print t own shared).result, (p.print t own shared).own, (p.print t own shared).shared)
  | .diagnose _ t =>
      some ((p.diagnostics t own shared).result, (p.diagnostics t own shared).own,
        (p.diagnostics t own shared).shared)
  | _ => none

/-- A patient call on an instance that exists is answered by its parser, and changes nothing but the
instance, the shared state and the log. -/
theorem perform_call {action : Action K} {k : Nat} (target : action.target? = some k)
    {s : Session K} {x : Instance K} (here : s.instances[k]? = some x) (thread : String) :
    ∃ r own shared log, x.parser.take x.own s.shared action = some (r, own, shared) ∧
      Session.perform true thread action s =
        some (r, { s with shared, instances := s.instances.set k { x with own }, log }) := by
  cases action <;> cases target <;>
    simp only [Session.perform, Session.call, here, Bool.not_true, Bool.and_false,
      Bool.false_eq_true, if_false] <;>
    exact ⟨_, _, _, _, rfl, rfl⟩

theorem of_perform_call {action : Action K} {k : Nat} (target : action.target? = some k)
    {s s' : Session K} {thread : String} {r : action.Answer}
    (performed : Session.perform true thread action s = some (r, s')) :
    ∃ x own shared log, s.instances[k]? = some x ∧
      x.parser.take x.own s.shared action = some (r, own, shared) ∧
      s' = { s with shared, instances := s.instances.set k { x with own }, log } := by
  cases here : s.instances[k]? with
  | none =>
      exfalso
      cases action <;> cases target <;> simp [Session.perform, Session.call, here] at performed
  | some x =>
      obtain ⟨r', own, shared, log, taken, performed'⟩ := perform_call target here thread
      obtain ⟨rfl, rfl⟩ : r' = r ∧ _ = s' := by simpa [performed'] using performed
      exact ⟨x, own, shared, log, rfl, taken, rfl⟩

/-- Work that makes calls on one instance. A fault is its value at once. -/
inductive Work.Calls (k : Nat) : Work K (Except Fault α) → Prop
  | done (v : α) : Calls k (.done (.ok v))
  | act {action : Action K} {next : action.Answer → Work K (Except Fault α)}
      (target : action.target? = some k)
      (fails : ∀ r f, Deed.fault? ⟨action, r⟩ = some f → next r = .done (.error f))
      (goes : ∀ r, Deed.fault? ⟨action, r⟩ = none → Calls k (next r)) :
      Calls k (Procedure.act action next)

namespace Work.Calls

variable {k : Nat}

theorem andThen {w : Work K (Except Fault α)} {f : α → Work K (Except Fault β)}
    (calls : Calls k w) (next : ∀ v, Calls k (f v)) : Calls k (Procedure.andThen w f) := by
  induction calls with
  | done v => exact next v
  | @act action g target fails goes ih =>
      show Calls k (Procedure.act action fun r => Procedure.andThen (g r) f)
      refine .act target (fun r e raised => ?_) ih
      rw [fails r e raised]
      rfl

theorem single (action : Action K) (e : action.Answer → Except Fault α)
    (target : action.target? = some k)
    (fault : ∀ r, Deed.fault? ⟨action, r⟩ = match e r with | .error f => some f | .ok _ => none) :
    Calls k (Procedure.act action fun r => .done (e r)) := by
  refine .act target (fun r f raised => ?_) fun r calm => ?_
  · rw [fault r] at raised
    cases answer : e r with
    | error g =>
        rw [answer] at raised
        cases raised
        rfl
    | ok v =>
        rw [answer] at raised
        cases raised
  · rw [fault r] at calm
    cases answer : e r with
    | error g =>
        rw [answer] at calm
        cases calm
    | ok v => exact .done v

theorem render (s : Scenario K.Recipe) : Calls k (Concord.render k s) := by
  refine andThen (single (.reset k) id rfl fun r => by cases r <;> rfl) fun _ => ?_
  refine andThen (single (.parse k s.input) id rfl fun r => by cases r <;> rfl) fun parsed => ?_
  refine andThen (single (.transform k parsed s.recipe) id rfl fun r => by cases r <;> rfl) fun tree => ?_
  refine andThen (single (.print k tree) id rfl fun r => by cases r <;> rfl) fun text => ?_
  refine andThen (single (.diagnose k tree) id rfl fun r => by cases r <;> rfl) fun ds => ?_
  exact .done _

theorem replay (s : Scenario K.Recipe) (n : Nat) (seen : List Rendering) :
    Calls k (Concord.replay k s n seen) := by
  induction n generalizing seen with
  | zero => exact .done _
  | succ n ih => exact andThen (render s) fun r => ih (r :: seen)

end Work.Calls

/-! ### The stages of an execution -/

def faults (es : List (Deed K)) : List Fault := es.filterMap Deed.fault?

/-- Whether the backend is held after some deeds. -/
def Deed.grip (held : Bool) (d : Deed K) : Bool :=
  match d.action with
  | .acquire _ => true
  | .release _ => false
  | _ => held

def gripping (ds : List (Deed K)) : Bool := ds.foldl Deed.grip false

/-- Replays under way on an instance, if there is one: the calls that were made, and what is left. -/
inductive Work.Replays : Option Nat → List (Deed K) → Work K (Except Fault (List Rendering)) → Prop
  | going {k : Nat} {es : List (Deed K)} {w : Work K (Except Fault (List Rendering))}
      (called : ∀ d ∈ es, d.action.target? = some k) (calm : faults es = []) (calls : Calls k w) :
      Replays (some k) es w
  | failed {k : Nat} {es : List (Deed K)} {f : Fault}
      (called : ∀ d ∈ es, d.action.target? = some k) (raised : faults es = [f]) :
      Replays (some k) es (.done (.error f))
  | absent : Replays none [] (.done (.error noInstance))

def verdictOn {ρ : Type} (key : Key) (s : Scenario ρ) :
    Except Fault (List Rendering) → Except Fault String
  | .error f => .error f
  | .ok rs => judge key s rs

/-- A worker at the execution of a unit on an instance: what it has done, and what is left. -/
inductive Stint (replays : Nat) (i : Option Nat) (u : TestUnit K.Recipe) :
    List (Deed K) → Work K (Except Fault String) → Prop
  | acquiring : Stint replays i u [] (execute replays i u.key u.scenario)
  | replaying {es : List (Deed K)} {w : Work K (Except Fault (List Rendering))}
      (plays : Work.Replays i es w) :
      Stint replays i u (⟨.acquire u.key.backend, ()⟩ :: es)
        (w.bind (concluding u.key u.scenario))
  | judging {es : List (Deed K)} {rendered : Except Fault (List Rendering)} {r : Record}
      (plays : Work.Replays i es (.done rendered)) :
      Stint replays i u (⟨.acquire u.key.backend, ()⟩ :: es ++ [⟨.release u.key.backend, ()⟩])
        (Procedure.act (.write r) fun _ => .done (verdictOn u.key u.scenario rendered))
  | judged {es : List (Deed K)} {rendered : Except Fault (List Rendering)}
      (plays : Work.Replays i es (.done rendered)) :
      Stint replays i u (⟨.acquire u.key.backend, ()⟩ :: es ++ [⟨.release u.key.backend, ()⟩])
        (.done (verdictOn u.key u.scenario rendered))

inductive Stint.Moves (backend : String) (i : Option Nat) (s : Session K) :
    Deed K → Session K → Prop
  | writes (r : Record) (thread : String) : Moves backend i s ⟨.write r, ()⟩ (s.write thread [r])
  | acquires (free : backend ∉ s.busy) :
      Moves backend i s ⟨.acquire backend, ()⟩ { s with busy := backend :: s.busy }
  | releases : Moves backend i s ⟨.release backend, ()⟩ { s with busy := s.busy.erase backend }
  | calls {action : Action K} {r : action.Answer} {s' : Session K} {k : Nat} {thread : String}
      (on : i = some k) (target : action.target? = some k)
      (performed : Session.perform true thread action s = some (r, s')) :
      Moves backend i s ⟨action, r⟩ s'

namespace Work.Replays

variable {i : Option Nat} {es : List (Deed K)}

theorem called {w : Work K (Except Fault (List Rendering))} (plays : Replays i es w) :
    ∀ d ∈ es, ∃ k, i = some k ∧ d.action.target? = some k := by
  cases plays with
  | going called => exact fun d member => ⟨_, rfl, called d member⟩
  | failed called => exact fun d member => ⟨_, rfl, called d member⟩
  | absent => exact fun d member => by cases member

theorem step {action : Action K}
    {next : action.Answer → Work K (Except Fault (List Rendering))}
    (plays : Replays i es (Procedure.act action next)) :
    ∃ k, i = some k ∧ action.target? = some k ∧
      ∀ r, Replays i (es ++ [⟨action, r⟩]) (next r) := by
  cases plays with
  | @going k _ _ called calm calls =>
      cases calls with
      | act target fails goes =>
          refine ⟨_, rfl, target, fun r => ?_⟩
          have called' : ∀ d ∈ es ++ [⟨action, r⟩], d.action.target? = some k := by
            intro d member
            rcases List.mem_append.mp member with old | new
            · exact called d old
            · obtain rfl := List.mem_singleton.mp new
              exact target
          cases raised : Deed.fault? ⟨action, r⟩ with
          | none =>
              refine .going called' ?_ (goes r raised)
              simpa [faults, raised] using calm
          | some f =>
              rw [fails r f raised]
              refine .failed called' ?_
              simpa [faults, raised] using calm

end Work.Replays

theorem isWrite_of_target? {action : Action K} {k : Nat} (target : action.target? = some k)
    (r : action.Answer) : Deed.isWrite ⟨action, r⟩ = false := by
  cases action <;> first | rfl | cases target

namespace Stint

variable {replays : Nat} {i : Option Nat} {u : TestUnit K.Recipe} {es : List (Deed K)}

theorem start (i : Option Nat) : Work.Replays i [] (rendering replays i u.scenario) := by
  cases i with
  | none => exact .absent
  | some k => exact .going (fun d member => by cases member) rfl (.replay u.scenario replays [])

/-- Once the backend is released, the verdict is as good as given. -/
theorem after_release {rendered : Except Fault (List Rendering)}
    (plays : Work.Replays i es (.done rendered)) :
    Stint replays i u (⟨.acquire u.key.backend, ()⟩ :: es ++ [⟨.release u.key.backend, ()⟩])
      (Concord.judging u.key u.scenario rendered) := by
  cases rendered with
  | error f => exact .judged plays
  | ok rs =>
      simp only [Concord.judging]
      by_cases same : agree rs = true
      · rw [if_pos same]
        exact .judged plays
      · rw [if_neg same]
        exact .judging plays

/-- Whatever a worker does next in an execution is one of its moves. -/
theorem step {action : Action K} {next : action.Answer → Work K (Except Fault String)}
    (stint : Stint replays i u es (Procedure.act action next)) {thread : String} {s s' : Session K}
    {r : action.Answer} (performed : Session.perform true thread action s = some (r, s')) :
    Stint.Moves u.key.backend i s ⟨action, r⟩ s' ∧
      Stint replays i u (es ++ [⟨action, r⟩].filter (!·.isWrite)) (next r) := by
  generalize whole : Procedure.act action next = work at stint
  cases stint with
  | acquiring =>
      rw [execute_eq] at whole
      cases whole
      simp only [Session.perform] at performed
      split at performed
      · cases performed
      · cases performed
        exact ⟨.acquires ‹_›, .replaying (start i)⟩
  | @replaying es w plays =>
      cases w with
      | done rendered =>
          cases whole
          cases performed
          exact ⟨.releases, after_release plays⟩
      | act action' g =>
          cases whole
          obtain ⟨k, on, target, goes⟩ := plays.step
          refine ⟨.calls on target performed, ?_⟩
          have logged := isWrite_of_target? target r
          have replaying : Stint replays i u _ _ := .replaying (goes r)
          simpa [logged] using replaying
  | judging plays =>
      cases whole
      cases performed
      exact ⟨.writes _ thread, by simpa [Deed.isWrite] using Stint.judged plays⟩
  | judged plays => cases whole

/-- A worker that has to wait has done nothing yet: it waits for its backend. -/
theorem blocked {action : Action K} {next : action.Answer → Work K (Except Fault String)}
    (stint : Stint replays i u es (Procedure.act action next)) {s : Session K} {thread : String}
    (inside : ∀ k, i = some k → k < s.instances.length)
    (waits : Session.perform true thread action s = none) :
    es = [] ∧ u.key.backend ∈ s.busy := by
  generalize whole : Procedure.act action next = work at stint
  cases stint with
  | acquiring =>
      rw [execute_eq] at whole
      cases whole
      simp only [Session.perform] at waits
      split at waits
      · exact ⟨rfl, ‹_›⟩
      · cases waits
  | @replaying es w plays =>
      cases w with
      | done rendered =>
          cases whole
          cases waits
      | act action' g =>
          cases whole
          obtain ⟨k, on, target, _⟩ := plays.step
          have here := List.getElem?_eq_getElem (inside k on)
          obtain ⟨_, _, _, _, _, performed⟩ := perform_call target here thread
          rw [performed] at waits
          cases waits
  | judging plays =>
      cases whole
      cases waits
  | judged plays => cases whole

end Stint

/-! ### Holding a backend -/

@[simp] theorem gripping_nil : gripping ([] : List (Deed K)) = false := rfl

@[simp] theorem gripping_snoc (ds : List (Deed K)) (d : Deed K) :
    gripping (ds ++ [d]) = d.grip (gripping ds) := by
  simp [gripping]

theorem grip_of_target? {d : Deed K} {k : Nat} (target : d.action.target? = some k) (held : Bool) :
    d.grip held = held := by
  obtain ⟨action, r⟩ := d
  cases action <;> first | rfl | cases target

theorem foldl_grip_of_calls {es : List (Deed K)}
    (called : ∀ d ∈ es, ∃ k, d.action.target? = some k) (held : Bool) :
    es.foldl Deed.grip held = held := by
  induction es with
  | nil => rfl
  | cons d es ih =>
      obtain ⟨k, target⟩ := called d (by simp)
      rw [List.foldl_cons, grip_of_target? target]
      exact ih fun d member => called d (List.mem_cons_of_mem _ member)

theorem Ask.Stands.gripping_eq {catalog : Catalog K} {a : Ask} {ds : List (Deed K)}
    {w : Work K (Except Fault (Option Nat))} (stands : a.Stands catalog ds w) (es : List (Deed K)) :
    gripping (ds ++ es) = gripping es := by
  have free : gripping ds = false := by
    induction stands with
    | logging _ _ ih => exact ih
    | _ => rfl
  unfold gripping at free ⊢
  rw [List.foldl_append, free]

namespace Stint

variable {replays : Nat} {i : Option Nat} {u : TestUnit K.Recipe} {es : List (Deed K)}

theorem gripping_replaying {w : Work K (Except Fault (List Rendering))}
    (plays : Work.Replays i es w) : gripping (⟨.acquire u.key.backend, ()⟩ :: es) = true := by
  refine foldl_grip_of_calls (fun d member => ?_) true
  obtain ⟨k, _, target⟩ := plays.called d member
  exact ⟨k, target⟩

theorem gripping_of_release {b : String}
    {next : (Action.release (K := K) b).Answer → Work K (Except Fault String)}
    (stint : Stint replays i u es (Procedure.act (.release b) next)) : gripping es = true := by
  generalize whole : Procedure.act (Action.release b) next = work at stint
  cases stint with
  | acquiring =>
      rw [execute_eq] at whole
      cases whole
  | @replaying es w plays => exact gripping_replaying plays
  | judging plays => cases whole
  | judged plays => cases whole

/-- An execution ends with the first fault of a call, and else with a verdict that is no interrupt. -/
theorem of_done {v : Except Fault String} (stint : Stint replays i u es (.done v)) :
    gripping es = false ∧
      ((∃ f, v = .error f ∧ faults es = [f]) ∨ (Contained v ∧ faults es = [])) := by
  generalize whole : Procedure.done v = work at stint
  cases stint with
  | acquiring =>
      rw [execute_eq] at whole
      cases whole
  | @replaying es w plays => cases w <;> cases whole
  | judging plays => cases whole
  | @judged es rendered plays =>
      cases whole
      have same : faults (⟨.acquire u.key.backend, ()⟩ :: es ++ [⟨.release u.key.backend, ()⟩]) =
          faults es := by
        have acquired : Deed.fault? (K := K) ⟨.acquire u.key.backend, ()⟩ = none := rfl
        have released : Deed.fault? (K := K) ⟨.release u.key.backend, ()⟩ = none := rfl
        simp [faults, acquired, released]
      refine ⟨by rw [gripping_snoc]; rfl, ?_⟩
      rw [same]
      cases plays with
      | going _ calm calls =>
          cases calls with
          | done rs => exact .inr ⟨contained_judge u.key u.scenario rs, calm⟩
      | failed _ raised => exact .inl ⟨_, rfl, raised⟩
      | absent =>
          refine .inr ⟨fun f raised => ?_, rfl⟩
          cases raised
          rfl

end Stint

end Concord
