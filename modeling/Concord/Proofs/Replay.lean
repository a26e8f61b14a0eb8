import Concord.Execute
/-!
Replays in direct style. A replay is a sequence of calls on one instance, each in the states that
the one before it left, and the first fault ends it. Following the procedures of execution alone,
on a backend that nobody uses, comes to the same: the same value, the same states, the same locks.
-/

namespace Concord

variable {K : Kit} {α β : Type}

/-- What calls on one instance lead to: a value or the first fault, and the states they leave. -/
structure Played (K : Kit) (α : Type) where
  result : Except Fault α
  own : K.Own
  shared : K.Shared

/-- Goes on in the states that are left, unless there was a fault. -/
def Played.andThen (p : Played K α) (f : α → K.Own → K.Shared → Played K β) : Played K β :=
  match p.result with
  | .ok v => f v p.own p.shared
  | .error e => ⟨.error e, p.own, p.shared⟩

def Reply.played (r : Reply K α) : Played K α := ⟨r.result, r.own, r.shared⟩

namespace Parser

def render (p : Parser K) (s : Scenario K.Recipe) (own : K.Own) (shared : K.Shared) :
    Played K Rendering :=
  (p.reset own shared).played.andThen fun _ own shared =>
  (p.parse s.input own shared).played.andThen fun parsed own shared =>
  (p.transform parsed s.recipe own shared).played.andThen fun tree own shared =>
  (p.print tree own shared).played.andThen fun text own shared =>
  (p.diagnostics tree own shared).played.andThen fun ds own shared =>
  ⟨.ok ⟨text, ds⟩, own, shared⟩

def replays (p : Parser K) (s : Scenario K.Recipe) : Nat → K.Own → K.Shared →
    Played K (List Rendering)
  | 0, own, shared => ⟨.ok [], own, shared⟩
  | n + 1, own, shared =>
      (p.render s own shared).andThen fun r own shared =>
      (p.replays s n own shared).andThen fun rs own shared =>
      ⟨.ok (r :: rs), own, shared⟩

/-- The verdict on a scenario: replays that all went through are judged. -/
def verdict (p : Parser K) (n : Nat) (key : Key) (s : Scenario K.Recipe) (own : K.Own)
    (shared : K.Shared) : Played K String :=
  (p.replays s n own shared).andThen fun rs own shared => ⟨judge key s rs, own, shared⟩

end Parser

@[simp] theorem Played.andThen_ok (v : α) (o : K.Own) (s : K.Shared)
    (f : α → K.Own → K.Shared → Played K β) : Played.andThen ⟨.ok v, o, s⟩ f = f v o s := rfl

theorem Played.andThen_assoc {γ : Type} (p : Played K α) (f : α → K.Own → K.Shared → Played K β)
    (g : β → K.Own → K.Shared → Played K γ) :
    (p.andThen f).andThen g = p.andThen fun v o s => (f v o s).andThen g := by
  obtain ⟨result, own, shared⟩ := p
  cases result <;> rfl

theorem Work.advance_act {a : Action K} {patient : Bool} {thread : String} {s s' : Session K}
    {r : a.Answer} (performed : Session.perform patient thread a s = some (r, s')) :
    (Work.act a).advance patient thread s = (.done r, s') := by
  simp only [Work.advance, Work.act, Procedure.perform, Procedure.advance, performed]

@[simp] theorem Played.andThen_self (p : Played K α) :
    (p.andThen fun v o s => ⟨.ok v, o, s⟩) = p := by
  obtain ⟨result, own, shared⟩ := p
  cases result <;> rfl

/-- Following `w` alone leads to what `f` says of the instance `i`, which has the parser `p`. Nothing
but that instance, the shared state and the log changes. -/
def Work.Plays (i : Nat) (p : Parser K) (w : Work K (Except Fault α))
    (f : K.Own → K.Shared → Played K α) : Prop :=
  ∀ (thread : String) (s : Session K) (own : K.Own), s.instances[i]? = some ⟨p, own⟩ →
    ∃ log, w.advance true thread s =
      (.done (f own s.shared).result,
        { s with
          shared := (f own s.shared).shared
          instances := s.instances.set i ⟨p, (f own s.shared).own⟩
          log })

namespace Work.Plays

variable {i : Nat} {p : Parser K}

theorem done (r : Except Fault α) : Work.Plays (K := K) i p (.done r) fun o s => ⟨r, o, s⟩ := by
  intro thread s own at_i
  refine ⟨s.log, ?_⟩
  have same : s.instances.set i ⟨p, own⟩ = s.instances := by
    obtain ⟨inside, here⟩ := List.getElem?_eq_some_iff.mp at_i
    rw [← here, List.set_getElem_self]
  simp only [Work.advance, Procedure.advance, same]

theorem andThen {w : Work K (Except Fault α)} {f : K.Own → K.Shared → Played K α}
    {k : α → Work K (Except Fault β)} {g : α → K.Own → K.Shared → Played K β}
    (first : Work.Plays i p w f) (next : ∀ v, Work.Plays i p (k v) (g v)) :
    Work.Plays i p (Procedure.andThen w k) fun o s => (f o s).andThen g := by
  intro thread s own at_i
  obtain ⟨log, played⟩ := first thread s own at_i
  unfold Work.advance at played
  simp only [Work.advance, Procedure.andThen, Procedure.advance_bind, played, Procedure.bind_done]
  cases ended : (f own s.shared).result with
  | error e =>
      refine ⟨log, ?_⟩
      simp only [Played.andThen, ended, Procedure.advance]
  | ok v =>
      have inside : i < s.instances.length := (List.getElem?_eq_some_iff.mp at_i).1
      obtain ⟨log', played'⟩ := next v thread
        { s with
          shared := (f own s.shared).shared
          instances := s.instances.set i ⟨p, (f own s.shared).own⟩
          log } (f own s.shared).own (by simp [inside])
      refine ⟨log', ?_⟩
      simp only [Work.advance] at played'
      simp only [Played.andThen, ended, played', List.set_set]

theorem call {w : Work K (Except Fault α)} {f : Parser K → K.Own → K.Shared → Reply K α}
    (calls : ∀ thread (s s' : Session K) r, s.call true thread i f = some (r, s') →
      w.advance true thread s = (.done r, s')) :
    Work.Plays i p w fun o s => (f p o s).played := by
  intro thread s own at_i
  refine ⟨(s.write thread (f p own s.shared).records).log, calls thread s _ _ ?_⟩
  simp only [Session.call, at_i, Bool.not_true, Bool.and_false, Bool.false_eq_true, if_false]
  rfl

theorem render (s : Scenario K.Recipe) : Work.Plays i p (Concord.render i s) (p.render s) := by
  refine andThen (call (f := fun q => q.reset) fun _ _ _ _ called =>
    Work.advance_act (a := .reset i) called) fun _ => ?_
  refine andThen (call (f := fun q => q.parse s.input) fun _ _ _ _ called =>
    Work.advance_act (a := .parse i s.input) called) fun parsed => ?_
  refine andThen (call (f := fun q => q.transform parsed s.recipe) fun _ _ _ _ called =>
    Work.advance_act (a := .transform i parsed s.recipe) called) fun tree => ?_
  refine andThen (call (f := fun q => q.print tree) fun _ _ _ _ called =>
    Work.advance_act (a := .print i tree) called) fun text => ?_
  refine andThen (call (f := fun q => q.diagnostics tree) fun _ _ _ _ called =>
    Work.advance_act (a := .diagnose i tree) called) fun ds => ?_
  exact done _

/-- The renderings seen before stay in front of those to come. -/
theorem replay (s : Scenario K.Recipe) (n : Nat) (seen : List Rendering) :
    Work.Plays i p (Concord.replay i s n seen) fun o sh =>
      (p.replays s n o sh).andThen fun rs o sh => ⟨.ok (seen.reverse ++ rs), o, sh⟩ := by
  induction n generalizing seen with
  | zero => simpa [Parser.replays, Concord.replay] using done (K := K) (.ok seen.reverse)
  | succ n ih =>
      have both := andThen (render (i := i) (p := p) s) fun r => ih (r :: seen)
      simpa [Parser.replays, Concord.replay, Played.andThen_assoc] using both

end Work.Plays

/-- The renderings of an execution; where there is no instance, there are none. -/
def rendering (n : Nat) (parser : Option Nat) (s : Scenario K.Recipe) :
    Work K (Except Fault (List Rendering)) :=
  match parser with
  | some i => replay i s n []
  | none => .done (.error noInstance)

def judging (key : Key) (s : Scenario K.Recipe) :
    Except Fault (List Rendering) → Work K (Except Fault String)
  | .error f => .done (.error f)
  | .ok rs =>
      if agree rs then .done (judge key s rs)
      else
        Procedure.act (.write (Source.execution.record .debug
          s!"{key.text} rendered {distinctCount rs} distinct results")) fun _ =>
        .done (judge key s rs)

def concluding (key : Key) (s : Scenario K.Recipe) (rendered : Except Fault (List Rendering)) :
    Work K (Except Fault String) :=
  Procedure.act (.release key.backend) fun _ => judging key s rendered

/-- An execution has three parts: it acquires its backend, replays, and concludes. -/
theorem execute_eq (n : Nat) (parser : Option Nat) (key : Key) (s : Scenario K.Recipe) :
    execute n parser key s =
      Procedure.act (.acquire key.backend) fun _ => (rendering n parser s).bind (concluding key s) := by
  have tail : (fun rendered : Except Fault (List Rendering) =>
      (Work.act (.release key.backend)).bind fun _ : Unit =>
        match rendered with
        | .error f => (.done (.error f) : Work K (Except Fault String))
        | .ok rs =>
            if !agree rs then
              (Work.log (Source.execution.record .debug
                s!"{key.text} rendered {distinctCount rs} distinct results")).bind fun _ =>
                .done (judge key s rs)
            else .done (judge key s rs)) = concluding key s := by
    funext rendered
    cases rendered with
    | error f => rfl
    | ok rs =>
        by_cases same : agree rs = true
        · simp [concluding, judging, same, Work.act, Procedure.perform, Procedure.bind]
        · simp [concluding, judging, same, Work.act, Work.log, Procedure.perform, Procedure.bind]
  rw [← tail]
  cases parser <;> rfl

/-- On a backend that nobody uses, a scenario gets its verdict without waiting, and the backend is
free again afterwards. -/
theorem advance_execute {i : Nat} {p : Parser K} {own : K.Own} {s : Session K} {key : Key}
    (at_i : s.instances[i]? = some ⟨p, own⟩) (free : key.backend ∉ s.busy) (n : Nat)
    (sc : Scenario K.Recipe) (thread : String) :
    ∃ log, (execute n (some i) key sc).advance true thread s =
      (.done (p.verdict n key sc own s.shared).result,
        { s with
          shared := (p.verdict n key sc own s.shared).shared
          instances := s.instances.set i ⟨p, (p.verdict n key sc own s.shared).own⟩
          log }) := by
  obtain ⟨log, played⟩ := Work.Plays.replay sc n [] thread { s with busy := key.backend :: s.busy }
    own at_i
  simp only [List.reverse_nil, List.nil_append, Played.andThen_self, Work.advance] at played
  simp only [execute_eq, rendering, Work.advance, Procedure.advance, Session.perform, free, if_false,
    Procedure.advance_bind, played, Procedure.bind_done, concluding, List.erase_cons_head,
    Parser.verdict]
  cases ended : (p.replays sc n own s.shared).result with
  | error f => exact ⟨log, by simp only [Played.andThen, ended, judging, Procedure.advance]⟩
  | ok rs =>
      by_cases same : agree rs = true
      · exact ⟨log, by simp only [Played.andThen, ended, judging, same, if_true, Procedure.advance]⟩
      · simp only [Played.andThen, ended, judging, same, Procedure.advance, Session.perform,
          Bool.false_eq_true, if_false]
        exact ⟨_, rfl⟩

end Concord
