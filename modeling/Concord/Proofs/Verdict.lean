import Concord.Proofs.ScheduleIndependence
/-!
Verdicts and what is reported of them. A verdict on a unit is what a check of it returns or raises. A
report names the same verdict by an outcome, a reason and a detail. Where the supplied code raises only
errors of its own, each can be told from the other.
-/

namespace Concord

variable {K : Kit} {α β : Type}

/-! ### Errors of the supplied code -/

/-- An error from outside the harness's own vocabulary that is no interrupt. -/
def Fault.IsForeign (f : Fault) : Prop := (∃ kind text, f = .breakdown kind text) ∧ f.isOrdinary = true

/-- Calls on the parser raise foreign errors only. -/
def Parser.RaisesForeign (p : Parser K) (uses : K.Recipe → Prop) (first : K.Own) : Prop :=
  ∀ own, p.Reached uses first own → ∀ (action : Action K) (s s' : K.Shared) (own' : K.Own)
    (r : action.Answer), action.Within uses → p.take own s action = some (r, own', s') →
    ∀ f, Deed.fault? ⟨action, r⟩ = some f → f.IsForeign

/-- What was played led to a state that calls lead to, and raised foreign errors only. -/
structure Played.Foreign (p : Parser K) (uses : K.Recipe → Prop) (first : K.Own) (q : Played K α) :
    Prop where
  reached : p.Reached uses first q.own
  raised : ∀ f, q.result = .error f → f.IsForeign

namespace Played.Foreign

variable {p : Parser K} {uses : K.Recipe → Prop} {first : K.Own}

theorem ok {o : K.Own} (reached : p.Reached uses first o) (v : α) (s : K.Shared) :
    Played.Foreign p uses first ⟨.ok v, o, s⟩ := by
  refine ⟨reached, ?_⟩
  rintro f ⟨⟩

theorem andThen {q : Played K α} {f : α → K.Own → K.Shared → Played K β}
    (foreign : q.Foreign p uses first)
    (next : ∀ v o s, p.Reached uses first o → (f v o s).Foreign p uses first) :
    (q.andThen f).Foreign p uses first := by
  obtain ⟨result, o, s⟩ := q
  cases result with
  | error e =>
      refine ⟨foreign.reached, ?_⟩
      rintro g ⟨⟩
      exact foreign.raised e rfl
  | ok v => exact next v o s foreign.reached

/-- One call, whose answer is read by `answer`. -/
theorem call (raises : p.RaisesForeign uses first) {o : K.Own} (reached : p.Reached uses first o)
    (s : K.Shared) (action : Action K) (within : action.Within uses) {q : Played K α}
    {r : action.Answer} (taken : p.take o s action = some (r, q.own, q.shared))
    (fault : ∀ f, q.result = .error f → Deed.fault? ⟨action, r⟩ = some f) :
    q.Foreign p uses first :=
  ⟨reached.call action within taken,
    fun f raised => raises o reached action s q.shared q.own r within taken f (fault f raised)⟩

theorem render (raises : p.RaisesForeign uses first) {sc : Scenario K.Recipe} (used : uses sc.recipe)
    {o : K.Own} (reached : p.Reached uses first o) (s : K.Shared) :
    (p.render sc o s).Foreign p uses first := by
  have told {δ : Type} {e : Except Fault δ} {f : Fault} (raised : e = .error f)
      (d : Except Fault δ → Deed K) (fault : (d (.error f)).fault? = some f) :
      (d e).fault? = some f := raised ▸ fault
  refine andThen (call raises reached s (.reset 0) trivial rfl
    fun f raised => told raised (Deed.mk (.reset 0)) rfl) fun _ o s reached => ?_
  refine andThen (call raises reached s (.parse 0 sc.input) trivial rfl
    fun f raised => told raised (Deed.mk (.parse 0 sc.input)) rfl) fun parsed o s reached => ?_
  refine andThen (call raises reached s (.transform 0 parsed sc.recipe) used rfl
    fun f raised => told raised (Deed.mk (.transform 0 parsed sc.recipe)) rfl)
    fun tree o s reached => ?_
  refine andThen (call raises reached s (.print 0 tree) trivial rfl
    fun f raised => told raised (Deed.mk (.print 0 tree)) rfl) fun text o s reached => ?_
  exact andThen (call raises reached s (.diagnose 0 tree) trivial rfl
    fun f raised => told raised (Deed.mk (.diagnose 0 tree)) rfl)
    fun ds o s reached => ok reached _ s

theorem replays (raises : p.RaisesForeign uses first) {sc : Scenario K.Recipe}
    (used : uses sc.recipe) (n : Nat) {o : K.Own} (reached : p.Reached uses first o) (s : K.Shared) :
    (p.replays sc n o s).Foreign p uses first := by
  induction n generalizing o s with
  | zero => exact ok reached [] s
  | succ n ih =>
      refine andThen (render raises used reached s) fun r o s reached => ?_
      exact andThen (ih reached s) fun rs o s reached => ok reached _ s

end Played.Foreign

/-! ### Verdicts -/

/-- The faults that an execution can end with: a complaint about the renderings, or a foreign error. -/
inductive Fault.Judges : Fault → Prop
  | flaky (key : Key) (expected : String) (renderings : List String) :
      Judges (.flaky key expected renderings)
  | mismatch (key : Key) (expected actual what : String) :
      Judges (.mismatch key expected actual what)
  | foreign (kind : Breakdown) (text : String) (ordinary : (Fault.breakdown kind text).isOrdinary = true) :
      Judges (.breakdown kind text)

theorem judges_judge {ρ : Type} {key : Key} {s : Scenario ρ} {rs : List Rendering} {f : Fault}
    (raised : judge key s rs = .error f) : f.Judges := by
  unfold judge at raised
  split at raised
  · split at raised
    · cases raised
      exact .foreign .index _ rfl
    · split at raised
      · cases raised
        exact .mismatch ..
      · split at raised
        · cases raised
        · split at raised
          · cases raised
          · cases raised
            exact .mismatch ..
  · cases raised
    exact .flaky ..

theorem Fault.Judges.isOrdinary {f : Fault} (judges : f.Judges) : f.isOrdinary = true := by
  cases judges with
  | flaky => rfl
  | mismatch => rfl
  | foreign kind text ordinary => exact ordinary

theorem Parser.judges_verdict {p : Parser K} {uses : K.Recipe → Prop} {first : K.Own}
    (raises : p.RaisesForeign uses first) {sc : Scenario K.Recipe} (used : uses sc.recipe) (n : Nat)
    (key : Key) (s : K.Shared) {f : Fault}
    (raised : (p.verdict n key sc first s).result = .error f) : f.Judges := by
  have foreign := (Played.Foreign.replays raises used n .start s).raised
  unfold Parser.verdict at raised
  generalize p.replays sc n first s = played at foreign raised
  obtain ⟨result, o, s'⟩ := played
  cases result with
  | ok rs => exact judges_judge raised
  | error g =>
      cases raised
      obtain ⟨⟨kind, text, rfl⟩, ordinary⟩ := foreign f rfl
      exact .foreign kind text ordinary

theorem Parser.take_of_target {p : Parser K} {action : Action K} {k : Nat}
    (target : action.target? = some k) (own : K.Own) (s : K.Shared) :
    ∃ r own' s', p.take own s action = some (r, own', s') := by
  cases action <;> cases target <;> exact ⟨_, _, _, rfl⟩

/-- What the same work ensures in two ways holds of one value. -/
theorem Work.Ensures.both {p : Parser K} {uses : K.Recipe → Prop} {k : Nat}
    {Q Q' : α → K.Own → Prop} {own : K.Own} {w : Work K α} (first : Ensures p uses k Q own w)
    (second : Ensures p uses k Q' own w) (s : K.Shared) : ∃ v own', Q v own' ∧ Q' v own' := by
  induction first generalizing s with
  | done holds =>
      cases second with
      | done holds' => exact ⟨_, _, holds, holds'⟩
  | @act own action next target within _ ih =>
      cases second with
      | act target' within' goes =>
          obtain ⟨r, own', s', taken⟩ := p.take_of_target target own s
          exact ih s r own' s' taken (goes s r own' s' taken) s'

/-- A parser that starts afresh after a reset comes to the same verdict in any shared state. -/
theorem Parser.Restarts.verdict_eq {p : Parser K} {uses : K.Recipe → Prop} {first : K.Own}
    (restarts : p.Restarts uses first) {sc : Scenario K.Recipe} (used : uses sc.recipe) (n : Nat)
    (key : Key) (s t : K.Shared) :
    (p.verdict n key sc first s).result = (p.verdict n key sc first t).result := by
  have replayed (s : K.Shared) : Work.Ensures p uses 0
      (fun v _ => v = (p.replays sc n first s).result) first (replay 0 sc n []) := by
    have ensured := Work.Ensures.replay (k := 0) restarts used n [] .start .start s
    simpa only [List.reverse_nil, List.nil_append, Played.andThen_self] using ensured
  obtain ⟨v, _, here, there⟩ := (replayed s).both (replayed t) s
  have same := here.symm.trans there
  unfold Parser.verdict Played.andThen
  rw [same]
  cases (p.replays sc n first t).result <;> rfl

/-! ### Reports of verdicts -/

/-- A check and a run agree on a unit: each thing that a check can return or raise is reported in a
way of its own, with the error's text as the detail. -/
structure Agrees (verdict : Except Fault String) (r : Result) : Prop where
  passed : ∀ text, verdict = .ok text ↔ r.outcome = .passed ∧ r.actual = some text
  unregistered : (∃ b, verdict = .error (.unregistered b)) ↔
    r.outcome = .errored ∧ r.reason = some .unregistered
  construction : (∃ b why cause, verdict = .error (.construction b why cause)) ↔
    r.outcome = .errored ∧ r.reason = some .construction
  flaky : (∃ key expected renderings, verdict = .error (.flaky key expected renderings)) ↔
    r.outcome = .failed ∧ r.reason = some .flaky
  mismatch : (∃ key expected actual what, verdict = .error (.mismatch key expected actual what)) ↔
    r.outcome = .failed ∧ r.reason = some .mismatch
  execution : (∃ f, verdict = .error f ∧ (∀ b, f ≠ .unregistered b) ∧
      (∀ b why cause, f ≠ .construction b why cause) ∧
      (∀ key expected renderings, f ≠ .flaky key expected renderings) ∧
      ∀ key expected actual what, f ≠ .mismatch key expected actual what) ↔
    r.outcome = .failed ∧ r.reason = some .execution
  detail : ∀ f, verdict = .error f →
    r.detail = if r.reason = some .execution then f.described else f.message

theorem agrees_judged {ρ : Type} (u : TestUnit ρ) {verdict : Except Fault String}
    (judges : ∀ f, verdict = .error f → f.Judges) : Agrees verdict (u.judged verdict) := by
  cases verdict with
  | ok text => constructor <;> simp [TestUnit.judged]
  | error f => cases judges f rfl <;> constructor <;> simp [TestUnit.judged]

theorem agrees_unavailable {ρ : Type} (u : TestUnit ρ) :
    (∀ b, Agrees (.error (.unregistered b)) (u.unavailable .unregistered (.unregistered b))) ∧
      ∀ b why cause, Agrees (.error (.construction b why cause))
        (u.unavailable .construction (.construction b why cause)) := by
  refine ⟨fun b => ?_, fun b why cause => ?_⟩ <;> constructor <;> simp [TestUnit.unavailable]

end Concord
