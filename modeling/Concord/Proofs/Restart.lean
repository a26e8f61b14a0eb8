import Concord.Proofs.Stint
/-!
Parsers that start afresh. After a reset such a parser answers as after any other reset, whatever was
asked of it before and whatever the shared state is meanwhile. So an execution comes to the verdict
that it would have come to alone, however the other workers act between its calls.
-/

namespace Concord

variable {K : Kit} {α β : Type}

/-- The action transforms by one of these recipes, or not at all. -/
def Action.Within (uses : K.Recipe → Prop) : Action K → Prop
  | .transform _ _ r => uses r
  | _ => True

theorem Action.Within.mono {uses uses' : K.Recipe → Prop} {action : Action K}
    (within : action.Within uses) (wider : ∀ r, uses r → uses' r) : action.Within uses' := by
  cases action with
  | transform k tree r => exact wider r within
  | _ => trivial

/-- Actions that neither begin a construction nor call a constructor. -/
def Action.isPlain : Action K → Bool
  | .enter _ | .construct _ => false
  | _ => true

/-! ### The actions of an execution -/

/-- Whatever the answers are, the work takes only such actions. -/
inductive Work.Every (P : Action K → Prop) : Work K α → Prop
  | done (v : α) : Every P (.done v)
  | act {action : Action K} {next : action.Answer → Work K α} (such : P action)
      (goes : ∀ r, Every P (next r)) : Every P (Procedure.act action next)

namespace Work.Every

variable {P Q : Action K → Prop}

theorem mono {w : Work K α} (every : Every P w) (weaker : ∀ action, P action → Q action) :
    Every Q w := by
  induction every with
  | done v => exact .done v
  | act such _ ih => exact .act (weaker _ such) ih

theorem bind {w : Work K α} {f : α → Work K β} (every : Every P w) (next : ∀ v, Every P (f v)) :
    Every P (Procedure.bind w f) := by
  induction every with
  | done v => exact next v
  | act such _ ih => exact .act such ih

theorem andThen {w : Work K (Except Fault α)} {f : α → Work K (Except Fault β)}
    (every : Every P w) (next : ∀ v, Every P (f v)) : Every P (Procedure.andThen w f) := by
  refine every.bind fun r => ?_
  cases r with
  | error e => exact .done _
  | ok v => exact next v

theorem single (action : Action K) (such : P action) : Every P (Work.act action) :=
  .act such fun r => .done r

section Execution

variable (sc : Scenario K.Recipe)

theorem render (k : Nat) :
    Every (fun action => action.isPlain = true ∧ action.Within (· = sc.recipe))
      (Concord.render k sc) := by
  refine andThen (single (.reset k) ⟨rfl, trivial⟩) fun _ => ?_
  refine andThen (single (.parse k sc.input) ⟨rfl, trivial⟩) fun parsed => ?_
  refine andThen (single (.transform k parsed sc.recipe) ⟨rfl, rfl⟩) fun tree => ?_
  refine andThen (single (.print k tree) ⟨rfl, trivial⟩) fun text => ?_
  exact andThen (single (.diagnose k tree) ⟨rfl, trivial⟩) fun ds => .done _

theorem replay (k n : Nat) (seen : List Rendering) :
    Every (fun action => action.isPlain = true ∧ action.Within (· = sc.recipe))
      (Concord.replay k sc n seen) := by
  induction n generalizing seen with
  | zero => exact .done _
  | succ n ih => exact andThen (render sc k) fun r => ih (r :: seen)

/-- An execution constructs nothing and transforms by its own recipe only. -/
theorem execute (n : Nat) (i : Option Nat) (key : Key) :
    Every (fun action => action.isPlain = true ∧ action.Within (· = sc.recipe))
      (Concord.execute n i key sc) := by
  rw [execute_eq]
  refine .act ⟨rfl, trivial⟩ fun _ => bind ?_ fun rendered => .act ⟨rfl, trivial⟩ fun _ => ?_
  · cases i with
    | none => exact .done _
    | some k => exact replay sc k n []
  · cases rendered with
    | error f => exact .done _
    | ok rs =>
        simp only [Concord.judging]
        split
        · exact .done _
        · exact .act ⟨rfl, trivial⟩ fun _ => .done _

end Execution

/-- Once the constructor has answered, nothing is left but to log and to publish. -/
theorem building (b : Backend K) (c : Nat) (r : Except Fault (Option Nat)) :
    Every (·.isPlain = true) (Concord.building b c r) := by
  have publishing (o v : Except Fault (Option Nat)) : Every (·.isPlain = true)
      (Procedure.act (.publish c o) fun _ => (.done v : Work K (Except Fault (Option Nat)))) :=
    .act rfl fun _ => .done v
  cases r with
  | ok i => exact .act rfl fun _ => publishing _ _
  | error f =>
      simp only [Concord.building]
      split
      · exact .act rfl fun _ => publishing _ _
      · exact publishing _ _

end Work.Every

/-! ### Private states -/

namespace Parser

/-- The private states that calls lead to, in whatever shared state each of them is made. -/
inductive Reached (p : Parser K) (uses : K.Recipe → Prop) (first : K.Own) : K.Own → Prop
  | start : Reached p uses first first
  | call {own own' : K.Own} {s s' : K.Shared} (reached : Reached p uses first own)
      (action : Action K) {r : action.Answer} (within : action.Within uses)
      (taken : p.take own s action = some (r, own', s')) : Reached p uses first own'

/-- In related private states calls get the same answers, and lead to related states again. -/
def Respects (p : Parser K) (uses : K.Recipe → Prop) (R : K.Own → K.Own → Prop) : Prop :=
  ∀ (action : Action K) (o₁ o₂ o₁' o₂' : K.Own) (s₁ s₂ s₁' s₂' : K.Shared) (r₁ r₂ : action.Answer),
    action.Within uses → R o₁ o₂ → p.take o₁ s₁ action = some (r₁, o₁', s₁') →
    p.take o₂ s₂ action = some (r₂, o₂', s₂') → r₁ = r₂ ∧ R o₁' o₂'

/-- No calls tell these private states apart. -/
def Alike (p : Parser K) (uses : K.Recipe → Prop) (o₁ o₂ : K.Own) : Prop :=
  ∃ R, p.Respects uses R ∧ R o₁ o₂

/-- A reset makes the calls that follow independent of those before. -/
def Restarts (p : Parser K) (uses : K.Recipe → Prop) (first : K.Own) : Prop :=
  ∀ o₁ o₂, p.Reached uses first o₁ → p.Reached uses first o₂ → ∀ s₁ s₂,
    (p.reset o₁ s₁).result = (p.reset o₂ s₂).result ∧
      p.Alike uses (p.reset o₁ s₁).own (p.reset o₂ s₂).own

namespace Reached

variable {p : Parser K} {uses : K.Recipe → Prop} {first : K.Own}

theorem andThen {q : Played K α} {f : α → K.Own → K.Shared → Played K β}
    (reached : p.Reached uses first q.own)
    (next : ∀ v o s, p.Reached uses first o → p.Reached uses first (f v o s).own) :
    p.Reached uses first (q.andThen f).own := by
  obtain ⟨result, o, s⟩ := q
  cases result with
  | error e => exact reached
  | ok v => exact next v o s reached

theorem render {sc : Scenario K.Recipe} (used : uses sc.recipe) {o : K.Own}
    (reached : p.Reached uses first o) (s : K.Shared) :
    p.Reached uses first (p.render sc o s).own := by
  refine andThen (reached.call (.reset 0) trivial rfl) fun _ o s reached => ?_
  refine andThen (reached.call (.parse 0 sc.input) trivial rfl) fun parsed o s reached => ?_
  refine andThen (reached.call (.transform 0 parsed sc.recipe) used rfl) fun tree o s reached => ?_
  refine andThen (reached.call (.print 0 tree) trivial rfl) fun text o s reached => ?_
  exact andThen (reached.call (.diagnose 0 tree) trivial rfl) fun ds o s reached => reached

end Reached

end Parser

/-! ### Work on one instance -/

/-- Calls on the instance `k` end as `Q` says, in whatever shared state each of them is made. -/
inductive Work.Ensures (p : Parser K) (uses : K.Recipe → Prop) (k : Nat) (Q : α → K.Own → Prop) :
    K.Own → Work K α → Prop
  | done {v : α} {own : K.Own} (holds : Q v own) : Ensures p uses k Q own (.done v)
  | act {own : K.Own} {action : Action K} {next : action.Answer → Work K α}
      (target : action.target? = some k) (within : action.Within uses)
      (goes : ∀ s r own' s', p.take own s action = some (r, own', s') →
        Ensures p uses k Q own' (next r)) :
      Ensures p uses k Q own (Procedure.act action next)

namespace Work.Ensures

variable {p : Parser K} {uses : K.Recipe → Prop} {k : Nat} {own : K.Own}

theorem bind {Q : α → K.Own → Prop} {Q' : β → K.Own → Prop} {w : Work K α} {f : α → Work K β}
    (ensures : Ensures p uses k Q own w)
    (next : ∀ v own, Q v own → Ensures p uses k Q' own (f v)) :
    Ensures p uses k Q' own (w.bind f) := by
  induction ensures with
  | done holds => exact next _ _ holds
  | act target within _ ih => exact .act target within ih

theorem mono {Q Q' : α → K.Own → Prop} {w : Work K α} (ensures : Ensures p uses k Q own w)
    (weaker : ∀ v own, Q v own → Q' v own) : Ensures p uses k Q' own w := by
  induction ensures with
  | done holds => exact .done (weaker _ _ holds)
  | act target within _ ih => exact .act target within ih

theorem reached {first : K.Own} {Q : α → K.Own → Prop} {w : Work K α}
    (ensures : Ensures p uses k Q own w) (begun : p.Reached uses first own) :
    Ensures p uses k (fun v own => Q v own ∧ p.Reached uses first own) own w := by
  induction ensures with
  | done holds => exact .done ⟨holds, begun⟩
  | act target within _ ih =>
      exact .act target within fun s r own' s' taken => ih s r own' s' taken (begun.call _ within taken)

end Work.Ensures

/-- In a state that is related to another, calls end as `f` says of that one. -/
def Work.Mirrors (p : Parser K) (uses : K.Recipe → Prop) (k : Nat) (R : K.Own → K.Own → Prop)
    (w : Work K (Except Fault α)) (f : K.Own → K.Shared → Played K α) : Prop :=
  ∀ own o s, R own o →
    Work.Ensures p uses k (fun v own' => v = (f o s).result ∧ R own' (f o s).own) own w

namespace Work.Mirrors

variable {p : Parser K} {uses : K.Recipe → Prop} {k : Nat} {R : K.Own → K.Own → Prop}

theorem done (v : α) :
    Mirrors p uses k R (.done (.ok v)) fun o s => ⟨.ok v, o, s⟩ := by
  intro own o s related
  exact .done ⟨rfl, related⟩

theorem andThen {w : Work K (Except Fault α)} {f : K.Own → K.Shared → Played K α}
    {g : α → Work K (Except Fault β)} {h : α → K.Own → K.Shared → Played K β}
    (first : Mirrors p uses k R w f) (next : ∀ v, Mirrors p uses k R (g v) (h v)) :
    Mirrors p uses k R (Procedure.andThen w g) fun o s => (f o s).andThen h := by
  intro own o s related
  refine (first own o s related).bind ?_
  rintro v own' ⟨rfl, related'⟩
  show Ensures p uses k (fun v own' => v = ((f o s).andThen h).result ∧
    R own' ((f o s).andThen h).own) own' _
  generalize f o s = played at related' ⊢
  obtain ⟨result, o', s'⟩ := played
  cases result with
  | error e => exact .done ⟨rfl, related'⟩
  | ok v => exact next v own' o' s' related'

theorem call (respects : p.Respects uses R) (action : Action K)
    (answer : action.Answer → Except Fault α) {f : K.Own → K.Shared → Played K α}
    (target : action.target? = some k) (within : action.Within uses)
    (taken : ∀ o s, ∃ r, p.take o s action = some (r, (f o s).own, (f o s).shared) ∧
      answer r = (f o s).result) :
    Mirrors p uses k R (Procedure.act action fun r => .done (answer r)) f := by
  intro own o s related
  refine .act target within fun s₁ r₁ own' s₁' mine => ?_
  obtain ⟨r, yours, same⟩ := taken o s
  obtain ⟨rfl, related'⟩ := respects action _ _ _ _ _ _ _ _ _ _ within related mine yours
  exact .done ⟨same, related'⟩

theorem tail (respects : p.Respects uses R) {sc : Scenario K.Recipe} (used : uses sc.recipe) :
    Mirrors p uses k R
      (Procedure.andThen (Work.act (.parse k sc.input)) fun parsed =>
        Procedure.andThen (Work.act (.transform k parsed sc.recipe)) fun tree =>
        Procedure.andThen (Work.act (.print k tree)) fun text =>
        Procedure.andThen (Work.act (.diagnose k tree)) fun ds =>
        .done (.ok (Rendering.mk text ds)))
      fun o s => (p.parse sc.input o s).played.andThen fun parsed o s =>
        (p.transform parsed sc.recipe o s).played.andThen fun tree o s =>
        (p.print tree o s).played.andThen fun text o s =>
        (p.diagnostics tree o s).played.andThen fun ds o s => ⟨.ok (Rendering.mk text ds), o, s⟩ := by
  refine andThen (call respects (.parse k sc.input) id rfl trivial ?_) fun parsed => ?_
  · exact fun o s => ⟨_, rfl, rfl⟩
  refine andThen (call respects (.transform k parsed sc.recipe) id rfl used ?_) fun tree => ?_
  · exact fun o s => ⟨_, rfl, rfl⟩
  refine andThen (call respects (.print k tree) id rfl trivial ?_) fun text => ?_
  · exact fun o s => ⟨_, rfl, rfl⟩
  refine andThen (call respects (.diagnose k tree) id rfl trivial ?_) fun ds => done _
  · exact fun o s => ⟨_, rfl, rfl⟩

end Work.Mirrors

namespace Work.Ensures

variable {p : Parser K} {uses : K.Recipe → Prop} {k : Nat} {first own : K.Own}

/-- A replay renders what it renders in any other state that calls lead to. -/
theorem render (restarts : p.Restarts uses first) (begun : p.Reached uses first own) {o : K.Own}
    (begun' : p.Reached uses first o) {sc : Scenario K.Recipe} (used : uses sc.recipe)
    (s : K.Shared) :
    Ensures p uses k (fun v own' => v = (p.render sc o s).result ∧ p.Reached uses first own') own
      (Concord.render k sc) := by
  refine reached ?_ begun
  refine .act rfl trivial fun s₁ r own' s₁' taken => ?_
  cases taken
  obtain ⟨same, R, respects, related⟩ := restarts own o begun begun' s₁ s
  rw [same]
  unfold Parser.render Reply.played
  cases (p.reset o s).result with
  | error f => exact .done rfl
  | ok _ =>
      exact (Mirrors.tail respects used _ _ _ related).mono fun v own' ends => ends.1

theorem replay (restarts : p.Restarts uses first) {sc : Scenario K.Recipe} (used : uses sc.recipe)
    (n : Nat) (seen : List Rendering) (begun : p.Reached uses first own) {o : K.Own}
    (begun' : p.Reached uses first o) (s : K.Shared) :
    Ensures p uses k
      (fun v _ => v = ((p.replays sc n o s).andThen fun rs o s =>
        ⟨.ok (seen.reverse ++ rs), o, s⟩).result) own (Concord.replay k sc n seen) := by
  induction n generalizing own o s seen with
  | zero => exact .done (by simp [Parser.replays])
  | succ n ih =>
      refine (render restarts begun begun' used s).bind ?_
      rintro v own' ⟨rfl, begun₁⟩
      have begun₁' := begun'.render used s
      simp only [Parser.replays, Played.andThen_assoc]
      generalize p.render sc o s = played at begun₁' ⊢
      obtain ⟨result, o', s'⟩ := played
      cases result with
      | error e => exact .done rfl
      | ok r =>
          refine (ih (r :: seen) begun₁ begun₁' s').mono fun v own' ends => ?_
          simpa using ends

end Work.Ensures

/-! ### Whole executions -/

/-- Whatever happens at the actions, the value is `v`. While the backend is held, its instance is in
the private state `own`; it is acquired in any state that calls lead to. -/
inductive Work.Foretells (p : Parser K) (uses : K.Recipe → Prop) (k : Nat) (first : K.Own) (v : α) :
    Option K.Own → Work K α → Prop
  | done : Foretells p uses k first v none (.done v)
  | write {held : Option K.Own} {r : Record} {next : (Action.write (K := K) r).Answer → Work K α}
      (goes : Foretells p uses k first v held (next ())) :
      Foretells p uses k first v held (Procedure.act (.write r) next)
  | acquire {b : String} {next : (Action.acquire (K := K) b).Answer → Work K α}
      (goes : ∀ own, p.Reached uses first own → Foretells p uses k first v (some own) (next ())) :
      Foretells p uses k first v none (Procedure.act (.acquire b) next)
  | call {own : K.Own} {action : Action K} {next : action.Answer → Work K α}
      (target : action.target? = some k) (within : action.Within uses)
      (goes : ∀ s r own' s', p.take own s action = some (r, own', s') →
        Foretells p uses k first v (some own') (next r)) :
      Foretells p uses k first v (some own) (Procedure.act action next)
  | release {own : K.Own} {b : String} {next : (Action.release (K := K) b).Answer → Work K α}
      (goes : Foretells p uses k first v none (next ())) :
      Foretells p uses k first v (some own) (Procedure.act (.release b) next)

namespace Work.Foretells

variable {p : Parser K} {uses : K.Recipe → Prop} {k : Nat} {first : K.Own}

theorem bind {v : β} {Q : α → K.Own → Prop} {own : K.Own} {w : Work K α} {f : α → Work K β}
    (ensures : Ensures p uses k Q own w)
    (next : ∀ u own, Q u own → Foretells p uses k first v (some own) (f u)) :
    Foretells p uses k first v (some own) (w.bind f) := by
  induction ensures with
  | done holds => exact next _ _ holds
  | act target within _ ih => exact .call target within ih

theorem judging (key : Key) (sc : Scenario K.Recipe) (rendered : Except Fault (List Rendering)) :
    Foretells p uses k first (verdictOn key sc rendered) none (Concord.judging key sc rendered) := by
  cases rendered with
  | error f => exact .done
  | ok rs =>
      simp only [Concord.judging]
      split
      · exact .done
      · exact .write .done

/-- An execution comes to the verdict that it comes to alone on the instance as it was first. -/
theorem execute (restarts : p.Restarts uses first) (n : Nat) (key : Key) {sc : Scenario K.Recipe}
    (used : uses sc.recipe) (s : K.Shared) :
    Foretells p uses k first (p.verdict n key sc first s).result none
      (Concord.execute n (some k) key sc) := by
  have judged : (p.verdict n key sc first s).result =
      verdictOn key sc (p.replays sc n first s).result := by
    unfold Parser.verdict Played.andThen
    cases (p.replays sc n first s).result <;> rfl
  rw [execute_eq, judged]
  refine .acquire fun own begun => bind (Ensures.replay restarts used n [] begun .start s) ?_
  rintro rendered own' rfl
  simp only [List.reverse_nil, List.nil_append, Played.andThen_self]
  exact .release (judging key sc _)

end Work.Foretells

end Concord
