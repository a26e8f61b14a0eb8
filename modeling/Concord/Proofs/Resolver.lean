import Concord.Proofs.Lists
import Concord.Resolve
/-!
Resolution among others. Whoever resolves a backend is at one of a few spots: it has not looked the
identity up, it builds in a context of its own, or it waits for the context of somebody else. What
each step does to the session is said once, in `Ask.Moves`; from it follows what holds of the
contexts at any time, whoever else is at work: every context has one builder, it is published once,
and everyone who has read it has read the same.
-/

namespace Concord

variable {K : Kit}

/-- An action that was performed, with the answer that it got. -/
structure Deed (K : Kit) where
  action : Action K
  answer : action.Answer

def Deed.isWrite (d : Deed K) : Bool :=
  match d.action with
  | .write _ => true
  | _ => false

/-! ### Where a caller is -/

theorem Catalog.identity_of_backend? {c : Catalog K} {identity : String} {b : Backend K}
    (registered : c.backend? identity = some b) : b.identity = identity := by
  simpa using List.find?_some registered

def entering (b : Backend K) (identity : String) : Entry → Work K (Except Fault (Option Nat))
  | .opened context => buildIn b context
  | .joined context pending => readFrom identity context pending

theorem resolve_eq_of_registered {c : Catalog K} {identity : String} {b : Backend K}
    (registered : c.backend? identity = some b) :
    resolve c identity = Procedure.act (.enter identity) (entering b identity) := by
  simp only [resolve, Catalog.backend, registered]
  refine congrArg (Procedure.act (Action.enter identity)) ?_
  funext e
  cases e <;> rfl

theorem resolve_eq_of_unregistered {c : Catalog K} {identity : String}
    (unregistered : c.backend? identity = none) :
    resolve c identity = .done (.error (.unregistered identity)) := by
  simp only [resolve, Catalog.backend, unregistered]

def publication (identity : String) : Except Fault (Option Nat) → Except Fault (Option Nat)
  | .ok i => .ok i
  | .error f => .error (publishedFailure identity f)

/-- What a builder ends with itself: an interrupt goes on as it is. -/
def delivery (identity : String) : Except Fault (Option Nat) → Except Fault (Option Nat)
  | .ok i => .ok i
  | .error f => .error (if f.isOrdinary then publishedFailure identity f else f)

def building (b : Backend K) (c : Nat) :
    Except Fault (Option Nat) → Work K (Except Fault (Option Nat))
  | .ok i =>
      Procedure.act (.write { Source.resolver.record .info s!"Constructed backend {b.identity}" with
        timed := true }) fun _ =>
      Procedure.act (.publish c (publication b.identity (.ok i))) fun _ =>
      .done (delivery b.identity (.ok i))
  | .error f =>
      let published : Work K (Except Fault (Option Nat)) :=
        Procedure.act (.publish c (publication b.identity (.error f))) fun _ =>
        .done (delivery b.identity (.error f))
      if f.isOrdinary then
        Procedure.act (.write { Source.resolver.record .error
          s!"Backend {b.identity} failed to construct" with traced := true }) fun _ => published
      else published

theorem buildIn_eq (b : Backend K) (c : Nat) :
    buildIn b c =
      Procedure.act (.write (Source.resolver.record .info s!"Constructing backend {b.identity}"))
        fun _ => Procedure.act (.construct b) (building b c) := by
  refine congrArg (Procedure.act (Action.write _)) ?_
  funext _
  refine congrArg (Procedure.act (Action.construct b)) ?_
  funext r
  cases r with
  | ok i => rfl
  | error f =>
      cases ordinary : f.isOrdinary <;>
        simp only [building, publication, delivery, Procedure.bind_done, ordinary, if_true,
          Bool.false_eq_true, if_false] <;> rfl

/-- How far a resolution is. A builder keeps what its constructor answered, and a reader what it
was told. -/
inductive Spot
  | refused
  | asking
  | entered (c : Nat)
  | called (c : Nat) (r : Except Fault (Option Nat))
  | built (c : Nat) (r : Except Fault (Option Nat))
  | joined (c : Nat) (pending : Bool)
  | read (c : Nat) (pending : Bool) (o : Except Fault Nat)

namespace Spot

def opened? : Spot → Option Nat
  | .entered c | .called c _ | .built c _ => some c
  | _ => none

def context? : Spot → Option Nat
  | .joined c _ | .read c _ _ => some c
  | spot => spot.opened?

theorem context?_of_opened? {spot : Spot} {c : Nat} (opened : spot.opened? = some c) :
    spot.context? = some c := by
  cases spot <;> first | exact opened | cases opened

def made? : Spot → Option Nat
  | .called _ (.ok i) | .built _ (.ok i) => i
  | _ => none

end Spot

/-- A resolution of an identity, and how far it is. -/
structure Ask where
  identity : String
  spot : Spot

def Ask.start (catalog : Catalog K) (identity : String) : Ask :=
  ⟨identity, if (catalog.backend? identity).isSome then .asking else .refused⟩

theorem Ask.spot_start (catalog : Catalog K) (identity : String) :
    (Ask.start catalog identity).spot = .asking ∨ (Ask.start catalog identity).spot = .refused := by
  unfold Ask.start
  cases (catalog.backend? identity).isSome <;> simp

/-- What an ask has done so far, and what it has yet to do. Logging leaves it where it is. -/
inductive Ask.Stands (catalog : Catalog K) :
    Ask → List (Deed K) → Work K (Except Fault (Option Nat)) → Prop
  | refused {identity : String} (unregistered : catalog.backend? identity = none) :
      Stands catalog ⟨identity, .refused⟩ [] (.done (.error (.unregistered identity)))
  | asking {identity : String} {b : Backend K} (registered : catalog.backend? identity = some b) :
      Stands catalog ⟨identity, .asking⟩ []
        (Procedure.act (.enter identity) (entering b identity))
  | entered {identity : String} {b : Backend K} {c : Nat}
      (registered : catalog.backend? identity = some b) :
      Stands catalog ⟨identity, .entered c⟩ [⟨.enter identity, .opened c⟩]
        (Procedure.act (.construct b) (building b c))
  | called {identity : String} {b : Backend K} {c : Nat} {r : Except Fault (Option Nat)}
      {s s' : Session K} (registered : catalog.backend? identity = some b)
      (made : s.construct true b = some (r, s')) :
      Stands catalog ⟨identity, .called c r⟩ [⟨.enter identity, .opened c⟩, ⟨.construct b, r⟩]
        (Procedure.act (.publish c (publication identity r)) fun _ => .done (delivery identity r))
  | built {identity : String} {b : Backend K} {c : Nat} {r : Except Fault (Option Nat)}
      {s s' : Session K} (registered : catalog.backend? identity = some b)
      (made : s.construct true b = some (r, s')) :
      Stands catalog ⟨identity, .built c r⟩
        [⟨.enter identity, .opened c⟩, ⟨.construct b, r⟩, ⟨.publish c (publication identity r), ()⟩]
        (.done (delivery identity r))
  | joined {identity : String} {b : Backend K} {c : Nat} {pending : Bool}
      (registered : catalog.backend? identity = some b) :
      Stands catalog ⟨identity, .joined c pending⟩ [⟨.enter identity, .joined c pending⟩]
        (Procedure.act (.await c) fun o => .done (o.map some))
  | read {identity : String} {b : Backend K} {c : Nat} {pending : Bool} {o : Except Fault Nat}
      (registered : catalog.backend? identity = some b) :
      Stands catalog ⟨identity, .read c pending o⟩
        [⟨.enter identity, .joined c pending⟩, ⟨.await c, o⟩] (.done (o.map some))
  | logging {a : Ask} {ds : List (Deed K)} {w : Work K (Except Fault (Option Nat))} {r : Record}
      (going : a.spot ≠ .refused) (stands : Stands catalog a ds w) :
      Stands catalog a ds (Procedure.act (.write r) fun _ => w)

/-- The ways an ask can go on, and what each does to the session. -/
inductive Ask.Moves (catalog : Catalog K) (identity : String) (s : Session K) :
    Deed K → Spot → Spot → Session K → Prop
  | writes (spot : Spot) (r : Record) (thread : String) :
      Moves catalog identity s ⟨.write r, ()⟩ spot spot (s.write thread [r])
  | opens (unasked : s.cache.lookup identity = none) :
      Moves catalog identity s ⟨.enter identity, .opened s.contexts.length⟩ .asking
        (.entered s.contexts.length)
        { s with
          contexts := s.contexts ++ [{ identity }]
          cache := (identity, s.contexts.length) :: s.cache
          begun := identity :: s.begun }
  | joins {c : Nat} (pending : Bool) (cached : s.cache.lookup identity = some c) :
      Moves catalog identity s ⟨.enter identity, .joined c pending⟩ .asking (.joined c pending) s
  | calls {b : Backend K} (c : Nat) {r : Except Fault (Option Nat)} {s' : Session K}
      (registered : catalog.backend? identity = some b) (made : s.construct true b = some (r, s')) :
      Moves catalog identity s ⟨.construct b, r⟩ (.entered c) (.called c r) s'
  | publishes (c : Nat) (r : Except Fault (Option Nat)) :
      Moves catalog identity s ⟨.publish c (publication identity r), ()⟩ (.called c r) (.built c r)
        (s.publish c (publication identity r))
  | reads {c : Nat} (pending : Bool) {x : Context Nat} {o : Except Fault Nat}
      (found : s.contexts[c]? = some x) (published : x.outcome? = some o) :
      Moves catalog identity s ⟨.await c, o⟩ (.joined c pending) (.read c pending o) s

namespace Ask.Stands

variable {catalog : Catalog K} {identity : String} {b : Backend K}

theorem start (catalog : Catalog K) (identity : String) :
    (Ask.start catalog identity).Stands catalog [] (resolve catalog identity) := by
  unfold Ask.start
  cases registered : catalog.backend? identity with
  | none =>
      rw [resolve_eq_of_unregistered registered]
      exact .refused registered
  | some b =>
      rw [resolve_eq_of_registered registered]
      exact .asking registered

theorem after_opening (registered : catalog.backend? identity = some b) (c : Nat) :
    Stands catalog ⟨identity, .entered c⟩ [⟨.enter identity, .opened c⟩] (buildIn b c) := by
  rw [buildIn_eq]
  exact .logging (by simp) (.entered registered)

theorem after_joining (registered : catalog.backend? identity = some b) (c : Nat) (pending : Bool) :
    Stands catalog ⟨identity, .joined c pending⟩ [⟨.enter identity, .joined c pending⟩]
      (readFrom identity c pending) :=
  .logging (by simp) (.joined registered)

theorem after_calling (registered : catalog.backend? identity = some b) (c : Nat)
    {r : Except Fault (Option Nat)} {s s' : Session K} (made : s.construct true b = some (r, s')) :
    Stands catalog ⟨identity, .called c r⟩ [⟨.enter identity, .opened c⟩, ⟨.construct b, r⟩]
      (building b c r) := by
  obtain rfl := Catalog.identity_of_backend? registered
  have publishing := Stands.called (c := c) registered made
  cases r with
  | ok i => exact .logging (by simp) publishing
  | error f =>
      cases ordinary : f.isOrdinary <;>
        simp only [building, ordinary, if_true, Bool.false_eq_true, if_false]
      · exact publishing
      · exact .logging (by simp) publishing

theorem of_done {a : Ask} {ds : List (Deed K)} {v : Except Fault (Option Nat)}
    (stands : a.Stands catalog ds (.done v)) :
    (a.spot = .refused ∧ catalog.backend? a.identity = none ∧ ds = [] ∧
        v = .error (.unregistered a.identity)) ∨
      (∃ c r b, a.spot = .built c r ∧ catalog.backend? a.identity = some b ∧
        (∃ s s' : Session K, s.construct true b = some (r, s')) ∧
        ds = [⟨.enter a.identity, .opened c⟩, ⟨.construct b, r⟩,
          ⟨.publish c (publication a.identity r), ()⟩] ∧
        v = delivery a.identity r) ∨
      ∃ c pending o, a.spot = .read c pending o ∧ (catalog.backend? a.identity).isSome = true ∧
        ds = [⟨.enter a.identity, .joined c pending⟩, ⟨.await c, o⟩] ∧ v = o.map some := by
  cases stands with
  | refused unregistered => exact .inl ⟨rfl, unregistered, rfl, rfl⟩
  | built registered made =>
      exact .inr (.inl ⟨_, _, _, rfl, registered, ⟨_, _, made⟩, rfl, rfl⟩)
  | read registered => exact .inr (.inr ⟨_, _, _, rfl, by simp [registered], rfl, rfl⟩)

theorem of_built {a : Ask} {ds : List (Deed K)} {w : Work K (Except Fault (Option Nat))}
    (stands : a.Stands catalog ds w) {c : Nat} {r : Except Fault (Option Nat)}
    (built : a.spot = .built c r) :
    ∃ b, catalog.backend? a.identity = some b ∧
      (∃ s s' : Session K, s.construct true b = some (r, s')) ∧
      ds = [⟨.enter a.identity, .opened c⟩, ⟨.construct b, r⟩,
        ⟨.publish c (publication a.identity r), ()⟩] := by
  induction stands with
  | logging _ _ ih => exact ih built
  | built registered made =>
      cases built
      exact ⟨_, registered, ⟨_, _, made⟩, rfl⟩
  | _ => cases built

/-- Whatever an ask does next is one of its moves. -/
theorem step {a : Ask} {ds : List (Deed K)} {action : Action K}
    {next : action.Answer → Work K (Except Fault (Option Nat))}
    (stands : a.Stands catalog ds (Procedure.act action next)) {thread : String} {s s' : Session K}
    {r : action.Answer} (performed : Session.perform true thread action s = some (r, s')) :
    ∃ spot, Ask.Moves catalog a.identity s ⟨action, r⟩ a.spot spot s' ∧
      Stands catalog ⟨a.identity, spot⟩ (ds ++ [⟨action, r⟩].filter (!·.isWrite)) (next r) := by
  cases stands with
  | asking registered =>
      simp only [Session.perform, Session.enter] at performed
      split at performed
      · rename_i c cached
        cases performed
        exact ⟨_, .joins _ cached, after_joining registered c _⟩
      · rename_i unasked
        cases performed
        exact ⟨_, .opens unasked, after_opening registered _⟩
  | entered registered =>
      exact ⟨_, .calls _ registered performed, after_calling registered _ performed⟩
  | called registered made =>
      cases performed
      exact ⟨_, .publishes _ _, .built registered made⟩
  | joined registered =>
      obtain ⟨o, found, same⟩ := Option.map_eq_some_iff.mp performed
      obtain ⟨x, at_c, published⟩ := Option.bind_eq_some_iff.mp found
      cases same
      exact ⟨_, .reads _ at_c published, .read registered⟩
  | logging _ stands =>
      cases performed
      exact ⟨_, .writes _ _ thread, by simpa [Deed.isWrite] using stands⟩

end Ask.Stands

/-! ### What holds of the contexts -/

theorem Session.construct_cases {s s' : Session K} {b : Backend K} {r : Except Fault (Option Nat)}
    (made : s.construct true b = some (r, s')) :
    ∃ instances, s' = { s with shared := (b.construct s.shared).shared, instances } ∧
      ((∃ f, (b.construct s.shared).result = .error f ∧ r = .error f ∧ instances = s.instances) ∨
        ((b.construct s.shared).result = .ok none ∧ r = .ok none ∧ instances = s.instances) ∨
        ∃ x, (b.construct s.shared).result = .ok (some x) ∧ r = .ok (some s.instances.length) ∧
          instances = s.instances ++ [x]) := by
  simp only [Session.construct, Bool.not_true, Bool.and_false, Bool.false_eq_true, if_false] at made
  split at made <;> cases made
  · exact ⟨_, rfl, .inl ⟨_, ‹_›, rfl, rfl⟩⟩
  · exact ⟨_, rfl, .inr (.inl ⟨‹_›, rfl, rfl⟩)⟩
  · exact ⟨_, rfl, .inr (.inr ⟨_, ‹_›, rfl, rfl⟩)⟩

theorem Context.ready_of_outcome? {x : Context Nat} {o : Except Fault Nat}
    (published : x.outcome? = some o) : x.ready = true := by
  unfold Context.outcome? at published
  split at published
  · assumption
  · cases published

@[simp] theorem Context.identity_publish (x : Context Nat) (r : Except Fault (Option Nat)) :
    (x.publish r).identity = x.identity := by
  cases r <;> rfl

/-- What a reader is told of a constructor's answer. -/
def reading (identity : String) : Except Fault (Option Nat) → Except Fault Nat
  | .ok (some k) => .ok k
  | .ok none => .error (.breakdown .runtime s!"Backend {identity} published no instance")
  | .error f => .error (publishedFailure identity f)

theorem outcome?_publication (identity : String) (r : Except Fault (Option Nat)) :
    (Context.publish { identity } (publication identity r)).outcome? = some (reading identity r) := by
  match r with
  | .ok (some k) => rfl
  | .ok none => rfl
  | .error f => rfl

/-- What the session has published of an identity. -/
def Session.known (s : Session K) (identity : String) : Option (Except Fault Nat) :=
  (s.cache.lookup identity).bind fun c => (s.contexts[c]?).bind (·.outcome?)

/-- Contexts and instances stay, and a published context stays as it is. -/
structure Session.Later (s s' : Session K) : Prop where
  contexts : ∀ (c : Nat) (x : Context Nat), s.contexts[c]? = some x →
    ∃ y, s'.contexts[c]? = some y ∧ y.identity = x.identity ∧ (x.ready = true → y = x)
  instances : s.instances.length ≤ s'.instances.length

theorem Session.Later.refl (s : Session K) : s.Later s :=
  ⟨fun _ x found => ⟨x, found, rfl, fun _ => rfl⟩, Nat.le_refl _⟩

theorem Session.Later.trans {s t u : Session K} (first : s.Later t) (next : t.Later u) :
    s.Later u := by
  refine ⟨fun c x found => ?_, Nat.le_trans first.instances next.instances⟩
  obtain ⟨y, found', same, kept⟩ := first.contexts c x found
  obtain ⟨z, found'', same', kept'⟩ := next.contexts c y found'
  refine ⟨z, found'', same'.trans same, fun ready => ?_⟩
  obtain rfl := kept ready
  exact kept' ready

/-- What an ask knows of the contexts: its own is as it left it, and another's is there. -/
def Ask.Fits (a : Ask) (s : Session K) : Prop :=
  match a.spot with
  | .refused | .asking => True
  | .entered c => s.contexts[c]? = some { identity := a.identity }
  | .called c r =>
      s.contexts[c]? = some { identity := a.identity } ∧
        ∀ k, r = .ok (some k) → k < s.instances.length
  | .built c r =>
      s.contexts[c]? =
          some (Context.publish { identity := a.identity } (publication a.identity r)) ∧
        ∀ k, r = .ok (some k) → k < s.instances.length
  | .joined c _ => ∃ x, s.contexts[c]? = some x ∧ x.identity = a.identity
  | .read c _ o => ∃ x, s.contexts[c]? = some x ∧ x.identity = a.identity ∧ x.outcome? = some o

theorem Ask.Fits.later {a : Ask} {s s' : Session K} (fits : a.Fits s) (later : s.Later s')
    (own : ∀ c, a.spot.opened? = some c → s'.contexts[c]? = s.contexts[c]?) : a.Fits s' := by
  obtain ⟨identity, spot⟩ := a
  have grown := later.instances
  cases spot with
  | refused => trivial
  | asking => trivial
  | entered c => exact (own c rfl).trans fits
  | called c r => exact ⟨(own c rfl).trans fits.1, fun k made => by have := fits.2 k made; omega⟩
  | built c r => exact ⟨(own c rfl).trans fits.1, fun k made => by have := fits.2 k made; omega⟩
  | joined c pending =>
      obtain ⟨x, found, same⟩ := fits
      obtain ⟨y, found', same', _⟩ := later.contexts c x found
      exact ⟨y, found', same'.trans same⟩
  | read c pending o =>
      obtain ⟨x, found, same, published⟩ := fits
      obtain ⟨y, found', same', kept⟩ := later.contexts c x found
      obtain rfl := kept (Context.ready_of_outcome? published)
      exact ⟨y, found', same, published⟩

theorem Ask.fits_start (catalog : Catalog K) (identity : String) (s : Session K) :
    (Ask.start catalog identity).Fits s := by
  unfold Ask.Fits
  rcases Ask.spot_start catalog identity with spot | spot <;> rw [spot] <;> trivial

theorem Ask.Fits.own {a : Ask} {s : Session K} (fits : a.Fits s) {c : Nat}
    (opened : a.spot.opened? = some c) :
    ∃ x, s.contexts[c]? = some x ∧ x.identity = a.identity := by
  obtain ⟨identity, spot⟩ := a
  cases spot <;> cases opened
  case entered => exact ⟨_, fits, rfl⟩
  case called => exact ⟨_, fits.1, rfl⟩
  case built => exact ⟨_, fits.1, by simp⟩

theorem Ask.Fits.inside {a : Ask} {s : Session K} (fits : a.Fits s) {c : Nat}
    (opened : a.spot.opened? = some c) : c < s.contexts.length := by
  obtain ⟨x, found, _⟩ := fits.own opened
  exact (List.getElem?_eq_some_iff.mp found).1

theorem Ask.Fits.within {a : Ask} {s : Session K} (fits : a.Fits s) {k : Nat}
    (made : a.spot.made? = some k) : k < s.instances.length := by
  obtain ⟨identity, spot⟩ := a
  cases spot with
  | called c r =>
      cases r with
      | error f => cases made
      | ok i => exact fits.2 k (congrArg _ made)
  | built c r =>
      cases r with
      | error f => cases made
      | ok i => exact fits.2 k (congrArg _ made)
  | _ => cases made

/-- What holds of the contexts whoever is at work. Those before `base` are published. -/
structure Session.Orderly (s : Session K) (base : Nat) : Prop where
  based : base ≤ s.contexts.length
  settled : ∀ (c : Nat) (x : Context Nat), c < base → s.contexts[c]? = some x → x.ready = true
  cached : ∀ (identity : String) (c : Nat), s.cache.lookup identity = some c →
    ∃ x, s.contexts[c]? = some x ∧ x.identity = identity
  placed : ∀ (c : Nat) (x : Context Nat) (k : Nat), s.contexts[c]? = some x →
    x.outcome? = some (.ok k) → k < s.instances.length

def Ask.Unique (f : Spot → Option Nat) (asks : List Ask) : Prop :=
  ∀ (p q : Nat) (a a' : Ask) (n : Nat), asks[p]? = some a → asks[q]? = some a' →
    f a.spot = some n → f a'.spot = some n → p = q

/-- What holds of a session in which some asks are going on: every context that was not there when
they began was opened by exactly one of them, and every new instance was made by one. -/
structure Ask.Sound (base : Nat) (asks : List Ask) (s : Session K) : Prop where
  orderly : s.Orderly base
  fits : ∀ (p : Nat) (a : Ask), asks[p]? = some a → a.Fits s
  opened : ∀ c, base ≤ c → c < s.contexts.length →
    ∃ (p : Nat) (a : Ask), asks[p]? = some a ∧ a.spot.opened? = some c
  once : Ask.Unique Spot.opened? asks
  apart : Ask.Unique Spot.made? asks

theorem Ask.Unique.set {f : Spot → Option Nat} {asks : List Ask} (unique : Unique f asks) {p : Nat}
    {x : Ask} (new : ∀ (q : Nat) (a : Ask) (n : Nat), asks[q]? = some a → f x.spot = some n →
      f a.spot = some n → p = q) : Unique f (asks.set p x) := by
  intro q q' a a' n there there' mine yours
  rcases getElem?_set_cases there with ⟨rfl, rfl⟩ | ⟨_, old⟩ <;>
    rcases getElem?_set_cases there' with ⟨rfl, rfl⟩ | ⟨_, old'⟩
  · rfl
  · exact new q' a' n old' mine yours
  · exact (new q a n old yours mine).symm
  · exact unique q q' a a' n old old' mine yours

namespace Ask.Sound

variable {catalog : Catalog K} {base : Nat} {asks : List Ask} {s s' : Session K}

theorem start (catalog : Catalog K) (identities : List String) {s : Session K} {base : Nat}
    (orderly : s.Orderly base) (all : s.contexts.length ≤ base) :
    Sound base (identities.map (Ask.start catalog)) s := by
  have idle (i : String) :
      (Ask.start catalog i).spot.opened? = none ∧ (Ask.start catalog i).spot.made? = none := by
    rcases Ask.spot_start catalog i with spot | spot <;> rw [spot] <;> exact ⟨rfl, rfl⟩
  have found {p : Nat} {a : Ask} (here : (identities.map (Ask.start catalog))[p]? = some a) :
      ∃ i, a = Ask.start catalog i := by
    rw [List.getElem?_map] at here
    obtain ⟨i, _, same⟩ := Option.map_eq_some_iff.mp here
    exact ⟨i, same.symm⟩
  refine ⟨orderly, ?_, ?_, ?_, ?_⟩
  · intro p a here
    obtain ⟨i, rfl⟩ := found here
    exact Ask.fits_start catalog i s
  · intro c above below
    omega
  · intro p q a a' n here _ mine
    obtain ⟨i, rfl⟩ := found here
    rw [(idle i).1] at mine
    cases mine
  · intro p q a a' n here _ mine
    obtain ⟨i, rfl⟩ := found here
    rw [(idle i).2] at mine
    cases mine

/-- Whatever leaves the contexts alone and takes no instance away does no harm. -/
theorem frame (sound : Sound base asks s) (contexts : s'.contexts = s.contexts)
    (cache : ∀ identity c, s'.cache.lookup identity = some c → s.cache.lookup identity = some c)
    (instances : s.instances.length ≤ s'.instances.length) : Sound base asks s' := by
  have later : s.Later s' :=
    ⟨fun c x found => ⟨x, contexts ▸ found, rfl, fun _ => rfl⟩, instances⟩
  refine ⟨⟨?_, ?_, ?_, ?_⟩, ?_, ?_, sound.once, sound.apart⟩
  · rw [contexts]
    exact sound.orderly.based
  · rw [contexts]
    exact sound.orderly.settled
  · intro identity c here
    rw [contexts]
    exact sound.orderly.cached identity c (cache identity c here)
  · intro c x k found published
    rw [contexts] at found
    exact Nat.lt_of_lt_of_le (sound.orderly.placed c x k found published) instances
  · intro p a here
    exact (sound.fits p a here).later later fun c _ => by rw [contexts]
  · rw [contexts]
    exact sound.opened

theorem clear (sound : Sound base asks s) : Sound base asks s.clear :=
  sound.frame rfl (fun _ _ cached => by cases cached) (Nat.le_refl _)

/-- One ask has moved, and may have opened a context or made an instance: the others fit as before. -/
theorem update (sound : Sound base asks s) {p : Nat} {a : Ask} (here : asks[p]? = some a)
    {spot : Spot} (orderly : s'.Orderly base) (later : s.Later s')
    (fits : Ask.Fits ⟨a.identity, spot⟩ s')
    (elsewhere : ∀ c, a.spot.opened? ≠ some c → c < s.contexts.length →
      s'.contexts[c]? = s.contexts[c]?)
    (opening : spot.opened? = a.spot.opened? ∧ s'.contexts.length = s.contexts.length ∨
      a.spot.opened? = none ∧ spot.opened? = some s.contexts.length ∧
        s'.contexts.length = s.contexts.length + 1)
    (making : spot.made? = a.spot.made? ∨ spot.made? = some s.instances.length) :
    Sound base (asks.set p ⟨a.identity, spot⟩) s' := by
  have inside : p < asks.length := (List.getElem?_eq_some_iff.mp here).1
  refine ⟨orderly, ?_, ?_, sound.once.set ?_, sound.apart.set ?_⟩
  · intro q a' there
    rcases getElem?_set_cases there with ⟨rfl, rfl⟩ | ⟨other, there⟩
    · exact fits
    · refine (sound.fits q a' there).later later fun c opened => elsewhere c ?_ ?_
      · intro opened'
        exact other (sound.once p q a a' c here there opened' opened)
      · exact (sound.fits q a' there).inside opened
  · intro c above below
    by_cases old : c < s.contexts.length
    · obtain ⟨q, a', there, opened⟩ := sound.opened c above old
      by_cases same : p = q
      · subst same
        obtain rfl : a = a' := Option.some.inj (here.symm.trans there)
        rcases opening with ⟨kept, _⟩ | ⟨none, _, _⟩
        · exact ⟨p, ⟨a.identity, spot⟩, by simp [inside], kept.trans opened⟩
        · rw [none] at opened
          cases opened
      · exact ⟨q, a', by rwa [List.getElem?_set_ne same], opened⟩
    · rcases opening with ⟨_, length⟩ | ⟨_, opened, length⟩
      · omega
      · obtain rfl : c = s.contexts.length := by omega
        exact ⟨p, ⟨a.identity, spot⟩, by simp [inside], opened⟩
  · intro q a' c there mine yours
    rcases opening with ⟨kept, _⟩ | ⟨_, opened, _⟩
    · exact sound.once p q a a' c here there (kept ▸ mine) yours
    · obtain rfl : s.contexts.length = c := Option.some.inj (opened.symm.trans mine)
      have := (sound.fits q a' there).inside yours
      omega
  · intro q a' k there mine yours
    rcases making with kept | new
    · exact sound.apart p q a a' k here there (kept ▸ mine) yours
    · obtain rfl : s.instances.length = k := Option.some.inj (new.symm.trans mine)
      have := (sound.fits q a' there).within yours
      omega

theorem publish (sound : Sound base asks s) {p : Nat} {identity : String} {c : Nat}
    {r : Except Fault (Option Nat)} (here : asks[p]? = some ⟨identity, .called c r⟩) :
    s.Later (s.publish c (publication identity r)) ∧
      Sound base (asks.set p ⟨identity, .built c r⟩) (s.publish c (publication identity r)) := by
  obtain ⟨pending, made⟩ := sound.fits p _ here
  have at_c : (s.publish c (publication identity r)).contexts[c]? =
      some (Context.publish { identity } (publication identity r)) := by
    simp [Session.publish, pending]
  have elsewhere (c' : Nat) (other : c ≠ c') :
      (s.publish c (publication identity r)).contexts[c']? = s.contexts[c']? := by
    simp [Session.publish, other]
  have later : s.Later (s.publish c (publication identity r)) := by
    refine ⟨fun c' x found => ?_, Nat.le_refl _⟩
    by_cases same : c = c'
    · subst same
      obtain rfl : { identity } = x := Option.some.inj (pending.symm.trans found)
      exact ⟨_, at_c, by simp, fun ready => by cases ready⟩
    · exact ⟨x, (elsewhere c' same).trans found, rfl, fun _ => rfl⟩
  refine ⟨later, sound.update here ⟨?_, ?_, ?_, ?_⟩ later ⟨at_c, made⟩ ?_ (.inl ⟨rfl, ?_⟩) (.inl ?_)⟩
  · simpa [Session.publish] using sound.orderly.based
  · intro c' x below found
    by_cases same : c = c'
    · subst same
      cases sound.orderly.settled c _ below pending
    · exact sound.orderly.settled c' x below ((elsewhere c' same).symm.trans found)
  · intro identity' c' cached
    obtain ⟨x, found, same⟩ := sound.orderly.cached identity' c' cached
    obtain ⟨y, found', same', _⟩ := later.contexts c' x found
    exact ⟨y, found', same'.trans same⟩
  · intro c' x k found published
    by_cases same : c = c'
    · subst same
      obtain rfl := Option.some.inj (at_c.symm.trans found)
      rw [outcome?_publication] at published
      refine made k ?_
      match r with
      | .ok (some k') =>
          cases published
          rfl
    · exact sound.orderly.placed c' x k ((elsewhere c' same).symm.trans found) published
  · intro c' other _
    exact elsewhere c' fun same => other (congrArg some same)
  · simp [Session.publish]
  · cases r <;> rfl

theorem enter (sound : Sound base asks s) {p : Nat} {identity : String}
    (here : asks[p]? = some ⟨identity, .asking⟩) (begun : List String) :
    s.Later { s with
        contexts := s.contexts ++ [{ identity }]
        cache := (identity, s.contexts.length) :: s.cache
        begun } ∧
      Sound base (asks.set p ⟨identity, .entered s.contexts.length⟩)
        { s with
          contexts := s.contexts ++ [{ identity }]
          cache := (identity, s.contexts.length) :: s.cache
          begun } := by
  let new : Context Nat := { identity }
  have before {c : Nat} (inside : c < s.contexts.length) :
      (s.contexts ++ [new])[c]? = s.contexts[c]? := List.getElem?_append_left inside
  have last : (s.contexts ++ [new])[s.contexts.length]? = some new := by simp
  have later : s.Later { s with
      contexts := s.contexts ++ [{ identity }]
      cache := (identity, s.contexts.length) :: s.cache
      begun } := by
    refine ⟨fun c x found => ⟨x, ?_, rfl, fun _ => rfl⟩, Nat.le_refl _⟩
    exact (before (List.getElem?_eq_some_iff.mp found).1).trans found
  refine ⟨later, sound.update here ⟨?_, ?_, ?_, ?_⟩ later last ?_ (.inr ⟨rfl, rfl, ?_⟩) (.inl rfl)⟩
  · have := sound.orderly.based
    simp only [List.length_append, List.length_singleton]
    omega
  · intro c x below found
    have inside := Nat.lt_of_lt_of_le below sound.orderly.based
    exact sound.orderly.settled c x below ((before inside).symm.trans found)
  · intro identity' c cached
    by_cases same : identity' = identity
    · subst same
      obtain rfl : s.contexts.length = c := by simpa using cached
      exact ⟨_, last, rfl⟩
    · have old : s.cache.lookup identity' = some c := by
        simpa only [List.lookup_cons, beq_false_of_ne same] using cached
      obtain ⟨x, found, same'⟩ := sound.orderly.cached identity' c old
      exact ⟨x, (before (List.getElem?_eq_some_iff.mp found).1).trans found, same'⟩
  · intro c x k found published
    by_cases inside : c < s.contexts.length
    · exact sound.orderly.placed c x k ((before inside).symm.trans found) published
    · have bound := (List.getElem?_eq_some_iff.mp found).1
      simp only [List.length_append, List.length_singleton] at bound
      obtain rfl : c = s.contexts.length := by omega
      obtain rfl := Option.some.inj (last.symm.trans found)
      cases published
  · intro c _ inside
    exact before inside
  · simp

theorem construct (sound : Sound base asks s) {p : Nat} {identity : String} {c : Nat}
    (here : asks[p]? = some ⟨identity, .entered c⟩) {b : Backend K}
    {r : Except Fault (Option Nat)} (made : s.construct true b = some (r, s')) :
    s.Later s' ∧ Sound base (asks.set p ⟨identity, .called c r⟩) s' := by
  obtain ⟨instances, rfl, answer⟩ := Session.construct_cases made
  have grown : s.instances.length ≤ instances.length := by
    rcases answer with ⟨_, _, _, rfl⟩ | ⟨_, _, rfl⟩ | ⟨_, _, _, rfl⟩ <;> simp
  have inside (k : Nat) (ok : r = .ok (some k)) : k = s.instances.length ∧ k < instances.length := by
    rcases answer with ⟨_, _, rfl, _⟩ | ⟨_, rfl, _⟩ | ⟨_, _, rfl, rfl⟩ <;> cases ok
    simp
  have framed : Sound base asks { s with shared := (b.construct s.shared).shared, instances } :=
    sound.frame rfl (fun _ _ cached => cached) grown
  have later : s.Later { s with shared := (b.construct s.shared).shared, instances } :=
    ⟨fun c x found => ⟨x, found, rfl, fun _ => rfl⟩, grown⟩
  refine ⟨later, sound.update here framed.orderly later
    ⟨sound.fits p _ here, fun k ok => (inside k ok).2⟩ (fun _ _ _ => rfl) (.inl ⟨rfl, rfl⟩) ?_⟩
  match r with
  | .error f => exact .inl rfl
  | .ok none => exact .inl rfl
  | .ok (some k) => exact .inr (congrArg some (inside k rfl).1)

theorem move (sound : Sound base asks s) {p : Nat} {a : Ask} (here : asks[p]? = some a) {d : Deed K}
    {spot : Spot} (moves : Ask.Moves catalog a.identity s d a.spot spot s') :
    s.Later s' ∧ Sound base (asks.set p ⟨a.identity, spot⟩) s' := by
  obtain ⟨identity, spot'⟩ := a
  have stays {t : Session K} (contexts : t.contexts = s.contexts)
      (instances : t.instances = s.instances) : s.Later t :=
    ⟨fun c x found => ⟨x, contexts ▸ found, rfl, fun _ => rfl⟩, instances ▸ Nat.le_refl _⟩
  cases moves with
  | writes _ r thread =>
      rw [set_of_getElem? here]
      exact ⟨stays rfl rfl, sound.frame rfl (fun _ _ cached => cached) (Nat.le_refl _)⟩
  | opens unasked => exact sound.enter here _
  | joins pending cached =>
      exact ⟨.refl s, sound.update here sound.orderly (.refl s)
        (sound.orderly.cached identity _ cached) (fun _ _ _ => rfl) (.inl ⟨rfl, rfl⟩) (.inl rfl)⟩
  | calls c registered made => exact sound.construct here made
  | publishes c r => exact sound.publish here
  | reads pending found published =>
      obtain ⟨x, found', same⟩ := sound.fits p _ here
      obtain rfl := Option.some.inj (found.symm.trans found')
      exact ⟨.refl s, sound.update here sound.orderly (.refl s) ⟨_, found, same, published⟩
        (fun _ _ _ => rfl) (.inl ⟨rfl, rfl⟩) (.inl rfl)⟩

/-- Behind everything published stands a builder, and it published what its constructor answered. -/
theorem builder (sound : Sound base asks s) {c : Nat} {y : Context Nat} {o : Except Fault Nat}
    (above : base ≤ c) (found : s.contexts[c]? = some y) (published : y.outcome? = some o) :
    ∃ (p : Nat) (a : Ask) (r : Except Fault (Option Nat)), asks[p]? = some a ∧
      a.spot = .built c r ∧ y.identity = a.identity ∧ o = reading a.identity r := by
  obtain ⟨p, ⟨identity, spot⟩, here, opened⟩ :=
    sound.opened c above (List.getElem?_eq_some_iff.mp found).1
  have fits := sound.fits p _ here
  have unpublished (pending : s.contexts[c]? = some { identity }) : False := by
    obtain rfl := Option.some.inj (pending.symm.trans found)
    cases published
  cases spot <;> cases opened
  case entered => exact (unpublished fits).elim
  case called => exact (unpublished fits.1).elim
  case built r =>
    obtain rfl := Option.some.inj (fits.1.symm.trans found)
    rw [outcome?_publication] at published
    exact ⟨p, _, r, here, rfl, by simp, (Option.some.inj published).symm⟩

end Ask.Sound

end Concord
