/-!
Procedures: finite trees of atomic actions. A worker that follows a procedure performs one action
after the other; between two actions other workers may act. What an action does is given apart from
the procedure, so one procedure can be run alone or interleaved with others.
-/

namespace Concord

/-- A procedure over actions `A` with answers `R`. -/
inductive Procedure (A : Type) (R : A → Type) (α : Type)
  | done (value : α)
  | act (action : A) (next : R action → Procedure A R α)

namespace Procedure

variable {A : Type} {R : A → Type} {α β ε σ : Type}

def perform (a : A) : Procedure A R (R a) := .act a .done

def bind : Procedure A R α → (α → Procedure A R β) → Procedure A R β
  | .done v, f => f v
  | .act a next, f => .act a fun r => bind (next r) f

instance : Monad (Procedure A R) where
  pure := .done
  bind := .bind

/-- Goes on unless the first procedure ended in a fault. -/
def andThen (p : Procedure A R (Except ε α)) (f : α → Procedure A R (Except ε β)) :
    Procedure A R (Except ε β) :=
  p.bind fun r =>
    match r with
    | .ok v => f v
    | .error e => .done (.error e)

/-- Follows a procedure up to its end, or up to the first action that cannot be performed yet. -/
def advance (perform : (a : A) → σ → Option (R a × σ)) :
    Procedure A R α → σ → Procedure A R α × σ
  | .done v, s => (.done v, s)
  | .act a next, s =>
      match perform a s with
      | none => (.act a next, s)
      | some (r, s') => advance perform (next r) s'

def value? : Procedure A R α → Option α
  | .done v => some v
  | .act _ _ => none

/-! ### Laws -/

@[simp] theorem bind_done (v : α) (f : α → Procedure A R β) : (done v).bind f = f v := rfl

/-- To follow two procedures is to follow the first as far as it goes, and then the rest of both. -/
theorem advance_bind (perform : (a : A) → σ → Option (R a × σ)) (p : Procedure A R α)
    (f : α → Procedure A R β) (s : σ) :
    (p.bind f).advance perform s =
      ((p.advance perform s).1.bind f).advance perform (p.advance perform s).2 := by
  induction p generalizing s with
  | done v => rfl
  | act a next ih =>
      cases h : perform a s with
      | none => simp [bind, advance, h]
      | some r => simpa [bind, advance, h] using ih r.1 r.2

end Procedure

end Concord
