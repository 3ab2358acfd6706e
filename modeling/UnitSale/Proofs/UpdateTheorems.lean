import UnitSale.Update
import Mathlib.Tactic.Common

/-!
# When steps go through

A sequence of steps goes through exactly when each of its steps does. The lemmas here say so for
the steps that instructions and updates are made of, so that what a successful call has checked and
written can be read off its text.
-/

namespace UnitSale

section Outcome

variable {ε ε' α β : Type}

/-- A sequence goes through exactly when both of its parts do. -/
@[simp] theorem bind_eq_ok {first : Except ε α} {next : α → Except ε β} {b : β} :
    (first >>= next) = .ok b ↔ ∃ a, first = .ok a ∧ next a = .ok b := by
  cases first with
  | error cause => simp [bind, Except.bind]
  | ok a => simp [bind, Except.bind]

/-- A sequence is refused exactly when one of its parts is, and with the cause of that part. -/
theorem bind_eq_error {first : Except ε α} {next : α → Except ε β} {e : ε} :
    (first >>= next) = .error e ↔ first = .error e ∨ ∃ a, first = .ok a ∧ next a = .error e := by
  cases first with
  | error cause => simp [bind, Except.bind]
  | ok a => simp [bind, Except.bind]

@[simp] theorem ok_bind (a : α) (f : α → Except ε β) : (Except.ok a >>= f) = f a := rfl

@[simp] theorem pure_eq_ok {a b : α} : (pure a : Except ε α) = .ok b ↔ a = b := by
  simp [pure, Except.pure]

@[simp] theorem map_eq_ok {x : Except ε α} {f : α → β} {b : β} :
    f <$> x = .ok b ↔ ∃ a, x = .ok a ∧ f a = b := by
  cases x with
  | error e => simp [Functor.map, Except.map]
  | ok a => simp [Functor.map, Except.map]

@[simp] theorem throw_ne_ok {e : ε} {a : α} : ¬ (throw e : Except ε α) = .ok a := by
  simp [throw, throwThe, MonadExceptOf.throw]

@[simp] theorem require_eq_ok {p : Prop} [Decidable p] {e : ε} {u : Unit} :
    (require p e : Except ε Unit) = .ok u ↔ p := by
  by_cases hp : p
  · simp [require, hp, pure, Except.pure]
  · simp [require, hp, throw, throwThe, MonadExceptOf.throw]

/-- A requirement is refused exactly when its condition fails, and with its own cause. -/
theorem require_eq_error {p : Prop} [Decidable p] {e cause : ε} :
    (require p e : Except ε Unit) = .error cause ↔ ¬ p ∧ e = cause := by
  by_cases hp : p
  · simp [require, hp, pure, Except.pure]
  · simp [require, hp, throw, throwThe, MonadExceptOf.throw]

theorem require_of {p : Prop} [Decidable p] (e : ε) (hp : p) :
    (require p e : Except ε Unit) = .ok () := require_eq_ok.mpr hp

@[simp] theorem demand_eq_ok {o : Option α} {e : ε} {a : α} :
    (demand o e : Except ε α) = .ok a ↔ o = some a := by
  cases o with
  | none => simp [demand, throw, throwThe, MonadExceptOf.throw]
  | some b => simp [demand, pure, Except.pure]

theorem demand_eq_error {o : Option α} {e cause : ε} :
    (demand o e : Except ε α) = .error cause ↔ o = none ∧ e = cause := by
  cases o with
  | none => simp [demand, throw, throwThe, MonadExceptOf.throw]
  | some b => simp [demand, pure, Except.pure]

@[simp] theorem mapError_eq_ok {x : Except ε α} {f : ε → ε'} {a : α} :
    x.mapError f = .ok a ↔ x = .ok a := by
  cases x <;> simp [Except.mapError]

end Outcome

/-! ## Updates, all or nothing -/

namespace Update

variable {σ τ α β : Type}

@[simp] theorem attempt_get (s : σ) : (get : Update σ σ).attempt s = .ok (s, s) := rfl

@[simp] theorem attempt_set (s t : σ) : (set t : Update σ PUnit).attempt s = .ok (⟨⟩, t) := rfl

@[simp] theorem attempt_modify (f : σ → σ) (s : σ) :
    (modify f : Update σ PUnit).attempt s = .ok (⟨⟩, f s) := rfl

@[simp] theorem attempt_pure (a : α) (s : σ) : (pure a : Update σ α).attempt s = .ok (a, s) := rfl

/-- An update that fails leaves nothing behind. -/
@[simp] theorem attempt_throw (e : SaleError) (s : σ) :
    (throw e : Update σ α).attempt s = .error e := rfl

/-- Updates in sequence hand on the value and the record. -/
@[simp] theorem attempt_bind (u : Update σ α) (f : α → Update σ β) (s : σ) :
    (u >>= f).attempt s = u.attempt s >>= fun p => (f p.1).attempt p.2 := by
  have hrun : (u >>= f) s = EStateM.bind u f s := rfl
  simp only [attempt, EStateM.run, hrun, EStateM.bind]
  cases u s <;> rfl

@[simp] theorem attempt_require (p : Prop) [Decidable p] (e : SaleError) (s : σ) :
    (require p e : Update σ Unit).attempt s = (require p e >>= fun u => pure (u, s)) := by
  by_cases hp : p
  · simp only [require, hp, if_true]
    rfl
  · simp only [require, hp, if_false]
    rfl

@[simp] theorem attempt_demand (o : Option α) (e : SaleError) (s : σ) :
    (demand o e : Update σ α).attempt s = (demand o e >>= fun a => pure (a, s)) := by
  cases o <;> rfl

/-- An update of a part is the update of that part, written back. -/
@[simp] theorem attempt_within (read : τ → σ) (write : σ → τ → τ) (u : Update σ α) (t : τ) :
    (u.within read write).attempt t
      = u.attempt (read t) >>= fun p => pure (p.1, write p.2 t) := by
  simp only [attempt, within, EStateM.run]
  cases u (read t) <;> rfl

end Update
end UnitSale
