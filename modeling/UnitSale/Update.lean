import UnitSale.Error

/-!
# Updates that can fail part way

An update of a record runs until its first failure; what it wrote before stays written. Callers that
want all or nothing keep the record they started from.
-/

namespace UnitSale

/-- An update of a record of type `σ` under the sale's rules. -/
abbrev Update (σ : Type) := EStateM SaleError σ

/-- Goes on if the condition holds and fails with the cause otherwise. -/
def require {ε : Type} {m : Type → Type} [Monad m] [MonadExcept ε m] (condition : Prop)
    [Decidable condition] (cause : ε) : m Unit :=
  if condition then pure () else throw cause

/-- The value if there is one; fails with the cause otherwise. -/
def demand {ε α : Type} {m : Type → Type} [Monad m] [MonadExcept ε m] (value : Option α)
    (cause : ε) : m α :=
  match value with
  | some a => pure a
  | none => throw cause

namespace Update

variable {σ τ α : Type}

/-- Runs an update on one part of a larger record. -/
def within (read : τ → σ) (write : σ → τ → τ) (u : Update σ α) : Update τ α := fun t =>
  match u.run (read t) with
  | .ok a s => .ok a (write s t)
  | .error e s => .error e (write s t)

/-- All or nothing: the value and the new record, or the cause. -/
def attempt (u : Update σ α) (s : σ) : Except SaleError (α × σ) :=
  match u.run s with
  | .ok a s' => .ok (a, s')
  | .error e _ => .error e

end Update
end UnitSale
