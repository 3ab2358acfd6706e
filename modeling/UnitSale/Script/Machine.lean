import UnitSale.Script.Basic
import UnitSale.Update

/-!
# The stack machine

A run has a stack of at most 64 words and three things it can only read: the constants, the context
of the call and the host. The head of the list is the top of the stack. A step that fails leaves the
stack as it was when it failed, so words it had already taken are gone.
-/

namespace UnitSale
namespace Script

/-- What a run can read. -/
structure Inputs (H : Type) where
  constants : List Word
  context : List Word
  host : H

/-- The stack, top first. -/
abbrev Stack := List Word

/-- A piece of a run. -/
abbrev Exec := EStateM ScriptError Stack

/-- What an operation does, given what it can read and its operand. -/
abbrev Handler (H : Type) := Inputs H → UInt16 → Exec Unit

/-- Puts a word on top, unless the stack is full. -/
def push (value : Word) : Exec Unit := fun s =>
  if s.length < maxStackDepth then .ok () (value :: s) else .error .stackOverflow s

/-- Takes the top word. -/
def pop : Exec Word := fun s =>
  match s with
  | [] => .error .stackUnderflow []
  | top :: below => .ok top below

/-- Takes the top `n` words, in the order they were pushed. -/
def popMany (n : Nat) : Exec (List Word) := fun s =>
  if n = 0 then .error .invalidOperand s
  else if s.length < n then .error .stackUnderflow s
  else .ok (s.take n).reverse (s.drop n)

/-- What follows the popping of words goes on with them, unless none or too many were asked for. -/
theorem popMany_bind {α : Type} (n : Nat) (f : List Word → Exec α) (s : Stack) :
    (popMany n >>= f) s =
      if n = 0 then .error .invalidOperand s
      else if s.length < n then .error .stackUnderflow s
      else f (s.take n).reverse (s.drop n) := by
  show EStateM.bind (popMany n) f s = _
  rw [EStateM.bind, popMany]
  by_cases hn : n = 0
  · rw [if_pos hn, if_pos hn]
  · rw [if_neg hn, if_neg hn]
    by_cases hs : s.length < n
    · rw [if_pos hs, if_pos hs]
    · rw [if_neg hs, if_neg hs]

theorem popMany_bind_of_le {α : Type} {n : Nat} (f : List Word → Exec α) {s : Stack} (hn : n ≠ 0)
    (hs : n ≤ s.length) : (popMany n >>= f) s = f (s.take n).reverse (s.drop n) := by
  rw [popMany_bind, if_neg hn, if_neg (Nat.not_lt.mpr hs)]

/-- A piece that pops words and goes on has found as many as it asks for. -/
theorem popMany_bind_eq_ok {α : Type} {n : Nat} {f : List Word → Exec α} {s s' : Stack} {a : α} :
    (popMany n >>= f) s = .ok a s' ↔
      n ≠ 0 ∧ n ≤ s.length ∧ f (s.take n).reverse (s.drop n) = .ok a s' := by
  constructor
  · intro h
    rw [popMany_bind] at h
    split at h
    · cases h
    · rename_i hn
      split at h
      · cases h
      · rename_i hs
        exact ⟨hn, Nat.le_of_not_lt hs, h⟩
  · intro h
    obtain ⟨hn, hs, hrest⟩ := h
    rw [popMany_bind_of_le f hn hs]
    exact hrest

namespace Inputs

variable {H : Type}

/-- The pooled constant of an index. -/
def constant (inputs : Inputs H) (index : UInt16) : Except ScriptError Word :=
  demand inputs.constants[index.toNat]? .constantOutOfBounds

/-- The word of the context at an index. -/
def contextWord (inputs : Inputs H) (index : UInt16) : Except ScriptError Word :=
  demand inputs.context[index.toNat]? .contextOutOfBounds

end Inputs

/-- The cause or the value of a computation that does not touch the stack. -/
def read {α : Type} (result : Except ScriptError α) : Exec α :=
  match result with
  | .ok a => pure a
  | .error e => throw e

end Script
end UnitSale
