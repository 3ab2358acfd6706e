import UnitSale.Script.Table

/-!
# Validation

Checks made once, before a script is stored. They follow the depth of the stack through every source
without running it, so a script that passes can later fail only on its data: an overflow, a zero
divisor or an account whose counters are not at hand.
-/

namespace UnitSale
namespace Script

/-- Whether an operand is allowed for its kind. -/
def checkOperand (kind : OperandKind) (operand : UInt16) (constants context : Nat) :
    Except ScriptError Unit :=
  match kind with
  | .none => require (operand = 0) .invalidOperand
  | .count => require (1 ≤ operand) .invalidOperand
  | .constant => require (operand.toNat < constants) .constantOutOfBounds
  | .context => require (operand.toNat < context) .contextOutOfBounds
  | .slot bound => require (operand < bound) .unknownStorageSlot

variable {H : Type}

/-- The depth of the stack after an operation, given the depth before it. -/
def Table.depthAfter (t : Table H) (constants context : Nat) (op : Op) (depth : Nat) :
    Except ScriptError Nat := do
  let entry ← demand (t.resolve op.opcode) .unknownOpcode
  checkOperand entry.operand op.operand constants context
  let (inputs, outputs) := entry.effect op.operand
  require (inputs ≤ depth) ScriptError.stackUnderflow
  let after := depth - inputs + outputs
  require (after ≤ maxStackDepth) ScriptError.stackOverflow
  return after

/-- Follows the depth through operations: the last depth, and the deepest one or `deepest`. -/
def Table.depths (t : Table H) (constants context : Nat) :
    List Op → (depth deepest : Nat) → Except ScriptError (Nat × Nat)
  | [], depth, deepest => .ok (depth, deepest)
  | op :: rest, depth, deepest => do
    let after ← t.depthAfter constants context op depth
    t.depths constants context rest after (max deepest after)

/-- Checks the sources in order: the deepest the stack gets in any of them, or `deepest`. -/
def Table.checkSources (t : Table H) (constants context : Nat) :
    List (List Op) → (deepest : Nat) → Except ScriptError Nat
  | [], deepest => .ok deepest
  | source :: rest, deepest => do
    require (source.length ≤ maxSourceLength) ScriptError.sourceTooLong
    let (depth, deepest) ← t.depths constants context source 0 deepest
    require (resultCount ≤ depth) ScriptError.missingResults
    t.checkSources constants context rest deepest

/-- Checks a script for a context of the given length: the deepest its stack can get. -/
def validate (t : Table H) (script : Script) (contextLength : Nat) : Except ScriptError UInt16 := do
  require (script.sources ≠ []) ScriptError.emptyScript
  require (script.sources.length ≤ maxSources) ScriptError.tooManySources
  require (script.constants.length ≤ maxConstants) ScriptError.tooManyConstants
  let deepest ← t.checkSources script.constants.length contextLength script.sources 0
  return UInt16.ofNat deepest

end Script
end UnitSale
