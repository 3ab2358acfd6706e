import UnitSale.Script.Table

/-!
# Building scripts by name

Opcodes are written by name and looked up in a table, so a script always fits the table it was built
with. Equal constants share a place in the pool. The first failure is kept; later calls still go on
building, and the failure is what the builder returns in the end.
-/

namespace UnitSale
namespace Script

/-- One call to the builder. -/
inductive Call
  | op (name : String) (operand : UInt16)
  | constant (value : Word)
  | context (index : UInt16)
  | nextSource
  deriving DecidableEq, Repr

/-- A script being built: the finished sources, the one being written, the pool, the first failure.
-/
structure Builder where
  finished : List (List Op)
  current : List Op
  constants : List Word
  failure : Option ScriptError
  deriving DecidableEq, Repr

namespace Builder

/-- Nothing written yet. -/
def start : Builder := ⟨[], [], [], none⟩

/-- Keeps the first failure. -/
def fail (b : Builder) (cause : ScriptError) : Builder :=
  { b with failure := b.failure.or (some cause) }

/-- Appends an opcode by name to the source being written. -/
def op {H : Type} (t : Table H) (b : Builder) (name : String) (operand : UInt16) : Builder :=
  match t.idOf name with
  | some id => { b with current := b.current ++ [⟨id, operand⟩] }
  | none => b.fail .unknownOpcode

/-- The place of a word in the pool, which takes it in if it is new. -/
def intern (b : Builder) (value : Word) : Builder × Nat :=
  match b.constants.findIdx? (· == value) with
  | some index => (b, index)
  | none => ({ b with constants := b.constants ++ [value] }, b.constants.length)

/-- Appends the opcode that pushes a word from the pool. -/
def constant {H : Type} (t : Table H) (b : Builder) (value : Word) : Builder :=
  let (b, index) := b.intern value
  if index < UInt16.size then b.op t "constant" (UInt16.ofNat index) else b.fail .tooManyConstants

/-- Ends the source being written and starts the next. -/
def nextSource (b : Builder) : Builder :=
  if maxSources ≤ b.finished.length + 1 then b.fail .tooManySources
  else { b with finished := b.finished ++ [b.current], current := [] }

/-- The effect of one call. -/
def apply {H : Type} (t : Table H) (b : Builder) : Call → Builder
  | .op name operand => b.op t name operand
  | .constant value => b.constant t value
  | .context index => b.op t "context" index
  | .nextSource => b.nextSource

/-- The script written so far, or the first failure. -/
def build (b : Builder) : Except ScriptError Script :=
  match b.failure with
  | some cause => .error cause
  | none => .ok ⟨b.finished ++ [b.current], b.constants⟩

end Builder

/-- The script that calls build against a table. -/
def ofCalls {H : Type} (t : Table H) (calls : List Call) : Except ScriptError Script :=
  (calls.foldl (Builder.apply t) Builder.start).build

end Script
end UnitSale
