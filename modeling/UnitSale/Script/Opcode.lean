import UnitSale.Script.Machine

/-!
# Opcodes

An opcode has a name, a kind of operand, an arity and a handler. The first three are what a script
is checked against, and they alone make the descriptor that the fingerprint of a table is taken
over.
-/

namespace UnitSale
namespace Script

/-- What the operand of an opcode means. -/
inductive OperandKind
  /-- It has to be zero. -/
  | none
  /-- The number of words taken, at least one. -/
  | count
  /-- An index into the constants. -/
  | constant
  /-- An index into the context. -/
  | context
  /-- A storage slot of the host below the bound. -/
  | slot (bound : UInt16)
  deriving DecidableEq, Repr

/-- How many words an opcode takes and leaves. -/
inductive Arity
  | fixed (inputs outputs : UInt8)
  /-- It takes as many as the operand says and leaves one. -/
  | counted
  deriving DecidableEq, Repr

/-- One entry of a dispatch table. -/
structure Opcode (H : Type) where
  name : String
  operand : OperandKind
  arity : Arity
  run : Handler H

namespace OperandKind

/-- Three bytes that tell the kinds of operand apart. -/
def tag : OperandKind → List UInt8
  | none => [0, 0, 0]
  | count => [1, 0, 0]
  | constant => [2, 0, 0]
  | context => [3, 0, 0]
  | slot bound => 4 :: bigEndian 2 bound.toNat

end OperandKind

namespace Arity

/-- Two bytes for an arity. -/
def code : Arity → List UInt8
  | fixed inputs outputs => [inputs, outputs]
  | counted => [255, 1]

/-- Words taken and left for an operand. -/
def effect (arity : Arity) (operand : UInt16) : Nat × Nat :=
  match arity with
  | fixed inputs outputs => (inputs.toNat, outputs.toNat)
  | counted => (operand.toNat, 1)

end Arity

namespace Opcode

variable {H : Type}

/-- Words taken and left for an operand. -/
def effect (o : Opcode H) (operand : UInt16) : Nat × Nat := o.arity.effect operand

/-- Name, a zero byte, operand kind and arity. -/
def descriptor (o : Opcode H) : List UInt8 :=
  o.name.toUTF8.data.toList ++ 0 :: (o.operand.tag ++ o.arity.code)

end Opcode
end Script
end UnitSale
