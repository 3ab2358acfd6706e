import UnitSale.Word

/-!
# Scripts

A script is a pool of constants and up to four sources. Each source is a sequence of operations; run
on its own, it leaves a quote on the stack.
-/

namespace UnitSale

/-- One operation: an opcode of the table in use and its operand. -/
structure Op where
  opcode : UInt16
  operand : UInt16
  deriving DecidableEq, Repr

/-- Sources of operations over one pool of constants. -/
structure Script where
  sources : List (List Op)
  constants : List Word
  deriving DecidableEq, Repr

namespace Script

/-- The script without sources and constants. -/
def empty : Script := ⟨[], []⟩

/-- Most sources a stored script may have. -/
def maxSources : Nat := 4

/-- Most operations a stored source may have. -/
def maxSourceLength : Nat := 128

/-- Most constants a stored script may have. -/
def maxConstants : Nat := 32

/-- Deepest the stack may grow. -/
def maxStackDepth : Nat := 64

/-- Words a source has to leave: the unit limit and the price. -/
def resultCount : Nat := 2

/-- Bytes a script takes when it is written out. -/
def space (s : Script) : Nat :=
  4 + s.sources.foldr (fun source total => 4 + 4 * source.length + total) 0 + 4
    + 32 * s.constants.length

end Script
end UnitSale
