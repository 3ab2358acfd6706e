import UnitSale.Keccak
import UnitSale.Script.Opcode

/-!
# Dispatch tables

The opcodes a script can use: the standard ones, then those of the host. An id is a position in that
order. A table has no two opcodes of one name, and its fingerprint pins names, operand kinds and
arities in order.
-/

namespace UnitSale
namespace Script

/-- Standard opcodes followed by those of the host. -/
structure Table (H : Type) where
  standard : List (Opcode H)
  host : List (Opcode H)

/-- No word of a list equals the next one. -/
def noEqualNeighbours : List String → Bool
  | a :: b :: rest => a != b && noEqualNeighbours (b :: rest)
  | _ => true

/-- No name appears twice: in sorted order no two neighbours are equal. -/
def distinctNames (names : List String) : Bool :=
  noEqualNeighbours (names.mergeSort fun a b => decide (a ≤ b))

namespace Table

variable {H : Type}

/-- Most opcodes a table may have. -/
def maxOpcodes : Nat := 65535

/-- All opcodes in id order. -/
def entries (t : Table H) : List (Opcode H) := t.standard ++ t.host

/-- Number of opcodes. -/
def size (t : Table H) : Nat := t.entries.length

/-- A table of the given opcodes, if there are not too many and all names differ. -/
def build (standard host : List (Opcode H)) : Except ScriptError (Table H) := do
  let table : Table H := ⟨standard, host⟩
  require (table.size ≤ maxOpcodes) ScriptError.tooManyOpcodes
  require (distinctNames (table.entries.map Opcode.name) = true) ScriptError.duplicateOpcode
  return table

/-- The opcode of an id: the first ids are those of the standard opcodes, and the host's follow. -/
def resolve (t : Table H) (id : UInt16) : Option (Opcode H) :=
  if id.toNat < t.standard.length then t.standard[id.toNat]?
  else t.host[id.toNat - t.standard.length]?

/-- The id of a name. -/
def idOf (t : Table H) (name : String) : Option UInt16 :=
  (t.entries.findIdx? fun entry => entry.name == name).map UInt16.ofNat

/-- All descriptors in id order. -/
def descriptors (t : Table H) : List UInt8 := t.entries.flatMap Opcode.descriptor

/-- Digest of all descriptors. -/
def fingerprint (t : Table H) : Bytes32 := keccak256 t.descriptors

/-- An id is a position in id order. -/
theorem resolve_eq (t : Table H) (id : UInt16) : t.resolve id = t.entries[id.toNat]? := by
  rw [resolve, entries, List.getElem?_append]

theorem mem_of_resolve {t : Table H} {id : UInt16} {entry : Opcode H}
    (h : t.resolve id = some entry) : entry ∈ t.entries := by
  rw [resolve_eq] at h
  exact List.mem_of_getElem? h

end Table
end Script
end UnitSale
