import UnitSale.Sale.Snapshot
import UnitSale.Script.Evaluate
import UnitSale.Script.Validate

/-!
# Opcodes of a sale

What a sale's script can ask beyond the standard opcodes: storage slots, the supply, and how much an
account has minted and burned.
-/

namespace UnitSale
namespace Sale

open Script

/-- Pushes the counter in the slot that the operand names. -/
def pushStorage : Handler Snapshot := fun inputs operand => do
  let slot ← demand (Slot.ofOperand? operand) .unknownStorageSlot
  push (Word.ofAmount (inputs.host.read slot))

/-- Pushes the counter in a slot. -/
def pushSlot (slot : Slot) : Handler Snapshot := fun inputs _ =>
  push (Word.ofAmount (inputs.host.read slot))

/-- Replaces an account by one of its counters. -/
def pushCounter (counter : HolderCounters → UInt64) : Handler Snapshot := fun inputs _ => do
  let account ← pop
  let counters ← Script.read (inputs.host.counters account)
  push (Word.ofAmount (counter counters))

/-- The opcodes a sale adds. -/
def opcodes : List (Opcode Snapshot) :=
  [⟨"storage", .slot Slot.count, .fixed 0 1, pushStorage⟩,
   plainOpcode "total_supply" 0 (pushSlot .totalSupply),
   plainOpcode "total_minted" 0 (pushSlot .totalMinted),
   plainOpcode "number_minted" 1 (pushCounter HolderCounters.minted),
   plainOpcode "number_burned" 1 (pushCounter HolderCounters.burned)]

/-- The table that scripts of sales are validated against and run with. -/
def table : Table Snapshot := ⟨standardOpcodes, opcodes⟩

/-- Words of context a sale's script gets: the account and the units asked for. -/
def contextLength : Nat := 2

/-- The context of a call for an account that asks for units. -/
def context (account : Address) (units : UInt64) : List Word := [account.word, Word.ofAmount units]

end Sale
end UnitSale
