import UnitSale.Sale.Basic
import UnitSale.Sale.Ledger
import UnitSale.Script.Standard

/-!
# Snapshots

What a script can see of a sale: its counters by storage slot, the time, and the counters of the one
holder the snapshot was taken for. Times before zero read as zero.
-/

namespace UnitSale

/-- The counters of a holder. -/
structure HolderCounters where
  holder : Address
  minted : UInt64
  burned : UInt64
  deriving DecidableEq, Repr

/-- Counters that can be read by slot. -/
inductive Slot
  | supplyLimit
  | totalMinted
  | totalSupply
  | amountPaid
  | amountWithdrawn
  | amountPayable
  deriving DecidableEq, Repr

namespace Slot

/-- Number of slots. -/
def count : UInt16 := 6

/-- The slot that an operand names. -/
def ofOperand? (operand : UInt16) : Option Slot :=
  [supplyLimit, totalMinted, totalSupply, amountPaid, amountWithdrawn,
    amountPayable][operand.toNat]?

end Slot

/-- A sale's counters, a time and possibly a holder's counters. -/
structure Snapshot where
  supplyLimit : UInt64
  totalMinted : UInt64
  totalBurned : UInt64
  amountPaid : UInt64
  amountWithdrawn : UInt64
  timestamp : Int64
  holder : Option HolderCounters
  deriving DecidableEq, Repr

namespace Snapshot

/-- The counters of a ledger; an account without one has minted and burned nothing. -/
def countersOf (account : Address) : Option Ledger → HolderCounters
  | some l => ⟨l.holder, l.minted, l.burned⟩
  | none => ⟨account, 0, 0⟩

/-- The snapshot for a quote on behalf of an account with the given ledger. -/
def ofSale (s : Sale) (account : Address) (ledger : Option Ledger) (now : Int64) : Snapshot where
  supplyLimit := s.terms.supplyLimit
  totalMinted := s.totalMinted
  totalBurned := s.totalBurned
  amountPaid := s.amountPaid
  amountWithdrawn := s.amountWithdrawn
  timestamp := now
  holder := some (countersOf account ledger)

/-- The counter in a slot. -/
def read (v : Snapshot) : Slot → UInt64
  | .supplyLimit => v.supplyLimit
  | .totalMinted => v.totalMinted
  | .totalSupply => Checked.monus v.totalMinted v.totalBurned
  | .amountPaid => v.amountPaid
  | .amountWithdrawn => v.amountWithdrawn
  | .amountPayable => Checked.monus v.amountPaid v.amountWithdrawn

/-- The counters of the account that a word denotes, if they are the ones at hand. -/
def counters (v : Snapshot) (account : Word) : Except ScriptError HolderCounters :=
  match v.holder with
  | some c => if c.holder.word = account then .ok c else .error .unknownAccount
  | none => .error .unknownAccount

/-- The time, or zero if it is negative. -/
def blockTime (v : Snapshot) : UInt64 := UInt64.ofNat v.timestamp.toInt.toNat

instance : Script.Clock Snapshot where
  timestamp := blockTime

end Snapshot
end UnitSale
