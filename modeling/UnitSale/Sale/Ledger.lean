import UnitSale.Address
import UnitSale.Checked
import UnitSale.Update

/-!
# Holder ledgers

What one holder has minted and burned in one sale. A ledger is bound to its sale and holder the
first time it is used and stays bound.
-/

namespace UnitSale

/-- The counters of one holder in one sale. -/
structure Ledger where
  sale : Address
  holder : Address
  minted : UInt64
  burned : UInt64
  bump : UInt8
  deriving DecidableEq, Repr

namespace Ledger

/-- A ledger that belongs to nobody yet. -/
def blank : Ledger := ⟨.zero, .zero, 0, 0, 0⟩

/-- Bytes a ledger takes, its discriminator included. -/
def space : Nat := 8 + 32 + 32 + 8 + 8 + 1

/-- Units held: minted and not burned. -/
def balance (l : Ledger) : UInt64 := Checked.monus l.minted l.burned

/-- Binds a fresh ledger; one that names a sale stays as it is. -/
def bind (l : Ledger) (sale holder : Address) (bump : UInt8) : Ledger :=
  if l.sale = .zero then { l with sale := sale, holder := holder, bump := bump } else l

/-- Counts minted units. -/
def recordMint (units : UInt64) : Update Ledger Unit := do
  let l ← get
  set { l with minted := ← demand (Checked.add l.minted units) SaleError.overflow }

/-- Counts burned units, at least one and at most the balance. -/
def recordBurn (units : UInt64) : Update Ledger Unit := do
  let l ← get
  require (0 < units) SaleError.zeroUnits
  require (units ≤ l.balance) SaleError.insufficientBalance
  set { l with burned := ← demand (Checked.add l.burned units) SaleError.overflow }

end Ledger
end UnitSale
