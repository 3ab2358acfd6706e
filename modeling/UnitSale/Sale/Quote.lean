import UnitSale.Sale.Opcodes

/-!
# Quotes and what they settle for

From the words a script leaves to the units sold and the money asked. A purchase takes what it can
get above a minimum; a reservation is all or nothing.
-/

namespace UnitSale

/-- A quote in 64-bit amounts. -/
structure SaleQuote where
  maxUnits : UInt64
  price : UInt64
  deriving DecidableEq, Repr

/-- What a buyer asks for: units, the fewest that will do, and the highest unit price. -/
structure MintRequest where
  desiredUnits : UInt64
  minimumUnits : UInt64
  maximumPrice : UInt64
  deriving DecidableEq, Repr

/-- A quote of words in amounts: the unit limit stops at the largest amount, the price has to fit.
-/
def SaleQuote.ofWords (q : Script.Quote) : Except SaleError SaleQuote := do
  let price ← demand q.price.toAmount? SaleError.priceOverflow
  return ⟨q.maxUnits.toAmount?.getD Checked.maxAmount, price⟩

namespace Sale

/-- The source that quotes are taken from. -/
def quoteSource : Nat := 0

/-- Evaluates the sale's script, which has to be pinned to the given table. -/
def wordQuote (s : Sale) (t : Script.Table Snapshot) (v : Snapshot) (account : Address)
    (units : UInt64) : Except ScriptError Script.Quote := do
  require (t.fingerprint = s.terms.fingerprint) ScriptError.dispatchTableMismatch
  Script.evaluate t s.terms.script quoteSource (context account units) v

/-- The quote for an account with the given ledger that asks for units at a time. -/
def quoteFor (s : Sale) (account : Address) (ledger : Option Ledger) (units : UInt64)
    (now : Int64) : Except Fault SaleQuote := do
  let q ← (s.wordQuote table (.ofSale s account ledger now) account units).mapError Fault.script
  (SaleQuote.ofWords q).mapError Fault.sale

end Sale

/-- Units a purchase settles for. The price is looked at before the quantity. -/
def MintRequest.settle (request : MintRequest) (quote : SaleQuote) (available remaining : UInt64) :
    Except SaleError UInt64 := do
  require (quote.price ≤ request.maximumPrice) SaleError.priceAboveMaximum
  let units := Checked.least (Checked.least (Checked.least request.desiredUnits quote.maxUnits)
    available) remaining
  require (request.minimumUnits ≤ units) SaleError.belowMinimumUnits
  require (0 < units) SaleError.noUnitsAvailable
  return units

/-- What a reservation of exactly `units` costs. -/
def SaleQuote.reservationCost (quote : SaleQuote) (units maximumPrice : UInt64) :
    Except SaleError UInt64 := do
  require (quote.price ≤ maximumPrice) SaleError.priceAboveMaximum
  require (units ≤ quote.maxUnits) SaleError.maxLimit
  demand (Checked.mul units quote.price) SaleError.overflow

end UnitSale
