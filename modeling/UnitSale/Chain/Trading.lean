import UnitSale.Chain.Payment

/-!
# Quotes, purchases and burns

Units are quoted by the sale's script for one account, bought for it by its own key or by the minter
the sale has delegated to, and burned by the holder.
-/

namespace UnitSale
namespace State

/-- The quote for an account, with the ledger the caller brings. -/
def calculate (st : State) (sale : Address) (ledger : Option Address) (account : Address)
    (units : UInt64) : Except Fault Receipt := do
  let record ← load st.sales sale
  let held ← ledger.mapM (load st.ledgers)
  match ledger with
  | some l => checkSeeds l (.ledger sale account)
  | none => pure ()
  let quote ← record.quoteFor account held units st.now
  return ⟨st, .quote quote, [], []⟩

/-- The state with a ledger at an address, which is created if it is not there. -/
def withLedger (st : State) (payer address : Address) : Except Fault (State × Ledger) :=
  match st.ledgers.find? address with
  | some ledger => .ok (st, ledger)
  | none => do
    let st ← st.create payer address false Ledger.space
    return (st.setLedger address .blank, .blank)

/-- Who may buy for a recipient. -/
inductive Buyer
  /-- The recipient alone. -/
  | recipient
  /-- The minter that the sale has delegated to. -/
  | delegate

/-- Whether a payer may buy for a recipient. -/
def Buyer.check (who : Buyer) (sale : Sale) (recipient payer : Address) : Except Fault Unit :=
  match who with
  | .recipient => require (recipient = payer) (Fault.sale .unauthorized)
  | .delegate => require (sale.terms.delegatedMinter = some payer) (Fault.sale .unauthorized)

/-- Sells units to a recipient for the quoted price. -/
def purchase (st : State) (signer : Signer) (who : Buyer) (sale ledger recipient : Address)
    (request : MintRequest) (parties : TokenParties) : Except Fault Receipt := do
  let record ← load st.sales sale
  let payer ← signer.verified
  parties.load st
  checkSeeds ledger (.ledger sale recipient)
  let (st, holding) ← st.withLedger payer ledger
  parties.checkVault sale
  who.check record recipient payer
  let holding := holding.bind sale recipient bump
  let quote ← record.quoteFor recipient (some holding) request.desiredUnits st.now
  let units ← ruled (request.settle quote record.available (record.walletRemaining holding.minted))
  let cost ← ruled (demand (Checked.mul units quote.price) .overflow)
  let st ← st.collect sale record.terms.currency payer parties cost
  let ((), record) ← ruled ((Sale.recordMint units cost).attempt record)
  let ((), holding) ← ruled ((Ledger.recordMint units).attempt holding)
  return {
    state := (st.setSale sale record).setLedger ledger holding
    reply := .none
    notices := [.minted units recipient quote.price cost]
    events := [.unitsMinted sale recipient payer units quote.price cost] }

/-- Burns units that the holder has. Burned units do not return to stock. -/
def burn (st : State) (signer : Signer) (sale ledger : Address) (units : UInt64) :
    Except Fault Receipt := do
  let record ← load st.sales sale
  let holding ← load st.ledgers ledger
  let holder ← signer.verified
  checkSeeds ledger (.ledger sale holder)
  require (holding.holder = holder) (Fault.sale .unauthorized)
  let ((), holding) ← ruled ((Ledger.recordBurn units).attempt holding)
  let ((), record) ← ruled ((Sale.recordBurn units).attempt record)
  return {
    state := (st.setSale sale record).setLedger ledger holding
    reply := .none
    notices := [.burned units holder holding.balance]
    events := [.unitsBurned sale holder units] }

end State
end UnitSale
