import UnitSale.Chain.Payment

/-!
# Withdrawals and royalties

The owner moves what has been paid in and not yet withdrawn to the recipient that the terms name.
Coins that the sale's account holds for rent stay where they are.
-/

namespace UnitSale
namespace State

/-- Moves coins out of a sale's account. -/
def withdrawCoins (st : State) (sale recipient : Address) (amount : UInt64) :
    Except Fault State := do
  let left ← demand (Checked.sub (st.balance sale) amount) (Fault.sale .insufficientPayable)
  let st := st.setBalance sale left
  let held ← demand (Checked.add (st.balance recipient) amount) (Fault.sale .overflow)
  return st.setBalance recipient held

/-- Moves tokens out of a sale's vault to a token account of the recipient. -/
def withdrawTokens (st : State) (sale mint recipient : Address) (parties : TokenParties)
    (amount : UInt64) : Except Fault State := do
  let (target, vault, given) ← parties.complete
  require (given = mint) (Fault.sale .currencyMismatch)
  let paid ← load st.tokens target
  require (paid.owner = recipient) (Fault.sale .unauthorized)
  st.transferTokens vault target sale amount

/-- Pays out to the recipient of a sale. -/
def withdraw (st : State) (signer : Signer) (sale recipient : Address) (parties : TokenParties)
    (amount : UInt64) : Except Fault Receipt := do
  let record ← load st.sales sale
  let owner ← signer.verified
  parties.load st
  require (owner = record.terms.owner) (Fault.sale .unauthorized)
  require (recipient = record.terms.recipient) (Fault.sale .unauthorized)
  parties.checkVault sale
  require (0 < amount) (Fault.sale .insufficientPayable)
  let ((), record) ← ruled ((Sale.recordWithdrawal amount).attempt record)
  let st ← match record.terms.currency with
    | .native => st.withdrawCoins sale recipient amount
    | .token mint => st.withdrawTokens sale mint recipient parties amount
  return {
    state := st.setSale sale record
    reply := .none
    notices := [.withdrew amount recipient]
    events := [.fundsWithdrawn sale recipient amount] }

/-- The royalty on a resale. -/
def royaltyInfo (st : State) (sale : Address) (price : UInt64) : Except Fault Receipt := do
  let record ← load st.sales sale
  let quote ← ruled (record.quoteRoyalty price)
  return ⟨st, .royalty quote, [], []⟩

end State
end UnitSale
