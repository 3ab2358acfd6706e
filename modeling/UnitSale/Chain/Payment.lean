import UnitSale.Chain.Report

/-!
# Payments

How a buyer's money reaches a sale: coins go to the sale's own account, tokens to its vault. Which
token accounts a caller brings along is up to the caller, so everything about them is checked.
-/

namespace UnitSale

/-- The accounts a caller brings for tokens: the caller's own token account, the vault, the mint,
and the token program. -/
structure TokenParties where
  account : Option Address
  vault : Option Address
  mint : Option Address
  program : Bool
  deriving DecidableEq, Repr

namespace TokenParties

/-- No token accounts at all. -/
def none : TokenParties := ⟨.none, .none, .none, false⟩

/-- Every account that is brought along exists. -/
def load (p : TokenParties) (st : State) : Except Fault Unit := do
  require (p.account.all st.tokens.contains) (Fault.account .notInitialized)
  require (p.vault.all st.tokens.contains) (Fault.account .notInitialized)
  require (p.mint.all fun m => decide (m ∈ st.mints)) (Fault.account .notInitialized)

/-- A vault that is brought along is the sale's. -/
def checkVault (p : TokenParties) (sale : Address) : Except Fault Unit :=
  match p.vault with
  | some vault => State.checkSeeds vault (.vault sale)
  | .none => .ok ()

/-- The caller's account, the vault and the mint, if everything is there. -/
def complete (p : TokenParties) : Except Fault (Address × Address × Address) :=
  match p with
  | ⟨some account, some vault, some mint, true⟩ => .ok (account, vault, mint)
  | _ => .error (.sale .missingPaymentAccounts)

end TokenParties

namespace State

/-- Takes the cost of a purchase or reservation from the payer. Nothing has to be paid for nothing.
-/
def collect (st : State) (sale : Address) (currency : Currency) (payer : Address)
    (parties : TokenParties) (cost : UInt64) : Except Fault State := do
  if cost = 0 then
    return st
  match currency with
  | .native =>
    require (cost ≤ st.balance payer) (Fault.sale .insufficientFunds)
    st.pay payer sale cost
  | .token mint =>
    let (account, vault, given) ← parties.complete
    require (given = mint) (Fault.sale .currencyMismatch)
    let paying ← load st.tokens account
    require (paying.mint = mint) (Fault.sale .currencyMismatch)
    require (cost ≤ paying.amount) (Fault.sale .insufficientFunds)
    st.transferTokens account vault payer cost

end State
end UnitSale
