import UnitSale.Chain.Report
import UnitSale.Script.Listing

/-!
# Opening a sale

The owner opens a sale by creating its record and its shuffle, and for a sale paid in tokens the
vault. The script is validated first and logged, so the log has it even if the terms are then
refused.
-/

namespace UnitSale
namespace State

/-- Bytes of a vault. -/
def vaultSpace : Nat := 165

/-- Creates the records of a sale before its terms are looked at. -/
def createSale (st : State) (sale shuffle owner : Address) (number : UInt64) (config : SaleConfig) :
    Except Fault State := do
  checkSeeds sale (.sale owner number)
  let st ← st.create owner sale (st.sales.contains sale) (Sale.space config.script)
  let st := st.setSale sale .blank
  checkSeeds shuffle (.shuffle sale)
  let st ← st.create owner shuffle (st.shuffles.contains shuffle) (Shuffle.space config.supplyLimit)
  return st.setShuffle shuffle .blank

/-- Opens a sale. -/
def openSale (st : State) (signer : Signer) (sale shuffle : Address) (number : UInt64)
    (config : SaleConfig) : Except Refusal Receipt := do
  let owner ← signer.verified.mapError fun f => ⟨f, []⟩
  let st ← (st.createSale sale shuffle owner number config).mapError fun f => ⟨f, []⟩
  let depth ← (Script.validate Sale.table config.script Sale.contextLength).mapError fun e =>
    ⟨.script e, []⟩
  let listed := Notice.script (Script.listing Sale.table config.script)
  let fingerprint := Sale.table.fingerprint
  let ((), record) ←
    ((Sale.configure owner number config depth fingerprint bump).attempt .blank).mapError fun e =>
      (⟨.sale e, [listed]⟩ : Refusal)
  return {
    state := (st.setSale sale record).setShuffle shuffle (Shuffle.blank.bind sale bump)
    reply := .none
    notices := [listed, .saleOpened number record.terms.supplyLimit record.terms.maxStackDepth]
    events := [.saleOpened sale owner number record.terms.supplyLimit record.terms.currency
      record.terms.fingerprint] }

/-- Creates the vault that takes the payments of a sale in tokens. -/
def openVault (st : State) (signer : Signer) (sale vault mint : Address) :
    Except Fault Receipt := do
  let record ← load st.sales sale
  require (mint ∈ st.mints) (Fault.account .notInitialized)
  let owner ← signer.verified
  checkSeeds vault (.vault sale)
  let st ← st.create owner vault (st.tokens.contains vault) vaultSpace
  let st := { st with tokens := st.tokens.set vault ⟨mint, sale, 0⟩ }
  require (owner = record.terms.owner) (Fault.sale .unauthorized)
  match record.terms.currency with
  | .native => throw (.sale .currencyMismatch)
  | .token currency =>
    require (mint = currency) (Fault.sale .currencyMismatch)
    return {
      state := st.setSale sale { record with vaultBump := bump }
      reply := .none
      notices := [.vaultCreated vault currency]
      events := [] }

end State
end UnitSale
