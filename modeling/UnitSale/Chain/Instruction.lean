import UnitSale.Chain.Opening
import UnitSale.Chain.Reserving
import UnitSale.Chain.Treasury

/-!
# Instructions

Everything that can be asked of the program, with the accounts the caller brings along. A call is
one instruction under one ordinary key. It either succeeds as a whole or leaves the state alone.
-/

namespace UnitSale

/-- An instruction and the addresses it is given. -/
inductive Instruction
  | openSale (sale shuffle : Address) (number : UInt64) (config : SaleConfig)
  | openVault (sale vault mint : Address)
  | calculate (sale : Address) (ledger : Option Address) (account : Address) (units : UInt64)
  | mint (sale ledger recipient : Address) (request : MintRequest) (parties : TokenParties)
  | mintFor (sale ledger recipient : Address) (request : MintRequest) (parties : TokenParties)
  | burn (sale ledger : Address) (units : UInt64)
  | withdraw (sale recipient : Address) (amount : UInt64) (parties : TokenParties)
  | royaltyInfo (sale : Address) (price : UInt64)
  | commit (sale shuffle commitment : Address) (ledger : Option Address) (hash : Bytes32)
      (units maximumPrice : UInt64) (parties : TokenParties)
  | startReveal (sale shuffle : Address) (seed : Bytes32) (bound : TimeBound)
  | reveal (sale shuffle commitment : Address) (secret : Bytes32)
  | revealIds (sale shuffle : Address)
  | claimReserved (sale shuffle commitment ledger : Address)
  deriving DecidableEq, Repr

/-- An instruction under an ordinary key. Derived addresses have no secret to sign with, so calls
from outside never come from one. -/
structure Call where
  key : Bytes32
  signed : Bool
  instruction : Instruction
  deriving DecidableEq, Repr

/-- Who a call is sent by. -/
def Call.signer (call : Call) : Signer := ⟨.key call.key, call.signed⟩

namespace State

/-- Runs an instruction for a signer. -/
def run (st : State) (signer : Signer) : Instruction → Except Refusal Receipt
  | .openSale sale shuffle number config => st.openSale signer sale shuffle number config
  | .openVault sale vault mint => silent (st.openVault signer sale vault mint)
  | .calculate sale ledger account units => silent (st.calculate sale ledger account units)
  | .mint sale ledger recipient request parties =>
    silent (st.purchase signer .recipient sale ledger recipient request parties)
  | .mintFor sale ledger recipient request parties =>
    silent (st.purchase signer .delegate sale ledger recipient request parties)
  | .burn sale ledger units => silent (st.burn signer sale ledger units)
  | .withdraw sale recipient amount parties =>
    silent (st.withdraw signer sale recipient parties amount)
  | .royaltyInfo sale price => silent (st.royaltyInfo sale price)
  | .commit sale shuffle commitment ledger hash units maximumPrice parties =>
    silent (st.commit signer sale shuffle commitment ledger hash units maximumPrice parties)
  | .startReveal sale shuffle seed bound => silent (st.startReveal signer sale shuffle seed bound)
  | .reveal sale shuffle commitment secret =>
    silent (st.reveal signer sale shuffle commitment secret)
  | .revealIds sale shuffle => silent (st.revealIds signer sale shuffle)
  | .claimReserved sale shuffle commitment ledger =>
    silent (st.claimReserved signer sale shuffle commitment ledger)
where
  /-- A refusal before anything was logged. -/
  silent (result : Except Fault Receipt) : Except Refusal Receipt :=
    result.mapError fun fault => ⟨fault, []⟩

/-- Executes a call. -/
def execute (st : State) (call : Call) : Except Refusal Receipt :=
  st.run call.signer call.instruction

/-- The state after a call: a refused one changes nothing. -/
def after (st : State) (call : Call) : State :=
  match st.execute call with
  | .ok receipt => receipt.state
  | .error _ => st

/-- The state at another time. -/
def atTime (st : State) (now : Int64) : State := { st with now := now }

end State
end UnitSale
