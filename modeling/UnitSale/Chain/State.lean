import UnitSale.Chain.Registry
import UnitSale.Reveal.Shuffle
import UnitSale.Sale.Quote

/-!
# The state of the chain

All accounts that sales touch: coins by address, token accounts, and the records of sales, each kind
in a registry of its own. Coins and tokens only move from one account to another, so every transfer
here keeps their totals.
-/

namespace UnitSale

/-- A token account: whose it is, of which mint, and how much it holds. -/
structure TokenAccount where
  mint : Address
  owner : Address
  amount : UInt64
  deriving DecidableEq, Repr

/-- The time, the price of storage, and every account. -/
structure State where
  now : Int64
  rentPerByte : Nat
  mints : List Address
  coins : Registry Address UInt64
  tokens : Registry Address TokenAccount
  sales : Registry Address Sale
  shuffles : Registry Address Shuffle
  ledgers : Registry Address Ledger
  commitments : Registry Address Commitment

/-- The address that an instruction is sent from, and whether it signed. -/
structure Signer where
  address : Address
  signed : Bool
  deriving DecidableEq, Repr

/-- The address of a signer, who has to have signed. -/
def Signer.verified (s : Signer) : Except Fault Address :=
  if s.signed then .ok s.address else .error (.account .notSigner)

namespace State

/-! ## Loading -/

/-- The record at an address, which has to be there. -/
def load {α : Type} (records : Registry Address α) (address : Address) : Except Fault α :=
  demand (records.find? address) (.account .notInitialized)

/-- An address that has to be the one derived. -/
def checkSeeds (given derived : Address) : Except Fault Unit :=
  require (given = derived) (.account .constraintSeeds)

/-! ## Coins -/

/-- The coins at an address. -/
def balance (st : State) (a : Address) : UInt64 := (st.coins.find? a).getD 0

/-- Sets the coins at an address. -/
def setBalance (st : State) (a : Address) (amount : UInt64) : State :=
  { st with coins := st.coins.set a amount }

/-- Moves coins. The source is debited first, so paying oneself changes nothing. -/
def pay (st : State) (source target : Address) (amount : UInt64) : Except Fault State := do
  let left ← demand (Checked.sub (st.balance source) amount) (Fault.custom 1)
  let st := st.setBalance source left
  let held ← demand (Checked.add (st.balance target) amount) Fault.arithmetic
  return st.setBalance target held

/-- Bytes that every account is charged for on top of its own. -/
def accountOverhead : Nat := 128

/-- The coins an account of the given size has to hold. -/
def rent (st : State) (size : Nat) : Nat := (accountOverhead + size) * st.rentPerByte

/-- Pays for a new account at an address: what is missing from its rent. The payer is charged before
the address is looked at, which has to be free. -/
def create (st : State) (payer address : Address) (present : Bool) (size : Nat) :
    Except Fault State := do
  let due := st.rent size - (st.balance address).toNat
  require (due < UInt64.size) (Fault.custom 1)
  let paid ← st.pay payer address (UInt64.ofNat due)
  require (present = false) (Fault.custom 0)
  return paid

/-! ## Tokens -/

/-- Moves tokens on the word of the source's owner. -/
def transferTokens (st : State) (source target authority : Address) (amount : UInt64) :
    Except Fault State := do
  let paying ← load st.tokens source
  let paid ← load st.tokens target
  require (amount ≤ paying.amount) (Fault.custom 1)
  require (paying.mint = paid.mint) (Fault.custom 3)
  require (authority = paying.owner) (Fault.custom 4)
  if source = target then
    return st
  else
    let left ← demand (Checked.sub paying.amount amount) (Fault.custom 1)
    let held ← demand (Checked.add paid.amount amount) (Fault.custom 14)
    return { st with
      tokens := (st.tokens.set source { paying with amount := left }).set target
        { paid with amount := held } }

/-! ## Records of sales -/

/-- Writes a sale. -/
def setSale (st : State) (a : Address) (s : Sale) : State := { st with sales := st.sales.set a s }

/-- Writes a shuffle. -/
def setShuffle (st : State) (a : Address) (s : Shuffle) : State :=
  { st with shuffles := st.shuffles.set a s }

/-- Writes a ledger. -/
def setLedger (st : State) (a : Address) (l : Ledger) : State :=
  { st with ledgers := st.ledgers.set a l }

/-- Writes a commitment. -/
def setCommitment (st : State) (a : Address) (c : Commitment) : State :=
  { st with commitments := st.commitments.set a c }

/-- The number that goes with a derived address. -/
def bump : UInt8 := 255

end State

/-! ## Accounts one by one -/

/-- What an account holds besides coins. -/
inductive Record
  | wallet
  | token (t : TokenAccount)
  | sale (s : Sale)
  | shuffle (s : Shuffle)
  | ledger (l : Ledger)
  | commitment (c : Commitment)
  deriving DecidableEq, Repr

/-- One account as a whole. -/
structure Account where
  coins : UInt64
  record : Record
  deriving DecidableEq, Repr

namespace State

/-- What is recorded at an address. Where nothing is recorded there is a wallet, possibly an empty
one. -/
def record (st : State) (a : Address) : Record :=
  (((st.sales.find? a).map .sale).or <|
    ((st.shuffles.find? a).map .shuffle).or <|
      ((st.ledgers.find? a).map .ledger).or <|
        ((st.commitments.find? a).map .commitment).or
          ((st.tokens.find? a).map .token)).getD .wallet

/-- The account at an address. -/
def account (st : State) (a : Address) : Account := ⟨st.balance a, st.record a⟩

/-- All addresses that hold or record something, some of them more than once. -/
def addresses (st : State) : List Address :=
  st.coins.keys ++ st.tokens.keys ++ st.sales.keys ++ st.shuffles.keys ++ st.ledgers.keys
    ++ st.commitments.keys

/-- The accounts that differ from an earlier state, as they are now. The zero key is left out: what
lives there is the program that moves coins, and programs are not reported. -/
def changesSince (st before : State) : List (Address × Account) :=
  (st.addresses.eraseDups.filter fun a => a ≠ .zero ∧ st.account a ≠ before.account a).map
    fun a => (a, st.account a)

end State
end UnitSale
