import UnitSale.Address
import UnitSale.Checked
import UnitSale.Script.Basic
import UnitSale.Update

/-!
# Sales

A sale has terms, set once when it is opened, and counters. Stock leaves a sale in `allocate`, when
units are bought or reserved, and comes back only in `release`. Money is counted where it comes in
and where it goes out; what is payable is the difference.
-/

namespace UnitSale

/-! ## Limits -/

/-- Most units a sale may offer. -/
def maxSupplyLimit : UInt64 := 2000

/-- Highest royalty, in basis points. -/
def maxRoyaltyBps : UInt16 := 2500

/-- Basis points in the whole. -/
def basisPoints : Nat := 10000

/-! ## Types -/

/-- What a sale is paid in: the native coin, or a token by its mint. -/
inductive Currency
  | native
  | token (mint : Address)
  deriving DecidableEq, Repr

/-- What the owner asks for when opening a sale. No limit per wallet is written as zero. -/
structure SaleConfig where
  script : Script
  supplyLimit : UInt64
  maxPerWallet : UInt64
  currency : Currency
  recipient : Address
  delegatedMinter : Option Address
  royaltyBps : UInt16
  royaltyRecipient : Address
  deriving DecidableEq, Repr

/-- What is set once when a sale is opened. -/
structure Terms where
  owner : Address
  number : UInt64
  initialized : Bool
  recipient : Address
  delegatedMinter : Option Address
  currency : Currency
  supplyLimit : UInt64
  maxPerWallet : UInt64
  royaltyBps : UInt16
  royaltyRecipient : Address
  fingerprint : Bytes32
  maxStackDepth : UInt16
  bump : UInt8
  script : Script
  deriving DecidableEq, Repr

/-- A sale: its terms, its counters and the bump of its vault. -/
structure Sale where
  terms : Terms
  /-- Units minted or reserved, less those given back. -/
  allocated : UInt64
  totalMinted : UInt64
  totalBurned : UInt64
  amountPaid : UInt64
  amountWithdrawn : UInt64
  vaultBump : UInt8
  deriving DecidableEq, Repr

/-- Who gets a royalty, and how much. -/
structure RoyaltyQuote where
  receiver : Address
  amount : UInt64
  deriving DecidableEq, Repr

namespace Terms

/-- The terms of a sale that has not been opened. -/
def blank : Terms where
  owner := .zero
  number := 0
  initialized := false
  recipient := .zero
  delegatedMinter := none
  currency := .native
  supplyLimit := 0
  maxPerWallet := 0
  royaltyBps := 0
  royaltyRecipient := .zero
  fingerprint := Bytes32.zero
  maxStackDepth := 0
  bump := 0
  script := .empty

end Terms

namespace Sale

/-- A sale that has not been opened. -/
def blank : Sale where
  terms := .blank
  allocated := 0
  totalMinted := 0
  totalBurned := 0
  amountPaid := 0
  amountWithdrawn := 0
  vaultBump := 0

/-- Bytes a sale with the given script takes, its discriminator included. -/
def space (script : Script) : Nat :=
  8 + (32 + 8 + 1) + (32 + 33 + 33) + (8 + 8 + 8 + 8 + 8) + (8 + 8) + (2 + 32) + (32 + 2) + (1 + 1)
    + script.space

/-! ## Readings -/

/-- Units still in stock. -/
def available (s : Sale) : UInt64 := Checked.monus s.terms.supplyLimit s.allocated

/-- Units minted and not burned. -/
def totalSupply (s : Sale) : UInt64 := Checked.monus s.totalMinted s.totalBurned

/-- Money that can be withdrawn. -/
def amountPayable (s : Sale) : UInt64 := Checked.monus s.amountPaid s.amountWithdrawn

/-- How many more units a wallet may buy that has `minted` already. -/
def walletRemaining (s : Sale) (minted : UInt64) : UInt64 :=
  if s.terms.maxPerWallet = 0 then Checked.maxAmount else Checked.monus s.terms.maxPerWallet minted

/-- The royalty on a resale at `price`: basis points of the price, rounded down. -/
def royalty (s : Sale) (price : UInt64) : RoyaltyQuote :=
  ⟨s.terms.royaltyRecipient, UInt64.ofNat (price.toNat * s.terms.royaltyBps.toNat / basisPoints)⟩

/-- The royalty as it is worked out: the product is formed in 128 bits, and the quotient is cut to
64. -/
def quoteRoyalty (s : Sale) (price : UInt64) : Except SaleError RoyaltyQuote := do
  let product ← demand (Checked.mulWide price.toNat s.terms.royaltyBps.toNat) SaleError.overflow
  return ⟨s.terms.royaltyRecipient, UInt64.ofNat (product / basisPoints)⟩

/-! ## Updates -/

/-- Sets the terms of a sale that has none yet. -/
def configure (owner : Address) (number : UInt64) (config : SaleConfig) (maxStackDepth : UInt16)
    (fingerprint : Bytes32) (bump : UInt8) : Update Sale Unit := do
  let s ← get
  require (s.terms.initialized = false) SaleError.alreadyInitialized
  require (1 ≤ config.supplyLimit ∧ config.supplyLimit ≤ maxSupplyLimit)
    SaleError.invalidSupplyLimit
  require (config.royaltyBps ≤ maxRoyaltyBps) SaleError.royaltyTooHigh
  set { s with
    terms := {
      owner := owner
      number := number
      initialized := true
      recipient := config.recipient
      delegatedMinter := config.delegatedMinter
      currency := config.currency
      supplyLimit := config.supplyLimit
      maxPerWallet := config.maxPerWallet
      royaltyBps := config.royaltyBps
      royaltyRecipient := config.royaltyRecipient
      fingerprint := fingerprint
      maxStackDepth := maxStackDepth
      bump := bump
      script := config.script } }

/-- Takes units out of stock. -/
def allocate (units : UInt64) : Update Sale Unit := do
  let s ← get
  require (units ≤ s.available) SaleError.maxLimit
  set { s with allocated := ← demand (Checked.add s.allocated units) SaleError.overflow }

/-- Gives units back to stock. -/
def release (units : UInt64) : Update Sale Unit := do
  let s ← get
  set { s with allocated := ← demand (Checked.sub s.allocated units) SaleError.overflow }

/-- Counts money that came in. -/
def recordPayment (cost : UInt64) : Update Sale Unit := do
  let s ← get
  set { s with amountPaid := ← demand (Checked.add s.amountPaid cost) SaleError.overflow }

/-- Counts units that were taken out of stock before and are minted now. -/
def recordClaim (units : UInt64) : Update Sale Unit := do
  let s ← get
  set { s with totalMinted := ← demand (Checked.add s.totalMinted units) SaleError.overflow }

/-- Counts a purchase: stock, minted units and money. -/
def recordMint (units cost : UInt64) : Update Sale Unit := do
  allocate units
  recordClaim units
  recordPayment cost

/-- Counts burned units. -/
def recordBurn (units : UInt64) : Update Sale Unit := do
  let s ← get
  set { s with totalBurned := ← demand (Checked.add s.totalBurned units) SaleError.overflow }

/-- Counts money that goes out, up to what is payable. -/
def recordWithdrawal (amount : UInt64) : Update Sale Unit := do
  let s ← get
  require (amount ≤ s.amountPayable) SaleError.insufficientPayable
  set { s with
    amountWithdrawn := ← demand (Checked.add s.amountWithdrawn amount) SaleError.overflow }

end Sale
end UnitSale
