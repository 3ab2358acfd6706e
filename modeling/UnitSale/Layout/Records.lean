import UnitSale.Layout.Basic
import UnitSale.Reveal.Shuffle
import UnitSale.Sale.Quote

/-!
# Layouts of the records

The layout of everything that is stored or passed to an instruction: fields in a fixed order,
accounts behind the eight bytes that tell their kind.
-/

namespace UnitSale
namespace Layout

/-! ## Building blocks -/

/-- A word, most significant byte first. -/
def word : Layout Word := bytes32.iso Word.ofBytes Word.toBytes

/-- An address by its bytes; what is read back is a key. -/
def address : Layout Address := bytes32.iso Address.key Address.bytes

/-- A currency: zero for the native coin, one and the mint for a token. -/
def currency : Layout Currency where
  write
    | .native => [0]
    | .token mint => 1 :: address.write mint
  read bytes := do
    let (tag, rest) ← uint8.read bytes
    match tag with
    | 0 => return (.native, rest)
    | 1 =>
      let (mint, rest) ← address.read rest
      return (.token mint, rest)
    | tag => throw (.variant tag)

/-- A phase by its number in order. -/
def phase : Layout Phase :=
  choice
    (fun
      | .opened => 0
      | .reserved => 1
      | .revealing => 2
      | .revealed => 3
      | .shuffled => 4)
    Phase.all

/-- A status by its number in order. -/
def commitmentStatus : Layout CommitmentStatus :=
  choice
    (fun
      | .committed => 0
      | .revealed => 1
      | .claimed => 2)
    CommitmentStatus.all

/-! ## Arguments -/

/-- An operation: opcode, operand. -/
def op : Layout Op := (pair uint16 uint16).iso (fun (c, o) => ⟨c, o⟩) fun x => (x.opcode, x.operand)

/-- A script: sources, constants. -/
def script : Layout Script :=
  (pair (list (list op)) (list word)).iso (fun (s, c) => ⟨s, c⟩) fun x => (x.sources, x.constants)

/-- What the owner asks for, the script first. -/
def saleConfig : Layout SaleConfig :=
  (pair script <| pair uint64 <| pair uint64 <| pair currency <| pair address <|
      pair (option address) <| pair uint16 address).iso
    (fun (script, limit, perWallet, currency, recipient, minter, bps, royalty) =>
      ⟨script, limit, perWallet, currency, recipient, minter, bps, royalty⟩)
    fun x => (x.script, x.supplyLimit, x.maxPerWallet, x.currency, x.recipient, x.delegatedMinter,
      x.royaltyBps, x.royaltyRecipient)

/-- A request: units desired, fewest units, highest price. -/
def mintRequest : Layout MintRequest :=
  (pair uint64 <| pair uint64 uint64).iso (fun (d, m, p) => ⟨d, m, p⟩)
    fun x => (x.desiredUnits, x.minimumUnits, x.maximumPrice)

/-- A window: duration, extra time. -/
def timeBound : Layout TimeBound :=
  (pair int64 int64).iso (fun (b, e) => ⟨b, e⟩) fun x => (x.baseDuration, x.maxExtraTime)

/-- A quote: unit limit, price. -/
def saleQuote : Layout SaleQuote :=
  (pair uint64 uint64).iso (fun (m, p) => ⟨m, p⟩) fun x => (x.maxUnits, x.price)

/-- A royalty: receiver, amount. -/
def royaltyQuote : Layout RoyaltyQuote :=
  (pair address uint64).iso (fun (r, a) => ⟨r, a⟩) fun x => (x.receiver, x.amount)

/-! ## Accounts -/

/-- A sale: terms and counters in stored order, the script last. -/
def sale : Layout Sale :=
  (pair address <| pair uint64 <| pair bool <| pair address <| pair (option address) <|
      pair currency <| pair uint64 <| pair uint64 <| pair uint64 <| pair uint64 <| pair uint64 <|
      pair uint64 <| pair uint64 <| pair uint16 <| pair address <| pair bytes32 <| pair uint16 <|
      pair uint8 <| pair uint8 script).iso
    (fun (owner, number, initialized, recipient, minter, currency, limit, perWallet, allocated,
        minted, burned, paid, withdrawn, bps, royalty, fingerprint, depth, bump, vaultBump,
        script) =>
      ⟨⟨owner, number, initialized, recipient, minter, currency, limit, perWallet, bps, royalty,
          fingerprint, depth, bump, script⟩,
        allocated, minted, burned, paid, withdrawn, vaultBump⟩)
    fun x => (x.terms.owner, x.terms.number, x.terms.initialized, x.terms.recipient,
      x.terms.delegatedMinter, x.terms.currency, x.terms.supplyLimit, x.terms.maxPerWallet,
      x.allocated, x.totalMinted, x.totalBurned, x.amountPaid, x.amountWithdrawn,
      x.terms.royaltyBps, x.terms.royaltyRecipient, x.terms.fingerprint, x.terms.maxStackDepth,
      x.terms.bump, x.vaultBump, x.terms.script)

/-- A ledger: owner of the counters, the counters, the bump. -/
def ledger : Layout Ledger :=
  (pair address <| pair address <| pair uint64 <| pair uint64 uint8).iso
    (fun (sale, holder, minted, burned, bump) => ⟨sale, holder, minted, burned, bump⟩)
    fun x => (x.sale, x.holder, x.minted, x.burned, x.bump)

/-- A reservation: whose it is, what it commits to, how far it has come. -/
def commitment : Layout Commitment :=
  (pair address <| pair address <| pair bytes32 <| pair uint64 <| pair uint64 <|
      pair commitmentStatus <| pair int64 uint8).iso
    (fun (sale, buyer, hash, units, slot, status, time, bump) =>
      ⟨sale, buyer, hash, units, slot, status, time, bump⟩)
    fun x => (x.sale, x.buyer, x.hash, x.units, x.slotStart, x.status, x.committedAt, x.bump)

/-- A shuffle: phase, counters, seed and window, the permutation last. -/
def shuffle : Layout Shuffle :=
  (pair address <| pair phase <| pair uint64 <| pair uint64 <| pair uint64 <| pair uint64 <|
      pair bytes32 <|
      pair timeBound <| pair int64 <| pair int64 <| pair int64 <| pair uint8 (list uint32)).iso
    (fun (sale, phase, reserved, pending, revealed, forfeited, seed, bound, started, deadline, hard,
        bump, permutation) =>
      ⟨sale, phase, reserved, pending, revealed, forfeited, seed, bound, started, deadline, hard,
        bump, permutation⟩)
    fun x => (x.sale, x.phase, x.totalReserved, x.pending, x.revealedUnits, x.forfeitedUnits,
      x.seed, x.timeBound, x.revealStartedAt, x.deadline, x.hardDeadline, x.bump, x.permutation)

/-! ## Discriminators -/

/-- The first eight bytes of a sale account. -/
def saleDiscriminator : List UInt8 := [0xca, 0x40, 0xe8, 0xab, 0xb2, 0xac, 0x22, 0xb7]

/-- The first eight bytes of a shuffle account. -/
def shuffleDiscriminator : List UInt8 := [0xf0, 0x3e, 0x29, 0x43, 0xad, 0xd5, 0x38, 0xe0]

/-- The first eight bytes of a commitment account. -/
def commitmentDiscriminator : List UInt8 := [0x3d, 0x70, 0x81, 0x80, 0x18, 0x93, 0x4d, 0x57]

/-- The first eight bytes of a ledger account. -/
def ledgerDiscriminator : List UInt8 := [0x57, 0xe5, 0x9c, 0x4c, 0x6b, 0x84, 0xde, 0xe6]

end Layout
end UnitSale
