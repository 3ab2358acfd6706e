import UnitSale.Keccak

/-!
# Draws and permutations

A seed gives an endless stream of 64-bit draws, four to a digest. The draws give a permutation of
ids by exchanging slots from the last one down.
-/

namespace UnitSale

/-! ## Digests of secrets -/

/-- The digest a buyer commits to. -/
def commitmentHash (secret : Bytes32) : Bytes32 := keccak256 secret.toList

/-- The seed after a secret has been folded into it. -/
def accumulateSeed (seed secret : Bytes32) : Bytes32 := keccak256 (seed.toList ++ secret.toList)

/-! ## The stream of draws -/

/-- A stream of draws: the seed, the number of the next block, and the digest of the current block
with how many of its four draws have been used. -/
structure DrawStream where
  seed : Bytes32
  block : UInt64
  buffer : Bytes32
  used : Nat
  deriving DecidableEq, Repr

namespace DrawStream

/-- Draws per digest. -/
def drawsPerDigest : Nat := 4

/-- The stream of a seed, which takes its first block at the first draw. -/
def start (seed : Bytes32) : DrawStream := ⟨seed, 0, Bytes32.zero, drawsPerDigest⟩

/-- The digest that block `block` of a seed's draws is read from. -/
def blockDigest (seed : Bytes32) (block : UInt64) : Bytes32 :=
  keccak256 (seed.toList ++ bigEndian 8 block.toNat)

/-- Draw `index` of a digest: eight bytes, most significant first. -/
def drawAt (digest : Bytes32) (index : Nat) : UInt64 :=
  UInt64.ofNat (ofBigEndian ((digest.toList.drop (8 * index)).take 8))

/-- The stream with an unused draw at hand. -/
def refill (d : DrawStream) : DrawStream :=
  if d.used = drawsPerDigest then
    { d with buffer := blockDigest d.seed d.block, block := d.block + 1, used := 0 }
  else d

/-- The next draw and the stream after it. -/
def next (d : DrawStream) : UInt64 × DrawStream :=
  let d := d.refill
  (drawAt d.buffer d.used, { d with used := d.used + 1 })

/-- The next `n` draws and the stream after them. -/
def take : (n : Nat) → DrawStream → List UInt64 × DrawStream
  | 0, d => ([], d)
  | n + 1, d =>
    let (draw, d) := d.next
    let (rest, d) := take n d
    (draw :: rest, d)

end DrawStream

/-! ## Permutations -/

/-- Exchanges slot `i` with slot `choices[0]`, slot `i - 1` with `choices[1]`, and so on down to
slot 1. -/
def exchangeDown : (i : Nat) → List Nat → Array UInt32 → Array UInt32
  | i + 1, choice :: choices, ids => exchangeDown i choices (ids.swapIfInBounds (i + 1) choice)
  | _, _, ids => ids

/-- The ids `1..=n` in order. -/
def orderedIds (n : Nat) : Array UInt32 := Array.ofFn fun i : Fin n => UInt32.ofNat (i.val + 1)

/-- The arrangement of `1..=n` that choices for the slots from the last one down make. -/
def arrange (n : Nat) (choices : List Nat) : Array UInt32 :=
  exchangeDown (n - 1) choices (orderedIds n)

/-- The choices that draws make for the slots from `i` down: a draw for slot `i` picks one of the
slots `0..=i`. -/
def choicesOf : (i : Nat) → List UInt64 → List Nat
  | i + 1, draw :: draws => draw.toNat % (i + 2) :: choicesOf i draws
  | _, _ => []

/-- The ids `1..=n` shuffled by a seed. -/
def permutation (seed : Bytes32) (n : UInt32) : List UInt32 :=
  let last := n.toNat - 1
  (arrange n.toNat (choicesOf last (DrawStream.take last (DrawStream.start seed)).1)).toList

end UnitSale
