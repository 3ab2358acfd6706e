import UnitSale.Bytes

/-!
# Keccak-256

The Keccak-f[1600] permutation on a 5 × 5 sheet of 64-bit lanes and the sponge of rate 136 bytes
with the padding `1 0* 1`, as used for commitments, seeds and fingerprints. Lane `(x, y)` is entry
`x + 5 * y` of the state.
-/

namespace UnitSale
namespace Keccak

/-- The 25 lanes. -/
abbrev Lanes := Vector UInt64 25

/-- Lane `(x, y)`, coordinates modulo five. -/
@[inline] def lane (s : Lanes) (x y : Nat) : UInt64 :=
  s.get ⟨x % 5 + 5 * (y % 5), by omega⟩

/-- A sheet given lane by lane. -/
@[inline] def tabulate (f : Nat → Nat → UInt64) : Lanes :=
  Vector.ofFn fun i => f (i.val % 5) (i.val / 5)

/-- A lane turned left by `k` below 64. -/
@[inline] def turnLeft (w : UInt64) (k : UInt64) : UInt64 :=
  (w <<< k) ||| (w >>> (64 - k))

/-- How far lane `(x, y)` turns, by index `x + 5 * y`. -/
def offsets : Vector UInt64 25 :=
  #v[0, 1, 62, 28, 27, 36, 44, 6, 55, 20, 3, 10, 43, 25, 39, 41, 45, 15, 21, 8, 18, 2, 61, 56, 14]

/-- The constant of each of the 24 rounds. -/
def roundConstants : List UInt64 :=
  [0x0000000000000001, 0x0000000000008082, 0x800000000000808A, 0x8000000080008000,
   0x000000000000808B, 0x0000000080000001, 0x8000000080008081, 0x8000000000008009,
   0x000000000000008A, 0x0000000000000088, 0x0000000080008009, 0x000000008000000A,
   0x000000008000808B, 0x800000000000008B, 0x8000000000008089, 0x8000000000008003,
   0x8000000000008002, 0x8000000000000080, 0x000000000000800A, 0x800000008000000A,
   0x8000000080008081, 0x8000000000008080, 0x0000000080000001, 0x8000000080008008]

/-- The parity of each column. -/
def columnParity (s : Lanes) : Vector UInt64 5 :=
  Vector.ofFn fun x => lane s x 0 ^^^ lane s x 1 ^^^ lane s x 2 ^^^ lane s x 3 ^^^ lane s x 4

/-- Theta: every lane takes in the parities of its two neighbouring columns. -/
def theta (s : Lanes) : Lanes :=
  let c := columnParity s
  let d : Vector UInt64 5 := Vector.ofFn fun x =>
    c.get ⟨(x.val + 4) % 5, by omega⟩ ^^^ turnLeft (c.get ⟨(x.val + 1) % 5, by omega⟩) 1
  Vector.ofFn fun i => s.get i ^^^ d.get ⟨i.val % 5, by omega⟩

/-- Rho and pi: lane `(x, y)` turns by its offset and moves to `(y, 2 x + 3 y)`. -/
def rhoPi (s : Lanes) : Lanes :=
  tabulate fun u v => turnLeft (lane s (u + 3 * v) u) (lane offsets (u + 3 * v) u)

/-- Chi: each lane mixes with the next two of its row. -/
def chi (s : Lanes) : Lanes :=
  tabulate fun x y => lane s x y ^^^ (~~~(lane s (x + 1) y) &&& lane s (x + 2) y)

/-- One round: theta, rho, pi, chi, then the round constant into lane `(0, 0)`. -/
def round (s : Lanes) (constant : UInt64) : Lanes :=
  let mixed := chi (rhoPi (theta s))
  mixed.set 0 (mixed.get 0 ^^^ constant)

/-- The Keccak-f[1600] permutation. -/
def permute (s : Lanes) : Lanes := roundConstants.foldl round s

/-- Bytes absorbed per permutation. -/
def rate : Nat := 136

/-- The message with its padding: a one bit, zeros, and a closing one bit, up to a whole block. -/
def pad (message : List UInt8) : List UInt8 :=
  match rate - message.length % rate with
  | 0 => message
  | 1 => message ++ [0x81]
  | gap + 2 => message ++ 0x01 :: (List.replicate gap 0x00 ++ [0x80])

/-- Eight bytes of a message from `start` on as a lane, least significant first. -/
def laneAt (message : Array UInt8) (start : Nat) : UInt64 :=
  (List.range 8).foldr (fun k acc => (acc <<< 8) ||| (message.getD (start + k) 0).toUInt64) 0

/-- The state after block `block` of the padded message. -/
def absorb (message : Array UInt8) (s : Lanes) (block : Nat) : Lanes :=
  permute (Vector.ofFn fun i =>
    if i.val < rate / 8 then s.get i ^^^ laneAt message (rate * block + 8 * i.val) else s.get i)

/-- The digest read off a state: its first four lanes, least significant byte first. -/
def squeeze (s : Lanes) : Bytes32 :=
  Vector.ofFn fun i =>
    (s.get ⟨i.val / 8, by omega⟩ >>> (8 * UInt64.ofNat (i.val % 8))).toUInt8

end Keccak

/-- The Keccak-256 digest of a message. -/
def keccak256 (message : List UInt8) : Bytes32 :=
  let padded := (Keccak.pad message).toArray
  Keccak.squeeze
    ((List.range (padded.size / Keccak.rate)).foldl (Keccak.absorb padded) (Vector.replicate 25 0))

end UnitSale
