import Mathlib.Data.List.Range
import UnitSale.Proofs.ArrangementTheorems

/-!
# The stream of draws in closed form

A stream holds one digest, how many of its four draws are used, and the number of the next block. It
starts as if a digest had been used up, and takes a new one only when a draw is asked for. So what it
holds at draw `k` is settled by `k` alone: draw `k mod 4` of block `k div 4`. A permutation takes the
draws of its seed from the first one on, one for each slot.
-/

namespace UnitSale
namespace DrawStream

variable {seed : Bytes32} {d : DrawStream} {k : ℕ}

/-! ## Draw by draw -/

/-- The stream of a seed after `k` draws. -/
def after (seed : Bytes32) : (k : ℕ) → DrawStream
  | 0 => start seed
  | k + 1 => (after seed k).next.2

/-- Draw `k` of a seed, counted from zero. -/
def draw (seed : Bytes32) (k : ℕ) : UInt64 := (after seed k).next.1

/-- The stream of a seed with draw `k` at hand. -/
def ready (seed : Bytes32) (k : ℕ) : DrawStream :=
  ⟨seed, UInt64.ofNat (k / 4 + 1), blockDigest seed (UInt64.ofNat (k / 4)), k % 4⟩

/-- A digest that is used up is replaced by that of the next block. -/
theorem refill_of_used (h : d.used = drawsPerDigest) :
    d.refill = ⟨d.seed, d.block + 1, blockDigest d.seed d.block, 0⟩ :=
  if_pos h

theorem refill_of_unused (h : d.used ≠ drawsPerDigest) : d.refill = d := if_neg h

/-- A draw uses up what was at hand, and the next one is taken from the same block or from the one
after it. -/
theorem refill_next (h : d.refill = ready seed k) : d.next.2.refill = ready seed (k + 1) := by
  have hnext : d.next.2 = ⟨seed, UInt64.ofNat (k / 4 + 1),
      blockDigest seed (UInt64.ofNat (k / 4)), k % 4 + 1⟩ := by
    rw [next, h]
    rfl
  rw [hnext, ready]
  by_cases hlast : k % 4 + 1 = 4
  · have hblock : (k + 1) / 4 = k / 4 + 1 := by omega
    have hused : (k + 1) % 4 = 0 := by omega
    rw [refill_of_used hlast, hblock, hused, UInt64.ofNat_add (k / 4 + 1)]
    rfl
  · have hblock : (k + 1) / 4 = k / 4 := by omega
    have hused : (k + 1) % 4 = k % 4 + 1 := by omega
    rw [refill_of_unused hlast, hblock, hused]

theorem refill_after (seed : Bytes32) (k : ℕ) : (after seed k).refill = ready seed k := by
  induction k with
  | zero => rfl
  | succ k ih => exact refill_next ih

theorem draw_eq (seed : Bytes32) (k : ℕ) :
    draw seed k = drawAt (blockDigest seed (UInt64.ofNat (k / 4))) (k % 4) := by
  rw [draw, next, refill_after]
  rfl

/-- A draw is the big-endian reading of its eight bytes of the digest. -/
theorem bigEndian_drawAt (digest : Bytes32) {index : ℕ} (h : index < drawsPerDigest) :
    bigEndian 8 (drawAt digest index).toNat = (digest.toList.drop (8 * index)).take 8 := by
  generalize hbytes : (digest.toList.drop (8 * index)).take 8 = bytes
  have hlength : bytes.length = 8 := by
    rw [← hbytes, List.length_take, List.length_drop, Vector.length_toList]
    unfold drawsPerDigest at h
    omega
  have hlt : ofBigEndian bytes < UInt64.size := by
    have hrange := ofBigEndian_lt bytes
    rw [hlength] at hrange
    exact hrange
  have hread : (drawAt digest index).toNat = ofBigEndian bytes := by
    rw [drawAt, hbytes]
    exact UInt64.toNat_ofNat_of_lt' hlt
  have hback := bigEndian_ofBigEndian bytes
  rw [hlength] at hback
  rw [hread, hback]

/-! ## Shuffling draw by draw -/

/-- The shuffle as it goes: slot `i` is exchanged with the slot that the next draw picks, slot
`i - 1` with the one that the draw after it picks, and so on down to slot 1. -/
def shuffleDown : (i : ℕ) → DrawStream → Array UInt32 → Array UInt32 × DrawStream
  | 0, d, ids => (ids, d)
  | i + 1, d, ids =>
    shuffleDown i d.next.2 (ids.swapIfInBounds (i + 1) (d.next.1.toNat % (i + 2)))

/-- Drawing slot by slot is taking all draws first. -/
theorem shuffleDown_eq (i : ℕ) (d : DrawStream) (ids : Array UInt32) :
    d.shuffleDown i ids = (exchangeDown i (choicesOf i (d.take i).1) ids, (d.take i).2) := by
  induction i generalizing d ids with
  | zero => rfl
  | succ i ih =>
    rw [shuffleDown, ih]
    rfl

/-- The exchanges from slot `i` down take the draws one after the other. -/
theorem shuffleDown_after (seed : Bytes32) (i k : ℕ) (ids : Array UInt32) :
    (after seed k).shuffleDown i ids
      = ((List.range' 1 i).reverse.foldl (fun ids slot =>
          ids.swapIfInBounds slot ((draw seed (k + i - slot)).toNat % (slot + 1))) ids,
        after seed (k + i)) := by
  induction i generalizing k ids with
  | zero => rfl
  | succ i ih =>
    have hslots : (List.range' 1 (i + 1)).reverse = (i + 1) :: (List.range' 1 i).reverse := by
      rw [List.range'_1_concat, List.reverse_append, Nat.add_comm 1 i]
      rfl
    have hfirst : k + (i + 1) - (i + 1) = k := by omega
    have hnumber : k + (i + 1) = k + 1 + i := by omega
    rw [shuffleDown, hslots, List.foldl_cons, hfirst, hnumber]
    exact ih (k + 1) _

end DrawStream

open DrawStream

/-- The stream of a seed is that of its digests: draw `k` is the big-endian number in bytes
`8 (k mod 4)` to `8 (k mod 4) + 8` of the digest of the seed followed by `k div 4`, as long as block
numbers do not come round. A permutation exchanges slot `i`, from the last one down to slot 1, with
the slot that is the remainder of draw `n - 1 - i` by `i + 1`: as it goes it takes the first `n - 1`
draws and no other. -/
theorem draws_in_order (seed : Bytes32) :
    (∀ k < 4 * UInt64.size, bigEndian 8 (draw seed k).toNat
      = ((keccak256 (seed.toList ++ bigEndian 8 (k / 4))).toList.drop (8 * (k % 4))).take 8) ∧
    ∀ n : UInt32,
      permutation seed n = ((List.range' 1 (n.toNat - 1)).reverse.foldl (fun ids slot =>
        ids.swapIfInBounds slot ((draw seed (n.toNat - 1 - slot)).toNat % (slot + 1)))
          (orderedIds n.toNat)).toList ∧
      (start seed).shuffleDown (n.toNat - 1) (orderedIds n.toNat)
        = ((permutation seed n).toArray, after seed (n.toNat - 1)) := by
  constructor
  · intro k hk
    have hblock : (UInt64.ofNat (k / 4)).toNat = k / 4 := by
      apply UInt64.toNat_ofNat_of_lt'
      omega
    have hplace : k % 4 < drawsPerDigest := Nat.mod_lt k (by decide)
    rw [draw_eq, bigEndian_drawAt _ hplace, blockDigest, hblock]
  · intro n
    have htaken := shuffleDown_eq (n.toNat - 1) (start seed) (orderedIds n.toNat)
    have hordered := shuffleDown_after seed (n.toNat - 1) 0 (orderedIds n.toNat)
    rw [Nat.zero_add, after, htaken, Prod.mk.injEq] at hordered
    obtain ⟨hids, hrest⟩ := hordered
    constructor
    · exact congrArg Array.toList hids
    · rw [htaken, hrest]
      rfl

/-- The fifth draw of the zero seed is the first of the block numbered 1. -/
theorem draws_in_order_second_block :
    4 < 4 * UInt64.size ∧ bigEndian 8 (draw Bytes32.zero 4).toNat
      = (keccak256 (Bytes32.zero.toList ++ bigEndian 8 1)).toList.take 8 :=
  ⟨by decide, (draws_in_order Bytes32.zero).1 4 (by decide)⟩

end UnitSale
