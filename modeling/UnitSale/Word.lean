import UnitSale.Bytes

/-!
# 256-bit words

The values that scripts compute with. A word is also the number that a 32-byte key denotes, most
significant byte first, so keys can be pushed and compared like any other word.
-/

namespace UnitSale

/-- A 256-bit word. -/
abbrev Word := BitVec 256

namespace Word

/-- How many words there are. -/
def size : Nat := byteRange 32

/-- The word of a 64-bit amount. -/
def ofAmount (n : UInt64) : Word := BitVec.ofNat 256 n.toNat

/-- One for true, zero for false. -/
def ofBool (b : Bool) : Word := if b then 1 else 0

/-- The word as a 64-bit amount, if it fits. -/
def toAmount? (w : Word) : Option UInt64 :=
  if w.toNat < UInt64.size then some (UInt64.ofNat w.toNat) else none

/-- The word that 32 bytes denote, most significant first. -/
def ofBytes (b : Bytes32) : Word := BitVec.ofNat 256 b.toNat

/-- The 32 bytes of a word, most significant first. -/
def toBytes (w : Word) : Bytes32 := Bytes32.ofNat w.toNat

/-! ## Arithmetic that reports failure -/

/-- The sum, if it fits. -/
def add (a b : Word) : Option Word :=
  if a.toNat + b.toNat < size then some (BitVec.ofNat 256 (a.toNat + b.toNat)) else none

/-- The difference, if it is not negative. -/
def sub (a b : Word) : Option Word :=
  if b.toNat ≤ a.toNat then some (BitVec.ofNat 256 (a.toNat - b.toNat)) else none

/-- The difference, or zero where it would be negative. -/
def monus (a b : Word) : Word := BitVec.ofNat 256 (a.toNat - b.toNat)

/-- The product, if it fits. -/
def mul (a b : Word) : Option Word :=
  if a.toNat * b.toNat < size then some (BitVec.ofNat 256 (a.toNat * b.toNat)) else none

/-- The quotient rounded down, unless the divisor is zero. -/
def div (a b : Word) : Option Word :=
  if b = 0 then none else some (BitVec.ofNat 256 (a.toNat / b.toNat))

/-- The remainder, unless the divisor is zero. -/
def mod (a b : Word) : Option Word :=
  if b = 0 then none else some (BitVec.ofNat 256 (a.toNat % b.toNat))

/-- The smaller of two words. -/
def least (a b : Word) : Word := if a.toNat ≤ b.toNat then a else b

/-- The larger of two words. -/
def greatest (a b : Word) : Word := if a.toNat ≤ b.toNat then b else a

/-! ## Keys and words -/

theorem toNat_lt_size (w : Word) : w.toNat < size := w.isLt

theorem toNat_ofNat_of_lt {n : Nat} (h : n < size) : (BitVec.ofNat 256 n).toNat = n := by
  rw [BitVec.toNat_ofNat]
  exact Nat.mod_eq_of_lt h

/-- A key survives the way into a word and back. -/
theorem toBytes_ofBytes (b : Bytes32) : toBytes (ofBytes b) = b := by
  rw [toBytes, ofBytes, toNat_ofNat_of_lt b.toNat_lt, Bytes32.ofNat_toNat]

theorem ofBytes_toBytes (w : Word) : ofBytes (toBytes w) = w := by
  have h : w.toNat < byteRange 32 := w.toNat_lt_size
  rw [ofBytes, toBytes, Bytes32.toNat_ofNat, Nat.mod_eq_of_lt h, BitVec.ofNat_toNat,
    BitVec.setWidth_eq]

end Word
end UnitSale
