/-!
# Byte strings

Fixed-width integers as bytes in either order, 32-byte values (keys, digests, seeds) and hexadecimal
text.
-/

namespace UnitSale

/-! ## Numbers as bytes -/

/-- How many numbers `width` bytes can hold. -/
def byteRange : (width : Nat) → Nat
  | 0 => 1
  | width + 1 => 256 * byteRange width

/-- The lowest `width` bytes of a number, least significant first. -/
def littleEndian : (width : Nat) → Nat → List UInt8
  | 0, _ => []
  | width + 1, n => UInt8.ofNat n :: littleEndian width (n / 256)

/-- The number that bytes denote, least significant first. -/
def ofLittleEndian : List UInt8 → Nat
  | [] => 0
  | b :: rest => b.toNat + 256 * ofLittleEndian rest

/-- The lowest `width` bytes of a number, most significant first. -/
def bigEndian (width n : Nat) : List UInt8 := (littleEndian width n).reverse

/-- The number that bytes denote, most significant first. -/
def ofBigEndian (bytes : List UInt8) : Nat := ofLittleEndian bytes.reverse

@[simp] theorem length_littleEndian (width n : Nat) : (littleEndian width n).length = width := by
  induction width generalizing n with
  | zero => rfl
  | succ width ih => simp [littleEndian, ih]

@[simp] theorem length_bigEndian (width n : Nat) : (bigEndian width n).length = width := by
  simp [bigEndian]

/-- Writing and reading back keeps a number modulo the width. -/
theorem ofLittleEndian_littleEndian (width n : Nat) :
    ofLittleEndian (littleEndian width n) = n % byteRange width := by
  induction width generalizing n with
  | zero => simp [littleEndian, ofLittleEndian, byteRange, Nat.mod_one]
  | succ width ih =>
    rw [littleEndian, ofLittleEndian, ih, byteRange, Nat.mod_mul]
    simp

/-- Reading and writing back keeps bytes. -/
theorem littleEndian_ofLittleEndian (bytes : List UInt8) :
    littleEndian bytes.length (ofLittleEndian bytes) = bytes := by
  induction bytes with
  | nil => rfl
  | cons b rest ih =>
    have hb := b.toNat_lt
    have hdiv : (b.toNat + 256 * ofLittleEndian rest) / 256 = ofLittleEndian rest := by omega
    rw [List.length_cons, ofLittleEndian, littleEndian, hdiv, ih]
    congr 1
    rw [← UInt8.toNat_inj, UInt8.toNat_ofNat']
    omega

/-- Bytes denote a number that their count can hold. -/
theorem ofLittleEndian_lt (bytes : List UInt8) :
    ofLittleEndian bytes < byteRange bytes.length := by
  induction bytes with
  | nil => simp [ofLittleEndian, byteRange]
  | cons b rest ih =>
    have hb := b.toNat_lt
    rw [ofLittleEndian, List.length_cons, byteRange]
    omega

theorem ofBigEndian_bigEndian (width n : Nat) :
    ofBigEndian (bigEndian width n) = n % byteRange width := by
  simp [ofBigEndian, bigEndian, ofLittleEndian_littleEndian]

theorem bigEndian_ofBigEndian (bytes : List UInt8) :
    bigEndian bytes.length (ofBigEndian bytes) = bytes := by
  have h := littleEndian_ofLittleEndian bytes.reverse
  rw [List.length_reverse] at h
  rw [bigEndian, ofBigEndian, h, List.reverse_reverse]

theorem ofBigEndian_lt (bytes : List UInt8) : ofBigEndian bytes < byteRange bytes.length := by
  have h := ofLittleEndian_lt bytes.reverse
  rwa [List.length_reverse] at h

/-! ## Hexadecimal -/

/-- The lowercase hexadecimal digit of a number below sixteen. -/
def hexDigit (n : Nat) : Char :=
  if n < 10 then Char.ofNat (48 + n) else Char.ofNat (87 + n)

/-- Two lowercase hexadecimal digits per byte. -/
def hex (bytes : List UInt8) : String :=
  String.ofList (bytes.flatMap fun b => [hexDigit (b.toNat / 16), hexDigit (b.toNat % 16)])

/-- The value of a hexadecimal digit in either case. -/
def hexValue? (c : Char) : Option Nat :=
  let n := c.toNat
  if 48 ≤ n ∧ n ≤ 57 then some (n - 48)
  else if 97 ≤ n ∧ n ≤ 102 then some (n - 87)
  else if 65 ≤ n ∧ n ≤ 70 then some (n - 55)
  else none

/-- The bytes that pairs of hexadecimal digits denote. -/
def unhex? : List Char → Option (List UInt8)
  | [] => some []
  | [_] => none
  | high :: low :: rest => do
    let h ← hexValue? high
    let l ← hexValue? low
    return UInt8.ofNat (16 * h + l) :: (← unhex? rest)

/-! ## Values of 32 bytes -/

/-- Thirty-two bytes: a key, a digest, a seed or a secret. -/
abbrev Bytes32 := Vector UInt8 32

namespace Bytes32

/-- All bytes zero. -/
def zero : Bytes32 := Vector.replicate 32 0

/-- The value of exactly 32 bytes. -/
def ofList? (bytes : List UInt8) : Option Bytes32 :=
  if h : bytes.length = 32 then some ⟨bytes.toArray, by simp [h]⟩ else none

/-- The value of 64 hexadecimal digits. -/
def ofHex? (text : String) : Option Bytes32 := (unhex? text.toList).bind ofList?

/-- The lowest 32 bytes of a number, most significant first. -/
def ofNat (n : Nat) : Bytes32 := ⟨(bigEndian 32 n).toArray, by simp⟩

/-- The number that the bytes denote, most significant first. -/
def toNat (b : Bytes32) : Nat := ofBigEndian b.toList

/-- The bytes of a number denote it modulo their range. -/
theorem toNat_ofNat (n : Nat) : (ofNat n).toNat = n % byteRange 32 := by
  rw [toNat, ofNat, Vector.toList_mk, List.toList_toArray, ofBigEndian_bigEndian]

theorem ofNat_toNat (b : Bytes32) : ofNat b.toNat = b := by
  apply Vector.toList_inj.mp
  have h := bigEndian_ofBigEndian b.toList
  rw [Vector.length_toList] at h
  rw [ofNat, toNat, Vector.toList_mk, List.toList_toArray, h]

theorem toNat_lt (b : Bytes32) : b.toNat < byteRange 32 := by
  have h := ofBigEndian_lt b.toList
  rw [Vector.length_toList] at h
  exact h

end Bytes32
end UnitSale
