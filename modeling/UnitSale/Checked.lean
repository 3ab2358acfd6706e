/-!
# Checked and saturating arithmetic

Sums, differences and products of 64-bit integers that report whether the exact result fits, and the
saturating forms that stop at the end of the range instead. Unsigned amounts are `UInt64`, times are
`Int64`.
-/

namespace UnitSale
namespace Checked

/-! ## Unsigned amounts -/

/-- The sum of two amounts, if it fits. -/
def add (a b : UInt64) : Option UInt64 :=
  if a.toNat + b.toNat < UInt64.size then some (a + b) else none

/-- The difference of two amounts, if it is not negative. -/
def sub (a b : UInt64) : Option UInt64 :=
  if b ≤ a then some (a - b) else none

/-- The product of two amounts, if it fits. -/
def mul (a b : UInt64) : Option UInt64 :=
  if a.toNat * b.toNat < UInt64.size then some (a * b) else none

/-- The product of two numbers, if it fits in 128 bits. -/
def mulWide (a b : Nat) : Option Nat :=
  if a * b < 340282366920938463463374607431768211456 then some (a * b) else none

/-- The difference of two amounts, or zero where it would be negative. -/
def monus (a b : UInt64) : UInt64 :=
  if b ≤ a then a - b else 0

/-- The largest amount. -/
def maxAmount : UInt64 := 18446744073709551615

/-- The smaller of two amounts. -/
def least (a b : UInt64) : UInt64 :=
  if a ≤ b then a else b

/-! ## Signed times -/

/-- The exact integer as a time, if it fits. -/
def ofInt? (i : Int) : Option Int64 :=
  if -9223372036854775808 ≤ i ∧ i < 9223372036854775808 then some (Int64.ofInt i) else none

/-- The time nearest to the exact integer. -/
def clamp (i : Int) : Int64 :=
  if i < -9223372036854775808 then Int64.ofInt (-9223372036854775808)
  else if 9223372036854775808 ≤ i then Int64.ofInt 9223372036854775807
  else Int64.ofInt i

/-- The sum of two times, if it fits. -/
def addTime (a b : Int64) : Option Int64 := ofInt? (a.toInt + b.toInt)

/-- The sum of two times, held inside the range. -/
def clampedAdd (a b : Int64) : Int64 := clamp (a.toInt + b.toInt)

/-- The difference of two times, held inside the range. -/
def clampedSub (a b : Int64) : Int64 := clamp (a.toInt - b.toInt)

/-! ## What the results denote -/

/-- A number in the range of amounts is what some amount denotes. -/
theorem exists_amount {n : Nat} (h : n < UInt64.size) : ∃ a : UInt64, n = a.toNat :=
  ⟨UInt64.ofNat n, (UInt64.toNat_ofNat_of_lt' h).symm⟩

/-- A sum comes out exactly when it is the sum of the numbers. -/
theorem add_eq_some_iff {a b c : UInt64} : add a b = some c ↔ a.toNat + b.toNat = c.toNat := by
  have hc := c.toNat_lt
  rw [add]
  split
  · rename_i h
    rw [Option.some.injEq, ← UInt64.toNat_inj, UInt64.toNat_add, Nat.mod_eq_of_lt h]
  · rename_i h
    simp only [UInt64.size] at h
    constructor
    · intro h'; simp at h'
    · intro h'; omega

/-- A difference comes out exactly when adding it back gives the number. -/
theorem sub_eq_some_iff {a b c : UInt64} : sub a b = some c ↔ a.toNat = b.toNat + c.toNat := by
  rw [sub]
  split
  · rename_i h
    rw [Option.some.injEq, ← UInt64.toNat_inj, UInt64.toNat_sub_of_le _ _ h]
    have := UInt64.le_iff_toNat_le.mp h
    omega
  · rename_i h
    rw [UInt64.le_iff_toNat_le] at h
    constructor
    · intro h'; simp at h'
    · intro h'; omega

theorem mul_eq_some_iff {a b c : UInt64} : mul a b = some c ↔ a.toNat * b.toNat = c.toNat := by
  have hc := c.toNat_lt
  rw [mul]
  split
  · rename_i h
    rw [Option.some.injEq, ← UInt64.toNat_inj, UInt64.toNat_mul, Nat.mod_eq_of_lt h]
  · rename_i h
    simp only [UInt64.size] at h
    constructor
    · intro h'; simp at h'
    · intro h'; omega

theorem toNat_monus (a b : UInt64) : (monus a b).toNat = a.toNat - b.toNat := by
  rw [monus]
  split
  · rename_i h
    exact UInt64.toNat_sub_of_le _ _ h
  · rename_i h
    rw [UInt64.le_iff_toNat_le] at h
    simp only [UInt64.toNat_ofNat, Nat.zero_mod]
    omega

theorem toNat_least (a b : UInt64) : (least a b).toNat = min a.toNat b.toNat := by
  rw [least]
  split
  · rename_i h
    rw [UInt64.le_iff_toNat_le] at h
    omega
  · rename_i h
    rw [UInt64.le_iff_toNat_le] at h
    omega

theorem toInt_ofInt {i : Int} (hlo : -9223372036854775808 ≤ i) (hhi : i < 9223372036854775808) :
    (Int64.ofInt i).toInt = i := Int64.toInt_ofInt_of_le hlo hhi

theorem addTime_eq_some_iff {a b c : Int64} :
    addTime a b = some c ↔ a.toInt + b.toInt = c.toInt := by
  have hlo := c.le_toInt
  have hhi := c.toInt_lt
  rw [addTime, ofInt?]
  split
  · rename_i h
    rw [Option.some.injEq, ← Int64.toInt_inj, toInt_ofInt h.1 h.2]
  · rename_i h
    constructor
    · intro h'; simp at h'
    · intro h'; omega

/-- The nearest time is the integer itself, or the end of the range that it is beyond. -/
theorem toInt_clamp (i : Int) :
    (clamp i).toInt = max (-9223372036854775808) (min i 9223372036854775807) := by
  rw [clamp]
  split
  · rw [toInt_ofInt (by omega) (by omega)]
    omega
  · split
    · rw [toInt_ofInt (by omega) (by omega)]
      omega
    · rw [toInt_ofInt (by omega) (by omega)]
      omega

end Checked
end UnitSale
