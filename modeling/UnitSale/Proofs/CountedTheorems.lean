import Mathlib.Algebra.BigOperators.Group.List.Basic
import Mathlib.Algebra.GroupWithZero.Nat
import Mathlib.Data.List.Infix
import UnitSale.Proofs.TableTheorems

/-!
# What counted opcodes compute

A counted opcode folds its words two at a time and fails at the first step that cannot be done.
Over the numbers that the words denote each such fold has a closed form: a sum, a difference, a
product, a quotient by a product, a least or a greatest number. The closed forms say when the fold
fails without running it.
-/

namespace UnitSale

/-! ## Folds over numbers -/

/-- The number, if a word can denote it. -/
def Word.fits (n : Nat) : Option Nat := if n < size then some n else none

namespace Counted

variable {a : Nat}

/-- Sums that are checked one by one are checked as a whole: they only grow. -/
theorem foldlM_add (ha : a < Word.size) (as : List Nat) :
    as.foldlM (fun x y => Word.fits (x + y)) a = Word.fits (a + as.sum) := by
  induction as generalizing a with
  | nil => rw [List.foldlM_nil, List.sum_nil, Nat.add_zero, Word.fits, if_pos ha]; rfl
  | cons b bs ih =>
    rw [List.foldlM_cons, List.sum_cons, ← Nat.add_assoc]
    by_cases hfits : a + b < Word.size
    · rw [Word.fits, if_pos hfits]
      exact ih hfits
    · have hsum : ¬ a + b + bs.sum < Word.size := by omega
      rw [Word.fits, if_neg hfits, Word.fits, if_neg hsum]
      rfl

/-- Differences that are checked one by one are checked as a whole: they only shrink. -/
theorem foldlM_sub (as : List Nat) :
    as.foldlM (fun x y => if y ≤ x then some (x - y) else none) a
      = if as.sum ≤ a then some (a - as.sum) else none := by
  induction as generalizing a with
  | nil => rfl
  | cons b bs ih =>
    rw [List.foldlM_cons, List.sum_cons]
    by_cases hle : b ≤ a
    · rw [if_pos hle, Option.bind_eq_bind, Option.bind_some, ih, Nat.sub_sub]
      congr 1
      rw [Nat.le_sub_iff_add_le hle, Nat.add_comm]
    · have hsum : ¬ b + bs.sum ≤ a := by omega
      rw [if_neg hle, if_neg hsum]
      rfl

/-- Differences that stop at zero stay there. -/
theorem foldl_sub (as : List Nat) : as.foldl (· - ·) a = a - as.sum := by
  induction as generalizing a with
  | nil => rfl
  | cons b bs ih => rw [List.foldl_cons, ih, List.sum_cons, Nat.sub_sub]

/-- Products are checked at every prefix: a zero to come does not undo an overflow. -/
theorem foldlM_mul (ha : a < Word.size) (as : List Nat) :
    as.foldlM (fun x y => Word.fits (x * y)) a
      = if ∀ before ∈ as.inits, a * before.prod < Word.size then some (a * as.prod) else none := by
  induction as generalizing a with
  | nil => simp [ha]
  | cons b bs ih =>
    have hprefixes : (∀ before ∈ (b :: bs).inits, a * before.prod < Word.size)
        ↔ ∀ before ∈ bs.inits, a * b * before.prod < Word.size := by
      simp [ha, Nat.mul_assoc]
    rw [List.foldlM_cons, List.prod_cons, ← Nat.mul_assoc]
    by_cases hfits : a * b < Word.size
    · rw [Word.fits, if_pos hfits]
      simp only [hprefixes]
      exact ih hfits
    · have hfirst : ¬ ∀ before ∈ bs.inits, a * b * before.prod < Word.size := fun hall =>
        hfits (by simpa using hall [] ((List.mem_inits _ _).mpr List.nil_prefix))
      rw [Word.fits, if_neg hfits, if_neg (hprefixes.not.mpr hfirst)]
      rfl

/-- Rounding down at every division is rounding down once. -/
theorem foldlM_div (as : List Nat) :
    as.foldlM (fun x y => if y = 0 then none else some (x / y)) a
      = if 0 ∈ as then none else some (a / as.prod) := by
  induction as generalizing a with
  | nil => simp
  | cons b bs ih =>
    rw [List.foldlM_cons, List.prod_cons]
    by_cases hzero : b = 0
    · rw [if_pos hzero, if_pos (List.mem_cons.mpr (.inl hzero.symm))]
      rfl
    · have hmem : 0 ∈ b :: bs ↔ 0 ∈ bs := by simp [Ne.symm hzero]
      rw [if_neg hzero, Option.bind_eq_bind, Option.bind_some, ih, Nat.div_div_eq_div_mul]
      simp only [hmem]

/-- Remainders are taken from left to right. -/
theorem foldlM_mod (as : List Nat) :
    as.foldlM (fun x y => if y = 0 then none else some (x % y)) a
      = if 0 ∈ as then none else some (as.foldl (· % ·) a) := by
  induction as generalizing a with
  | nil => simp
  | cons b bs ih =>
    rw [List.foldlM_cons, List.foldl_cons]
    by_cases hzero : b = 0
    · rw [if_pos hzero, if_pos (List.mem_cons.mpr (.inl hzero.symm))]
      rfl
    · have hmem : 0 ∈ b :: bs ↔ 0 ∈ bs := by simp [Ne.symm hzero]
      rw [if_neg hzero, Option.bind_eq_bind, Option.bind_some, ih]
      simp only [hmem]

theorem foldl_mod_le (as : List Nat) : as.foldl (· % ·) a ≤ a := by
  induction as generalizing a with
  | nil => exact Nat.le_refl a
  | cons b bs ih => exact Nat.le_trans ih (Nat.mod_le a b)

/-- The last remainder is below every divisor. -/
theorem foldl_mod_lt {as : List Nat} (hzero : 0 ∉ as) : ∀ d ∈ as, as.foldl (· % ·) a < d := by
  induction as generalizing a with
  | nil => exact fun d hmem => absurd hmem List.not_mem_nil
  | cons b bs ih =>
    obtain ⟨hb, hbs⟩ := not_or.mp (List.mem_cons.not.mp hzero)
    intro d hmem
    rw [List.foldl_cons]
    rcases List.mem_cons.mp hmem with rfl | hlater
    · -- what is left after the first division only shrinks from there
      exact Nat.lt_of_le_of_lt (foldl_mod_le bs) (Nat.mod_lt a (by omega))
    · exact ih hbs d hlater

end Counted

/-! ## From words to numbers -/

namespace Word

/-- What `f` makes of two words is denoted by what `g` makes of their numbers. -/
def Denoted (f : Word → Word → Option Word) (g : Nat → Nat → Option Nat) : Prop :=
  ∀ x y, (f x y).map BitVec.toNat = g x.toNat y.toNat

/-- The same for what cannot fail. -/
def DenotedAlways (f : Word → Word → Word) (g : Nat → Nat → Nat) : Prop :=
  ∀ x y, (f x y).toNat = g x.toNat y.toNat

/-- A number that is not above the one a word denotes is denoted by a word. -/
theorem toNat_ofNat_of_le (x : Word) {n : Nat} (h : n ≤ x.toNat) : (BitVec.ofNat 256 n).toNat = n :=
  toNat_ofNat_of_lt (Nat.lt_of_le_of_lt h x.toNat_lt_size)

theorem eq_zero_iff (x : Word) : x = 0 ↔ x.toNat = 0 := by
  rw [← BitVec.toNat_inj]
  rfl

theorem denoted_add : Denoted add fun x y => fits (x + y) := by
  intro x y
  by_cases hfits : x.toNat + y.toNat < size
  · simp only [add, fits, if_pos hfits, Option.map_some, toNat_ofNat_of_lt hfits]
  · simp only [add, fits, if_neg hfits, Option.map_none]

theorem denoted_mul : Denoted mul fun x y => fits (x * y) := by
  intro x y
  by_cases hfits : x.toNat * y.toNat < size
  · simp only [mul, fits, if_pos hfits, Option.map_some, toNat_ofNat_of_lt hfits]
  · simp only [mul, fits, if_neg hfits, Option.map_none]

theorem denoted_sub : Denoted sub fun x y => if y ≤ x then some (x - y) else none := by
  intro x y
  by_cases hle : y.toNat ≤ x.toNat
  · simp only [sub, if_pos hle, Option.map_some, x.toNat_ofNat_of_le (Nat.sub_le _ _)]
  · simp only [sub, if_neg hle, Option.map_none]

theorem denoted_monus : DenotedAlways monus (· - ·) := fun x _ =>
  x.toNat_ofNat_of_le (Nat.sub_le _ _)

theorem denoted_div : Denoted div fun x y => if y = 0 then none else some (x / y) := by
  intro x y
  by_cases hzero : y.toNat = 0
  · simp only [div, eq_zero_iff, if_pos hzero, Option.map_none]
  · simp only [div, eq_zero_iff, if_neg hzero, Option.map_some,
      x.toNat_ofNat_of_le (Nat.div_le_self _ _)]

theorem denoted_mod : Denoted mod fun x y => if y = 0 then none else some (x % y) := by
  intro x y
  by_cases hzero : y.toNat = 0
  · simp only [mod, eq_zero_iff, if_pos hzero, Option.map_none]
  · simp only [mod, eq_zero_iff, if_neg hzero, Option.map_some,
      x.toNat_ofNat_of_le (Nat.mod_le _ _)]

theorem denoted_least : DenotedAlways least min := by
  intro x y
  unfold least
  split <;> omega

theorem denoted_greatest : DenotedAlways greatest max := by
  intro x y
  unfold greatest
  split <;> omega

theorem bne_zero (x : Word) : (x != 0) = (x.toNat != 0) := by
  rw [Bool.eq_iff_iff, bne_iff_ne, bne_iff_ne, Ne, eq_zero_iff]

theorem toNat_ofBool (b : Bool) : (ofBool b).toNat = if b then 1 else 0 := by
  cases b <;> rfl

/-- A fold over words that can fail is the fold over their numbers. -/
theorem toNat_foldlM {f : Word → Word → Option Word} {g : Nat → Nat → Option Nat}
    (h : Word.Denoted f g) (first : Word) (rest : List Word) :
    (rest.foldlM f first).map BitVec.toNat = (rest.map BitVec.toNat).foldlM g first.toNat := by
  induction rest generalizing first with
  | nil => rfl
  | cons next rest ih =>
    rw [List.map_cons, List.foldlM_cons, List.foldlM_cons, ← h]
    cases f first next with
    | none => rfl
    | some between => exact ih between

/-- A fold over words that cannot fail is the fold over their numbers. -/
theorem toNat_foldl {f : Word → Word → Word} {g : Nat → Nat → Nat}
    (h : Word.DenotedAlways f g) (first : Word) (rest : List Word) :
    (rest.foldl f first).toNat = (rest.map BitVec.toNat).foldl g first.toNat := by
  rw [List.foldl_map]
  exact (List.foldl_hom BitVec.toNat fun x y => (h x y).symm).symm

end Word

/-! ## Handlers -/

namespace Script

/-- The numbers that the top `n` words of a stack denote, in the order they were pushed. -/
def topNumbers (s : Stack) (n : Nat) : List Nat := (s.take n).reverse.map BitVec.toNat

/-- A piece of a run comes to a number or a cause: it puts the word of the number in the place of
the top `n` words and leaves the others alone, or it fails with the cause. -/
def Yields (x : Exec Unit) (s : Stack) (n : Nat) : Except ScriptError Nat → Prop
  | .ok value => ∃ word : Word, word.toNat = value ∧ x s = .ok () (word :: s.drop n)
  | .error cause => ∃ left, x s = .error cause left

section Handlers

variable {H : Type} {n : UInt16} {s : Stack} {a : Nat} {as : List Nat}

/-- Where the stack can be held at all, there is room for one word in the place of some. -/
theorem push_drop {count : Nat} (value : Word) (hroom : s.length ≤ maxStackDepth) (hpos : count ≠ 0)
    (hle : count ≤ s.length) : push value (s.drop count) = .ok () (value :: s.drop count) := by
  have hlt : (s.drop count).length < maxStackDepth := by
    rw [List.length_drop]
    omega
  rw [push, if_pos hlt]

/-- Some number on top means that some word was taken. -/
theorem count_ne_zero (htop : topNumbers s n.toNat = a :: as) : n.toNat ≠ 0 := by
  intro hzero
  rw [hzero] at htop
  cases htop

/-- The numbers on top are those of a first word and of the words pushed after it. -/
theorem topNumbers_cons (htop : topNumbers s n.toNat = a :: as) :
    ∃ first rest, (s.take n.toNat).reverse = first :: rest ∧ first.toNat = a ∧
      rest.map BitVec.toNat = as :=
  List.map_eq_cons_iff.mp htop

variable (inputs : Inputs H) (hroom : s.length ≤ maxStackDepth) (hle : n.toNat ≤ s.length)
  (htop : topNumbers s n.toNat = a :: as)

include hroom hle htop

theorem foldTop_yields {f : Word → Word → Option Word} {g : Nat → Nat → Option Nat}
    (h : Word.Denoted f g) (cause : ScriptError) :
    Yields (foldTop f cause inputs n) s n.toNat (demand (as.foldlM g a) cause) := by
  obtain ⟨first, rest, hwords, rfl, rfl⟩ := topNumbers_cons htop
  have hrun : foldTop f cause inputs n s
      = (demand (rest.foldlM f first) cause >>= push : Exec Unit) (s.drop n.toNat) := by
    unfold foldTop
    rw [popMany_bind_of_le _ (count_ne_zero htop) hle, hwords]
  rw [← Word.toNat_foldlM h]
  cases hfold : rest.foldlM f first with
  | none =>
    rw [hfold] at hrun
    exact ⟨_, hrun⟩
  | some word =>
    rw [hfold] at hrun
    exact ⟨word, rfl, hrun.trans (push_drop word hroom (count_ne_zero htop) hle)⟩

/-- A fold that cannot fail yields what the fold over the numbers comes to. -/
theorem mergeTop_yields {f : Word → Word → Word} {g : Nat → Nat → Nat}
    (h : Word.DenotedAlways f g) :
    Yields (mergeTop f inputs n) s n.toNat (.ok (as.foldl g a)) := by
  obtain ⟨first, rest, hwords, rfl, rfl⟩ := topNumbers_cons htop
  refine ⟨rest.foldl f first, Word.toNat_foldl h first rest, ?_⟩
  unfold mergeTop
  rw [popMany_bind_of_le _ (count_ne_zero htop) hle, hwords]
  exact push_drop _ hroom (count_ne_zero htop) hle

theorem testEvery_yields : Yields (testEvery inputs n) s n.toNat
    (.ok (if ∀ m ∈ a :: as, m ≠ 0 then 1 else 0)) := by
  refine ⟨Word.ofBool ((s.take n.toNat).reverse.all fun v => v != 0), ?_, ?_⟩
  · have hall : ((s.take n.toNat).reverse.all fun v => v != 0) = (a :: as).all (· != 0) := by
      rw [← htop, topNumbers, List.all_map]
      exact congrArg _ (funext Word.bne_zero)
    rw [Word.toNat_ofBool, hall]
    simp only [List.all_eq_true, bne_iff_ne]
  · unfold testEvery
    rw [popMany_bind_of_le _ (count_ne_zero htop) hle]
    exact push_drop _ hroom (count_ne_zero htop) hle

theorem testAny_yields : Yields (testAny inputs n) s n.toNat
    (.ok (if ∃ m ∈ a :: as, m ≠ 0 then 1 else 0)) := by
  refine ⟨Word.ofBool ((s.take n.toNat).reverse.any fun v => v != 0), ?_, ?_⟩
  · have hany : ((s.take n.toNat).reverse.any fun v => v != 0) = (a :: as).any (· != 0) := by
      rw [← htop, topNumbers, List.any_map]
      exact congrArg _ (funext Word.bne_zero)
    rw [Word.toNat_ofBool, hany]
    simp only [List.any_eq_true, bne_iff_ne]
  · unfold testAny
    rw [popMany_bind_of_le _ (count_ne_zero htop) hle]
    exact push_drop _ hroom (count_ne_zero htop) hle

end Handlers

/-- A demand of what a condition decides is decided by it. -/
theorem demand_ite {p : Prop} [Decidable p] (x y : Option Nat) (cause : ScriptError) :
    (demand (if p then x else y) cause : Except ScriptError Nat)
      = if p then demand x cause else demand y cause :=
  apply_ite (fun value => demand value cause) p x y

end Script

open Script

/-- Counted opcodes compute their n-ary meaning, over numbers without bound and whatever the host
adds to the standard opcodes. The top `n` words, in the order they were pushed, are `a` and `as`;
the stack is one that the machine can hold. Either exactly these words are replaced by the word of
the one result, or the step fails with the cause given. Differences are those of natural numbers,
so without a condition they stop at zero. -/
theorem counted_opcodes_compute {H : Type} [Clock H] (host : List (Opcode H)) (inputs : Inputs H)
    (n : UInt16) (s : Stack) (a : Nat) (as : List Nat) (hroom : s.length ≤ maxStackDepth)
    (hle : n.toNat ≤ s.length) (htop : topNumbers s n.toNat = a :: as) :
    let t : Table H := ⟨standardOpcodes, host⟩
    Yields (t.call inputs "add" n) s n.toNat
      (if a + as.sum < Word.size then .ok (a + as.sum) else .error .arithmeticOverflow) ∧
    Yields (t.call inputs "sub" n) s n.toNat
      (if as.sum ≤ a then .ok (a - as.sum) else .error .arithmeticOverflow) ∧
    Yields (t.call inputs "saturating_sub" n) s n.toNat (.ok (a - as.sum)) ∧
    Yields (t.call inputs "mul" n) s n.toNat
      (if ∀ before ∈ (a :: as).inits, before.prod < Word.size then .ok (a :: as).prod
        else .error .arithmeticOverflow) ∧
    Yields (t.call inputs "div" n) s n.toNat
      (if 0 ∈ as then .error .divisionByZero else .ok (a / as.prod)) ∧
    (Yields (t.call inputs "mod" n) s n.toNat
        (if 0 ∈ as then .error .divisionByZero else .ok (as.foldl (· % ·) a)) ∧
      (0 ∉ as → ∀ d ∈ as, as.foldl (· % ·) a < d)) ∧
    (∃ least ∈ a :: as, (∀ m ∈ a :: as, least ≤ m) ∧
      Yields (t.call inputs "min" n) s n.toNat (.ok least)) ∧
    (∃ greatest ∈ a :: as, (∀ m ∈ a :: as, m ≤ greatest) ∧
      Yields (t.call inputs "max" n) s n.toNat (.ok greatest)) ∧
    Yields (t.call inputs "every" n) s n.toNat (.ok (if ∀ m ∈ a :: as, m ≠ 0 then 1 else 0)) ∧
    Yields (t.call inputs "any" n) s n.toNat (.ok (if ∃ m ∈ a :: as, m ≠ 0 then 1 else 0)) := by
  have ha : a < Word.size := by
    obtain ⟨first, _, _, rfl, _⟩ := topNumbers_cons htop
    exact first.toNat_lt_size
  refine ⟨?add, ?sub, ?saturating, ?mul, ?div, ⟨?mod, Counted.foldl_mod_lt⟩, ?min, ?max, ?every,
    ?any⟩
  case add =>
    have h := foldTop_yields inputs hroom hle htop Word.denoted_add .arithmeticOverflow
    rwa [Counted.foldlM_add ha, Word.fits, demand_ite] at h
  case sub =>
    have h := foldTop_yields inputs hroom hle htop Word.denoted_sub .arithmeticOverflow
    rwa [Counted.foldlM_sub, demand_ite] at h
  case saturating =>
    have h := mergeTop_yields inputs hroom hle htop Word.denoted_monus
    rwa [Counted.foldl_sub] at h
  case mul =>
    have h := foldTop_yields inputs hroom hle htop Word.denoted_mul .arithmeticOverflow
    have hprefixes : (∀ before ∈ as.inits, a * before.prod < Word.size)
        ↔ ∀ before ∈ (a :: as).inits, before.prod < Word.size := by
      have hone : 1 < Word.size := by decide
      simp [hone]
    rw [Counted.foldlM_mul ha, demand_ite] at h
    simp only [hprefixes] at h
    exact h
  case div =>
    have h := foldTop_yields inputs hroom hle htop Word.denoted_div .divisionByZero
    rwa [Counted.foldlM_div, demand_ite] at h
  case mod =>
    have h := foldTop_yields inputs hroom hle htop Word.denoted_mod .divisionByZero
    rwa [Counted.foldlM_mod, demand_ite] at h
  case min =>
    have hfold : (a :: as).min? = some (as.foldl min a) := List.min?_cons'
    obtain ⟨hmem, hleast⟩ := List.min?_eq_some_iff.mp hfold
    exact ⟨_, hmem, hleast, mergeTop_yields inputs hroom hle htop Word.denoted_least⟩
  case max =>
    have hfold : (a :: as).max? = some (as.foldl max a) := List.max?_cons'
    obtain ⟨hmem, hgreatest⟩ := List.max?_eq_some_iff.mp hfold
    exact ⟨_, hmem, hgreatest, mergeTop_yields inputs hroom hle htop Word.denoted_greatest⟩
  case every => exact testEvery_yields inputs hroom hle htop
  case any => exact testAny_yields inputs hroom hle htop

/-- Two words that are too large to be multiplied overflow though a zero follows, and the word below
them does not matter. -/
theorem counted_opcodes_compute_before_zero :
    let s : Stack := [0, 1 <<< 200, 1 <<< 200, 9]
    let inputs : Inputs Snapshot := ⟨[], [], ⟨100, 0, 0, 0, 0, 0, none⟩⟩
    s.length ≤ maxStackDepth ∧ topNumbers s 3 = 1 <<< 200 :: [1 <<< 200, 0] ∧
      Yields (Sale.table.call inputs "mul" 3) s 3 (.error .arithmeticOverflow) := by
  intro s inputs
  have hroom : s.length ≤ maxStackDepth := by decide
  have htop : topNumbers s 3 = 1 <<< 200 :: [1 <<< 200, 0] := by decide +kernel
  obtain ⟨-, -, -, hmul, -⟩ := counted_opcodes_compute Sale.opcodes inputs 3 s (1 <<< 200)
    [1 <<< 200, 0] hroom (by decide) htop
  rw [if_neg (by decide)] at hmul
  exact ⟨hroom, htop, hmul⟩

end UnitSale
