import UnitSale.Reveal.Draws
import Mathlib.Tactic.Common
import Mathlib.Data.List.Nodup
import Mathlib.Data.List.Perm.Basic

/-!
# What a shuffle holds

Whatever the draws are, exchanging slots neither adds nor drops an id: the permutation of a seed has
every id of `1..=n` exactly once.
-/

namespace UnitSale

/-! ## The ids in order -/

/-- The ids `1..=n` in order. -/
def idsUpTo (n : ℕ) : List UInt32 := (List.range n).map fun i => UInt32.ofNat (i + 1)

@[simp] theorem length_idsUpTo (n : ℕ) : (idsUpTo n).length = n := by
  rw [idsUpTo, List.length_map, List.length_range]

/-- Up to the largest id, the id at a position denotes the position, counted from one. -/
theorem toNat_idAt {n i : ℕ} (hn : n < UInt32.size) (hi : i < n) :
    (UInt32.ofNat (i + 1)).toNat = i + 1 := by
  apply UInt32.toNat_ofNat_of_lt'
  omega

/-- An id is among the first `n` exactly when it is from one to `n`. -/
theorem mem_idsUpTo {n : ℕ} (hn : n < UInt32.size) {id : UInt32} :
    id ∈ idsUpTo n ↔ 1 ≤ id.toNat ∧ id.toNat ≤ n := by
  rw [idsUpTo, List.mem_map]
  constructor
  · intro h
    obtain ⟨i, hi, rfl⟩ := h
    rw [List.mem_range] at hi
    rw [toNat_idAt hn hi]
    omega
  · intro h
    refine ⟨id.toNat - 1, ?_, ?_⟩
    · rw [List.mem_range]
      omega
    · have hid : id.toNat - 1 + 1 = id.toNat := by omega
      rw [hid, UInt32.ofNat_toNat]

theorem nodup_idsUpTo {n : ℕ} (hn : n < UInt32.size) : (idsUpTo n).Nodup := by
  refine List.Nodup.map_on ?_ List.nodup_range
  intro i hi j hj hij
  rw [List.mem_range] at hi hj
  have h : (UInt32.ofNat (i + 1)).toNat = (UInt32.ofNat (j + 1)).toNat := by rw [hij]
  rw [toNat_idAt hn hi, toNat_idAt hn hj] at h
  omega

/-! ## Slices -/

/-- Slices of a list without repetitions have nothing in common if one ends before the other begins.
-/
theorem disjoint_slices {α : Type} {l : List α} (h : l.Nodup) {a m b n : ℕ} (hab : a + m ≤ b) :
    ((l.drop a).take m).Disjoint ((l.drop b).take n) := by
  have hdisjoint : (l.take (a + m)).Disjoint (l.drop b) := List.disjoint_take_drop h hab
  rw [List.take_drop]
  exact List.disjoint_of_subset_left (List.drop_subset _ _)
    (List.disjoint_of_subset_right (List.take_subset _ _) hdisjoint)

/-! ## Exchanges -/

theorem swapIfInBounds_perm (ids : Array UInt32) (i j : ℕ) : (ids.swapIfInBounds i j).Perm ids := by
  rw [Array.swapIfInBounds_def]
  split
  · split
    · exact Array.swap_perm _ _
    · exact Array.Perm.rfl
  · exact Array.Perm.rfl

/-- Any number of exchanges keeps all ids. -/
theorem exchangeDown_perm (i : ℕ) (choices : List ℕ) (ids : Array UInt32) :
    (exchangeDown i choices ids).Perm ids := by
  induction i generalizing choices ids with
  | zero => cases choices <;> exact Array.Perm.rfl
  | succ i ih =>
    cases choices with
    | nil => exact Array.Perm.rfl
    | cons choice choices => exact (ih choices _).trans (swapIfInBounds_perm ids (i + 1) choice)

theorem toList_orderedIds (n : ℕ) : (orderedIds n).toList = idsUpTo n := by
  rw [orderedIds, idsUpTo, Array.toList_ofFn]
  apply List.ext_getElem
  · simp
  · intro i h h'
    simp

/-- The permutation of a seed has the ids `1..=n`, each of them once. -/
theorem permutation_perm (seed : Bytes32) (n : UInt32) :
    (permutation seed n).Perm (idsUpTo n.toNat) := by
  have hperm := exchangeDown_perm (n.toNat - 1)
    (choicesOf (n.toNat - 1) (DrawStream.take (n.toNat - 1) (DrawStream.start seed)).1)
    (orderedIds n.toNat)
  rw [Array.perm_iff_toList_perm, toList_orderedIds] at hperm
  exact hperm

theorem length_permutation (seed : Bytes32) (n : UInt32) :
    (permutation seed n).length = n.toNat := by
  rw [(permutation_perm seed n).length_eq, length_idsUpTo]

theorem nodup_permutation (seed : Bytes32) (n : UInt32) : (permutation seed n).Nodup :=
  (permutation_perm seed n).nodup_iff.mpr (nodup_idsUpTo n.toNat_lt)

end UnitSale
