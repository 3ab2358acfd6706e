import UnitSale.Chain.Registry
import Mathlib.Tactic.Common
import Mathlib.Algebra.Order.BigOperators.Group.List
import Mathlib.Algebra.Order.Ring.Nat

/-!
# Totals over registries

A total adds up a weight over all entries of a registry. Setting a key changes it by the new weight
less the weight of what stood there before, which is all that sums over many accounts need to know
about a step that writes one of them.
-/

namespace UnitSale

variable {κ ν : Type} [DecidableEq κ]

/-! ## Entries -/

theorem assignEntry_assignEntry (key : κ) (first second : ν) (entries : List (κ × ν)) :
    assignEntry key second (assignEntry key first entries) = assignEntry key second entries := by
  induction entries with
  | nil => simp [assignEntry]
  | cons e rest ih =>
    by_cases h : e.1 = key
    · simp [assignEntry, h]
    · simp [assignEntry, h, ih]

theorem assignEntry_of_lookup {key : κ} {value : ν} {entries : List (κ × ν)}
    (h : entries.lookup key = some value) : assignEntry key value entries = entries := by
  induction entries with
  | nil => cases h
  | cons e rest ih =>
    obtain ⟨k, v⟩ := e
    rw [assignEntry]
    split
    · rename_i hk
      subst hk
      rw [List.lookup_cons_self] at h
      rw [Option.some.inj h]
    · rename_i hk
      rw [lookup_cons_of_ne hk] at h
      rw [ih h]

/-- Assigning a key trades the weight of its old value for that of the new one. -/
theorem sum_assignEntry (weight : κ → ν → ℕ) (key : κ) (value : ν) (entries : List (κ × ν)) :
    ((assignEntry key value entries).map fun e => weight e.1 e.2).sum
        + ((entries.lookup key).map (weight key)).getD 0
      = (entries.map fun e => weight e.1 e.2).sum + weight key value := by
  induction entries with
  | nil => simp [assignEntry]
  | cons e rest ih =>
    obtain ⟨k, v⟩ := e
    by_cases h : k = key
    · subst h
      simp only [assignEntry, List.lookup_cons_self, if_true, List.map_cons, List.sum_cons,
        Option.map_some, Option.getD_some]
      omega
    · simp only [assignEntry, lookup_cons_of_ne h, h, if_false, List.map_cons, List.sum_cons]
      omega

namespace Registry

theorem find?_set (r : Registry κ ν) (key other : κ) (value : ν) :
    (r.set key value).find? other = if other = key then some value else r.find? other := by
  by_cases h : other = key
  · subst h
    rw [find?_set_self, if_pos rfl]
  · rw [find?_set_of_ne r h, if_neg h]

/-- What holds of all entries still does after a key was set to a value of which it holds. -/
theorem forall_find?_set {r : Registry κ ν} {P : κ → ν → Prop} {key : κ} {value : ν}
    (h : ∀ k v, r.find? k = some v → P k v) (hnew : P key value) :
    ∀ k v, (r.set key value).find? k = some v → P k v := by
  intro k v hv
  rw [find?_set] at hv
  split at hv
  · next hk =>
    subst hk
    obtain rfl := Option.some.inj hv
    exact hnew
  · exact h k v hv

theorem eq_of_find? {r : Registry κ ν} {key : κ} {value value' : ν}
    (h : r.find? key = some value) (h' : r.find? key = some value') : value = value' :=
  Option.some.inj (h.symm.trans h')

@[simp] theorem set_set (r : Registry κ ν) (key : κ) (first second : ν) :
    (r.set key first).set key second = r.set key second := by
  simp only [set, assignEntry_assignEntry]

theorem set_of_find? {r : Registry κ ν} {key : κ} {value : ν} (h : r.find? key = some value) :
    r.set key value = r := by
  have hentries : assignEntry key value r.entries = r.entries := assignEntry_of_lookup h
  simp only [set, hentries]

theorem contains_eq_false_iff {r : Registry κ ν} {key : κ} :
    r.contains key = false ↔ r.find? key = none := by
  rw [contains, Option.isSome_eq_false_iff, Option.isNone_iff_eq_none]

/-! ## Totals -/

/-- A weight added up over all entries. -/
def total (r : Registry κ ν) (weight : κ → ν → ℕ) : ℕ :=
  (r.entries.map fun e => weight e.1 e.2).sum

theorem total_set_of_none {r : Registry κ ν} {key : κ} (h : r.find? key = none)
    (weight : κ → ν → ℕ) (value : ν) :
    (r.set key value).total weight = r.total weight + weight key value := by
  have hsum := sum_assignEntry weight key value r.entries
  have hnone : r.entries.lookup key = none := h
  rw [hnone] at hsum
  exact hsum

/-- A key that is set again trades its weight. -/
theorem total_set_of_some {r : Registry κ ν} {key : κ} {old : ν} (h : r.find? key = some old)
    (weight : κ → ν → ℕ) (value : ν) :
    (r.set key value).total weight + weight key old = r.total weight + weight key value := by
  have hsum := sum_assignEntry weight key value r.entries
  have hsome : r.entries.lookup key = some old := h
  rw [hsome] at hsum
  exact hsum

/-- A key that is set again with the same weight leaves the total as it was. -/
theorem total_set_eq {r : Registry κ ν} {key : κ} {old value : ν} (h : r.find? key = some old)
    {weight : κ → ν → ℕ} (hw : weight key value = weight key old) :
    (r.set key value).total weight = r.total weight := by
  have hset := total_set_of_some h weight value
  omega

theorem total_congr {r : Registry κ ν} {weight weight' : κ → ν → ℕ}
    (h : ∀ key value, r.find? key = some value → weight key value = weight' key value) :
    r.total weight = r.total weight' := by
  unfold total
  congr 1
  exact List.map_congr_left fun e he => h e.1 e.2 (find?_eq_some_iff.mpr he)

omit [DecidableEq κ] in
theorem total_add (r : Registry κ ν) (weight weight' : κ → ν → ℕ) :
    (r.total fun k v => weight k v + weight' k v) = r.total weight + r.total weight' := by
  exact List.sum_map_add

theorem total_eq_zero {r : Registry κ ν} {weight : κ → ν → ℕ}
    (h : ∀ key value, r.find? key = some value → weight key value = 0) : r.total weight = 0 := by
  rw [total_congr h, total, List.map_const', List.sum_replicate_nat, Nat.mul_zero]

theorem weight_eq_zero {r : Registry κ ν} {weight : κ → ν → ℕ} (h : r.total weight = 0) {key : κ}
    {value : ν} (hvalue : r.find? key = some value) : weight key value = 0 :=
  List.sum_eq_zero_iff.mp h _ (List.mem_map.mpr ⟨_, find?_eq_some_iff.mp hvalue, rfl⟩)

theorem weight_le_total {r : Registry κ ν} {key : κ} {value : ν} (h : r.find? key = some value)
    (weight : κ → ν → ℕ) : weight key value ≤ r.total weight :=
  List.le_sum_of_mem (List.mem_map.mpr ⟨_, find?_eq_some_iff.mp h, rfl⟩)

/-! ## Totals over part of a registry -/

section Part

variable {r : Registry κ ν} {key : κ} {value : ν} {p : ν → Prop} [DecidablePred p]
  {figure figure' : ν → ℕ}

/-- A figure added up over the values that satisfy a condition. -/
def totalOf (r : Registry κ ν) (p : ν → Prop) [DecidablePred p] (figure : ν → ℕ) : ℕ :=
  r.total fun _ value => if p value then figure value else 0

/-- Setting a key to a value that counts, where one that counts or none stood, trades their figures.
-/
theorem totalOf_set (p : ν → Prop) [DecidablePred p] (figure : ν → ℕ)
    (hold : ∀ old, r.find? key = some old → p old) (hnew : p value) :
    (r.set key value).totalOf p figure + ((r.find? key).map figure).getD 0
      = r.totalOf p figure + figure value := by
  unfold totalOf
  cases hfound : r.find? key with
  | none =>
    rw [total_set_of_none hfound, if_pos hnew, Option.map_none, Option.getD_none, Nat.add_zero]
  | some old =>
    have hset := total_set_of_some hfound (fun _ v => if p v then figure v else 0) value
    rw [if_pos (hold old hfound), if_pos hnew] at hset
    exact hset

/-- Setting a key to a value that does not count, where none that counts stood, changes nothing. -/
theorem totalOf_set_of_not (hold : ∀ old, r.find? key = some old → ¬ p old) (hnew : ¬ p value) :
    (r.set key value).totalOf p figure = r.totalOf p figure := by
  unfold totalOf
  cases hfound : r.find? key with
  | none => rw [total_set_of_none hfound, if_neg hnew, Nat.add_zero]
  | some old =>
    apply total_set_eq hfound
    rw [if_neg hnew, if_neg (hold old hfound)]

theorem totalOf_congr (h : ∀ key value, r.find? key = some value → p value →
    figure value = figure' value) : r.totalOf p figure = r.totalOf p figure' := by
  apply total_congr
  intro key value hvalue
  split
  · next hp => exact h key value hvalue hp
  · rfl

omit [DecidableEq κ] in
theorem totalOf_add (r : Registry κ ν) (p : ν → Prop) [DecidablePred p] (figure figure' : ν → ℕ) :
    (r.totalOf p fun value => figure value + figure' value)
      = r.totalOf p figure + r.totalOf p figure' := by
  unfold totalOf
  rw [← total_add]
  congr 1
  funext _ value
  split <;> rfl

theorem figure_eq_zero (h : r.totalOf p figure = 0) (hvalue : r.find? key = some value)
    (hp : p value) : figure value = 0 := by
  have hzero := weight_eq_zero h hvalue
  rw [if_pos hp] at hzero
  exact hzero

theorem figure_le_totalOf (hvalue : r.find? key = some value) (hp : p value) (figure : ν → ℕ) :
    figure value ≤ r.totalOf p figure := by
  have hle := weight_le_total hvalue fun _ v => if p v then figure v else 0
  rw [if_pos hp] at hle
  exact hle

theorem totalOf_mono (h : ∀ key value, r.find? key = some value → p value →
    figure value ≤ figure' value) : r.totalOf p figure ≤ r.totalOf p figure' := by
  unfold totalOf total
  apply List.sum_le_sum
  intro e he
  show (if p e.2 then figure e.2 else 0) ≤ if p e.2 then figure' e.2 else 0
  split
  · next hp => exact h e.1 e.2 (find?_eq_some_iff.mpr he) hp
  · exact Nat.le_refl _

theorem totalOf_eq_zero (h : ∀ key value, r.find? key = some value → ¬ p value) :
    r.totalOf p figure = 0 := by
  apply total_eq_zero
  intro key value hvalue
  rw [if_neg (h key value hvalue)]

end Part

end Registry
end UnitSale
