/-!
# Registries

A finite map kept as a list of entries without repeated keys, in the order the keys were first set.
Setting a key replaces its value in place. `find?_set_self` and `find?_set_of_ne` say all that a
registry does.
-/

namespace UnitSale

variable {κ ν : Type} [DecidableEq κ]

/-- The entries with the value of a key replaced, or with the key added at the end. -/
def assignEntry (key : κ) (value : ν) : List (κ × ν) → List (κ × ν)
  | [] => [(key, value)]
  | (k, v) :: rest =>
    if k = key then (key, value) :: rest else (k, v) :: assignEntry key value rest

theorem lookup_cons_of_ne {key k : κ} (h : k ≠ key) (value : ν) (entries : List (κ × ν)) :
    ((k, value) :: entries).lookup key = entries.lookup key := by
  rw [List.lookup_cons, beq_eq_false_iff_ne.mpr h.symm]

theorem lookup_assignEntry_self (key : κ) (value : ν) (entries : List (κ × ν)) :
    (assignEntry key value entries).lookup key = some value := by
  induction entries with
  | nil => exact List.lookup_cons_self
  | cons e rest ih =>
    rw [assignEntry]
    split
    · exact List.lookup_cons_self
    · rename_i hne
      rw [lookup_cons_of_ne hne, ih]

/-- Keys other than the one assigned read as before. -/
theorem lookup_assignEntry_of_ne {key other : κ} (h : other ≠ key) (value : ν)
    (entries : List (κ × ν)) :
    (assignEntry key value entries).lookup other = entries.lookup other := by
  induction entries with
  | nil => exact lookup_cons_of_ne h.symm value []
  | cons e rest ih =>
    obtain ⟨k, v⟩ := e
    rw [assignEntry]
    split
    · rename_i hk
      rw [lookup_cons_of_ne h.symm, lookup_cons_of_ne (hk ▸ h.symm)]
    · rw [List.lookup_cons, List.lookup_cons, ih]

/-- Assigning adds no key but the one assigned. -/
theorem mem_keys_assignEntry {key k : κ} {value : ν} {entries : List (κ × ν)}
    (h : k ∈ (assignEntry key value entries).map Prod.fst) :
    k = key ∨ k ∈ entries.map Prod.fst := by
  induction entries with
  | nil => simpa [assignEntry] using h
  | cons e rest ih =>
    rw [assignEntry] at h
    split at h
    · rename_i he
      rw [List.map_cons, List.mem_cons] at h
      rcases h with h | h
      · exact .inl h
      · exact .inr (List.mem_cons_of_mem _ h)
    · rw [List.map_cons, List.mem_cons] at h
      rcases h with h | h
      · exact .inr (by simp [h])
      · rcases ih h with h | h
        · exact .inl h
        · exact .inr (List.mem_cons_of_mem _ h)

/-- Assigning repeats no key. -/
theorem nodup_keys_assignEntry (key : κ) (value : ν) {entries : List (κ × ν)}
    (h : (entries.map Prod.fst).Nodup) : ((assignEntry key value entries).map Prod.fst).Nodup := by
  induction entries with
  | nil => simp [assignEntry]
  | cons e rest ih =>
    rw [List.map_cons, List.nodup_cons] at h
    rw [assignEntry]
    split
    · rename_i he
      rw [List.map_cons, List.nodup_cons]
      exact ⟨he ▸ h.1, h.2⟩
    · rename_i he
      rw [List.map_cons, List.nodup_cons]
      refine ⟨fun hm => ?_, ih h.2⟩
      rcases mem_keys_assignEntry hm with hk | hk
      · exact he hk
      · exact h.1 hk

/-- With no repeated keys, a key reads as a value exactly when the two are an entry. -/
theorem lookup_eq_some_iff_mem {key : κ} {value : ν} {entries : List (κ × ν)}
    (h : (entries.map Prod.fst).Nodup) :
    entries.lookup key = some value ↔ (key, value) ∈ entries := by
  induction entries with
  | nil => simp
  | cons e rest ih =>
    obtain ⟨k, v⟩ := e
    rw [List.map_cons, List.nodup_cons] at h
    rw [List.mem_cons]
    by_cases hk : k = key
    · subst hk
      have hrest : (k, value) ∉ rest := fun hm => h.1 (List.mem_map.mpr ⟨_, hm, rfl⟩)
      simp [hrest, eq_comm]
    · have hne : (key, value) ≠ (k, v) := fun he => hk (congrArg Prod.fst he).symm
      rw [lookup_cons_of_ne hk, ih h.2, or_iff_right hne]

/-- A finite map. -/
structure Registry (κ ν : Type) where
  entries : List (κ × ν)
  keys_nodup : (entries.map Prod.fst).Nodup

namespace Registry

/-- The registry without entries. -/
def empty : Registry κ ν := ⟨[], List.nodup_nil⟩

/-- The value of a key. -/
def find? (r : Registry κ ν) (key : κ) : Option ν := r.entries.lookup key

/-- Whether a key has a value. -/
def contains (r : Registry κ ν) (key : κ) : Bool := (r.find? key).isSome

/-- The registry with one key set. -/
def set (r : Registry κ ν) (key : κ) (value : ν) : Registry κ ν :=
  ⟨assignEntry key value r.entries, nodup_keys_assignEntry key value r.keys_nodup⟩

/-- The registry of the given entries; of a repeated key the last one counts. -/
def ofList (entries : List (κ × ν)) : Registry κ ν :=
  entries.foldl (fun r e => r.set e.1 e.2) empty

/-- The keys that have a value. -/
def keys (r : Registry κ ν) : List κ := r.entries.map Prod.fst

@[simp] theorem find?_set_self (r : Registry κ ν) (key : κ) (value : ν) :
    (r.set key value).find? key = some value :=
  lookup_assignEntry_self key value r.entries

@[simp] theorem find?_set_of_ne (r : Registry κ ν) {key other : κ} (h : other ≠ key) (value : ν) :
    (r.set key value).find? other = r.find? other :=
  lookup_assignEntry_of_ne h value r.entries

theorem find?_eq_some_iff {r : Registry κ ν} {key : κ} {value : ν} :
    r.find? key = some value ↔ (key, value) ∈ r.entries :=
  lookup_eq_some_iff_mem r.keys_nodup

@[simp] theorem find?_empty (key : κ) : (empty : Registry κ ν).find? key = none := rfl

end Registry
end UnitSale
