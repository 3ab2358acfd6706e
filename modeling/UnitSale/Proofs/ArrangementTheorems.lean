import UnitSale.Proofs.DrawsTheorems

/-!
# Every arrangement once

The shuffle goes from the last slot down and exchanges each slot with one that is not behind it.
What stands in a slot is settled by the choice for it, and nothing later touches the slot again. So
the choices can be read off the arrangement they make, and every arrangement of the ids is made by
some.
-/

namespace UnitSale

/-! ## Choices -/

/-- Choices for slot `i`, slot `i - 1` and so on down to slot 1: one for each, none behind its slot.
-/
inductive Choices : (i : ℕ) → List ℕ → Prop
  | nil : Choices 0 []
  | cons {i choice : ℕ} {rest : List ℕ} :
    choice ≤ i + 1 → Choices i rest → Choices (i + 1) (choice :: rest)

theorem DrawStream.length_take (n : ℕ) (d : DrawStream) : (d.take n).1.length = n := by
  induction n generalizing d with
  | zero => rfl
  | succ n ih => exact congrArg (· + 1) (ih d.next.2)

theorem choices_choicesOf {i : ℕ} {draws : List UInt64} (h : draws.length = i) :
    Choices i (choicesOf i draws) := by
  induction i generalizing draws with
  | zero =>
    obtain rfl := List.length_eq_zero_iff.mp h
    exact .nil
  | succ i ih =>
    cases draws with
    | nil => cases h
    | cons draw draws =>
      have hlt : draw.toNat % (i + 2) < i + 2 := Nat.mod_lt _ (Nat.succ_pos _)
      exact .cons (Nat.le_of_lt_succ hlt) (ih (Nat.succ.inj h))

/-- The choices that the draws of a seed make for `n` slots. -/
def drawnChoices (seed : Bytes32) (n : ℕ) : List ℕ :=
  choicesOf (n - 1) ((DrawStream.start seed).take (n - 1)).1

theorem choices_drawn (seed : Bytes32) (n : ℕ) : Choices (n - 1) (drawnChoices seed n) :=
  choices_choicesOf (DrawStream.length_take _ _)

/-! ## Single exchanges -/

section Exchange

variable {ids target : Array UInt32} {i j k : ℕ}

/-- What stands where after an exchange of two slots. -/
theorem getElem?_swapIfInBounds (hi : i < ids.size) (hj : j < ids.size) (k : ℕ) :
    (ids.swapIfInBounds i j)[k]?
      = if k = i then ids[j]? else if k = j then ids[i]? else ids[k]? := by
  rw [Array.swapIfInBounds_def, dif_pos hi, dif_pos hj, Array.getElem?_swap,
    Array.getElem?_eq_getElem hi, Array.getElem?_eq_getElem hj]
  by_cases hij : i = j
  · subst hij
    simp [eq_comm (b := k)]
  · grind

theorem lt_size_swapIfInBounds (hi : i + 1 < ids.size) (j : ℕ) :
    i < (ids.swapIfInBounds (i + 1) j).size := by
  rw [Array.size_swapIfInBounds]
  omega

theorem slot_unique (hids : ids.toList.Nodup) (hj : j < ids.size) (h : ids[j]? = ids[k]?) :
    j = k := by
  rw [← Array.getElem?_toList, ← Array.getElem?_toList] at h
  rw [← Array.length_toList] at hj
  exact (List.getElem?_inj hj hids).mp h

theorem nodup_swapIfInBounds (hids : ids.toList.Nodup) (i j : ℕ) :
    (ids.swapIfInBounds i j).toList.Nodup :=
  (Array.perm_iff_toList_perm.mp (swapIfInBounds_perm ids i j)).nodup_iff.mpr hids

/-- In an arrangement that agrees with the ids behind slot `i`, what stands in this slot comes from
no slot behind it. -/
theorem exists_choice (hids : ids.toList.Nodup) (hi : i < ids.size) (hperm : target.Perm ids)
    (hsettled : ∀ k, i < k → target[k]? = ids[k]?) : ∃ c, c ≤ i ∧ ids[c]? = target[i]? := by
  have hit : i < target.size := hperm.size_eq ▸ hi
  have htarget : target.toList.Nodup :=
    (Array.perm_iff_toList_perm.mp hperm).nodup_iff.mpr hids
  have hmem : target[i] ∈ ids := hperm.mem_iff.mp (Array.getElem_mem hit)
  obtain ⟨c, hc⟩ := Array.getElem?_of_mem hmem
  have hsame : ids[c]? = target[i]? := by rw [hc, Array.getElem?_eq_getElem hit]
  refine ⟨c, ?_, hsame⟩
  -- behind slot `i` the id would stand in two slots of the arrangement
  by_contra hlt
  have hbehind := Nat.lt_of_not_le hlt
  have heq : target[i]? = target[c]? := hsame.symm.trans (hsettled c hbehind).symm
  exact Nat.ne_of_lt hbehind (slot_unique htarget hit heq)

end Exchange

/-! ## All exchanges -/

/-- The exchanges of `exchangeDown`, given up at the first slot that is not there. -/
def exchangeDown? : (i : ℕ) → List ℕ → Array UInt32 → Option (Array UInt32)
  | i + 1, choice :: choices, ids =>
    if h : i + 1 < ids.size ∧ choice < ids.size then
      exchangeDown? i choices (ids.swap (i + 1) choice h.1 h.2)
    else none
  | _, _, ids => some ids

section Exchanges

variable {ids target : Array UInt32} {i k choice : ℕ} {choices choices' rest : List ℕ}

/-- All slots that choices name are there. -/
theorem exchangeDown?_eq_some (h : Choices i choices) (hi : i < ids.size) :
    exchangeDown? i choices ids = some (exchangeDown i choices ids) := by
  induction h generalizing ids with
  | nil => rfl
  | @cons i choice rest hle _ ih =>
    have hchoice : choice < ids.size := Nat.lt_of_le_of_lt hle hi
    have hstep : ids.swapIfInBounds (i + 1) choice = ids.swap (i + 1) choice hi hchoice := by
      rw [Array.swapIfInBounds_def, dif_pos hi, dif_pos hchoice]
    rw [exchangeDown?, dif_pos ⟨hi, hchoice⟩, exchangeDown, hstep]
    exact ih (by rw [Array.size_swap]; omega)

/-- Slots behind those that are exchanged keep their ids. -/
theorem exchangeDown_behind (h : Choices i choices) (hi : i < ids.size) (hk : i < k) :
    (exchangeDown i choices ids)[k]? = ids[k]? := by
  induction h generalizing ids with
  | nil => rfl
  | @cons i choice rest hle _ ih =>
    rw [exchangeDown, ih (lt_size_swapIfInBounds hi _) (by omega),
      getElem?_swapIfInBounds hi (Nat.lt_of_le_of_lt hle hi), if_neg (by omega), if_neg (by omega)]

/-- What ends in the last slot is the id that the choice for it names. -/
theorem exchangeDown_last (h : Choices (i + 1) (choice :: rest)) (hi : i + 1 < ids.size) :
    (exchangeDown (i + 1) (choice :: rest) ids)[i + 1]? = ids[choice]? := by
  cases h with
  | cons hle hrest =>
    rw [exchangeDown,
      exchangeDown_behind hrest (lt_size_swapIfInBounds hi _) (Nat.lt_succ_self i),
      getElem?_swapIfInBounds hi (Nat.lt_of_le_of_lt hle hi), if_pos rfl]

/-- Different choices make different arrangements. -/
theorem exchangeDown_injective (hids : ids.toList.Nodup) (hi : i < ids.size)
    (h : Choices i choices) (h' : Choices i choices')
    (heq : exchangeDown i choices ids = exchangeDown i choices' ids) : choices = choices' := by
  induction h generalizing ids choices' with
  | nil =>
    cases h'
    rfl
  | @cons i choice rest hle hrest ih =>
    obtain _ | @⟨_, choice', rest', hle', hrest'⟩ := h'
    -- the last slot tells the first choice
    have hlast : ids[choice]? = ids[choice']? := by
      rw [← exchangeDown_last (hrest.cons hle) hi, heq, exchangeDown_last (hrest'.cons hle') hi]
    obtain rfl := slot_unique hids (Nat.lt_of_le_of_lt hle hi) hlast
    rw [ih (nodup_swapIfInBounds hids _ _) (lt_size_swapIfInBounds hi _) hrest' heq]

/-- An arrangement that agrees with the ids behind slot `i` is made by choices for the slots down
from there. -/
theorem exists_exchangeDown (hids : ids.toList.Nodup) (hi : i < ids.size)
    (hperm : target.Perm ids) (hsettled : ∀ k, i < k → target[k]? = ids[k]?) :
    ∃ choices, Choices i choices ∧ exchangeDown i choices ids = target := by
  induction i generalizing ids with
  | zero =>
    obtain ⟨c, hc, hfirst⟩ := exists_choice hids hi hperm hsettled
    obtain rfl := Nat.le_zero.mp hc
    refine ⟨[], .nil, Array.ext_getElem? fun k => ?_⟩
    rcases Nat.eq_zero_or_pos k with rfl | hk
    · exact hfirst
    · exact (hsettled k hk).symm
  | succ i ih =>
    obtain ⟨c, hc, hlast⟩ := exists_choice hids hi hperm hsettled
    have hnext : ∀ k, i < k → target[k]? = (ids.swapIfInBounds (i + 1) c)[k]? := by
      intro k hk
      rw [getElem?_swapIfInBounds hi (Nat.lt_of_le_of_lt hc hi)]
      -- the choice settles the slot, and the slots behind it were settled before
      by_cases hslot : k = i + 1
      · rw [if_pos hslot, hslot, hlast]
      · rw [if_neg hslot, if_neg (by omega)]
        exact hsettled k (by omega)
    obtain ⟨choices, hchoices, hmade⟩ := ih (nodup_swapIfInBounds hids _ _)
      (lt_size_swapIfInBounds hi _) (hperm.trans (swapIfInBounds_perm ids (i + 1) c).symm) hnext
    exact ⟨c :: choices, hchoices.cons hc, hmade⟩

end Exchanges

/-! ## Arrangements -/

section Arrange

variable {n : ℕ} {choices choices' : List ℕ}

@[simp] theorem size_orderedIds (n : ℕ) : (orderedIds n).size = n := Array.size_ofFn

theorem nodup_orderedIds (hn : n < UInt32.size) : (orderedIds n).toList.Nodup := by
  rw [toList_orderedIds]
  exact nodup_idsUpTo hn

/-- Without slots there is nothing to choose. -/
theorem choices_zero (h : Choices 0 choices) : choices = [] := by
  cases h
  rfl

/-- All choices arrange the ids `1..=n`. -/
theorem arrange_perm (n : ℕ) (choices : List ℕ) :
    (arrange n choices).toList.Perm (idsUpTo n) := by
  rw [← toList_orderedIds, ← Array.perm_iff_toList_perm]
  exact exchangeDown_perm _ _ _

/-- No exchange that choices make names a slot that is not there. -/
theorem arrange_in_range (h : Choices (n - 1) choices) :
    exchangeDown? (n - 1) choices (orderedIds n) = some (arrange n choices) := by
  cases n with
  | zero =>
    obtain rfl := choices_zero h
    rfl
  | succ n => exact exchangeDown?_eq_some h (by rw [size_orderedIds]; omega)

/-- Different choices arrange the ids differently. -/
theorem arrange_injective (hn : n < UInt32.size) (h : Choices (n - 1) choices)
    (h' : Choices (n - 1) choices') (heq : arrange n choices = arrange n choices') :
    choices = choices' := by
  cases n with
  | zero => rw [choices_zero h, choices_zero h']
  | succ n =>
    exact exchangeDown_injective (nodup_orderedIds hn) (by rw [size_orderedIds]; omega) h h' heq

/-- Every arrangement of the ids is made by choices. -/
theorem exists_arrange (hn : n < UInt32.size) {ids : List UInt32} (h : ids.Perm (idsUpTo n)) :
    ∃ choices, Choices (n - 1) choices ∧ (arrange n choices).toList = ids := by
  cases n with
  | zero =>
    refine ⟨[], .nil, ?_⟩
    exact (List.perm_nil.mp h).symm
  | succ n =>
    have hperm : ids.toArray.Perm (orderedIds (n + 1)) := by
      rw [Array.perm_iff_toList_perm, toList_orderedIds]
      exact h
    have hlength : ids.length = n + 1 := by rw [h.length_eq, length_idsUpTo]
    have hsettled : ∀ k, n < k → ids.toArray[k]? = (orderedIds (n + 1))[k]? := by
      -- behind the last slot there is nothing on either side
      intro k hk
      rw [Array.getElem?_eq_none (by rw [List.size_toArray]; omega),
        Array.getElem?_eq_none (by rw [size_orderedIds]; omega)]
    obtain ⟨choices, hchoices, hmade⟩ := exists_exchangeDown (nodup_orderedIds hn)
      (by rw [size_orderedIds]; omega) hperm hsettled
    exact ⟨choices, hchoices, by rw [arrange, Nat.add_sub_cancel, hmade]⟩

end Arrange

/-- For every number of slots, the choices with none behind its slot make every arrangement of the
ids `1..=n`, and each by exactly one choice for every slot; no exchange names a slot that is not
there. The permutation of a seed is the arrangement of such choices, those that its draws make, so
it has every id from one to `n` exactly once. -/
theorem shuffle_bijective (n : UInt32) :
    (∀ choices, Choices (n.toNat - 1) choices →
      exchangeDown? (n.toNat - 1) choices (orderedIds n.toNat)
          = some (arrange n.toNat choices) ∧
        (arrange n.toNat choices).toList.Perm (idsUpTo n.toNat)) ∧
    (∀ ids, ids.Perm (idsUpTo n.toNat) →
      ∃! choices, Choices (n.toNat - 1) choices ∧ (arrange n.toNat choices).toList = ids) ∧
    ∀ seed, Choices (n.toNat - 1) (drawnChoices seed n.toNat) ∧
      permutation seed n = (arrange n.toNat (drawnChoices seed n.toNat)).toList ∧
      (permutation seed n).Nodup ∧
      ∀ id, id ∈ permutation seed n ↔ 1 ≤ id.toNat ∧ id.toNat ≤ n.toNat := by
  have hn : n.toNat < UInt32.size := n.toNat_lt
  refine ⟨?_, ?_, ?_⟩
  · intro choices hchoices
    exact ⟨arrange_in_range hchoices, arrange_perm _ _⟩
  · intro ids hids
    obtain ⟨choices, hchoices, hmade⟩ := exists_arrange hn hids
    refine ⟨choices, ⟨hchoices, hmade⟩, ?_⟩
    intro choices' hchoices'
    refine arrange_injective hn hchoices'.1 hchoices ?_
    rw [← Array.toList_inj, hchoices'.2, hmade]
  · intro seed
    refine ⟨choices_drawn _ _, rfl, nodup_permutation seed n, ?_⟩
    intro id
    rw [(permutation_perm seed n).mem_iff, mem_idsUpTo hn]

end UnitSale
