import UnitSale.Proofs.Reservations

/-!
# Never oversold

Along every run the stock counter of a sale counts exactly the units that are minted and those of
outstanding reservations, and never passes the supply limit. Stock comes back once, when the ids are
drawn, and exactly the units that were not revealed come back.
-/

namespace UnitSale

/-- Whether a reservation keeps its units out of stock: it is revealed and not yet claimed, or it can
still be revealed. -/
def Commitment.Outstanding (c : Commitment) (phase : Phase) : Prop :=
  c.status = .revealed ∨ c.status = .committed ∧ phase ≠ .shuffled

instance (c : Commitment) (phase : Phase) : Decidable (c.Outstanding phase) := by
  unfold Commitment.Outstanding
  infer_instance

/-- The units of all outstanding reservations of a sale in a phase. -/
def outstandingUnits (commitments : Registry Address Commitment) (sale : Address) (phase : Phase) :
    ℕ :=
  commitments.total fun _ c => if c.sale = sale ∧ c.Outstanding phase then c.units.toNat else 0

theorem outstandingUnits_eq (commitments : Registry Address Commitment) (sale : Address)
    (phase : Phase) :
    outstandingUnits commitments sale phase = outstanding phase (unitsIn commitments sale) := by
  unfold outstandingUnits outstanding unitsIn
  by_cases hphase : phase = .shuffled
  · rw [if_pos hphase, Nat.add_zero]
    apply Registry.total_congr
    intro key c _
    simp [Commitment.Outstanding, Commitment.unitsIn, hphase, ite_and]
  · rw [if_neg hphase, ← Registry.total_add]
    apply Registry.total_congr
    intro key c _
    cases hstatus : c.status <;>
      simp [Commitment.Outstanding, Commitment.unitsIn, hphase, hstatus]

/-! ## Steps -/

/-- How one accepted instruction may move the stock of a sale with `committed` units not revealed:
the terms stay, a shuffled sale stays shuffled, units are never unminted, and stock comes back only
in the step that shuffles. -/
structure StockStep (committed : ℕ) (record record' : Sale) (draw draw' : Shuffle) : Prop where
  terms_eq : record'.terms = record.terms
  minted_le : record.totalMinted ≤ record'.totalMinted
  stays_shuffled : draw.phase = .shuffled → draw'.phase = .shuffled
  forfeits : draw.phase ≠ .shuffled → draw'.phase = .shuffled →
    record.allocated.toNat = record'.allocated.toNat + committed
  keeps : draw'.phase ≠ .shuffled ∨ draw.phase = .shuffled → record.allocated ≤ record'.allocated

namespace StockStep

variable {committed : ℕ} {record record' : Sale} {draw draw' : Shuffle}

/-- A step that leaves the shuffle alone or does not shuffle. -/
theorem of_le (hterms : record'.terms = record.terms)
    (hminted : record.totalMinted.toNat ≤ record'.totalMinted.toNat)
    (hallocated : record.allocated.toNat ≤ record'.allocated.toNat)
    (hphase : draw'.phase = draw.phase ∨ draw'.phase ≠ .shuffled ∧ draw.phase ≠ .shuffled) :
    StockStep committed record record' draw draw' where
  terms_eq := hterms
  minted_le := UInt64.le_iff_toNat_le.mpr hminted
  stays_shuffled := by
    intro h
    rcases hphase with heq | ⟨-, hne⟩
    · rw [heq]
      exact h
    · exact absurd h hne
  forfeits := by
    intro h h'
    rcases hphase with heq | ⟨hne, -⟩
    · exact absurd (heq.symm.trans h') h
    · exact absurd h' hne
  keeps := fun _ => UInt64.le_iff_toNat_le.mpr hallocated

end StockStep

/-- A turn of a balanced sale moves its stock as it may. -/
theorem State.Turn.stockStep {st : State} {signer : Signer} {receipt : Receipt} {sale : Address}
    {record record' : Sale} {draw draw' : Shuffle} {units : CommitmentStatus → ℕ}
    (h : Turn st signer receipt sale record draw record' draw')
    (hbalanced : Balanced record draw units) :
    StockStep (units .committed) record record' draw draw' := by
  cases h with
  | keeps => exact .of_le rfl (Nat.le_refl _) (Nat.le_refl _) (.inl rfl)
  | opensVault => exact .of_le rfl (Nat.le_refl _) (Nat.le_refl _) (.inl rfl)
  | sells p hrecord =>
    subst hrecord
    exact .of_le rfl (Nat.le.intro p.minted_eq) (Nat.le.intro p.allocated_eq) (.inl rfl)
  | burns => exact .of_le rfl (Nat.le_refl _) (Nat.le_refl _) (.inl rfl)
  | paysOut => exact .of_le rfl (Nat.le_refl _) (Nat.le_refl _) (.inl rfl)
  | reserves r hrecord hdraw =>
    subst hrecord hdraw
    refine .of_le rfl (Nat.le_refl _) (Nat.le.intro r.allocated_eq) (.inr ⟨?_, ?_⟩)
    · exact Booking.phaseAfterCommit_ne_shuffled _
    · rw [r.opened]
      decide
  | opensWindow w _ hdraw =>
    subst hdraw
    refine .of_le rfl (Nat.le_refl _) (Nat.le_refl _) (.inr ⟨by simp, ?_⟩)
    rcases w.phase with h | h <;> rw [h] <;> decide
  | reveals r _ hdraw =>
    subst hdraw
    refine .of_le rfl (Nat.le_refl _) (Nat.le_refl _) (.inr ⟨?_, ?_⟩)
    · exact Booking.phaseAfterReveal_ne_shuffled _
    · rw [r.revealing]
      decide
  | draws d hrecord hdraw =>
    subst hrecord hdraw
    have hreserved := hbalanced.reserved_eq
    have hrevealed := hbalanced.revealed_eq
    have hforfeited := d.forfeited_eq
    have hallocated := d.allocated_eq
    exact {
      terms_eq := rfl
      minted_le := UInt64.le_refl _
      stays_shuffled := fun _ => rfl
      forfeits := by
        -- what is not revealed is what is still committed
        intro _ _
        show d.record.allocated.toNat = d.allocated.toNat + units .committed
        omega
      keeps := by
        intro h
        rcases h with h | h
        · exact absurd rfl h
        · exact absurd h d.phase_ne }
  | handsOut c hrecord =>
    subst hrecord
    exact .of_le rfl (Nat.le.intro c.minted_eq) (Nat.le_refl _) (.inl rfl)

/-! ## Runs -/

/-- In every state that a run reaches, the stock counter of a sale counts the minted units and those
of outstanding reservations, minted units never pass it, it never passes the supply limit, and no
call makes stock come back but the one that draws the ids. -/
theorem never_oversold {start st : State} {trace : List Entry} (hfresh : start.Fresh)
    (h : Run start trace st) {sale : Address} {record : Sale}
    (hsale : st.sales.find? sale = some record) :
    ∃ draw, st.shuffles.find? (.shuffle sale) = some draw ∧
      record.allocated.toNat
        = record.totalMinted.toNat + outstandingUnits st.commitments sale draw.phase ∧
      record.totalMinted ≤ record.allocated ∧ record.allocated ≤ record.terms.supplyLimit ∧
      record.terms.supplyLimit ≤ 2000 ∧
      ∀ call receipt, st.execute call = .ok receipt →
        ∃ record' draw', receipt.state.sales.find? sale = some record' ∧
          receipt.state.shuffles.find? (.shuffle sale) = some draw' ∧
          StockStep (unitsIn st.commitments sale .committed) record record' draw draw' := by
  have hsound := sound_of_run hfresh h
  obtain ⟨draw, hdraw, hbalanced⟩ := hsound.balanced sale record hsale
  have hallocated := hbalanced.allocated_eq
  refine ⟨draw, hdraw, ?_, ?_, ?_, ?_, ?_⟩
  · rw [outstandingUnits_eq]
    exact hallocated
  · rw [UInt64.le_iff_toNat_le, hallocated]
    exact Nat.le_add_right _ _
  · exact UInt64.le_iff_toNat_le.mpr hbalanced.allocated_le
  · exact UInt64.le_iff_toNat_le.mpr hbalanced.limit_le
  · intro call receipt hcall
    obtain ⟨record', draw', hrecord', hdraw', hturn⟩ :=
      (State.accepted_of_run hcall).turn hsale hdraw
    exact ⟨record', draw', hrecord', hdraw', hturn.stockStep hbalanced⟩

/-- With three units minted and four reserved, the stock counter of the other sale is at seven; and
opening the reveal window moves none of it. -/
theorem never_oversold_reserved :
    ∃ trace, Run Sample.start trace Sample.reserved ∧
      Sample.reserved.sales.find? Sample.capped = some Sample.reservedRecord ∧
      Sample.reservedRecord.allocated.toNat = 7 ∧ Sample.reservedRecord.totalMinted.toNat = 3 ∧
      outstandingUnits Sample.reserved.commitments Sample.capped .opened = 4 ∧
      Sample.reservedRecord.allocated ≤ Sample.reservedRecord.terms.supplyLimit ∧
      ∃ record' draw', Sample.windowed.sales.find? Sample.capped = some record' ∧
        Sample.windowed.shuffles.find? (.shuffle Sample.capped) = some draw' ∧
        StockStep 4 Sample.reservedRecord record'
          { Shuffle.blank.bind Sample.capped 255 with totalReserved := 4, pending := 1 } draw' := by
  obtain ⟨trace, hrun⟩ := Sample.run_reserved
  have hrecord : Sample.reserved.sales.find? Sample.capped = some Sample.reservedRecord := rfl
  obtain ⟨draw, hdraw, hallocated, -, hlimit, -, hstep⟩ :=
    never_oversold Sample.start_fresh hrun hrecord
  obtain rfl := Option.some.inj hdraw
  have hseven : Sample.reservedRecord.allocated.toNat = 7 := rfl
  have hthree : Sample.reservedRecord.totalMinted.toNat = 3 := rfl
  rw [hseven, hthree] at hallocated
  exact ⟨trace, hrun, hrecord, hseven, hthree, (Nat.add_left_cancel hallocated).symm, hlimit,
    hstep Sample.windowing _ Sample.windowing_ok⟩

end UnitSale
