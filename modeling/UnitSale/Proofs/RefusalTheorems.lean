import UnitSale.Proofs.IdsTheorems
import UnitSale.Proofs.PhaseTheorems

/-!
# Refused steps of the protocol

A step of the protocol writes as it goes and stops at its first failure; what it wrote before stays
written. Taking units out of stock and marking a reservation as revealed come before the last sums
are checked. On the records of a state that a run reaches none of these sums can fail: the counters
of a shuffle are bounded by stock, and something is pending while the window is open. So a step that
is refused was refused before it wrote anything.
-/

namespace UnitSale

/-! ## Refusals that leave no trace -/

namespace Update

variable {σ α : Type} {causes : List SaleError} {u : Update σ α} {s : σ}

/-- Whenever the update of a record fails, the record is as it was and the cause is one of those
given. -/
def RefusesWith (causes : List SaleError) (s : σ) (u : Update σ α) : Prop :=
  ∀ cause s', u.run s = .error cause s' → s' = s ∧ cause ∈ causes

theorem refusesWith_of_ok {r : α × σ} (h : u.attempt s = .ok r) : RefusesWith causes s u := by
  intro cause s' hrun
  rw [attempt, hrun] at h
  cases h

/-- An update that is refused on the spot. -/
theorem refusesWith_of_error (e : SaleError) (he : e ∈ causes) (h : u.run s = .error e s) :
    RefusesWith causes s u := by
  intro cause s' hrun
  rw [h] at hrun
  obtain ⟨rfl, rfl⟩ : e = cause ∧ s = s' := by simpa using hrun
  exact ⟨rfl, he⟩

@[simp] theorem run_require {p : Prop} [Decidable p] (e : SaleError) (s : σ) :
    (require p e : Update σ Unit).run s = if p then .ok () s else .error e s := by
  rw [require]
  split <;> rfl

@[simp] theorem run_demand (o : Option α) (e : SaleError) (s : σ) :
    (demand o e : Update σ α).run s = match o with
      | some a => .ok a s
      | none => .error e s := by
  cases o <;> rfl

@[simp] theorem run_throw (e : SaleError) (s : σ) :
    (throw e : Update σ α).run s = .error e s := rfl

/-- An update of a part leaves of the whole what it leaves of the part. -/
theorem run_within {τ : Type} (read : τ → σ) (write : σ → τ → τ) (u : Update σ α) (t : τ) :
    (u.within read write).run t = match u.run (read t) with
      | .ok a s => .ok a (write s t)
      | .error e s => .error e (write s t) := rfl

end Update

/-! ## Records that a run has led to -/

namespace Booking

open Update

/-- Records whose counters fit each other so well that no step can fail half way. -/
structure Coherent (b : Booking) : Prop where
  limit_le : b.sale.terms.supplyLimit.toNat ≤ maxSupplyLimit.toNat
  reserved_le : b.shuffle.totalReserved.toNat ≤ maxSupplyLimit.toNat
  pending_le : b.shuffle.pending.toNat ≤ b.shuffle.totalReserved.toNat
  revealed_le : b.shuffle.revealedUnits.toNat ≤ b.shuffle.totalReserved.toNat
  units_le : b.commitment.units.toNat ≤ b.shuffle.totalReserved.toNat
  /-- What is not revealed is still out of stock. -/
  unrevealed_le : b.shuffle.phase ≠ .shuffled →
    b.shuffle.totalReserved.toNat ≤ b.shuffle.revealedUnits.toNat + b.sale.allocated.toNat
  some_pending : b.shuffle.phase = .revealing → 1 ≤ b.shuffle.pending.toNat
  /-- The slots of a reservation are among those that have an id. -/
  slots_le : b.shuffle.phase = .shuffled → b.commitment.status = .revealed →
    b.commitment.slotStart.toNat + b.commitment.units.toNat ≤ b.shuffle.permutation.length
  length_le : b.shuffle.permutation.length ≤ b.shuffle.totalReserved.toNat

variable {b : Booking} {hash secret seed : Bytes32} {units : UInt64} {now : Int64}
  {bound : TimeBound}

/-! ## One step -/

/-- The window is opened from the phases in which reservations are made. -/
theorem advance_startReveal (phase : Phase) : phase.advance .startReveal
    = if phase = .opened ∨ phase = .reserved then .ok .revealing
      else .error .invalidPhaseTransition := by
  cases phase <;> simp [Phase.advance]

/-- What is in stock is so little that reserving it overflows no counter. -/
theorem Coherent.exists_counters (h : b.Coherent) (hpos : 0 < units)
    (hstock : units ≤ b.sale.available) :
    ∃ allocated reserved pending : UInt64,
      b.sale.allocated.toNat + units.toNat = allocated.toNat ∧
      b.shuffle.totalReserved.toNat + units.toNat = reserved.toNat ∧
      b.shuffle.pending.toNat + 1 = pending.toNat := by
  have hlimit := h.limit_le
  have hpending := h.pending_le
  have hreserved := h.reserved_le
  have hmax : maxSupplyLimit.toNat = 2000 := rfl
  have hsize : UInt64.size = 2 ^ 64 := rfl
  have hone : 1 ≤ units.toNat := UInt64.lt_iff_toNat_lt.mp hpos
  have hunits := Sale.le_available.mp hstock
  obtain ⟨allocated, ha⟩ := Checked.exists_amount
    (n := b.sale.allocated.toNat + units.toNat) (by omega)
  obtain ⟨reserved, hr⟩ := Checked.exists_amount
    (n := b.shuffle.totalReserved.toNat + units.toNat) (by omega)
  obtain ⟨pending, hn⟩ := Checked.exists_amount (n := b.shuffle.pending.toNat + 1) (by omega)
  exact ⟨allocated, reserved, pending, ha, hr, hn⟩

/-- A reservation is refused before stock is touched. -/
theorem Coherent.refusesWith_commit (h : b.Coherent) :
    RefusesWith [.zeroUnits, .alreadyCommitted, .maxLimit, .reservationsClosed] b
      (commit hash units now) := by
  by_cases hpos : 0 < units
  case neg => exact refusesWith_of_error .zeroUnits (by simp) (by simp [commit, hpos])
  by_cases hnew : b.commitment.units = 0
  case neg =>
    exact refusesWith_of_error .alreadyCommitted (by simp) (by simp [commit, hpos, hnew])
  cases hphase : b.shuffle.phase
  case reserved =>
    exact refusesWith_of_error .maxLimit (by simp) (by simp [commit, hpos, hnew, hphase])
  case opened =>
    by_cases hstock : units ≤ b.sale.available
    case neg =>
      refine refusesWith_of_error .maxLimit (by simp) ?_
      simp [commit, hpos, hnew, hphase, onSale, run_within, Sale.allocate, hstock]
    obtain ⟨allocated, reserved, pending, ha, hr, hn⟩ := h.exists_counters hpos hstock
    exact refusesWith_of_ok (attempt_commit.mpr
      ⟨hpos, hnew, hphase, hstock, allocated, reserved, pending, ha, hr, hn, rfl⟩)
  all_goals
    exact refusesWith_of_error .reservationsClosed (by simp) (by simp [commit, hpos, hnew, hphase])

/-- The window is opened with a single write. -/
theorem refusesWith_startReveal :
    RefusesWith [.invalidPhaseTransition, .nothingReserved, .invalidTimeBound, .overflow] b
      (startReveal seed bound now) := by
  by_cases hphase : b.shuffle.phase = .opened ∨ b.shuffle.phase = .reserved
  case neg =>
    refine refusesWith_of_error .invalidPhaseTransition (by simp) ?_
    simp [startReveal, advance_startReveal, hphase]
  by_cases hreserved : 0 < b.shuffle.totalReserved
  case neg =>
    refine refusesWith_of_error .nothingReserved (by simp) ?_
    simp [startReveal, advance_startReveal, hphase, hreserved]
  by_cases hvalid : bound.Valid
  case neg =>
    refine refusesWith_of_error .invalidTimeBound (by simp) ?_
    simp [startReveal, advance_startReveal, hphase, hreserved, hvalid]
  cases hdeadline : Checked.addTime now bound.baseDuration with
  | none =>
    refine refusesWith_of_error .overflow (by simp) ?_
    simp [startReveal, advance_startReveal, hphase, hreserved, hvalid, hdeadline]
  | some deadline =>
    cases hhard : Checked.addTime deadline bound.maxExtraTime with
    | none =>
      refine refusesWith_of_error .overflow (by simp) ?_
      simp [startReveal, advance_startReveal, hphase, hreserved, hvalid, hdeadline, hhard]
    | some hardDeadline =>
      exact refusesWith_of_ok (attempt_startReveal.mpr
        ⟨hphase, hreserved, hvalid, deadline, hardDeadline, hdeadline, hhard, rfl⟩)

/-- A secret is refused before the seed takes it in. -/
theorem Coherent.refusesWith_reveal (h : b.Coherent) :
    RefusesWith [.noCommitment, .notRevealing, .revealWindowClosed, .cannotReveal] b
      (reveal secret now) := by
  by_cases hfresh : b.commitment.status = .committed ∧ 0 < b.commitment.units
  case neg =>
    refine refusesWith_of_error .noCommitment (by simp) ?_
    simp only [reveal, EStateM.run_bind, EStateM.run_get, run_require, hfresh, if_false]
  by_cases hphase : b.shuffle.phase = .revealing
  case neg =>
    exact refusesWith_of_error .notRevealing (by simp) (by simp [reveal, hfresh, hphase])
  by_cases htime : now ≤ b.shuffle.deadline
  case neg =>
    refine refusesWith_of_error .revealWindowClosed (by simp) ?_
    simp [reveal, hfresh, hphase, htime]
  by_cases hhash : commitmentHash secret = b.commitment.hash
  case neg =>
    refine refusesWith_of_error .cannotReveal (by simp) ?_
    simp [reveal, hfresh, hphase, htime, hhash]
  -- the revealed units and the ones revealed now are parts of what is reserved
  have hmax : maxSupplyLimit.toNat = 2000 := rfl
  have hsize : UInt64.size = 2 ^ 64 := rfl
  have hreserved := h.reserved_le
  have hrevealed := h.revealed_le
  have hunits := h.units_le
  have hpending := h.some_pending hphase
  have hsmall := b.shuffle.pending.toNat_lt_size
  obtain ⟨revealed, hr⟩ := Checked.exists_amount
    (n := b.shuffle.revealedUnits.toNat + b.commitment.units.toNat) (by omega)
  obtain ⟨pending, hn⟩ := Checked.exists_amount (n := b.shuffle.pending.toNat - 1) (by omega)
  exact refusesWith_of_ok (attempt_reveal.mpr
    ⟨hfresh, hphase, htime, hhash, revealed, pending, hr, by omega, rfl⟩)

/-- The ids are not drawn at all where they cannot be. -/
theorem Coherent.refusesWith_revealIds (h : b.Coherent) :
    RefusesWith [.alreadyShuffled, .notRevealing, .revealsPending] b (revealIds now) := by
  by_cases hready : b.shuffle.phase = .revealed ∨
      b.shuffle.phase = .revealing ∧ b.shuffle.deadline < now
  case pos =>
    -- what is forfeited is a part of what is reserved and still out of stock
    have hrevealed := h.revealed_le
    have hleft := h.unrevealed_le (by rcases hready with hp | ⟨hp, -⟩ <;> rw [hp] <;> decide)
    obtain ⟨forfeited, hf⟩ := Checked.exists_amount
      (n := b.shuffle.totalReserved.toNat - b.shuffle.revealedUnits.toNat)
      (Nat.lt_of_le_of_lt (Nat.sub_le _ _) b.shuffle.totalReserved.toNat_lt_size)
    obtain ⟨allocated, ha⟩ := Checked.exists_amount
      (n := b.sale.allocated.toNat - forfeited.toNat)
      (Nat.lt_of_le_of_lt (Nat.sub_le _ _) b.sale.allocated.toNat_lt_size)
    have hslots : b.shuffle.revealedUnits.toNat < UInt32.size :=
      Nat.lt_of_le_of_lt (Nat.le_trans hrevealed h.reserved_le) (by decide)
    exact refusesWith_of_ok (attempt_revealIds.mpr
      ⟨hready, hslots, forfeited, allocated, by omega, by omega, rfl⟩)
  cases hphase : b.shuffle.phase
  case shuffled =>
    exact refusesWith_of_error .alreadyShuffled (by simp) (by simp [revealIds, hphase])
  case revealed => exact absurd (.inl hphase) hready
  case revealing =>
    have hearly : ¬ b.shuffle.deadline < now := fun hlate => hready (.inr ⟨hphase, hlate⟩)
    exact refusesWith_of_error .revealsPending (by simp) (by simp [revealIds, hphase, hearly])
  all_goals exact refusesWith_of_error .notRevealing (by simp) (by simp [revealIds, hphase])

/-- A claim is refused before it is marked. -/
theorem Coherent.refusesWith_claim (h : b.Coherent) :
    RefusesWith [.notShuffled, .notRevealed, .alreadyClaimed] b claim := by
  by_cases hphase : b.shuffle.phase = .shuffled
  case neg => exact refusesWith_of_error .notShuffled (by simp) (by simp [claim, hphase])
  cases hstatus : b.commitment.status
  case committed =>
    exact refusesWith_of_error .notRevealed (by simp) (by simp [claim, hphase, hstatus])
  case claimed =>
    exact refusesWith_of_error .alreadyClaimed (by simp) (by simp [claim, hphase, hstatus])
  case revealed =>
    have hslots := h.slots_le hphase hstatus
    have hsmall := Nat.lt_of_le_of_lt (Nat.le_trans hslots h.length_le)
      b.shuffle.totalReserved.toNat_lt_size
    exact refusesWith_of_ok (attempt_claim.mpr ⟨hphase, hstatus, hslots, hsmall, rfl⟩)

end Booking

/-! ## Every reachable state -/

/-- The records of a sale in a state: the sale, its shuffle, and a reservation in it or one that is
not made yet. -/
structure State.Holds (st : State) (sale : Address) (b : Booking) : Prop where
  sale_found : st.books.sales.find? sale = some b.sale
  shuffle_found : st.books.shuffles.find? (.shuffle sale) = some b.shuffle
  commitment_found : b.commitment = .blank ∨
    ∃ buyer, st.books.commitments.find? (.commitment sale buyer) = some b.commitment

section Reachable

variable {start st : State} {trace : List Entry} {sale : Address} {b : Booking}

theorem pending_le_units (h : st.books.Sound) (hcounted : st.books.Counted) (hb : st.Holds sale b) :
    b.shuffle.pending.toNat
      ≤ overReservations st.books.commitments sale fun c => c.units.toNat := by
  rw [hcounted sale b.shuffle hb.shuffle_found]
  apply Registry.totalOf_mono
  intro key c hc _
  have hpos := UInt64.lt_iff_toNat_lt.mp (h.some_units key c hc)
  unfold Commitment.waiting
  split
  · exact hpos
  · exact Nat.zero_le _

theorem commitment_units_le (h : st.books.Sound) (hb : st.Holds sale b) :
    b.commitment.units.toNat
      ≤ overReservations st.books.commitments sale fun c => c.units.toNat := by
  rcases hb.commitment_found with hblank | ⟨buyer, hfound⟩
  · rw [hblank]
    exact Nat.zero_le _
  · exact Registry.figure_le_totalOf hfound (h.of_commitment hfound).1.symm
      fun c : Commitment => c.units.toNat

theorem coherent_of_run (hfresh : start.Fresh) (h : Run start trace st) (hb : st.Holds sale b) :
    b.Coherent := by
  have hsound := sound_of_run hfresh h
  have hbalanced := hsound.balanced_of_find? hb.sale_found hb.shuffle_found
  have hphased := phased_of_run hfresh h hb.sale_found hb.shuffle_found
  have hreserved := hbalanced.reserved_eq
  have hrevealed := hbalanced.revealed_eq
  have htotal : overReservations st.books.commitments sale (fun c => c.units.toNat)
      = b.shuffle.totalReserved.toNat := overReservations_units.trans hreserved.symm
  exact {
    limit_le := hbalanced.limit_le
    reserved_le := hbalanced.reserved_le
    pending_le := htotal ▸ pending_le_units hsound (counted_of_run hfresh h) hb
    revealed_le := by omega
    units_le := htotal ▸ commitment_units_le hsound hb
    unrevealed_le := by
      intro hphase
      have hallocated := hbalanced.allocated_eq
      have hunclaimed := hbalanced.unclaimed hphase
      rw [outstanding, if_neg hphase] at hallocated
      omega
    some_pending := fun hphase => UInt64.le_iff_toNat_le.mp (hphased.some_pending hphase)
    slots_le := by
      intro hphase hstatus
      rcases hb.commitment_found with hblank | ⟨buyer, hfound⟩
      · rw [hblank] at hstatus
        cases hstatus
      · have hkey := hsound.of_commitment hfound
        exact (slotted_of_run hfresh h).inside_permutation hfound hkey.1.symm
          (by rw [hstatus]; decide) hb.shuffle_found hphase hbalanced
    length_le := by
      by_cases hphase : b.shuffle.phase = .shuffled
      · rw [hbalanced.length_permutation hphase]
        omega
      · rw [(hphased.undrawn hphase).permutation_eq]
        exact Nat.zero_le _ }

end Reachable

open Update in
/-- A step of the protocol that is refused leaves no trace, whatever it is called with: the sale,
the shuffle and the reservation it works on are as they were. What it was refused for was looked at
before the first write. So no sum, difference or phase that is checked later ever fails, and only
the opening of the window is refused for the phase it would move on from. -/
theorem refused_step_leaves_no_trace {start st : State} {trace : List Entry} (hfresh : start.Fresh)
    (h : Run start trace st) {sale : Address} {b : Booking} (hb : st.Holds sale b) :
    (∀ hash units now,
      RefusesWith [.zeroUnits, .alreadyCommitted, .maxLimit, .reservationsClosed] b
        (Booking.commit hash units now)) ∧
    (∀ seed bound now,
      RefusesWith [.invalidPhaseTransition, .nothingReserved, .invalidTimeBound, .overflow] b
        (Booking.startReveal seed bound now)) ∧
    (∀ secret now,
      RefusesWith [.noCommitment, .notRevealing, .revealWindowClosed, .cannotReveal] b
        (Booking.reveal secret now)) ∧
    (∀ now,
      RefusesWith [.alreadyShuffled, .notRevealing, .revealsPending] b (Booking.revealIds now)) ∧
    RefusesWith [.notShuffled, .notRevealed, .alreadyClaimed] b Booking.claim := by
  have hcoherent := coherent_of_run hfresh h hb
  refine ⟨?_, ?_, ?_, ?_, ?_⟩
  · intro hash units now
    exact hcoherent.refusesWith_commit
  · intro seed bound now
    exact Booking.refusesWith_startReveal
  · intro secret now
    exact hcoherent.refusesWith_reveal
  · intro now
    exact hcoherent.refusesWith_revealIds
  · exact hcoherent.refusesWith_claim

open Update in
/-- After four units were reserved, the same buyer is refused four more, and the reservation is
refused a reveal until the window is open. -/
theorem refused_step_leaves_no_trace_reserved :
    ∃ trace draw, Sample.start.Fresh ∧ Run Sample.start trace Sample.reserved ∧
      Sample.reserved.Holds Sample.capped ⟨Sample.reservedRecord, draw, Sample.reservation⟩ ∧
      (Booking.commit Bytes32.zero 4 0).run ⟨Sample.reservedRecord, draw, Sample.reservation⟩
        = .error .alreadyCommitted ⟨Sample.reservedRecord, draw, Sample.reservation⟩ ∧
      ∀ secret now, RefusesWith [.noCommitment, .notRevealing, .revealWindowClosed, .cannotReveal]
        ⟨Sample.reservedRecord, draw, Sample.reservation⟩ (Booking.reveal secret now) := by
  obtain ⟨trace, hrun⟩ := Sample.run_reserved
  have hb : Sample.reserved.Holds Sample.capped ⟨Sample.reservedRecord,
      { Shuffle.blank.bind Sample.capped 255 with totalReserved := 4, pending := 1 },
      Sample.reservation⟩ := ⟨rfl, rfl, .inr ⟨.key Sample.owner, rfl⟩⟩
  exact ⟨trace, _, Sample.start_fresh, hrun, hb, rfl,
    (refused_step_leaves_no_trace Sample.start_fresh hrun hb).2.2.1⟩

end UnitSale
