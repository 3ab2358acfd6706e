import UnitSale.Proofs.ForwardTheorems
import UnitSale.Proofs.WindowTheorems

/-!
# The ids can always be drawn

The drawing of ids looks at the phase and the time first. Three checks come after that: slots are
numbered by 32 bits, no more is revealed than reserved, and no more goes back to stock than was
taken out of it. In a state that a run reaches none of the three can fail, so phase and time alone
decide; and the difference of two counters that goes back to stock is a sum over reservations.
-/

namespace UnitSale

/-! ## When the window has closed -/

/-- A deadline that reveals push out, but not past the hard one. -/
structure Shuffle.Closes (draw : Shuffle) : Prop where
  extra_nonneg : 0 ≤ draw.timeBound.maxExtraTime
  deadline_le : draw.deadline ≤ draw.hardDeadline

theorem Shuffle.Closes.extendedDeadline_le {draw : Shuffle} (h : draw.Closes) (now : Int64) :
    draw.extendedDeadline now ≤ draw.hardDeadline := by
  have hinside := Int64.le_iff_toInt_le.mp h.deadline_le
  rw [Int64.le_iff_toInt_le, toInt_extendedDeadline now h.extra_nonneg h.deadline_le]
  omega

/-- Every step of a shuffle keeps its deadline before the hard one. -/
theorem DrawStep.closes {now : Int64} {sale : Address} {before after : Option Shuffle}
    {i : Instruction} (h : DrawStep now sale before i after)
    (hbefore : ∀ draw, before = some draw → draw.Closes) (draw' : Shuffle)
    (hafter : after = some draw') : draw'.Closes := by
  cases h with
  | keeps => exact hbefore draw' hafter
  | creates =>
    obtain rfl := Option.some.inj hafter
    exact ⟨Int64.le_refl _, Int64.le_refl _⟩
  | reserves =>
    obtain rfl := Option.some.inj hafter
    have hkept := hbefore _ rfl
    exact ⟨hkept.extra_nonneg, hkept.deadline_le⟩
  | opensWindow deadline hardDeadline _ hvalid _ hhard =>
    obtain rfl := Option.some.inj hafter
    have hextra := Int64.le_iff_toInt_le.mp hvalid.2.1
    have hadd := Checked.addTime_eq_some_iff.mp hhard
    have hzero : (0 : Int64).toInt = 0 := rfl
    refine ⟨hvalid.2.1, ?_⟩
    show deadline ≤ hardDeadline
    rw [Int64.le_iff_toInt_le]
    omega
  | reveals =>
    obtain rfl := Option.some.inj hafter
    have hkept := hbefore _ rfl
    exact ⟨hkept.extra_nonneg, hkept.extendedDeadline_le now⟩
  | draws =>
    obtain rfl := Option.some.inj hafter
    have hkept := hbefore _ rfl
    exact ⟨hkept.extra_nonneg, hkept.deadline_le⟩

theorem closes_of_run {start st : State} {trace : List Entry} {sale : Address} {draw : Shuffle}
    (hfresh : start.Fresh) (h : Run start trace st) (hdraw : st.draw? sale = some draw) :
    draw.Closes := by
  refine h.follow_draw (P := fun _ after => ∀ draw, after = some draw → draw.Closes) ?_ ?_ draw
    hdraw
  · intro draw hdraw
    rw [hfresh.draw?_eq_none] at hdraw
    cases hdraw
  · intro trace e before after hstep hbefore
    exact hstep.closes hbefore

/-! ## The drawing -/

/-- Whether phase and time allow to draw the ids. -/
def Shuffle.Finishable (draw : Shuffle) (now : Int64) : Prop :=
  draw.phase = .revealed ∨ draw.phase = .revealing ∧ draw.deadline < now

/-- Whoever waits for the hard deadline of an open window can draw. -/
theorem Shuffle.Closes.finishable {draw : Shuffle} {now : Int64} (h : draw.Closes)
    (hphase : draw.phase = .revealing) (hlate : draw.hardDeadline < now) :
    draw.Finishable now := by
  refine .inr ⟨hphase, ?_⟩
  exact Int64.lt_of_le_of_lt h.deadline_le hlate

/-- A sale after units that nobody has revealed went back to stock: they are the units of all
reservations that are still committed, and stock has exactly these on top. -/
structure Forfeits (commitments : Registry Address Commitment) (sale : Address) (record : Sale)
    (forfeited : UInt64) (record' : Sale) : Prop where
  forfeited_eq : forfeited.toNat = unitsIn commitments sale .committed
  available_eq : record'.available.toNat = record.available.toNat + forfeited.toNat
  record_eq : record' = { record with allocated := record'.allocated }

section Drawing

variable {record : Sale} {draw : Shuffle} {commitments : Registry Address Commitment}
  {sale : Address} {c : Commitment} {now : Int64}

/-- What is not revealed is still committed. -/
theorem Balanced.committed_eq {units : CommitmentStatus → ℕ} (h : Balanced record draw units) :
    draw.totalReserved.toNat = draw.revealedUnits.toNat + units .committed := by
  have hreserved := h.reserved_eq
  have hrevealed := h.revealed_eq
  omega

/-- Before the ids are drawn, units that are still committed are out of stock. -/
theorem Balanced.committed_le {units : CommitmentStatus → ℕ} (h : Balanced record draw units)
    (hphase : draw.phase ≠ .shuffled) : units .committed ≤ record.allocated.toNat := by
  have hallocated := h.allocated_eq
  rw [outstanding, if_neg hphase] at hallocated
  omega

theorem Shuffle.Finishable.phase_ne (h : draw.Finishable now) : draw.phase ≠ .shuffled := by
  rcases h with hphase | ⟨hphase, -⟩
  · rw [hphase]
    decide
  · rw [hphase]
    decide

/-- In a balanced sale ids are drawn exactly if phase and time allow it. -/
theorem Balanced.revealIds_iff {units : CommitmentStatus → ℕ} (h : Balanced record draw units) :
    (∃ r, (Booking.revealIds now).attempt ⟨record, draw, c⟩ = .ok r) ↔ draw.Finishable now := by
  constructor
  · rintro ⟨r, hr⟩
    exact (Booking.attempt_revealIds.mp hr).1
  · intro hfinishable
    have hcommitted := h.committed_eq
    have hle := h.committed_le hfinishable.phase_ne
    obtain ⟨forfeited, hforfeited⟩ := Checked.exists_amount
      (Nat.lt_of_le_of_lt hle record.allocated.toNat_lt_size)
    obtain ⟨allocated, hallocated⟩ := Checked.exists_amount
      (n := record.allocated.toNat - units .committed)
      (Nat.lt_of_le_of_lt (Nat.sub_le _ _) record.allocated.toNat_lt_size)
    refine ⟨_, Booking.attempt_revealIds.mpr
      ⟨hfinishable, h.slots_lt, forfeited, allocated, ?_, ?_, rfl⟩⟩
    · rw [← hforfeited]
      exact hcommitted
    · show record.allocated.toNat = _
      omega

/-- What goes back to stock in a balanced sale. -/
theorem Balanced.forfeits (h : Balanced record draw (unitsIn commitments sale))
    {forfeited allocated : UInt64}
    (hf : draw.totalReserved.toNat = draw.revealedUnits.toNat + forfeited.toNat)
    (ha : record.allocated.toNat = forfeited.toNat + allocated.toNat) :
    Forfeits commitments sale record forfeited { record with allocated := allocated } where
  forfeited_eq := by
    have hcommitted := h.committed_eq
    omega
  available_eq := by
    have hle := h.allocated_le
    rw [Sale.toNat_available, Sale.toNat_available]
    show record.terms.supplyLimit.toNat - allocated.toNat = _
    omega
  record_eq := rfl

end Drawing

namespace State

variable {st : State} {sale : Address} {key : Bytes32} {record : Sale} {draw : Shuffle}
  {receipt : Receipt}

/-- The signed call by which a key draws the ids of a sale. -/
def drawCall (key : Bytes32) (sale : Address) : Call := ⟨key, true, .revealIds sale (.shuffle sale)⟩

/-- A call to draw goes through exactly if the step of the protocol does. -/
theorem execute_drawCall_iff (hrecord : st.sales.find? sale = some record)
    (hdraw : st.shuffles.find? (.shuffle sale) = some draw) :
    (∃ receipt, st.execute (drawCall key sale) = .ok receipt) ↔
      ∃ r, (Booking.revealIds st.now).attempt ⟨record, draw, .blank⟩ = .ok r := by
  have hrun : ∀ receipt, st.execute (drawCall key sale) = .ok receipt ↔
      st.revealIds ⟨.key key, true⟩ sale (.shuffle sale) = .ok receipt := fun _ => silent_eq_ok
  have hloaded := load_eq_ok.mpr hrecord
  have hdrawn := load_eq_ok.mpr hdraw
  have hsigned : Signer.verified ⟨.key key, true⟩ = .ok (.key key) := rfl
  have hseeds : checkSeeds (.shuffle sale) (.shuffle sale) = .ok () := checkSeeds_eq_ok.mpr rfl
  simp only [hrun, revealIds, hloaded, hdrawn, hsigned, hseeds, ok_bind]
  constructor
  · rintro ⟨receipt, hreceipt⟩
    obtain ⟨r, hr, -⟩ := bind_eq_ok.mp hreceipt
    exact ⟨r, ruled_eq_ok.mp hr⟩
  · rintro ⟨r, hr⟩
    rw [hr]
    exact ⟨_, rfl⟩

theorem not_revealIds_of_shuffled {call : Call} {shuffle : Address}
    (hdraw : st.draw? sale = some draw) (hphase : draw.phase = .shuffled)
    (hcall : call.instruction = .revealIds sale shuffle) : st.execute call ≠ .ok receipt := by
  intro hok
  have haccepted := accepted_of_run hok
  rw [hcall] at haccepted
  cases haccepted with
  | revealIds d =>
    obtain rfl : d.draw = draw := Registry.eq_of_find? d.drawn hdraw
    exact d.phase_ne hphase

end State

/-- In every state that a run reaches, the ids of a sale can be drawn exactly if everything is
revealed, or the window is open and its deadline is over; so certainly once the hard deadline is. As
a step of the protocol and as a call by anybody, the drawing reports the units of all reservations
that are still committed, gives exactly these back to stock, and changes nothing else of the sale.
After that no call draws the ids of the sale again. -/
theorem shuffle_can_be_finished {start st : State} {trace : List Entry} (hfresh : start.Fresh)
    (h : Run start trace st) {sale : Address} {record : Sale} {draw : Shuffle}
    (hrecord : st.sales.find? sale = some record)
    (hdraw : st.shuffles.find? (.shuffle sale) = some draw) (now : Int64) (key : Bytes32) :
    (∀ c, (∃ r, (Booking.revealIds now).attempt ⟨record, draw, c⟩ = .ok r) ↔
      draw.phase = .revealed ∨ draw.phase = .revealing ∧ draw.deadline < now) ∧
    ((∃ receipt, (st.atTime now).execute (State.drawCall key sale) = .ok receipt) ↔
      draw.phase = .revealed ∨ draw.phase = .revealing ∧ draw.deadline < now) ∧
    (draw.phase = .revealing → draw.hardDeadline < now →
      ∃ receipt, (st.atTime now).execute (State.drawCall key sale) = .ok receipt) ∧
    (∀ c forfeited b, (Booking.revealIds now).attempt ⟨record, draw, c⟩ = .ok (forfeited, b) →
      Forfeits st.commitments sale record forfeited b.sale) ∧
    ∀ receipt, (st.atTime now).execute (State.drawCall key sale) = .ok receipt →
      (∃ forfeited record', receipt.events = [.idsRevealed sale draw.totalReserved forfeited] ∧
        receipt.state.sales = st.sales.set sale record' ∧
        Forfeits st.commitments sale record forfeited record') ∧
      ∀ later st', Run receipt.state later st' → ∀ call shuffle receipt',
        call.instruction = .revealIds sale shuffle → st'.execute call ≠ .ok receipt' := by
  have hbalanced := (sound_of_run hfresh h).balanced_of_find? hrecord hdraw
  have hcloses := closes_of_run hfresh h hdraw
  have hstep : (∃ receipt, (st.atTime now).execute (State.drawCall key sale) = .ok receipt) ↔ _ :=
    State.execute_drawCall_iff hrecord hdraw
  have hcall := hstep.trans hbalanced.revealIds_iff
  refine ⟨fun c => hbalanced.revealIds_iff, hcall, ?_, ?_, ?_⟩
  · intro hphase hlate
    exact hcall.mpr (hcloses.finishable hphase hlate)
  · intro c forfeited b hb
    obtain ⟨-, -, _, allocated, hf, ha, hr⟩ := Booking.attempt_revealIds.mp hb
    obtain ⟨rfl, rfl⟩ := Prod.mk.inj hr
    exact hbalanced.forfeits hf ha
  · intro receipt hreceipt
    cases State.accepted_of_run hreceipt with
    | revealIds d =>
      obtain rfl : d.record = record := Registry.eq_of_find? d.loaded hrecord
      obtain rfl : d.draw = draw := Registry.eq_of_find? d.drawn hdraw
      refine ⟨⟨d.forfeited, _, d.events_eq, congrArg Books.sales d.books_eq,
        hbalanced.forfeits d.forfeited_eq d.allocated_eq⟩, ?_⟩
      intro later st' hlater call shuffle receipt' hagain
      -- a shuffle that is finished stays what it is, whatever comes after
      have hdrawn := State.draw?_of_set (congrArg Books.shuffles d.books_eq)
      obtain ⟨draw', hdraw', hprecedes⟩ := precedes_of_run hlater hdrawn
      obtain rfl := hprecedes.frozen rfl
      exact State.not_revealIds_of_shuffled hdraw' rfl hagain

/-- The window of the other sale closes with four units unrevealed; a stranger draws the ids. -/
theorem shuffle_can_be_finished_windowed :
    ∃ trace, Sample.start.Fresh ∧ Run Sample.start trace Sample.windowed ∧
      ∃ receipt forfeited record', (Sample.windowed.atTime 61).execute
          (State.drawCall (Vector.replicate 32 4) Sample.capped) = .ok receipt ∧
        receipt.events = [.idsRevealed Sample.capped 4 forfeited] ∧ forfeited.toNat = 4 ∧
        Forfeits Sample.windowed.commitments Sample.capped Sample.reservedRecord forfeited
          record' := by
  obtain ⟨trace, hrun⟩ := Sample.run_windowed
  have hrecord : Sample.windowed.sales.find? Sample.capped = some Sample.reservedRecord := rfl
  obtain ⟨-, hcall, -, -, heffect⟩ := shuffle_can_be_finished Sample.start_fresh hrun hrecord rfl 61
    (Vector.replicate 32 4)
  obtain ⟨receipt, hok⟩ := hcall.mpr (.inr ⟨rfl, by decide⟩)
  obtain ⟨⟨forfeited, record', hevents, -, hforfeits⟩, -⟩ := heffect receipt hok
  exact ⟨trace, Sample.start_fresh, hrun, receipt, forfeited, record', hok, hevents,
    hforfeits.forfeited_eq, hforfeits⟩

end UnitSale
