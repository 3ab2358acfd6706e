import UnitSale.Proofs.ProtocolSteps

/-!
# What a phase stands for

The phase of a shuffle is moved on by single steps, none of which looks at all reservations. It is
right because of what the counters add up to: something is left to reveal while the window is open,
nothing once everything is revealed. `Phased` is what every turn keeps of this, and `Books.Counted`
ties the count of pending reservations to the reservations that are there.
-/

namespace UnitSale

/-! ## One sale -/

/-- No ids are drawn yet. -/
structure Undrawn (draw : Shuffle) : Prop where
  permutation_eq : draw.permutation = []
  forfeited_eq : draw.forfeitedUnits = 0

/-- Nothing is revealed yet, and if anything is reserved there is something to reveal. -/
structure Unrevealed (draw : Shuffle) : Prop extends Undrawn draw where
  revealed_eq : draw.revealedUnits = 0
  some_pending : 0 < draw.totalReserved → 0 < draw.pending.toNat

/-- What the phase of a sale says about its counters. -/
def Phased (record : Sale) (draw : Shuffle) : Prop :=
  match draw.phase with
  | .opened => Unrevealed draw
  | .reserved => Unrevealed draw ∧ record.available.toNat = 0
  | .revealing => Undrawn draw ∧ 0 < draw.pending.toNat
  | .revealed => Undrawn draw ∧ draw.pending = 0
  | .shuffled => draw.totalReserved.toNat = draw.revealedUnits.toNat + draw.forfeitedUnits.toNat

namespace Phased

variable {record record' : Sale} {draw : Shuffle} {reserved pending : UInt64}

theorem unrevealed (h : Phased record draw)
    (hphase : draw.phase = .opened ∨ draw.phase = .reserved) : Unrevealed draw := by
  unfold Phased at h
  rcases hphase with hphase | hphase
  · rw [hphase] at h
    exact h
  · rw [hphase] at h
    exact h.1

theorem undrawn (h : Phased record draw) (hphase : draw.phase ≠ .shuffled) : Undrawn draw := by
  unfold Phased at h
  cases hp : draw.phase with
  | opened =>
    rw [hp] at h
    exact h.toUndrawn
  | reserved =>
    rw [hp] at h
    exact h.1.toUndrawn
  | revealing =>
    rw [hp] at h
    exact h.1
  | revealed =>
    rw [hp] at h
    exact h.1
  | shuffled => exact absurd hp hphase

/-- A sale that takes no more reservations for want of stock has none. -/
theorem sold_out (h : Phased record draw) (hphase : draw.phase = .reserved) :
    record.available = 0 := by
  rw [Phased, hphase] at h
  exact UInt64.toNat_inj.mp h.2

/-- While the window is open, something is left to reveal. -/
theorem some_pending (h : Phased record draw) (hphase : draw.phase = .revealing) :
    1 ≤ draw.pending := by
  rw [Phased, hphase] at h
  exact UInt64.le_iff_toNat_le.mpr h.2

theorem none_pending (h : Phased record draw) (hphase : draw.phase = .revealed) :
    draw.pending = 0 := by
  rw [Phased, hphase] at h
  exact h.2

theorem forfeited (h : Phased record draw) (hphase : draw.phase = .shuffled) :
    draw.totalReserved.toNat = draw.revealedUnits.toNat + draw.forfeitedUnits.toNat := by
  rw [Phased, hphase] at h
  exact h

theorem of_available_le (h : Phased record draw)
    (hle : record'.available.toNat ≤ record.available.toNat) : Phased record' draw := by
  unfold Phased at h ⊢
  cases hp : draw.phase with
  | reserved =>
    rw [hp] at h
    exact ⟨h.1, Nat.eq_zero_of_le_zero (h.2 ▸ hle)⟩
  | _ =>
    rw [hp] at h
    exact h

/-- A reservation leaves something to reveal. -/
theorem reserve (h : Phased record draw) (hopened : draw.phase = .opened)
    (hpending : draw.pending.toNat + 1 = pending.toNat) :
    Phased record' { draw with
      totalReserved := reserved, pending := pending
      phase := Booking.phaseAfterCommit record'.available } := by
  have hbefore := h.unrevealed (.inl hopened)
  have hafter : ∀ phase, Unrevealed { draw with
      totalReserved := reserved, pending := pending, phase := phase } := fun phase => {
    permutation_eq := hbefore.permutation_eq
    forfeited_eq := hbefore.forfeited_eq
    revealed_eq := hbefore.revealed_eq
    some_pending := fun _ => hpending ▸ Nat.succ_pos _ }
  unfold Booking.phaseAfterCommit
  by_cases hzero : record'.available = 0
  · rw [if_pos hzero]
    refine ⟨hafter _, ?_⟩
    rw [hzero]
    rfl
  · rw [if_neg hzero]
    exact hafter _

/-- A reveal leaves something to reveal or ends the revealing. -/
theorem disclose (h : Phased record draw) (hphase : draw.phase = .revealing) {draw' : Shuffle}
    (hdraw : draw'.phase = Booking.phaseAfterReveal draw'.pending)
    (hpermutation : draw'.permutation = draw.permutation)
    (hforfeited : draw'.forfeitedUnits = draw.forfeitedUnits) : Phased record draw' := by
  have hbefore := h.undrawn (by rw [hphase]; decide)
  have hafter : Undrawn draw' := {
    permutation_eq := hpermutation.trans hbefore.permutation_eq
    forfeited_eq := hforfeited.trans hbefore.forfeited_eq }
  unfold Booking.phaseAfterReveal at hdraw
  unfold Phased
  by_cases hzero : draw'.pending = 0
  · rw [if_pos hzero] at hdraw
    rw [hdraw]
    exact ⟨hafter, hzero⟩
  · rw [if_neg hzero] at hdraw
    rw [hdraw]
    exact ⟨hafter, Nat.pos_of_ne_zero fun hnat => hzero (UInt64.toNat_inj.mp hnat)⟩

end Phased

/-- Every turn leaves the counters as the phase says. -/
theorem State.Turn.phased {st : State} {signer : Signer} {receipt : Receipt} {sale : Address}
    {record record' : Sale} {draw draw' : Shuffle}
    (h : Turn st signer receipt sale record draw record' draw') (hphased : Phased record draw) :
    Phased record' draw' := by
  cases h with
  | keeps => exact hphased
  | opensVault => exact hphased.of_available_le (Nat.le_refl _)
  | sells p hrecord =>
    subst hrecord
    refine hphased.of_available_le ?_
    have hallocated := p.allocated_eq
    rw [Sale.toNat_available, Sale.toNat_available]
    dsimp only
    omega
  | burns => exact hphased.of_available_le (Nat.le_refl _)
  | paysOut => exact hphased.of_available_le (Nat.le_refl _)
  | reserves r hrecord hdraw =>
    subst hrecord hdraw
    exact hphased.reserve r.opened r.pending_eq
  | opensWindow w hrecord hdraw =>
    subst hrecord hdraw
    have hbefore := hphased.unrevealed w.phase
    exact ⟨⟨hbefore.permutation_eq, hbefore.forfeited_eq⟩, hbefore.some_pending w.some_reserved⟩
  | reveals r hrecord hdraw =>
    subst hrecord hdraw
    exact hphased.disclose r.revealing rfl rfl rfl
  | draws d hrecord hdraw =>
    subst hrecord hdraw
    exact d.forfeited_eq
  | handsOut => exact hphased.of_available_le (Nat.le_refl _)

theorem phased_of_run {start st : State} {trace : List Entry} (hfresh : start.Fresh)
    (h : Run start trace st) {sale : Address} {record : Sale} {draw : Shuffle}
    (hrecord : st.books.sales.find? sale = some record)
    (hdraw : st.books.shuffles.find? (.shuffle sale) = some draw) : Phased record draw := by
  refine Run.each_sale (P := Phased) hfresh ?_ State.Turn.phased h sale record draw hrecord hdraw
  intro st signer sale shuffle number config receipt o
  show Unrevealed _
  exact {
    permutation_eq := rfl
    forfeited_eq := rfl
    revealed_eq := rfl
    some_pending := fun hsome => absurd hsome (UInt64.lt_irrefl _) }

/-! ## All reservations of a sale -/

/-- One for a reservation that is still to be revealed. -/
def Commitment.waiting (c : Commitment) : ℕ := if c.status = .committed then 1 else 0

/-- The units of a reservation, counted once it is past its reveal. -/
def Commitment.disclosed (c : Commitment) : ℕ := if c.status = .committed then 0 else c.units.toNat

section Figures

variable {commitments : Registry Address Commitment} {sale : Address}

/-- All units of a sale, status by status. -/
theorem overReservations_units : overReservations commitments sale (fun c => c.units.toNat)
    = unitsIn commitments sale .committed + unitsIn commitments sale .revealed
      + unitsIn commitments sale .claimed := by
  simp only [unitsIn_eq, overReservations, ← Registry.totalOf_add]
  apply Registry.totalOf_congr
  intro key c _ _
  cases hstatus : c.status <;> simp [Commitment.unitsIn, hstatus]

/-- The units past their reveal are the revealed and the claimed ones. -/
theorem overReservations_disclosed : overReservations commitments sale Commitment.disclosed
    = unitsIn commitments sale .revealed + unitsIn commitments sale .claimed := by
  simp only [unitsIn_eq, overReservations, ← Registry.totalOf_add]
  apply Registry.totalOf_congr
  intro key c _ _
  cases hstatus : c.status <;> simp [Commitment.unitsIn, Commitment.disclosed, hstatus]

/-- Where nothing is still to be revealed, all units are past their reveal. -/
theorem overReservations_disclosed_of_none
    (h : overReservations commitments sale Commitment.waiting = 0) :
    overReservations commitments sale Commitment.disclosed
      = overReservations commitments sale fun c => c.units.toNat := by
  apply Registry.totalOf_congr
  intro key c hc hsale
  have hzero : c.waiting = 0 := Registry.figure_eq_zero h hc hsale
  by_cases hstatus : c.status = .committed
  · rw [Commitment.waiting, if_pos hstatus] at hzero
    cases hzero
  · rw [Commitment.disclosed, if_neg hstatus]

end Figures

/-- The pending reservations of every sale are those that are still to be revealed. -/
def Books.Counted (b : Books) : Prop :=
  ∀ sale draw, b.shuffles.find? (.shuffle sale) = some draw →
    draw.pending.toNat = overReservations b.commitments sale Commitment.waiting

namespace Books.Counted

variable {b : Books} {sales : Registry Address Sale} {ledgers : Registry Address Ledger}
  {sale buyer : Address} {draw draw' : Shuffle} {c : Commitment} {found : Option Commitment}

/-- Writing a shuffle with the right count, and no reservations but those of its sale. -/
theorem of_write (h : b.Counted) {commitments : Registry Address Commitment}
    (hothers : ∀ s, s ≠ sale → overReservations commitments s Commitment.waiting
      = overReservations b.commitments s Commitment.waiting)
    (hcount : draw'.pending.toNat = overReservations commitments sale Commitment.waiting) :
    Books.Counted ⟨sales, b.shuffles.set (.shuffle sale) draw', ledgers, commitments⟩ := by
  intro s d hd
  rw [Registry.find?_set] at hd
  split at hd
  · next hs =>
    obtain rfl := Address.shuffle.inj hs
    obtain rfl := Option.some.inj hd
    exact hcount
  · next hs =>
    have hne : s ≠ sale := fun heq => hs (heq ▸ rfl)
    exact (h s d hd).trans (hothers s hne).symm

theorem writeShuffle (h : b.Counted)
    (hcount : draw'.pending.toNat = overReservations b.commitments sale Commitment.waiting) :
    Books.Counted ⟨sales, b.shuffles.set (.shuffle sale) draw', ledgers, b.commitments⟩ :=
  h.of_write (fun _ _ => rfl) hcount

/-- Writing a shuffle and a reservation, whose count is traded for the one that stood there. -/
theorem write (h : b.Counted) (hsound : b.Sound)
    (hdraw : b.shuffles.find? (.shuffle sale) = some draw)
    (hfound : b.commitments.find? (.commitment sale buyer) = found) (hsale : c.sale = sale)
    (hcount : draw'.pending.toNat + (found.map Commitment.waiting).getD 0
      = draw.pending.toNat + c.waiting) :
    Books.Counted ⟨sales, b.shuffles.set (.shuffle sale) draw', ledgers,
      b.commitments.set (.commitment sale buyer) c⟩ := by
  refine h.of_write (fun s hs => hsound.overReservations_set_of_ne hsale hs _) ?_
  have hold := h sale draw hdraw
  have hset := hsound.overReservations_set hfound hsale Commitment.waiting
  omega

end Books.Counted

namespace State

variable {st : State} {signer : Signer} {receipt : Receipt} {i : Instruction}

theorem Accepted.counted (h : st.Accepted signer i receipt) (hsound : st.books.Sound)
    (hcounted : st.books.Counted) : receipt.state.books.Counted := by
  cases h.protocolStep with
  | none hshuffles hcommitments =>
    unfold Books.Counted
    rw [hshuffles, hcommitments]
    exact hcounted
  | opens o =>
    rw [o.books_eq]
    exact hcounted.writeShuffle (hsound.overReservations_of_no_sale o.sale_new _).symm
  | reserves r =>
    rw [r.books_eq]
    exact hcounted.write hsound r.drawn (r.find?_eq_none hsound) rfl r.pending_eq.symm
  | opensWindow w =>
    have hcount := hcounted _ _ w.drawn
    rw [w.books_eq]
    exact hcounted.writeShuffle hcount
  | reveals r =>
    have hkey := hsound.of_commitment r.reserved
    have hpending := r.pending_eq
    rw [r.books_eq]
    refine hcounted.write hsound r.drawn r.reserved hkey.1.symm ?_
    rw [Option.map_some, Option.getD_some, Commitment.waiting, if_pos r.committed]
    show r.pending.toNat + 1 = r.draw.pending.toNat + 0
    omega
  | draws d =>
    have hcount := hcounted _ _ d.drawn
    rw [d.books_eq]
    exact hcounted.writeShuffle hcount
  | handsOut c =>
    have hkey := hsound.of_commitment c.reserved
    rw [c.books_eq]
    show Books.Counted ⟨_, st.shuffles, _, _⟩
    rw [← Registry.set_of_find? (r := st.shuffles) c.drawn]
    refine hcounted.write hsound c.drawn c.reserved hkey.1.symm ?_
    rw [Option.map_some, Option.getD_some, Commitment.waiting, c.revealed]
    rfl

end State

theorem counted_of_run {start st : State} {trace : List Entry} (hfresh : start.Fresh)
    (h : Run start trace st) : st.books.Counted := by
  refine Run.invariant (P := fun _ st => st.books.Counted) ?_ ?_ ?_ h
  · intro sale draw hdraw
    rw [hfresh.books_eq] at hdraw
    cases hdraw
  · intro trace e hrun hcounted
    exact e.accepted_case.counted (sound_of_run hfresh hrun) hcounted
  · intro trace st st' hout hcounted
    rw [hout.books_eq]
    exact hcounted

end UnitSale
