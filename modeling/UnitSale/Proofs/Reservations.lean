import UnitSale.Proofs.DrawsTheorems
import UnitSale.Proofs.Histories

/-!
# What the counters of a sale add up to

The stock counter of a sale counts units that are minted and units that are reserved, and the
counters of its shuffle count reservations by status. `Balanced` says so for one sale, `Books.Sound`
for all of them, and `sound_of_run` for every state that a run reaches.
-/

namespace UnitSale

/-! ## Units by status -/

/-- A figure added up over the reservations of a sale. -/
def overReservations (commitments : Registry Address Commitment) (sale : Address)
    (figure : Commitment → ℕ) : ℕ :=
  commitments.totalOf (fun c => c.sale = sale) figure

/-- The units of a reservation, counted if it has the given status. -/
def Commitment.unitsIn (c : Commitment) (status : CommitmentStatus) : ℕ :=
  if c.status = status then c.units.toNat else 0

/-- The units of all reservations of a sale that have the given status. -/
def unitsIn (commitments : Registry Address Commitment) (sale : Address)
    (status : CommitmentStatus) : ℕ :=
  commitments.total fun _ c => if c.sale = sale then c.unitsIn status else 0

theorem unitsIn_eq (commitments : Registry Address Commitment) (sale : Address)
    (status : CommitmentStatus) : unitsIn commitments sale status
      = overReservations commitments sale fun c => c.unitsIn status := rfl

/-- A reservation that counts for nothing before and after leaves all units as they are. -/
theorem unitsIn_set_of_zero {commitments : Registry Address Commitment} {key : Address}
    {new : Commitment} {status : CommitmentStatus}
    (hold : ∀ c, commitments.find? key = some c → c.status ≠ status) (hnew : new.status ≠ status)
    (sale : Address) :
    unitsIn (commitments.set key new) sale status = unitsIn commitments sale status := by
  have hzero : ∀ c : Commitment, c.status ≠ status →
      (if c.sale = sale then c.unitsIn status else 0) = 0 := by
    intro c hc
    rw [Commitment.unitsIn, if_neg hc, ite_self]
  unfold unitsIn
  cases hfound : commitments.find? key with
  | none => rw [Registry.total_set_of_none hfound, hzero new hnew, Nat.add_zero]
  | some old =>
    apply Registry.total_set_eq hfound
    rw [hzero new hnew, hzero old (hold old hfound)]

/-! ## One sale -/

/-- The units that reservations keep out of stock: those revealed, and those not yet revealed as
long as the ids are not drawn. -/
def outstanding (phase : Phase) (units : CommitmentStatus → ℕ) : ℕ :=
  units .revealed + if phase = .shuffled then 0 else units .committed

/-- The counters of a sale and of its shuffle, for reservations with the given units by status. -/
structure Balanced (record : Sale) (draw : Shuffle) (units : CommitmentStatus → ℕ) : Prop where
  limit_le : record.terms.supplyLimit.toNat ≤ maxSupplyLimit.toNat
  allocated_le : record.allocated.toNat ≤ record.terms.supplyLimit.toNat
  allocated_eq : record.allocated.toNat = record.totalMinted.toNat + outstanding draw.phase units
  reserved_eq : draw.totalReserved.toNat = units .committed + units .revealed + units .claimed
  reserved_le : draw.totalReserved.toNat ≤ maxSupplyLimit.toNat
  revealed_eq : draw.revealedUnits.toNat = units .revealed + units .claimed
  unclaimed : draw.phase ≠ .shuffled → units .claimed = 0
  permutation_eq : draw.phase = .shuffled →
    draw.permutation = permutation draw.seed draw.revealedUnits.toUInt32

namespace Balanced

variable {record record' : Sale} {draw : Shuffle} {units units' : CommitmentStatus → ℕ}
  {n allocated minted paid reserved pending revealed forfeited : UInt64}

/-- A sale that has just been opened. -/
theorem opened {owner sale : Address} {number : UInt64} {config : SaleConfig} {depth : UInt16}
    {bump : UInt8} (hlimit : config.supplyLimit ≤ maxSupplyLimit) (hunits : ∀ s, units s = 0) :
    Balanced (State.openedSale owner number config depth) (Shuffle.blank.bind sale bump) units where
  limit_le := UInt64.le_iff_toNat_le.mp hlimit
  allocated_le := Nat.zero_le _
  allocated_eq := by simp [outstanding, hunits, State.openedSale, Sale.blank]
  reserved_eq := by simp [hunits, Shuffle.bind, Shuffle.blank]
  reserved_le := Nat.zero_le _
  revealed_eq := by simp [hunits, Shuffle.bind, Shuffle.blank]
  unclaimed := fun _ => hunits _
  permutation_eq := fun h => by simp [Shuffle.bind, Shuffle.blank] at h

/-- Only terms and counters of stock and minted units matter. -/
theorem of_counters (h : Balanced record draw units) (hterms : record'.terms = record.terms)
    (hallocated : record'.allocated = record.allocated)
    (hminted : record'.totalMinted = record.totalMinted) : Balanced record' draw units where
  limit_le := by rw [hterms]; exact h.limit_le
  allocated_le := by rw [hterms, hallocated]; exact h.allocated_le
  allocated_eq := by rw [hallocated, hminted]; exact h.allocated_eq
  reserved_eq := h.reserved_eq
  reserved_le := h.reserved_le
  revealed_eq := h.revealed_eq
  unclaimed := h.unclaimed
  permutation_eq := h.permutation_eq

/-- A purchase takes units out of stock and mints them. -/
theorem sell (h : Balanced record draw units) (hstock : n ≤ record.available)
    (ha : record.allocated.toNat + n.toNat = allocated.toNat)
    (hm : record.totalMinted.toNat + n.toNat = minted.toNat) :
    Balanced { record with allocated := allocated, totalMinted := minted, amountPaid := paid } draw
      units where
  limit_le := h.limit_le
  allocated_le := record.taken_le h.allocated_le hstock ha
  allocated_eq := by
    have heq := h.allocated_eq
    show allocated.toNat = minted.toNat + outstanding draw.phase units
    omega
  reserved_eq := h.reserved_eq
  reserved_le := h.reserved_le
  revealed_eq := h.revealed_eq
  unclaimed := h.unclaimed
  permutation_eq := h.permutation_eq

/-- A reservation takes units out of stock and does not mint them. -/
theorem reserve (h : Balanced record draw units) (hopened : draw.phase = .opened)
    (hstock : n ≤ record.available) (ha : record.allocated.toNat + n.toNat = allocated.toNat)
    (hr : draw.totalReserved.toNat + n.toNat = reserved.toNat) (available : UInt64)
    (hcommitted : units' .committed = units .committed + n.toNat)
    (hrevealed : units' .revealed = units .revealed)
    (hclaimed : units' .claimed = units .claimed) :
    Balanced { record with allocated := allocated, amountPaid := paid }
      { draw with
        totalReserved := reserved, pending := pending
        phase := Booking.phaseAfterCommit available } units' := by
  have hphase := Booking.phaseAfterCommit_ne_shuffled available
  have hne : draw.phase ≠ .shuffled := by
    rw [hopened]
    decide
  have hallocated := h.allocated_eq
  have hreserved := h.reserved_eq
  have hunclaimed := h.unclaimed hne
  have htaken := record.taken_le h.allocated_le hstock ha
  have hlimit := h.limit_le
  rw [outstanding, if_neg hne] at hallocated
  refine {
    limit_le := hlimit
    allocated_le := htaken
    allocated_eq := ?_
    reserved_eq := ?_
    reserved_le := ?_
    revealed_eq := ?_
    unclaimed := fun _ => hclaimed.trans hunclaimed
    permutation_eq := fun hshuffled => absurd hshuffled hphase }
  · rw [outstanding, if_neg hphase]
    show allocated.toNat = record.totalMinted.toNat + (units' .revealed + units' .committed)
    omega
  · show reserved.toNat = _
    omega
  · -- before the ids are drawn, everything reserved is out of stock
    show reserved.toNat ≤ _
    omega
  · rw [hrevealed, hclaimed]
    exact h.revealed_eq

theorem openWindow (h : Balanced record draw units)
    (hphase : draw.phase = .opened ∨ draw.phase = .reserved) {draw' : Shuffle}
    (hdraw : draw'.phase = .revealing) (hreserved : draw'.totalReserved = draw.totalReserved)
    (hrevealed : draw'.revealedUnits = draw.revealedUnits) : Balanced record draw' units := by
  have hne : draw.phase ≠ .shuffled := by
    rcases hphase with h | h <;> rw [h] <;> decide
  have hne' : draw'.phase ≠ .shuffled := by
    rw [hdraw]
    decide
  have hallocated := h.allocated_eq
  rw [outstanding, if_neg hne] at hallocated
  refine { h with
    allocated_eq := ?_
    reserved_eq := ?_
    reserved_le := ?_
    revealed_eq := ?_
    unclaimed := fun _ => h.unclaimed hne
    permutation_eq := fun hshuffled => absurd hshuffled hne' }
  · rw [outstanding, if_neg hne']
    exact hallocated
  · rw [hreserved]
    exact h.reserved_eq
  · rw [hreserved]
    exact h.reserved_le
  · rw [hrevealed]
    exact h.revealed_eq

/-- A reveal moves the units of one reservation from committed to revealed. -/
theorem disclose (h : Balanced record draw units) (hphase : draw.phase = .revealing)
    (hr : draw.revealedUnits.toNat + n.toNat = revealed.toNat)
    (hcommitted : units' .committed + n.toNat = units .committed)
    (hrevealed : units' .revealed = units .revealed + n.toNat)
    (hclaimed : units' .claimed = units .claimed) {draw' : Shuffle}
    (hdraw : draw'.phase = Booking.phaseAfterReveal pending)
    (hreserved' : draw'.totalReserved = draw.totalReserved)
    (hrevealed' : draw'.revealedUnits = revealed) : Balanced record draw' units' := by
  have hne : draw.phase ≠ .shuffled := by
    rw [hphase]
    decide
  have hne' : draw'.phase ≠ .shuffled := by
    rw [hdraw]
    exact Booking.phaseAfterReveal_ne_shuffled _
  -- stock counts committed and revealed units alike, so it stays
  have hallocated := h.allocated_eq
  have hreserved := h.reserved_eq
  have hsofar := h.revealed_eq
  rw [outstanding, if_neg hne] at hallocated
  refine { h with
    allocated_eq := ?_
    reserved_eq := ?_
    reserved_le := ?_
    revealed_eq := ?_
    unclaimed := fun _ => hclaimed.trans (h.unclaimed hne)
    permutation_eq := fun hshuffled => absurd hshuffled hne' }
  · rw [outstanding, if_neg hne']
    omega
  · rw [hreserved']
    omega
  · rw [hreserved']
    exact h.reserved_le
  · rw [hrevealed']
    omega

/-- Drawing the ids gives back to stock what nobody has revealed. -/
theorem shuffle (h : Balanced record draw units)
    (hphase : draw.phase ≠ .shuffled)
    (hf : draw.totalReserved.toNat = draw.revealedUnits.toNat + forfeited.toNat)
    (ha : record.allocated.toNat = forfeited.toNat + allocated.toNat) :
    Balanced { record with allocated := allocated }
      { draw with
        permutation := permutation draw.seed draw.revealedUnits.toUInt32
        forfeitedUnits := forfeited, phase := .shuffled } units := by
  have hallocated := h.allocated_eq
  have hreserved := h.reserved_eq
  have hrevealed := h.revealed_eq
  have hle := h.allocated_le
  -- committed units are no longer outstanding, and exactly as many come back
  rw [outstanding, if_neg hphase] at hallocated
  refine { h with
    allocated_le := ?_
    allocated_eq := ?_
    unclaimed := fun hne => absurd rfl hne
    permutation_eq := fun _ => rfl }
  · show allocated.toNat ≤ record.terms.supplyLimit.toNat
    omega
  · rw [outstanding, if_pos rfl]
    show allocated.toNat = record.totalMinted.toNat + (units .revealed + 0)
    omega

/-- A claim mints units that are out of stock already. -/
theorem handOut (h : Balanced record draw units) (hphase : draw.phase = .shuffled)
    (hm : record.totalMinted.toNat + n.toNat = minted.toNat)
    (hcommitted : units' .committed = units .committed)
    (hrevealed : units' .revealed + n.toNat = units .revealed)
    (hclaimed : units' .claimed = units .claimed + n.toNat) :
    Balanced { record with totalMinted := minted } draw units' := by
  have hallocated := h.allocated_eq
  have hreserved := h.reserved_eq
  have hsofar := h.revealed_eq
  -- what is minted is no longer outstanding, so stock stays
  rw [outstanding, if_pos hphase] at hallocated
  refine { h with
    allocated_eq := ?_
    reserved_eq := ?_
    revealed_eq := ?_
    unclaimed := fun hne => absurd hphase hne }
  · rw [outstanding, if_pos hphase]
    show record.allocated.toNat = minted.toNat + (units' .revealed + 0)
    omega
  · omega
  · omega

/-- What is minted is out of stock. -/
theorem totalMinted_le (h : Balanced record draw units) :
    record.totalMinted.toNat ≤ record.allocated.toNat := by
  rw [h.allocated_eq]
  exact Nat.le_add_right _ _

/-- Taking units out of stock overflows nothing. -/
theorem allocated_add_lt (h : Balanced record draw units)
    (hstock : n.toNat ≤ record.terms.supplyLimit.toNat - record.allocated.toNat) :
    record.allocated.toNat + n.toNat < UInt64.size := by
  have hlimit := h.limit_le
  have hle := h.allocated_le
  have hmax : maxSupplyLimit.toNat = 2000 := rfl
  show record.allocated.toNat + n.toNat < 2 ^ 64
  omega

/-- Slots are few enough to be numbered by ids. -/
theorem slots_lt (h : Balanced record draw units) :
    draw.revealedUnits.toNat < UInt32.size := by
  have hreserved := h.reserved_eq
  have hle := h.reserved_le
  have hrevealed := h.revealed_eq
  have hmax : maxSupplyLimit.toNat = 2000 := rfl
  show draw.revealedUnits.toNat < 2 ^ 32
  omega

theorem toNat_slots (h : Balanced record draw units) :
    draw.revealedUnits.toUInt32.toNat = draw.revealedUnits.toNat := by
  rw [UInt64.toNat_toUInt32]
  exact Nat.mod_eq_of_lt h.slots_lt

/-- Once the ids are drawn, there is one for each revealed unit. -/
theorem permutation_perm (h : Balanced record draw units) (hphase : draw.phase = .shuffled) :
    draw.permutation.Perm (idsUpTo draw.revealedUnits.toNat) := by
  have hperm := UnitSale.permutation_perm draw.seed draw.revealedUnits.toUInt32
  rw [h.toNat_slots] at hperm
  rw [h.permutation_eq hphase]
  exact hperm

theorem length_permutation (h : Balanced record draw units) (hphase : draw.phase = .shuffled) :
    draw.permutation.length = draw.revealedUnits.toNat := by
  rw [(h.permutation_perm hphase).length_eq, length_idsUpTo]

theorem nodup_permutation (h : Balanced record draw units) (hphase : draw.phase = .shuffled) :
    draw.permutation.Nodup := by
  rw [h.permutation_eq hphase]
  exact UnitSale.nodup_permutation _ _

end Balanced

/-! ## All sales -/

/-- Every sale is balanced, and every reservation lives where it belongs, in a sale that exists. -/
structure Books.Sound (b : Books) : Prop where
  balanced : ∀ sale record, b.sales.find? sale = some record →
    ∃ draw, b.shuffles.find? (.shuffle sale) = some draw ∧
      Balanced record draw (unitsIn b.commitments sale)
  keyed : ∀ key c, b.commitments.find? key = some c → key = .commitment c.sale c.buyer
  some_units : ∀ key c, b.commitments.find? key = some c → 0 < c.units
  has_sale : ∀ key c, b.commitments.find? key = some c → ∃ record, b.sales.find? c.sale = some record

namespace Books.Sound

variable {b : Books} {sale buyer other : Address} {record : Sale} {draw : Shuffle}
  {c : Commitment} {found : Option Commitment} {ledgers : Registry Address Ledger}

/-- What stands at the address of a reservation belongs to that sale and that buyer. -/
theorem of_commitment (h : b.Sound) (hc : b.commitments.find? (.commitment sale buyer) = some c) :
    sale = c.sale ∧ buyer = c.buyer := by
  have hkey := h.keyed _ _ hc
  rw [Address.commitment.injEq] at hkey
  exact hkey

/-- The shuffle of a sale is the one that balances it. -/
theorem balanced_of_find? (h : b.Sound) (hrecord : b.sales.find? sale = some record)
    (hdraw : b.shuffles.find? (.shuffle sale) = some draw) :
    Balanced record draw (unitsIn b.commitments sale) := by
  obtain ⟨draw', hdraw', hbalanced⟩ := h.balanced sale record hrecord
  obtain rfl : draw' = draw := Registry.eq_of_find? hdraw' hdraw
  exact hbalanced

/-- Writing a reservation trades its figure in its sale. -/
theorem overReservations_set (h : b.Sound)
    (hfound : b.commitments.find? (.commitment sale buyer) = found) (hsale : c.sale = sale)
    (figure : Commitment → ℕ) :
    overReservations (b.commitments.set (.commitment sale buyer) c) sale figure
        + (found.map figure).getD 0
      = overReservations b.commitments sale figure + figure c := by
  subst hfound
  exact Registry.totalOf_set _ figure (fun _ hold => (h.of_commitment hold).1.symm) hsale

/-- A new reservation adds its units. -/
theorem unitsIn_add (h : b.Sound) (hnone : b.commitments.find? (.commitment sale buyer) = none)
    (hsale : c.sale = sale) (status : CommitmentStatus) :
    unitsIn (b.commitments.set (.commitment sale buyer) c) sale status
      = unitsIn b.commitments sale status + c.unitsIn status :=
  h.overReservations_set hnone hsale fun c => c.unitsIn status

/-- A reservation that changes moves its units from one status to the other. -/
theorem unitsIn_change (h : b.Sound) {old : Commitment}
    (hold : b.commitments.find? (.commitment sale buyer) = some old) (hsale : c.sale = sale)
    (status : CommitmentStatus) :
    unitsIn (b.commitments.set (.commitment sale buyer) c) sale status + old.unitsIn status
      = unitsIn b.commitments sale status + c.unitsIn status :=
  h.overReservations_set hold hsale fun c => c.unitsIn status

/-- Writing a reservation leaves the figures of other sales. -/
theorem overReservations_set_of_ne (h : b.Sound) (hsale : c.sale = sale) (hne : other ≠ sale)
    (figure : Commitment → ℕ) :
    overReservations (b.commitments.set (.commitment sale buyer) c) other figure
      = overReservations b.commitments other figure := by
  apply Registry.totalOf_set_of_not
  · intro old hold
    rw [← (h.of_commitment hold).1]
    exact hne.symm
  · rw [hsale]
    exact hne.symm

/-- Without a sale at an address there are no reservations in it. -/
theorem overReservations_of_no_sale (h : b.Sound) (hnone : b.sales.find? sale = none)
    (figure : Commitment → ℕ) : overReservations b.commitments sale figure = 0 := by
  apply Registry.totalOf_eq_zero
  intro key c hc hsale
  obtain ⟨record, hrecord⟩ := h.has_sale key c hc
  rw [hsale, hnone] at hrecord
  cases hrecord

/-- Writing one sale and its shuffle leaves the others balanced. -/
theorem balanced_write (h : b.Sound) {commitments : Registry Address Commitment}
    (hunits : ∀ s, s ≠ sale → unitsIn commitments s = unitsIn b.commitments s)
    (hbalanced : Balanced record draw (unitsIn commitments sale)) (s : Address) (r : Sale)
    (hr : (b.sales.set sale record).find? s = some r) :
    ∃ d, (b.shuffles.set (.shuffle sale) draw).find? (.shuffle s) = some d ∧
      Balanced r d (unitsIn commitments s) := by
  rw [Registry.find?_set] at hr
  -- the written sale has the written shuffle, any other sale keeps its own
  by_cases hs : s = sale
  · subst hs
    obtain rfl : record = r := by simpa using hr
    exact ⟨draw, Registry.find?_set_self _ _ _, hbalanced⟩
  · rw [if_neg hs] at hr
    have hne : Address.shuffle s ≠ .shuffle sale := by simpa using hs
    rw [Registry.find?_set_of_ne _ hne, hunits s hs]
    exact h.balanced s r hr

theorem exists_find?_set (h : ∃ r, b.sales.find? other = some r) :
    ∃ r, (b.sales.set sale record).find? other = some r := by
  rw [Registry.find?_set]
  split
  · exact ⟨record, rfl⟩
  · exact h

theorem write (h : b.Sound) (hbalanced : Balanced record draw (unitsIn b.commitments sale)) :
    Books.Sound ⟨b.sales.set sale record, b.shuffles.set (.shuffle sale) draw, ledgers,
      b.commitments⟩ where
  balanced := h.balanced_write (fun _ _ => rfl) hbalanced
  keyed := h.keyed
  some_units := h.some_units
  has_sale := fun key c hc => exists_find?_set (h.has_sale key c hc)

/-- Writing a sale, its shuffle and one of its reservations. -/
theorem writeCommitment (h : b.Sound) (hsale : c.sale = sale) (hbuyer : c.buyer = buyer)
    (hunits : 0 < c.units)
    (hbalanced : Balanced record draw (unitsIn (b.commitments.set (.commitment sale buyer) c) sale)) :
    Books.Sound ⟨b.sales.set sale record, b.shuffles.set (.shuffle sale) draw, ledgers,
      b.commitments.set (.commitment sale buyer) c⟩ where
  balanced := by
    refine h.balanced_write (fun s hs => ?_) hbalanced
    funext status
    exact h.overReservations_set_of_ne hsale hs _
  keyed := by
    refine Registry.forall_find?_set h.keyed ?_
    rw [hsale, hbuyer]
  some_units := Registry.forall_find?_set h.some_units hunits
  has_sale := by
    refine Registry.forall_find?_set (fun key c' hc' => ?_) ?_
    · exact exists_find?_set (h.has_sale key c' hc')
    · rw [hsale, Registry.find?_set_self]
      exact ⟨record, rfl⟩

end Books.Sound

/-! ## Instructions -/

namespace State

variable {st : State} {signer : Signer} {receipt : Receipt}
  {sale shuffle ledger commitment recipient mint vault : Address} {parties : TokenParties}

/-- Writing only a sale keeps the books sound if its terms, stock and minted units stay. -/
theorem sound_of_counters {record record' : Sale} {ledgers : Registry Address Ledger}
    (h : st.books.Sound) (hload : st.sales.find? sale = some record)
    (hterms : record'.terms = record.terms) (hallocated : record'.allocated = record.allocated)
    (hminted : record'.totalMinted = record.totalMinted) :
    Books.Sound ⟨st.sales.set sale record', st.shuffles, ledgers, st.commitments⟩ := by
  obtain ⟨draw, hdraw, hbalanced⟩ := h.balanced sale record hload
  rw [← Registry.set_of_find? (r := st.shuffles) hdraw]
  exact h.write (hbalanced.of_counters hterms hallocated hminted)

theorem Opening.sound {number : UInt64} {config : SaleConfig}
    (o : Opening st signer sale shuffle number config receipt) (h : st.books.Sound) :
    receipt.state.books.Sound := by
  rw [o.books_eq]
  exact h.write (Balanced.opened o.limit.2 fun _ => h.overReservations_of_no_sale o.sale_new _)

theorem VaultOpening.sound (o : VaultOpening st signer sale vault mint receipt)
    (h : st.books.Sound) : receipt.state.books.Sound := by
  rw [o.books_eq]
  exact sound_of_counters h o.loaded rfl rfl rfl

theorem Purchase.sound {who : Buyer} {request : MintRequest}
    (p : Purchase st signer who sale ledger recipient request parties receipt)
    (h : st.books.Sound) : receipt.state.books.Sound := by
  obtain ⟨draw, hdraw, hbalanced⟩ := h.balanced sale p.record p.loaded
  rw [p.books_eq]
  -- the shuffle is not written, which is as good as writing what stands there
  show Books.Sound ⟨_, st.shuffles, _, _⟩
  rw [← Registry.set_of_find? (r := st.shuffles) hdraw]
  exact h.write (hbalanced.sell p.in_stock p.allocated_eq p.minted_eq)

theorem Burning.sound {units : UInt64} (b : Burning st signer sale ledger units receipt)
    (h : st.books.Sound) : receipt.state.books.Sound := by
  rw [b.books_eq]
  exact sound_of_counters h b.loaded rfl rfl rfl

theorem Withdrawal.sound {amount : UInt64}
    (w : Withdrawal st signer sale recipient parties amount receipt) (h : st.books.Sound) :
    receipt.state.books.Sound := by
  rw [w.books_eq]
  exact sound_of_counters h w.loaded rfl rfl rfl

/-- A reservation is only made where there is none yet. -/
theorem Reservation.find?_eq_none {brought : Option Address} {hash : Bytes32}
    {units maximumPrice : UInt64}
    (r : Reservation st signer sale shuffle commitment brought hash units maximumPrice parties
      receipt) (h : st.books.Sound) :
    st.commitments.find? (.commitment sale signer.address) = none := by
  obtain ⟨-, -, hfound, -⟩ := withCommitment_effect r.mid_eq
  -- one that stands there has units, and one with units cannot be made again
  cases hold : st.commitments.find? (.commitment sale signer.address) with
  | none => rfl
  | some c =>
    rw [hold, Option.getD_some] at hfound
    have hpos := h.some_units _ c hold
    have hzero := r.unused
    rw [hfound] at hzero
    rw [hzero] at hpos
    exact absurd hpos (by decide)

theorem Reservation.sound {brought : Option Address} {hash : Bytes32}
    {units maximumPrice : UInt64}
    (r : Reservation st signer sale shuffle commitment brought hash units maximumPrice parties
      receipt) (h : st.books.Sound) : receipt.state.books.Sound := by
  have hnone := r.find?_eq_none h
  have hbalanced := h.balanced_of_find? r.loaded r.drawn
  rw [r.books_eq]
  refine h.writeCommitment rfl rfl r.some_units ?_
  refine hbalanced.reserve r.opened r.in_stock r.allocated_eq r.reserved_eq _ ?_ ?_ ?_
  · exact h.unitsIn_add hnone rfl _
  · exact h.unitsIn_add hnone rfl _
  · exact h.unitsIn_add hnone rfl _

theorem WindowOpening.sound {seed : Bytes32} {bound : TimeBound}
    (w : WindowOpening st signer sale shuffle seed bound receipt) (h : st.books.Sound) :
    receipt.state.books.Sound := by
  have hbalanced := h.balanced_of_find? w.loaded w.drawn
  rw [w.books_eq]
  show Books.Sound ⟨st.sales, _, _, _⟩
  rw [← Registry.set_of_find? (r := st.sales) w.loaded]
  exact h.write (hbalanced.openWindow w.phase rfl rfl rfl)

theorem Revelation.sound {secret : Bytes32}
    (r : Revelation st signer sale shuffle commitment secret receipt) (h : st.books.Sound) :
    receipt.state.books.Sound := by
  have hbalanced := h.balanced_of_find? r.loaded r.drawn
  have hold := r.reserved
  have hkey := h.of_commitment hold
  have hchange := h.unitsIn_change hold (c := { r.reservation with
    status := .revealed, slotStart := r.draw.revealedUnits }) hkey.1.symm
  have hcommitted := hchange .committed
  have hrevealed := hchange .revealed
  have hclaimed := hchange .claimed
  simp only [Commitment.unitsIn, r.committed, if_true, if_false, reduceCtorEq, Nat.add_zero]
    at hcommitted hrevealed hclaimed
  rw [r.books_eq]
  show Books.Sound ⟨st.sales, _, _, _⟩
  rw [← Registry.set_of_find? (r := st.sales) r.loaded]
  refine h.writeCommitment hkey.1.symm r.buyer r.some_units ?_
  exact hbalanced.disclose r.revealing r.revealed_eq hcommitted hrevealed hclaimed rfl rfl rfl

theorem Drawing.phase_ne (d : Drawing st signer sale shuffle receipt) :
    d.draw.phase ≠ .shuffled := by
  rcases d.phase with h | ⟨h, -⟩
  · rw [h]
    decide
  · rw [h]
    decide

theorem Drawing.sound (d : Drawing st signer sale shuffle receipt) (h : st.books.Sound) :
    receipt.state.books.Sound := by
  have hbalanced := h.balanced_of_find? d.loaded d.drawn
  rw [d.books_eq]
  exact h.write (hbalanced.shuffle d.phase_ne d.forfeited_eq d.allocated_eq)

theorem Handout.sound (c : Handout st signer sale shuffle commitment ledger receipt)
    (h : st.books.Sound) : receipt.state.books.Sound := by
  have hbalanced := h.balanced_of_find? c.loaded c.drawn
  have hold := c.reserved
  have hkey := h.of_commitment hold
  have hpos := h.some_units _ _ hold
  have hchange := h.unitsIn_change hold (c := { c.reservation with status := .claimed }) hkey.1.symm
  have hcommitted := hchange .committed
  have hrevealed := hchange .revealed
  have hclaimed := hchange .claimed
  simp only [Commitment.unitsIn, c.revealed, if_true, if_false, reduceCtorEq, Nat.add_zero]
    at hcommitted hrevealed hclaimed
  rw [c.books_eq]
  show Books.Sound ⟨_, st.shuffles, _, _⟩
  rw [← Registry.set_of_find? (r := st.shuffles) c.drawn]
  refine h.writeCommitment hkey.1.symm c.buyer hpos ?_
  exact hbalanced.handOut c.shuffled c.minted_eq hcommitted hrevealed hclaimed

theorem Accepted.sound {i : Instruction} (h : st.Accepted signer i receipt)
    (hsound : st.books.Sound) : receipt.state.books.Sound := by
  cases h with
  | openSale o => exact o.sound hsound
  | openVault o => exact o.sound hsound
  | calculate hstate => exact hstate ▸ hsound
  | mint p => exact p.sound hsound
  | mintFor p => exact p.sound hsound
  | burn b => exact b.sound hsound
  | withdraw w => exact w.sound hsound
  | royaltyInfo hstate => exact hstate ▸ hsound
  | commit r => exact r.sound hsound
  | startReveal w => exact w.sound hsound
  | reveal r => exact r.sound hsound
  | revealIds d => exact d.sound hsound
  | claimReserved c => exact c.sound hsound

theorem Fresh.sound (h : st.Fresh) : st.books.Sound := by
  rw [h.books_eq]
  exact {
    balanced := fun _ _ hr => by simp at hr
    keyed := fun _ _ hc => by simp at hc
    some_units := fun _ _ hc => by simp at hc
    has_sale := fun _ _ hc => by simp at hc }

end State

theorem sound_of_run {start st : State} {trace : List Entry} (hfresh : start.Fresh)
    (h : Run start trace st) : st.books.Sound := by
  refine Run.invariant (P := fun _ st => st.books.Sound) hfresh.sound ?_ ?_ h
  · intro trace e _ hsound
    exact e.accepted_case.sound hsound
  · intro trace st st' hout hsound
    rw [hout.books_eq]
    exact hsound

end UnitSale
