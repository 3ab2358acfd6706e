import UnitSale.Proofs.ProtocolSteps

/-!
# Slots of reservations

A reservation gets its slots when it is revealed: as many as it has units, from the running count of
revealed units on. Slots of different reservations never meet, and all of them lie below the count.
-/

namespace UnitSale

/-- The slots of one reservation end where those of another begin, or earlier. -/
def Commitment.EndsBefore (c c' : Commitment) : Prop :=
  c.slotStart.toNat + c.units.toNat ≤ c'.slotStart.toNat

/-- The units revealed in a sale so far. -/
def revealedIn (shuffles : Registry Address Shuffle) (sale : Address) : ℕ :=
  ((shuffles.find? (.shuffle sale)).map fun s => s.revealedUnits.toNat).getD 0

/-- Every reservation past its reveal has slots below the count, and no two of one sale meet. -/
structure Books.Slotted (b : Books) : Prop where
  inside : ∀ key c, b.commitments.find? key = some c → c.status ≠ .committed →
    c.slotStart.toNat + c.units.toNat ≤ revealedIn b.shuffles c.sale
  apart : ∀ key key' c c', b.commitments.find? key = some c → b.commitments.find? key' = some c' →
    key ≠ key' → c.sale = c'.sale → c.status ≠ .committed → c'.status ≠ .committed →
      c.EndsBefore c' ∨ c'.EndsBefore c

section Slotted

variable {b : Books} {shuffles : Registry Address Shuffle} {key sale : Address}
  {c old : Commitment} {draw draw' : Shuffle}

theorem revealedIn_of_find? (h : shuffles.find? (.shuffle sale) = some draw) :
    revealedIn shuffles sale = draw.revealedUnits.toNat := by
  unfold revealedIn
  rw [h]
  rfl

/-- The revealed units of a sale after a shuffle was written. -/
theorem revealedIn_set (shuffles : Registry Address Shuffle) (sale : Address) (draw : Shuffle)
    (other : Address) : revealedIn (shuffles.set (.shuffle sale) draw) other
      = if other = sale then draw.revealedUnits.toNat else revealedIn shuffles other := by
  by_cases hs : other = sale
  · subst hs
    rw [if_pos rfl, revealedIn_of_find? (Registry.find?_set_self _ _ _)]
  · have hne : Address.shuffle other ≠ .shuffle sale := by simpa using hs
    unfold revealedIn
    rw [if_neg hs, Registry.find?_set_of_ne _ hne]

/-- Counts of revealed units do not fall where the written one does not. -/
theorem revealedIn_le_set (hle : revealedIn shuffles sale ≤ draw.revealedUnits.toNat)
    (other : Address) :
    revealedIn shuffles other ≤ revealedIn (shuffles.set (.shuffle sale) draw) other := by
  rw [revealedIn_set]
  split
  · next hs =>
    rw [hs]
    exact hle
  · exact Nat.le_refl _

/-- Counts of revealed units stay when a shuffle is written that has revealed as many. -/
theorem revealedIn_set_of_eq (h : shuffles.find? (.shuffle sale) = some draw)
    (heq : draw'.revealedUnits = draw.revealedUnits) (other : Address) :
    revealedIn (shuffles.set (.shuffle sale) draw') other = revealedIn shuffles other := by
  rw [revealedIn_set, heq, ← revealedIn_of_find? h]
  split
  · next hs => rw [hs]
  · rfl

theorem revealedIn_le_set_of_eq (h : shuffles.find? (.shuffle sale) = some draw)
    (heq : draw'.revealedUnits = draw.revealedUnits) (other : Address) :
    revealedIn shuffles other ≤ revealedIn (shuffles.set (.shuffle sale) draw') other :=
  Nat.le_of_eq (revealedIn_set_of_eq h heq other).symm

theorem revealedIn_of_none (h : shuffles.find? (.shuffle sale) = none) :
    revealedIn shuffles sale = 0 := by
  unfold revealedIn
  rw [h]
  rfl

namespace Books.Slotted

/-- Slots stay where they are while counts of revealed units do not fall. -/
theorem grow (h : b.Slotted) {b' : Books} (hcommitments : b'.commitments = b.commitments)
    (hgrow : ∀ s, revealedIn b.shuffles s ≤ revealedIn b'.shuffles s) : b'.Slotted where
  inside := by
    intro key c hc hstatus
    rw [hcommitments] at hc
    exact Nat.le_trans (h.inside key c hc hstatus) (hgrow c.sale)
  apart := by
    rw [hcommitments]
    exact h.apart

/-- A reservation may be written if its own slots, once it has any, keep the rules. -/
theorem write (h : b.Slotted) {b' : Books} (hcommitments : b'.commitments = b.commitments.set key c)
    (hgrow : ∀ s, revealedIn b.shuffles s ≤ revealedIn b'.shuffles s)
    (hinside : c.status ≠ .committed →
      c.slotStart.toNat + c.units.toNat ≤ revealedIn b'.shuffles c.sale)
    (hapart : ∀ key' c', b.commitments.find? key' = some c' → key' ≠ key → c'.sale = c.sale →
      c.status ≠ .committed → c'.status ≠ .committed → c.EndsBefore c' ∨ c'.EndsBefore c) :
    b'.Slotted where
  inside := by
    rw [hcommitments]
    refine Registry.forall_find?_set (fun key₁ c₁ hc₁ hstatus => ?_) hinside
    exact Nat.le_trans (h.inside key₁ c₁ hc₁ hstatus) (hgrow c₁.sale)
  apart := by
    intro key₁ key₂ c₁ c₂ hc₁ hc₂ hne hsale hstatus₁ hstatus₂
    rw [hcommitments, Registry.find?_set] at hc₁ hc₂
    -- the two keys differ, so at most one of them is the written one
    split at hc₁
    · next hkey₁ =>
      obtain rfl : c = c₁ := by simpa using hc₁
      have hkey₂ : key₂ ≠ key := fun heq => hne (hkey₁.trans heq.symm)
      rw [if_neg hkey₂] at hc₂
      exact hapart key₂ c₂ hc₂ hkey₂ hsale.symm hstatus₁ hstatus₂
    · next hkey₁ =>
      split at hc₂
      · obtain rfl : c = c₂ := by simpa using hc₂
        exact (hapart key₁ c₁ hc₁ hkey₁ hsale hstatus₂ hstatus₁).symm
      · exact h.apart key₁ key₂ c₁ c₂ hc₁ hc₂ hne hsale hstatus₁ hstatus₂

end Books.Slotted
end Slotted

/-! ## Instructions -/

namespace State

variable {st : State} {signer : Signer} {receipt : Receipt}
  {sale shuffle ledger commitment : Address} {parties : TokenParties}

theorem Opening.slotted {number : UInt64} {config : SaleConfig}
    (o : Opening st signer sale shuffle number config receipt) (h : st.books.Slotted) :
    receipt.state.books.Slotted := by
  rw [o.books_eq]
  refine h.grow rfl (revealedIn_le_set ?_)
  show revealedIn st.shuffles sale ≤ _
  rw [revealedIn_of_none o.shuffle_new]
  exact Nat.zero_le _

theorem Reservation.slotted {brought : Option Address} {hash : Bytes32}
    {units maximumPrice : UInt64}
    (r : Reservation st signer sale shuffle commitment brought hash units maximumPrice parties
      receipt) (h : st.books.Slotted) : receipt.state.books.Slotted := by
  rw [r.books_eq]
  refine h.write rfl (revealedIn_le_set_of_eq r.drawn rfl) ?_ ?_
  · intro hstatus
    exact absurd rfl hstatus
  · intro _ _ _ _ _ hstatus _
    exact absurd rfl hstatus

theorem WindowOpening.slotted {seed : Bytes32} {bound : TimeBound}
    (w : WindowOpening st signer sale shuffle seed bound receipt) (h : st.books.Slotted) :
    receipt.state.books.Slotted := by
  rw [w.books_eq]
  exact h.grow rfl (revealedIn_le_set_of_eq w.drawn rfl)

theorem Revelation.slotted {secret : Bytes32}
    (r : Revelation st signer sale shuffle commitment secret receipt) (h : st.books.Slotted)
    (hsound : st.books.Sound) : receipt.state.books.Slotted := by
  have hkey := hsound.of_commitment r.reserved
  have hcount : revealedIn st.shuffles sale = r.draw.revealedUnits.toNat :=
    revealedIn_of_find? r.drawn
  have hrevealed := r.revealed_eq
  rw [r.books_eq]
  refine h.write rfl (revealedIn_le_set ?_) ?_ ?_
  · show revealedIn st.shuffles sale ≤ r.revealed.toNat
    omega
  · intro _
    show r.draw.revealedUnits.toNat + r.reservation.units.toNat
      ≤ revealedIn (st.shuffles.set (.shuffle sale) _) r.reservation.sale
    rw [← hkey.1, revealedIn_of_find? (Registry.find?_set_self _ _ _)]
    exact Nat.le_of_eq hrevealed
  · -- the new slots start where all earlier ones have ended
    intro key' c' hc' _ hsale _ hstatus'
    have hinside := h.inside key' c' hc' hstatus'
    have hsale' : c'.sale = sale := hsale.trans hkey.1.symm
    rw [hsale'] at hinside
    exact .inr (Nat.le_trans hinside (Nat.le_of_eq hcount))

theorem Drawing.slotted (d : Drawing st signer sale shuffle receipt) (h : st.books.Slotted) :
    receipt.state.books.Slotted := by
  rw [d.books_eq]
  exact h.grow rfl (revealedIn_le_set_of_eq d.drawn rfl)

theorem Handout.slotted (c : Handout st signer sale shuffle commitment ledger receipt)
    (h : st.books.Slotted) : receipt.state.books.Slotted := by
  -- a claim moves no slots, so the old ones do
  have hstatus : c.reservation.status ≠ .committed := by
    rw [c.revealed]
    decide
  rw [c.books_eq]
  refine h.write rfl (fun _ => Nat.le_refl _) ?_ ?_
  · intro _
    exact h.inside _ c.reservation c.reserved hstatus
  · intro key' c' hc' hne hsale _ hstatus'
    exact h.apart _ key' c.reservation c' c.reserved hc' hne.symm hsale.symm hstatus hstatus'

theorem Accepted.slotted {i : Instruction} (h : st.Accepted signer i receipt)
    (hsound : st.books.Sound) (hslotted : st.books.Slotted) : receipt.state.books.Slotted := by
  cases h.protocolStep with
  | none hshuffles hcommitments => exact hslotted.grow hcommitments fun _ => by rw [hshuffles]
  | opens o => exact o.slotted hslotted
  | reserves r => exact r.slotted hslotted
  | opensWindow w => exact w.slotted hslotted
  | reveals r => exact r.slotted hslotted hsound
  | draws d => exact d.slotted hslotted
  | handsOut c => exact c.slotted hslotted

end State

theorem slotted_of_run {start st : State} {trace : List Entry} (hfresh : start.Fresh)
    (h : Run start trace st) : st.books.Slotted := by
  refine Run.invariant (P := fun _ st => st.books.Slotted) ?_ ?_ ?_ h
  · rw [hfresh.books_eq]
    exact {
      inside := fun _ _ hc => by simp at hc
      apart := fun _ _ _ _ hc => by simp at hc }
  · intro trace e hrun hslotted
    exact e.accepted_case.slotted (sound_of_run hfresh hrun) hslotted
  · intro trace st st' hout hslotted
    rw [hout.books_eq]
    exact hslotted

end UnitSale
