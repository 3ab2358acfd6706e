import UnitSale.Proofs.Slots

/-!
# Ids are handed out exactly once

The ids that claims hand out are read off the trace of a run. No two claims of a sale have a buyer
or an id in common, nobody claims without having revealed, every revealed reservation can be claimed
once the ids are drawn, and when all of them are claimed no id is left.
-/

namespace UnitSale

/-! ## Claims in a trace -/

/-- The buyer and the ids of a claim in a sale. -/
def Event.handout (sale : Address) : Event → Option (Address × List UInt32)
  | .reservationClaimed s buyer ids => if s = sale then some (buyer, ids) else none
  | _ => none

/-- Whether an event is the reveal of a buyer's secret in a sale. -/
def Event.IsReveal (sale buyer : Address) : Event → Prop
  | .secretRevealed s b _ _ _ => s = sale ∧ b = buyer
  | _ => False

/-- All claims in a sale in order: who claimed, and which ids were handed out. -/
def handouts (sale : Address) (trace : List Entry) : List (Address × List UInt32) :=
  trace.flatMap fun e => e.receipt.events.filterMap (Event.handout sale)

theorem handouts_append (sale : Address) (trace : List Entry) (e : Entry) :
    handouts sale (trace ++ [e])
      = handouts sale trace ++ e.receipt.events.filterMap (Event.handout sale) := by
  unfold handouts
  rw [List.flatMap_append, List.flatMap_singleton]

theorem Event.handout_of_isTrade {event : Event} (h : event.IsTrade) (sale : Address) :
    event.handout sale = none := by
  cases event with
  | unitsMinted => rfl
  | unitsBurned => rfl
  | fundsWithdrawn => rfl
  | _ => exact absurd h id

namespace State

variable {st : State} {signer : Signer} {receipt : Receipt}
  {sale shuffle ledger commitment key buyer : Address} {parties : TokenParties} {c : Commitment}

/-! ## What an instruction leaves as it is -/

theorem Turn.draw_eq {record record' : Sale} {draw draw' : Shuffle}
    (h : Turn st signer receipt sale record draw record' draw') (hphase : draw.phase = .shuffled) :
    draw' = draw := by
  cases h with
  | keeps => rfl
  | opensVault => rfl
  | sells => rfl
  | burns => rfl
  | paysOut => rfl
  | reserves r _ hdraw =>
    rw [← hdraw, r.opened] at hphase
    cases hphase
  | opensWindow w _ hdraw =>
    rw [← hdraw] at hphase
    rcases w.phase with h | h <;> rw [h] at hphase <;> cases hphase
  | reveals r _ hdraw =>
    rw [← hdraw, r.revealing] at hphase
    cases hphase
  | draws d _ hdraw =>
    rw [← hdraw] at hphase
    exact absurd hphase d.phase_ne
  | handsOut => rfl

theorem Accepted.claimed_kept {i : Instruction} (h : st.Accepted signer i receipt)
    (hsound : st.books.Sound) (hc : st.books.commitments.find? key = some c)
    (hstatus : c.status = .claimed) : receipt.state.books.commitments.find? key = some c := by
  cases h.reservationStep hsound key with
  | keeps hkeeps => exact hkeeps.trans hc
  | makes _ _ hnone => cases hnone.symm.trans hc
  | reveals r _ hbefore =>
    obtain rfl : r.reservation = c := Registry.eq_of_find? hbefore hc
    rw [r.committed] at hstatus
    cases hstatus
  | claims o _ hbefore =>
    obtain rfl : o.reservation = c := Registry.eq_of_find? hbefore hc
    rw [o.revealed] at hstatus
    cases hstatus

/-- A reservation that is past its reveal was so before, or has just been revealed. -/
theorem Accepted.past_reveal {i : Instruction} (h : st.Accepted signer i receipt)
    (hsound : st.books.Sound) (hc : receipt.state.books.commitments.find? key = some c)
    (hstatus : c.status ≠ .committed) :
    (∃ old, st.books.commitments.find? key = some old ∧ old.status ≠ .committed ∧
      old.sale = c.sale ∧ old.buyer = c.buyer) ∨
      ∃ event ∈ receipt.events, event.IsReveal c.sale c.buyer := by
  cases h.reservationStep hsound key with
  | keeps hkeeps => exact .inl ⟨c, hkeeps.symm.trans hc, hstatus, rfl, rfl⟩
  | makes _ _ _ hafter =>
    obtain rfl := Option.some.inj (hafter.symm.trans hc)
    exact absurd rfl hstatus
  | reveals r _ _ hafter =>
    obtain rfl := Option.some.inj (hafter.symm.trans hc)
    have hkey := hsound.of_commitment r.reserved
    right
    rw [r.events_eq]
    exact ⟨_, List.mem_singleton_self _, hkey.1, hkey.2⟩
  | claims o _ hbefore hafter =>
    obtain rfl := Option.some.inj (hafter.symm.trans hc)
    have hpast : o.reservation.status ≠ .committed := by
      rw [o.revealed]
      decide
    exact .inl ⟨o.reservation, hbefore, hpast, rfl, rfl⟩

/-- An instruction hands out nothing and claims nothing, unless it is a claim. -/
theorem Accepted.quiet_or_handsOut {i : Instruction} (h : st.Accepted signer i receipt)
    (hsound : st.books.Sound) :
    ((∀ s, receipt.events.filterMap (Event.handout s) = []) ∧
      ∀ s, unitsIn receipt.state.books.commitments s .claimed
        = unitsIn st.books.commitments s .claimed) ∨
    ∃ sale shuffle commitment ledger,
      Nonempty (Handout st signer sale shuffle commitment ledger receipt) := by
  cases h.protocolStep with
  | none _ hcommitments htrade =>
    refine .inl ⟨fun s => ?_, fun s => by rw [hcommitments]⟩
    exact List.filterMap_eq_nil_iff.mpr fun event hevent =>
      Event.handout_of_isTrade (htrade event hevent) s
  | opens o =>
    rw [o.events_eq, o.books_eq]
    exact .inl ⟨fun _ => rfl, fun _ => rfl⟩
  | reserves r =>
    rw [r.events_eq, r.books_eq]
    refine .inl ⟨fun _ => rfl, fun s => unitsIn_set_of_zero ?_ (by simp) s⟩
    intro c hc
    exact absurd ((r.find?_eq_none hsound).symm.trans hc) (by simp)
  | opensWindow w =>
    rw [w.events_eq, w.books_eq]
    exact .inl ⟨fun _ => rfl, fun _ => rfl⟩
  | reveals r =>
    rw [r.events_eq, r.books_eq]
    refine .inl ⟨fun _ => rfl, fun s => unitsIn_set_of_zero ?_ (by simp) s⟩
    intro c hc
    obtain rfl : r.reservation = c := Registry.eq_of_find? r.reserved hc
    rw [r.committed]
    decide
  | draws d =>
    rw [d.events_eq, d.books_eq]
    exact .inl ⟨fun _ => rfl, fun _ => rfl⟩
  | handsOut c => exact .inr ⟨_, _, _, _, ⟨c⟩⟩

theorem Handout.length_ids (h : Handout st signer sale shuffle commitment ledger receipt) :
    (idsOf h.draw h.reservation).length = h.reservation.units.toNat := by
  have hinside := h.inside
  rw [idsOf, List.length_take, List.length_drop]
  omega

/-- A claim moves the units of its reservation to the claimed ones of its sale. -/
theorem Handout.unitsIn_claimed (h : Handout st signer sale shuffle commitment ledger receipt)
    (hsound : st.books.Sound) (s : Address) :
    unitsIn receipt.state.books.commitments s .claimed
      = unitsIn st.books.commitments s .claimed
        + if sale = s then h.reservation.units.toNat else 0 := by
  have hkey := hsound.of_commitment h.reserved
  rw [h.books_eq]
  by_cases hs : sale = s
  · subst hs
    have hchange := hsound.unitsIn_change h.reserved
      (c := { h.reservation with status := .claimed }) hkey.1.symm .claimed
    simp only [Commitment.unitsIn, h.revealed, if_true, if_false, reduceCtorEq, Nat.add_zero]
      at hchange
    rw [if_pos rfl]
    exact hchange
  · rw [if_neg hs, Nat.add_zero]
    exact hsound.overReservations_set_of_ne (c := { h.reservation with status := .claimed })
      hkey.1.symm (Ne.symm hs) fun c => c.unitsIn .claimed

end State

/-! ## Runs -/

/-- What the trace of a run says about claims, and the books with it. -/
structure Handed (trace : List Entry) (st : State) : Prop where
  claimed : ∀ sale buyer ids, (buyer, ids) ∈ handouts sale trace →
    ∃ c draw, st.books.commitments.find? (.commitment sale buyer) = some c ∧ c.status = .claimed ∧
      st.books.shuffles.find? (.shuffle sale) = some draw ∧ draw.phase = .shuffled ∧
        ids = State.idsOf draw c
  once : ∀ sale, ((handouts sale trace).map Prod.fst).Nodup
  count : ∀ sale, ((handouts sale trace).map fun given => given.2.length).sum
    = unitsIn st.books.commitments sale .claimed
  revealed : ∀ key c, st.books.commitments.find? key = some c → c.status ≠ .committed →
    ∃ e ∈ trace, ∃ event ∈ e.receipt.events, event.IsReveal c.sale c.buyer

namespace Handed

variable {trace : List Entry} {st : State}

/-- Claims that were made stay what they were. -/
theorem claimed_kept (h : Handed trace st) (hsound : st.books.Sound) {signer : Signer}
    {i : Instruction} {receipt : Receipt} (haccepted : st.Accepted signer i receipt)
    (sale buyer : Address) (ids : List UInt32) (hgiven : (buyer, ids) ∈ handouts sale trace) :
    ∃ c draw, receipt.state.books.commitments.find? (.commitment sale buyer) = some c ∧
      c.status = .claimed ∧ receipt.state.books.shuffles.find? (.shuffle sale) = some draw ∧
        draw.phase = .shuffled ∧ ids = State.idsOf draw c := by
  obtain ⟨c, draw, hc, hstatus, hdraw, hphase, hids⟩ := h.claimed sale buyer ids hgiven
  have hkey := hsound.of_commitment hc
  obtain ⟨record, hrecord⟩ := hsound.has_sale _ _ hc
  rw [← hkey.1] at hrecord
  obtain ⟨record', draw', -, hdraw', hturn⟩ := haccepted.turn hrecord hdraw
  obtain rfl := hturn.draw_eq hphase
  exact ⟨c, draw', haccepted.claimed_kept hsound hc hstatus, hstatus, hdraw', hphase, hids⟩

/-- Reveals stay in the trace, and a new one joins it. -/
theorem revealed_kept (h : Handed trace st) (hsound : st.books.Sound) (e : Entry)
    (hbefore : e.before = st) (key : Address) (c : Commitment)
    (hc : e.receipt.state.books.commitments.find? key = some c) (hstatus : c.status ≠ .committed) :
    ∃ e' ∈ trace ++ [e], ∃ event ∈ e'.receipt.events, event.IsReveal c.sale c.buyer := by
  subst hbefore
  rcases e.accepted_case.past_reveal hsound hc hstatus with
    ⟨old, hold, hpast, hsale, hbuyer⟩ | ⟨event, hmem, hreveal⟩
  · obtain ⟨e', he', event, hmem, hreveal⟩ := h.revealed key old hold hpast
    rw [hsale, hbuyer] at hreveal
    exact ⟨e', List.mem_append_left _ he', event, hmem, hreveal⟩
  · exact ⟨e, List.mem_append_right _ (List.mem_singleton_self e), event, hmem, hreveal⟩

/-- A call that hands out nothing keeps the account of claims. -/
theorem step_quiet {e : Entry} (h : Handed trace e.before) (hsound : e.before.books.Sound)
    (hquiet : ∀ s, e.receipt.events.filterMap (Event.handout s) = [])
    (hunits : ∀ s, unitsIn e.receipt.state.books.commitments s .claimed
      = unitsIn e.before.books.commitments s .claimed) :
    Handed (trace ++ [e]) e.receipt.state := by
  have hsame : ∀ s, handouts s (trace ++ [e]) = handouts s trace := by
    intro s
    rw [handouts_append, hquiet, List.append_nil]
  refine { claimed := ?_, once := ?_, count := ?_, revealed := h.revealed_kept hsound e rfl }
  · intro s buyer ids hgiven
    rw [hsame] at hgiven
    exact h.claimed_kept hsound e.accepted_case s buyer ids hgiven
  · intro s
    rw [hsame]
    exact h.once s
  · intro s
    rw [hsame, hunits]
    exact h.count s

/-- A buyer whose reservation is revealed and not claimed has claimed nothing. -/
theorem not_mem_claimants (h : Handed trace st) {sale buyer : Address} {c : Commitment}
    (hc : st.books.commitments.find? (.commitment sale buyer) = some c)
    (hstatus : c.status = .revealed) : buyer ∉ (handouts sale trace).map Prod.fst := by
  intro hmem
  obtain ⟨given, hgiven, rfl⟩ := List.mem_map.mp hmem
  obtain ⟨c', -, hc', hstatus', -⟩ := h.claimed sale given.1 given.2 hgiven
  obtain rfl : c = c' := Registry.eq_of_find? hc hc'
  rw [hstatus] at hstatus'
  cases hstatus'

/-- A claim joins the account of claims. -/
theorem step_handout {e : Entry} {sale shuffle commitment ledger : Address}
    (h : Handed trace e.before) (hsound : e.before.books.Sound)
    (c : State.Handout e.before e.call.signer sale shuffle commitment ledger e.receipt) :
    Handed (trace ++ [e]) e.receipt.state := by
  have hnew : ∀ s, handouts s (trace ++ [e]) = handouts s trace
      ++ if sale = s then [(e.call.signer.address, State.idsOf c.draw c.reservation)] else [] := by
    intro s
    rw [handouts_append, c.events_eq]
    by_cases hs : sale = s <;> simp [Event.handout, hs]
  refine { claimed := ?_, once := ?_, count := ?_, revealed := h.revealed_kept hsound e rfl }
  · intro s buyer ids hgiven
    rw [hnew, List.mem_append] at hgiven
    rcases hgiven with hold | hclaim
    · exact h.claimed_kept hsound e.accepted_case s buyer ids hold
    · split at hclaim
      · next hs =>
        subst hs
        obtain ⟨rfl, rfl⟩ : buyer = e.call.signer.address
            ∧ ids = State.idsOf c.draw c.reservation := by
          simpa using hclaim
        rw [c.books_eq]
        exact ⟨_, c.draw, Registry.find?_set_self _ _ _, rfl, c.drawn, c.shuffled, rfl⟩
      · cases hclaim
  · intro s
    rw [hnew]
    split
    · next hs =>
      subst hs
      have hfirst := h.not_mem_claimants c.reserved c.revealed
      rw [List.map_append, List.map_singleton, ← List.concat_eq_append]
      exact (h.once sale).concat hfirst
    · rw [List.append_nil]
      exact h.once s
  · intro s
    rw [hnew, List.map_append, List.sum_append, h.count s, c.unitsIn_claimed hsound]
    split
    · rw [List.map_singleton, List.sum_singleton, c.length_ids]
    · rfl

theorem step {e : Entry} (h : Handed trace e.before) (hsound : e.before.books.Sound) :
    Handed (trace ++ [e]) e.receipt.state := by
  rcases e.accepted_case.quiet_or_handsOut hsound with ⟨hquiet, hunits⟩ | ⟨_, _, _, _, ⟨c⟩⟩
  · exact h.step_quiet hsound hquiet hunits
  · exact h.step_handout hsound c

end Handed

theorem handed_of_run {start st : State} {trace : List Entry} (hfresh : start.Fresh)
    (h : Run start trace st) : Handed trace st := by
  refine Run.invariant (P := Handed) ?_ ?_ ?_ h
  · exact {
      claimed := fun _ _ _ hgiven => by cases hgiven
      once := fun _ => List.nodup_nil
      count := fun _ => by rw [hfresh.books_eq]; rfl
      revealed := fun _ _ hc => by rw [hfresh.books_eq] at hc; cases hc }
  · intro trace e hrun hhanded
    exact hhanded.step (sound_of_run hfresh hrun)
  · intro trace st st' hout hhanded
    obtain ⟨hclaimed, honce, hcount, hrevealed⟩ := hhanded
    rw [← hout.books_eq] at hclaimed hcount hrevealed
    exact ⟨hclaimed, honce, hcount, hrevealed⟩

section Ids

variable {trace : List Entry} {st : State} {sale buyer : Address} {ids : List UInt32}

/-- A claim that was made, with the books that it was made from. -/
theorem Handed.claim_cases (h : Handed trace st) (hsound : st.books.Sound)
    (hgiven : (buyer, ids) ∈ handouts sale trace) :
    ∃ c draw record, st.books.commitments.find? (.commitment sale buyer) = some c ∧
      c.sale = sale ∧ c.status = .claimed ∧ st.books.shuffles.find? (.shuffle sale) = some draw ∧
        draw.phase = .shuffled ∧ Balanced record draw (unitsIn st.books.commitments sale) ∧
          ids = State.idsOf draw c := by
  obtain ⟨c, draw, hc, hstatus, hdraw, hphase, hids⟩ := h.claimed sale buyer ids hgiven
  have hkey := hsound.of_commitment hc
  obtain ⟨record, hrecord⟩ := hsound.has_sale _ _ hc
  rw [← hkey.1] at hrecord
  exact ⟨c, draw, record, hc, hkey.1.symm, hstatus, hdraw, hphase,
    hsound.balanced_of_find? hrecord hdraw, hids⟩

/-- The slots of a reservation past its reveal are slots of the permutation. -/
theorem Books.Slotted.inside_permutation {b : Books} (h : b.Slotted) {key : Address}
    {c : Commitment} {draw : Shuffle} {record : Sale} {units : CommitmentStatus → ℕ}
    (hc : b.commitments.find? key = some c) (hsale : c.sale = sale) (hstatus : c.status ≠ .committed)
    (hdraw : b.shuffles.find? (.shuffle sale) = some draw) (hphase : draw.phase = .shuffled)
    (hbalanced : Balanced record draw units) :
    c.slotStart.toNat + c.units.toNat ≤ draw.permutation.length := by
  have hinside := h.inside key c hc hstatus
  rw [hsale, revealedIn_of_find? hdraw] at hinside
  rw [hbalanced.length_permutation hphase]
  exact hinside

/-- The ids of a claim are distinct, as many as the reservation has units, and revealed ones. -/
theorem Handed.ids_of_claim (h : Handed trace st) (hsound : st.books.Sound)
    (hslotted : st.books.Slotted) (hgiven : (buyer, ids) ∈ handouts sale trace) :
    ids.Nodup ∧ ∃ c draw, st.commitments.find? (.commitment sale buyer) = some c ∧
      st.shuffles.find? (.shuffle sale) = some draw ∧ ids.length = c.units.toNat ∧
        ∀ id ∈ ids, id ∈ idsUpTo draw.revealedUnits.toNat := by
  obtain ⟨c, draw, record, hc, hsale, hstatus, hdraw, hphase, hbalanced, rfl⟩ :=
    h.claim_cases hsound hgiven
  have hpast : c.status ≠ .committed := by
    rw [hstatus]
    decide
  have hinside := hslotted.inside_permutation hc hsale hpast hdraw hphase hbalanced
  -- the ids are a slice of the permutation, and the slice is not cut off at its end
  have hslice : (State.idsOf draw c).Sublist draw.permutation :=
    (List.take_sublist _ _).trans (List.drop_sublist _ _)
  refine ⟨hslice.nodup (hbalanced.nodup_permutation hphase), c, draw, hc, hdraw, ?_, ?_⟩
  · rw [State.idsOf, List.length_take, List.length_drop]
    omega
  · intro id hid
    exact (hbalanced.permutation_perm hphase).mem_iff.mp (hslice.subset hid)

theorem Handed.pairwise_disjoint (h : Handed trace st) (hsound : st.books.Sound)
    (hslotted : st.books.Slotted) (sale : Address) :
    ((handouts sale trace).map Prod.snd).Pairwise List.Disjoint := by
  -- two claims are by two buyers, whose reservations have slots apart
  have hbuyers : (handouts sale trace).Pairwise fun a b => a.1 ≠ b.1 :=
    List.pairwise_map.mp (h.once sale)
  rw [List.pairwise_map]
  refine hbuyers.imp_of_mem ?_
  intro a b ha hb hne
  obtain ⟨c, draw, record, hc, hsale, hstatus, hdraw, hphase, hbalanced, hids⟩ :=
    h.claim_cases hsound ha
  obtain ⟨c', draw', -, hc', hsale', hstatus', hdraw', -, -, hids'⟩ := h.claim_cases hsound hb
  obtain rfl : draw = draw' := Registry.eq_of_find? hdraw hdraw'
  have hkeys : Address.commitment sale a.1 ≠ .commitment sale b.1 := by simpa using hne
  have hapart := hslotted.apart _ _ c c' hc hc' hkeys (hsale.trans hsale'.symm)
    (by rw [hstatus]; decide) (by rw [hstatus']; decide)
  have hnodup := hbalanced.nodup_permutation hphase
  rw [hids, hids']
  rcases hapart with hbefore | hafter
  · exact disjoint_slices hnodup hbefore
  · exact List.disjoint_symm (disjoint_slices hnodup hafter)

/-- Once the ids are drawn, every revealed reservation can be claimed. -/
theorem claim_of_revealed (hsound : st.books.Sound) (hslotted : st.books.Slotted) {record : Sale}
    {draw : Shuffle} {c : Commitment} (hrecord : st.books.sales.find? sale = some record)
    (hdraw : st.books.shuffles.find? (.shuffle sale) = some draw) (hphase : draw.phase = .shuffled)
    (hc : st.books.commitments.find? (.commitment sale buyer) = some c)
    (hstatus : c.status = .revealed) :
    Booking.claim.attempt ⟨record, draw, c⟩
      = .ok (State.idsOf draw c, ⟨record, draw, { c with status := .claimed }⟩) := by
  have hkey := hsound.of_commitment hc
  have hbalanced := hsound.balanced_of_find? hrecord hdraw
  have hinside := hslotted.inside_permutation hc hkey.1.symm (by rw [hstatus]; decide) hdraw hphase
    hbalanced
  have hlength := hbalanced.length_permutation hphase
  have hlt := draw.revealedUnits.toNat_lt
  refine Booking.attempt_claim.mpr ⟨hphase, hstatus, hinside, ?_, rfl⟩
  show c.slotStart.toNat + c.units.toNat < 2 ^ 64
  omega

/-- Once every revealed reservation is claimed, no id is left. -/
theorem Handed.all_handed_out (h : Handed trace st) (hsound : st.books.Sound)
    (hslotted : st.books.Slotted) {record : Sale} {draw : Shuffle}
    (hrecord : st.books.sales.find? sale = some record)
    (hdraw : st.books.shuffles.find? (.shuffle sale) = some draw)
    (hdone : ∀ buyer c, st.books.commitments.find? (.commitment sale buyer) = some c →
      c.status ≠ .revealed) :
    ((handouts sale trace).flatMap Prod.snd).Perm (idsUpTo draw.revealedUnits.toNat) := by
  have hbalanced := hsound.balanced_of_find? hrecord hdraw
  have hrevealed := hbalanced.revealed_eq
  have hnone : unitsIn st.books.commitments sale .revealed = 0 := by
    apply Registry.total_eq_zero
    intro key c hc
    split
    · next hsale =>
      have hkey := hsound.keyed key c hc
      rw [hsale] at hkey
      rw [hkey] at hc
      rw [Commitment.unitsIn, if_neg (hdone c.buyer c hc)]
    · rfl
  have hnodup : ((handouts sale trace).flatMap Prod.snd).Nodup := by
    rw [List.nodup_flatMap]
    refine ⟨?_, (List.pairwise_map (f := Prod.snd)).mp (h.pairwise_disjoint hsound hslotted sale)⟩
    intro given hgiven
    exact (h.ids_of_claim hsound hslotted hgiven).1
  have hsubset : (handouts sale trace).flatMap Prod.snd ⊆ idsUpTo draw.revealedUnits.toNat := by
    intro id hid
    obtain ⟨given, hgiven, hmem⟩ := List.mem_flatMap.mp hid
    obtain ⟨-, c, draw', -, hdraw', -, hids⟩ := h.ids_of_claim hsound hslotted hgiven
    obtain rfl : draw = draw' := Registry.eq_of_find? hdraw hdraw'
    exact hids id hmem
  -- distinct revealed ids, and as many as there are
  refine (List.subperm_of_subset hnodup hsubset).perm_of_length_le ?_
  rw [length_idsUpTo, List.length_flatMap, h.count sale]
  omega

end Ids

/-- Whoever is handed ids in a call has revealed before it. -/
theorem reveal_of_claim {start : State} {trace : List Entry} {e : Entry} {sale buyer : Address}
    {ids : List UInt32} (hfresh : start.Fresh) (h : Run start trace e.before)
    (hclaim : .reservationClaimed sale buyer ids ∈ e.receipt.events) :
    ∃ e' ∈ trace, ∃ event ∈ e'.receipt.events, event.IsReveal sale buyer := by
  have hsound := sound_of_run hfresh h
  have hhanded := handed_of_run hfresh h
  rcases e.accepted_case.quiet_or_handsOut hsound with
    ⟨hquiet, -⟩ | ⟨s, shuffle, commitment, ledger, ⟨c⟩⟩
  · have hnone := List.filterMap_eq_nil_iff.mp (hquiet sale) _ hclaim
    simp [Event.handout] at hnone
  · rw [c.events_eq, List.mem_singleton] at hclaim
    obtain ⟨rfl, rfl, -⟩ : sale = s ∧ buyer = e.call.signer.address ∧ _ := by
      simpa using hclaim
    have hkey := hsound.of_commitment c.reserved
    have hreveal := hhanded.revealed _ _ c.reserved (by rw [c.revealed]; decide)
    rw [← hkey.1, ← hkey.2] at hreveal
    exact hreveal

/-- After every run: no two claims of a sale are by one buyer or share an id; the ids of a claim are
distinct, as many as the reservation has units, and from one to the number of revealed units; whoever
claims has revealed before; and once the ids are drawn, every revealed reservation can be claimed,
and when all are claimed, all ids have been handed out. -/
theorem ids_handed_out_once {start st : State} {trace : List Entry} (hfresh : start.Fresh)
    (h : Run start trace st) (sale : Address) :
    (∀ e ∈ trace, ∀ shuffle commitment ledger,
      e.call.instruction = .claimReserved sale shuffle commitment ledger →
        ∃ ids, e.receipt.events = [.reservationClaimed sale (.key e.call.key) ids]) ∧
    ((handouts sale trace).map Prod.fst).Nodup ∧
    ((handouts sale trace).map Prod.snd).Pairwise List.Disjoint ∧
    (∀ buyer ids, (buyer, ids) ∈ handouts sale trace →
      ids.Nodup ∧ ∃ c draw, st.commitments.find? (.commitment sale buyer) = some c ∧
        st.shuffles.find? (.shuffle sale) = some draw ∧ ids.length = c.units.toNat ∧
          ∀ id ∈ ids, 1 ≤ id.toNat ∧ id.toNat ≤ draw.revealedUnits.toNat) ∧
    (∀ earlier e later buyer ids, trace = earlier ++ e :: later →
      .reservationClaimed sale buyer ids ∈ e.receipt.events →
        ∃ e' ∈ earlier, ∃ event ∈ e'.receipt.events, event.IsReveal sale buyer) ∧
    ∀ record draw, st.sales.find? sale = some record →
      st.shuffles.find? (.shuffle sale) = some draw → draw.phase = .shuffled →
        (∀ buyer c, st.commitments.find? (.commitment sale buyer) = some c →
          c.status = .revealed → ∃ result, Booking.claim.attempt ⟨record, draw, c⟩ = .ok result) ∧
        ((∀ buyer c, st.commitments.find? (.commitment sale buyer) = some c →
          c.status ≠ .revealed) →
            ((handouts sale trace).flatMap Prod.snd).Perm (idsUpTo draw.revealedUnits.toNat)) := by
  have hsound := sound_of_run hfresh h
  have hslotted := slotted_of_run hfresh h
  have hhanded := handed_of_run hfresh h
  refine ⟨?_, hhanded.once sale, hhanded.pairwise_disjoint hsound hslotted sale, ?_, ?_, ?_⟩
  · intro e _ shuffle commitment ledger hcall
    have haccepted := e.accepted_case
    rw [hcall] at haccepted
    cases haccepted with
    | claimReserved c => exact ⟨_, c.events_eq⟩
  · intro buyer ids hgiven
    obtain ⟨hnodup, c, draw, hc, hdraw, hlength, hids⟩ :=
      hhanded.ids_of_claim hsound hslotted hgiven
    obtain ⟨record, hrecord⟩ := hsound.has_sale _ _ hc
    have hkey := hsound.of_commitment hc
    rw [← hkey.1] at hrecord
    have hbalanced := hsound.balanced_of_find? hrecord hdraw
    refine ⟨hnodup, c, draw, hc, hdraw, hlength, fun id hid => ?_⟩
    exact (mem_idsUpTo hbalanced.slots_lt).mp (hids id hid)
  · intro earlier e later buyer ids htrace hclaim
    exact reveal_of_claim hfresh (h.before_of_eq htrace) hclaim
  · intro record draw hrecord hdraw hphase
    refine ⟨fun buyer c hc hstatus => ?_, fun hdone => ?_⟩
    · exact ⟨_, claim_of_revealed hsound hslotted hrecord hdraw hphase hc hstatus⟩
    · exact hhanded.all_handed_out hsound hslotted hrecord hdraw hdone

/-- The owner reveals four units of the other sale, the ids are drawn, and the owner claims: the claim
hands out four different ids from one to four, so all that there are. -/
theorem ids_handed_out_once_claimed :
    ∃ trace, Run Sample.start trace (Sample.claimed 10) ∧
      (Address.key Sample.owner, Sample.idsDue 10) ∈ handouts Sample.capped trace ∧
      (Sample.idsDue 10).Nodup ∧ (Sample.idsDue 10).length = 4 ∧
      (∀ id ∈ Sample.idsDue 10, 1 ≤ id.toNat ∧ id.toNat ≤ 4) ∧
      ((handouts Sample.capped trace).map Prod.snd).Pairwise List.Disjoint ∧
      ((handouts Sample.capped trace).flatMap Prod.snd).Perm (idsUpTo 4) ∧
      ∃ e ∈ trace, ∃ event ∈ e.receipt.events,
        event.IsReveal Sample.capped (.key Sample.owner) := by
  obtain ⟨earlier, hrun⟩ := Sample.run_claimed (show (10 : Int64) ≤ 60 by decide)
  obtain ⟨-, -, hdisjoint, hids, hrevealed, hall⟩ :=
    ids_handed_out_once Sample.start_fresh hrun Sample.capped
  have hgiven : (Address.key Sample.owner, Sample.idsDue 10) ∈ handouts Sample.capped
      (earlier ++ [⟨Sample.drawn 10, Sample.claiming, _, Sample.claiming_ok 10⟩]) := by
    rw [handouts_append]
    exact List.mem_append_right _ List.mem_cons_self
  obtain ⟨hnodup, c, draw, hc, hdraw, hlength, hrange⟩ := hids _ _ hgiven
  obtain rfl := Option.some.inj hc
  obtain rfl := Option.some.inj hdraw
  -- the owner's is the only reservation, and it is claimed
  have hdone : ∀ buyer c,
      (Sample.claimed 10).commitments.find? (.commitment Sample.capped buyer) = some c →
        c.status ≠ .revealed := by
    intro buyer c hfound
    have hentry := Registry.find?_eq_some_iff.mp hfound
    obtain ⟨-, rfl⟩ := Prod.mk.inj (List.mem_singleton.mp hentry)
    decide
  obtain ⟨e, he, hreveals⟩ := hrevealed earlier _ [] _ _ rfl List.mem_cons_self
  exact ⟨_, hrun, hgiven, hnodup, hlength, hrange, hdisjoint, (hall _ _ rfl rfl rfl).2 hdone, e,
    List.mem_append_left _ he, hreveals⟩

end UnitSale
