import UnitSale.Proofs.RecordSteps

/-!
# The protocol only moves forward

Along every run the phase of a shuffle never goes back, and at its end nothing of the shuffle
changes any more. A buyer reserves at most once in a sale, and from then on the reservation only
moves from committed to revealed to claimed.
-/

namespace UnitSale

/-! ## Shuffles -/

/-- A later shuffle of the same sale: no earlier phase, the same seed once all is revealed, and the
same in every field once the ids are drawn. -/
structure Shuffle.Precedes (draw draw' : Shuffle) : Prop where
  rank_le : draw.phase.rank ≤ draw'.phase.rank
  seed_kept : Phase.revealed.rank ≤ draw.phase.rank → draw'.seed = draw.seed
  frozen : draw.phase = .shuffled → draw' = draw

namespace Shuffle.Precedes

theorem refl (draw : Shuffle) : draw.Precedes draw where
  rank_le := Nat.le_refl _
  seed_kept := fun _ => rfl
  frozen := fun _ => rfl

theorem trans {draw mid draw' : Shuffle} (h : draw.Precedes mid) (h' : mid.Precedes draw') :
    draw.Precedes draw' where
  rank_le := Nat.le_trans h.rank_le h'.rank_le
  seed_kept := by
    intro hrank
    have hseed := h'.seed_kept (Nat.le_trans hrank h.rank_le)
    exact hseed.trans (h.seed_kept hrank)
  frozen := by
    intro hphase
    obtain rfl := h.frozen hphase
    exact h'.frozen hphase

/-- A step that reaches a later phase, from one in which not all is revealed. -/
theorem of_rank_lt {draw draw' : Shuffle} (hlt : draw.phase.rank < Phase.revealed.rank)
    (hle : draw.phase.rank ≤ draw'.phase.rank) : draw.Precedes draw' where
  rank_le := hle
  seed_kept := fun hrank => absurd hrank (Nat.not_le_of_lt hlt)
  frozen := by
    intro hphase
    rw [hphase] at hlt
    exact absurd hlt (by decide)

end Shuffle.Precedes

theorem DrawStep.precedes {now : Int64} {sale : Address} {draw draw' : Shuffle} {i : Instruction}
    (h : DrawStep now sale (some draw) i (some draw')) : draw.Precedes draw' := by
  cases h with
  | keeps => exact .refl draw
  | reserves _ _ available hphase =>
    refine .of_rank_lt ?_ ?_
    · rw [hphase]
      decide
    · rw [hphase]
      exact Nat.zero_le _
  | opensWindow _ _ hphase =>
    have hlt := Phase.rank_lt_revealing hphase
    exact .of_rank_lt (Nat.lt_trans hlt (by decide)) (Nat.le_of_lt hlt)
  | reveals _ pending hphase =>
    refine .of_rank_lt ?_ ?_
    · rw [hphase]
      decide
    · rw [hphase]
      exact (Booking.rank_phaseAfterReveal pending).1
  | draws _ hphase =>
    -- the drawing reads the seed and leaves it
    have hlt : draw.phase.rank < Phase.shuffled.rank := by
      rcases hphase with hphase | ⟨hphase, -⟩ <;> rw [hphase] <;> decide
    refine { rank_le := Nat.le_of_lt hlt, seed_kept := fun _ => rfl, frozen := ?_ }
    intro hphase
    rw [hphase] at hlt
    exact absurd hlt (Nat.lt_irrefl _)

theorem precedes_of_run {start st : State} {trace : List Entry} {sale : Address} {draw : Shuffle}
    (h : Run start trace st) (hdraw : start.draw? sale = some draw) :
    ∃ draw', st.draw? sale = some draw' ∧ draw.Precedes draw' := by
  refine h.follow_draw (P := fun _ after => ∃ draw', after = some draw' ∧ draw.Precedes draw')
    ⟨draw, hdraw, .refl draw⟩ ?_
  rintro _ e _ after hstep ⟨mid, rfl, hmid⟩
  obtain ⟨draw', rfl⟩ := hstep.kept
  exact ⟨draw', rfl, hmid.trans hstep.precedes⟩

/-! ## Reservations -/

/-- The place of a status in the order of statuses. -/
def CommitmentStatus.rank : CommitmentStatus → ℕ
  | .committed => 0
  | .revealed => 1
  | .claimed => 2

/-- The same reservation later on: all that was committed to is the same, the status is no earlier
one, and once slots are given they stay. -/
structure Commitment.Precedes (c c' : Commitment) : Prop where
  sale_eq : c'.sale = c.sale
  buyer_eq : c'.buyer = c.buyer
  hash_eq : c'.hash = c.hash
  units_eq : c'.units = c.units
  committedAt_eq : c'.committedAt = c.committedAt
  bump_eq : c'.bump = c.bump
  rank_le : c.status.rank ≤ c'.status.rank
  slotStart_eq : CommitmentStatus.revealed.rank ≤ c.status.rank → c'.slotStart = c.slotStart

namespace Commitment.Precedes

theorem refl (c : Commitment) : c.Precedes c :=
  ⟨rfl, rfl, rfl, rfl, rfl, rfl, Nat.le_refl _, fun _ => rfl⟩

theorem trans {c mid c' : Commitment} (h : c.Precedes mid) (h' : mid.Precedes c') :
    c.Precedes c' where
  sale_eq := h'.sale_eq.trans h.sale_eq
  buyer_eq := h'.buyer_eq.trans h.buyer_eq
  hash_eq := h'.hash_eq.trans h.hash_eq
  units_eq := h'.units_eq.trans h.units_eq
  committedAt_eq := h'.committedAt_eq.trans h.committedAt_eq
  bump_eq := h'.bump_eq.trans h.bump_eq
  rank_le := Nat.le_trans h.rank_le h'.rank_le
  slotStart_eq := by
    intro hrank
    have hslots := h'.slotStart_eq (Nat.le_trans hrank h.rank_le)
    exact hslots.trans (h.slotStart_eq hrank)

end Commitment.Precedes

theorem CommitmentStep.precedes {now : Int64} {signer : Signer} {draw : Option Shuffle}
    {sale buyer : Address} {c c' : Commitment} {i : Instruction}
    (h : CommitmentStep now signer draw sale buyer (some c) i (some c')) : c.Precedes c' := by
  have hrefl := Commitment.Precedes.refl c
  cases h with
  | keeps => exact hrefl
  | reveals _ _ _ hstatus =>
    -- only here slots are given, to a reservation that had none
    refine { hrefl with rank_le := ?_, slotStart_eq := ?_ }
    · rw [hstatus]
      exact Nat.zero_le _
    · rw [hstatus]
      exact fun hrank => absurd hrank (by decide)
  | claims _ hstatus =>
    refine { hrefl with rank_le := ?_, slotStart_eq := fun _ => rfl }
    rw [hstatus]
    exact Nat.le_succ _

/-- A buyer's reservation after every run that goes on from it. -/
theorem commitment_precedes_of_run {start mid st : State} {earlier later : List Entry}
    {sale buyer : Address} {c : Commitment} (hfresh : start.Fresh) (hmid : Run start earlier mid)
    (h : Run mid later st) (hc : mid.commitment? sale buyer = some c) :
    ∃ c', st.commitment? sale buyer = some c' ∧ c.Precedes c' := by
  refine Run.follow_commitment (P := fun _ after => ∃ c', after = some c' ∧ c.Precedes c') hfresh
    hmid h ⟨c, hc, .refl c⟩ ?_
  rintro _ e _ after hstep ⟨between, rfl, hbetween⟩
  obtain ⟨c', rfl⟩ := hstep.kept
  exact ⟨c', rfl, hbetween.trans hstep.precedes⟩

/-! ## Reserving once -/

/-- Who has reserved in a sale with a call. -/
def Entry.committer (sale : Address) (e : Entry) : Option Address :=
  if e.call.instruction.Commits sale then some (.key e.call.key) else none

/-- All who have reserved in a sale, in order. -/
def committers (sale : Address) (trace : List Entry) : List Address :=
  trace.filterMap (Entry.committer sale)

theorem committers_append (sale : Address) (trace : List Entry) (e : Entry) :
    committers sale (trace ++ [e]) = committers sale trace ++ (e.committer sale).toList := by
  rw [committers, List.filterMap_append]
  cases h : e.committer sale <;> simp [h, committers]

/-- An instruction that reserves for its signer finds no reservation and leaves one. -/
theorem CommitmentStep.made {now : Int64} {signer : Signer} {draw : Option Shuffle} {sale : Address}
    {before after : Option Commitment} {i : Instruction}
    (h : CommitmentStep now signer draw sale signer.address before i after)
    (hcommits : i.Commits sale) : before = none ∧ ∃ c, after = some c := by
  cases h with
  | keeps hnot => exact absurd ⟨hcommits, rfl⟩ hnot
  | makes => exact ⟨rfl, _, rfl⟩
  | reveals => exact absurd hcommits id
  | claims => exact absurd hcommits id

/-- Nobody has reserved twice in a sale, and whoever has reserved has a reservation. -/
structure ReservedOnce (sale : Address) (trace : List Entry) (st : State) : Prop where
  once : (committers sale trace).Nodup
  kept : ∀ buyer ∈ committers sale trace, ∃ c, st.commitment? sale buyer = some c

namespace ReservedOnce

variable {sale : Address} {trace : List Entry} {e : Entry}

/-- Reservations that exist outlast an accepted call. -/
theorem kept_after (h : ReservedOnce sale trace e.before) (hsound : e.before.books.Sound) :
    ∀ buyer ∈ committers sale trace, ∃ c, e.receipt.state.commitment? sale buyer = some c := by
  intro buyer hbuyer
  obtain ⟨c, hc⟩ := h.kept buyer hbuyer
  have hstep := e.accepted_case.commitmentStep hsound sale buyer
  rw [hc] at hstep
  exact hstep.kept

/-- A call that reserves is its buyer's first one to do so. -/
theorem step (h : ReservedOnce sale trace e.before) (hsound : e.before.books.Sound) :
    ReservedOnce sale (trace ++ [e]) e.receipt.state := by
  have hkept := h.kept_after hsound
  by_cases hcommits : e.call.instruction.Commits sale
  · -- the reservation is made where there was none, so its buyer is not among the earlier ones
    have hstep := e.accepted_case.commitmentStep hsound sale e.call.signer.address
    obtain ⟨hnone, hmade⟩ := hstep.made hcommits
    have hnew : e.call.signer.address ∉ committers sale trace := by
      intro hmem
      obtain ⟨c, hc⟩ := h.kept _ hmem
      rw [hnone] at hc
      cases hc
    have hcommitters : committers sale (trace ++ [e])
        = (committers sale trace).concat e.call.signer.address := by
      rw [committers_append, Entry.committer, if_pos hcommits, List.concat_eq_append]
      rfl
    constructor
    · rw [hcommitters]
      exact h.once.concat hnew
    · intro buyer hbuyer
      rw [hcommitters, List.concat_eq_append, List.mem_append, List.mem_singleton] at hbuyer
      rcases hbuyer with hold | rfl
      · exact hkept buyer hold
      · exact hmade
  · have hcommitters : committers sale (trace ++ [e]) = committers sale trace := by
      rw [committers_append, Entry.committer, if_neg hcommits, Option.toList_none, List.append_nil]
    exact { once := hcommitters ▸ h.once, kept := hcommitters ▸ hkept }

theorem of_run {start st : State} (hfresh : start.Fresh) (h : Run start trace st) :
    ReservedOnce sale trace st := by
  refine Run.invariant (P := ReservedOnce sale) ?_ ?_ ?_ h
  · exact { once := List.nodup_nil, kept := List.forall_mem_nil _ }
  · intro trace e hrun honce
    exact honce.step (sound_of_run hfresh hrun)
  · intro trace st st' hout honce
    refine { once := honce.once, kept := ?_ }
    intro buyer hbuyer
    rw [hout.commitment?_eq]
    exact honce.kept buyer hbuyer

end ReservedOnce

/-! ## The protocol as a whole -/

/-- Along every run: no shuffle goes back to an earlier phase, loses the seed it has once all is
revealed, or changes at all once the ids are drawn; everybody reserves at most once in a sale; a
reservation is only ever moved on; and whatever call is accepted next, a reservation is made by its
buyer's commit, revealed by the secret behind its digest while the window is open, claimed after
that, or it stays what it is. -/
theorem protocol_moves_forward {start mid st : State} {earlier later : List Entry}
    (hfresh : start.Fresh) (hmid : Run start earlier mid) (h : Run mid later st) (sale : Address) :
    (∀ draw, mid.draw? sale = some draw →
      ∃ draw', st.draw? sale = some draw' ∧ draw.Precedes draw') ∧
    (committers sale (earlier ++ later)).Nodup ∧
    (∀ buyer c, mid.commitment? sale buyer = some c → c.sale = sale ∧ c.buyer = buyer ∧
      ∃ c', st.commitment? sale buyer = some c' ∧ c.Precedes c') ∧
    ∀ call receipt, st.execute call = .ok receipt → ∀ buyer,
      CommitmentStep st.now call.signer (st.draw? sale) sale buyer (st.commitment? sale buyer)
        call.instruction (receipt.state.commitment? sale buyer) := by
  have hrun := hmid.trans h
  refine ⟨?_, (ReservedOnce.of_run hfresh hrun).once, ?_, ?_⟩
  · intro draw hdraw
    exact precedes_of_run h hdraw
  · intro buyer c hc
    have hkey := (sound_of_run hfresh hmid).of_commitment hc
    exact ⟨hkey.1.symm, hkey.2.symm, commitment_precedes_of_run hfresh hmid h hc⟩
  · intro call receipt hcall buyer
    exact (State.accepted_of_run hcall).commitmentStep (sound_of_run hfresh hrun) sale buyer

/-- From the reservation of four units to the drawing of their ids. -/
theorem protocol_moves_forward_drawn :
    ∃ earlier later, Run Sample.start earlier Sample.reserved ∧
      Run Sample.reserved later (Sample.drawn 10) ∧
        (committers Sample.capped (earlier ++ later)).Nodup ∧
        ∃ c', (Sample.drawn 10).commitment? Sample.capped (.key Sample.owner) = some c' ∧
          Sample.reservation.Precedes c' := by
  obtain ⟨earlier, hmid⟩ := Sample.run_reserved
  have hwindowed := Run.start.accepted ⟨Sample.reserved, _, _, Sample.windowing_ok⟩
  have hlater := hwindowed.trans (Sample.run_drawn (show (10 : Int64) ≤ 60 by decide))
  obtain ⟨-, honce, hkept, -⟩ :=
    protocol_moves_forward Sample.start_fresh hmid hlater Sample.capped
  exact ⟨earlier, _, hmid, hlater, honce, (hkept _ Sample.reservation rfl).2.2⟩

end UnitSale
