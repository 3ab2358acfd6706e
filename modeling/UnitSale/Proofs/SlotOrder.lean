import UnitSale.Proofs.PhaseTheorems
import UnitSale.Proofs.Slots

/-!
# The shuffle agrees with the reservations

The slots that reveals give out are read off the trace of a run: they follow each other from zero up
to the count of revealed units, and they are the slots of exactly the reservations that are past
their reveal. With what the phases stand for, the whole shuffle is what the reservations add up to.
-/

namespace UnitSale

/-! ## Slots in a trace -/

/-- Slots that a reveal has given: to whom, how many, and the first of them. -/
structure SlotGrant where
  buyer : Address
  units : UInt64
  slotStart : UInt64
  deriving DecidableEq, Repr

/-- The slots that an event gives in a sale. -/
def Event.grant (sale : Address) : Event → Option SlotGrant
  | .secretRevealed s buyer units slotStart _ =>
    if s = sale then some ⟨buyer, units, slotStart⟩ else none
  | _ => none

/-- All slots given in a sale, in the order of the reveals. -/
def grants (sale : Address) (trace : List Entry) : List SlotGrant :=
  trace.flatMap fun e => e.receipt.events.filterMap (Event.grant sale)

theorem grants_append (sale : Address) (trace : List Entry) (e : Entry) :
    grants sale (trace ++ [e])
      = grants sale trace ++ e.receipt.events.filterMap (Event.grant sale) := by
  unfold grants
  rw [List.flatMap_append, List.flatMap_singleton]

/-- Slots that follow each other from `lo` up to `hi`, without gap or overlap. -/
def Tiles : (lo : ℕ) → List SlotGrant → (hi : ℕ) → Prop
  | lo, [], hi => lo = hi
  | lo, g :: rest, hi => g.slotStart.toNat = lo ∧ Tiles (lo + g.units.toNat) rest hi

/-- Slots that start where the others end may follow them. -/
theorem Tiles.append {lo mid hi : ℕ} {gs : List SlotGrant} {g : SlotGrant} (h : Tiles lo gs mid)
    (hstart : g.slotStart.toNat = mid) (hend : mid + g.units.toNat = hi) :
    Tiles lo (gs ++ [g]) hi := by
  induction gs generalizing lo with
  | nil =>
    obtain rfl : lo = mid := h
    exact ⟨hstart, hend⟩
  | cons first rest ih => exact ⟨h.1, ih h.2⟩

/-! ## Instructions -/

theorem Event.grant_of_isTrade {event : Event} (h : event.IsTrade) (sale : Address) :
    event.grant sale = none := by
  cases event with
  | unitsMinted => rfl
  | unitsBurned => rfl
  | fundsWithdrawn => rfl
  | _ => exact absurd h id

namespace State

variable {st : State} {signer : Signer} {receipt : Receipt} {i : Instruction} {key : Address}
  {c : Commitment}

/-- An instruction gives no slots and reveals nothing, unless it is a reveal. -/
theorem Accepted.quiet_or_reveals (h : st.Accepted signer i receipt) :
    ((∀ s, receipt.events.filterMap (Event.grant s) = []) ∧
      ∀ s, revealedIn receipt.state.books.shuffles s = revealedIn st.books.shuffles s) ∨
    ∃ sale shuffle commitment secret,
      Nonempty (Revelation st signer sale shuffle commitment secret receipt) := by
  cases h.protocolStep with
  | none hshuffles _ htrade =>
    refine .inl ⟨fun s => ?_, fun s => by rw [hshuffles]⟩
    exact List.filterMap_eq_nil_iff.mpr fun event hevent =>
      Event.grant_of_isTrade (htrade event hevent) s
  | opens o =>
    rw [o.events_eq, o.books_eq]
    refine .inl ⟨fun _ => rfl, fun s => ?_⟩
    rw [revealedIn_set]
    split
    · next hs =>
      rw [hs]
      exact (revealedIn_of_none o.shuffle_new).symm
    · rfl
  | reserves r =>
    rw [r.events_eq, r.books_eq]
    exact .inl ⟨fun _ => rfl, revealedIn_set_of_eq r.drawn rfl⟩
  | opensWindow w =>
    rw [w.events_eq, w.books_eq]
    exact .inl ⟨fun _ => rfl, revealedIn_set_of_eq w.drawn rfl⟩
  | reveals r => exact .inr ⟨_, _, _, _, ⟨r⟩⟩
  | draws d =>
    rw [d.events_eq, d.books_eq]
    exact .inl ⟨fun _ => rfl, revealedIn_set_of_eq d.drawn rfl⟩
  | handsOut c =>
    rw [c.events_eq, c.books_eq]
    exact .inl ⟨fun _ => rfl, fun _ => rfl⟩

theorem Accepted.slots_kept (h : st.Accepted signer i receipt) (hsound : st.books.Sound)
    (hc : st.books.commitments.find? key = some c) (hstatus : c.status ≠ .committed) :
    ∃ c', receipt.state.books.commitments.find? key = some c' ∧ c'.status ≠ .committed ∧
      c'.units = c.units ∧ c'.slotStart = c.slotStart := by
  cases h.reservationStep hsound key with
  | keeps hkeeps => exact ⟨c, hkeeps.trans hc, hstatus, rfl, rfl⟩
  | makes _ _ hnone =>
    rw [hnone] at hc
    cases hc
  | reveals r _ hbefore =>
    obtain rfl : r.reservation = c := Registry.eq_of_find? hbefore hc
    exact absurd r.committed hstatus
  | claims o _ hbefore hafter =>
    obtain rfl : o.reservation = c := Registry.eq_of_find? hbefore hc
    exact ⟨_, hafter, by simp, rfl, rfl⟩

/-- A reservation that is past its reveal was so before, with the same units and slots, or the
instruction has given them. -/
theorem Accepted.slots_origin (h : st.Accepted signer i receipt) (hsound : st.books.Sound)
    {sale buyer : Address}
    (hc : receipt.state.books.commitments.find? (.commitment sale buyer) = some c)
    (hstatus : c.status ≠ .committed) :
    (∃ old, st.books.commitments.find? (.commitment sale buyer) = some old ∧
      old.status ≠ .committed ∧ old.units = c.units ∧ old.slotStart = c.slotStart) ∨
      ⟨buyer, c.units, c.slotStart⟩ ∈ receipt.events.filterMap (Event.grant sale) := by
  cases h.reservationStep hsound (.commitment sale buyer) with
  | keeps hkeeps => exact .inl ⟨c, hkeeps.symm.trans hc, hstatus, rfl, rfl⟩
  | makes _ _ _ hafter =>
    obtain rfl := Option.some.inj (hafter.symm.trans hc)
    exact absurd rfl hstatus
  | reveals r hkey _ hafter =>
    obtain rfl := Option.some.inj (hafter.symm.trans hc)
    obtain ⟨rfl, rfl⟩ := Address.commitment.inj hkey
    right
    rw [r.events_eq]
    simp [Event.grant]
  | claims o _ hbefore hafter =>
    obtain rfl := Option.some.inj (hafter.symm.trans hc)
    exact .inl ⟨o.reservation, hbefore, by rw [o.revealed]; decide, rfl, rfl⟩

end State

/-! ## Runs -/

/-- What the trace of a run says about slots, and the books with it. -/
structure Granted (trace : List Entry) (st : State) : Prop where
  granted : ∀ sale g, g ∈ grants sale trace →
    ∃ c, st.books.commitments.find? (.commitment sale g.buyer) = some c ∧ c.status ≠ .committed ∧
      c.units = g.units ∧ c.slotStart = g.slotStart
  complete : ∀ sale buyer c, st.books.commitments.find? (.commitment sale buyer) = some c →
    c.status ≠ .committed → ⟨buyer, c.units, c.slotStart⟩ ∈ grants sale trace
  once : ∀ sale, ((grants sale trace).map SlotGrant.buyer).Nodup
  tiled : ∀ sale, Tiles 0 (grants sale trace) (revealedIn st.books.shuffles sale)

namespace Granted

variable {trace : List Entry} {st : State}

theorem granted_kept (h : Granted trace st) (hsound : st.books.Sound) {signer : Signer}
    {i : Instruction} {receipt : Receipt} (haccepted : st.Accepted signer i receipt)
    (sale : Address) (g : SlotGrant) (hg : g ∈ grants sale trace) :
    ∃ c, receipt.state.books.commitments.find? (.commitment sale g.buyer) = some c ∧
      c.status ≠ .committed ∧ c.units = g.units ∧ c.slotStart = g.slotStart := by
  obtain ⟨c, hc, hstatus, hunits, hstart⟩ := h.granted sale g hg
  obtain ⟨c', hc', hstatus', hunits', hstart'⟩ := haccepted.slots_kept hsound hc hstatus
  exact ⟨c', hc', hstatus', hunits'.trans hunits, hstart'.trans hstart⟩

/-- Whoever has slots has been given them, by an earlier call or by the last one. -/
theorem complete_step {e : Entry} (h : Granted trace e.before) (hsound : e.before.books.Sound)
    (sale buyer : Address) (c : Commitment)
    (hc : e.receipt.state.books.commitments.find? (.commitment sale buyer) = some c)
    (hstatus : c.status ≠ .committed) :
    ⟨buyer, c.units, c.slotStart⟩ ∈ grants sale (trace ++ [e]) := by
  rw [grants_append]
  rcases e.accepted_case.slots_origin hsound hc hstatus with
    ⟨old, hold, hpast, hunits, hstart⟩ | hnew
  · have hgiven := h.complete sale buyer old hold hpast
    rw [hunits, hstart] at hgiven
    exact List.mem_append_left _ hgiven
  · exact List.mem_append_right _ hnew

/-- A call that gives no slots keeps the account of them. -/
theorem step_quiet {e : Entry} (h : Granted trace e.before) (hsound : e.before.books.Sound)
    (hquiet : ∀ s, e.receipt.events.filterMap (Event.grant s) = [])
    (hcount : ∀ s, revealedIn e.receipt.state.books.shuffles s
      = revealedIn e.before.books.shuffles s) : Granted (trace ++ [e]) e.receipt.state := by
  have hsame : ∀ s, grants s (trace ++ [e]) = grants s trace := by
    intro s
    rw [grants_append, hquiet, List.append_nil]
  refine { granted := ?_, complete := h.complete_step hsound, once := ?_, tiled := ?_ }
  · intro s g hg
    rw [hsame] at hg
    exact h.granted_kept hsound e.accepted_case s g hg
  · intro s
    rw [hsame]
    exact h.once s
  · intro s
    rw [hsame, hcount]
    exact h.tiled s

/-- A buyer whose reservation is not revealed has no slots. -/
theorem not_mem_buyers (h : Granted trace st) {sale buyer : Address} {c : Commitment}
    (hc : st.books.commitments.find? (.commitment sale buyer) = some c)
    (hstatus : c.status = .committed) : buyer ∉ (grants sale trace).map SlotGrant.buyer := by
  intro hmem
  obtain ⟨g, hg, rfl⟩ := List.mem_map.mp hmem
  obtain ⟨c', hc', hstatus', -⟩ := h.granted sale g hg
  obtain rfl : c = c' := Registry.eq_of_find? hc hc'
  exact hstatus' hstatus

/-- The slots that a reveal gives follow all earlier ones. -/
theorem step_reveal {e : Entry} {sale shuffle commitment : Address} {secret : Bytes32}
    (h : Granted trace e.before) (hsound : e.before.books.Sound)
    (r : State.Revelation e.before e.call.signer sale shuffle commitment secret e.receipt) :
    Granted (trace ++ [e]) e.receipt.state := by
  have hnew : ∀ s, grants s (trace ++ [e]) = grants s trace ++ if sale = s then
      [⟨e.call.signer.address, r.reservation.units, r.draw.revealedUnits⟩] else [] := by
    intro s
    rw [grants_append, r.events_eq]
    by_cases hs : sale = s <;> simp [Event.grant, hs]
  have hcount := revealedIn_of_find? r.drawn
  refine { granted := ?_, complete := h.complete_step hsound, once := ?_, tiled := ?_ }
  · intro s g hg
    rw [hnew, List.mem_append] at hg
    rcases hg with hold | hlast
    · exact h.granted_kept hsound e.accepted_case s g hold
    · split at hlast
      · next hs =>
        subst hs
        obtain rfl := List.mem_singleton.mp hlast
        rw [r.books_eq]
        exact ⟨_, Registry.find?_set_self _ _ _, by simp, rfl, rfl⟩
      · cases hlast
  · intro s
    rw [hnew]
    split
    · next hs =>
      subst hs
      have hfirst := h.not_mem_buyers r.reserved r.committed
      rw [List.map_append, List.map_singleton, ← List.concat_eq_append]
      exact (h.once sale).concat hfirst
    · rw [List.append_nil]
      exact h.once s
  · intro s
    rw [hnew, r.books_eq]
    show Tiles 0 _ (revealedIn (e.before.shuffles.set (.shuffle sale) _) s)
    rw [revealedIn_set]
    by_cases hs : s = sale
    · subst hs
      rw [if_pos rfl, if_pos rfl]
      exact (h.tiled s).append hcount.symm (hcount ▸ r.revealed_eq)
    · rw [if_neg (Ne.symm hs), if_neg hs, List.append_nil]
      exact h.tiled s

theorem step {e : Entry} (h : Granted trace e.before) (hsound : e.before.books.Sound) :
    Granted (trace ++ [e]) e.receipt.state := by
  rcases e.accepted_case.quiet_or_reveals with ⟨hquiet, hcount⟩ | ⟨_, _, _, _, ⟨r⟩⟩
  · exact h.step_quiet hsound hquiet hcount
  · exact h.step_reveal hsound r

end Granted

theorem granted_of_run {start st : State} {trace : List Entry} (hfresh : start.Fresh)
    (h : Run start trace st) : Granted trace st := by
  refine Run.invariant (P := Granted) ?_ ?_ ?_ h
  · exact {
      granted := fun _ _ hg => by cases hg
      complete := fun _ _ _ hc => by rw [hfresh.books_eq] at hc; cases hc
      once := fun _ => List.nodup_nil
      tiled := fun _ => by rw [hfresh.books_eq]; rfl }
  · intro trace e hrun hgranted
    exact hgranted.step (sound_of_run hfresh hrun)
  · intro trace st st' hout hgranted
    obtain ⟨hgranted, hcomplete, honce, htiled⟩ := hgranted
    rw [← hout.books_eq] at hgranted hcomplete htiled
    exact ⟨hgranted, hcomplete, honce, htiled⟩

/-! ## The shuffle as a whole -/

/-- The counters of a shuffle are what the reservations of its sale add up to, the slots that its
reveals have given tile the revealed units, and its phase says what the counters are. -/
structure Agrees (trace : List Entry) (commitments : Registry Address Commitment) (sale : Address)
    (record : Sale) (draw : Shuffle) : Prop where
  reserved_eq : draw.totalReserved.toNat
    = overReservations commitments sale fun c => c.units.toNat
  pending_eq : draw.pending.toNat = overReservations commitments sale Commitment.waiting
  revealed_eq : draw.revealedUnits.toNat = overReservations commitments sale Commitment.disclosed
  /-- Nobody is given slots twice. -/
  once : ((grants sale trace).map SlotGrant.buyer).Nodup
  /-- Whoever is given slots has a reservation past its reveal with just these. -/
  granted : ∀ g ∈ grants sale trace,
    ∃ c, commitments.find? (.commitment sale g.buyer) = some c ∧ c.status ≠ .committed ∧
      c.units = g.units ∧ c.slotStart = g.slotStart
  /-- Every reservation past its reveal has been given its slots. -/
  complete : ∀ buyer c, commitments.find? (.commitment sale buyer) = some c →
    c.status ≠ .committed → ⟨buyer, c.units, c.slotStart⟩ ∈ grants sale trace
  tiled : Tiles 0 (grants sale trace) draw.revealedUnits.toNat
  unrevealed : draw.phase = .opened ∨ draw.phase = .reserved →
    draw.revealedUnits = 0 ∧ draw.permutation = []
  sold_out : draw.phase = .reserved → record.available = 0
  some_pending : draw.phase = .revealing → 1 ≤ draw.pending
  all_revealed : draw.phase = .revealed →
    draw.pending = 0 ∧ draw.revealedUnits = draw.totalReserved
  drawn : draw.phase = .shuffled → draw.permutation.length = draw.revealedUnits.toNat ∧
    draw.totalReserved.toNat = draw.revealedUnits.toNat + draw.forfeitedUnits.toNat
  nothing_forfeited : draw.phase ≠ .shuffled → draw.forfeitedUnits = 0

/-- In every state that a run reaches, the shuffle of every sale agrees with its reservations. -/
theorem shuffle_agrees {start st : State} {trace : List Entry} (hfresh : start.Fresh)
    (h : Run start trace st) {sale : Address} {record : Sale}
    (hsale : st.sales.find? sale = some record) :
    ∃ draw, st.shuffles.find? (.shuffle sale) = some draw ∧
      Agrees trace st.commitments sale record draw := by
  have hsound := sound_of_run hfresh h
  obtain ⟨draw, hdraw, hbalanced⟩ := hsound.balanced sale record hsale
  have hgranted := granted_of_run hfresh h
  have hphased := phased_of_run hfresh h hsale hdraw
  have hpending : draw.pending.toNat = overReservations st.commitments sale Commitment.waiting :=
    counted_of_run hfresh h sale draw hdraw
  have hreserved : draw.totalReserved.toNat
      = overReservations st.commitments sale fun c => c.units.toNat :=
    hbalanced.reserved_eq.trans overReservations_units.symm
  have hrevealed : draw.revealedUnits.toNat
      = overReservations st.commitments sale Commitment.disclosed :=
    hbalanced.revealed_eq.trans overReservations_disclosed.symm
  refine ⟨draw, hdraw, {
    reserved_eq := hreserved
    pending_eq := hpending
    revealed_eq := hrevealed
    once := hgranted.once sale
    granted := hgranted.granted sale
    complete := hgranted.complete sale
    tiled := ?_
    unrevealed := ?_
    sold_out := hphased.sold_out
    some_pending := hphased.some_pending
    all_revealed := ?_
    drawn := fun hphase => ⟨hbalanced.length_permutation hphase, hphased.forfeited hphase⟩
    nothing_forfeited := fun hphase => (hphased.undrawn hphase).forfeited_eq }⟩
  · rw [← revealedIn_of_find? hdraw]
    exact hgranted.tiled sale
  · intro hphase
    have hbefore := hphased.unrevealed hphase
    exact ⟨hbefore.revealed_eq, hbefore.permutation_eq⟩
  · intro hphase
    have hzero := hphased.none_pending hphase
    refine ⟨hzero, UInt64.toNat_inj.mp ?_⟩
    -- nothing is pending, so no reservation is left out of the revealed ones
    have hnone : overReservations st.commitments sale Commitment.waiting = 0 := by
      rw [← hpending, hzero]
      rfl
    rw [hrevealed, hreserved]
    exact overReservations_disclosed_of_none hnone

/-- Four units were reserved, and one reservation is pending. -/
theorem shuffle_agrees_reserved :
    ∃ trace, Run Sample.start trace Sample.reserved ∧
      ∃ draw, Sample.reserved.shuffles.find? (.shuffle Sample.capped) = some draw ∧
        draw.totalReserved.toNat = overReservations Sample.reserved.commitments Sample.capped
          (fun c => c.units.toNat) ∧
        draw.pending.toNat
          = overReservations Sample.reserved.commitments Sample.capped Commitment.waiting := by
  obtain ⟨trace, hrun⟩ := Sample.run_reserved
  have hsale : Sample.reserved.sales.find? Sample.capped
      = some { Sample.soldRecord with allocated := 7, amountPaid := 700 } := rfl
  obtain ⟨draw, hdraw, hagrees⟩ := shuffle_agrees Sample.start_fresh hrun hsale
  exact ⟨trace, hrun, draw, hdraw, hagrees.reserved_eq, hagrees.pending_eq⟩

end UnitSale
