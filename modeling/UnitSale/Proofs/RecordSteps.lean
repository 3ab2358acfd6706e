import UnitSale.Proofs.ProtocolSteps

/-!
# Steps of one shuffle and of one reservation

What an accepted instruction makes of the shuffle of a sale depends on the instruction, the clock
and the shuffle alone. `DrawStep` has one case for each way, and `Run.follow_draw` carries what all
of them keep through a run; `CommitmentStep` and `Run.follow_commitment` do so for one reservation.
The seeds and secrets that made a shuffle what it is are read off the trace.
-/

namespace UnitSale

/-! ## The order of phases -/

/-- The place of a phase in the order of phases. -/
def Phase.rank : Phase → ℕ
  | .opened => 0
  | .reserved => 1
  | .revealing => 2
  | .revealed => 3
  | .shuffled => 4

theorem Phase.rank_lt_revealing {p : Phase} (h : p = .opened ∨ p = .reserved) :
    p.rank < Phase.revealing.rank := by
  rcases h with rfl | rfl <;> decide

theorem Booking.rank_phaseAfterCommit (available : UInt64) :
    (phaseAfterCommit available).rank < Phase.revealing.rank := by
  unfold phaseAfterCommit
  split <;> decide

/-- After a reveal, the window has been opened, and the ids are not drawn. -/
theorem Booking.rank_phaseAfterReveal (pending : UInt64) :
    Phase.revealing.rank ≤ (phaseAfterReveal pending).rank
      ∧ (phaseAfterReveal pending).rank < Phase.shuffled.rank := by
  unfold phaseAfterReveal
  split <;> decide

/-! ## What an instruction brings along -/

/-- The seed that an instruction opens the reveal window of a sale with. -/
def Instruction.openingSeed (sale : Address) : Instruction → Option Bytes32
  | .startReveal s _ seed _ => if s = sale then some seed else none
  | _ => none

/-- The secret that an instruction reveals in a sale. -/
def Instruction.revealedSecret (sale : Address) : Instruction → Option Bytes32
  | .reveal s _ _ secret => if s = sale then some secret else none
  | _ => none

/-- Whether an instruction reserves units of a sale. -/
def Instruction.Commits (sale : Address) : Instruction → Prop
  | .commit s _ _ _ _ _ _ _ => s = sale
  | _ => False

instance (sale : Address) (i : Instruction) : Decidable (i.Commits sale) := by
  unfold Instruction.Commits
  split <;> infer_instance

/-- Instructions about other sales bring nothing for this one. -/
theorem Instruction.brings_nothing {i : Instruction} {sale : Address} (h : sale ≠ i.sale) :
    i.openingSeed sale = none ∧ i.revealedSecret sale = none := by
  cases i with
  | startReveal s => exact ⟨if_neg (Ne.symm h), rfl⟩
  | reveal s => exact ⟨rfl, if_neg (Ne.symm h)⟩
  | _ => exact ⟨rfl, rfl⟩

theorem Instruction.Commits.sale_eq {i : Instruction} {sale : Address} (h : i.Commits sale) :
    sale = i.sale := by
  cases i with
  | commit => exact Eq.symm h
  | _ => exact absurd h id

/-! ## Steps of one shuffle -/

/-- What an accepted instruction makes at a time of the shuffle of a sale, if there is one. -/
inductive DrawStep (now : Int64) (sale : Address) :
    Option Shuffle → Instruction → Option Shuffle → Prop
  | keeps {draw i} : i.openingSeed sale = none → i.revealedSecret sale = none →
      DrawStep now sale draw i draw
  | creates {shuffle number config} :
      DrawStep now sale none (.openSale sale shuffle number config)
        (some (Shuffle.blank.bind sale State.bump))
  | reserves {draw shuffle commitment ledger hash units maximumPrice parties}
      (reserved pending available : UInt64) : draw.phase = .opened →
      DrawStep now sale (some draw)
        (.commit sale shuffle commitment ledger hash units maximumPrice parties)
        (some { draw with
          totalReserved := reserved
          pending := pending
          phase := Booking.phaseAfterCommit available })
  | opensWindow {draw shuffle seed bound} (deadline hardDeadline : Int64) :
      draw.phase = .opened ∨ draw.phase = .reserved → bound.Valid →
      Checked.addTime now bound.baseDuration = some deadline →
      Checked.addTime deadline bound.maxExtraTime = some hardDeadline →
      DrawStep now sale (some draw) (.startReveal sale shuffle seed bound)
        (some { draw with
          seed := seed, timeBound := bound, revealStartedAt := now, deadline := deadline
          hardDeadline := hardDeadline, phase := .revealing })
  | reveals {draw shuffle commitment secret} (revealed pending : UInt64) :
      draw.phase = .revealing → now ≤ draw.deadline →
      DrawStep now sale (some draw) (.reveal sale shuffle commitment secret)
        (some { draw with
          seed := accumulateSeed draw.seed secret
          deadline := draw.extendedDeadline now
          revealedUnits := revealed
          pending := pending
          phase := Booking.phaseAfterReveal pending })
  | draws {draw shuffle} (forfeited : UInt64) :
      draw.phase = .revealed ∨ draw.phase = .revealing ∧ draw.deadline < now →
      DrawStep now sale (some draw) (.revealIds sale shuffle)
        (some { draw with
          permutation := permutation draw.seed draw.revealedUnits.toUInt32
          forfeitedUnits := forfeited
          phase := .shuffled })

theorem DrawStep.kept {now : Int64} {sale : Address} {draw : Shuffle} {i : Instruction}
    {after : Option Shuffle} (h : DrawStep now sale (some draw) i after) :
    ∃ draw', after = some draw' := by
  cases h <;> exact ⟨_, rfl⟩

namespace State

/-- The shuffle of a sale. -/
def draw? (st : State) (sale : Address) : Option Shuffle := st.shuffles.find? (.shuffle sale)

variable {st : State} {signer : Signer} {receipt : Receipt} {i : Instruction} {sale : Address}

theorem draw?_of_set {draw : Shuffle}
    (h : receipt.state.books.shuffles = st.shuffles.set (.shuffle sale) draw) :
    receipt.state.draw? sale = some draw := by
  show receipt.state.books.shuffles.find? (.shuffle sale) = some draw
  rw [h, Registry.find?_set_self]

/-- Leaving the shuffle alone is a step of an instruction that brings nothing. -/
theorem drawStep_of_eq (hdraw : receipt.state.books.shuffles.find? (.shuffle sale)
      = st.books.shuffles.find? (.shuffle sale))
    (hbrings : i.openingSeed sale = none ∧ i.revealedSecret sale = none) :
    DrawStep st.now sale (st.draw? sale) i (receipt.state.draw? sale) := by
  have heq : receipt.state.draw? sale = st.draw? sale := hdraw
  rw [heq]
  exact .keeps hbrings.1 hbrings.2

/-- Writing the shuffle is a step where what is written is. -/
theorem drawStep_of_set {before : Option Shuffle} {draw : Shuffle}
    (hbefore : st.shuffles.find? (.shuffle sale) = before)
    (hset : receipt.state.books.shuffles = st.shuffles.set (.shuffle sale) draw)
    (hstep : DrawStep st.now sale before i (some draw)) :
    DrawStep st.now sale (st.draw? sale) i (receipt.state.draw? sale) := by
  rw [draw?_of_set hset]
  show DrawStep st.now sale (st.shuffles.find? (.shuffle sale)) i (some draw)
  rw [hbefore]
  exact hstep

/-- What an accepted instruction makes of any shuffle is one of the steps. -/
theorem Accepted.drawStep (h : st.Accepted signer i receipt) (sale : Address) :
    DrawStep st.now sale (st.draw? sale) i (receipt.state.draw? sale) := by
  by_cases hs : sale = i.sale
  -- an instruction about another sale leaves this one as it is
  case neg => exact drawStep_of_eq (h.beside.shuffles sale hs) (Instruction.brings_nothing hs)
  subst hs
  cases h with
  | openSale o => exact drawStep_of_set o.shuffle_new (congrArg Books.shuffles o.books_eq) .creates
  | openVault o => exact drawStep_of_eq (by rw [o.books_eq]) ⟨rfl, rfl⟩
  | calculate hstate => exact drawStep_of_eq (by rw [hstate]) ⟨rfl, rfl⟩
  | mint p => exact drawStep_of_eq (by rw [p.books_eq]) ⟨rfl, rfl⟩
  | mintFor p => exact drawStep_of_eq (by rw [p.books_eq]) ⟨rfl, rfl⟩
  | burn b => exact drawStep_of_eq (by rw [b.books_eq]) ⟨rfl, rfl⟩
  | withdraw w => exact drawStep_of_eq (by rw [w.books_eq]) ⟨rfl, rfl⟩
  | royaltyInfo hstate => exact drawStep_of_eq (by rw [hstate]) ⟨rfl, rfl⟩
  | commit r =>
    exact drawStep_of_set r.drawn (congrArg Books.shuffles r.books_eq) (.reserves _ _ _ r.opened)
  | startReveal w =>
    exact drawStep_of_set w.drawn (congrArg Books.shuffles w.books_eq)
      (.opensWindow _ _ w.phase w.valid w.deadline_eq w.hardDeadline_eq)
  | reveal r =>
    exact drawStep_of_set r.drawn (congrArg Books.shuffles r.books_eq)
      (.reveals _ _ r.revealing r.in_time)
  | revealIds d =>
    exact drawStep_of_set d.drawn (congrArg Books.shuffles d.books_eq) (.draws _ d.phase)
  | claimReserved c => exact drawStep_of_eq (by rw [c.books_eq]) ⟨rfl, rfl⟩

end State

/-! ## Steps of one reservation -/

/-- What an accepted instruction of a signer makes at a time of the reservation of a buyer, if there
is one. -/
inductive CommitmentStep (now : Int64) (signer : Signer) (draw : Option Shuffle)
    (sale buyer : Address) : Option Commitment → Instruction → Option Commitment → Prop
  | keeps {c i} : ¬ (i.Commits sale ∧ signer.address = buyer) →
      CommitmentStep now signer draw sale buyer c i c
  | makes {shuffle commitment ledger hash units maximumPrice parties} :
      signer.Signs buyer → 0 < units → CommitmentStep now signer draw sale buyer none
        (.commit sale shuffle commitment ledger hash units maximumPrice parties)
        (some ⟨sale, buyer, hash, units, 0, .committed, now, State.bump⟩)
  | reveals {c d shuffle commitment secret} : signer.Signs buyer → draw = some d →
      d.phase = .revealing → c.status = .committed → commitmentHash secret = c.hash →
      CommitmentStep now signer draw sale buyer (some c) (.reveal sale shuffle commitment secret)
        (some { c with status := .revealed, slotStart := d.revealedUnits })
  | claims {c shuffle commitment ledger} : signer.Signs buyer → c.status = .revealed →
      CommitmentStep now signer draw sale buyer (some c)
        (.claimReserved sale shuffle commitment ledger) (some { c with status := .claimed })

theorem CommitmentStep.kept {now : Int64} {signer : Signer} {draw : Option Shuffle}
    {sale buyer : Address} {c : Commitment} {i : Instruction} {after : Option Commitment}
    (h : CommitmentStep now signer draw sale buyer (some c) i after) : ∃ c', after = some c' := by
  cases h <;> exact ⟨_, rfl⟩

/-- A reservation that is made or changed is its signer's. -/
theorem CommitmentStep.signs {now : Int64} {signer : Signer} {draw : Option Shuffle}
    {sale buyer : Address} {before after : Option Commitment} {i : Instruction}
    (h : CommitmentStep now signer draw sale buyer before i after) (hne : after ≠ before) :
    signer.Signs buyer := by
  cases h with
  | keeps => exact absurd rfl hne
  | makes hsigns => exact hsigns
  | reveals hsigns => exact hsigns
  | claims hsigns => exact hsigns

namespace State

/-- The reservation of a buyer. -/
def commitment? (st : State) (sale buyer : Address) : Option Commitment :=
  st.commitments.find? (.commitment sale buyer)

variable {st : State} {signer : Signer} {receipt : Receipt} {i : Instruction} {sale buyer : Address}

/-- Leaving the reservation alone is a step of an instruction that does not reserve for the buyer.
-/
theorem commitmentStep_of_eq (hc : receipt.state.books.commitments.find? (.commitment sale buyer)
      = st.books.commitments.find? (.commitment sale buyer))
    (hcommits : ¬ (i.Commits sale ∧ signer.address = buyer)) :
    CommitmentStep st.now signer (st.draw? sale) sale buyer (st.commitment? sale buyer) i
      (receipt.state.commitment? sale buyer) := by
  have heq : receipt.state.commitment? sale buyer = st.commitment? sale buyer := hc
  rw [heq]
  exact .keeps hcommits

/-- Writing the signer's reservation is a step for every buyer where what is written is one for the
signer. -/
theorem commitmentStep_of_set {before : Option Commitment} {c : Commitment}
    (hbefore : st.commitments.find? (.commitment sale signer.address) = before)
    (hset : receipt.state.books.commitments
      = st.commitments.set (.commitment sale signer.address) c)
    (hstep : CommitmentStep st.now signer (st.draw? sale) sale signer.address before i (some c)) :
    CommitmentStep st.now signer (st.draw? sale) sale buyer (st.commitment? sale buyer) i
      (receipt.state.commitment? sale buyer) := by
  by_cases hbuyer : buyer = signer.address
  · have hafter : receipt.state.commitment? sale buyer = some c := by
      show receipt.state.books.commitments.find? (.commitment sale buyer) = some c
      rw [hset, hbuyer, Registry.find?_set_self]
    have hnow : st.commitment? sale buyer = before := hbuyer ▸ hbefore
    rw [hafter, hnow, hbuyer]
    exact hstep
  · -- the reservations of other buyers stay
    have hne : Address.commitment sale buyer ≠ .commitment sale signer.address :=
      fun heq => hbuyer (Address.commitment.inj heq).2
    refine commitmentStep_of_eq ?_ fun hcommits => hbuyer hcommits.2.symm
    rw [hset, Registry.find?_set_of_ne _ hne]
    rfl

/-- What an accepted instruction makes of any reservation is one of the steps. -/
theorem Accepted.commitmentStep (h : st.Accepted signer i receipt) (hsound : st.books.Sound)
    (sale buyer : Address) :
    CommitmentStep st.now signer (st.draw? sale) sale buyer (st.commitment? sale buyer) i
      (receipt.state.commitment? sale buyer) := by
  by_cases hs : sale = i.sale
  case neg =>
    exact commitmentStep_of_eq (h.beside.commitments sale hs buyer)
      fun hcommits => hs hcommits.1.sale_eq
  subst hs
  cases h with
  | openSale o => exact commitmentStep_of_eq (by rw [o.books_eq]) fun h => h.1
  | openVault o => exact commitmentStep_of_eq (by rw [o.books_eq]) fun h => h.1
  | calculate hstate => exact commitmentStep_of_eq (by rw [hstate]) fun h => h.1
  | mint p => exact commitmentStep_of_eq (by rw [p.books_eq]) fun h => h.1
  | mintFor p => exact commitmentStep_of_eq (by rw [p.books_eq]) fun h => h.1
  | burn b => exact commitmentStep_of_eq (by rw [b.books_eq]) fun h => h.1
  | withdraw w => exact commitmentStep_of_eq (by rw [w.books_eq]) fun h => h.1
  | royaltyInfo hstate => exact commitmentStep_of_eq (by rw [hstate]) fun h => h.1
  | commit r =>
    exact commitmentStep_of_set (r.find?_eq_none hsound) (congrArg Books.commitments r.books_eq)
      (.makes ⟨r.signed, rfl⟩ r.some_units)
  | startReveal w => exact commitmentStep_of_eq (by rw [w.books_eq]) fun h => h.1
  | reveal r =>
    exact commitmentStep_of_set r.reserved (congrArg Books.commitments r.books_eq)
      (.reveals ⟨r.signed, rfl⟩ r.drawn r.revealing r.committed r.hash_eq)
  | revealIds d => exact commitmentStep_of_eq (by rw [d.books_eq]) fun h => h.1
  | claimReserved c =>
    exact commitmentStep_of_set c.reserved (congrArg Books.commitments c.books_eq)
      (.claims ⟨c.signed, rfl⟩ c.revealed)

end State

/-! ## Runs -/

section Outside

variable {st st' : State} {sale buyer : Address}

theorem State.Fresh.draw?_eq_none (h : st.Fresh) : st.draw? sale = none :=
  congrArg (fun b : Books => b.shuffles.find? (.shuffle sale)) h.books_eq

theorem State.Fresh.commitment?_eq_none (h : st.Fresh) : st.commitment? sale buyer = none :=
  congrArg (fun b : Books => b.commitments.find? (.commitment sale buyer)) h.books_eq

theorem State.Outside.draw?_eq (h : st.Outside st') : st'.draw? sale = st.draw? sale :=
  congrArg (fun b : Books => b.shuffles.find? (.shuffle sale)) h.books_eq

theorem State.Outside.commitment?_eq (h : st.Outside st') :
    st'.commitment? sale buyer = st.commitment? sale buyer :=
  congrArg (fun b : Books => b.commitments.find? (.commitment sale buyer)) h.books_eq

end Outside

/-- What holds of the shuffle of a sale at the start of a run, and is kept by every step, holds of
it at the end. -/
theorem Run.follow_draw {start st : State} {trace : List Entry} {sale : Address}
    {P : List Entry → Option Shuffle → Prop} (h : Run start trace st)
    (hstart : P [] (start.draw? sale))
    (hstep : ∀ (trace : List Entry) (e : Entry) (draw draw' : Option Shuffle),
      DrawStep e.before.now sale draw e.call.instruction draw' → P trace draw →
        P (trace ++ [e]) draw') : P trace (st.draw? sale) := by
  refine Run.invariant (P := fun trace st => P trace (st.draw? sale)) hstart ?_ ?_ h
  · intro trace e _ hkept
    exact hstep trace e _ _ (e.accepted_case.drawStep sale) hkept
  · intro trace st st' hout hkept
    rw [hout.draw?_eq]
    exact hkept

/-- Wherever a run has a shuffle, it has the sale of it. -/
theorem Run.sale_of_draw {start st : State} {trace : List Entry} {sale : Address} {draw : Shuffle}
    (hfresh : start.Fresh) (h : Run start trace st) (hdraw : st.draw? sale = some draw) :
    ∃ record, st.sales.find? sale = some record := by
  refine Run.invariant (P := fun _ st => ∀ draw, st.draw? sale = some draw →
    ∃ record, st.sales.find? sale = some record) ?_ ?_ ?_ h draw hdraw
  · intro draw hdraw
    rw [hfresh.draw?_eq_none] at hdraw
    cases hdraw
  · intro trace e _ hkept draw' hdraw'
    have haccepted := e.accepted_case
    have hstep := haccepted.drawStep sale
    rw [hdraw'] at hstep
    cases hbefore : e.before.draw? sale with
    | none =>
      -- a shuffle is created by the opening of its sale only
      rw [hbefore] at hstep
      generalize e.call.instruction = i at hstep haccepted
      cases hstep with
      | creates =>
        cases haccepted with
        | openSale o =>
          have hsales := congrArg (fun b : Books => b.sales.find? sale) o.books_eq
          exact ⟨_, hsales.trans (Registry.find?_set_self ..)⟩
    | some draw =>
      obtain ⟨record, hrecord⟩ := hkept draw hbefore
      obtain ⟨record', _, hrecord', -⟩ := haccepted.turn hrecord hbefore
      exact ⟨record', hrecord'⟩
  · intro trace st st' hout hkept draw hdraw
    rw [hout.draw?_eq] at hdraw
    obtain ⟨record, hrecord⟩ := hkept draw hdraw
    have hsales := congrArg (fun b : Books => b.sales.find? sale) hout.books_eq
    exact ⟨record, hsales.trans hrecord⟩

/-- What holds of a reservation at some point of a run, and is kept by every step, holds of it
later. -/
theorem Run.follow_commitment {start mid st : State} {earlier later : List Entry}
    {sale buyer : Address} {P : List Entry → Option Commitment → Prop} (hfresh : start.Fresh)
    (hmid : Run start earlier mid) (h : Run mid later st)
    (hstart : P [] (mid.commitment? sale buyer))
    (hstep : ∀ (trace : List Entry) (e : Entry) (c c' : Option Commitment),
      CommitmentStep e.before.now e.call.signer (e.before.draw? sale) sale buyer c
        e.call.instruction c' → P trace c → P (trace ++ [e]) c') :
    P later (st.commitment? sale buyer) := by
  refine Run.invariant (P := fun trace st => P trace (st.commitment? sale buyer)) hstart ?_ ?_ h
  · intro trace e hrun hkept
    have hsound := sound_of_run hfresh (hmid.trans hrun)
    exact hstep trace e _ _ (e.accepted_case.commitmentStep hsound sale buyer) hkept
  · intro trace st st' hout hkept
    rw [hout.commitment?_eq]
    exact hkept

/-! ## Seeds and secrets in a trace -/

/-- A secret that was revealed: by whom, for how many units, and when. -/
structure Disclosure where
  buyer : Address
  secret : Bytes32
  units : UInt64
  time : Int64
  deriving DecidableEq, Repr

/-- The units that a buyer has reserved in a sale. -/
def State.unitsReserved (st : State) (sale buyer : Address) : UInt64 :=
  ((st.commitment? sale buyer).map Commitment.units).getD 0

/-- The secret that a call has revealed in a sale, with the units of the reservation behind it. -/
def Entry.disclosure (sale : Address) (e : Entry) : Option Disclosure :=
  (e.call.instruction.revealedSecret sale).map fun secret =>
    { buyer := .key e.call.key
      secret := secret
      units := e.before.unitsReserved sale (.key e.call.key)
      time := e.before.now }

/-- All secrets revealed in a sale, in order. -/
def disclosures (sale : Address) (trace : List Entry) : List Disclosure :=
  trace.filterMap (Entry.disclosure sale)

/-- All seeds that the reveal window of a sale was opened with. -/
def openingSeeds (sale : Address) (trace : List Entry) : List Bytes32 :=
  trace.filterMap fun e => e.call.instruction.openingSeed sale

theorem disclosures_append (sale : Address) (trace later : List Entry) :
    disclosures sale (trace ++ later) = disclosures sale trace ++ disclosures sale later :=
  List.filterMap_append

theorem disclosures_concat (sale : Address) (trace : List Entry) (e : Entry) :
    disclosures sale (trace ++ [e]) = disclosures sale trace ++ (e.disclosure sale).toList := by
  rw [disclosures_append]
  cases h : e.disclosure sale <;> simp [h, disclosures]

theorem openingSeeds_append (sale : Address) (trace later : List Entry) :
    openingSeeds sale (trace ++ later) = openingSeeds sale trace ++ openingSeeds sale later :=
  List.filterMap_append

theorem openingSeeds_concat (sale : Address) (trace : List Entry) (e : Entry) :
    openingSeeds sale (trace ++ [e])
      = openingSeeds sale trace ++ (e.call.instruction.openingSeed sale).toList := by
  rw [openingSeeds_append]
  cases h : e.call.instruction.openingSeed sale <;> simp [h, openingSeeds]

end UnitSale
