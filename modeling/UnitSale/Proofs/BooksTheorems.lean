import UnitSale.Proofs.InstructionTheorems

/-!
# What instructions write in the books

The books of a state are its sales, shuffles, ledgers and commitments: everything that only an
instruction can write. `Accepted` has one case for each instruction, and for each case there is one
equation between the books before and after.
-/

namespace UnitSale

/-- All records of sales. -/
@[ext]
structure Books where
  sales : Registry Address Sale
  shuffles : Registry Address Shuffle
  ledgers : Registry Address Ledger
  commitments : Registry Address Commitment

/-- Books that agree on all sales but one. -/
structure Books.SameBeside (b b' : Books) (target : Address) : Prop where
  sales : ∀ s, s ≠ target → b'.sales.find? s = b.sales.find? s
  shuffles : ∀ s, s ≠ target → b'.shuffles.find? (.shuffle s) = b.shuffles.find? (.shuffle s)
  ledgers : ∀ s, s ≠ target → ∀ holder,
    b'.ledgers.find? (.ledger s holder) = b.ledgers.find? (.ledger s holder)
  commitments : ∀ s, s ≠ target → ∀ buyer,
    b'.commitments.find? (.commitment s buyer) = b.commitments.find? (.commitment s buyer)

/-- Books that differ only at addresses derived from one sale. -/
structure Books.Confined (b b' : Books) (target : Address) : Prop where
  sales : ∀ key, key ≠ target → b'.sales.find? key = b.sales.find? key
  shuffles : ∀ key, key ≠ .shuffle target → b'.shuffles.find? key = b.shuffles.find? key
  ledgers : ∀ key, (∀ holder, key ≠ .ledger target holder) →
    b'.ledgers.find? key = b.ledgers.find? key
  commitments : ∀ key, (∀ buyer, key ≠ .commitment target buyer) →
    b'.commitments.find? key = b.commitments.find? key

namespace Books.Confined

variable {b : Books} {sales : Registry Address Sale} {shuffles : Registry Address Shuffle}
  {ledgers : Registry Address Ledger} {commitments : Registry Address Commitment}
  {target : Address}

theorem refl (b : Books) (target : Address) : b.Confined b target :=
  ⟨fun _ _ => rfl, fun _ _ => rfl, fun _ _ => rfl, fun _ _ => rfl⟩

theorem setSale (h : b.Confined ⟨sales, shuffles, ledgers, commitments⟩ target) (record : Sale) :
    b.Confined ⟨sales.set target record, shuffles, ledgers, commitments⟩ target where
  sales := fun key hkey => (Registry.find?_set_of_ne _ hkey _).trans (h.sales key hkey)
  shuffles := h.shuffles
  ledgers := h.ledgers
  commitments := h.commitments

theorem setShuffle (h : b.Confined ⟨sales, shuffles, ledgers, commitments⟩ target)
    (draw : Shuffle) :
    b.Confined ⟨sales, shuffles.set (.shuffle target) draw, ledgers, commitments⟩ target where
  sales := h.sales
  shuffles := fun key hkey => (Registry.find?_set_of_ne _ hkey _).trans (h.shuffles key hkey)
  ledgers := h.ledgers
  commitments := h.commitments

theorem setLedger (h : b.Confined ⟨sales, shuffles, ledgers, commitments⟩ target)
    (holder : Address) (l : Ledger) :
    b.Confined ⟨sales, shuffles, ledgers.set (.ledger target holder) l, commitments⟩ target where
  sales := h.sales
  shuffles := h.shuffles
  ledgers := fun key hkey =>
    (Registry.find?_set_of_ne _ (hkey holder) _).trans (h.ledgers key hkey)
  commitments := h.commitments

theorem setCommitment (h : b.Confined ⟨sales, shuffles, ledgers, commitments⟩ target)
    (buyer : Address) (c : Commitment) :
    b.Confined ⟨sales, shuffles, ledgers, commitments.set (.commitment target buyer) c⟩ target where
  sales := h.sales
  shuffles := h.shuffles
  ledgers := h.ledgers
  commitments := fun key hkey =>
    (Registry.find?_set_of_ne _ (hkey buyer) _).trans (h.commitments key hkey)

/-- No address of another sale is derived from this one. -/
theorem sameBeside {b' : Books} (h : b.Confined b' target) : b.SameBeside b' target where
  sales := h.sales
  shuffles := fun _ hs => h.shuffles _ fun heq => hs (Address.shuffle.inj heq)
  ledgers := fun _ hs _ => h.ledgers _ fun _ heq => hs (Address.ledger.inj heq).1
  commitments := fun _ hs _ => h.commitments _ fun _ heq => hs (Address.commitment.inj heq).1

end Books.Confined

/-- The sale that an instruction is about. -/
def Instruction.sale : Instruction → Address
  | .openSale sale _ _ _ => sale
  | .openVault sale _ _ => sale
  | .calculate sale _ _ _ => sale
  | .mint sale _ _ _ _ => sale
  | .mintFor sale _ _ _ _ => sale
  | .burn sale _ _ => sale
  | .withdraw sale _ _ _ => sale
  | .royaltyInfo sale _ => sale
  | .commit sale _ _ _ _ _ _ _ => sale
  | .startReveal sale _ _ _ => sale
  | .reveal sale _ _ _ => sale
  | .revealIds sale _ => sale
  | .claimReserved sale _ _ _ => sale

namespace State

/-- The records of sales in a state. -/
def books (st : State) : Books := ⟨st.sales, st.shuffles, st.ledgers, st.commitments⟩

/-! ## Instructions that go through -/

/-- An instruction that goes through, with all that it has checked and written. -/
inductive Accepted (st : State) (signer : Signer) : Instruction → Receipt → Prop
  | openSale {sale shuffle number config receipt} :
    Opening st signer sale shuffle number config receipt →
      Accepted st signer (.openSale sale shuffle number config) receipt
  | openVault {sale vault mint receipt} : VaultOpening st signer sale vault mint receipt →
      Accepted st signer (.openVault sale vault mint) receipt
  | calculate {sale ledger account units receipt} : receipt.state = st → receipt.events = [] →
      Accepted st signer (.calculate sale ledger account units) receipt
  | mint {sale ledger recipient request parties receipt} :
    Purchase st signer .recipient sale ledger recipient request parties receipt →
      Accepted st signer (.mint sale ledger recipient request parties) receipt
  | mintFor {sale ledger recipient request parties receipt} :
    Purchase st signer .delegate sale ledger recipient request parties receipt →
      Accepted st signer (.mintFor sale ledger recipient request parties) receipt
  | burn {sale ledger units receipt} : Burning st signer sale ledger units receipt →
      Accepted st signer (.burn sale ledger units) receipt
  | withdraw {sale recipient amount parties receipt} :
    Withdrawal st signer sale recipient parties amount receipt →
      Accepted st signer (.withdraw sale recipient amount parties) receipt
  | royaltyInfo {sale price receipt} : receipt.state = st → receipt.events = [] →
      Accepted st signer (.royaltyInfo sale price) receipt
  | commit {sale shuffle commitment ledger hash units maximumPrice parties receipt} :
    Reservation st signer sale shuffle commitment ledger hash units maximumPrice parties receipt →
      Accepted st signer
        (.commit sale shuffle commitment ledger hash units maximumPrice parties) receipt
  | startReveal {sale shuffle seed bound receipt} :
    WindowOpening st signer sale shuffle seed bound receipt →
      Accepted st signer (.startReveal sale shuffle seed bound) receipt
  | reveal {sale shuffle commitment secret receipt} :
    Revelation st signer sale shuffle commitment secret receipt →
      Accepted st signer (.reveal sale shuffle commitment secret) receipt
  | revealIds {sale shuffle receipt} : Drawing st signer sale shuffle receipt →
      Accepted st signer (.revealIds sale shuffle) receipt
  | claimReserved {sale shuffle commitment ledger receipt} :
    Handout st signer sale shuffle commitment ledger receipt →
      Accepted st signer (.claimReserved sale shuffle commitment ledger) receipt

/-- What an accepted instruction makes of one sale that exists, and of its shuffle. -/
inductive Turn (st : State) (signer : Signer) (receipt : Receipt) (sale : Address) (record : Sale)
    (draw : Shuffle) : Sale → Shuffle → Prop
  | keeps : Turn st signer receipt sale record draw record draw
  | opensVault {vault mint} (o : VaultOpening st signer sale vault mint receipt) :
      o.record = record →
        Turn st signer receipt sale record draw { record with vaultBump := bump } draw
  | sells {who ledger recipient request parties}
      (p : Purchase st signer who sale ledger recipient request parties receipt) :
      p.record = record →
        Turn st signer receipt sale record draw
          { record with allocated := p.allocated, totalMinted := p.minted, amountPaid := p.paid }
          draw
  | burns {ledger units} (b : Burning st signer sale ledger units receipt) : b.record = record →
      Turn st signer receipt sale record draw { record with totalBurned := b.totalBurned } draw
  | paysOut {recipient amount parties}
      (w : Withdrawal st signer sale recipient parties amount receipt) : w.record = record →
        Turn st signer receipt sale record draw { record with amountWithdrawn := w.withdrawn } draw
  | reserves {shuffle commitment brought hash units maximumPrice parties}
      (r : Reservation st signer sale shuffle commitment brought hash units maximumPrice parties
        receipt) : r.record = record → r.draw = draw →
        Turn st signer receipt sale record draw
          { record with allocated := r.allocated, amountPaid := r.paid }
          { draw with
            totalReserved := r.reserved
            pending := r.pending
            phase := Booking.phaseAfterCommit
              ({ record with allocated := r.allocated } : Sale).available }
  | opensWindow {shuffle seed bound} (w : WindowOpening st signer sale shuffle seed bound receipt) :
      w.record = record → w.draw = draw →
        Turn st signer receipt sale record draw record
          { draw with
            seed := seed, timeBound := bound, revealStartedAt := st.now, deadline := w.deadline
            hardDeadline := w.hardDeadline, phase := .revealing }
  | reveals {shuffle commitment secret}
      (r : Revelation st signer sale shuffle commitment secret receipt) :
      r.record = record → r.draw = draw →
        Turn st signer receipt sale record draw record
          { draw with
            seed := accumulateSeed draw.seed secret
            deadline := draw.extendedDeadline st.now
            revealedUnits := r.revealed
            pending := r.pending
            phase := Booking.phaseAfterReveal r.pending }
  | draws {shuffle} (d : Drawing st signer sale shuffle receipt) :
      d.record = record → d.draw = draw →
        Turn st signer receipt sale record draw { record with allocated := d.allocated }
          { draw with
            permutation := permutation draw.seed draw.revealedUnits.toUInt32
            forfeitedUnits := d.forfeited
            phase := .shuffled }
  | handsOut {shuffle commitment ledger}
      (c : Handout st signer sale shuffle commitment ledger receipt) :
      c.record = record → c.draw = draw →
        Turn st signer receipt sale record draw { record with totalMinted := c.minted } draw

variable {st mid : State} {signer : Signer} {receipt : Receipt}
  {sale shuffle ledger commitment recipient mint vault payer address : Address}
  {parties : TokenParties}

theorem calculate_ok {brought : Option Address} {account : Address} {units : UInt64}
    (h : st.calculate sale brought account units = .ok receipt) :
    receipt.state = st ∧ receipt.events = [] := by
  simp only [calculate, bind_eq_ok] at h
  obtain ⟨record, -, held, -, hchecked⟩ := h
  obtain ⟨-, hrest⟩ := checkBrought_eq_ok.mp hchecked
  obtain ⟨quote, -, hlast⟩ := bind_eq_ok.mp hrest
  rw [pure_eq_ok] at hlast
  subst hlast
  exact ⟨rfl, rfl⟩

theorem royaltyInfo_ok {price : UInt64} (h : st.royaltyInfo sale price = .ok receipt) :
    receipt.state = st ∧ receipt.events = [] := by
  obtain ⟨record, -, hquoted⟩ := bind_eq_ok.mp h
  obtain ⟨quote, -, hlast⟩ := bind_eq_ok.mp hquoted
  rw [pure_eq_ok] at hlast
  subst hlast
  exact ⟨rfl, rfl⟩

theorem accepted_of_run {i : Instruction} (h : st.run signer i = .ok receipt) :
    Accepted st signer i receipt := by
  cases i with
  | openSale sale shuffle number config =>
    obtain ⟨o⟩ := openSale_ok h
    exact .openSale o
  | openVault sale vault mint =>
    obtain ⟨o⟩ := openVault_ok (silent_eq_ok.mp h)
    exact .openVault o
  | calculate sale ledger account units =>
    obtain ⟨hstate, hevents⟩ := calculate_ok (silent_eq_ok.mp h)
    exact .calculate hstate hevents
  | mint sale ledger recipient request parties =>
    obtain ⟨p⟩ := purchase_ok (silent_eq_ok.mp h)
    exact .mint p
  | mintFor sale ledger recipient request parties =>
    obtain ⟨p⟩ := purchase_ok (silent_eq_ok.mp h)
    exact .mintFor p
  | burn sale ledger units =>
    obtain ⟨b⟩ := burn_ok (silent_eq_ok.mp h)
    exact .burn b
  | withdraw sale recipient amount parties =>
    obtain ⟨w⟩ := withdraw_ok (silent_eq_ok.mp h)
    exact .withdraw w
  | royaltyInfo sale price =>
    obtain ⟨hstate, hevents⟩ := royaltyInfo_ok (silent_eq_ok.mp h)
    exact .royaltyInfo hstate hevents
  | commit sale shuffle commitment ledger hash units maximumPrice parties =>
    obtain ⟨r⟩ := commit_ok (silent_eq_ok.mp h)
    exact .commit r
  | startReveal sale shuffle seed bound =>
    obtain ⟨w⟩ := startReveal_ok (silent_eq_ok.mp h)
    exact .startReveal w
  | reveal sale shuffle commitment secret =>
    obtain ⟨r⟩ := reveal_ok (silent_eq_ok.mp h)
    exact .reveal r
  | revealIds sale shuffle =>
    obtain ⟨d⟩ := revealIds_ok (silent_eq_ok.mp h)
    exact .revealIds d
  | claimReserved sale shuffle commitment ledger =>
    obtain ⟨c⟩ := claimReserved_ok (silent_eq_ok.mp h)
    exact .claimReserved c

/-! ## The books after each instruction -/

/-- Having a ledger at hand writes nothing that writing the ledger does not overwrite. -/
theorem withLedger_books {holding : Ledger}
    (h : st.withLedger payer address = .ok (mid, holding)) :
    mid.sales = st.sales ∧ mid.shuffles = st.shuffles ∧ mid.commitments = st.commitments ∧
      ∀ l, mid.ledgers.set address l = st.ledgers.set address l := by
  obtain ⟨hp, hc, -, hl⟩ := withLedger_effect h
  exact ⟨hp.sales, hp.shuffles, hc, hl⟩

theorem Opening.books_eq {number : UInt64} {config : SaleConfig}
    (o : Opening st signer sale shuffle number config receipt) :
    receipt.state.books = { st.books with
      sales := st.sales.set sale (openedSale signer.address number config o.depth)
      shuffles := st.shuffles.set (.shuffle sale) (Shuffle.blank.bind sale bump) } := by
  have hfunded := pay_sameRecords (create_eq_ok.mp o.funded_eq).2.1
  have hbuilt := pay_sameRecords (create_eq_ok.mp o.built_eq).2.1
  -- paying for accounts moves coins only, so blank records are all that is written before
  have hsales : o.built.sales = st.sales.set sale .blank := by
    rw [hbuilt.sales]
    show o.funded.sales.set sale .blank = _
    rw [hfunded.sales]
  rw [o.state_eq]
  show Books.mk (o.built.sales.set sale _) ((o.built.shuffles.set _ _).set _ _)
    o.built.ledgers o.built.commitments = _
  rw [hsales, Registry.set_set, Registry.set_set, hbuilt.shuffles, hbuilt.ledgers,
    hbuilt.commitments]
  show Books.mk _ (o.funded.shuffles.set _ _) o.funded.ledgers o.funded.commitments = _
  rw [hfunded.shuffles, hfunded.ledgers, hfunded.commitments]
  rfl

theorem VaultOpening.books_eq (o : VaultOpening st signer sale vault mint receipt) :
    receipt.state.books =
      { st.books with sales := st.sales.set sale { o.record with vaultBump := bump } } := by
  have hfunded := pay_sameRecords (create_eq_ok.mp o.funded_eq).2.1
  rw [o.state_eq]
  show Books.mk (o.funded.sales.set sale _) o.funded.shuffles o.funded.ledgers
    o.funded.commitments = _
  rw [hfunded.sales, hfunded.shuffles, hfunded.ledgers, hfunded.commitments]
  rfl

theorem Purchase.books_eq {who : Buyer} {request : MintRequest}
    (p : Purchase st signer who sale ledger recipient request parties receipt) :
    receipt.state.books = { st.books with
      sales := st.sales.set sale { p.record with
        allocated := p.allocated, totalMinted := p.minted, amountPaid := p.paid }
      ledgers := st.ledgers.set (.ledger sale recipient)
        { p.found.bind sale recipient bump with minted := p.held } } := by
  obtain ⟨hsales, hshuffles, hcommitments, hledgers⟩ := withLedger_books p.mid_eq
  have hcollected := collect_sameRecords p.collected_eq
  rw [p.state_eq]
  show Books.mk (p.collected.sales.set sale _) p.collected.shuffles
    (p.collected.ledgers.set _ _) p.collected.commitments = _
  rw [hcollected.sales, hcollected.shuffles, hcollected.ledgers, hcollected.commitments, hsales,
    hshuffles, hcommitments, hledgers]
  rfl

theorem Burning.books_eq {units : UInt64} (b : Burning st signer sale ledger units receipt) :
    receipt.state.books = { st.books with
      sales := st.sales.set sale { b.record with totalBurned := b.totalBurned }
      ledgers := st.ledgers.set (.ledger sale signer.address) { b.holding with burned := b.burned } } := by
  rw [b.state_eq]
  rfl

/-- Moving the money of a withdrawal writes nothing in the books. -/
theorem Withdrawal.moved_sameRecords {amount : UInt64}
    (w : Withdrawal st signer sale recipient parties amount receipt) : SameRecords st w.moved := by
  have hmoved := w.moved_eq
  cases hcur : w.record.terms.currency with
  | native =>
    rw [hcur] at hmoved
    exact pay_sameRecords (withdrawCoins_eq_ok.mp hmoved)
  | token mint =>
    rw [hcur] at hmoved
    obtain ⟨account, vault, paid, -, -, -, htransfer⟩ := withdrawTokens_eq_ok.mp hmoved
    exact transferTokens_sameRecords htransfer

theorem Withdrawal.books_eq {amount : UInt64}
    (w : Withdrawal st signer sale recipient parties amount receipt) :
    receipt.state.books = { st.books with
      sales := st.sales.set sale { w.record with amountWithdrawn := w.withdrawn } } := by
  have hmoved := w.moved_sameRecords
  rw [w.state_eq]
  show Books.mk (w.moved.sales.set sale _) w.moved.shuffles w.moved.ledgers w.moved.commitments = _
  rw [hmoved.sales, hmoved.shuffles, hmoved.ledgers, hmoved.commitments]
  rfl

theorem Reservation.books_eq {brought : Option Address} {hash : Bytes32}
    {units maximumPrice : UInt64}
    (r : Reservation st signer sale shuffle commitment brought hash units maximumPrice parties
      receipt) :
    receipt.state.books = { st.books with
      sales := st.sales.set sale { r.record with allocated := r.allocated, amountPaid := r.paid }
      shuffles := st.shuffles.set (.shuffle sale) { r.draw with
        totalReserved := r.reserved
        pending := r.pending
        phase := Booking.phaseAfterCommit
          ({ r.record with allocated := r.allocated } : Sale).available }
      commitments := st.commitments.set (.commitment sale signer.address)
        ⟨sale, signer.address, hash, units, 0, .committed, st.now, bump⟩ } := by
  obtain ⟨hp, hledgers, -, hcommitments⟩ := withCommitment_effect r.mid_eq
  have hcollected := collect_sameRecords r.collected_eq
  rw [r.state_eq]
  show Books.mk (r.collected.sales.set sale _) (r.collected.shuffles.set _ _)
    r.collected.ledgers (r.collected.commitments.set _ _) = _
  rw [hcollected.sales, hcollected.shuffles, hcollected.ledgers, hcollected.commitments, hp.sales,
    hp.shuffles, hledgers, hcommitments, hcollected.now, hp.now]
  rfl

theorem WindowOpening.books_eq {seed : Bytes32} {bound : TimeBound}
    (w : WindowOpening st signer sale shuffle seed bound receipt) :
    receipt.state.books = { st.books with
      shuffles := st.shuffles.set (.shuffle sale) { w.draw with
        seed := seed, timeBound := bound, revealStartedAt := st.now, deadline := w.deadline
        hardDeadline := w.hardDeadline, phase := .revealing } } := by
  rw [w.state_eq]
  rfl

theorem Revelation.books_eq {secret : Bytes32}
    (r : Revelation st signer sale shuffle commitment secret receipt) :
    receipt.state.books = { st.books with
      shuffles := st.shuffles.set (.shuffle sale) { r.draw with
        seed := accumulateSeed r.draw.seed secret
        deadline := r.draw.extendedDeadline st.now
        revealedUnits := r.revealed
        pending := r.pending
        phase := Booking.phaseAfterReveal r.pending }
      commitments := st.commitments.set (.commitment sale signer.address)
        { r.reservation with status := .revealed, slotStart := r.draw.revealedUnits } } := by
  rw [r.state_eq]
  rfl

theorem Drawing.books_eq (d : Drawing st signer sale shuffle receipt) :
    receipt.state.books = { st.books with
      sales := st.sales.set sale { d.record with allocated := d.allocated }
      shuffles := st.shuffles.set (.shuffle sale) { d.draw with
        permutation := permutation d.draw.seed d.draw.revealedUnits.toUInt32
        forfeitedUnits := d.forfeited
        phase := .shuffled } } := by
  rw [d.state_eq]
  rfl

theorem Handout.books_eq (c : Handout st signer sale shuffle commitment ledger receipt) :
    receipt.state.books = { st.books with
      sales := st.sales.set sale { c.record with totalMinted := c.minted }
      ledgers := st.ledgers.set (.ledger sale signer.address)
        { c.found.bind sale signer.address bump with minted := c.held }
      commitments := st.commitments.set (.commitment sale signer.address)
        { c.reservation with status := .claimed } } := by
  obtain ⟨hsales, hshuffles, hcommitments, hledgers⟩ := withLedger_books c.mid_eq
  rw [c.state_eq]
  show Books.mk (c.mid.sales.set sale _) c.mid.shuffles (c.mid.ledgers.set _ _)
    (c.mid.commitments.set _ _) = _
  rw [hsales, hshuffles, hcommitments, hledgers]
  rfl

/-! ## Other sales -/

/-- Only addresses derived from the sale that an instruction is about are written. -/
theorem Accepted.confined {i : Instruction} (h : st.Accepted signer i receipt) :
    st.books.Confined receipt.state.books i.sale := by
  have hsame := Books.Confined.refl st.books i.sale
  cases h with
  | openSale o =>
    rw [o.books_eq]
    exact (hsame.setSale _).setShuffle _
  | openVault o =>
    rw [o.books_eq]
    exact hsame.setSale _
  | calculate hstate =>
    rw [hstate]
    exact hsame
  | mint p =>
    rw [p.books_eq]
    exact (hsame.setSale _).setLedger _ _
  | mintFor p =>
    rw [p.books_eq]
    exact (hsame.setSale _).setLedger _ _
  | burn b =>
    rw [b.books_eq]
    exact (hsame.setSale _).setLedger _ _
  | withdraw w =>
    rw [w.books_eq]
    exact hsame.setSale _
  | royaltyInfo hstate =>
    rw [hstate]
    exact hsame
  | commit r =>
    rw [r.books_eq]
    exact ((hsame.setSale _).setShuffle _).setCommitment _ _
  | startReveal w =>
    rw [w.books_eq]
    exact hsame.setShuffle _
  | reveal r =>
    rw [r.books_eq]
    exact (hsame.setShuffle _).setCommitment _ _
  | revealIds d =>
    rw [d.books_eq]
    exact (hsame.setSale _).setShuffle _
  | claimReserved c =>
    rw [c.books_eq]
    exact ((hsame.setSale _).setLedger _ _).setCommitment _ _

/-- Only the sale that an instruction is about is written. -/
theorem Accepted.beside {i : Instruction} (h : st.Accepted signer i receipt) :
    st.books.SameBeside receipt.state.books i.sale := h.confined.sameBeside

/-! ## One sale at a time -/

/-- A sale that exists still exists after an instruction, and what became of it is one of the
turns. -/
theorem Accepted.turn {i : Instruction} {record : Sale} {draw : Shuffle}
    (h : st.Accepted signer i receipt) (hrecord : st.books.sales.find? sale = some record)
    (hdraw : st.books.shuffles.find? (.shuffle sale) = some draw) :
    ∃ record' draw', receipt.state.books.sales.find? sale = some record' ∧
      receipt.state.books.shuffles.find? (.shuffle sale) = some draw' ∧
        Turn st signer receipt sale record draw record' draw' := by
  by_cases hs : sale = i.sale
  -- an instruction about another sale leaves this one as it is
  case neg =>
    have hbeside := h.beside
    exact ⟨record, draw, (hbeside.sales sale hs).trans hrecord,
      (hbeside.shuffles sale hs).trans hdraw, .keeps⟩
  subst hs
  cases h with
  | openSale o => exact absurd (o.sale_new.symm.trans hrecord) (by simp)
  | openVault o =>
    obtain rfl : o.record = record := Registry.eq_of_find? o.loaded hrecord
    rw [o.books_eq]
    exact ⟨_, draw, Registry.find?_set_self _ _ _, hdraw, .opensVault o rfl⟩
  | calculate hstate =>
    rw [hstate]
    exact ⟨record, draw, hrecord, hdraw, .keeps⟩
  | mint p =>
    obtain rfl : p.record = record := Registry.eq_of_find? p.loaded hrecord
    rw [p.books_eq]
    exact ⟨_, draw, Registry.find?_set_self _ _ _, hdraw, .sells p rfl⟩
  | mintFor p =>
    obtain rfl : p.record = record := Registry.eq_of_find? p.loaded hrecord
    rw [p.books_eq]
    exact ⟨_, draw, Registry.find?_set_self _ _ _, hdraw, .sells p rfl⟩
  | burn b =>
    obtain rfl : b.record = record := Registry.eq_of_find? b.loaded hrecord
    rw [b.books_eq]
    exact ⟨_, draw, Registry.find?_set_self _ _ _, hdraw, .burns b rfl⟩
  | withdraw w =>
    obtain rfl : w.record = record := Registry.eq_of_find? w.loaded hrecord
    rw [w.books_eq]
    exact ⟨_, draw, Registry.find?_set_self _ _ _, hdraw, .paysOut w rfl⟩
  | royaltyInfo hstate =>
    rw [hstate]
    exact ⟨record, draw, hrecord, hdraw, .keeps⟩
  | commit r =>
    obtain rfl : r.record = record := Registry.eq_of_find? r.loaded hrecord
    obtain rfl : r.draw = draw := Registry.eq_of_find? r.drawn hdraw
    rw [r.books_eq]
    exact ⟨_, _, Registry.find?_set_self _ _ _, Registry.find?_set_self _ _ _, .reserves r rfl rfl⟩
  | startReveal w =>
    obtain rfl : w.draw = draw := Registry.eq_of_find? w.drawn hdraw
    obtain rfl : w.record = record := Registry.eq_of_find? w.loaded hrecord
    rw [w.books_eq]
    exact ⟨_, _, hrecord, Registry.find?_set_self _ _ _, .opensWindow w rfl rfl⟩
  | reveal r =>
    obtain rfl : r.record = record := Registry.eq_of_find? r.loaded hrecord
    obtain rfl : r.draw = draw := Registry.eq_of_find? r.drawn hdraw
    rw [r.books_eq]
    exact ⟨_, _, hrecord, Registry.find?_set_self _ _ _, .reveals r rfl rfl⟩
  | revealIds d =>
    obtain rfl : d.record = record := Registry.eq_of_find? d.loaded hrecord
    obtain rfl : d.draw = draw := Registry.eq_of_find? d.drawn hdraw
    rw [d.books_eq]
    exact ⟨_, _, Registry.find?_set_self _ _ _, Registry.find?_set_self _ _ _, .draws d rfl rfl⟩
  | claimReserved c =>
    obtain rfl : c.record = record := Registry.eq_of_find? c.loaded hrecord
    obtain rfl : c.draw = draw := Registry.eq_of_find? c.drawn hdraw
    rw [c.books_eq]
    exact ⟨_, _, Registry.find?_set_self _ _ _, hdraw, .handsOut c rfl rfl⟩

end State
end UnitSale
