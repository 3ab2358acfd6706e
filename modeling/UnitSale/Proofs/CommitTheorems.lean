import UnitSale.Proofs.PaymentTheorems
import UnitSale.Proofs.PricingTheorems
import UnitSale.Proofs.RefusalTheorems

/-!
# What a reservation does

A reservation is all or nothing: it takes exactly the units asked for or it is refused. Its guards
are spread over the quote, the cost, the payment and the protocol step, and money is collected
before stock is looked at. Together they come to a condition on plain numbers, because in a state
that a run reaches no counter that is checked after the payment can overflow but the one of the
money itself.
-/

namespace UnitSale

/-- A reservation costs the price of every unit, within the limit of the script. The limit may be
too wide for an amount, and no units that are asked for are. -/
theorem SaleQuote.reservationCost_words {q : Script.Quote} {quote : SaleQuote}
    {units maximumPrice cost : UInt64} (h : ofWords q = .ok quote) :
    quote.reservationCost units maximumPrice = .ok cost ↔
      q.price.toNat ≤ maximumPrice.toNat ∧ units.toNat ≤ q.maxUnits.toNat ∧
        cost.toNat = units.toNat * q.price.toNat := by
  have hsize := units.toNat_lt_size
  obtain ⟨hprice, hlimit⟩ := ofWords_eq_ok.mp h
  rw [reservationCost_eq_ok, hlimit, UInt64.le_iff_toNat_le, UInt64.le_iff_toNat_le,
    Word.toNat_narrowed, ← hprice, eq_comm (b := cost.toNat)]
  have hnarrowed : units.toNat ≤ min q.maxUnits.toNat (UInt64.size - 1)
      ↔ units.toNat ≤ q.maxUnits.toNat := by
    omega
  rw [hnarrowed]

namespace State

variable {st mid collected : State} {sale buyer : Address} {key : Bytes32} {record : Sale}
  {draw : Shuffle} {found : Commitment} {brought : Option Address} {held : Option Ledger}
  {hash : Bytes32} {units maximumPrice : UInt64} {parties : TokenParties} {receipt : Receipt}
  {q : Script.Quote}

/-- The signed call by which a key reserves units. -/
def commitCall (key : Bytes32) (sale : Address) (brought : Option Address) (hash : Bytes32)
    (units maximumPrice : UInt64) (parties : TokenParties) : Call :=
  ⟨key, true, .commit sale (.shuffle sale) (.commitment sale (.key key)) brought hash units
    maximumPrice parties⟩

theorem execute_commitCall_eq_ok :
    st.execute (commitCall key sale brought hash units maximumPrice parties) = .ok receipt ↔
      st.commit ⟨.key key, true⟩ sale (.shuffle sale) (.commitment sale (.key key)) brought hash
        units maximumPrice parties = .ok receipt := silent_eq_ok

theorem commit_of {quote : SaleQuote} {cost : UInt64} {booking : Booking} {record' : Sale}
    (hload : st.sales.find? sale = some record)
    (hdraw : st.shuffles.find? (.shuffle sale) = some draw)
    (hheld : brought.mapM (load st.ledgers) = .ok held)
    (hderived : ∀ l, brought = some l → l = .ledger sale buyer)
    (hbrought : parties.load st = .ok ())
    (hmid : st.withCommitment buyer (.commitment sale buyer) = .ok (mid, found))
    (hvault : parties.checkVault sale = .ok ())
    (hquote : record.quoteFor buyer held units mid.now = .ok quote)
    (hcost : quote.reservationCost units maximumPrice = .ok cost)
    (hcollected : mid.collect sale record.terms.currency buyer parties cost = .ok collected)
    (hcommit : (Booking.commit hash units collected.now).attempt ⟨record, draw, found⟩
      = .ok ((), booking))
    (hpaid : (Sale.recordPayment cost).attempt booking.sale = .ok ((), record')) :
    ∃ receipt, st.commit ⟨buyer, true⟩ sale (.shuffle sale) (.commitment sale buyer) brought hash
      units maximumPrice parties = .ok receipt := by
  -- with or without a ledger, the steps are the same but for its address
  cases brought with
  | none =>
    simp only [commit, bind_eq_ok, load_eq_ok, verified_eq_ok, checkSeeds_eq_ok, ruled_eq_ok,
      pure_eq_ok]
    exact ⟨_, record, hload, draw, hdraw, held, hheld, buyer, ⟨trivial, rfl⟩, (), hbrought, (), rfl,
      (mid, found), hmid, (), trivial, (), hvault, quote, hquote, cost, hcost, collected,
      hcollected, ((), booking), hcommit, ((), record'), hpaid, rfl⟩
  | some l =>
    obtain rfl := hderived l rfl
    simp only [commit, bind_eq_ok, load_eq_ok, verified_eq_ok, checkSeeds_eq_ok, ruled_eq_ok,
      pure_eq_ok]
    exact ⟨_, record, hload, draw, hdraw, held, hheld, buyer, ⟨trivial, rfl⟩, (), hbrought, (), rfl,
      (mid, found), hmid, (), trivial, (), rfl, (), hvault, quote, hquote, cost, hcost, collected,
      hcollected, ((), booking), hcommit, ((), record'), hpaid, rfl⟩

/-! ## One reservation -/

/-- The setting of a reservation: the sale and its shuffle, the ledger that is brought along if one
is, the words that the script yields with it, the accounts of the currency, money for the rent, and
no more coins and tokens than an amount can count. -/
structure Reserving (st : State) (sale buyer : Address) (record : Sale) (draw : Shuffle)
    (brought : Option Address) (units : UInt64) (parties : TokenParties) (q : Script.Quote) :
    Prop where
  loaded : st.sales.find? sale = some record
  drawn : st.shuffles.find? (.shuffle sale) = some draw
  brought_found : ∀ l, brought = some l → l = .ledger sale buyer ∧ st.ledgers.contains l
  quoted : record.wordQuote Sale.table
    (.ofSale record buyer (brought.bind fun _ => st.ledgers.find? (.ledger sale buyer)) st.now)
      buyer units = .ok q
  supplied : parties.Supplied st sale buyer record.terms.currency
  funded : st.rentFor st.commitments (.commitment sale buyer) Commitment.space
    ≤ (st.balance buyer).toNat
  coins_lt : st.coinTotal < UInt64.size
  tokens_lt : ∀ mint, st.tokenTotal mint < UInt64.size

/-- The books after a reservation: the sale has more units allocated and more paid, its shuffle has
more units reserved and one more reservation pending, and is closed to others if no stock is left,
the buyer has the reservation, and nothing else has changed. -/
structure Reserved (st : State) (sale buyer : Address) (record : Sale) (draw : Shuffle)
    (hash : Bytes32) (units : UInt64) (cost : ℕ) (st' : State) : Prop where
  sale_eq : ∃ allocated paid : UInt64,
    st'.sales = st.sales.set sale { record with allocated := allocated, amountPaid := paid } ∧
    allocated.toNat = record.allocated.toNat + units.toNat ∧
    paid.toNat = record.amountPaid.toNat + cost
  shuffle_eq : ∃ reserved pending : UInt64,
    st'.shuffles = st.shuffles.set (.shuffle sale) { draw with
      totalReserved := reserved
      pending := pending
      phase := if record.terms.supplyLimit.toNat ≤ record.allocated.toNat + units.toNat
        then .reserved else .opened } ∧
    reserved.toNat = draw.totalReserved.toNat + units.toNat ∧
    pending.toNat = draw.pending.toNat + 1
  commitment_eq : st'.commitments = st.commitments.set (.commitment sale buyer)
    ⟨sale, buyer, hash, units, 0, .committed, st.now, bump⟩
  ledgers_eq : st'.ledgers = st.ledgers

/-- The phase after a reservation says whether stock is left. -/
theorem phaseAfterCommit_of_allocated {s : Sale} {n : ℕ} (h : s.allocated.toNat = n) :
    Booking.phaseAfterCommit s.available
      = if s.terms.supplyLimit.toNat ≤ n then .reserved else .opened := by
  have hzero : s.available = 0 ↔ s.terms.supplyLimit.toNat ≤ n := by
    rw [← UInt64.toNat_inj, Sale.toNat_available, h]
    exact Nat.sub_eq_zero_iff_le
  unfold Booking.phaseAfterCommit
  simp only [hzero]

/-- What a reservation writes in the books. -/
theorem Reservation.reserved_books {signer : Signer} {shuffle commitment : Address}
    (r : Reservation st signer sale shuffle commitment brought hash units maximumPrice parties
      receipt) :
    Reserved st sale signer.address r.record r.draw hash units r.cost.toNat receipt.state := by
  have hbooks := r.books_eq
  have hphase := phaseAfterCommit_of_allocated
    (s := { r.record with allocated := r.allocated }) r.allocated_eq.symm
  rw [hphase] at hbooks
  exact {
    sale_eq := ⟨r.allocated, r.paid, congrArg Books.sales hbooks, r.allocated_eq.symm,
      r.paid_eq.symm⟩
    shuffle_eq := ⟨r.reserved, r.pending, congrArg Books.shuffles hbooks, r.reserved_eq.symm,
      r.pending_eq.symm⟩
    commitment_eq := congrArg Books.commitments hbooks
    ledgers_eq := congrArg Books.ledgers hbooks }

section Setting

/-- Once the commitment is at hand, the cost is collected exactly if the purse covers it. -/
theorem Reserving.collect_iff
    (hb : Reserving st sale (.key key) record draw brought units parties q) (hvaulted : st.Vaulted)
    (hmid : st.withCommitment (.key key) (.commitment sale (.key key)) = .ok (mid, found))
    {cost : UInt64} :
    (∃ collected, mid.collect sale record.terms.currency (.key key) parties cost = .ok collected)
      ↔ cost.toNat ≤ st.purse (.key key) parties
          (st.rentFor st.commitments (.commitment sale (.key key)) Commitment.space)
          record.terms.currency := by
  have hne : Address.key key ≠ .commitment sale (.key key) := by simp
  exact (rented_of_withCommitment hmid).collect_iff hne hvaulted ⟨key, rfl⟩ hb.loaded hb.supplied
    hb.coins_lt hb.tokens_lt

theorem Reserving.load_brought
    (hb : Reserving st sale buyer record draw brought units parties q) :
    brought.mapM (load st.ledgers)
      = .ok (brought.bind fun _ => st.ledgers.find? (.ledger sale buyer)) := by
  cases brought with
  | none => rfl
  | some l =>
    obtain ⟨rfl, hfound⟩ := hb.brought_found l rfl
    obtain ⟨stored, hstored⟩ := Option.isSome_iff_exists.mp hfound
    rw [Option.mapM_some, load_eq_ok.mpr hstored, Option.bind_some, hstored]
    rfl

theorem Reservation.within
    (hb : Reserving st sale (.key key) record draw brought units parties q)
    (hvaulted : st.Vaulted) {shuffle commitment : Address}
    (r : Reservation st ⟨.key key, true⟩ sale shuffle commitment brought hash units maximumPrice
      parties receipt) :
    q.price.toNat ≤ maximumPrice.toNat ∧ units.toNat ≤ q.maxUnits.toNat ∧
      r.cost.toNat ≤ st.purse (.key key) parties
        (st.rentFor st.commitments (.commitment sale (.key key)) Commitment.space)
        record.terms.currency ∧
      units.toNat ≤ record.terms.supplyLimit.toNat - record.allocated.toNat ∧
      draw.phase = .opened ∧ r.cost.toNat = units.toNat * q.price.toNat ∧ r.record = record ∧
      r.draw = draw := by
  obtain rfl : r.record = record := Registry.eq_of_find? r.loaded hb.loaded
  obtain rfl : r.draw = draw := Registry.eq_of_find? r.drawn hb.drawn
  have hwords := (Sale.quoteFor_of_words hb.quoted).mp r.quoted_eq
  obtain ⟨hprice, hallowed, hcost⟩ := (SaleQuote.reservationCost_words hwords).mp r.cost_eq
  have hcovered := (hb.collect_iff hvaulted r.mid_eq).mp ⟨_, r.collected_eq⟩
  exact ⟨hprice, hallowed, hcovered, Sale.le_available.mp r.in_stock, r.opened, hcost, rfl, rfl⟩

theorem Reserving.goes_through
    (hb : Reserving st sale (.key key) record draw brought units parties q) (hvaulted : st.Vaulted)
    (hcoherent : Booking.Coherent ⟨record, draw, .blank⟩) {cost : ℕ}
    (hcost : cost = units.toNat * q.price.toNat)
    (hprice : q.price.toNat ≤ maximumPrice.toNat) (hallowed : units.toNat ≤ q.maxUnits.toNat)
    (hfits : cost < UInt64.size)
    (hcovered : cost ≤ st.purse (.key key) parties
      (st.rentFor st.commitments (.commitment sale (.key key)) Commitment.space)
      record.terms.currency)
    (hpos : 0 < units)
    (hstock : units.toNat ≤ record.terms.supplyLimit.toNat - record.allocated.toNat)
    (hopened : draw.phase = .opened)
    (hnone : st.commitments.find? (.commitment sale (.key key)) = none)
    (hpaid : record.amountPaid.toNat + cost < UInt64.size) :
    ∃ receipt, st.commit ⟨.key key, true⟩ sale (.shuffle sale) (.commitment sale (.key key)) brought
      hash units maximumPrice parties = .ok receipt := by
  obtain ⟨total, rfl⟩ := Checked.exists_amount hfits
  obtain ⟨quote, hwords⟩ := SaleQuote.exists_ofWords
    (Nat.lt_of_le_of_lt hprice maximumPrice.toNat_lt_size)
  obtain ⟨mid, hmid⟩ := withCommitment_of_funded hb.funded hb.coins_lt
  rw [hnone] at hmid
  obtain ⟨collected, hcollected⟩ := (hb.collect_iff hvaulted hmid).mpr hcovered
  have havailable : units ≤ record.available := Sale.le_available.mpr hstock
  obtain ⟨allocated, reserved, pending, ha, hr, hn⟩ := hcoherent.exists_counters hpos havailable
  obtain ⟨paid, hp⟩ := Checked.exists_amount hpaid
  have hquote := (Sale.quoteFor_of_words hb.quoted).mpr hwords
  rw [← (withCommitment_effect hmid).1.now] at hquote
  exact commit_of hb.loaded hb.drawn hb.load_brought (fun l hl => (hb.brought_found l hl).1)
    hb.supplied.load_eq hmid hb.supplied.checkVault_eq hquote
    ((SaleQuote.reservationCost_words hwords).mpr ⟨hprice, hallowed, hcost⟩) hcollected
    (Booking.attempt_commit.mpr
      ⟨hpos, rfl, hopened, havailable, allocated, reserved, pending, ha, hr, hn, rfl⟩)
    (Sale.attempt_recordPayment.mpr ⟨paid, hp, rfl⟩)

end Setting

end State

/-- A reservation is all or nothing, in every state that a run reaches. It goes through exactly if
the price is within the highest one asked for, the script allows that many units, their cost is an
amount that the buyer has when it is collected, there are some and that many are in stock,
reservations are open, the buyer has none in this sale, and the sale can count the money. Then the
buyer has paid the rent and the cost, the sale or its vault has got the cost, and exactly these
units are reserved; nothing is minted and no ledger has changed. -/
theorem reservation_all_or_nothing {start st : State} {trace : List Entry} (hfresh : start.Fresh)
    (h : Run start trace st) {sale : Address} {key : Bytes32} {record : Sale} {draw : Shuffle}
    {brought : Option Address} {hash : Bytes32} {units maximumPrice : UInt64}
    {parties : TokenParties} {q : Script.Quote}
    (hb : st.Reserving sale (.key key) record draw brought units parties q) {rent cost : ℕ}
    (hrent : rent = st.rentFor st.commitments (.commitment sale (.key key)) Commitment.space)
    (hcost : cost = units.toNat * q.price.toNat) :
    ((∃ receipt, st.execute
        (State.commitCall key sale brought hash units maximumPrice parties) = .ok receipt) ↔
      q.price.toNat ≤ maximumPrice.toNat ∧ units.toNat ≤ q.maxUnits.toNat ∧ cost < UInt64.size ∧
        cost ≤ st.purse (.key key) parties rent record.terms.currency ∧ 0 < units ∧
        units.toNat ≤ record.terms.supplyLimit.toNat - record.allocated.toNat ∧
        draw.phase = .opened ∧ st.commitments.find? (.commitment sale (.key key)) = none ∧
        record.amountPaid.toNat + cost < UInt64.size) ∧
    ∀ receipt, st.execute
        (State.commitCall key sale brought hash units maximumPrice parties) = .ok receipt →
      st.Paid (.key key) (.commitment sale (.key key)) sale record.terms.currency parties rent cost
        receipt.state ∧
      st.Reserved sale (.key key) record draw hash units cost receipt.state := by
  have hsound := sound_of_run hfresh h
  have hvaulted := vaulted_of_run hfresh h
  have hcoherent := coherent_of_run hfresh h (b := ⟨record, draw, .blank⟩)
    ⟨hb.loaded, hb.drawn, .inl rfl⟩
  subst hrent
  simp only [State.execute_commitCall_eq_ok]
  refine ⟨⟨?_, ?_⟩, ?_⟩
  · intro hok
    obtain ⟨receipt, hreceipt⟩ := hok
    obtain ⟨r⟩ := State.commit_ok hreceipt
    obtain ⟨hprice, hallowed, hcovered, hstock, hopened, hc, hrecord, -⟩ := r.within hb hvaulted
    have hpaid := r.paid_eq
    obtain rfl : r.cost.toNat = cost := hc.trans hcost.symm
    rw [hrecord] at hpaid
    exact ⟨hprice, hallowed, r.cost.toNat_lt_size, hcovered, r.some_units, hstock, hopened,
      r.find?_eq_none hsound, hpaid ▸ r.paid.toNat_lt_size⟩
  · intro hwithin
    obtain ⟨hprice, hallowed, hfits, hcovered, hpos, hstock, hopened, hnone, hpaid⟩ := hwithin
    exact hb.goes_through hvaulted hcoherent hcost hprice hallowed hfits hcovered hpos hstock
      hopened hnone hpaid
  · intro receipt hreceipt
    obtain ⟨r⟩ := State.commit_ok hreceipt
    obtain ⟨-, -, -, -, -, hc, hrecord, hdraw⟩ := r.within hb hvaulted
    obtain rfl : r.cost.toNat = cost := hc.trans hcost.symm
    subst hrecord hdraw
    have hpaid := (State.rented_of_withCommitment r.mid_eq).paid hvaulted ⟨key, rfl⟩ hb.loaded
      hb.supplied r.collected_eq
    have hstate := r.state_eq
    refine ⟨?_, r.reserved_books⟩
    rw [hstate]
    exact hpaid.of_eq rfl rfl

/-- Four units at a hundred coins each, as many as the script allows without a ledger. -/
theorem reservation_all_or_nothing_sold :
    ∃ trace, Sample.start.Fresh ∧ Run Sample.start trace Sample.sold ∧
      Sample.sold.Reserving Sample.capped (.key Sample.owner) Sample.soldRecord
        (Shuffle.blank.bind Sample.capped 255) none 4 .none ⟨4, 100⟩ ∧
      ∃ receipt, Sample.sold.execute (Sample.reserving none 4) = .ok receipt ∧
        Sample.sold.Reserved Sample.capped (.key Sample.owner) Sample.soldRecord
          (Shuffle.blank.bind Sample.capped 255) (commitmentHash (Vector.replicate 32 9)) 4 400
          receipt.state := by
  obtain ⟨trace, hrun⟩ := Sample.run_sold
  have hpinned : Sale.table.fingerprint = Sample.soldRecord.terms.fingerprint := rfl
  have hb : Sample.sold.Reserving Sample.capped (.key Sample.owner) Sample.soldRecord
      (Shuffle.blank.bind Sample.capped 255) none 4 .none ⟨4, 100⟩ := {
    loaded := rfl
    drawn := rfl
    brought_found := fun _ hl => nomatch hl
    quoted := by
      rw [Sale.wordQuote_of_pinned hpinned]
      rfl
    supplied := .coins rfl rfl
    funded := by decide +kernel
    coins_lt := by decide +kernel
    tokens_lt := fun _ => Nat.two_pow_pos 64 }
  have hcost : 400 = (4 : UInt64).toNat * (100 : Word).toNat := rfl
  obtain ⟨receipt, hok⟩ : ∃ receipt, Sample.sold.execute (Sample.reserving none 4) = .ok receipt :=
    (reservation_all_or_nothing Sample.start_fresh hrun hb rfl hcost).1.mpr (by decide +kernel)
  obtain ⟨-, hreserved⟩ :=
    (reservation_all_or_nothing Sample.start_fresh hrun hb rfl hcost).2 receipt hok
  exact ⟨trace, Sample.start_fresh, hrun, hb, receipt, hok, hreserved⟩

end UnitSale
