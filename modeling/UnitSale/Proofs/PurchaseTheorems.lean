import UnitSale.Proofs.PaymentTheorems
import UnitSale.Proofs.PhaseTheorems
import UnitSale.Proofs.WalletTheorems

/-!
# What a purchase does

A purchase evaluates the script, narrows its words, takes the least of four limits, refuses for
three reasons in turn, multiplies, collects and counts, and each of these steps can fail. In a state
that a run reaches the counters are so small that the last ones cannot, which leaves a condition on
plain numbers for when a purchase goes through, and an equation for every figure it changes.
-/

namespace UnitSale

/-! ## Settling on plain numbers -/

/-- The units that a wallet may still take: what is in stock and, if there is a limit for each
wallet, no more than it leaves over what the wallet has minted. -/
def Sale.roomFor (s : Sale) (minted : UInt64) : ℕ :=
  if s.terms.maxPerWallet = 0 then s.terms.supplyLimit.toNat - s.allocated.toNat
  else min (s.terms.supplyLimit.toNat - s.allocated.toNat)
    (s.terms.maxPerWallet.toNat - minted.toNat)

/-- The units that a purchase comes to: what is asked for, what the script allows and what the
wallet may still take, whichever is least. -/
def Sale.unitsFor (s : Sale) (desired : UInt64) (allowed : ℕ) (minted : UInt64) : ℕ :=
  min (min desired.toNat allowed) (s.roomFor minted)

theorem Sale.unitsFor_le_desired (s : Sale) (desired : UInt64) (allowed : ℕ) (minted : UInt64) :
    s.unitsFor desired allowed minted ≤ desired.toNat := by
  unfold unitsFor
  omega

theorem Sale.unitsFor_le_stock (s : Sale) (desired : UInt64) (allowed : ℕ) (minted : UInt64) :
    s.unitsFor desired allowed minted ≤ s.terms.supplyLimit.toNat - s.allocated.toNat := by
  unfold unitsFor roomFor
  split <;> omega

/-- The least of the four limits is the same on amounts and on plain numbers: the largest amount,
which stands for a limit that is too wide and for no limit at all, is never the least by itself. -/
theorem Sale.toNat_least_limits (s : Sale) (desired : UInt64) (allowed : Word) (minted : UInt64) :
    (Checked.least (Checked.least (Checked.least desired
      (allowed.toAmount?.getD Checked.maxAmount)) s.available) (s.walletRemaining minted)).toNat
        = s.unitsFor desired allowed.toNat minted := by
  have hsize := desired.toNat_lt_size
  have hmax : Checked.maxAmount.toNat = UInt64.size - 1 := rfl
  rw [Checked.toNat_least, Checked.toNat_least, Checked.toNat_least, Word.toNat_narrowed,
    toNat_available, unitsFor, roomFor]
  by_cases hzero : s.terms.maxPerWallet = 0
  · rw [walletRemaining, if_pos hzero, if_pos hzero, hmax]
    omega
  · rw [toNat_walletRemaining (UInt64.pos_iff_ne_zero.mpr hzero), if_neg hzero]
    omega

/-- A purchase settles exactly if the price is within the highest one asked for, and the units are
at least the minimum and more than none. -/
theorem MintRequest.settle_words {s : Sale} {request : MintRequest} {q : Script.Quote}
    {quote : SaleQuote} {minted units : UInt64} (h : SaleQuote.ofWords q = .ok quote) :
    request.settle quote s.available (s.walletRemaining minted) = .ok units ↔
      q.price.toNat ≤ request.maximumPrice.toNat ∧
        request.minimumUnits.toNat ≤ s.unitsFor request.desiredUnits q.maxUnits.toNat minted ∧
        0 < s.unitsFor request.desiredUnits q.maxUnits.toNat minted ∧
        units.toNat = s.unitsFor request.desiredUnits q.maxUnits.toNat minted := by
  obtain ⟨hprice, hlimit⟩ := SaleQuote.ofWords_eq_ok.mp h
  rw [settle_eq_ok, hlimit, ← UInt64.toNat_inj, s.toNat_least_limits, UInt64.le_iff_toNat_le,
    UInt64.le_iff_toNat_le, UInt64.lt_iff_toNat_lt, ← hprice]
  constructor
  · intro hsettled
    obtain ⟨hmaximum, hminimum, hpos, hunits⟩ := hsettled
    rw [hunits] at hminimum hpos
    exact ⟨hmaximum, hminimum, hpos, hunits⟩
  · intro hsettled
    obtain ⟨hmaximum, hminimum, hpos, hunits⟩ := hsettled
    rw [hunits]
    exact ⟨hmaximum, hminimum, hpos, rfl⟩

/-! ## Buyers -/

namespace State

variable {st mid collected : State} {signer : Signer} {sale recipient payer : Address}
  {key : Bytes32} {record record' : Sale} {found found' : Ledger} {request : MintRequest}
  {parties : TokenParties} {who : Buyer}

/-- Who may buy for a recipient: the recipient alone, or the minter that the sale has delegated to.
-/
def Buyer.May (who : Buyer) (s : Sale) (recipient payer : Address) : Prop :=
  match who with
  | .recipient => recipient = payer
  | .delegate => s.terms.delegatedMinter = some payer

theorem Buyer.check_eq_ok {u : Unit} :
    who.check record recipient payer = .ok u ↔ who.May record recipient payer := by
  cases who <;> simp [check, May]

/-- The signed call by which a key buys for a recipient. -/
def Buyer.call (who : Buyer) (key : Bytes32) (sale recipient : Address) (request : MintRequest)
    (parties : TokenParties) : Call :=
  match who with
  | .recipient => ⟨key, true, .mint sale (.ledger sale recipient) recipient request parties⟩
  | .delegate => ⟨key, true, .mintFor sale (.ledger sale recipient) recipient request parties⟩

theorem execute_call_eq_ok {receipt : Receipt} :
    st.execute (who.call key sale recipient request parties) = .ok receipt ↔
      st.purchase ⟨.key key, true⟩ who sale (.ledger sale recipient) recipient request parties
        = .ok receipt := by
  cases who with
  | recipient => exact silent_eq_ok
  | delegate => exact silent_eq_ok

theorem purchase_of {quote : SaleQuote} {units cost : UInt64}
    (hload : st.sales.find? sale = some record) (hbrought : parties.load st = .ok ())
    (hmid : st.withLedger payer (.ledger sale recipient) = .ok (mid, found))
    (hvault : parties.checkVault sale = .ok ()) (hwho : who.May record recipient payer)
    (hquote : record.quoteFor recipient (some (found.bind sale recipient bump))
      request.desiredUnits mid.now = .ok quote)
    (hsettle : request.settle quote record.available
      (record.walletRemaining (found.bind sale recipient bump).minted) = .ok units)
    (hcost : units.toNat * quote.price.toNat = cost.toNat)
    (hcollected : mid.collect sale record.terms.currency payer parties cost = .ok collected)
    (hrecord : (Sale.recordMint units cost).attempt record = .ok ((), record'))
    (hledger : (Ledger.recordMint units).attempt (found.bind sale recipient bump)
      = .ok ((), found')) :
    ∃ receipt, st.purchase ⟨payer, true⟩ who sale (.ledger sale recipient) recipient request parties
      = .ok receipt := by
  simp only [purchase, bind_eq_ok, load_eq_ok, verified_eq_ok, checkSeeds_eq_ok, ruled_eq_ok,
    demand_eq_ok, pure_eq_ok, Checked.mul_eq_some_iff, Buyer.check_eq_ok]
  exact ⟨_, record, hload, payer, ⟨trivial, rfl⟩, (), hbrought, (), trivial, (mid, found), hmid, (),
    hvault, (), hwho, quote, hquote, units, hsettle, cost, hcost, collected, hcollected,
    ((), record'), hrecord, ((), found'), hledger, rfl⟩

/-- The ledger at hand for a recipient is quoted like the one that is stored, or like none. -/
theorem ofSale_bound (htallied : st.books.Tallied) (s : Sale) (now : Int64) :
    Snapshot.ofSale s recipient (some ((st.holding sale recipient).bind sale recipient bump)) now
      = .ofSale s recipient (st.ledgers.find? (.ledger sale recipient)) now := by
  have hholder : ((st.holding sale recipient).bind sale recipient bump).holder = recipient :=
    (htallied.bound rfl bump).2
  have hcounters : Snapshot.countersOf recipient
      (some ((st.holding sale recipient).bind sale recipient bump))
        = ⟨recipient, (st.holding sale recipient).minted, (st.holding sale recipient).burned⟩ := by
    rw [Snapshot.countersOf, hholder, Ledger.bind_minted, Ledger.bind_burned]
  unfold Snapshot.ofSale
  rw [hcounters]
  unfold holding
  cases hfound : st.ledgers.find? (.ledger sale recipient) with
  | none => rfl
  | some l =>
    have hkey := htallied.of_ledger hfound
    rw [Option.getD_some, hkey.2]
    rfl

/-! ## Counters that cannot fail -/

theorem holding_minted_le (htallied : st.books.Tallied) (hload : st.sales.find? sale = some record)
    (holder : Address) : (st.holding sale holder).minted.toNat ≤ record.totalMinted.toNat := by
  rw [(htallied.tallies sale record hload).minted_eq]
  unfold holding
  cases hfound : st.ledgers.find? (.ledger sale holder) with
  | none => exact Nat.zero_le _
  | some l =>
    exact Registry.figure_le_totalOf hfound (htallied.of_ledger hfound).1.symm
      fun l : Ledger => l.minted.toNat

/-- Units that are in stock are counted, as long as the money is. -/
theorem recordMint_of_stock {draw : Shuffle} {reserved : CommitmentStatus → ℕ} {units cost : UInt64}
    (hbalanced : Balanced record draw reserved)
    (hstock : units.toNat ≤ record.terms.supplyLimit.toNat - record.allocated.toNat)
    (hpaid : record.amountPaid.toNat + cost.toNat < UInt64.size) :
    ∃ record', (Sale.recordMint units cost).attempt record = .ok ((), record') := by
  obtain ⟨allocated, ha⟩ := Checked.exists_amount (hbalanced.allocated_add_lt hstock)
  obtain ⟨minted, hm⟩ := Checked.exists_amount (Nat.lt_of_le_of_lt
    (Nat.add_le_add_right hbalanced.totalMinted_le units.toNat) (hbalanced.allocated_add_lt hstock))
  obtain ⟨paid, hp⟩ := Checked.exists_amount hpaid
  exact ⟨_, Sale.attempt_recordMint.mpr
    ⟨Sale.le_available.mpr hstock, allocated, minted, paid, ha, hm, hp, rfl⟩⟩

/-- Units that are in stock are counted in any ledger. -/
theorem recordMint_of_ledger {draw : Shuffle} {reserved : CommitmentStatus → ℕ} {l : Ledger}
    {units : UInt64} (hbalanced : Balanced record draw reserved)
    (hstock : units.toNat ≤ record.terms.supplyLimit.toNat - record.allocated.toNat)
    (hminted : l.minted.toNat ≤ record.totalMinted.toNat) :
    ∃ l', (Ledger.recordMint units).attempt l = .ok ((), l') := by
  have hallocated := hbalanced.allocated_add_lt hstock
  have hcounted := hbalanced.totalMinted_le
  obtain ⟨held, hheld⟩ := Checked.exists_amount (n := l.minted.toNat + units.toNat) (by omega)
  exact ⟨_, Ledger.attempt_recordMint.mpr ⟨held, hheld, rfl⟩⟩

/-! ## One purchase -/

/-- The setting of a purchase: the sale, a payer who may buy for the recipient, the words that the
script yields for what is asked for, the accounts of the currency, money for the rent, and no more
coins and tokens than an amount can count. -/
structure Buying (st : State) (who : Buyer) (sale recipient payer : Address) (record : Sale)
    (request : MintRequest) (parties : TokenParties) (q : Script.Quote) : Prop where
  loaded : st.sales.find? sale = some record
  may : who.May record recipient payer
  quoted : record.wordQuote Sale.table
    (.ofSale record recipient (st.ledgers.find? (.ledger sale recipient)) st.now) recipient
      request.desiredUnits = .ok q
  supplied : parties.Supplied st sale payer record.terms.currency
  funded : st.rentFor st.ledgers (.ledger sale recipient) Ledger.space ≤ (st.balance payer).toNat
  coins_lt : st.coinTotal < UInt64.size
  tokens_lt : ∀ mint, st.tokenTotal mint < UInt64.size

/-- The books after a purchase: the sale has more units allocated and minted and more paid, the
ledger of the recipient has more units minted, and nothing else has changed. -/
structure Bought (st : State) (sale recipient : Address) (record : Sale) (units cost : ℕ)
    (st' : State) : Prop where
  sale_eq : ∃ allocated minted paid : UInt64,
    st'.sales = st.sales.set sale
      { record with allocated := allocated, totalMinted := minted, amountPaid := paid } ∧
    allocated.toNat = record.allocated.toNat + units ∧
    minted.toNat = record.totalMinted.toNat + units ∧
    paid.toNat = record.amountPaid.toNat + cost
  ledger_eq : ∃ minted : UInt64,
    st'.ledgers = st.ledgers.set (.ledger sale recipient)
      { (st.holding sale recipient).bind sale recipient bump with minted := minted } ∧
    minted.toNat = (st.holding sale recipient).minted.toNat + units
  shuffles_eq : st'.shuffles = st.shuffles
  commitments_eq : st'.commitments = st.commitments

/-- What a purchase writes in the books. -/
theorem Purchase.bought {ledger : Address} {receipt : Receipt}
    (p : Purchase st signer who sale ledger recipient request parties receipt) :
    Bought st sale recipient p.record p.units.toNat p.cost.toNat receipt.state := by
  have hbooks := p.books_eq
  have hheld := p.held_eq
  have hfound : p.found = st.holding sale recipient := (withLedger_effect p.mid_eq).2.2.1
  rw [Ledger.bind_minted] at hheld
  rw [hfound] at hbooks hheld
  exact {
    sale_eq := ⟨p.allocated, p.minted, p.paid, congrArg Books.sales hbooks, p.allocated_eq.symm,
      p.minted_eq.symm, p.paid_eq.symm⟩
    ledger_eq := ⟨p.held, congrArg Books.ledgers hbooks, hheld.symm⟩
    shuffles_eq := congrArg Books.shuffles hbooks
    commitments_eq := congrArg Books.commitments hbooks }

section Setting

variable {q : Script.Quote} {receipt : Receipt}

/-- A purchase is quoted by the words that the script yields. -/
theorem Buying.quoteFor_eq_ok (hb : Buying st who sale recipient payer record request parties q)
    (htallied : st.books.Tallied) {quote : SaleQuote} :
    record.quoteFor recipient (some ((st.holding sale recipient).bind sale recipient bump))
      request.desiredUnits st.now = .ok quote ↔ SaleQuote.ofWords q = .ok quote := by
  apply Sale.quoteFor_of_words
  rw [ofSale_bound htallied]
  exact hb.quoted

/-- Once the ledger is at hand, the cost is collected exactly if the purse covers it. -/
theorem Buying.collect_iff
    (hb : Buying st who sale recipient (.key key) record request parties q) (hvaulted : st.Vaulted)
    (hmid : st.withLedger (.key key) (.ledger sale recipient) = .ok (mid, found)) {cost : UInt64} :
    (∃ collected, mid.collect sale record.terms.currency (.key key) parties cost = .ok collected)
      ↔ cost.toNat ≤ st.purse (.key key) parties
          (st.rentFor st.ledgers (.ledger sale recipient) Ledger.space) record.terms.currency := by
  have hne : Address.key key ≠ .ledger sale recipient := by simp
  exact (rented_of_withLedger hmid).collect_iff hne hvaulted ⟨key, rfl⟩ hb.loaded hb.supplied
    hb.coins_lt hb.tokens_lt

theorem Purchase.within (hb : Buying st who sale recipient (.key key) record request parties q)
    (htallied : st.books.Tallied) (hvaulted : st.Vaulted)
    (p : Purchase st ⟨.key key, true⟩ who sale (.ledger sale recipient) recipient request parties
      receipt) :
    q.price.toNat ≤ request.maximumPrice.toNat ∧ request.minimumUnits.toNat ≤ p.units.toNat ∧
      0 < p.units.toNat ∧ p.cost.toNat ≤ st.purse (.key key) parties
          (st.rentFor st.ledgers (.ledger sale recipient) Ledger.space) record.terms.currency ∧
      p.units.toNat = record.unitsFor request.desiredUnits q.maxUnits.toNat
        (st.holding sale recipient).minted ∧
      p.cost.toNat = p.units.toNat * q.price.toNat ∧ p.record = record := by
  obtain rfl : p.record = record := Registry.eq_of_find? p.loaded hb.loaded
  obtain ⟨hprepared, -, hfound, -⟩ := withLedger_effect p.mid_eq
  have hquoted := p.quoted
  have hsettled := p.settled
  have hcost := p.cost_eq
  rw [hfound, hprepared.now] at hquoted
  rw [hfound, Ledger.bind_minted] at hsettled
  have hwords := (hb.quoteFor_eq_ok htallied).mp hquoted
  obtain ⟨hprice, hminimum, hpos, hunits⟩ := (MintRequest.settle_words hwords).mp hsettled
  rw [← (SaleQuote.ofWords_eq_ok.mp hwords).1] at hcost
  have hcovered := (hb.collect_iff hvaulted p.mid_eq).mp ⟨_, p.collected_eq⟩
  exact ⟨hprice, hunits ▸ hminimum, hunits ▸ hpos, hcovered, hunits, hcost.symm, rfl⟩

theorem Buying.goes_through
    (hb : Buying st who sale recipient (.key key) record request parties q)
    (hsound : st.books.Sound) (htallied : st.books.Tallied) (hvaulted : st.Vaulted) {units cost : ℕ}
    (hunits : units = record.unitsFor request.desiredUnits q.maxUnits.toNat
      (st.holding sale recipient).minted) (hcost : cost = units * q.price.toNat)
    (hprice : q.price.toNat ≤ request.maximumPrice.toNat)
    (hminimum : request.minimumUnits.toNat ≤ units) (hpos : 0 < units)
    (hfits : cost < UInt64.size)
    (hcovered : cost ≤ st.purse (.key key) parties
      (st.rentFor st.ledgers (.ledger sale recipient) Ledger.space) record.terms.currency)
    (hpaid : record.amountPaid.toNat + cost < UInt64.size) :
    ∃ receipt, st.purchase ⟨.key key, true⟩ who sale (.ledger sale recipient) recipient request
      parties = .ok receipt := by
  obtain ⟨draw, hdraw, hbalanced⟩ := hsound.balanced sale record hb.loaded
  -- all numbers are amounts, the units because they are at most those asked for
  have hstock : units ≤ record.terms.supplyLimit.toNat - record.allocated.toNat :=
    hunits ▸ Sale.unitsFor_le_stock _ _ _ _
  have hdesired : units ≤ request.desiredUnits.toNat := hunits ▸ Sale.unitsFor_le_desired _ _ _ _
  obtain ⟨n, rfl⟩ := Checked.exists_amount
    (Nat.lt_of_le_of_lt hdesired request.desiredUnits.toNat_lt_size)
  obtain ⟨total, rfl⟩ := Checked.exists_amount hfits
  obtain ⟨quote, hwords⟩ := SaleQuote.exists_ofWords
    (Nat.lt_of_le_of_lt hprice request.maximumPrice.toNat_lt_size)
  obtain ⟨mid, hmid⟩ := withLedger_of_funded hb.funded hb.coins_lt
  obtain ⟨collected, hcollected⟩ := (hb.collect_iff hvaulted hmid).mpr hcovered
  obtain ⟨record', hrecord⟩ := recordMint_of_stock hbalanced hstock hpaid
  obtain ⟨l', hl⟩ := recordMint_of_ledger
    (l := (st.holding sale recipient).bind sale recipient bump) hbalanced hstock
    (by rw [Ledger.bind_minted]; exact holding_minted_le htallied hb.loaded recipient)
  have hquote := (hb.quoteFor_eq_ok htallied).mpr hwords
  rw [← (withLedger_effect hmid).1.now] at hquote
  have hsettle : request.settle quote record.available (record.walletRemaining
      ((st.holding sale recipient).bind sale recipient bump).minted) = .ok n := by
    rw [Ledger.bind_minted, MintRequest.settle_words hwords, ← hunits]
    exact ⟨hprice, hminimum, hpos, rfl⟩
  exact purchase_of hb.loaded hb.supplied.load_eq hmid hb.supplied.checkVault_eq hb.may hquote
    hsettle (by rw [hcost, (SaleQuote.ofWords_eq_ok.mp hwords).1]) hcollected hrecord hl

end Setting

end State

/-- A purchase does exactly what it says, in every state that a run reaches. It goes through exactly
if the price is within the highest one asked for, the units are at least the minimum and more than
none, their cost is an amount that the payer has when it is collected, and the sale can count it.
Then the payer has paid the rent and the cost, the sale or its vault has got the cost, and the units
and the cost are counted in the sale and in the ledger of the recipient, and nowhere else. -/
theorem purchase_does_what_it_says {start st : State} {trace : List Entry} (hfresh : start.Fresh)
    (h : Run start trace st) {who : State.Buyer} {sale recipient : Address} {key : Bytes32}
    {record : Sale} {request : MintRequest} {parties : TokenParties} {q : Script.Quote}
    (hb : st.Buying who sale recipient (.key key) record request parties q) {rent units cost : ℕ}
    (hrent : rent = st.rentFor st.ledgers (.ledger sale recipient) Ledger.space)
    (hunits : units = record.unitsFor request.desiredUnits q.maxUnits.toNat
      (st.holding sale recipient).minted) (hcost : cost = units * q.price.toNat) :
    ((∃ receipt, st.execute (who.call key sale recipient request parties) = .ok receipt) ↔
      q.price.toNat ≤ request.maximumPrice.toNat ∧ request.minimumUnits.toNat ≤ units ∧ 0 < units ∧
        cost < UInt64.size ∧ cost ≤ st.purse (.key key) parties rent record.terms.currency ∧
        record.amountPaid.toNat + cost < UInt64.size) ∧
    ∀ receipt, st.execute (who.call key sale recipient request parties) = .ok receipt →
      st.Paid (.key key) (.ledger sale recipient) sale record.terms.currency parties rent cost
        receipt.state ∧
      st.Bought sale recipient record units cost receipt.state := by
  have hsound := sound_of_run hfresh h
  have htallied := tallied_of_run hfresh h
  have hvaulted := vaulted_of_run hfresh h
  subst hrent
  simp only [State.execute_call_eq_ok]
  refine ⟨⟨?_, ?_⟩, ?_⟩
  · intro hok
    obtain ⟨receipt, hreceipt⟩ := hok
    obtain ⟨p⟩ := State.purchase_ok hreceipt
    obtain ⟨hprice, hminimum, hpos, hcovered, hn, hc, hrecord⟩ :=
      p.within hb htallied hvaulted
    have hpaid := p.paid_eq
    obtain rfl : p.units.toNat = units := hn.trans hunits.symm
    obtain rfl : p.cost.toNat = cost := hc.trans hcost.symm
    rw [hrecord] at hpaid
    exact ⟨hprice, hminimum, hpos, p.cost.toNat_lt_size, hcovered, hpaid ▸ p.paid.toNat_lt_size⟩
  · intro hwithin
    obtain ⟨hprice, hminimum, hpos, hfits, hcovered, hpaid⟩ := hwithin
    exact hb.goes_through hsound htallied hvaulted hunits hcost hprice hminimum hpos hfits hcovered
      hpaid
  · intro receipt hreceipt
    obtain ⟨p⟩ := State.purchase_ok hreceipt
    obtain ⟨-, -, -, -, hn, hc, hrecord⟩ := p.within hb htallied hvaulted
    obtain rfl : p.units.toNat = units := hn.trans hunits.symm
    obtain rfl : p.cost.toNat = cost := hc.trans hcost.symm
    subst hrecord
    have hpaid := (State.rented_of_withLedger p.mid_eq).paid hvaulted ⟨key, rfl⟩ hb.loaded
      hb.supplied p.collected_eq
    have hstate := p.state_eq
    refine ⟨?_, p.bought⟩
    rw [hstate]
    exact hpaid.of_eq rfl rfl

/-- Three units at a hundred coins each, of the four that the script allows. -/
theorem purchase_does_what_it_says_capped :
    ∃ trace, Sample.start.Fresh ∧ Run Sample.start trace Sample.cappedOpened ∧
      Sample.cappedOpened.Buying .recipient Sample.capped (.key Sample.owner) (.key Sample.owner)
        Sample.cappedRecord ⟨3, 3, 1000⟩ .none ⟨4, 100⟩ ∧
      ∃ receipt, Sample.cappedOpened.execute Sample.buying = .ok receipt ∧
        Sample.cappedOpened.Bought Sample.capped (.key Sample.owner) Sample.cappedRecord 3 300
          receipt.state := by
  have hrun : Run Sample.start _ Sample.cappedOpened := Run.start.calls _
  have hpinned : Sale.table.fingerprint = Sample.cappedRecord.terms.fingerprint := rfl
  have hb : Sample.cappedOpened.Buying .recipient Sample.capped (.key Sample.owner)
      (.key Sample.owner) Sample.cappedRecord ⟨3, 3, 1000⟩ .none ⟨4, 100⟩ := {
    loaded := rfl
    may := rfl
    quoted := by
      rw [Sale.wordQuote_of_pinned hpinned]
      rfl
    supplied := .coins rfl rfl
    funded := by decide +kernel
    coins_lt := by decide +kernel
    tokens_lt := fun _ => Nat.two_pow_pos 64 }
  obtain ⟨hiff, heffect⟩ := purchase_does_what_it_says Sample.start_fresh hrun hb rfl
    (show 3 = _ from rfl) (show 300 = _ from rfl)
  obtain ⟨receipt, hok⟩ := hiff.mpr (by decide +kernel)
  exact ⟨_, Sample.start_fresh, hrun, hb, receipt, hok, (heffect receipt hok).2⟩

end UnitSale
