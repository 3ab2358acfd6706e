import UnitSale.Proofs.PurchaseTheorems

/-!
# Quotes that a purchase keeps to

Asking for a quote and buying evaluate the same script with different ledgers at hand: the first
with the stored one or none, the second with one that is found or created, and bound. In a state
that a run reaches both come to the same counters, so the quote that was asked for is the one that a
purchase is made at, and a script that refuses the one refuses the other for the same reason.
-/

namespace UnitSale
namespace State

variable {st mid : State} {signer : Signer} {sale ledger account recipient payer : Address}
  {key : Bytes32} {record : Sale} {holding : Ledger} {units : UInt64} {request : MintRequest}
  {parties : TokenParties} {who : Buyer} {receipt : Receipt}

/-! ## Asking -/

/-- The ledger of an account, brought along exactly if there is one. -/
def ownLedger? (st : State) (sale account : Address) : Option Address :=
  if st.ledgers.contains (.ledger sale account) then some (.ledger sale account) else none

/-- A quote for an account that brings its own ledger is the one for what is stored of it. -/
theorem calculate_own (hrecord : st.sales.find? sale = some record) :
    st.calculate sale (st.ownLedger? sale account) account units
      = (fun quote => ⟨st, .quote quote, [], []⟩) <$>
          record.quoteFor account (st.ledgers.find? (.ledger sale account)) units st.now := by
  have hloaded := load_eq_ok.mpr hrecord
  cases hfound : st.ledgers.find? (.ledger sale account) with
  | none =>
    have hown : st.ownLedger? sale account = none := by
      rw [ownLedger?, Registry.contains, hfound]
      rfl
    simp only [calculate, hown, hloaded, ok_bind, Option.mapM_none, pure_bind]
    exact bind_pure_comp _ _
  | some l =>
    have hown : st.ownLedger? sale account = some (.ledger sale account) := by
      rw [ownLedger?, Registry.contains, hfound]
      rfl
    have hheld : (some (Address.ledger sale account)).mapM (load st.ledgers) = .ok (some l) := by
      rw [Option.mapM_some, load_eq_ok.mpr hfound]
      rfl
    have hseeds : checkSeeds (.ledger sale account) (.ledger sale account) = .ok () :=
      checkSeeds_eq_ok.mpr rfl
    simp only [calculate, hown, hloaded, hheld, hseeds, ok_bind]
    exact bind_pure_comp _ _

/-- The quote for a ledger that was found or created, and bound, is the one for what is stored. -/
theorem quoteFor_bound (htallied : st.books.Tallied)
    (hmid : st.withLedger payer (.ledger sale account) = .ok (mid, holding)) :
    record.quoteFor account (some (holding.bind sale account bump)) units mid.now
      = record.quoteFor account (st.ledgers.find? (.ledger sale account)) units st.now := by
  obtain ⟨hprepared, -, hfound, -⟩ := withLedger_effect hmid
  have hholding : holding = st.holding sale account := hfound
  rw [Sale.quoteFor, Sale.quoteFor, hprepared.now, hholding, ofSale_bound htallied]

/-! ## Buying -/

/-- A purchase gets as far as its quote: the payer may buy, the accounts that are brought along are
in order, and the ledger is at hand. -/
structure ReachesQuote (st : State) (who : Buyer) (sale recipient payer : Address) (record : Sale)
    (parties : TokenParties) : Prop where
  may : who.May record recipient payer
  brought : parties.load st = .ok ()
  vault_ok : parties.checkVault sale = .ok ()
  at_hand : ∃ mid holding, st.withLedger payer (.ledger sale recipient) = .ok (mid, holding)

/-- A purchase that gets as far as its quote goes on with what the script yields for the stored
ledger, be it a quote or a refusal. -/
theorem ReachesQuote.purchase_eq (h : st.ReachesQuote who sale recipient payer record parties)
    (htallied : st.books.Tallied) (hrecord : st.sales.find? sale = some record)
    (request : MintRequest) :
    ∃ settled, st.purchase ⟨payer, true⟩ who sale (.ledger sale recipient) recipient request parties
      = record.quoteFor recipient (st.ledgers.find? (.ledger sale recipient)) request.desiredUnits
          st.now >>= settled := by
  obtain ⟨mid, holding, hmid⟩ := h.at_hand
  have hsigned : Signer.verified ⟨payer, true⟩ = .ok payer := rfl
  have hseeds : checkSeeds (.ledger sale recipient) (.ledger sale recipient) = .ok () :=
    checkSeeds_eq_ok.mpr rfl
  have hmay : who.check record recipient payer = .ok () := Buyer.check_eq_ok.mpr h.may
  simp only [purchase, load_eq_ok.mpr hrecord, hsigned, h.brought, hseeds, hmid, h.vault_ok, hmay,
    quoteFor_bound htallied hmid, ok_bind]
  exact ⟨_, rfl⟩

theorem Purchase.supplied (p : Purchase st signer who sale ledger recipient request parties receipt)
    (hcost : p.cost ≠ 0) :
    parties.Supplied st sale signer.address p.record.terms.currency := by
  obtain ⟨hprepared, -⟩ := withLedger_effect p.mid_eq
  have hbrought := p.brought
  have hvault := p.vault_ok
  obtain ⟨-, hmoved⟩ := (collect_eq_ok.mp p.collected_eq).resolve_left fun hfree => hcost hfree.1
  cases hcurrency : p.record.terms.currency with
  | native => exact .coins hbrought hvault
  | token mint =>
    rw [hcurrency] at hmoved
    obtain ⟨target, vault, paying, rfl, hpaying, hmint, -, htransfer⟩ := hmoved
    obtain ⟨source, t, hsource, ht, -, -, howner, -⟩ := transferTokens_eq_ok.mp htransfer
    obtain rfl : source = paying := Registry.eq_of_find? hsource hpaying
    obtain rfl : vault = .vault sale := checkSeeds_eq_ok.mp hvault
    rw [hprepared.tokens] at hpaying ht
    have hstored : st.tokens.contains (.vault sale) := Option.isSome_iff_exists.mpr ⟨t, ht⟩
    have hknown : mint ∈ st.mints := by
      simp only [TokenParties.load, bind_eq_ok, require_eq_ok, Option.all_some] at hbrought
      obtain ⟨-, -, -, -, hmem⟩ := hbrought
      exact of_decide_eq_true hmem
    exact .tokens hpaying hmint howner.symm hstored hknown

theorem Purchase.pays_rent_and_cost
    (p : Purchase st signer who sale ledger recipient request parties receipt)
    (hvaulted : st.Vaulted) (hkey : signer.address.IsKey) :
    st.Paid signer.address (.ledger sale recipient) sale p.record.terms.currency parties
      (st.rentFor st.ledgers (.ledger sale recipient) Ledger.space) p.cost.toNat receipt.state := by
  have hrented := rented_of_withLedger p.mid_eq
  have hcollected := p.collected_eq
  have hstate := p.state_eq
  have hpaid : st.Paid signer.address (.ledger sale recipient) sale p.record.terms.currency parties
      (st.rentFor st.ledgers (.ledger sale recipient) Ledger.space) p.cost.toNat p.collected := by
    by_cases hcost : p.cost = 0
    · obtain ⟨-, heq⟩ := (collect_eq_ok.mp hcollected).resolve_right fun hpaid => hpaid.1 hcost
      rw [hcost, heq]
      exact hrented.paid_nothing
    · exact hrented.paid hvaulted hkey p.loaded (p.supplied hcost) hcollected
  rw [hstate]
  exact hpaid.of_eq rfl rfl

/-- What a purchase at a quote does: it sells no more units than the quote allows, at exactly its
price for each, and this is what is paid, counted and reported. -/
structure BoughtAt (st : State) (sale recipient payer : Address) (record : Sale)
    (parties : TokenParties) (quote : SaleQuote) (units cost : UInt64) (receipt : Receipt) :
    Prop where
  units_le : units ≤ quote.maxUnits
  cost_eq : cost.toNat = units.toNat * quote.price.toNat
  events_eq : receipt.events = [.unitsMinted sale recipient payer units quote.price cost]
  paid : st.Paid payer (.ledger sale recipient) sale record.terms.currency parties
    (st.rentFor st.ledgers (.ledger sale recipient) Ledger.space) cost.toNat receipt.state
  bought : st.Bought sale recipient record units.toNat cost.toNat receipt.state

theorem Purchase.units_le
    (p : Purchase st signer who sale ledger recipient request parties receipt) :
    p.units ≤ p.quote.maxUnits := by
  obtain ⟨-, -, -, hunits⟩ := MintRequest.settle_eq_ok.mp p.settled
  rw [UInt64.le_iff_toNat_le, hunits, Checked.toNat_least, Checked.toNat_least, Checked.toNat_least]
  omega

/-- A purchase is made at the quote for the stored ledger. -/
theorem Purchase.boughtAt {quote : SaleQuote}
    (p : Purchase st ⟨.key key, true⟩ who sale ledger recipient request parties receipt)
    (htallied : st.books.Tallied) (hvaulted : st.Vaulted)
    (hrecord : st.sales.find? sale = some record)
    (hquote : record.quoteFor recipient (st.ledgers.find? (.ledger sale recipient))
      request.desiredUnits st.now = .ok quote) :
    BoughtAt st sale recipient (.key key) record parties quote p.units p.cost receipt := by
  obtain rfl : p.record = record := Registry.eq_of_find? p.loaded hrecord
  have hquoted := p.quoted
  rw [quoteFor_bound htallied p.mid_eq, hquote] at hquoted
  obtain rfl : quote = p.quote := Except.ok.inj hquoted
  exact {
    units_le := p.units_le
    cost_eq := p.cost_eq.symm
    events_eq := p.events_eq
    paid := p.pays_rent_and_cost hvaulted ⟨key, rfl⟩
    bought := p.bought }

end State

/-- In every state that a run reaches, asking for a quote and buying agree. The quote for an account
that brings its ledger exactly if it has one is, as a value or as a refusal, what a purchase for the
account evaluates with the ledger that it finds, or that it creates and binds. So a purchase that
gets as far as its quote is refused as the question was; and one that goes through right after the
question was answered sells no more units than the answer says, at exactly that price. -/
theorem quote_is_kept {start st : State} {trace : List Entry} (hfresh : start.Fresh)
    (h : Run start trace st) {sale : Address} {record : Sale}
    (hrecord : st.sales.find? sale = some record) (account : Address) (units : UInt64)
    (asking : Call) (hasking : asking.instruction
      = .calculate sale (st.ownLedger? sale account) account units) :
    (∀ payer mid holding, st.withLedger payer (.ledger sale account) = .ok (mid, holding) →
      st.calculate sale (st.ownLedger? sale account) account units
        = (fun quote => ⟨st, .quote quote, [], []⟩) <$>
            record.quoteFor account (some (holding.bind sale account State.bump)) units mid.now) ∧
    (∀ refusal, st.execute asking = .error refusal →
      ∀ (who : State.Buyer) key (request : MintRequest) parties, request.desiredUnits = units →
        st.ReachesQuote who sale account (.key key) record parties →
          st.execute (who.call key sale account request parties) = .error refusal) ∧
    ∀ answer, st.execute asking = .ok answer → answer.state = st ∧
      ∃ quote, answer.reply = .quote quote ∧
        ∀ (who : State.Buyer) key (request : MintRequest) parties receipt,
          request.desiredUnits = units →
          answer.state.execute (who.call key sale account request parties) = .ok receipt →
            ∃ n cost, State.BoughtAt st sale account (.key key) record parties quote n cost
              receipt := by
  have htallied := tallied_of_run hfresh h
  have hvaulted := vaulted_of_run hfresh h
  have hasked : st.execute asking
      = State.run.silent (st.calculate sale (st.ownLedger? sale account) account units) := by
    rw [State.execute, hasking]
    rfl
  rw [hasked, State.calculate_own hrecord]
  refine ⟨?_, ?_, ?_⟩
  · intro payer mid holding hmid
    rw [State.quoteFor_bound htallied hmid]
  · intro refusal hrefused who key request parties hunits hreaches
    obtain ⟨settled, hpurchase⟩ := hreaches.purchase_eq htallied hrecord request
    have hcall : st.execute (who.call key sale account request parties) = State.run.silent
        (st.purchase ⟨.key key, true⟩ who sale (.ledger sale account) account request parties) := by
      cases who <;> rfl
    rw [hcall, hpurchase, hunits]
    generalize record.quoteFor account (st.ledgers.find? (.ledger sale account)) units st.now
      = quoted at hrefused
    cases quoted with
    | ok quote => cases hrefused
    | error fault => exact hrefused
  · intro answer hanswer
    obtain ⟨quote, hquote, rfl⟩ : ∃ quote, record.quoteFor account
        (st.ledgers.find? (.ledger sale account)) units st.now = .ok quote ∧
          (⟨st, .quote quote, [], []⟩ : Receipt) = answer :=
      map_eq_ok.mp (State.silent_eq_ok.mp hanswer)
    refine ⟨rfl, quote, rfl, ?_⟩
    intro who key request parties receipt hunits hreceipt
    obtain ⟨p⟩ := State.purchase_ok (State.execute_call_eq_ok.mp hreceipt)
    subst hunits
    exact ⟨p.units, p.cost, p.boughtAt htallied hvaulted hrecord hquote⟩

/-- The owner, who has no ledger yet, is quoted up to four units at a hundred coins each, and then
buys at that. -/
theorem quote_is_kept_capped :
    ∃ trace, Sample.start.Fresh ∧ Run Sample.start trace Sample.cappedOpened ∧
      Sample.cappedOpened.ownLedger? Sample.capped (.key Sample.owner) = none ∧
      Sample.cappedOpened.execute ⟨Sample.owner, false,
        .calculate Sample.capped none (.key Sample.owner) 3⟩
          = .ok ⟨Sample.cappedOpened, .quote ⟨4, 100⟩, [], []⟩ ∧
      ∃ receipt n cost, Sample.cappedOpened.execute Sample.buying = .ok receipt ∧
        State.BoughtAt Sample.cappedOpened Sample.capped (.key Sample.owner) (.key Sample.owner)
          Sample.cappedRecord .none ⟨4, 100⟩ n cost receipt := by
  have hrun : Run Sample.start _ Sample.cappedOpened := Run.start.calls _
  have hrecord : Sample.cappedOpened.sales.find? Sample.capped = some Sample.cappedRecord := rfl
  have hnone : Sample.cappedOpened.ownLedger? Sample.capped (.key Sample.owner) = none := rfl
  have hpinned : Sale.table.fingerprint = Sample.cappedRecord.terms.fingerprint := rfl
  have hquote : Sample.cappedRecord.quoteFor (.key Sample.owner) none 3 Sample.cappedOpened.now
      = .ok ⟨4, 100⟩ := by
    rw [Sale.quoteFor, Sale.wordQuote_of_pinned hpinned]
    rfl
  have hown : Sample.cappedOpened.calculate Sample.capped none (.key Sample.owner) 3 = _ :=
    State.calculate_own hrecord
  have hanswer : Sample.cappedOpened.execute ⟨Sample.owner, false,
      .calculate Sample.capped none (.key Sample.owner) 3⟩
        = .ok ⟨Sample.cappedOpened, .quote ⟨4, 100⟩, [], []⟩ := by
    have hasked : Sample.cappedOpened.execute ⟨Sample.owner, false,
        .calculate Sample.capped none (.key Sample.owner) 3⟩ = State.run.silent
          (Sample.cappedOpened.calculate Sample.capped none (.key Sample.owner) 3) := rfl
    rw [hasked, hown, State.silent_eq_ok, map_eq_ok]
    exact ⟨⟨4, 100⟩, hquote, rfl⟩
  obtain ⟨-, -, hkept⟩ := quote_is_kept Sample.start_fresh hrun hrecord (.key Sample.owner) 3
    ⟨Sample.owner, false, .calculate Sample.capped none (.key Sample.owner) 3⟩ rfl
  obtain ⟨-, quote, hreply, hbought⟩ := hkept _ hanswer
  obtain rfl : ⟨4, 100⟩ = quote := Reply.quote.inj hreply
  obtain ⟨n, cost, hboughtAt⟩ := hbought .recipient Sample.owner ⟨3, 3, 1000⟩ .none _ rfl
    Sample.buying_ok
  exact ⟨_, Sample.start_fresh, hrun, hnone, hanswer, _, n, cost, Sample.buying_ok, hboughtAt⟩

end UnitSale
