import UnitSale.Proofs.LedgerTheorems

/-!
# What a reservation is priced with

A purchase always has the ledger of its recipient at hand. A reservation is quoted with the ledger
that the caller brings along, and nothing asks for one that exists. So the quote is the one for the
buyer's counters only if the ledger is brought, if there is none, or if the script does not mind.
-/

namespace UnitSale
namespace State

variable {st : State} {signer : Signer} {receipt : Receipt}
  {sale shuffle commitment : Address} {brought : Option Address} {hash : Bytes32}
  {units maximumPrice : UInt64} {parties : TokenParties}

theorem eq_bind_of_brought {derived : Address} {held : Option Ledger}
    (hheld : brought.mapM (load st.ledgers) = .ok held)
    (hderived : ∀ l, brought = some l → l = derived) :
    held = brought.bind fun _ => st.ledgers.find? derived := by
  cases brought with
  | none =>
    rw [Option.mapM_none] at hheld
    exact (Except.ok.inj hheld).symm
  | some l =>
    obtain rfl := hderived l rfl
    rw [Option.mapM_some, map_eq_ok] at hheld
    obtain ⟨stored, hstored, rfl⟩ := hheld
    exact (load_eq_ok.mp hstored).symm

/-- A reservation is quoted with the stored ledger of its buyer, if the ledger was brought along,
and as for a buyer without one otherwise. -/
theorem Reservation.quoted_eq
    (r : Reservation st signer sale shuffle commitment brought hash units maximumPrice parties
      receipt) :
    r.record.quoteFor signer.address
      (brought.bind fun _ => st.ledgers.find? (.ledger sale signer.address)) units st.now
        = .ok r.quote := by
  obtain ⟨hprepared, -⟩ := withCommitment_effect r.mid_eq
  rw [← hprepared.now, ← eq_bind_of_brought r.held_eq r.ledger_ok]
  exact r.quoted

end State

/-- A quote that may have been made without the stored ledger is the one for that ledger exactly if
it was brought along, if there is none, or if the script quotes the same without it. -/
theorem Sale.quoteFor_stored_iff {record : Sale} {buyer : Address} {brought : Option Address}
    {stored : Option Ledger} {units : UInt64} {now : Int64} {quote : SaleQuote}
    (h : record.quoteFor buyer (brought.bind fun _ => stored) units now = .ok quote) :
    record.quoteFor buyer stored units now = .ok quote ↔
      brought ≠ none ∨ stored = none ∨
        record.quoteFor buyer none units now = record.quoteFor buyer stored units now := by
  cases brought with
  | none =>
    rw [Option.bind_none] at h
    constructor
    · intro hstored
      exact .inr (.inr (h.trans hstored.symm))
    · intro hsame
      rcases hsame with hne | rfl | hsame
      · exact absurd rfl hne
      · exact h
      · exact hsame.symm.trans h
  | some l =>
    rw [Option.bind_some] at h
    exact ⟨fun _ => .inl (Option.some_ne_none l), fun _ => h⟩

/-- Every reservation that is made in a state that a run reaches has a quote that was within what
the buyer asked for and was paid for all its units. The quote was made with the buyer's stored
ledger, if that was brought along, and as for a buyer without one otherwise; so it is the one for
the buyer's counters exactly if the ledger was brought along, if there is none, or if the script
quotes the same without it. -/
theorem reservation_priced {start st : State} {trace : List Entry} (hfresh : start.Fresh)
    (h : Run start trace st) {call : Call} {receipt : Receipt} {sale shuffle commitment : Address}
    {brought : Option Address} {hash : Bytes32} {units maximumPrice : UInt64}
    {parties : TokenParties} {stored : Option Ledger}
    (hcall : call.instruction
      = .commit sale shuffle commitment brought hash units maximumPrice parties)
    (hok : st.execute call = .ok receipt)
    (hstored : stored = st.ledgers.find? (.ledger sale (.key call.key))) :
    (∀ l, stored = some l → l.sale = sale ∧ l.holder = .key call.key) ∧
    ∃ record record' quote cost, st.sales.find? sale = some record ∧
      receipt.state.sales.find? sale = some record' ∧
      receipt.events = [.reservationCommitted sale (.key call.key) units cost] ∧
      quote.price ≤ maximumPrice ∧ units ≤ quote.maxUnits ∧
      cost.toNat = units.toNat * quote.price.toNat ∧
      record'.amountPaid.toNat = record.amountPaid.toNat + cost.toNat ∧
      record.quoteFor (.key call.key) (brought.bind fun _ => stored) units st.now = .ok quote ∧
      (record.quoteFor (.key call.key) stored units st.now = .ok quote ↔
        brought ≠ none ∨ stored = none ∨ record.quoteFor (.key call.key) none units st.now
          = record.quoteFor (.key call.key) stored units st.now) := by
  have htallied := tallied_of_run hfresh h
  have haccepted := State.accepted_of_run hok
  rw [hcall] at haccepted
  cases haccepted with | commit r => ?_
  obtain ⟨hprice, hcap, hcost⟩ := SaleQuote.reservationCost_eq_ok.mp r.cost_eq
  have hquoted := r.quoted_eq
  have hbuyer : call.signer.address = .key call.key := rfl
  rw [hbuyer, ← hstored] at hquoted
  refine ⟨?_, r.record, { r.record with allocated := r.allocated, amountPaid := r.paid }, r.quote,
    r.cost, r.loaded, ?_, r.events_eq, hprice, hcap, hcost.symm, r.paid_eq.symm, hquoted,
    Sale.quoteFor_stored_iff hquoted⟩
  · intro l hl
    have hkey := htallied.of_ledger (hstored.symm.trans hl)
    exact ⟨hkey.1.symm, hkey.2.symm⟩
  · show receipt.state.books.sales.find? sale = _
    rw [r.books_eq]
    exact Registry.find?_set_self _ _ _

/-- A reservation of the one unit left to the owner, with the owner's ledger. -/
theorem reservation_priced_brought :
    ∃ receipt, Sample.sold.execute (Sample.reserving (some Sample.holding) 1) = .ok receipt ∧
      ∃ record quote, Sample.sold.sales.find? Sample.capped = some record ∧
        record.quoteFor (.key Sample.owner) (Sample.sold.ledgers.find? Sample.holding) 1
          Sample.sold.now = .ok quote := by
  obtain ⟨trace, hrun⟩ := Sample.run_sold
  obtain ⟨receipt, hok⟩ := Sample.reserving_ok.1
  obtain ⟨-, record, -, quote, -, hrecord, -, -, -, -, -, -, -, hiff⟩ :=
    reservation_priced Sample.start_fresh hrun rfl hok rfl
  exact ⟨receipt, hok, record, quote, hrecord, hiff.mpr (.inl (Option.some_ne_none _))⟩

/-- Without the ledger the owner reserves four units at a hundred coins each, where the ledger that
is stored allows for one, at two hundred and fifty. -/
theorem reservation_underpriced :
    Sample.start.Fresh ∧ (∃ trace, Run Sample.start trace Sample.sold) ∧
      ∃ receipt record l, Sample.sold.execute (Sample.reserving none 4) = .ok receipt ∧
        receipt.events = [.reservationCommitted Sample.capped (.key Sample.owner) 4 400] ∧
        Sample.sold.sales.find? Sample.capped = some record ∧
        Sample.sold.ledgers.find? (.ledger Sample.capped (.key Sample.owner)) = some l ∧
        record.quoteFor (.key Sample.owner) (some l) 4 Sample.sold.now = .ok ⟨1, 250⟩ := by
  have hpinned : Sale.table.fingerprint = Sample.soldRecord.terms.fingerprint := rfl
  refine ⟨Sample.start_fresh, Sample.run_sold, _, Sample.soldRecord, _, Sample.reserving_ok.2, rfl,
    rfl, rfl, ?_⟩
  rw [Sale.quoteFor, Sale.wordQuote_of_pinned hpinned]
  rfl

end UnitSale
