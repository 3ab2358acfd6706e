import UnitSale.Proofs.Funds
import UnitSale.Proofs.NamesTheorems
import UnitSale.Proofs.ValidationTheorems

/-!
# The terms of a sale

The opening of a sale writes its terms, and nothing writes them again. The script among them has
passed its checks against the very table that quotes are taken with later on, and quotes repeat none
of these checks. So a quote never fails on the text of the script, whatever the sale has gone
through since.
-/

namespace UnitSale

open Script

/-! ## Terms that were checked -/

/-- Terms that are set, pinned to the table of a sale, with a script that passes the checks against
it at the depth that they name. -/
structure Terms.Checked (terms : Terms) : Prop where
  initialized : terms.initialized = true
  pinned : Sale.table.fingerprint = terms.fingerprint
  valid : validate Sale.table terms.script Sale.contextLength = .ok terms.maxStackDepth

theorem State.Opening.checked {st : State} {signer : Signer} {sale shuffle : Address}
    {number : UInt64} {config : SaleConfig} {receipt : Receipt}
    (o : Opening st signer sale shuffle number config receipt) :
    (Sale.termsOf signer.address number config o.depth Sale.table.fingerprint bump).Checked where
  initialized := rfl
  pinned := rfl
  valid := o.valid

namespace Terms.Checked

variable {record : Sale} (h : record.terms.Checked)
include h

/-- Configuring a sale with such terms is refused before anything is written. -/
theorem run_configure (owner : Address) (number : UInt64) (config : SaleConfig) (depth : UInt16)
    (fingerprint : Bytes32) (bump : UInt8) :
    (Sale.configure owner number config depth fingerprint bump).run record
      = .error .alreadyInitialized record := by
  have hset : ¬ record.terms.initialized = false := by
    rw [h.initialized]
    decide
  show EStateM.bind (require (record.terms.initialized = false) SaleError.alreadyInitialized) _
    record = _
  rw [EStateM.bind, require, if_neg hset]
  rfl

theorem wordQuote_cases (view : Snapshot) (account : Address) (units : UInt64) :
    (∃ q, record.wordQuote Sale.table view account units = .ok q) ∨
      ∃ cause, record.wordQuote Sale.table view account units = .error cause ∧ cause.OfData := by
  obtain ⟨-, hpasses, source, hsource, -⟩ := validate_ok h.valid
  obtain ⟨first, rest, hsources⟩ := List.exists_cons_of_ne_nil (List.ne_nil_of_mem hsource)
  have hfirst : record.terms.script.sources[Sale.quoteSource]? = some first := by
    rw [hsources]
    rfl
  rw [Sale.wordQuote_of_pinned h.pinned, evaluate_of_getElem? hfirst]
  exact (hpasses first (List.mem_of_getElem? hfirst)).quote Sale.table_faithful
    ⟨record.terms.script.constants, Sale.context account units, view⟩

/-- A quote comes out, or it fails on the data of the script or for a price that does not fit. -/
theorem quoteFor_cases (account : Address) (ledger : Option Ledger) (units : UInt64)
    (now : Int64) :
    (∃ quote, record.quoteFor account ledger units now = .ok quote) ∨
      ∃ cause ∈ [Fault.script .arithmeticOverflow, .script .divisionByZero, .script .unknownAccount,
        .sale .priceOverflow], record.quoteFor account ledger units now = .error cause := by
  rcases h.wordQuote_cases (.ofSale record account ledger now) account units with
    ⟨q, hq⟩ | ⟨cause, hcause, hdata⟩
  · have hquoteFor : record.quoteFor account ledger units now
        = (SaleQuote.ofWords q).mapError Fault.sale := by
      rw [Sale.quoteFor, hq]
      rfl
    rw [hquoteFor]
    rcases SaleQuote.ofWords_cases q with ⟨quote, hquote⟩ | hprice
    · rw [hquote]
      exact .inl ⟨quote, rfl⟩
    · rw [hprice]
      exact .inr ⟨.sale .priceOverflow, by simp, rfl⟩
  · refine .inr ⟨.script cause, ?_, by rw [Sale.quoteFor, hcause]; rfl⟩
    rcases hdata with rfl | rfl | rfl <;> simp

end Terms.Checked

/-! ## Runs -/

/-- A sale stays where it is, with the terms it has, whatever comes after. -/
theorem terms_of_run {start mid st : State} {trace later : List Entry} {sale : Address}
    {record : Sale} (hfresh : start.Fresh) (hbefore : Run start trace mid)
    (hrecord : mid.books.sales.find? sale = some record) (hlater : Run mid later st) :
    ∃ record', st.books.sales.find? sale = some record' ∧ record'.terms = record.terms := by
  refine Run.invariant (P := fun _ st => ∃ record', st.books.sales.find? sale = some record' ∧
    record'.terms = record.terms) ⟨record, hrecord, rfl⟩ ?_ ?_ hlater
  · intro trace' e hrun hkept
    obtain ⟨record', hrecord', hterms⟩ := hkept
    have hsound := sound_of_run hfresh (hbefore.trans hrun)
    obtain ⟨record'', hrecord'', hsame⟩ := e.accepted_case.terms_kept hsound hrecord'
    exact ⟨record'', hrecord'', hsame.trans hterms⟩
  · intro trace' st st' hout hkept
    rw [hout.books_eq]
    exact hkept

/-- A sale that is there is not opened again: neither by naming its address nor by the owner and the
number that its address is derived from. -/
theorem State.execute_openSale_of_find? {st : State} {call : Call} {sale shuffle : Address}
    {owner sale' : Address} {number number' : UInt64} {config : SaleConfig} {record : Sale}
    (hrecord : st.books.sales.find? sale = some record) (hsale : sale = .sale owner number)
    (hcall : call.instruction = .openSale sale' shuffle number' config)
    (hsame : sale' = sale ∨ .key call.key = owner ∧ number' = number) :
    ∃ refusal, st.execute call = .error refusal := by
  cases hok : st.execute call with
  | error refusal => exact ⟨refusal, rfl⟩
  | ok receipt =>
    have haccepted := State.accepted_of_run hok
    rw [hcall] at haccepted
    cases haccepted with | openSale o => ?_
    have haddress : sale' = sale := by
      rcases hsame with heq | ⟨howner, rfl⟩
      · exact heq
      · rw [hsale, ← howner]
        exact o.sale_eq
    rw [haddress] at o
    cases o.sale_new.symm.trans hrecord

/-- After every run from the opening of a sale its terms are those that the opening has set, and no
call opens it again. Its script has passed the checks against the table that its opcodes make, and
the sale is pinned to that table; so a quote for any account, with any ledger or none, for any units
and at any time comes out or fails by an overflow, a zero divisor, an account without counters or a
price that does not fit. -/
theorem terms_fixed {start mid st : State} {trace later : List Entry} {call : Call}
    {receipt : Receipt} {sale shuffle : Address} {number : UInt64} {config : SaleConfig}
    (hfresh : start.Fresh) (hbefore : Run start trace mid) (hopen : mid.execute call = .ok receipt)
    (hcall : call.instruction = .openSale sale shuffle number config)
    (hlater : Run receipt.state later st) :
    ∃ depth record, validate Sale.table config.script Sale.contextLength = .ok depth ∧
      Table.build standardOpcodes Sale.opcodes = .ok Sale.table ∧
      st.sales.find? sale = some record ∧
      record.terms = Sale.termsOf (.key call.key) number config depth Sale.table.fingerprint
        State.bump ∧
      (∀ (again : Call) (sale' shuffle' : Address) (number' : UInt64) (config' : SaleConfig),
        again.instruction = .openSale sale' shuffle' number' config' →
        sale' = sale ∨ again.key = call.key ∧ number' = number →
          ∃ refusal, st.execute again = .error refusal) ∧
      (∀ owner number' config' depth' fingerprint bump,
        (Sale.configure owner number' config' depth' fingerprint bump).run record
          = .error .alreadyInitialized record) ∧
      ∀ account ledger units now,
        (∃ quote, record.quoteFor account ledger units now = .ok quote) ∨
          ∃ cause ∈ [Fault.script .arithmeticOverflow, .script .divisionByZero,
            .script .unknownAccount, .sale .priceOverflow],
              record.quoteFor account ledger units now = .error cause := by
  have hopened := hbefore.accepted ⟨mid, call, receipt, hopen⟩
  have haccepted := State.accepted_of_run hopen
  rw [hcall] at haccepted
  cases haccepted with | openSale o => ?_
  have hfirst : receipt.state.books.sales.find? sale
      = some (State.openedSale call.signer.address number config o.depth) := by
    rw [o.books_eq]
    exact Registry.find?_set_self _ _ _
  obtain ⟨record, hrecord, hterms⟩ := terms_of_run hfresh hopened hfirst hlater
  have hchecked : record.terms.Checked := hterms ▸ o.checked
  refine ⟨o.depth, record, o.valid, Sale.table_built, hrecord, hterms, ?_, hchecked.run_configure,
    hchecked.quoteFor_cases⟩
  intro again sale' shuffle' number' config' hagain hsame
  refine State.execute_openSale_of_find? hrecord o.sale_eq hagain ?_
  rcases hsame with heq | ⟨hkey, hnumber⟩
  · exact .inl heq
  · exact .inr ⟨congrArg Address.key hkey, hnumber⟩

/-- Once the ids of the other sale are drawn, its terms are still those of its opening, the owner
cannot open it again, and a quote for the owner comes out or fails on its data. -/
theorem terms_fixed_drawn :
    ∃ receipt later, Sample.start.execute Sample.cappedOpening = .ok receipt ∧
      Run receipt.state later (Sample.drawn 10) ∧
      (Sample.drawn 10).sales.find? Sample.capped = some Sample.reservedRecord ∧
      (∃ depth, validate Sale.table Sample.cappedConfig.script Sale.contextLength = .ok depth ∧
        Sample.reservedRecord.terms = Sale.termsOf (.key Sample.owner) 8 Sample.cappedConfig depth
          Sale.table.fingerprint State.bump) ∧
      (∃ refusal, (Sample.drawn 10).execute Sample.cappedOpening = .error refusal) ∧
      let ledger : Ledger := ⟨Sample.capped, .key Sample.owner, 3, 0, 255⟩
      ((∃ quote, Sample.reservedRecord.quoteFor (.key Sample.owner) (some ledger) 1 10 = .ok quote) ∨
        ∃ cause ∈ [Fault.script .arithmeticOverflow, .script .divisionByZero,
          .script .unknownAccount, .sale .priceOverflow],
            Sample.reservedRecord.quoteFor (.key Sample.owner) (some ledger) 1 10
              = .error cause) := by
  obtain ⟨receipt, later, hopen, -, hlater⟩ :=
    Sample.run_cappedOpened (show (10 : Int64) ≤ 60 by decide)
  obtain ⟨depth, record, hvalid, -, hrecord, hterms, hagain, -, hquote⟩ :=
    terms_fixed Sample.start_fresh Run.start hopen rfl hlater
  obtain rfl : Sample.reservedRecord = record := Option.some.inj hrecord
  exact ⟨receipt, later, hopen, hlater, hrecord, ⟨depth, hvalid, hterms⟩,
    hagain _ _ _ _ _ rfl (.inl rfl), hquote _ _ _ _⟩

end UnitSale
