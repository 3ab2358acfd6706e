import UnitSale.Sale.Quote
import UnitSale.Proofs.UpdateTheorems

/-!
# What the counters of sales and ledgers do

For each update of a sale or of a ledger, exactly when it goes through and what it leaves. Counters
are compared as natural numbers, so that no wrap-around can hide behind an equation.
-/

namespace UnitSale

open Update

namespace Sale

variable {s : Sale} {units cost amount : UInt64} {r : Unit × Sale}

/-! ## Readings -/

theorem toNat_available (s : Sale) :
    s.available.toNat = s.terms.supplyLimit.toNat - s.allocated.toNat :=
  Checked.toNat_monus _ _

theorem le_available {s : Sale} {units : UInt64} :
    units ≤ s.available ↔ units.toNat ≤ s.terms.supplyLimit.toNat - s.allocated.toNat := by
  rw [UInt64.le_iff_toNat_le, toNat_available]

/-- Units that are in stock keep inside the limit when they are taken out. -/
theorem taken_le (s : Sale) {n allocated : UInt64}
    (hle : s.allocated.toNat ≤ s.terms.supplyLimit.toNat) (hstock : n ≤ s.available)
    (htaken : s.allocated.toNat + n.toNat = allocated.toNat) :
    allocated.toNat ≤ s.terms.supplyLimit.toNat := by
  rw [le_available] at hstock
  omega

theorem toNat_amountPayable (s : Sale) :
    s.amountPayable.toNat = s.amountPaid.toNat - s.amountWithdrawn.toNat :=
  Checked.toNat_monus _ _

theorem toNat_totalSupply (s : Sale) :
    s.totalSupply.toNat = s.totalMinted.toNat - s.totalBurned.toNat :=
  Checked.toNat_monus _ _

/-! ## Updates -/

/-- Units are taken out of stock exactly when that many are in it. -/
theorem attempt_allocate : (allocate units).attempt s = .ok r ↔
    units ≤ s.available ∧ ∃ after : UInt64, s.allocated.toNat + units.toNat = after.toNat ∧
      r = ((), { s with allocated := after }) := by
  simp [allocate, Checked.add_eq_some_iff, eq_comm (b := r)]

theorem attempt_release : (release units).attempt s = .ok r ↔
    ∃ after : UInt64, s.allocated.toNat = units.toNat + after.toNat ∧
      r = ((), { s with allocated := after }) := by
  simp [release, Checked.sub_eq_some_iff, eq_comm (b := r)]

theorem attempt_recordPayment : (recordPayment cost).attempt s = .ok r ↔
    ∃ after : UInt64, s.amountPaid.toNat + cost.toNat = after.toNat ∧
      r = ((), { s with amountPaid := after }) := by
  simp [recordPayment, Checked.add_eq_some_iff, eq_comm (b := r)]

/-- A claim is counted exactly when the sum fits; no limit is looked at. -/
theorem attempt_recordClaim : (recordClaim units).attempt s = .ok r ↔
    ∃ after : UInt64, s.totalMinted.toNat + units.toNat = after.toNat ∧
      r = ((), { s with totalMinted := after }) := by
  simp [recordClaim, Checked.add_eq_some_iff, eq_comm (b := r)]

/-- A purchase is counted in stock, minted units and money. -/
theorem attempt_recordMint : (recordMint units cost).attempt s = .ok r ↔
    units ≤ s.available ∧ ∃ allocated minted paid : UInt64,
      s.allocated.toNat + units.toNat = allocated.toNat ∧
      s.totalMinted.toNat + units.toNat = minted.toNat ∧
      s.amountPaid.toNat + cost.toNat = paid.toNat ∧
      r = ((), { s with allocated := allocated, totalMinted := minted, amountPaid := paid }) := by
  simp only [recordMint, attempt_bind, bind_eq_ok, attempt_allocate, attempt_recordClaim,
    attempt_recordPayment]
  constructor
  · intro h
    obtain ⟨-, ⟨hstock, a, ha, rfl⟩, -, ⟨m, hm, rfl⟩, p, hp, rfl⟩ := h
    exact ⟨hstock, a, m, p, ha, hm, hp, rfl⟩
  · intro h
    obtain ⟨hstock, a, m, p, ha, hm, hp, rfl⟩ := h
    exact ⟨_, ⟨hstock, a, ha, rfl⟩, _, ⟨m, hm, rfl⟩, p, hp, rfl⟩

theorem attempt_recordBurn : (recordBurn units).attempt s = .ok r ↔
    ∃ after : UInt64, s.totalBurned.toNat + units.toNat = after.toNat ∧
      r = ((), { s with totalBurned := after }) := by
  simp [recordBurn, Checked.add_eq_some_iff, eq_comm (b := r)]

/-- A withdrawal is counted exactly when that much is payable. -/
theorem attempt_recordWithdrawal : (recordWithdrawal amount).attempt s = .ok r ↔
    amount ≤ s.amountPayable ∧ ∃ after : UInt64,
      s.amountWithdrawn.toNat + amount.toNat = after.toNat ∧
      r = ((), { s with amountWithdrawn := after }) := by
  simp [recordWithdrawal, Checked.add_eq_some_iff, eq_comm (b := r)]

/-- The terms that opening a sale with a configuration sets. -/
def termsOf (owner : Address) (number : UInt64) (config : SaleConfig) (depth : UInt16)
    (fingerprint : Bytes32) (bump : UInt8) : Terms where
  owner := owner
  number := number
  initialized := true
  recipient := config.recipient
  delegatedMinter := config.delegatedMinter
  currency := config.currency
  supplyLimit := config.supplyLimit
  maxPerWallet := config.maxPerWallet
  royaltyBps := config.royaltyBps
  royaltyRecipient := config.royaltyRecipient
  fingerprint := fingerprint
  maxStackDepth := depth
  bump := bump
  script := config.script

/-- A sale is configured once, with a supply limit and a royalty inside the bounds. -/
theorem attempt_configure {owner : Address} {number : UInt64} {config : SaleConfig}
    {depth : UInt16} {fingerprint : Bytes32} {bump : UInt8} :
    (configure owner number config depth fingerprint bump).attempt s = .ok r ↔
      s.terms.initialized = false ∧
        (1 ≤ config.supplyLimit ∧ config.supplyLimit ≤ maxSupplyLimit) ∧
        config.royaltyBps ≤ maxRoyaltyBps ∧
        r = ((), { s with terms := termsOf owner number config depth fingerprint bump }) := by
  simp [configure, termsOf, eq_comm (b := r)]

end Sale

namespace Ledger

variable {l : Ledger} {units : UInt64} {r : Unit × Ledger}

theorem toNat_balance (l : Ledger) : l.balance.toNat = l.minted.toNat - l.burned.toNat :=
  Checked.toNat_monus _ _

@[simp] theorem bind_minted (l : Ledger) (sale holder : Address) (bump : UInt8) :
    (l.bind sale holder bump).minted = l.minted := by
  unfold bind
  split <;> rfl

@[simp] theorem bind_burned (l : Ledger) (sale holder : Address) (bump : UInt8) :
    (l.bind sale holder bump).burned = l.burned := by
  unfold bind
  split <;> rfl

/-- Minted units are counted exactly when the sum fits. -/
theorem attempt_recordMint : (recordMint units).attempt l = .ok r ↔
    ∃ after : UInt64, l.minted.toNat + units.toNat = after.toNat ∧
      r = ((), { l with minted := after }) := by
  simp [recordMint, Checked.add_eq_some_iff, eq_comm (b := r)]

theorem attempt_recordBurn : (recordBurn units).attempt l = .ok r ↔
    0 < units ∧ units ≤ l.balance ∧ ∃ after : UInt64,
      l.burned.toNat + units.toNat = after.toNat ∧ r = ((), { l with burned := after }) := by
  simp [recordBurn, Checked.add_eq_some_iff, eq_comm (b := r)]

end Ledger

/-! ## Quotes -/

/-- A sale that is pinned to a table is quoted by its script. -/
theorem Sale.wordQuote_of_pinned {s : Sale} {t : Script.Table Snapshot}
    (h : t.fingerprint = s.terms.fingerprint) (v : Snapshot) (account : Address) (units : UInt64) :
    s.wordQuote t v account units
      = Script.evaluate t s.terms.script Sale.quoteSource (Sale.context account units) v := by
  rw [wordQuote, require_of _ h]
  rfl

/-- Words make a quote, unless the price is too large for an amount. -/
theorem SaleQuote.ofWords_cases (q : Script.Quote) :
    (∃ quote, ofWords q = .ok quote) ∨ ofWords q = .error .priceOverflow := by
  unfold ofWords
  cases q.price.toAmount? with
  | none => exact .inr rfl
  | some price => exact .inl ⟨_, rfl⟩

theorem Word.toAmount?_eq_some {w : Word} {n : UInt64} :
    w.toAmount? = some n ↔ w.toNat = n.toNat := by
  have hn := n.toNat_lt_size
  rw [toAmount?]
  split
  · next h => rw [Option.some.injEq, ← UInt64.toNat_inj, UInt64.toNat_ofNat_of_lt' h]
  · next h =>
    constructor
    · intro h'
      cases h'
    · intro h'
      omega

/-- A unit limit that is too wide for an amount is narrowed to the largest one. -/
theorem Word.toNat_narrowed (w : Word) :
    (w.toAmount?.getD Checked.maxAmount).toNat = min w.toNat (UInt64.size - 1) := by
  have hmax : Checked.maxAmount.toNat = UInt64.size - 1 := rfl
  rw [toAmount?]
  split
  · next h =>
    rw [Option.getD_some, UInt64.toNat_ofNat_of_lt' h]
    omega
  · next h =>
    rw [Option.getD_none, hmax]
    omega

/-- Words make a quote of the same price, with the unit limit narrowed. -/
theorem SaleQuote.ofWords_eq_ok {q : Script.Quote} {quote : SaleQuote} :
    ofWords q = .ok quote ↔ q.price.toNat = quote.price.toNat ∧
      quote.maxUnits = q.maxUnits.toAmount?.getD Checked.maxAmount := by
  simp only [ofWords, bind_eq_ok, demand_eq_ok, pure_eq_ok, Word.toAmount?_eq_some]
  constructor
  · intro h
    obtain ⟨price, hprice, rfl⟩ := h
    exact ⟨hprice, rfl⟩
  · intro h
    obtain ⟨hprice, hlimit⟩ := h
    exact ⟨quote.price, hprice, by rw [← hlimit]⟩

theorem SaleQuote.exists_ofWords {q : Script.Quote} (h : q.price.toNat < UInt64.size) :
    ∃ quote, ofWords q = .ok quote := by
  obtain ⟨price, hprice⟩ := Checked.exists_amount h
  exact ⟨⟨q.maxUnits.toAmount?.getD Checked.maxAmount, price⟩, ofWords_eq_ok.mpr ⟨hprice, rfl⟩⟩

/-- A sale is quoted by what its script yields. -/
theorem Sale.quoteFor_of_words {s : Sale} {account : Address} {ledger : Option Ledger}
    {units : UInt64} {now : Int64} {q : Script.Quote} {quote : SaleQuote}
    (h : s.wordQuote table (.ofSale s account ledger now) account units = .ok q) :
    s.quoteFor account ledger units now = .ok quote ↔ SaleQuote.ofWords q = .ok quote := by
  simp only [quoteFor, h]
  exact mapError_eq_ok

/-! ## Settling -/

/-- A purchase settles for some units, at least the minimum and within stock, quote and wallet. -/
theorem MintRequest.settle_eq_ok {request : MintRequest} {quote : SaleQuote}
    {available remaining units : UInt64} :
    request.settle quote available remaining = .ok units ↔
      quote.price ≤ request.maximumPrice ∧ request.minimumUnits ≤ units ∧ 0 < units ∧
        units = Checked.least (Checked.least (Checked.least request.desiredUnits quote.maxUnits)
          available) remaining := by
  simp only [settle, bind_eq_ok, require_eq_ok, pure_eq_ok]
  constructor
  · intro h
    obtain ⟨-, hprice, -, hmin, -, hpos, rfl⟩ := h
    exact ⟨hprice, hmin, hpos, rfl⟩
  · intro h
    obtain ⟨hprice, hmin, hpos, rfl⟩ := h
    exact ⟨(), hprice, (), hmin, (), hpos, rfl⟩

/-- A reservation costs the quoted price for each unit, within the script's limit. -/
theorem SaleQuote.reservationCost_eq_ok {quote : SaleQuote} {units maximumPrice cost : UInt64} :
    quote.reservationCost units maximumPrice = .ok cost ↔
      quote.price ≤ maximumPrice ∧ units ≤ quote.maxUnits ∧
        units.toNat * quote.price.toNat = cost.toNat := by
  simp [reservationCost, Checked.mul_eq_some_iff]

end UnitSale
