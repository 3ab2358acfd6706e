import UnitSale.Proofs.Funds

/-!
# What a payment takes and leaves

A buyer pays for a new account and then for the units. Both only move money from one account to
another, so as long as all coins and all tokens of a mint together are an amount, a payment goes
through exactly when its source has enough; and afterwards every account has what it had, less what
it paid and more by what it got.
-/

namespace UnitSale

variable {st mid st' : State} {source target payer address sale a : Address} {amount cost : UInt64}
  {parties : TokenParties} {currency : Currency}

namespace State

/-! ## Totals -/

/-- All coins there are. -/
def coinTotal (st : State) : ℕ := st.coins.total fun _ n => n.toNat

/-- All tokens of a mint there are. -/
def tokenTotal (st : State) (mint : Address) : ℕ :=
  st.tokens.totalOf (fun t => t.mint = mint) fun t => t.amount.toNat

/-- Setting a balance trades it for the one that was there. -/
theorem coinTotal_setBalance (st : State) (a : Address) (n : UInt64) :
    (st.setBalance a n).coinTotal + (st.balance a).toNat = st.coinTotal + n.toNat := by
  unfold coinTotal balance setBalance
  cases hfound : st.coins.find? a with
  | none =>
    rw [Registry.total_set_of_none hfound]
    rfl
  | some old => exact Registry.total_set_of_some hfound (fun _ n => n.toNat) n

theorem balance_le_coinTotal (st : State) (a : Address) : (st.balance a).toNat ≤ st.coinTotal := by
  unfold balance
  cases hfound : st.coins.find? a with
  | none => exact Nat.zero_le _
  | some n => exact Registry.weight_le_total hfound fun _ n => n.toNat

/-! ## Coins -/

/-- Coins that have moved are missing at the source and on top at the target, and nothing else has
changed. -/
theorem pay_coins (h : st.pay source target amount = .ok st') (a : Address) :
    (st'.balance a).toNat + (if a = source then amount.toNat else 0)
      = (st.balance a).toNat + if a = target then amount.toNat else 0 := by
  obtain ⟨left, held, hleft, hheld, rfl⟩ := pay_eq_ok.mp h
  rw [balance_setBalance] at hheld
  rw [balance_setBalance, balance_setBalance]
  by_cases hs : a = source
  · subst hs
    by_cases ht : a = target
    · subst ht
      simp only [if_true] at hheld ⊢
      omega
    · simp only [if_true, if_neg ht]
      omega
  · by_cases ht : a = target
    · subst ht
      simp only [if_true, if_neg hs] at hheld ⊢
      omega
    · simp only [if_neg hs, if_neg ht]

theorem pay_coinTotal (h : st.pay source target amount = .ok st') :
    st'.coinTotal = st.coinTotal := by
  obtain ⟨left, held, hleft, hheld, rfl⟩ := pay_eq_ok.mp h
  have hfirst := coinTotal_setBalance st source left
  have hsecond := coinTotal_setBalance (st.setBalance source left) target held
  omega

theorem pay_of_le (hle : amount.toNat ≤ (st.balance source).toNat)
    (htotal : st.coinTotal < UInt64.size) : ∃ st', st.pay source target amount = .ok st' := by
  obtain ⟨left, hleft⟩ := Checked.exists_amount (n := (st.balance source).toNat - amount.toNat)
    (Nat.lt_of_le_of_lt (Nat.sub_le _ _) (st.balance source).toNat_lt_size)
  -- what the target has, too, is part of the total once the source is debited
  have htaken := coinTotal_setBalance st source left
  have htarget := balance_le_coinTotal (st.setBalance source left) target
  obtain ⟨held, hheld⟩ := Checked.exists_amount
    (n := ((st.setBalance source left).balance target).toNat + amount.toNat) (by omega)
  exact ⟨_, pay_eq_ok.mpr ⟨left, held, by omega, hheld, rfl⟩⟩

/-! ## Rent -/

/-- What is missing from the rent of an account at an address. -/
def rentDue (st : State) (address : Address) (size : ℕ) : ℕ :=
  st.rent size - (st.balance address).toNat

/-- What has to be paid to have an account at hand: nothing if it is there. -/
def rentFor {α : Type} (st : State) (records : Registry Address α) (address : Address)
    (size : ℕ) : ℕ :=
  if records.contains address then 0 else st.rentDue address size

/-- A state in which the rent of an account at an address has been paid, and nothing else. -/
structure Rented (st : State) (payer address : Address) (rent : ℕ) (mid : State) : Prop where
  prepared : Prepared st payer mid
  coins : ∀ a, (mid.balance a).toNat + (if a = payer then rent else 0)
    = (st.balance a).toNat + if a = address then rent else 0
  total_eq : mid.coinTotal = st.coinTotal

/-- Where nothing is due, nothing has to be paid. -/
theorem Rented.refl (st : State) (payer address : Address) : Rented st payer address 0 st where
  prepared := .refl st payer
  coins := by simp
  total_eq := rfl

/-- A new account is paid for with what is missing from its rent. -/
theorem rented_of_create {size : ℕ} (h : st.create payer address false size = .ok mid) :
    Rented st payer address (st.rentDue address size) mid := by
  obtain ⟨hdue, hpaid, -⟩ := create_eq_ok.mp h
  have hcoins := pay_coins hpaid
  rw [UInt64.toNat_ofNat_of_lt' hdue] at hcoins
  exact ⟨prepared_of_create h, hcoins, pay_coinTotal hpaid⟩

/-- A new account can be paid for by whoever has what is missing from its rent. -/
theorem create_of_funded {size : ℕ}
    (hfunded : st.rentDue address size ≤ (st.balance payer).toNat)
    (htotal : st.coinTotal < UInt64.size) :
    ∃ mid, st.create payer address false size = .ok mid := by
  have hdue : st.rentDue address size < UInt64.size :=
    Nat.lt_of_le_of_lt hfunded (st.balance payer).toNat_lt_size
  have hamount : (UInt64.ofNat (st.rentDue address size)).toNat = st.rentDue address size :=
    UInt64.toNat_ofNat_of_lt' hdue
  obtain ⟨mid, hpaid⟩ : ∃ mid, st.pay payer address (UInt64.ofNat (st.rentDue address size))
      = .ok mid := pay_of_le (Nat.le_trans (Nat.le_of_eq hamount) hfunded) htotal
  exact ⟨mid, create_eq_ok.mpr ⟨hdue, hpaid, rfl⟩⟩

/-- A ledger is at hand once its rent is paid, if it is missing. -/
theorem rented_of_withLedger {found : Ledger}
    (h : st.withLedger payer address = .ok (mid, found)) :
    Rented st payer address (st.rentFor st.ledgers address Ledger.space) mid := by
  rcases withLedger_cases h with ⟨hold, rfl⟩ | ⟨hnone, -, funded, hfunded, rfl⟩
  · rw [rentFor, Registry.contains, hold]
    exact .refl _ _ _
  · rw [rentFor, Registry.contains, hnone]
    have hrented := rented_of_create hfunded
    exact ⟨(withLedger_effect h).1, hrented.coins, hrented.total_eq⟩

/-- A ledger is at hand for whoever can pay its rent. -/
theorem withLedger_of_funded
    (hfunded : st.rentFor st.ledgers address Ledger.space ≤ (st.balance payer).toNat)
    (htotal : st.coinTotal < UInt64.size) :
    ∃ mid, st.withLedger payer address = .ok (mid, (st.ledgers.find? address).getD .blank) := by
  unfold withLedger
  cases hfound : st.ledgers.find? address with
  | some l => exact ⟨st, rfl⟩
  | none =>
    rw [rentFor, Registry.contains, hfound] at hfunded
    obtain ⟨funded, hcreated⟩ := create_of_funded hfunded htotal
    exact ⟨funded.setLedger address .blank, bind_eq_ok.mpr ⟨funded, hcreated, rfl⟩⟩

theorem rented_of_withCommitment {found : Commitment}
    (h : st.withCommitment payer address = .ok (mid, found)) :
    Rented st payer address (st.rentFor st.commitments address Commitment.space) mid := by
  rcases withCommitment_cases h with ⟨hold, rfl⟩ | ⟨hnone, -, funded, hfunded, rfl⟩
  · rw [rentFor, Registry.contains, hold]
    exact .refl _ _ _
  · rw [rentFor, Registry.contains, hnone]
    have hrented := rented_of_create hfunded
    exact ⟨(withCommitment_effect h).1, hrented.coins, hrented.total_eq⟩

theorem withCommitment_of_funded
    (hfunded : st.rentFor st.commitments address Commitment.space ≤ (st.balance payer).toNat)
    (htotal : st.coinTotal < UInt64.size) :
    ∃ mid, st.withCommitment payer address
      = .ok (mid, (st.commitments.find? address).getD .blank) := by
  unfold withCommitment
  cases hfound : st.commitments.find? address with
  | some c => exact ⟨st, rfl⟩
  | none =>
    rw [rentFor, Registry.contains, hfound] at hfunded
    obtain ⟨funded, hcreated⟩ := create_of_funded hfunded htotal
    exact ⟨funded.setCommitment address .blank, bind_eq_ok.mpr ⟨funded, hcreated, rfl⟩⟩

/-! ## Tokens -/

/-- Tokens that have moved are missing at the source and on top at the target, and nothing else has
changed. -/
theorem transferTokens_tokens (h : st.transferTokens source target payer amount = .ok st')
    (hne : source ≠ target) {t : TokenAccount} (ht : st.tokens.find? a = some t) :
    ∃ held, st'.tokens.find? a = some { t with amount := held } ∧
      held.toNat + (if a = source then amount.toNat else 0)
        = t.amount.toNat + if a = target then amount.toNat else 0 := by
  obtain ⟨paying, paid, hpaying, -, -, -, -, hmoved⟩ := transferTokens_eq_ok.mp h
  obtain ⟨left, held, hleft, -, rfl⟩ := (hmoved.resolve_left fun heq => hne heq.1).2
  by_cases hs : a = source
  · subst hs
    obtain rfl : paying = t := Registry.eq_of_find? hpaying ht
    refine ⟨left, ?_, by simp only [if_true, if_neg hne]; omega⟩
    show ((st.tokens.set a _).set target _).find? a = _
    rw [Registry.find?_set_of_ne _ hne, Registry.find?_set_self]
  · rw [if_neg hs]
    by_cases ha : a = target
    · subst ha
      obtain ⟨held, hheld, hfound⟩ := transferTokens_target h hne ht
      exact ⟨held, hfound, by rw [if_pos rfl]; omega⟩
    · exact ⟨t.amount, (transferTokens_beside h hs ha).trans ht, by rw [if_neg ha]⟩

/-- Tokens move on the word of their owner between two accounts of one mint, whenever the source has
them. -/
theorem transferTokens_of_le {paying paid : TokenAccount}
    (hsource : st.tokens.find? source = some paying) (htarget : st.tokens.find? target = some paid)
    (hne : source ≠ target) (hmint : paid.mint = paying.mint) (hle : amount ≤ paying.amount)
    (htotal : st.tokenTotal paying.mint < UInt64.size) :
    ∃ st', st.transferTokens source target paying.owner amount = .ok st' := by
  rw [UInt64.le_iff_toNat_le] at hle
  obtain ⟨left, hleft⟩ := Checked.exists_amount (n := paying.amount.toNat - amount.toNat)
    (Nat.lt_of_le_of_lt (Nat.sub_le _ _) paying.amount.toNat_lt_size)
  -- what the target has, too, is part of the total once the source is debited
  have htaken : (st.tokens.set source { paying with amount := left }).totalOf
      (fun t => t.mint = paying.mint) (fun t => t.amount.toNat) + paying.amount.toNat
        = st.tokenTotal paying.mint + left.toNat := by
    have hset := Registry.total_set_of_some hsource
      (fun _ t => if t.mint = paying.mint then t.amount.toNat else 0) { paying with amount := left }
    rw [if_pos rfl, if_pos rfl] at hset
    exact hset
  have hkept : (st.tokens.set source { paying with amount := left }).find? target = some paid := by
    rw [Registry.find?_set_of_ne _ hne.symm]
    exact htarget
  have hpart := Registry.figure_le_totalOf (p := fun t => t.mint = paying.mint) hkept hmint
    fun t => t.amount.toNat
  obtain ⟨held, hheld⟩ := Checked.exists_amount (n := paid.amount.toNat + amount.toNat) (by omega)
  exact ⟨_, transferTokens_eq_ok.mpr ⟨paying, paid, hsource, htarget,
    UInt64.le_iff_toNat_le.mpr hle, hmint.symm, rfl, .inr ⟨hne, left, held, by omega, hheld, rfl⟩⟩⟩

end State

/-! ## Costs -/

/-- The part of a cost that is paid in coins. -/
def Currency.inCoins : Currency → ℕ → ℕ
  | .native, cost => cost
  | .token _, _ => 0

/-- The part of a cost that is paid in tokens. -/
def Currency.inTokens : Currency → ℕ → ℕ
  | .native, _ => 0
  | .token _, cost => cost

/-- The accounts that a payer has to bring along to pay a sale. For coins there are none, so
whatever is brought only has to be in order; for tokens they are an account of the payer's own, the
vault of the sale and the mint. -/
inductive TokenParties.Supplied (st : State) (sale payer : Address) : Currency → TokenParties → Prop
  | coins {parties : TokenParties} : parties.load st = .ok () → parties.checkVault sale = .ok () →
      Supplied st sale payer .native parties
  | tokens {account mint : Address} {t : TokenAccount} : st.tokens.find? account = some t →
      t.mint = mint → t.owner = payer → st.tokens.contains (.vault sale) → mint ∈ st.mints →
      Supplied st sale payer (.token mint) ⟨some account, some (.vault sale), some mint, true⟩

/-- What a payer can spend in a currency after paying rent: the coins that are left, or what is in
the token account that is brought along. -/
def State.purse (st : State) (payer : Address) (parties : TokenParties) (rent : ℕ) : Currency → ℕ
  | .native => (st.balance payer).toNat - rent
  | .token _ => ((parties.account.bind st.tokens.find?).map fun t => t.amount.toNat).getD 0

/-- A state in which a payer has paid the rent of an account and a cost to a sale, and in which no
other coins or tokens have moved. -/
structure State.Paid (st : State) (payer address sale : Address) (currency : Currency)
    (parties : TokenParties) (rent cost : ℕ) (st' : State) : Prop where
  coins : ∀ a, (st'.balance a).toNat + (if a = payer then rent + currency.inCoins cost else 0)
    = (st.balance a).toNat + (if a = address then rent else 0)
      + if a = sale then currency.inCoins cost else 0
  tokens : ∀ a t, st.tokens.find? a = some t →
    ∃ held, st'.tokens.find? a = some { t with amount := held } ∧
      held.toNat + (if parties.account = some a then currency.inTokens cost else 0)
        = t.amount.toNat + if a = .vault sale then currency.inTokens cost else 0
  tokens_none : ∀ a, st.tokens.find? a = none → st'.tokens.find? a = none

/-- What is recorded of sales does not matter to what was paid. -/
theorem State.Paid.of_eq {st'' : State} {rent cost : ℕ}
    (h : st.Paid payer address sale currency parties rent cost st')
    (hcoins : st''.coins = st'.coins) (htokens : st''.tokens = st'.tokens) :
    st.Paid payer address sale currency parties rent cost st'' where
  coins := by
    intro a
    have hbalance : st''.balance a = st'.balance a := by
      unfold balance
      rw [hcoins]
    rw [hbalance]
    exact h.coins a
  tokens := by
    rw [htokens]
    exact h.tokens
  tokens_none := by
    rw [htokens]
    exact h.tokens_none

@[simp] theorem Currency.inCoins_zero (c : Currency) : c.inCoins 0 = 0 := by
  cases c <;> rfl

@[simp] theorem Currency.inTokens_zero (c : Currency) : c.inTokens 0 = 0 := by
  cases c <;> rfl

namespace TokenParties.Supplied

theorem load_eq (h : parties.Supplied st sale payer currency) : parties.load st = .ok () := by
  cases h with
  | coins hload => exact hload
  | @tokens account mint t haccount _ _ hvault hmint =>
    have hfound : st.tokens.contains account = true := by
      rw [Registry.contains, haccount]
      rfl
    simp [load, hfound, hvault, hmint, require_of]

theorem checkVault_eq (h : parties.Supplied st sale payer currency) :
    parties.checkVault sale = .ok () := by
  cases h with
  | coins _ hcheck => exact hcheck
  | tokens => exact State.checkSeeds_eq_ok.mpr rfl

end TokenParties.Supplied

namespace State

/-- The vault of a sale that takes tokens is an account of their mint, and no key owns it. -/
theorem Vaulted.vault {record : Sale} {mint : Address} (h : st.Vaulted) (hkey : payer.IsKey)
    (hrecord : st.sales.find? sale = some record) (hcurrency : record.terms.currency = .token mint)
    {v : TokenAccount} (hv : st.tokens.find? (.vault sale) = some v) :
    v.mint = mint ∧ v.owner ≠ payer := by
  obtain ⟨hvault, record', hrecord', hcurrency'⟩ := h.vaults _ v (not_isKey_vault sale) hv
  obtain rfl := Address.vault.inj hvault
  obtain rfl : record' = record := Registry.eq_of_find? hrecord' hrecord
  refine ⟨?_, h.owner_ne hkey rfl _ v (not_isKey_vault _) hv⟩
  rw [hcurrency] at hcurrency'
  exact (Currency.token.inj hcurrency').symm

theorem Vaulted.ne_vault {record : Sale} {mint account : Address} {t : TokenAccount}
    (h : st.Vaulted) (hkey : payer.IsKey) (hrecord : st.sales.find? sale = some record)
    (hcurrency : record.terms.currency = .token mint) (ht : st.tokens.find? account = some t)
    (howner : t.owner = payer) : account ≠ .vault sale := by
  intro heq
  rw [heq] at ht
  exact (h.vault hkey hrecord hcurrency ht).2 howner

section Cost

variable {record : Sale} {rent : ℕ}

theorem Rented.balance_payer (h : Rented st payer address rent mid) (hne : payer ≠ address) :
    (mid.balance payer).toNat = (st.balance payer).toNat - rent := by
  have hcoins := h.coins payer
  rw [if_pos rfl, if_neg hne] at hcoins
  omega

/-- After the rent is paid, a cost is collected exactly if what is left in the purse covers it. -/
theorem Rented.collect_iff (h : Rented st payer address rent mid) (hne : payer ≠ address)
    (hvaulted : st.Vaulted) (hkey : payer.IsKey) (hrecord : st.sales.find? sale = some record)
    (hsupplied : parties.Supplied st sale payer record.terms.currency)
    (hcoins : st.coinTotal < UInt64.size) (htokens : ∀ mint, st.tokenTotal mint < UInt64.size) :
    (∃ st', mid.collect sale record.terms.currency payer parties cost = .ok st')
      ↔ cost.toNat ≤ st.purse payer parties rent record.terms.currency := by
  by_cases hzero : cost = 0
  · subst hzero
    exact iff_of_true ⟨mid, collect_eq_ok.mpr (.inl ⟨rfl, rfl⟩)⟩ (Nat.zero_le _)
  cases hcurrency : record.terms.currency with
  | native =>
    simp only [collect_eq_ok, hzero, false_and, ne_eq, not_false_eq_true, true_and, false_or,
      UInt64.le_iff_toNat_le, h.balance_payer hne]
    constructor
    · intro hpaid
      exact hpaid.choose_spec.1
    · intro hle
      have hcovered : cost.toNat ≤ (mid.balance payer).toNat := by
        rw [h.balance_payer hne]
        exact hle
      obtain ⟨st', hpaid⟩ := pay_of_le hcovered (h.total_eq ▸ hcoins)
      exact ⟨st', hle, hpaid⟩
  | token mint =>
    rw [hcurrency] at hsupplied
    cases hsupplied with | @tokens account mint t haccount hmint howner hvault => ?_
    obtain ⟨v, hv⟩ := Option.isSome_iff_exists.mp hvault
    have hpurse : st.purse payer ⟨some account, some (.vault sale), some mint, true⟩ rent
        (.token mint) = t.amount.toNat := by
      simp [purse, haccount]
    rw [hpurse]
    simp only [collect_eq_ok, hzero, false_and, ne_eq, not_false_eq_true, true_and, false_or]
    constructor
    · intro hpaid
      obtain ⟨st', account', vault', paying, hparties, hpaying, -, hle, -⟩ := hpaid
      simp only [TokenParties.mk.injEq, Option.some.injEq] at hparties
      rw [h.prepared.tokens, ← hparties.1, haccount] at hpaying
      obtain rfl := Option.some.inj hpaying
      exact UInt64.le_iff_toNat_le.mp hle
    · intro hle
      rw [← UInt64.le_iff_toNat_le] at hle
      have hsource := haccount
      have htarget := hv
      rw [← h.prepared.tokens] at hsource htarget
      have htotal : mid.tokenTotal t.mint < UInt64.size := by
        unfold tokenTotal
        rw [h.prepared.tokens]
        exact htokens t.mint
      obtain ⟨st', hmoved⟩ := transferTokens_of_le hsource htarget
        (hvaulted.ne_vault hkey hrecord hcurrency haccount howner)
        ((hvaulted.vault hkey hrecord hcurrency hv).1.trans hmint.symm) hle htotal
      rw [howner] at hmoved
      exact ⟨st', account, .vault sale, t, rfl, hsource, hmint, hle, hmoved⟩

/-- Where nothing is collected, the rent is all that is paid. -/
theorem Rented.paid_nothing (h : Rented st payer address rent mid) :
    Paid st payer address sale currency parties rent 0 mid where
  coins := fun a => by simpa using h.coins a
  tokens := fun a t ht => ⟨t.amount, by rw [h.prepared.tokens]; exact ht, by simp⟩
  tokens_none := fun a ha => by rw [h.prepared.tokens]; exact ha

/-- Rent and cost are all that is paid. -/
theorem Rented.paid (h : Rented st payer address rent mid)
    (hvaulted : st.Vaulted) (hkey : payer.IsKey) (hrecord : st.sales.find? sale = some record)
    (hsupplied : parties.Supplied st sale payer record.terms.currency)
    (hpaid : mid.collect sale record.terms.currency payer parties cost = .ok st') :
    Paid st payer address sale record.terms.currency parties rent cost.toNat st' := by
  rcases collect_eq_ok.mp hpaid with ⟨rfl, rfl⟩ | ⟨-, hmoved⟩
  · exact h.paid_nothing
  cases hcurrency : record.terms.currency with
  | native =>
    rw [hcurrency] at hmoved
    have htokens : st'.tokens = st.tokens := (pay_tokens hmoved.2).trans h.prepared.tokens
    refine {
      coins := fun a => ?_
      tokens := fun a t ht => ⟨t.amount, by rw [htokens]; exact ht, by simp [Currency.inTokens]⟩
      tokens_none := fun a ha => by rw [htokens]; exact ha }
    have hrent := h.coins a
    have hcost := pay_coins hmoved.2 a
    have hboth : (if a = payer then rent + cost.toNat else 0)
        = (if a = payer then rent else 0) + if a = payer then cost.toNat else 0 := by
      split <;> rfl
    rw [Currency.inCoins]
    omega
  | token mint =>
    rw [hcurrency] at hmoved hsupplied
    cases hsupplied with | @tokens account mint t haccount hmint howner hvault => ?_
    obtain ⟨account', vault', -, hparties, -, -, -, htransfer⟩ := hmoved
    simp only [TokenParties.mk.injEq, Option.some.injEq] at hparties
    obtain ⟨rfl, rfl, -, -⟩ := hparties
    have hcoins : ∀ a, st'.balance a = mid.balance a := fun a => by
      unfold balance
      rw [transferTokens_coins htransfer]
    have hne := hvaulted.ne_vault hkey hrecord hcurrency haccount howner
    refine { coins := fun a => ?_, tokens := fun a t' ht' => ?_, tokens_none := fun a ha => ?_ }
    · rw [hcoins, Currency.inCoins, Nat.add_zero, ite_self, Nat.add_zero]
      exact h.coins a
    · rw [← h.prepared.tokens] at ht'
      obtain ⟨held, hfound, hheld⟩ := transferTokens_tokens htransfer hne ht'
      refine ⟨held, hfound, ?_⟩
      simpa [Currency.inTokens, eq_comm (a := account)] using hheld
    · rw [← h.prepared.tokens] at ha
      cases hfound : st'.tokens.find? a with
      | none => rfl
      | some t' =>
        obtain ⟨old, hold, -⟩ := transferTokens_origin htransfer hfound
        rw [ha] at hold
        cases hold

end Cost

end State
end UnitSale
