import UnitSale.Chain.Payment
import UnitSale.Chain.Treasury
import UnitSale.Proofs.RegistryTheorems
import UnitSale.Proofs.SaleTheorems

/-!
# What moving coins and tokens does

Every transfer moves an amount from one account to another and leaves all records of sales alone.
For each of them: when it goes through, what the two accounts hold then, and that no other account
holds less.
-/

namespace UnitSale

namespace TokenParties

theorem complete_eq_ok {parties : TokenParties}
    {account vault mint : Address} :
    parties.complete = .ok (account, vault, mint)
      ↔ parties = ⟨some account, some vault, some mint, true⟩ := by
  obtain ⟨a, v, m, program⟩ := parties
  cases a <;> cases v <;> cases m <;> cases program <;> simp [complete]

end TokenParties

namespace State

variable {st st' : State} {a source target payer address authority sale : Address}
  {amount cost : UInt64}

/-! ## Frames -/

/-- Two states that differ at most in coins and tokens. -/
structure SameRecords (st st' : State) : Prop where
  now : st'.now = st.now
  rentPerByte : st'.rentPerByte = st.rentPerByte
  mints : st'.mints = st.mints
  sales : st'.sales = st.sales
  shuffles : st'.shuffles = st.shuffles
  ledgers : st'.ledgers = st.ledgers
  commitments : st'.commitments = st.commitments

namespace SameRecords

theorem refl (st : State) : SameRecords st st := ⟨rfl, rfl, rfl, rfl, rfl, rfl, rfl⟩

end SameRecords

/-! ## Loading -/

@[simp] theorem load_eq_ok {α : Type} {records : Registry Address α} {r : α} :
    load records a = .ok r ↔ records.find? a = some r := by
  rw [load, demand_eq_ok]

@[simp] theorem checkSeeds_eq_ok {derived : Address} {u : Unit} :
    checkSeeds a derived = .ok u ↔ a = derived := by
  rw [checkSeeds, require_eq_ok]

/-! ## Coins -/

theorem balance_setBalance (st : State) (a b : Address) (n : UInt64) :
    (st.setBalance a n).balance b = if b = a then n else st.balance b := by
  rw [balance, setBalance, Registry.find?_set]
  split
  · rfl
  · rfl

/-- Coins move exactly when the source has them and they fit at the target. -/
theorem pay_eq_ok : st.pay source target amount = .ok st' ↔
    ∃ left held : UInt64, (st.balance source).toNat = amount.toNat + left.toNat ∧
      ((st.setBalance source left).balance target).toNat + amount.toNat = held.toNat ∧
      st' = (st.setBalance source left).setBalance target held := by
  simp only [pay, bind_eq_ok, demand_eq_ok, pure_eq_ok, Checked.sub_eq_some_iff,
    Checked.add_eq_some_iff]
  constructor
  · intro h
    obtain ⟨left, hleft, held, hheld, rfl⟩ := h
    exact ⟨left, held, hleft, hheld, rfl⟩
  · intro h
    obtain ⟨left, held, hleft, hheld, rfl⟩ := h
    exact ⟨left, hleft, held, hheld, rfl⟩

theorem pay_tokens (h : st.pay source target amount = .ok st') : st'.tokens = st.tokens := by
  obtain ⟨left, held, -, -, rfl⟩ := pay_eq_ok.mp h
  rfl

theorem pay_sameRecords (h : st.pay source target amount = .ok st') : SameRecords st st' := by
  obtain ⟨left, held, -, -, rfl⟩ := pay_eq_ok.mp h
  exact ⟨rfl, rfl, rfl, rfl, rfl, rfl, rfl⟩

theorem pay_balance_target (h : st.pay source target amount = .ok st') (hne : target ≠ source) :
    (st'.balance target).toNat = (st.balance target).toNat + amount.toNat := by
  obtain ⟨left, held, -, hheld, rfl⟩ := pay_eq_ok.mp h
  rw [balance_setBalance, if_neg hne] at hheld
  rw [balance_setBalance, if_pos rfl, hheld]

/-- The source of coins has lost no more than the amount. -/
theorem pay_balance_source (h : st.pay source target amount = .ok st') :
    (st.balance source).toNat ≤ (st'.balance source).toNat + amount.toNat := by
  obtain ⟨left, held, hleft, hheld, rfl⟩ := pay_eq_ok.mp h
  rw [balance_setBalance] at hheld ⊢
  -- paying oneself takes the coins and gives them back
  by_cases hst : source = target
  · subst hst
    rw [if_pos rfl] at hheld ⊢
    omega
  · rw [if_neg hst, balance_setBalance, if_pos rfl]
    omega

/-- Only the source of coins can have fewer than before. -/
theorem pay_balance_le (h : st.pay source target amount = .ok st') (ha : a ≠ source) :
    st.balance a ≤ st'.balance a := by
  by_cases hat : a = target
  · subst hat
    have htarget := pay_balance_target h ha
    rw [UInt64.le_iff_toNat_le]
    omega
  · obtain ⟨left, held, -, -, rfl⟩ := pay_eq_ok.mp h
    rw [balance_setBalance, if_neg hat, balance_setBalance, if_neg ha]
    exact UInt64.le_refl _

/-- A new account is paid for by its payer, and only where there was none. -/
theorem create_eq_ok {present : Bool} {size : Nat} :
    st.create payer address present size = .ok st' ↔
      st.rent size - (st.balance address).toNat < UInt64.size ∧
        st.pay payer address (UInt64.ofNat (st.rent size - (st.balance address).toNat)) = .ok st' ∧
        present = false := by
  simp only [create, bind_eq_ok, require_eq_ok, pure_eq_ok]
  constructor
  · intro h
    obtain ⟨-, hdue, paid, hpaid, -, hfree, rfl⟩ := h
    exact ⟨hdue, hpaid, hfree⟩
  · intro h
    obtain ⟨hdue, hpaid, hfree⟩ := h
    exact ⟨(), hdue, st', hpaid, (), hfree, rfl⟩

/-! ## Tokens -/

/-- Tokens move exactly on the word of their owner, between accounts of one mint, when the source
has them and they fit at the target. A transfer to the source itself changes nothing. -/
theorem transferTokens_eq_ok : st.transferTokens source target authority amount = .ok st' ↔
    ∃ paying paid : TokenAccount, st.tokens.find? source = some paying ∧
      st.tokens.find? target = some paid ∧ amount ≤ paying.amount ∧ paying.mint = paid.mint ∧
      authority = paying.owner ∧
      (source = target ∧ st' = st ∨ source ≠ target ∧ ∃ left held : UInt64,
        paying.amount.toNat = amount.toNat + left.toNat ∧
        paid.amount.toNat + amount.toNat = held.toNat ∧
        st' = { st with
          tokens := (st.tokens.set source { paying with amount := left }).set target
            { paid with amount := held } }) := by
  by_cases hst : source = target
  · simp [transferTokens, hst, eq_comm (b := st')]
  · simp [transferTokens, hst, Checked.sub_eq_some_iff, Checked.add_eq_some_iff,
      eq_comm (b := st')]

theorem transferTokens_coins (h : st.transferTokens source target authority amount = .ok st') :
    st'.coins = st.coins := by
  obtain ⟨paying, paid, -, -, -, -, -, hmoved⟩ := transferTokens_eq_ok.mp h
  rcases hmoved with ⟨-, rfl⟩ | ⟨-, left, held, -, -, rfl⟩
  · rfl
  · rfl

theorem transferTokens_sameRecords
    (h : st.transferTokens source target authority amount = .ok st') : SameRecords st st' := by
  obtain ⟨paying, paid, -, -, -, -, -, hmoved⟩ := transferTokens_eq_ok.mp h
  rcases hmoved with ⟨-, rfl⟩ | ⟨-, left, held, -, -, rfl⟩
  · exact SameRecords.refl _
  · exact ⟨rfl, rfl, rfl, rfl, rfl, rfl, rfl⟩

/-- The source of tokens has lost no more than the amount. -/
theorem transferTokens_source (h : st.transferTokens source target authority amount = .ok st')
    {t : TokenAccount} (ht : st.tokens.find? source = some t) :
    ∃ left, t.amount.toNat ≤ left.toNat + amount.toNat ∧
      st'.tokens.find? source = some { t with amount := left } := by
  obtain ⟨paying, paid, hpaying, -, -, -, -, hmoved⟩ := transferTokens_eq_ok.mp h
  obtain rfl : paying = t := Registry.eq_of_find? hpaying ht
  rcases hmoved with ⟨-, rfl⟩ | ⟨hne, left, held, hleft, -, rfl⟩
  · exact ⟨paying.amount, Nat.le_add_right _ _, ht⟩
  · refine ⟨left, by omega, ?_⟩
    show ((st.tokens.set source _).set target _).find? source = _
    -- the target is written last and is another account
    rw [Registry.find?_set_of_ne _ hne, Registry.find?_set_self]

theorem transferTokens_target (h : st.transferTokens source target authority amount = .ok st')
    (hne : source ≠ target) {t : TokenAccount} (ht : st.tokens.find? target = some t) :
    ∃ held, t.amount.toNat + amount.toNat = held.toNat ∧
      st'.tokens.find? target = some { t with amount := held } := by
  obtain ⟨paying, paid, -, hpaid, -, -, -, hmoved⟩ := transferTokens_eq_ok.mp h
  obtain rfl : paid = t := Registry.eq_of_find? hpaid ht
  rcases hmoved with ⟨heq, -⟩ | ⟨-, left, held, -, hheld, rfl⟩
  · exact absurd heq hne
  · exact ⟨held, hheld, Registry.find?_set_self _ _ _⟩

theorem transferTokens_beside (h : st.transferTokens source target authority amount = .ok st')
    (hs : a ≠ source) (ht : a ≠ target) : st'.tokens.find? a = st.tokens.find? a := by
  obtain ⟨paying, paid, -, -, -, -, -, hmoved⟩ := transferTokens_eq_ok.mp h
  rcases hmoved with ⟨-, rfl⟩ | ⟨-, left, held, -, -, rfl⟩
  · rfl
  · show ((st.tokens.set source _).set target _).find? a = _
    rw [Registry.find?_set_of_ne _ ht, Registry.find?_set_of_ne _ hs]

/-- Only the source of tokens can have fewer than before. -/
theorem transferTokens_kept (h : st.transferTokens source target authority amount = .ok st')
    (hs : a ≠ source) {t : TokenAccount} (ht : st.tokens.find? a = some t) :
    ∃ held, t.amount ≤ held ∧ st'.tokens.find? a = some { t with amount := held } := by
  by_cases hat : a = target
  · subst hat
    obtain ⟨held, hheld, hfound⟩ := transferTokens_target h hs.symm ht
    refine ⟨held, ?_, hfound⟩
    rw [UInt64.le_iff_toNat_le]
    omega
  · exact ⟨t.amount, UInt64.le_refl _, (transferTokens_beside h hs hat).trans ht⟩

/-- Every account after a transfer was there before, with the same mint and owner. -/
theorem transferTokens_origin (h : st.transferTokens source target authority amount = .ok st')
    {t : TokenAccount} (ht : st'.tokens.find? a = some t) :
    ∃ old, st.tokens.find? a = some old ∧ old.mint = t.mint ∧ old.owner = t.owner := by
  have hmoved := transferTokens_eq_ok.mp h
  obtain ⟨paying, paid, hpaying, hpaid, -, -, -, -⟩ := hmoved
  by_cases hs : a = source
  · subst hs
    obtain ⟨left, -, hfound⟩ := transferTokens_source h hpaying
    obtain rfl : { paying with amount := left } = t := Registry.eq_of_find? hfound ht
    exact ⟨paying, hpaying, rfl, rfl⟩
  · by_cases hat : a = target
    · subst hat
      obtain ⟨held, -, hfound⟩ := transferTokens_kept h hs hpaid
      obtain rfl : { paid with amount := held } = t := Registry.eq_of_find? hfound ht
      exact ⟨paid, hpaid, rfl, rfl⟩
    · exact ⟨t, (transferTokens_beside h hs hat).symm.trans ht, rfl, rfl⟩

/-! ## Payments and withdrawals -/

/-- A cost is collected in the currency of the sale; nothing has to be paid for nothing. -/
theorem collect_eq_ok {currency : Currency} {parties : TokenParties} :
    st.collect sale currency payer parties cost = .ok st' ↔
      cost = 0 ∧ st' = st ∨ cost ≠ 0 ∧
        match currency with
        | .native => cost ≤ st.balance payer ∧ st.pay payer sale cost = .ok st'
        | .token mint => ∃ account vault paying, parties = ⟨some account, some vault, some mint, true⟩ ∧
            st.tokens.find? account = some paying ∧ paying.mint = mint ∧ cost ≤ paying.amount ∧
            st.transferTokens account vault payer cost = .ok st' := by
  by_cases hc : cost = 0
  · simp [collect, hc, eq_comm (b := st')]
  · cases currency with
    | native => simp [collect, hc]
    | token mint =>
      simp [collect, hc, TokenParties.complete_eq_ok]

theorem collect_sameRecords {currency : Currency} {parties : TokenParties}
    (h : st.collect sale currency payer parties cost = .ok st') : SameRecords st st' := by
  rcases collect_eq_ok.mp h with ⟨-, rfl⟩ | ⟨-, hpaid⟩
  · exact SameRecords.refl _
  · cases currency with
    | native => exact pay_sameRecords hpaid.2
    | token mint =>
      obtain ⟨account, vault, paying, -, -, -, -, hmoved⟩ := hpaid
      exact transferTokens_sameRecords hmoved

theorem collect_origin {currency : Currency} {parties : TokenParties}
    (h : st.collect sale currency payer parties cost = .ok st') {t : TokenAccount}
    (ht : st'.tokens.find? a = some t) :
    ∃ old, st.tokens.find? a = some old ∧ old.mint = t.mint ∧ old.owner = t.owner := by
  rcases collect_eq_ok.mp h with ⟨-, rfl⟩ | ⟨-, hpaid⟩
  · exact ⟨t, ht, rfl, rfl⟩
  · cases currency with
    | native =>
      rw [pay_tokens hpaid.2] at ht
      exact ⟨t, ht, rfl, rfl⟩
    | token mint =>
      obtain ⟨account, vault, paying, -, -, -, -, hmoved⟩ := hpaid
      exact transferTokens_origin hmoved ht

theorem collect_native {parties : TokenParties}
    (h : st.collect sale .native payer parties cost = .ok st') (hne : sale ≠ payer) :
    (st'.balance sale).toNat = (st.balance sale).toNat + cost.toNat := by
  rcases collect_eq_ok.mp h with ⟨rfl, rfl⟩ | ⟨-, hpaid⟩
  · rfl
  · exact pay_balance_target hpaid.2 hne

/-- A payment in tokens arrives at the vault that was brought along. -/
theorem collect_token {mint : Address} {parties : TokenParties}
    (h : st.collect sale (.token mint) payer parties cost = .ok st')
    (hcheck : parties.checkVault sale = .ok ()) (hcost : cost ≠ 0)
    (howner : ∀ t, st.tokens.find? (.vault sale) = some t → t.owner ≠ payer) :
    ∃ t held, st.tokens.find? (.vault sale) = some t ∧ t.amount.toNat + cost.toNat = held.toNat ∧
      st'.tokens.find? (.vault sale) = some { t with amount := held } := by
  rcases collect_eq_ok.mp h with ⟨hzero, -⟩ | ⟨-, hpaid⟩
  · exact absurd hzero hcost
  · obtain ⟨account, vault, paying, rfl, -, -, -, hmoved⟩ := hpaid
    obtain rfl : vault = .vault sale := checkSeeds_eq_ok.mp hcheck
    obtain ⟨source, t, hsource, ht, -, -, hauthority, -⟩ := transferTokens_eq_ok.mp hmoved
    -- the payer owns the source, so it is not the vault
    have hne : account ≠ .vault sale := by
      intro heq
      rw [heq] at hsource
      exact howner source hsource hauthority.symm
    obtain ⟨held, hheld, hfound⟩ := transferTokens_target hmoved hne ht
    exact ⟨t, held, ht, hheld, hfound⟩

/-- Coins leave a sale exactly as they move anywhere else. -/
theorem withdrawCoins_eq_ok {recipient : Address} :
    st.withdrawCoins sale recipient amount = .ok st' ↔ st.pay sale recipient amount = .ok st' := by
  simp [withdrawCoins, pay]

/-- Tokens leave a sale for an account that the recipient owns. -/
theorem withdrawTokens_eq_ok {mint recipient : Address} {parties : TokenParties} :
    st.withdrawTokens sale mint recipient parties amount = .ok st' ↔
      ∃ account vault paid, parties = ⟨some account, some vault, some mint, true⟩ ∧
        st.tokens.find? account = some paid ∧ paid.owner = recipient ∧
        st.transferTokens vault account sale amount = .ok st' := by
  simp [withdrawTokens, TokenParties.complete_eq_ok]

end State
end UnitSale
