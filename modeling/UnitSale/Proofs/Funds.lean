import UnitSale.Proofs.ProtocolSteps

/-!
# Whose money moves

Only calls that are signed by ordinary keys reach the program, and only the signer and the sale of a
withdrawal pay. So nothing leaves a derived account but by a withdrawal, and the only token accounts
at derived addresses are the vaults of sales.
-/

namespace UnitSale
namespace State

variable {st st' mid : State} {signer : Signer} {receipt : Receipt}
  {sale shuffle ledger commitment recipient mint vault payer a : Address} {parties : TokenParties}

/-! ## What the signer pays for -/

/-- Coins leave the signer's account only, and tokens leave the signer's token accounts only. -/
structure Spares (signer : Signer) (st st' : State) : Prop where
  balance_le : ∀ a, ¬ signer.Signs a → st.balance a ≤ st'.balance a
  tokens_kept : ∀ a t, ¬ signer.Signs t.owner → st.tokens.find? a = some t →
    ∃ amount, t.amount ≤ amount ∧ st'.tokens.find? a = some { t with amount := amount }

namespace Spares

theorem of_eq (hcoins : st'.coins = st.coins) (htokens : st'.tokens = st.tokens) :
    Spares signer st st' where
  balance_le := by
    intro a _
    unfold balance
    rw [hcoins]
    exact UInt64.le_refl _
  tokens_kept := by
    intro a t _ ht
    rw [htokens]
    exact ⟨t.amount, UInt64.le_refl _, ht⟩

theorem trans (h : Spares signer st mid) (h' : Spares signer mid st') : Spares signer st st' where
  balance_le := fun a ha => UInt64.le_trans (h.balance_le a ha) (h'.balance_le a ha)
  tokens_kept := by
    intro a t ha ht
    obtain ⟨amount, hle, hmid⟩ := h.tokens_kept a t ha ht
    obtain ⟨amount', hle', hst'⟩ := h'.tokens_kept a { t with amount := amount } ha hmid
    exact ⟨amount', UInt64.le_trans hle hle', hst'⟩

end Spares

/-- Paying for an account takes coins from its payer only. -/
theorem Prepared.spares (h : Prepared st signer.address mid) (hsigned : signer.signed = true) :
    Spares signer st mid where
  balance_le := by
    intro a ha
    exact h.balance_le a fun heq => ha ⟨hsigned, heq.symm⟩
  tokens_kept := by
    intro a t _ ht
    rw [h.tokens]
    exact ⟨t.amount, UInt64.le_refl _, ht⟩

/-- Collecting a payment takes coins or tokens from its payer only. -/
theorem collect_spares {currency : Currency} {cost : UInt64}
    (h : st.collect sale currency signer.address parties cost = .ok st')
    (hsigned : signer.signed = true) : Spares signer st st' := by
  rcases collect_eq_ok.mp h with ⟨-, rfl⟩ | ⟨-, hpaid⟩
  · exact .of_eq rfl rfl
  cases currency with
  | native =>
    have hprepared : Prepared st signer.address st' :=
      have hsame := pay_sameRecords hpaid.2
      ⟨hsame.now, hsame.mints, pay_tokens hpaid.2, hsame.sales, hsame.shuffles,
        fun _ ha => pay_balance_le hpaid.2 ha⟩
    exact hprepared.spares hsigned
  | token mint =>
    obtain ⟨account, vault, paying, -, hpaying, -, -, hmoved⟩ := hpaid
    obtain ⟨source, -, hsource, -, -, -, hauthority, -⟩ := transferTokens_eq_ok.mp hmoved
    refine { balance_le := ?_, tokens_kept := ?_ }
    · intro a _
      unfold balance
      rw [transferTokens_coins hmoved]
      exact UInt64.le_refl _
    · intro a t ha ht
      -- the tokens leave an account that the payer owns
      refine transferTokens_kept hmoved ?_ ht
      intro heq
      rw [heq] at ht
      obtain rfl : source = t := Registry.eq_of_find? hsource ht
      exact ha ⟨hsigned, hauthority⟩

/-! ## Vaults -/

/-- Sales are at derived addresses, and the only token accounts at such are the vaults of sales, in
the currency of the sale. -/
structure Vaulted (st : State) : Prop where
  derived : ∀ sale record, st.books.sales.find? sale = some record → ¬ sale.IsKey
  vaults : ∀ a t, ¬ a.IsKey → st.tokens.find? a = some t →
    a = .vault t.owner ∧ ∃ record, st.books.sales.find? t.owner = some record ∧
      record.terms.currency = .token t.mint

/-- No key owns a token account at a derived address. -/
theorem Vaulted.owner_ne (h : st.Vaulted) (hkey : payer.IsKey) (htokens : mid.tokens = st.tokens)
    (a : Address) (t : TokenAccount) (ha : ¬ a.IsKey) (ht : mid.tokens.find? a = some t) :
    t.owner ≠ payer := by
  rw [htokens] at ht
  obtain ⟨-, record, hrecord, -⟩ := h.vaults a t ha ht
  intro heq
  rw [heq] at hrecord
  exact h.derived payer record hrecord hkey

theorem not_isKey_vault (sale : Address) : ¬ (Address.vault sale).IsKey := by
  intro h
  obtain ⟨b, hb⟩ := h
  cases hb

theorem not_isKey_sale (owner : Address) (number : UInt64) :
    ¬ (Address.sale owner number).IsKey := by
  intro h
  obtain ⟨b, hb⟩ := h
  cases hb

/-- No key owns a token account at a derived address, so what is not the signer's is secure. -/
theorem Spares.secure (h : Spares signer st st') (hvaulted : st.Vaulted)
    (hkey : signer.address.IsKey) : Secure st st' where
  balance_le := by
    intro a ha
    apply h.balance_le
    rintro ⟨-, rfl⟩
    exact ha hkey
  tokens_kept := by
    intro a t ha ht
    refine h.tokens_kept a t ?_ ht
    rintro ⟨-, howner⟩
    exact hvaulted.owner_ne hkey rfl a t ha ht howner.symm

/-! ## Instructions -/

theorem Opening.spares {number : UInt64} {config : SaleConfig}
    (o : Opening st signer sale shuffle number config receipt) :
    Spares signer st receipt.state := by
  have hfunded := (prepared_of_create o.funded_eq).spares o.signed
  have hbuilt := (prepared_of_create o.built_eq).spares o.signed
  have hblank : Spares signer o.funded (o.funded.setSale sale .blank) := .of_eq rfl rfl
  rw [o.state_eq]
  exact ((hfunded.trans hblank).trans hbuilt).trans (.of_eq rfl rfl)

theorem Opening.tokens_eq {number : UInt64} {config : SaleConfig}
    (o : Opening st signer sale shuffle number config receipt) :
    receipt.state.tokens = st.tokens := by
  have hfunded := (prepared_of_create o.funded_eq).tokens
  have hbuilt := (prepared_of_create o.built_eq).tokens
  rw [o.state_eq]
  exact hbuilt.trans hfunded

theorem VaultOpening.tokens_eq (o : VaultOpening st signer sale vault mint receipt) :
    receipt.state.tokens = st.tokens.set (.vault sale) ⟨mint, sale, 0⟩ := by
  rw [o.state_eq]
  show o.funded.tokens.set _ _ = _
  rw [(prepared_of_create o.funded_eq).tokens]

theorem VaultOpening.spares (o : VaultOpening st signer sale vault mint receipt) :
    Spares signer st receipt.state where
  balance_le := by
    rw [o.state_eq]
    exact ((prepared_of_create o.funded_eq).spares o.signed).balance_le
  tokens_kept := by
    intro a t _ ht
    have hne : a ≠ .vault sale := by
      intro heq
      rw [heq, o.vault_new] at ht
      cases ht
    rw [o.tokens_eq, Registry.find?_set_of_ne _ hne]
    exact ⟨t.amount, UInt64.le_refl _, ht⟩

theorem Purchase.spares {who : Buyer} {request : MintRequest}
    (p : Purchase st signer who sale ledger recipient request parties receipt) :
    Spares signer st receipt.state := by
  obtain ⟨hprepared, -⟩ := withLedger_effect p.mid_eq
  have hcollected := collect_spares p.collected_eq p.signed
  rw [p.state_eq]
  exact ((hprepared.spares p.signed).trans hcollected).trans (.of_eq rfl rfl)

theorem Reservation.spares {brought : Option Address} {hash : Bytes32}
    {units maximumPrice : UInt64}
    (r : Reservation st signer sale shuffle commitment brought hash units maximumPrice parties
      receipt) : Spares signer st receipt.state := by
  obtain ⟨hprepared, -⟩ := withCommitment_effect r.mid_eq
  have hcollected := collect_spares r.collected_eq r.signed
  rw [r.state_eq]
  exact ((hprepared.spares r.signed).trans hcollected).trans (.of_eq rfl rfl)

theorem Handout.spares (c : Handout st signer sale shuffle commitment ledger receipt) :
    Spares signer st receipt.state := by
  obtain ⟨hprepared, -⟩ := withLedger_effect c.mid_eq
  rw [c.state_eq]
  exact (hprepared.spares c.signed).trans (.of_eq rfl rfl)

/-- Nothing but the signer's is taken by an instruction that is no withdrawal. -/
theorem Accepted.spares_or_withdrawal {i : Instruction} (h : st.Accepted signer i receipt) :
    Spares signer st receipt.state ∨
      ∃ sale recipient amount parties, i = .withdraw sale recipient amount parties ∧
        Nonempty (Withdrawal st signer sale recipient parties amount receipt) := by
  cases h with
  | openSale o => exact .inl o.spares
  | openVault o => exact .inl o.spares
  | calculate hstate => exact .inl (hstate ▸ .of_eq rfl rfl)
  | mint p => exact .inl p.spares
  | mintFor p => exact .inl p.spares
  | burn b => exact .inl (b.state_eq ▸ .of_eq rfl rfl)
  | withdraw w => exact .inr ⟨_, _, _, _, rfl, ⟨w⟩⟩
  | royaltyInfo hstate => exact .inl (hstate ▸ .of_eq rfl rfl)
  | commit r => exact .inl r.spares
  | startReveal w => exact .inl (w.state_eq ▸ .of_eq rfl rfl)
  | reveal r => exact .inl (r.state_eq ▸ .of_eq rfl rfl)
  | revealIds d => exact .inl (d.state_eq ▸ .of_eq rfl rfl)
  | claimReserved c => exact .inl c.spares

/-- Nothing is taken from derived accounts by an instruction that is no withdrawal. -/
theorem Accepted.secure_or_withdrawal {i : Instruction} (h : st.Accepted signer i receipt)
    (hvaulted : st.Vaulted) (hkey : signer.address.IsKey) :
    Secure st receipt.state ∨
      ∃ sale recipient parties amount,
        Nonempty (Withdrawal st signer sale recipient parties amount receipt) := by
  rcases h.spares_or_withdrawal with hspares | ⟨sale, recipient, amount, parties, -, hw⟩
  · exact .inl (hspares.secure hvaulted hkey)
  · exact .inr ⟨sale, recipient, parties, amount, hw⟩

/-- The tokens of a withdrawal come from the sale's vault. -/
theorem Withdrawal.transfer {amount : UInt64} {mint : Address}
    (w : Withdrawal st signer sale recipient parties amount receipt)
    (hcurrency : w.record.terms.currency = .token mint) :
    ∃ account, st.transferTokens (.vault sale) account sale amount = .ok w.moved := by
  have hmoved := w.moved_eq
  rw [hcurrency] at hmoved
  obtain ⟨account, vault, paid, rfl, -, -, htransfer⟩ := withdrawTokens_eq_ok.mp hmoved
  obtain rfl : vault = .vault sale := checkSeeds_eq_ok.mp w.vault_ok
  exact ⟨account, htransfer⟩

/-- The coins of a withdrawal come from the sale's account. -/
theorem Withdrawal.payment {amount : UInt64}
    (w : Withdrawal st signer sale recipient parties amount receipt)
    (hcurrency : w.record.terms.currency = .native) :
    st.pay sale recipient amount = .ok w.moved := by
  have hmoved := w.moved_eq
  rw [hcurrency] at hmoved
  exact withdrawCoins_eq_ok.mp hmoved

/-- A withdrawal takes coins from no account but the sale's. -/
theorem Withdrawal.balance_le {amount : UInt64}
    (w : Withdrawal st signer sale recipient parties amount receipt) (hne : a ≠ sale) :
    st.balance a ≤ receipt.state.balance a := by
  rw [w.state_eq]
  show st.balance a ≤ w.moved.balance a
  cases hcurrency : w.record.terms.currency with
  | native => exact pay_balance_le (w.payment hcurrency) hne
  | token mint =>
    obtain ⟨account, htransfer⟩ := w.transfer hcurrency
    unfold balance
    rw [transferTokens_coins htransfer]
    exact UInt64.le_refl _

/-- A withdrawal takes tokens from no account but the sale's vault. -/
theorem Withdrawal.tokens_kept {amount : UInt64} {t : TokenAccount}
    (w : Withdrawal st signer sale recipient parties amount receipt) (hne : a ≠ .vault sale)
    (ht : st.tokens.find? a = some t) :
    ∃ held, t.amount ≤ held ∧ receipt.state.tokens.find? a = some { t with amount := held } := by
  rw [w.state_eq]
  show ∃ held, t.amount ≤ held ∧ w.moved.tokens.find? a = _
  cases hcurrency : w.record.terms.currency with
  | native =>
    rw [pay_tokens (w.payment hcurrency)]
    exact ⟨t.amount, UInt64.le_refl _, ht⟩
  | token mint =>
    obtain ⟨account, htransfer⟩ := w.transfer hcurrency
    exact transferTokens_kept htransfer hne ht

/-! ## Where vaults come from -/

/-- A withdrawal creates no token account. -/
theorem Withdrawal.origin {amount : UInt64}
    (w : Withdrawal st signer sale recipient parties amount receipt) {t : TokenAccount}
    (ht : receipt.state.tokens.find? a = some t) :
    ∃ old, st.tokens.find? a = some old ∧ old.mint = t.mint ∧ old.owner = t.owner := by
  have hmoved := w.moved_eq
  rw [w.state_eq] at ht
  cases hcur : w.record.terms.currency with
  | native =>
    rw [hcur] at hmoved
    have htokens : w.moved.tokens = st.tokens := pay_tokens (withdrawCoins_eq_ok.mp hmoved)
    exact ⟨t, htokens ▸ ht, rfl, rfl⟩
  | token mint =>
    rw [hcur] at hmoved
    obtain ⟨account, vault, paid, -, -, -, htransfer⟩ := withdrawTokens_eq_ok.mp hmoved
    exact transferTokens_origin htransfer ht

/-- Every token account after an instruction was there before, unless it is a vault that was opened.
-/
theorem Accepted.tokens_origin {i : Instruction} (h : st.Accepted signer i receipt)
    {t : TokenAccount} (ht : receipt.state.tokens.find? a = some t) :
    (∃ old, st.tokens.find? a = some old ∧ old.mint = t.mint ∧ old.owner = t.owner) ∨
      ∃ sale vault mint, Nonempty (VaultOpening st signer sale vault mint receipt) ∧
        a = .vault sale ∧ t = ⟨mint, sale, 0⟩ := by
  cases h with
  | openSale o =>
    rw [o.tokens_eq] at ht
    exact .inl ⟨t, ht, rfl, rfl⟩
  | @openVault sale vault mint receipt o =>
    rw [o.tokens_eq, Registry.find?_set] at ht
    split at ht
    · next ha =>
      exact .inr ⟨sale, vault, mint, ⟨o⟩, ha, (Option.some.inj ht).symm⟩
    · exact .inl ⟨t, ht, rfl, rfl⟩
  | calculate hstate =>
    rw [hstate] at ht
    exact .inl ⟨t, ht, rfl, rfl⟩
  | mint p =>
    obtain ⟨hprepared, -⟩ := withLedger_effect p.mid_eq
    rw [p.state_eq] at ht
    exact .inl (hprepared.tokens ▸ collect_origin p.collected_eq ht)
  | mintFor p =>
    obtain ⟨hprepared, -⟩ := withLedger_effect p.mid_eq
    rw [p.state_eq] at ht
    exact .inl (hprepared.tokens ▸ collect_origin p.collected_eq ht)
  | burn b =>
    rw [b.state_eq] at ht
    exact .inl ⟨t, ht, rfl, rfl⟩
  | withdraw w => exact .inl (w.origin ht)
  | royaltyInfo hstate =>
    rw [hstate] at ht
    exact .inl ⟨t, ht, rfl, rfl⟩
  | commit r =>
    obtain ⟨hprepared, -⟩ := withCommitment_effect r.mid_eq
    rw [r.state_eq] at ht
    exact .inl (hprepared.tokens ▸ collect_origin r.collected_eq ht)
  | startReveal w =>
    rw [w.state_eq] at ht
    exact .inl ⟨t, ht, rfl, rfl⟩
  | reveal r =>
    rw [r.state_eq] at ht
    exact .inl ⟨t, ht, rfl, rfl⟩
  | revealIds d =>
    rw [d.state_eq] at ht
    exact .inl ⟨t, ht, rfl, rfl⟩
  | claimReserved c =>
    obtain ⟨hprepared, -⟩ := withLedger_effect c.mid_eq
    rw [c.state_eq] at ht
    exact .inl ⟨t, hprepared.tokens ▸ ht, rfl, rfl⟩

theorem Turn.terms_eq {record record' : Sale} {draw draw' : Shuffle}
    (h : Turn st signer receipt sale record draw record' draw') : record'.terms = record.terms := by
  cases h <;> rfl

/-- A sale that exists is still there after an instruction, with the same terms. -/
theorem Accepted.terms_kept {i : Instruction} (h : st.Accepted signer i receipt)
    (hsound : st.books.Sound) {record : Sale} (hrecord : st.books.sales.find? sale = some record) :
    ∃ record', receipt.state.books.sales.find? sale = some record' ∧
      record'.terms = record.terms := by
  obtain ⟨draw, hdraw, -⟩ := hsound.balanced sale record hrecord
  obtain ⟨record', draw', hrecord', -, hturn⟩ := h.turn hrecord hdraw
  exact ⟨record', hrecord', hturn.terms_eq⟩

theorem Accepted.vaulted {i : Instruction} (h : st.Accepted signer i receipt)
    (hsound : st.books.Sound) (hvaulted : st.Vaulted) : receipt.state.Vaulted where
  derived := by
    intro s record hrecord
    rcases h.known_or_opened hrecord with ⟨old, hold⟩ | ⟨shuffle, number, config, ⟨o⟩⟩
    · exact hvaulted.derived s old hold
    · rw [o.sale_eq]
      exact not_isKey_sale _ _
  vaults := by
    intro a t ha ht
    -- an account at a derived address is a vault from before or the one just opened
    rcases h.tokens_origin ht with ⟨old, hold, hmint, howner⟩ | ⟨sale, vault, mint, ⟨o⟩, rfl, rfl⟩
    · obtain ⟨hvault, record, hrecord, hcurrency⟩ := hvaulted.vaults a old ha hold
      obtain ⟨record', hrecord', hterms⟩ := h.terms_kept hsound hrecord
      rw [howner] at hvault hrecord'
      rw [hmint, ← hterms] at hcurrency
      exact ⟨hvault, record', hrecord', hcurrency⟩
    · rw [o.books_eq]
      exact ⟨rfl, _, Registry.find?_set_self _ _ _, o.currency⟩

end State

theorem vaulted_of_run {start st : State} {trace : List Entry} (hfresh : start.Fresh)
    (h : Run start trace st) : st.Vaulted := by
  refine Run.invariant (P := fun _ st => st.Vaulted) ?_ ?_ ?_ h
  · exact {
      derived := fun _ _ hr => by rw [hfresh.books_eq] at hr; cases hr
      vaults := fun a t ha ht => absurd (hfresh.tokens_key a t ht) ha }
  · intro trace e hrun hvaulted
    exact e.accepted_case.vaulted (sound_of_run hfresh hrun) hvaulted
  · intro trace st st' hout hvaulted
    refine { derived := ?_, vaults := ?_ }
    · rw [hout.books_eq]
      exact hvaulted.derived
    · intro a t ha ht
      rw [hout.books_eq]
      -- the world may fill a vault, but it changes neither its owner nor its mint
      cases hold : st.tokens.find? a with
      | none =>
        rw [hout.tokens_none a ha hold] at ht
        cases ht
      | some old =>
        obtain ⟨amount, -, hkept⟩ := hout.tokens_kept a old ha hold
        obtain rfl : { old with amount := amount } = t := Registry.eq_of_find? hkept ht
        exact hvaulted.vaults a old ha hold

end UnitSale
