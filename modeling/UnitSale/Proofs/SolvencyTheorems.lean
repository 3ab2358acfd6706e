import UnitSale.Proofs.Funds

/-!
# Solvency

Counters of money and real balances are written by different code. Along every run what a sale has
counted as paid and not as withdrawn is there: in its account, on top of what the account held when
the sale was opened, or in its vault. So a withdrawal of what is payable never finds too little.
-/

namespace UnitSale

open State

/-- What a sale has been paid and has not withdrawn is there. -/
structure Solvent (created : UInt64) (sale : Address) (record : Sale) (st : State) : Prop where
  withdrawn_le : record.amountWithdrawn.toNat ≤ record.amountPaid.toNat
  coins : record.terms.currency = .native → created.toNat + record.amountPaid.toNat
    ≤ (st.balance sale).toNat + record.amountWithdrawn.toNat
  tokens : ∀ mint, record.terms.currency = .token mint → record.amountPaid ≠ 0 →
    ∃ t, st.tokens.find? (.vault sale) = some t ∧
      record.amountPaid.toNat ≤ t.amount.toNat + record.amountWithdrawn.toNat

/-- The account and the vault of a sale lose nothing. -/
structure Keeps (sale : Address) (st st' : State) : Prop where
  balance_le : st.balance sale ≤ st'.balance sale
  vault_kept : ∀ t, st.tokens.find? (.vault sale) = some t →
    ∃ amount, t.amount ≤ amount ∧ st'.tokens.find? (.vault sale) = some { t with amount := amount }

theorem State.Secure.keeps {st st' : State} {sale : Address} (h : Secure st st')
    (hsale : ¬ sale.IsKey) : Keeps sale st st' where
  balance_le := h.balance_le sale hsale
  vault_kept := fun t ht => h.tokens_kept _ t (not_isKey_vault sale) ht

namespace Solvent

variable {created cost : UInt64} {sale payer : Address} {record record' : Sale}
  {st st' mid collected : State} {parties : TokenParties}

theorem opened {owner : Address} {number : UInt64} {config : SaleConfig} {depth : UInt16} :
    Solvent (st.balance sale) sale (openedSale owner number config depth) st where
  withdrawn_le := Nat.le_refl _
  coins := fun _ => Nat.le_refl _
  tokens := fun _ _ hpaid => absurd rfl hpaid

/-- A sale stays solvent while its counters stay and its accounts lose nothing. -/
theorem of_keeps (h : Solvent created sale record st) (hkeeps : Keeps sale st st')
    (hterms : record'.terms = record.terms) (hpaid : record'.amountPaid = record.amountPaid)
    (hwithdrawn : record'.amountWithdrawn = record.amountWithdrawn) :
    Solvent created sale record' st' where
  withdrawn_le := by
    rw [hpaid, hwithdrawn]
    exact h.withdrawn_le
  coins := by
    intro hcurrency
    rw [hterms] at hcurrency
    have hcoins := h.coins hcurrency
    have hle := UInt64.le_iff_toNat_le.mp hkeeps.balance_le
    rw [hpaid, hwithdrawn]
    omega
  tokens := by
    intro mint hcurrency hsome
    rw [hterms] at hcurrency
    rw [hpaid] at hsome
    obtain ⟨t, ht, hcovered⟩ := h.tokens mint hcurrency hsome
    obtain ⟨amount, hle, hkept⟩ := hkeeps.vault_kept t ht
    rw [UInt64.le_iff_toNat_le] at hle
    refine ⟨_, hkept, ?_⟩
    rw [hpaid, hwithdrawn]
    show record.amountPaid.toNat ≤ amount.toNat + record.amountWithdrawn.toNat
    omega

/-- A payment in tokens leaves a vault that has it on top of what was paid before. -/
theorem vault_of_collect {mint : Address} (h : Solvent created sale record st)
    (hvaulted : st.Vaulted) (hkey : payer.IsKey) (htokens : mid.tokens = st.tokens)
    (hcurrency : record.terms.currency = .token mint)
    (hcollected : mid.collect sale (.token mint) payer parties cost = .ok collected)
    (hcheck : parties.checkVault sale = .ok ())
    (hsome : record.amountPaid.toNat + cost.toNat ≠ 0) :
    ∃ t, collected.tokens.find? (.vault sale) = some t ∧
      record.amountPaid.toNat + cost.toNat ≤ t.amount.toNat + record.amountWithdrawn.toNat := by
  by_cases hcost : cost = 0
  · -- nothing was collected, so something had been paid before
    have hzero : record.amountPaid ≠ 0 := by
      intro heq
      rw [heq, hcost] at hsome
      exact hsome rfl
    obtain ⟨t, ht, hcovered⟩ := h.tokens mint hcurrency hzero
    rcases collect_eq_ok.mp hcollected with ⟨-, rfl⟩ | ⟨hne, -⟩
    · rw [htokens, hcost]
      exact ⟨t, ht, hcovered⟩
    · exact absurd hcost hne
  · obtain ⟨t, held, ht, hheld, hfound⟩ := collect_token hcollected hcheck hcost
      (fun t ht => hvaulted.owner_ne hkey htokens _ t (not_isKey_vault sale) ht)
    refine ⟨_, hfound, ?_⟩
    show record.amountPaid.toNat + cost.toNat ≤ held.toNat + record.amountWithdrawn.toNat
    by_cases hzero : record.amountPaid = 0
    · rw [hzero]
      show 0 + cost.toNat ≤ _
      omega
    · obtain ⟨t', ht', hcovered⟩ := h.tokens mint hcurrency hzero
      rw [htokens] at ht
      obtain rfl : t' = t := Registry.eq_of_find? ht' ht
      omega

/-- A sale stays solvent when it collects a payment and counts it. -/
theorem collect (h : Solvent created sale record st) (hvaulted : st.Vaulted) (hkey : payer.IsKey)
    (hsale : ¬ sale.IsKey) (hprepared : Prepared st payer mid)
    (hcollected : mid.collect sale record.terms.currency payer parties cost = .ok collected)
    (hcheck : parties.checkVault sale = .ok ()) (hcoins : st'.coins = collected.coins)
    (htokens : st'.tokens = collected.tokens) (hterms : record'.terms = record.terms)
    (hpaid : record.amountPaid.toNat + cost.toNat = record'.amountPaid.toNat)
    (hwithdrawn : record'.amountWithdrawn = record.amountWithdrawn) :
    Solvent created sale record' st' where
  withdrawn_le := by
    have hle := h.withdrawn_le
    rw [hwithdrawn]
    omega
  coins := by
    intro hcurrency
    rw [hterms] at hcurrency
    have hne : sale ≠ payer := fun heq => hsale (heq ▸ hkey)
    have hbefore := h.coins hcurrency
    have hmid := UInt64.le_iff_toNat_le.mp (hprepared.balance_le sale hne)
    rw [hcurrency] at hcollected
    have hbalance := collect_native hcollected hne
    have hlast : st'.balance sale = collected.balance sale := by
      unfold balance
      rw [hcoins]
    rw [hlast, hwithdrawn]
    omega
  tokens := by
    intro mint hcurrency hsome
    rw [hterms] at hcurrency
    rw [hcurrency] at hcollected
    rw [htokens, hwithdrawn, ← hpaid]
    refine h.vault_of_collect hvaulted hkey hprepared.tokens hcurrency hcollected hcheck ?_
    rw [hpaid]
    exact fun hzero => hsome (UInt64.toNat_inj.mp hzero)

end Solvent

/-! ## Instructions -/

section Instructions

variable {created : UInt64} {st : State} {signer : Signer} {receipt : Receipt}
  {sale shuffle ledger commitment recipient : Address} {parties : TokenParties}

theorem State.Purchase.solvent {who : Buyer} {request : MintRequest}
    (p : Purchase st signer who sale ledger recipient request parties receipt)
    (h : Solvent created sale p.record st) (hvaulted : st.Vaulted) (hkey : signer.address.IsKey) :
    Solvent created sale
      { p.record with allocated := p.allocated, totalMinted := p.minted, amountPaid := p.paid }
      receipt.state := by
  obtain ⟨hprepared, -⟩ := withLedger_effect p.mid_eq
  refine h.collect hvaulted hkey (hvaulted.derived _ _ p.loaded) hprepared p.collected_eq p.vault_ok
    ?_ ?_ rfl p.paid_eq rfl
  · rw [p.state_eq]
    rfl
  · rw [p.state_eq]
    rfl

theorem State.Reservation.solvent {brought : Option Address} {hash : Bytes32}
    {units maximumPrice : UInt64}
    (r : Reservation st signer sale shuffle commitment brought hash units maximumPrice parties
      receipt) (h : Solvent created sale r.record st) (hvaulted : st.Vaulted)
    (hkey : signer.address.IsKey) :
    Solvent created sale { r.record with allocated := r.allocated, amountPaid := r.paid }
      receipt.state := by
  obtain ⟨hprepared, -⟩ := withCommitment_effect r.mid_eq
  refine h.collect hvaulted hkey (hvaulted.derived _ _ r.loaded) hprepared r.collected_eq r.vault_ok
    ?_ ?_ rfl r.paid_eq rfl
  · rw [r.state_eq]
    rfl
  · rw [r.state_eq]
    rfl

/-- A sale stays solvent when it pays out what is payable. -/
theorem State.Withdrawal.solvent {amount : UInt64}
    (w : Withdrawal st signer sale recipient parties amount receipt)
    (h : Solvent created sale w.record st) :
    Solvent created sale { w.record with amountWithdrawn := w.withdrawn } receipt.state := by
  have hle := h.withdrawn_le
  have hwithdrawn := w.withdrawn_eq
  have hpayable := UInt64.le_iff_toNat_le.mp w.payable
  rw [Sale.toNat_amountPayable] at hpayable
  refine { withdrawn_le := ?_, coins := ?_, tokens := ?_ }
  · show w.withdrawn.toNat ≤ w.record.amountPaid.toNat
    omega
  · intro hcurrency
    have hbefore := h.coins hcurrency
    -- what the account loses is what is counted as withdrawn
    have hbalance := pay_balance_source (w.payment hcurrency)
    rw [w.state_eq]
    show created.toNat + w.record.amountPaid.toNat
      ≤ (w.moved.balance sale).toNat + w.withdrawn.toNat
    omega
  · intro mint hcurrency hsome
    obtain ⟨t, ht, hcovered⟩ := h.tokens mint hcurrency hsome
    obtain ⟨account, htransfer⟩ := w.transfer hcurrency
    obtain ⟨left, hleft, hfound⟩ := transferTokens_source htransfer ht
    rw [w.state_eq]
    refine ⟨_, hfound, ?_⟩
    show w.record.amountPaid.toNat ≤ left.toNat + w.withdrawn.toNat
    omega

/-- A withdrawal in coins leaves the account of a solvent sale at what it held at its opening. -/
theorem State.Withdrawal.created_le {amount : UInt64}
    (w : Withdrawal st signer sale recipient parties amount receipt)
    (h : Solvent created sale w.record st) (hcurrency : w.record.terms.currency = .native) :
    created ≤ receipt.state.balance sale := by
  have hsolvent := w.solvent h
  have hcoins := hsolvent.coins hcurrency
  have hwithdrawn := hsolvent.withdrawn_le
  rw [UInt64.le_iff_toNat_le]
  dsimp only at hcoins hwithdrawn
  omega

/-- A withdrawal takes nothing from other sales. -/
theorem State.Withdrawal.keeps {amount : UInt64} {other : Address}
    (w : Withdrawal st signer sale recipient parties amount receipt) (hne : other ≠ sale) :
    Keeps other st receipt.state where
  balance_le := w.balance_le hne
  vault_kept := fun t ht => w.tokens_kept (by simpa using hne) ht

theorem State.Accepted.solvent {i : Instruction} (h : st.Accepted signer i receipt)
    (hsound : st.books.Sound) (hvaulted : st.Vaulted) (hkey : signer.address.IsKey)
    {record : Sale} (hrecord : st.books.sales.find? sale = some record)
    (hsolvent : Solvent created sale record st) :
    ∃ record', receipt.state.books.sales.find? sale = some record' ∧
      Solvent created sale record' receipt.state := by
  have hsale := hvaulted.derived sale record hrecord
  -- a withdrawal debits one sale; nothing else debits any, so its counters are all that moves
  rcases h.secure_or_withdrawal hvaulted hkey with hsecure | ⟨target, _, _, _, ⟨w⟩⟩
  · obtain ⟨draw, hdraw, -⟩ := hsound.balanced sale record hrecord
    obtain ⟨record', draw', hrecord', -, hturn⟩ := h.turn hrecord hdraw
    have hkeeps := hsecure.keeps hsale
    refine ⟨record', hrecord', ?_⟩
    cases hturn with
    | keeps => exact hsolvent.of_keeps hkeeps rfl rfl rfl
    | opensVault => exact hsolvent.of_keeps hkeeps rfl rfl rfl
    | sells p heq =>
      subst heq
      exact p.solvent hsolvent hvaulted hkey
    | burns => exact hsolvent.of_keeps hkeeps rfl rfl rfl
    | paysOut w heq =>
      subst heq
      exact w.solvent hsolvent
    | reserves r heq =>
      subst heq
      exact r.solvent hsolvent hvaulted hkey
    | opensWindow => exact hsolvent.of_keeps hkeeps rfl rfl rfl
    | reveals => exact hsolvent.of_keeps hkeeps rfl rfl rfl
    | draws => exact hsolvent.of_keeps hkeeps rfl rfl rfl
    | handsOut => exact hsolvent.of_keeps hkeeps rfl rfl rfl
  · rw [w.books_eq]
    by_cases hs : sale = target
    · subst hs
      obtain rfl : w.record = record := Registry.eq_of_find? w.loaded hrecord
      exact ⟨_, Registry.find?_set_self _ _ _, w.solvent hsolvent⟩
    · refine ⟨record, ?_, hsolvent.of_keeps (w.keeps hs) rfl rfl rfl⟩
      exact (Registry.find?_set_of_ne _ hs _).trans hrecord

end Instructions

/-! ## Withdrawals that have to go through -/

section Withdrawals

variable {st : State} {sale recipient mint target : Address} {record : Sale}
  {parties : TokenParties} {amount : UInt64}

/-- Coins that the sale's account has leave it, unless the recipient can hold no more. -/
theorem State.withdrawCoins_cases (h : amount ≤ st.balance sale) (recipient : Address) :
    (∃ moved, st.withdrawCoins sale recipient amount = .ok moved) ∨
      st.withdrawCoins sale recipient amount = .error (.sale .overflow) ∧ recipient ≠ sale ∧
        UInt64.size ≤ (st.balance recipient).toNat + amount.toNat := by
  have hleft : Checked.sub (st.balance sale) amount = some (st.balance sale - amount) := by
    rw [Checked.sub, if_pos h]
  have hle := UInt64.le_iff_toNat_le.mp h
  have hlt := (st.balance sale).toNat_lt
  have hsub := UInt64.toNat_sub_of_le _ _ h
  simp only [withdrawCoins, hleft, demand, pure_bind]
  rw [balance_setBalance, Checked.add]
  by_cases hr : recipient = sale
  · left
    rw [if_pos hr, if_pos (by rw [hsub, Nat.sub_add_cancel hle]; exact hlt)]
    exact ⟨_, rfl⟩
  · rw [if_neg hr]
    by_cases hfits : (st.balance recipient).toNat + amount.toNat < UInt64.size
    · rw [if_pos hfits]
      exact .inl ⟨_, rfl⟩
    · rw [if_neg hfits]
      exact .inr ⟨rfl, hr, Nat.le_of_not_lt hfits⟩

/-- Tokens that the vault has leave it, unless the target can hold no more. -/
theorem State.withdrawTokens_cases {vault paid : TokenAccount}
    (hvault : st.tokens.find? (.vault sale) = some vault) (howner : vault.owner = sale)
    (hmint : vault.mint = mint) (hle : amount ≤ vault.amount)
    (hpaid : st.tokens.find? target = some paid) (hrecipient : paid.owner = recipient)
    (hpaidMint : paid.mint = mint) :
    (∃ moved, st.withdrawTokens sale mint recipient
        ⟨some target, some (.vault sale), some mint, true⟩ amount = .ok moved) ∨
      st.withdrawTokens sale mint recipient ⟨some target, some (.vault sale), some mint, true⟩ amount
        = .error (.custom 14) ∧ UInt64.size ≤ paid.amount.toNat + amount.toNat := by
  have hleft : Checked.sub vault.amount amount = some (vault.amount - amount) := by
    rw [Checked.sub, if_pos hle]
  simp only [withdrawTokens, TokenParties.complete, ok_bind, load_eq_ok.mpr hpaid,
    require_of _ hrecipient, transferTokens, load_eq_ok.mpr hvault,
    require_of _ hle, require_of _ (hmint.trans hpaidMint.symm), require_of _ howner.symm, hleft]
  by_cases hsame : Address.vault sale = target
  · rw [if_pos hsame]
    exact .inl ⟨_, rfl⟩
  · rw [if_neg hsame, Checked.add]
    by_cases hfits : paid.amount.toNat + amount.toNat < UInt64.size
    · rw [if_pos hfits]
      exact .inl ⟨_, rfl⟩
    · rw [if_neg hfits]
      exact .inr ⟨rfl, Nat.le_of_not_lt hfits⟩

/-- A withdrawal by the owner of what is payable comes down to moving the money. -/
theorem State.withdraw_eq (hload : st.sales.find? sale = some record)
    (hbrought : parties.load st = .ok ()) (hcheck : parties.checkVault sale = .ok ())
    (hpos : 0 < amount) (hpayable : amount ≤ record.amountPayable) :
    ∃ withdrawn : UInt64, st.withdraw ⟨record.terms.owner, true⟩ sale record.terms.recipient parties
        amount
      = (match record.terms.currency with
        | .native => st.withdrawCoins sale record.terms.recipient amount
        | .token mint => st.withdrawTokens sale mint record.terms.recipient parties amount)
        >>= fun moved => .ok ⟨moved.setSale sale { record with amountWithdrawn := withdrawn }, .none,
          [.withdrew amount record.terms.recipient],
          [.fundsWithdrawn sale record.terms.recipient amount]⟩ := by
  have hle := UInt64.le_iff_toNat_le.mp hpayable
  have hposNat := UInt64.lt_iff_toNat_lt.mp hpos
  have hlt := record.amountPaid.toNat_lt
  rw [Sale.toNat_amountPayable] at hle
  -- something is payable, so what is withdrawn stays below what is paid
  have hzero : (0 : UInt64).toNat = 0 := rfl
  have hsum : record.amountWithdrawn.toNat + amount.toNat
      = (record.amountWithdrawn + amount).toNat := by
    rw [UInt64.toNat_add, Nat.mod_eq_of_lt (by omega)]
  have hcounted := Sale.attempt_recordWithdrawal.mpr ⟨hpayable, _, hsum, rfl⟩
  refine ⟨record.amountWithdrawn + amount, ?_⟩
  simp only [withdraw, load_eq_ok.mpr hload, ok_bind, Signer.verified, if_true, hbrought, hcheck,
    require_of _ hpos, ruled_eq_ok.mpr hcounted]
  cases record.terms.currency <;> rfl

end Withdrawals

/-! ## Runs -/

theorem solvent_of_run {start mid st : State} {trace later : List Entry} {call : Call}
    {receipt : Receipt} {sale shuffle : Address} {number : UInt64} {config : SaleConfig}
    (hfresh : start.Fresh) (hbefore : Run start trace mid) (hopen : mid.execute call = .ok receipt)
    (hcall : call.instruction = .openSale sale shuffle number config)
    (hlater : Run receipt.state later st) :
    ∃ record, st.books.sales.find? sale = some record ∧
      Solvent (receipt.state.balance sale) sale record st := by
  have hopened := hbefore.accepted ⟨mid, call, receipt, hopen⟩
  have haccepted := State.accepted_of_run hopen
  rw [hcall] at haccepted
  cases haccepted with | openSale o => ?_
  have hsale : ¬ sale.IsKey := by
    rw [o.sale_eq]
    exact not_isKey_sale _ _
  -- the run is taken up at the opening, which fixes the balance to be kept
  refine Run.invariant (P := fun _ st => ∃ record, st.books.sales.find? sale = some record ∧
    Solvent (receipt.state.balance sale) sale record st) ?_ ?_ ?_ hlater
  · refine ⟨openedSale call.signer.address number config o.depth, ?_, .opened⟩
    rw [o.books_eq]
    exact Registry.find?_set_self _ _ _
  · intro trace' e hrun hbooks
    obtain ⟨record, hrecord, hsolvent⟩ := hbooks
    have hwhole := hopened.trans hrun
    exact e.accepted_case.solvent (sound_of_run hfresh hwhole) (vaulted_of_run hfresh hwhole)
      ⟨e.call.key, rfl⟩ hrecord hsolvent
  · intro trace' st st' hout hbooks
    obtain ⟨record, hrecord, hsolvent⟩ := hbooks
    rw [← hout.books_eq] at hrecord
    exact ⟨record, hrecord, hsolvent.of_keeps (hout.toSecure.keeps hsale) rfl rfl rfl⟩

/-- The vault of a solvent sale that was paid in tokens, with all that is known of it. -/
theorem Solvent.vault {created : UInt64} {sale mint : Address} {record : Sale} {st : State}
    (h : Solvent created sale record st) (hvaulted : st.Vaulted)
    (hrecord : st.books.sales.find? sale = some record)
    (hcurrency : record.terms.currency = .token mint) (hsome : record.amountPaid ≠ 0) :
    ∃ vault, st.tokens.find? (.vault sale) = some vault ∧ vault.mint = mint ∧ vault.owner = sale ∧
      record.amountPaid.toNat ≤ vault.amount.toNat + record.amountWithdrawn.toNat := by
  obtain ⟨vault, hvault, hcovered⟩ := h.tokens mint hcurrency hsome
  obtain ⟨haddress, record', hrecord', hcurrency'⟩ :=
    hvaulted.vaults _ vault (not_isKey_vault sale) hvault
  have howner : vault.owner = sale := by simpa using haddress.symm
  rw [howner] at hrecord'
  obtain rfl : record = record' := Registry.eq_of_find? hrecord hrecord'
  have hmint : mint = vault.mint := by simpa using hcurrency.symm.trans hcurrency'
  exact ⟨vault, hvault, hmint.symm, howner, hcovered⟩

/-- Where the owner of a solvent sale in coins withdraws what is payable, the sale's account has it.
-/
theorem Solvent.withdraw_native {created amount : UInt64} {sale : Address} {record : Sale}
    {st : State} {parties : TokenParties} (h : Solvent created sale record st)
    (hrecord : st.sales.find? sale = some record) (hcurrency : record.terms.currency = .native)
    (hbrought : parties.load st = .ok ()) (hcheck : parties.checkVault sale = .ok ())
    (hpos : 0 < amount) (hpayable : amount ≤ record.amountPayable) :
    (∃ result, st.withdraw ⟨record.terms.owner, true⟩ sale record.terms.recipient parties amount
        = .ok result ∧ created ≤ result.state.balance sale) ∨
      st.withdraw ⟨record.terms.owner, true⟩ sale record.terms.recipient parties amount
          = .error (.sale .overflow) ∧ record.terms.recipient ≠ sale ∧
        UInt64.size ≤ (st.balance record.terms.recipient).toNat + amount.toNat := by
  have hwithdrawn := h.withdrawn_le
  have hcoins := h.coins hcurrency
  have hle := UInt64.le_iff_toNat_le.mp hpayable
  rw [Sale.toNat_amountPayable] at hle
  have henough : amount ≤ st.balance sale := by
    rw [UInt64.le_iff_toNat_le]
    omega
  obtain ⟨withdrawn, heq⟩ := withdraw_eq hrecord hbrought hcheck hpos hpayable
  rw [hcurrency] at heq
  rcases withdrawCoins_cases henough record.terms.recipient with
    ⟨moved, hmoved⟩ | ⟨herror, hne, hfull⟩
  · left
    simp only [hmoved, ok_bind] at heq
    refine ⟨_, heq, ?_⟩
    obtain ⟨w⟩ := withdraw_ok heq
    have hsame : record = w.record := Registry.eq_of_find? hrecord w.loaded
    exact w.created_le (hsame ▸ h) (hsame ▸ hcurrency)
  · right
    refine ⟨?_, hne, hfull⟩
    rw [heq]
    simp only [herror]
    rfl

/-- Where the owner of a solvent sale in tokens withdraws what is payable, the vault has it. -/
theorem Solvent.withdraw_token {created amount : UInt64} {sale mint target : Address}
    {record : Sale} {st : State} {paid : TokenAccount} (h : Solvent created sale record st)
    (hvaulted : st.Vaulted) (hrecord : st.sales.find? sale = some record)
    (hcurrency : record.terms.currency = .token mint) (hmint : mint ∈ st.mints)
    (hpaid : st.tokens.find? target = some paid) (howner : paid.owner = record.terms.recipient)
    (hpaidMint : paid.mint = mint) (hpos : 0 < amount) (hpayable : amount ≤ record.amountPayable) :
    (∃ result, st.withdraw ⟨record.terms.owner, true⟩ sale record.terms.recipient
        ⟨some target, some (.vault sale), some mint, true⟩ amount = .ok result) ∨
      st.withdraw ⟨record.terms.owner, true⟩ sale record.terms.recipient
          ⟨some target, some (.vault sale), some mint, true⟩ amount = .error (.custom 14) ∧
        UInt64.size ≤ paid.amount.toNat + amount.toNat := by
  have hposNat := UInt64.lt_iff_toNat_lt.mp hpos
  have hle := UInt64.le_iff_toNat_le.mp hpayable
  rw [Sale.toNat_amountPayable] at hle
  -- something is payable, so something has been paid and the vault is there
  have hsome : record.amountPaid ≠ 0 := by
    intro hzero
    have hzeroNat : record.amountPaid.toNat = 0 := by
      rw [hzero]
      rfl
    have hnone : (0 : UInt64).toNat = 0 := rfl
    omega
  obtain ⟨vault, hvault, hvaultMint, hvaultOwner, hcovered⟩ :=
    h.vault hvaulted hrecord hcurrency hsome
  have henough : amount ≤ vault.amount := by
    rw [UInt64.le_iff_toNat_le]
    omega
  have hbrought : TokenParties.load ⟨some target, some (.vault sale), some mint, true⟩ st
      = .ok () := by
    simp [TokenParties.load, Registry.contains, hpaid, hvault, hmint, require_of]
  obtain ⟨withdrawn, heq⟩ := withdraw_eq hrecord hbrought (checkSeeds_eq_ok.mpr rfl) hpos hpayable
  rw [heq, hcurrency]
  rcases withdrawTokens_cases hvault hvaultOwner hvaultMint henough hpaid howner hpaidMint with
    ⟨moved, hmoved⟩ | ⟨herror, hfull⟩
  · simp only [hmoved, ok_bind]
    exact .inl ⟨_, rfl⟩
  · simp only [herror]
    exact .inr ⟨rfl, hfull⟩

/-- After every run from the opening of a sale: no more is withdrawn than was paid; a sale in coins
holds what it held at its opening and what is payable; a sale in tokens that was paid anything has a
vault that holds what is payable. A withdrawal by the owner of what is payable, to the recipient of
the sale, leaves the account at or above what it held at its opening, and is refused only where the
receiving account can hold no more. -/
theorem treasury_solvent {start mid st : State} {trace later : List Entry} {call : Call}
    {receipt : Receipt} {sale shuffle : Address} {number : UInt64} {config : SaleConfig}
    (hfresh : start.Fresh) (hbefore : Run start trace mid) (hopen : mid.execute call = .ok receipt)
    (hcall : call.instruction = .openSale sale shuffle number config)
    (hlater : Run receipt.state later st) :
    ∃ record, st.sales.find? sale = some record ∧
      record.amountWithdrawn ≤ record.amountPaid ∧
      (record.terms.currency = .native → (receipt.state.balance sale).toNat
        + (record.amountPaid.toNat - record.amountWithdrawn.toNat) ≤ (st.balance sale).toNat) ∧
      (∀ mint, record.terms.currency = .token mint → record.amountPaid ≠ 0 →
        ∃ vault, st.tokens.find? (.vault sale) = some vault ∧ vault.mint = mint ∧
          vault.owner = sale ∧
            record.amountPaid.toNat - record.amountWithdrawn.toNat ≤ vault.amount.toNat) ∧
      ∀ amount, 0 < amount → amount ≤ record.amountPayable →
        (∀ parties : TokenParties, record.terms.currency = .native → parties.load st = .ok () →
          parties.checkVault sale = .ok () →
            (∃ result, st.withdraw ⟨record.terms.owner, true⟩ sale record.terms.recipient parties
                amount = .ok result ∧ receipt.state.balance sale ≤ result.state.balance sale) ∨
              st.withdraw ⟨record.terms.owner, true⟩ sale record.terms.recipient parties amount
                  = .error (.sale .overflow) ∧ record.terms.recipient ≠ sale ∧
                UInt64.size ≤ (st.balance record.terms.recipient).toNat + amount.toNat) ∧
        (∀ mint target paid, record.terms.currency = .token mint → mint ∈ st.mints →
          st.tokens.find? target = some paid → paid.owner = record.terms.recipient →
          paid.mint = mint →
            (∃ result, st.withdraw ⟨record.terms.owner, true⟩ sale record.terms.recipient
                ⟨some target, some (.vault sale), some mint, true⟩ amount = .ok result) ∨
              st.withdraw ⟨record.terms.owner, true⟩ sale record.terms.recipient
                  ⟨some target, some (.vault sale), some mint, true⟩ amount = .error (.custom 14) ∧
                UInt64.size ≤ paid.amount.toNat + amount.toNat) := by
  obtain ⟨record, hrecord, hsolvent⟩ := solvent_of_run hfresh hbefore hopen hcall hlater
  have hwhole := (hbefore.accepted ⟨mid, call, receipt, hopen⟩).trans hlater
  have hvaulted := vaulted_of_run hfresh hwhole
  have hwithdrawn := hsolvent.withdrawn_le
  refine ⟨record, hrecord, UInt64.le_iff_toNat_le.mpr hwithdrawn, ?_, ?_, ?_⟩
  · intro hcurrency
    have hcoins := hsolvent.coins hcurrency
    omega
  · intro mint hcurrency hsome
    obtain ⟨vault, hvault, hmint, howner, hcovered⟩ :=
      hsolvent.vault hvaulted hrecord hcurrency hsome
    exact ⟨vault, hvault, hmint, howner, by omega⟩
  · intro amount hpos hpayable
    refine ⟨?_, ?_⟩
    · intro parties hcurrency hbrought hcheck
      exact hsolvent.withdraw_native hrecord hcurrency hbrought hcheck hpos hpayable
    · intro mint target paid hcurrency hmint hpaid howner hpaidMint
      exact hsolvent.withdraw_token hvaulted hrecord hcurrency hmint hpaid howner hpaidMint hpos
        hpayable

/-- Once the ids of the other sale are drawn, it has been paid seven hundred coins: they are in its
account on top of what was there at its opening, and the owner can withdraw them all. -/
theorem treasury_solvent_drawn :
    ∃ receipt later, Sample.start.execute Sample.cappedOpening = .ok receipt ∧
      Run receipt.state later (Sample.drawn 10) ∧
      (receipt.state.balance Sample.capped).toNat = 549 ∧
      Sample.reservedRecord.amountPaid.toNat - Sample.reservedRecord.amountWithdrawn.toNat = 700 ∧
      549 + 700 ≤ ((Sample.drawn 10).balance Sample.capped).toNat ∧
      ∃ result, (Sample.drawn 10).withdraw ⟨.key Sample.owner, true⟩ Sample.capped
          (.key Sample.owner) .none 700 = .ok result ∧
        receipt.state.balance Sample.capped ≤ result.state.balance Sample.capped := by
  obtain ⟨receipt, later, hopen, hstate, hlater⟩ :=
    Sample.run_cappedOpened (show (10 : Int64) ≤ 60 by decide)
  obtain ⟨record, hrecord, -, hcoins, -, hwithdraw⟩ :=
    treasury_solvent Sample.start_fresh Run.start hopen rfl hlater
  obtain rfl : Sample.reservedRecord = record := Option.some.inj hrecord
  have hopened : (receipt.state.balance Sample.capped).toNat = 549 := by
    rw [hstate]
    decide +kernel
  have hpaid : Sample.reservedRecord.amountPaid.toNat
      - Sample.reservedRecord.amountWithdrawn.toNat = 700 := rfl
  have hheld := hcoins rfl
  rw [hopened, hpaid] at hheld
  refine ⟨receipt, later, hopen, hlater, hopened, hpaid, hheld, ?_⟩
  rcases (hwithdraw 700 (by decide) (by decide)).1 .none rfl rfl rfl with hpays | ⟨-, -, hfull⟩
  · exact hpays
  · -- the owner's account is far from full
    have hroom : ¬ UInt64.size ≤ ((Sample.drawn 10).balance (.key Sample.owner)).toNat + 700 := by
      decide +kernel
    exact absurd hfull hroom

end UnitSale
