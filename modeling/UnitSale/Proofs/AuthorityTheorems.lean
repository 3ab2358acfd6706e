import UnitSale.Proofs.Funds
import UnitSale.Proofs.RecordSteps

/-!
# Who may change what

Whatever accounts a caller brings along, a call that goes through changes only what its signer may
change: owners run their sales, holders and the minters that sales delegate to fill ledgers, buyers
have their own reservations, and money leaves nobody who has not signed for it.
-/

namespace UnitSale

open State

/-! ## Ledgers -/

/-- What the ledger of a holder counts, nothing where there is none. -/
def State.holding (st : State) (sale holder : Address) : Ledger :=
  (st.ledgers.find? (.ledger sale holder)).getD .blank

/-- Whether an instruction mints units for a holder, signed by the minter that the sale has
delegated to. -/
def Instruction.MintsFor (st : State) (signer : Signer) (sale holder : Address) (i : Instruction) :
    Prop :=
  ∃ record delegate ledger request parties, st.sales.find? sale = some record ∧
    record.terms.delegatedMinter = some delegate ∧ signer.Signs delegate ∧
      i = .mintFor sale ledger holder request parties

/-- What an accepted instruction of a signer makes of the ledger of a holder: nothing, something
that the holder has signed for, or more minted units from the delegated minter. -/
inductive LedgerStep (st : State) (signer : Signer) (i : Instruction) (sale holder : Address)
    (before after : Ledger) : Prop
  | keeps : after = before → LedgerStep st signer i sale holder before after
  | own : signer.Signs holder → LedgerStep st signer i sale holder before after
  | delegated : i.MintsFor st signer sale holder → after.burned = before.burned →
      LedgerStep st signer i sale holder before after

section Ledgers

variable {st : State} {signer : Signer} {receipt : Receipt} {i : Instruction}
  {sale ledger holder recipient : Address} {parties : TokenParties}

theorem LedgerStep.of_eq (h : receipt.state.books.ledgers.find? (.ledger sale holder)
      = st.books.ledgers.find? (.ledger sale holder)) :
    LedgerStep st signer i sale holder (st.holding sale holder)
      (receipt.state.holding sale holder) :=
  .keeps (congrArg (fun l => l.getD Ledger.blank) h)

theorem State.holding_of_set {written target : Address} {l : Ledger}
    (hset : receipt.state.books.ledgers = st.ledgers.set (.ledger target written) l) :
    receipt.state.holding sale holder
      = if sale = target ∧ holder = written then l else st.holding sale holder := by
  show (receipt.state.books.ledgers.find? (.ledger sale holder)).getD .blank = _
  rw [hset, Registry.find?_set]
  simp only [Address.ledger.injEq]
  split <;> rfl

/-- Writing a ledger is a step where it is one for its holder. -/
theorem LedgerStep.of_set {written : Address} {l : Ledger}
    (hset : receipt.state.books.ledgers = st.ledgers.set (.ledger sale written) l)
    (hstep : holder = written → LedgerStep st signer i sale holder (st.holding sale holder) l) :
    LedgerStep st signer i sale holder (st.holding sale holder)
      (receipt.state.holding sale holder) := by
  rw [State.holding_of_set hset]
  split
  · next hholder => exact hstep hholder.2
  · exact .keeps rfl

/-- What an accepted instruction makes of any ledger is one of the steps. -/
theorem State.Accepted.ledgerStep (h : st.Accepted signer i receipt) (sale holder : Address) :
    LedgerStep st signer i sale holder (st.holding sale holder)
      (receipt.state.holding sale holder) := by
  by_cases hs : sale = i.sale
  case neg => exact .of_eq (h.beside.ledgers sale hs holder)
  subst hs
  cases h with
  | openSale o => exact .of_eq (by rw [o.books_eq])
  | openVault o => exact .of_eq (by rw [o.books_eq])
  | calculate hstate => exact .of_eq (by rw [hstate])
  | mint p =>
    have hbuyer := p.allowed
    rw [Buyer.check, require_eq_ok] at hbuyer
    refine .of_set (congrArg Books.ledgers p.books_eq) fun hholder => .own ?_
    exact ⟨p.signed, (hholder.trans hbuyer).symm⟩
  | mintFor p =>
    have hdelegate := p.allowed
    rw [Buyer.check, require_eq_ok] at hdelegate
    obtain ⟨-, -, hfound, -⟩ := withLedger_effect p.mid_eq
    refine .of_set (congrArg Books.ledgers p.books_eq) fun hholder => .delegated ?_ ?_
    · rw [hholder]
      exact ⟨_, _, _, _, _, p.loaded, hdelegate, ⟨p.signed, rfl⟩, rfl⟩
    · show (p.found.bind _ _ bump).burned = _
      rw [Ledger.bind_burned, hfound, hholder]
      rfl
  | burn b => exact .of_set (congrArg Books.ledgers b.books_eq) fun h => .own ⟨b.signed, h.symm⟩
  | withdraw w => exact .of_eq (by rw [w.books_eq])
  | royaltyInfo hstate => exact .of_eq (by rw [hstate])
  | commit r => exact .of_eq (by rw [r.books_eq])
  | startReveal w => exact .of_eq (by rw [w.books_eq])
  | reveal r => exact .of_eq (by rw [r.books_eq])
  | revealIds d => exact .of_eq (by rw [d.books_eq])
  | claimReserved c =>
    exact .of_set (congrArg Books.ledgers c.books_eq) fun h => .own ⟨c.signed, h.symm⟩

end Ledgers

/-! ## Sales -/

section Sales

variable {st : State} {signer : Signer} {receipt : Receipt} {i : Instruction} {sale : Address}

/-- What has been withdrawn and the vault of a sale stay, or its owner has signed. -/
theorem State.Accepted.funds_authorized (h : st.Accepted signer i receipt) (hsound : st.books.Sound)
    {record : Sale} (hrecord : st.books.sales.find? sale = some record) :
    ∃ record', receipt.state.books.sales.find? sale = some record' ∧
      (record'.amountWithdrawn = record.amountWithdrawn ∧ record'.vaultBump = record.vaultBump ∨
        signer.Signs record.terms.owner) := by
  obtain ⟨draw, hdraw, -⟩ := hsound.balanced sale record hrecord
  obtain ⟨record', draw', hrecord', -, hturn⟩ := h.turn hrecord hdraw
  refine ⟨record', hrecord', ?_⟩
  cases hturn with
  | opensVault o heq => exact .inr ⟨o.signed, heq ▸ o.owner⟩
  | paysOut w heq => exact .inr ⟨w.signed, heq ▸ w.owner⟩
  | _ => exact .inl ⟨rfl, rfl⟩

/-- A window that is open was open before, or the owner of the sale has signed. -/
theorem State.Accepted.window_authorized (h : st.Accepted signer i receipt) {draw' : Shuffle}
    (hdraw' : receipt.state.draw? sale = some draw') (hphase : draw'.phase = .revealing) :
    (∃ draw, st.draw? sale = some draw ∧ draw.phase = .revealing) ∨
      ∃ record, st.sales.find? sale = some record ∧ signer.Signs record.terms.owner := by
  have hstep := h.drawStep sale
  rw [hdraw'] at hstep
  generalize st.draw? sale = before at hstep ⊢
  cases hstep with
  | keeps => exact .inl ⟨draw', rfl, hphase⟩
  | creates => cases hphase
  | reserves _ _ available =>
    have hlt := Booking.rank_phaseAfterCommit available
    rw [show Booking.phaseAfterCommit available = .revealing from hphase] at hlt
    exact absurd hlt (Nat.lt_irrefl _)
  | opensWindow =>
    cases h with
    | startReveal w => exact .inr ⟨w.record, w.loaded, w.signed, w.owner⟩
  | reveals _ _ hbefore => exact .inl ⟨_, rfl, hbefore⟩
  | draws => cases hphase

end Sales

/-! ## Money -/

section Money

variable {st : State} {signer : Signer} {receipt : Receipt} {i : Instruction} {t : TokenAccount}

theorem State.Accepted.coins_authorized (h : st.Accepted signer i receipt)
    (hvaulted : st.Vaulted) {key : Bytes32}
    (hless : receipt.state.balance (.key key) < st.balance (.key key)) :
    signer.Signs (.key key) := by
  by_contra hnot
  have hle : st.balance (.key key) ≤ receipt.state.balance (.key key) := by
    rcases h.spares_or_withdrawal with hspares | ⟨sale, _, _, _, -, ⟨w⟩⟩
    · exact hspares.balance_le _ hnot
    · -- a withdrawal takes coins from the sale, which is at no key
      refine w.balance_le fun heq => ?_
      exact hvaulted.derived sale _ w.loaded ⟨key, heq.symm⟩
  exact UInt64.not_lt.mpr hle hless

/-- Tokens that leave an ordinary account were signed for by their owner. -/
theorem State.Accepted.tokens_authorized (h : st.Accepted signer i receipt) {key : Bytes32}
    (ht : st.tokens.find? (.key key) = some t) : signer.Signs t.owner ∨
      ∃ amount, t.amount ≤ amount ∧
        receipt.state.tokens.find? (.key key) = some { t with amount := amount } := by
  by_cases hsigns : signer.Signs t.owner
  · exact .inl hsigns
  · right
    rcases h.spares_or_withdrawal with hspares | ⟨sale, _, _, _, -, ⟨w⟩⟩
    · exact hspares.tokens_kept _ t hsigns ht
    · exact w.tokens_kept (by simp) ht

/-- Tokens that leave the vault of a sale are withdrawn by its owner. -/
theorem State.Accepted.vault_authorized (h : st.Accepted signer i receipt)
    (hvaulted : st.Vaulted) (hkey : signer.address.IsKey) {sale : Address}
    (ht : st.tokens.find? (.vault sale) = some t) :
    (∃ amount, t.amount ≤ amount ∧
      receipt.state.tokens.find? (.vault sale) = some { t with amount := amount }) ∨
    ∃ record recipient amount parties, st.sales.find? sale = some record ∧
      signer.Signs record.terms.owner ∧ i = .withdraw sale recipient amount parties := by
  rcases h.spares_or_withdrawal with hspares | ⟨target, _, _, _, hinstruction, ⟨w⟩⟩
  · exact .inl ((hspares.secure hvaulted hkey).tokens_kept _ t (not_isKey_vault sale) ht)
  · by_cases hsale : sale = target
    · subst hsale
      exact .inr ⟨w.record, _, _, _, w.loaded, ⟨w.signed, w.owner⟩, hinstruction⟩
    · exact .inl (w.tokens_kept (by simpa using hsale) ht)

end Money

/-! ## Calls -/

/-- Everything that a call changes, its signer may change. -/
structure Authorized (st : State) (call : Call) (receipt : Receipt) : Prop where
  /-- Only the owner withdraws and opens the vault. -/
  funds : ∀ sale record, st.sales.find? sale = some record →
    ∃ record', receipt.state.sales.find? sale = some record' ∧
      (record'.amountWithdrawn = record.amountWithdrawn ∧ record'.vaultBump = record.vaultBump ∨
        call.signer.Signs record.terms.owner)
  /-- Only the owner opens the reveal window. -/
  window : ∀ sale draw', receipt.state.draw? sale = some draw' → draw'.phase = .revealing →
    (∃ draw, st.draw? sale = some draw ∧ draw.phase = .revealing) ∨
      ∃ record, st.sales.find? sale = some record ∧ call.signer.Signs record.terms.owner
  /-- Only the holder burns. -/
  burned : ∀ sale holder,
    (receipt.state.holding sale holder).burned ≠ (st.holding sale holder).burned →
      call.signer.Signs holder
  /-- Only the holder and the delegated minter of the sale mint. -/
  minted : ∀ sale holder,
    (receipt.state.holding sale holder).minted ≠ (st.holding sale holder).minted →
      call.signer.Signs holder ∨ call.instruction.MintsFor st call.signer sale holder
  /-- Only the buyer reserves, reveals and claims. -/
  reserved : ∀ sale buyer,
    receipt.state.commitment? sale buyer ≠ st.commitment? sale buyer → call.signer.Signs buyer
  /-- Coins of a key leave it only if it has signed. -/
  coins : ∀ key, receipt.state.balance (.key key) < st.balance (.key key) →
    call.signer.Signs (.key key)
  /-- Tokens in an ordinary account leave it only if their owner has signed. -/
  tokens : ∀ key t, st.tokens.find? (.key key) = some t → call.signer.Signs t.owner ∨
    ∃ amount, t.amount ≤ amount ∧
      receipt.state.tokens.find? (.key key) = some { t with amount := amount }
  /-- Tokens leave a vault only by a withdrawal that the owner of the sale has signed. -/
  vault : ∀ sale t, st.tokens.find? (.vault sale) = some t →
    (∃ amount, t.amount ≤ amount ∧
      receipt.state.tokens.find? (.vault sale) = some { t with amount := amount }) ∨
    ∃ record recipient amount parties, st.sales.find? sale = some record ∧
      call.signer.Signs record.terms.owner ∧
        call.instruction = .withdraw sale recipient amount parties

/-- In every state that a run reaches, whatever accounts a caller brings along, a call that goes
through changes only what its signer may change. -/
theorem changes_authorized {start st : State} {trace : List Entry} {call : Call}
    {receipt : Receipt} (hfresh : start.Fresh) (h : Run start trace st)
    (hcall : st.execute call = .ok receipt) : Authorized st call receipt := by
  have haccepted := accepted_of_run hcall
  have hsound := sound_of_run hfresh h
  have hvaulted := vaulted_of_run hfresh h
  refine {
    funds := fun sale record hrecord => haccepted.funds_authorized hsound hrecord
    window := fun sale draw' hdraw' hphase => haccepted.window_authorized hdraw' hphase
    burned := ?_
    minted := ?_
    reserved := ?_
    coins := fun key hless => haccepted.coins_authorized hvaulted hless
    tokens := fun key t ht => haccepted.tokens_authorized ht
    vault := fun sale t ht => haccepted.vault_authorized hvaulted ⟨call.key, rfl⟩ ht }
  · intro sale holder hchanged
    cases haccepted.ledgerStep sale holder with
    | keeps heq => exact absurd (congrArg Ledger.burned heq) hchanged
    | own hsigns => exact hsigns
    | delegated _ hburned => exact absurd hburned hchanged
  · intro sale holder hchanged
    cases haccepted.ledgerStep sale holder with
    | keeps heq => exact absurd (congrArg Ledger.minted heq) hchanged
    | own hsigns => exact .inl hsigns
    | delegated hmints => exact .inr hmints
  · intro sale buyer hchanged
    exact (haccepted.commitmentStep hsound sale buyer).signs hchanged

/-- The reservation that four units are reserved with is its buyer's. -/
theorem changes_authorized_reserved :
    Sample.reserved.commitment? Sample.capped (.key Sample.owner)
        ≠ Sample.sold.commitment? Sample.capped (.key Sample.owner) ∧
      (Sample.reserving none 4).signer.Signs (.key Sample.owner) := by
  have hnone : Sample.sold.commitment? Sample.capped (.key Sample.owner) = none := rfl
  have hsome : Sample.reserved.commitment? Sample.capped (.key Sample.owner)
      = some Sample.reservation := rfl
  have hchanged : Sample.reserved.commitment? Sample.capped (.key Sample.owner)
      ≠ Sample.sold.commitment? Sample.capped (.key Sample.owner) := by
    rw [hnone, hsome]
    exact Option.some_ne_none _
  obtain ⟨trace, hrun⟩ := Sample.run_sold
  have hauthorized := changes_authorized Sample.start_fresh hrun Sample.reserving_ok.2
  exact ⟨hchanged, hauthorized.reserved _ _ hchanged⟩

end UnitSale
