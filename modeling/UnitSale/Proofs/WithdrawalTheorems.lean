import UnitSale.Proofs.LedgerTheorems
import UnitSale.Proofs.PaymentTheorems

/-!
# Withdrawals are exact

A withdrawal is counted first and paid out after that, in coins by two writes of balances, which may
be of one account, or in tokens by a transfer, which may be to its source. Either way what leaves
the sale arrives at the recipient and nothing is made or lost; and what a sale counts as withdrawn
is the sum of all withdrawals that went through.
-/

namespace UnitSale
namespace State

variable {st st' : State} {signer : Signer} {source target authority a : Address}
  {sale recipient : Address} {parties : TokenParties} {amount : UInt64} {receipt : Receipt}

/-! ## Transfers of tokens -/

/-- Tokens that have moved are missing at the source and on top at the target, even if the two are
one account, and nothing else has changed. -/
theorem transferTokens_moved (h : st.transferTokens source target authority amount = .ok st')
    {t : TokenAccount} (ht : st.tokens.find? a = some t) :
    ∃ held, st'.tokens.find? a = some { t with amount := held } ∧
      held.toNat + (if a = source then amount.toNat else 0)
        = t.amount.toNat + if a = target then amount.toNat else 0 := by
  by_cases hst : source = target
  · obtain ⟨paying, paid, -, -, -, -, -, hmoved⟩ := transferTokens_eq_ok.mp h
    obtain ⟨-, rfl⟩ := hmoved.resolve_right fun hne => hne.1 hst
    subst hst
    exact ⟨t.amount, ht, rfl⟩
  · exact transferTokens_tokens h hst ht

theorem transferTokens_none (h : st.transferTokens source target authority amount = .ok st')
    (ha : st.tokens.find? a = none) : st'.tokens.find? a = none := by
  cases hfound : st'.tokens.find? a with
  | none => rfl
  | some t =>
    obtain ⟨old, hold, -⟩ := transferTokens_origin h hfound
    rw [ha] at hold
    cases hold

/-- Setting what a token account holds trades it in the total of its mint. -/
theorem tokenTotal_set {tokens : Registry Address TokenAccount} {old : TokenAccount}
    (hold : tokens.find? a = some old) (amount : UInt64) (mint : Address) :
    (tokens.set a { old with amount := amount }).totalOf (fun t => t.mint = mint)
        (fun t => t.amount.toNat) + (if old.mint = mint then old.amount.toNat else 0)
      = tokens.totalOf (fun t => t.mint = mint) (fun t => t.amount.toNat)
        + if old.mint = mint then amount.toNat else 0 :=
  Registry.total_set_of_some hold _ _

theorem transferTokens_tokenTotal (h : st.transferTokens source target authority amount = .ok st')
    (mint : Address) : st'.tokenTotal mint = st.tokenTotal mint := by
  obtain ⟨paying, paid, hpaying, hpaid, -, hmint, -, hmoved⟩ := transferTokens_eq_ok.mp h
  rcases hmoved with ⟨-, rfl⟩ | ⟨hne, left, held, hleft, hheld, rfl⟩
  · rfl
  · have htarget : (st.tokens.set source { paying with amount := left }).find? target
        = some paid := by
      rw [Registry.find?_set_of_ne _ hne.symm]
      exact hpaid
    have hdebit := tokenTotal_set hpaying left mint
    have hcredit := tokenTotal_set htarget held mint
    -- the source gives up what the target gets, and both count for the same mint
    dsimp only [tokenTotal]
    by_cases hcounts : paid.mint = mint
    · rw [if_pos (hmint.trans hcounts), if_pos (hmint.trans hcounts)] at hdebit
      rw [if_pos hcounts, if_pos hcounts] at hcredit
      omega
    · have hnot : paying.mint ≠ mint := fun heq => hcounts (hmint.symm.trans heq)
      rw [if_neg hnot, if_neg hnot] at hdebit
      rw [if_neg hcounts, if_neg hcounts] at hcredit
      omega

/-! ## One withdrawal -/

/-- A state in which an amount has left a sale for its recipient, and in which no other coins or
tokens have moved: coins from the sale's account to the recipient, tokens from the sale's vault to
an account that the recipient owns. Where the two are one account, it has what it had. -/
structure Disbursed (st : State) (sale recipient : Address) (currency : Currency)
    (parties : TokenParties) (amount : ℕ) (st' : State) : Prop where
  coins : ∀ a, (st'.balance a).toNat + (if a = sale then currency.inCoins amount else 0)
    = (st.balance a).toNat + if a = recipient then currency.inCoins amount else 0
  tokens : ∀ a t, st.tokens.find? a = some t →
    ∃ held, st'.tokens.find? a = some { t with amount := held } ∧
      held.toNat + (if a = .vault sale then currency.inTokens amount else 0)
        = t.amount.toNat + if parties.account = some a then currency.inTokens amount else 0
  tokens_none : ∀ a, st.tokens.find? a = none → st'.tokens.find? a = none
  target : ∀ mint, currency = .token mint → ∃ target paid, parties.account = some target ∧
    st.tokens.find? target = some paid ∧ paid.mint = mint ∧ paid.owner = recipient
  coinTotal_eq : st'.coinTotal = st.coinTotal
  tokenTotal_eq : ∀ mint, st'.tokenTotal mint = st.tokenTotal mint

/-- The money of a withdrawal, in coins. -/
theorem disbursed_of_pay (h : st.pay sale recipient amount = .ok st') :
    st.Disbursed sale recipient .native parties amount.toNat st' where
  coins := pay_coins h
  tokens := by
    intro a t ht
    rw [pay_tokens h]
    exact ⟨t.amount, ht, by simp [Currency.inTokens]⟩
  tokens_none := by
    intro a ha
    rw [pay_tokens h]
    exact ha
  target := fun _ hcurrency => nomatch hcurrency
  coinTotal_eq := pay_coinTotal h
  tokenTotal_eq := by
    intro mint
    unfold tokenTotal
    rw [pay_tokens h]

/-- The money of a withdrawal, in tokens. -/
theorem disbursed_of_transfer {mint vault : Address} {paid : TokenAccount}
    (h : st.transferTokens (.vault sale) target sale amount = .ok st')
    (hparties : parties = ⟨some target, some vault, some mint, true⟩)
    (hpaid : st.tokens.find? target = some paid) (hmint : paid.mint = mint)
    (howner : paid.owner = recipient) :
    st.Disbursed sale recipient (.token mint) parties amount.toNat st' where
  coins := by
    intro a
    unfold balance
    rw [transferTokens_coins h, Currency.inCoins, ite_self, ite_self]
  tokens := by
    intro a t ht
    obtain ⟨held, hfound, hheld⟩ := transferTokens_moved h ht
    refine ⟨held, hfound, ?_⟩
    subst hparties
    simp only [Currency.inTokens, Option.some.injEq, eq_comm (a := target)]
    exact hheld
  tokens_none := fun a ha => transferTokens_none h ha
  target := by
    intro mint' hcurrency
    obtain rfl := Currency.token.inj hcurrency
    subst hparties
    exact ⟨target, paid, rfl, hpaid, hmint, howner⟩
  coinTotal_eq := by
    unfold coinTotal
    rw [transferTokens_coins h]
  tokenTotal_eq := transferTokens_tokenTotal h

/-- What is recorded of sales does not matter to what was paid out. -/
theorem Disbursed.setSale {currency : Currency} {n : ℕ}
    (h : st.Disbursed sale recipient currency parties n st') (key : Address) (record : Sale) :
    st.Disbursed sale recipient currency parties n (st'.setSale key record) where
  coins := h.coins
  tokens := h.tokens
  tokens_none := h.tokens_none
  target := h.target
  coinTotal_eq := h.coinTotal_eq
  tokenTotal_eq := h.tokenTotal_eq

/-- The money of a withdrawal goes from the sale to its recipient. -/
theorem Withdrawal.disbursed (w : Withdrawal st signer sale recipient parties amount receipt)
    (hvaulted : st.Vaulted) :
    st.Disbursed sale recipient w.record.terms.currency parties amount.toNat receipt.state := by
  have hmoved := w.moved_eq
  have hloaded := w.loaded
  rw [w.state_eq]
  refine Disbursed.setSale ?_ _ _
  cases hcurrency : w.record.terms.currency with
  | native => exact disbursed_of_pay (w.payment hcurrency)
  | token mint =>
    rw [hcurrency] at hmoved
    obtain ⟨target, vault, paid, hparties, hpaid, howner, htransfer⟩ :=
      withdrawTokens_eq_ok.mp hmoved
    obtain rfl : vault = .vault sale := by
      have hcheck := w.vault_ok
      rw [hparties] at hcheck
      exact checkSeeds_eq_ok.mp hcheck
    -- the vault is of the sale's mint, and tokens move between accounts of one mint
    obtain ⟨paying, paid', hpaying, hpaid', -, hmint, -, -⟩ := transferTokens_eq_ok.mp htransfer
    obtain rfl : paid' = paid := Registry.eq_of_find? hpaid' hpaid
    obtain ⟨hvault, record, hrecord, hvaultMint⟩ :=
      hvaulted.vaults _ paying (not_isKey_vault sale) hpaying
    obtain rfl := Address.vault.inj hvault
    obtain rfl : record = w.record := Registry.eq_of_find? hrecord hloaded
    have hmints := Currency.token.inj (hcurrency.symm.trans hvaultMint)
    exact disbursed_of_transfer htransfer hparties hpaid (hmint.symm.trans hmints.symm) howner

/-! ## All withdrawals -/

/-- What a sale counts as withdrawn, nothing where there is no sale. -/
def amountOut (st : State) (sale : Address) : ℕ :=
  ((st.sales.find? sale).map fun record => record.amountWithdrawn.toNat).getD 0

theorem amountOut_of_find? {record : Sale} (h : st.sales.find? sale = some record) :
    st.amountOut sale = record.amountWithdrawn.toNat := by
  rw [amountOut, h]
  rfl

end State

/-- What an instruction withdraws from a sale. -/
def Instruction.withdraws (sale : Address) : Instruction → ℕ
  | .withdraw s _ amount _ => if s = sale then amount.toNat else 0
  | _ => 0

/-- The sum of all withdrawals of a sale that went through. -/
def withdrawals (sale : Address) (trace : List Entry) : ℕ :=
  (trace.map fun e => e.call.instruction.withdraws sale).sum

theorem withdrawals_append (sale : Address) (trace : List Entry) (e : Entry) :
    withdrawals sale (trace ++ [e])
      = withdrawals sale trace + e.call.instruction.withdraws sale := by
  rw [withdrawals, List.map_append, List.sum_append, List.map_singleton, List.sum_singleton]
  rfl

theorem Instruction.withdraws_eq_zero {i : Instruction} {sale : Address} (h : sale ≠ i.sale) :
    i.withdraws sale = 0 := by
  cases i with
  | withdraw => exact if_neg h.symm
  | _ => rfl

namespace State

variable {st : State} {signer : Signer} {receipt : Receipt} {i : Instruction} {sale : Address}

theorem amountOut_of_set {record record' : Sale} {n : ℕ}
    (hrecord : st.sales.find? sale = some record)
    (hset : receipt.state.books.sales = st.sales.set sale record')
    (hcount : record'.amountWithdrawn.toNat = record.amountWithdrawn.toNat + n) :
    receipt.state.amountOut sale = st.amountOut sale + n := by
  have hafter : receipt.state.sales.find? sale = some record' := by
    show receipt.state.books.sales.find? sale = some record'
    rw [hset, Registry.find?_set_self]
  rw [amountOut_of_find? hafter, amountOut_of_find? hrecord, hcount]

theorem amountOut_of_eq (h : receipt.state.books.sales.find? sale = st.books.sales.find? sale) :
    receipt.state.amountOut sale = st.amountOut sale :=
  congrArg (fun found => (found.map fun record => record.amountWithdrawn.toNat).getD 0) h

/-- Every instruction that goes through adds what it withdraws to the count of the sale. -/
theorem Accepted.amountOut_eq (h : st.Accepted signer i receipt) (sale : Address) :
    receipt.state.amountOut sale = st.amountOut sale + i.withdraws sale := by
  by_cases hs : sale = i.sale
  case neg =>
    rw [Instruction.withdraws_eq_zero hs]
    exact amountOut_of_eq (h.beside.sales sale hs)
  subst hs
  cases h with
  | @openSale sale _ _ _ receipt o =>
    -- a sale that is opened has been nothing before and has withdrawn nothing
    have hnone : st.amountOut sale = 0 := by
      rw [amountOut, o.sale_new]
      rfl
    have hafter := congrArg (fun b : Books => b.sales.find? sale) o.books_eq
    have hopened := amountOut_of_find? (hafter.trans (Registry.find?_set_self ..))
    exact hopened.trans hnone.symm
  | openVault o => exact amountOut_of_set o.loaded (congrArg Books.sales o.books_eq) rfl
  | calculate hstate => exact amountOut_of_eq (by rw [hstate])
  | mint p => exact amountOut_of_set p.loaded (congrArg Books.sales p.books_eq) rfl
  | mintFor p => exact amountOut_of_set p.loaded (congrArg Books.sales p.books_eq) rfl
  | burn b => exact amountOut_of_set b.loaded (congrArg Books.sales b.books_eq) rfl
  | @withdraw sale _ amount _ receipt w =>
    have hcount := w.withdrawn_eq.symm
    show receipt.state.amountOut sale = st.amountOut sale + if sale = sale then amount.toNat else 0
    rw [if_pos rfl]
    exact amountOut_of_set w.loaded (congrArg Books.sales w.books_eq) hcount
  | royaltyInfo hstate => exact amountOut_of_eq (by rw [hstate])
  | commit r => exact amountOut_of_set r.loaded (congrArg Books.sales r.books_eq) rfl
  | startReveal w => exact amountOut_of_eq (by rw [w.books_eq])
  | reveal r => exact amountOut_of_eq (by rw [r.books_eq])
  | revealIds d => exact amountOut_of_set d.loaded (congrArg Books.sales d.books_eq) rfl
  | claimReserved c => exact amountOut_of_set c.loaded (congrArg Books.sales c.books_eq) rfl

end State

theorem withdrawals_of_run {start st : State} {trace : List Entry} (hfresh : start.Fresh)
    (h : Run start trace st) (sale : Address) : withdrawals sale trace = st.amountOut sale := by
  refine Run.invariant (P := fun trace st => withdrawals sale trace = st.amountOut sale) ?_ ?_ ?_ h
  · have hnone := congrArg (fun b : Books => b.sales.find? sale) hfresh.books_eq
    have hsales : start.sales.find? sale = none := hnone
    rw [State.amountOut, hsales]
    rfl
  · intro trace e _ hcount
    rw [withdrawals_append, hcount]
    exact (e.accepted_case.amountOut_eq sale).symm
  · intro trace st st' hout hcount
    have hsales := congrArg Books.sales hout.books_eq
    have hkept : st'.sales = st.sales := hsales
    rw [hcount, State.amountOut, State.amountOut, hkept]

/-- A withdrawal that went through: it was signed by the owner of the sale and made to the recipient
of its terms, of some money and no more than is payable; the sale counts it and has not changed
otherwise; and the money has gone from the sale to the recipient. -/
structure WithdrawnExactly (st : State) (call : Call) (sale recipient : Address) (record : Sale)
    (amount : UInt64) (parties : TokenParties) (receipt : Receipt) : Prop where
  signed : call.signer.Signs record.terms.owner
  recipient_eq : recipient = record.terms.recipient
  some_money : 0 < amount
  payable : amount ≤ record.amountPayable
  counted : ∃ withdrawn : UInt64,
    receipt.state.sales = st.sales.set sale { record with amountWithdrawn := withdrawn } ∧
      withdrawn.toNat = record.amountWithdrawn.toNat + amount.toNat
  disbursed : st.Disbursed sale recipient record.terms.currency parties amount.toNat receipt.state

/-- In every state that a run reaches, a withdrawal that goes through is exact: it moves its amount
from the sale to the recipient, keeps all totals and is counted; and all withdrawals of a sale add
up to what the sale counts as withdrawn, which is never more than what it was paid. -/
theorem withdrawals_exact {start st : State} {trace : List Entry} (hfresh : start.Fresh)
    (h : Run start trace st) (sale : Address) :
    (∀ call receipt recipient amount parties,
      call.instruction = .withdraw sale recipient amount parties →
      st.execute call = .ok receipt → ∃ record, st.sales.find? sale = some record ∧
        WithdrawnExactly st call sale recipient record amount parties receipt) ∧
    (st.sales.find? sale = none → withdrawals sale trace = 0) ∧
    ∀ record, st.sales.find? sale = some record →
      withdrawals sale trace = record.amountWithdrawn.toNat ∧
        withdrawals sale trace ≤ record.amountPaid.toNat := by
  have hvaulted := vaulted_of_run hfresh h
  have hcount := withdrawals_of_run hfresh h sale
  refine ⟨?_, ?_, ?_⟩
  · intro call receipt recipient amount parties hcall hok
    have haccepted := State.accepted_of_run hok
    rw [hcall] at haccepted
    cases haccepted with
    | withdraw w =>
      exact ⟨w.record, w.loaded, {
        signed := ⟨w.signed, w.owner⟩
        recipient_eq := w.recipient_eq
        some_money := w.some_money
        payable := w.payable
        counted := ⟨w.withdrawn, congrArg Books.sales w.books_eq, w.withdrawn_eq.symm⟩
        disbursed := w.disbursed hvaulted }⟩
  · intro hnone
    rw [hcount, State.amountOut, hnone]
    rfl
  · intro record hrecord
    rw [hcount, State.amountOut_of_find? hrecord]
    exact ⟨rfl, withdrawn_le_of_run hfresh h hrecord⟩

/-- Withdraws a hundred coins of the other sale. -/
def Sample.withdrawing : Call :=
  ⟨owner, true, .withdraw capped (.key owner) 100 .none⟩

/-- A hundred of the three hundred coins that three units were sold for are withdrawn. -/
theorem withdrawals_exact_sold :
    ∃ trace, Sample.start.Fresh ∧ Run Sample.start trace Sample.sold ∧
      ∃ receipt, Sample.sold.execute Sample.withdrawing = .ok receipt ∧
        (∃ record, WithdrawnExactly Sample.sold Sample.withdrawing Sample.capped
          (.key Sample.owner) record 100 .none receipt) ∧
        ∃ later, Run Sample.start later receipt.state ∧ withdrawals Sample.capped later = 100 := by
  obtain ⟨trace, hrun⟩ := Sample.run_sold
  obtain ⟨receipt, hok, record', hrecord', hwithdrawn⟩ : ∃ receipt,
      Sample.sold.execute Sample.withdrawing = .ok receipt ∧
        ∃ record', receipt.state.sales.find? Sample.capped = some record' ∧
          record'.amountWithdrawn.toNat = 100 := ⟨_, rfl, _, rfl, rfl⟩
  have hafter := hrun.accepted ⟨Sample.sold, _, receipt, hok⟩
  obtain ⟨record, -, hexact⟩ :=
    (withdrawals_exact Sample.start_fresh hrun Sample.capped).1 _ receipt _ _ _ rfl hok
  obtain ⟨hsum, -⟩ :=
    (withdrawals_exact Sample.start_fresh hafter Sample.capped).2.2 record' hrecord'
  exact ⟨trace, Sample.start_fresh, hrun, receipt, hok, ⟨record, hexact⟩, _, hafter,
    hsum.trans hwithdrawn⟩

end UnitSale
