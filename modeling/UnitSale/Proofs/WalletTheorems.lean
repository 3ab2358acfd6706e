import UnitSale.Proofs.AuthorityTheorems
import UnitSale.Proofs.IdsTheorems
import UnitSale.Proofs.LedgerTheorems

/-!
# The limit of a wallet

A sale may limit how many units a wallet buys. The limit is looked at in purchases alone, against the
minted units of the ledger, and claims count there too though no claim is refused for it. So the
minted units of a holder are split into bought and claimed ones, both read off the trace of a run.
-/

namespace UnitSale

open State

/-! ## Units of a holder in a trace -/

/-- The units that an event tells of as bought for a holder. -/
def Event.unitsBought (sale holder : Address) : Event → ℕ
  | .unitsMinted s recipient _ units _ _ => if sale = s ∧ holder = recipient then units.toNat else 0
  | _ => 0

/-- The units that an event tells of as claimed by a holder, one for each id. -/
def Event.unitsClaimed (sale holder : Address) : Event → ℕ
  | .reservationClaimed s buyer ids => if sale = s ∧ holder = buyer then ids.length else 0
  | _ => 0

/-- The sum of a figure over the events of a call. -/
def Receipt.total (figure : Event → ℕ) (receipt : Receipt) : ℕ := (receipt.events.map figure).sum

/-- The sum of a figure over the events of a trace. -/
def eventTotal (figure : Event → ℕ) (trace : List Entry) : ℕ :=
  (trace.map fun e => e.receipt.total figure).sum

/-- All units bought for a holder, whoever paid. -/
def boughtUnits (sale holder : Address) (trace : List Entry) : ℕ :=
  eventTotal (Event.unitsBought sale holder) trace

/-- All units that a holder has claimed. -/
def claimedUnits (sale holder : Address) (trace : List Entry) : ℕ :=
  eventTotal (Event.unitsClaimed sale holder) trace

theorem eventTotal_append (figure : Event → ℕ) (trace : List Entry) (e : Entry) :
    eventTotal figure (trace ++ [e]) = eventTotal figure trace + e.receipt.total figure := by
  unfold eventTotal
  rw [List.map_append, List.sum_append, List.map_singleton, List.sum_singleton]

/-! ## Room in a wallet -/

theorem Sale.toNat_walletRemaining {s : Sale} (hlimit : 0 < s.terms.maxPerWallet)
    (minted : UInt64) :
    (s.walletRemaining minted).toNat = s.terms.maxPerWallet.toNat - minted.toNat := by
  have hne := UInt64.pos_iff_ne_zero.mp hlimit
  rw [walletRemaining, if_neg hne, Checked.toNat_monus]

theorem Sale.walletRemaining_le (s : Sale) {minted minted' : UInt64} (h : minted ≤ minted') :
    s.walletRemaining minted' ≤ s.walletRemaining minted := by
  rw [UInt64.le_iff_toNat_le] at h ⊢
  by_cases hzero : s.terms.maxPerWallet = 0
  · rw [walletRemaining, walletRemaining, if_pos hzero, if_pos hzero]
  · have hlimit := UInt64.pos_iff_ne_zero.mpr hzero
    rw [toNat_walletRemaining hlimit, toNat_walletRemaining hlimit]
    omega

/-- Without a limit, a purchase settles as if there were no wallet to look at. -/
theorem MintRequest.settle_unlimited {s : Sale} (hzero : s.terms.maxPerWallet = 0)
    (request : MintRequest) (quote : SaleQuote) (available minted units : UInt64) :
    request.settle quote available (s.walletRemaining minted) = .ok units ↔
      quote.price ≤ request.maximumPrice ∧ request.minimumUnits ≤ units ∧ 0 < units ∧
        units = Checked.least (Checked.least request.desiredUnits quote.maxUnits) available := by
  have hleast : ∀ n : UInt64, Checked.least n Checked.maxAmount = n := by
    intro n
    have hmax : n ≤ Checked.maxAmount :=
      UInt64.le_iff_toNat_le.mpr (Nat.le_of_lt_succ n.toNat_lt)
    rw [Checked.least, if_pos hmax]
  rw [Sale.walletRemaining, if_pos hzero, MintRequest.settle_eq_ok, hleast]

/-! ## Steps -/

/-- What an accepted instruction makes of the minted units of a holder: nothing, unless it is a
purchase for the holder or a claim. -/
inductive WalletStep (st : State) (signer : Signer) (receipt : Receipt) (sale holder : Address) :
    Prop
  | keeps : (receipt.state.holding sale holder).minted = (st.holding sale holder).minted →
      receipt.total (Event.unitsBought sale holder) = 0 →
      receipt.total (Event.unitsClaimed sale holder) = 0 →
      WalletStep st signer receipt sale holder
  | buys {who ledger request parties}
      (p : Purchase st signer who sale ledger holder request parties receipt) :
      WalletStep st signer receipt sale holder
  | claims {shuffle commitment ledger}
      (c : Handout st signer sale shuffle commitment ledger receipt) :
      holder = signer.address → WalletStep st signer receipt sale holder

section Step

variable {st : State} {signer : Signer} {receipt : Receipt} {i : Instruction}
  {sale shuffle ledger commitment holder recipient target : Address} {parties : TokenParties}
  {who : Buyer} {request : MintRequest}

theorem State.Purchase.minted_added
    (p : Purchase st signer who sale ledger recipient request parties receipt) :
    (receipt.state.holding sale recipient).minted = p.held ∧
      (st.holding sale recipient).minted.toNat + p.units.toNat = p.held.toNat := by
  obtain ⟨-, -, hfound, -⟩ := withLedger_effect p.mid_eq
  have hheld := p.held_eq
  rw [Ledger.bind_minted, hfound] at hheld
  refine ⟨?_, hheld⟩
  rw [holding_of_set (congrArg Books.ledgers p.books_eq), if_pos ⟨rfl, rfl⟩]

/-- A purchase settles for no more units than the wallet has room for. -/
theorem State.Purchase.held_le
    (p : Purchase st signer who sale ledger recipient request parties receipt)
    (hlimit : 0 < p.record.terms.maxPerWallet) :
    p.held.toNat ≤ p.record.terms.maxPerWallet.toNat := by
  obtain ⟨-, -, hpos, hunits⟩ := MintRequest.settle_eq_ok.mp p.settled
  have hle := congrArg UInt64.toNat hunits
  rw [Checked.toNat_least, Sale.toNat_walletRemaining hlimit] at hle
  have hheld := p.held_eq
  rw [UInt64.lt_iff_toNat_lt, UInt64.toNat_zero] at hpos
  -- some units are bought, so there was room for them
  omega

/-- A claim adds one unit for each id to what the buyer has minted. -/
theorem State.Handout.minted_added
    (c : Handout st signer sale shuffle commitment ledger receipt) :
    (receipt.state.holding sale signer.address).minted.toNat
      = (st.holding sale signer.address).minted.toNat + (idsOf c.draw c.reservation).length := by
  obtain ⟨-, -, hfound, -⟩ := withLedger_effect c.mid_eq
  have hheld := c.held_eq
  rw [Ledger.bind_minted, hfound] at hheld
  rw [holding_of_set (congrArg Books.ledgers c.books_eq), if_pos ⟨rfl, rfl⟩, c.length_ids]
  exact hheld.symm

theorem State.Burning.minted_eq {units : UInt64} (b : Burning st signer target ledger units receipt)
    (sale holder : Address) :
    (receipt.state.holding sale holder).minted = (st.holding sale holder).minted := by
  rw [holding_of_set (congrArg Books.ledgers b.books_eq)]
  split
  · next hmine =>
    have hheld : st.holding sale holder = b.holding := by
      rw [State.holding, hmine.1, hmine.2, b.held]
      rfl
    rw [hheld]
  · rfl

/-- An instruction that leaves all ledgers alone and tells of no units is a step. -/
theorem WalletStep.of_ledgers {events : List Event}
    (hledgers : receipt.state.books.ledgers = st.books.ledgers) (hevents : receipt.events = events)
    (hbought : (events.map (Event.unitsBought sale holder)).sum = 0)
    (hclaimed : (events.map (Event.unitsClaimed sale holder)).sum = 0) :
    WalletStep st signer receipt sale holder := by
  subst hevents
  have hsame : receipt.state.ledgers = st.ledgers := hledgers
  refine .keeps ?_ hbought hclaimed
  rw [State.holding, hsame, State.holding]

/-- A purchase is a step for everybody, and one that buys for its recipient. -/
theorem State.Purchase.walletStep
    (p : Purchase st signer who target ledger recipient request parties receipt)
    (sale holder : Address) : WalletStep st signer receipt sale holder := by
  by_cases hmine : sale = target ∧ holder = recipient
  · obtain ⟨rfl, rfl⟩ := hmine
    exact .buys p
  · refine .keeps ?_ ?_ ?_
    · rw [holding_of_set (congrArg Books.ledgers p.books_eq), if_neg hmine]
    · simp [Receipt.total, p.events_eq, Event.unitsBought, hmine]
    · simp [Receipt.total, p.events_eq, Event.unitsClaimed]

/-- A claim is a step for everybody, and one that claims for its signer. -/
theorem State.Handout.walletStep (c : Handout st signer target shuffle commitment ledger receipt)
    (sale holder : Address) : WalletStep st signer receipt sale holder := by
  by_cases hmine : sale = target ∧ holder = signer.address
  · obtain ⟨rfl, hholder⟩ := hmine
    exact .claims c hholder
  · refine .keeps ?_ ?_ ?_
    · rw [holding_of_set (congrArg Books.ledgers c.books_eq), if_neg hmine]
    · simp [Receipt.total, c.events_eq, Event.unitsBought]
    · simp [Receipt.total, c.events_eq, Event.unitsClaimed, hmine]

/-- What an accepted instruction makes of the minted units of any holder is one of the steps. -/
theorem State.Accepted.walletStep (h : st.Accepted signer i receipt) (sale holder : Address) :
    WalletStep st signer receipt sale holder := by
  cases h with
  | openSale o => exact .of_ledgers (by rw [o.books_eq]) o.events_eq rfl rfl
  | openVault o => exact .of_ledgers (by rw [o.books_eq]) o.events_eq rfl rfl
  | calculate hstate hevents => exact .of_ledgers (by rw [hstate]) hevents rfl rfl
  | mint p => exact p.walletStep sale holder
  | mintFor p => exact p.walletStep sale holder
  | burn b =>
    refine .keeps (b.minted_eq sale holder) ?_ ?_
    · rw [Receipt.total, b.events_eq]
      rfl
    · rw [Receipt.total, b.events_eq]
      rfl
  | withdraw w => exact .of_ledgers (by rw [w.books_eq]) w.events_eq rfl rfl
  | royaltyInfo hstate hevents => exact .of_ledgers (by rw [hstate]) hevents rfl rfl
  | commit r => exact .of_ledgers (by rw [r.books_eq]) r.events_eq rfl rfl
  | startReveal w => exact .of_ledgers (by rw [w.books_eq]) w.events_eq rfl rfl
  | reveal r => exact .of_ledgers (by rw [r.books_eq]) r.events_eq rfl rfl
  | revealIds d => exact .of_ledgers (by rw [d.books_eq]) d.events_eq rfl rfl
  | claimReserved c => exact c.walletStep sale holder

/-- The minted units of a holder grow by what is bought for the holder and what the holder claims. -/
theorem WalletStep.minted_eq (h : WalletStep st signer receipt sale holder) :
    (receipt.state.holding sale holder).minted.toNat
      = (st.holding sale holder).minted.toNat + receipt.total (Event.unitsBought sale holder)
        + receipt.total (Event.unitsClaimed sale holder) := by
  cases h with
  | keeps hminted hbought hclaimed => rw [hminted, hbought, hclaimed, Nat.add_zero]
  | buys p =>
    obtain ⟨hheld, hsum⟩ := p.minted_added
    simp [Receipt.total, p.events_eq, Event.unitsBought, Event.unitsClaimed, hheld, hsum]
  | claims c hholder =>
    subst hholder
    simp [Receipt.total, c.events_eq, Event.unitsBought, Event.unitsClaimed, c.minted_added]

/-- An instruction sells nothing to a holder, or it leaves the holder inside the limit. -/
theorem WalletStep.within_limit (h : WalletStep st signer receipt sale holder) {record : Sale}
    (hrecord : st.sales.find? sale = some record) (hlimit : 0 < record.terms.maxPerWallet) :
    receipt.total (Event.unitsBought sale holder) = 0 ∨
      (receipt.state.holding sale holder).minted.toNat ≤ record.terms.maxPerWallet.toNat := by
  cases h with
  | keeps _ hbought => exact .inl hbought
  | buys p =>
    obtain rfl : p.record = record := Registry.eq_of_find? p.loaded hrecord
    rw [p.minted_added.1]
    exact .inr (p.held_le hlimit)
  | claims c =>
    left
    rw [Receipt.total, c.events_eq]
    rfl

end Step

/-! ## Runs -/

theorem State.holding_of_no_sale {st : State} {sale : Address} (htallied : st.books.Tallied)
    (hnone : st.sales.find? sale = none) (holder : Address) :
    (st.holding sale holder).minted = 0 := by
  unfold State.holding
  cases hl : st.ledgers.find? (.ledger sale holder) with
  | none => rfl
  | some l =>
    have hsale := (htallied.of_ledger hl).1
    obtain ⟨record, hrecord⟩ := htallied.has_sale _ l hl
    rw [← hsale] at hrecord
    cases hnone.symm.trans hrecord

/-- What a run keeps of the units of a holder: minted units are bought or claimed, and the bought
ones are inside the limit. -/
structure Limited (sale holder : Address) (trace : List Entry) (st : State) : Prop where
  minted_eq : (st.holding sale holder).minted.toNat
    = boughtUnits sale holder trace + claimedUnits sale holder trace
  bought_le : ∀ record, st.sales.find? sale = some record → 0 < record.terms.maxPerWallet →
    boughtUnits sale holder trace ≤ record.terms.maxPerWallet.toNat

namespace Limited

variable {sale holder : Address} {trace : List Entry} {e : Entry}

theorem minted_step (h : Limited sale holder trace e.before) :
    (e.receipt.state.holding sale holder).minted.toNat
      = boughtUnits sale holder (trace ++ [e]) + claimedUnits sale holder (trace ++ [e]) := by
  rw [(e.accepted_case.walletStep sale holder).minted_eq, h.minted_eq]
  simp only [boughtUnits, claimedUnits, eventTotal_append]
  omega

theorem step (h : Limited sale holder trace e.before) (hsound : e.before.books.Sound)
    (htallied : e.before.books.Tallied) :
    Limited sale holder (trace ++ [e]) e.receipt.state where
  minted_eq := h.minted_step
  bought_le := by
    intro record' hrecord' hlimit
    have hminted := h.minted_step
    rw [boughtUnits, eventTotal_append] at hminted ⊢
    rcases e.accepted_case.known_or_opened hrecord' with
      ⟨record, hrecord⟩ | ⟨shuffle, number, config, ⟨o⟩⟩
    · obtain ⟨record'', hrecord'', hterms⟩ := e.accepted_case.terms_kept hsound hrecord
      obtain rfl : record'' = record' := Registry.eq_of_find? hrecord'' hrecord'
      rw [hterms] at hlimit ⊢
      have hbefore := h.bought_le record hrecord hlimit
      rw [boughtUnits] at hbefore
      rcases (e.accepted_case.walletStep sale holder).within_limit hrecord hlimit with
        hnone | hwithin
      · omega
      · -- bought units are minted units, and the call left these inside the limit
        omega
    · -- before the opening there was no ledger, so nothing had been bought
      have hzero := h.minted_eq
      rw [State.holding_of_no_sale htallied o.sale_new, boughtUnits] at hzero
      have hopening : e.receipt.total (Event.unitsBought sale holder) = 0 := by
        rw [Receipt.total, o.events_eq]
        rfl
      rw [UInt64.toNat_zero] at hzero
      omega

theorem of_run {start st : State} (hfresh : start.Fresh) (h : Run start trace st) :
    Limited sale holder trace st := by
  refine Run.invariant (P := Limited sale holder) ?_ ?_ ?_ h
  · have hledgers := congrArg Books.ledgers hfresh.books_eq
    have hsales := congrArg Books.sales hfresh.books_eq
    refine { minted_eq := ?_, bought_le := ?_ }
    · show ((start.books.ledgers.find? (.ledger sale holder)).getD .blank).minted.toNat = 0
      rw [hledgers]
      rfl
    · intro record hrecord
      have hfind : start.books.sales.find? sale = some record := hrecord
      rw [hsales] at hfind
      cases hfind
  · intro trace e hrun hlimited
    exact hlimited.step (sound_of_run hfresh hrun) (tallied_of_run hfresh hrun)
  · intro trace st st' hout hlimited
    have hledgers : st'.ledgers = st.ledgers := congrArg Books.ledgers hout.books_eq
    have hsales : st'.sales = st.sales := congrArg Books.sales hout.books_eq
    refine { minted_eq := ?_, bought_le := ?_ }
    · rw [State.holding, hledgers]
      exact hlimited.minted_eq
    · rw [hsales]
      exact hlimited.bought_le

end Limited

/-! ## Calls -/

/-- Whether an instruction buys units of a sale for a holder. -/
def Instruction.BuysFor (sale holder : Address) : Instruction → Prop
  | .mint s _ recipient _ _ => s = sale ∧ recipient = holder
  | .mintFor s _ recipient _ _ => s = sale ∧ recipient = holder
  | _ => False

section Call

variable {st : State} {call : Call} {receipt : Receipt} {sale holder : Address} {record : Sale}

/-- A purchase leaves its recipient inside the limit, with claims counted in. -/
theorem State.purchase_within_limit (hcall : st.execute call = .ok receipt)
    (hbuys : call.instruction.BuysFor sale holder) (hrecord : st.sales.find? sale = some record)
    (hlimit : 0 < record.terms.maxPerWallet) :
    (receipt.state.holding sale holder).minted ≤ record.terms.maxPerWallet := by
  have hpurchase : ∃ who ledger request parties,
      Nonempty (Purchase st call.signer who sale ledger holder request parties receipt) := by
    have haccepted := accepted_of_run hcall
    generalize call.instruction = i at haccepted hbuys
    cases haccepted with
    | mint p =>
      obtain ⟨rfl, rfl⟩ := hbuys
      exact ⟨_, _, _, _, ⟨p⟩⟩
    | mintFor p =>
      obtain ⟨rfl, rfl⟩ := hbuys
      exact ⟨_, _, _, _, ⟨p⟩⟩
    | _ => exact absurd hbuys id
  obtain ⟨who, ledger, request, parties, ⟨p⟩⟩ := hpurchase
  obtain rfl : p.record = record := Registry.eq_of_find? p.loaded hrecord
  rw [p.minted_added.1]
  exact UInt64.le_iff_toNat_le.mpr (p.held_le hlimit)

theorem State.minted_le_after (st : State) (call : Call) (sale holder : Address) :
    (st.holding sale holder).minted ≤ ((st.after call).holding sale holder).minted := by
  cases hcall : st.execute call with
  | error refusal =>
    rw [State.after_of_error hcall]
    exact UInt64.le_refl _
  | ok receipt =>
    have hminted := ((accepted_of_run hcall).walletStep sale holder).minted_eq
    rw [State.after_of_ok hcall, UInt64.le_iff_toNat_le]
    omega

theorem State.minted_eq_of_burn {target ledger : Address} {units : UInt64}
    (hcall : st.execute call = .ok receipt) (hburn : call.instruction = .burn target ledger units) :
    (receipt.state.holding sale holder).minted = (st.holding sale holder).minted := by
  have haccepted := accepted_of_run hcall
  rw [hburn] at haccepted
  cases haccepted with
  | burn b => exact b.minted_eq sale holder

end Call

/-- In every state that a run reaches, what a holder has minted in a sale is what was bought for the
holder, by whoever paid, and what the holder has claimed. If the sale has a limit, the bought units
are within it, and every purchase leaves all minted units within it, though claims may have passed it
before. No call makes room in the wallet, and burning leaves the minted units as they are. Without a
limit, a purchase settles for the least of what is asked for, quoted and in stock. -/
theorem wallet_limit_holds {start st : State} {trace : List Entry} {sale : Address} {record : Sale}
    (hfresh : start.Fresh) (h : Run start trace st) (hrecord : st.sales.find? sale = some record)
    (holder : Address) :
    (st.holding sale holder).minted.toNat
        = boughtUnits sale holder trace + claimedUnits sale holder trace ∧
      (0 < record.terms.maxPerWallet →
        boughtUnits sale holder trace ≤ record.terms.maxPerWallet.toNat ∧
        ∀ call receipt, st.execute call = .ok receipt → call.instruction.BuysFor sale holder →
          (receipt.state.holding sale holder).minted ≤ record.terms.maxPerWallet) ∧
      (∀ call, record.walletRemaining ((st.after call).holding sale holder).minted
        ≤ record.walletRemaining (st.holding sale holder).minted) ∧
      (∀ call receipt target ledger units, st.execute call = .ok receipt →
        call.instruction = .burn target ledger units →
          (receipt.state.holding sale holder).minted = (st.holding sale holder).minted) ∧
      (record.terms.maxPerWallet = 0 →
        ∀ (request : MintRequest) (quote : SaleQuote) (available minted units : UInt64),
          request.settle quote available (record.walletRemaining minted) = .ok units ↔
            quote.price ≤ request.maximumPrice ∧ request.minimumUnits ≤ units ∧ 0 < units ∧
              units = Checked.least (Checked.least request.desiredUnits quote.maxUnits)
                available) := by
  have hlimited : Limited sale holder trace st := .of_run hfresh h
  refine ⟨hlimited.minted_eq, ?_, ?_, ?_, MintRequest.settle_unlimited⟩
  · intro hlimit
    refine ⟨hlimited.bought_le record hrecord hlimit, ?_⟩
    intro call receipt hcall hbuys
    exact State.purchase_within_limit hcall hbuys hrecord hlimit
  · intro call
    exact record.walletRemaining_le (st.minted_le_after call sale holder)
  · intro call receipt target ledger units hcall hburn
    exact State.minted_eq_of_burn hcall hburn

/-- Of five units asked for in a sale with three for each wallet, three are bought, and no more. -/
theorem wallet_limit_holds_limited :
    ∃ (trace : List Entry) (e : Entry), e.call = Sample.limitedBuying ∧
      Run Sample.start (trace ++ [e]) e.receipt.state ∧
      e.receipt.total (Event.unitsBought Sample.limited (.key Sample.owner)) = 3 ∧
      boughtUnits Sample.limited (.key Sample.owner) (trace ++ [e]) ≤ 3 := by
  obtain ⟨receipt, hcall, hevents, record, hrecord, hterms⟩ := Sample.limitedBuying_ok
  have hrun := (Run.start.calls _).accepted ⟨Sample.limitedOpened, Sample.limitedBuying, receipt,
    hcall⟩
  have hlimit : record.terms.maxPerWallet = 3 := by
    rw [hterms]
    rfl
  obtain ⟨-, hwithin, -⟩ :=
    wallet_limit_holds Sample.start_fresh hrun hrecord (.key Sample.owner)
  obtain ⟨hbought, -⟩ := hwithin (by rw [hlimit]; decide)
  rw [hlimit] at hbought
  refine ⟨_, _, rfl, hrun, ?_, hbought⟩
  rw [Receipt.total, hevents]
  rfl

end UnitSale
