import UnitSale.Chain.Instruction
import UnitSale.Proofs.ShuffleTheorems
import UnitSale.Proofs.TransferTheorems

/-!
# What accepted instructions do

For every instruction that writes, a structure with all that an accepted one has read, checked,
moved and written. `Accepted` puts them together, and `accepted_of_run` says that an instruction
that goes through is one of its cases: no later proof opens a handler again.
-/

namespace UnitSale
namespace State

variable {st mid : State} {signer : Signer} {payer address : Address} {receipt : Receipt}

/-- A signer passes exactly as itself, having signed. -/
@[simp] theorem verified_eq_ok {s : Signer} {a : Address} :
    s.verified = .ok a ↔ s.signed = true ∧ s.address = a := by
  cases h : s.signed <;> simp [Signer.verified, h]

/-- A refusal by the rules is renamed and nothing else. -/
@[simp] theorem ruled_eq_ok {α : Type} {x : Except SaleError α} {a : α} :
    ruled x = .ok a ↔ x = .ok a := mapError_eq_ok

/-- A refusal before anything was logged is no success. -/
@[simp] theorem silent_eq_ok {x : Except Fault Receipt} :
    run.silent x = .ok receipt ↔ x = .ok receipt := mapError_eq_ok

/-! ## Accounts that are created where they are missing -/

/-- A state in which an account may have been paid for: no record of a sale or shuffle has changed,
no tokens, and no coins but the payer's have become fewer. -/
structure Prepared (st : State) (payer : Address) (mid : State) : Prop where
  now : mid.now = st.now
  mints : mid.mints = st.mints
  tokens : mid.tokens = st.tokens
  sales : mid.sales = st.sales
  shuffles : mid.shuffles = st.shuffles
  balance_le : ∀ a, a ≠ payer → st.balance a ≤ mid.balance a

/-- Nothing had to be paid for. -/
theorem Prepared.refl (st : State) (payer : Address) : Prepared st payer st :=
  ⟨rfl, rfl, rfl, rfl, rfl, fun _ _ => UInt64.le_refl _⟩

/-- Paying for an account. -/
theorem prepared_of_create {present : Bool} {size : Nat}
    (h : st.create payer address present size = .ok mid) : Prepared st payer mid := by
  obtain ⟨-, hpaid, -⟩ := create_eq_ok.mp h
  have hsame := pay_sameRecords hpaid
  exact ⟨hsame.now, hsame.mints, pay_tokens hpaid, hsame.sales, hsame.shuffles,
    fun a ha => pay_balance_le hpaid ha⟩

/-- The ledger at an address is the one that is there, or a blank one that has been paid for. -/
theorem withLedger_cases {holding : Ledger}
    (h : st.withLedger payer address = .ok (mid, holding)) :
    st.ledgers.find? address = some holding ∧ mid = st ∨
      st.ledgers.find? address = none ∧ holding = .blank ∧
        ∃ funded, st.create payer address false Ledger.space = .ok funded ∧
          mid = funded.setLedger address .blank := by
  unfold withLedger at h
  split at h
  · next old hold =>
    obtain ⟨rfl, rfl⟩ : st = mid ∧ old = holding := by simpa using h
    exact Or.inl ⟨hold, rfl⟩
  · next hnone =>
    obtain ⟨funded, hfunded, hrest⟩ := bind_eq_ok.mp h
    obtain ⟨rfl, rfl⟩ : funded.setLedger address .blank = mid ∧ Ledger.blank = holding := by
      simpa using hrest
    exact Or.inr ⟨hnone, rfl, funded, hfunded, rfl⟩

/-- The commitment at an address is the one that is there, or a blank one that has been paid for. -/
theorem withCommitment_cases {reservation : Commitment}
    (h : st.withCommitment payer address = .ok (mid, reservation)) :
    st.commitments.find? address = some reservation ∧ mid = st ∨
      st.commitments.find? address = none ∧ reservation = .blank ∧
        ∃ funded, st.create payer address false Commitment.space = .ok funded ∧
          mid = funded.setCommitment address .blank := by
  unfold withCommitment at h
  split at h
  · next old hold =>
    obtain ⟨rfl, rfl⟩ : st = mid ∧ old = reservation := by simpa using h
    exact Or.inl ⟨hold, rfl⟩
  · next hnone =>
    obtain ⟨funded, hfunded, hrest⟩ := bind_eq_ok.mp h
    obtain ⟨rfl, rfl⟩ : funded.setCommitment address .blank = mid
        ∧ Commitment.blank = reservation := by
      simpa using hrest
    exact Or.inr ⟨hnone, rfl, funded, hfunded, rfl⟩

/-- What having a ledger at hand has changed. -/
theorem withLedger_effect {holding : Ledger}
    (h : st.withLedger payer address = .ok (mid, holding)) :
    Prepared st payer mid ∧ mid.commitments = st.commitments ∧
      holding = (st.ledgers.find? address).getD .blank ∧
      ∀ l, mid.ledgers.set address l = st.ledgers.set address l := by
  rcases withLedger_cases h with ⟨hold, rfl⟩ | ⟨hnone, rfl, funded, hfunded, rfl⟩
  · exact ⟨Prepared.refl _ _, rfl, by rw [hold]; rfl, fun _ => rfl⟩
  · have hp := prepared_of_create hfunded
    have hsame := pay_sameRecords (create_eq_ok.mp hfunded).2.1
    refine ⟨⟨hp.now, hp.mints, hp.tokens, hp.sales, hp.shuffles, hp.balance_le⟩,
      hsame.commitments, by rw [hnone]; rfl, fun l => ?_⟩
    -- the blank ledger is overwritten
    show (funded.ledgers.set address .blank).set address l = _
    rw [Registry.set_set, hsame.ledgers]

/-- What having a commitment at hand has changed. -/
theorem withCommitment_effect {reservation : Commitment}
    (h : st.withCommitment payer address = .ok (mid, reservation)) :
    Prepared st payer mid ∧ mid.ledgers = st.ledgers ∧
      reservation = (st.commitments.find? address).getD .blank ∧
      ∀ c, mid.commitments.set address c = st.commitments.set address c := by
  rcases withCommitment_cases h with ⟨hold, rfl⟩ | ⟨hnone, rfl, funded, hfunded, rfl⟩
  · exact ⟨Prepared.refl _ _, rfl, by rw [hold]; rfl, fun _ => rfl⟩
  · have hp := prepared_of_create hfunded
    have hsame := pay_sameRecords (create_eq_ok.mp hfunded).2.1
    refine ⟨⟨hp.now, hp.mints, hp.tokens, hp.sales, hp.shuffles, hp.balance_le⟩,
      hsame.ledgers, by rw [hnone]; rfl, fun c => ?_⟩
    show (funded.commitments.set address .blank).set address c = _
    rw [Registry.set_set, hsame.commitments]

/-! ## Opening -/

/-- The sale that opening leaves. -/
def openedSale (owner : Address) (number : UInt64) (config : SaleConfig) (depth : UInt16) : Sale :=
  { Sale.blank with
    terms := Sale.termsOf owner number config depth Sale.table.fingerprint bump }

/-- A sale that was opened. -/
structure Opening (st : State) (signer : Signer) (sale shuffle : Address) (number : UInt64)
    (config : SaleConfig) (receipt : Receipt) where
  depth : UInt16
  /-- After the sale's account was paid for. -/
  funded : State
  /-- After the shuffle's account was paid for, too. -/
  built : State
  signed : signer.signed = true
  sale_eq : sale = .sale signer.address number
  shuffle_eq : shuffle = .shuffle sale
  sale_new : st.sales.find? sale = none
  shuffle_new : st.shuffles.find? (.shuffle sale) = none
  funded_eq : st.create signer.address sale false (Sale.space config.script) = .ok funded
  built_eq : (funded.setSale sale .blank).create signer.address (.shuffle sale) false
    (Shuffle.space config.supplyLimit) = .ok built
  valid : Script.validate Sale.table config.script Sale.contextLength = .ok depth
  limit : 1 ≤ config.supplyLimit ∧ config.supplyLimit ≤ maxSupplyLimit
  royalty : config.royaltyBps ≤ maxRoyaltyBps
  state_eq : receipt.state = ((built.setShuffle (.shuffle sale) .blank).setSale sale
    (openedSale signer.address number config depth)).setShuffle (.shuffle sale)
      (Shuffle.blank.bind sale bump)
  events_eq : receipt.events = [.saleOpened sale signer.address number config.supplyLimit
    config.currency Sale.table.fingerprint]

theorem openSale_ok {sale shuffle : Address} {number : UInt64} {config : SaleConfig}
    (h : st.openSale signer sale shuffle number config = .ok receipt) :
    Nonempty (Opening st signer sale shuffle number config receipt) := by
  simp only [openSale, createSale, bind_eq_ok, mapError_eq_ok, verified_eq_ok, checkSeeds_eq_ok,
    pure_eq_ok, Sale.attempt_configure] at h
  obtain ⟨owner, ⟨hsigned, rfl⟩, made, ⟨-, hsale, funded, hfunded, -, hshuffle, built, hbuilt, rfl⟩,
    depth, hvalid, -, ⟨-, hlimit, hroyalty, rfl⟩, rfl⟩ := h
  have hsnew := (create_eq_ok.mp hfunded).2.2
  have hdnew := (create_eq_ok.mp hbuilt).2.2
  rw [hsnew] at hfunded
  rw [hdnew] at hbuilt
  rw [Registry.contains_eq_false_iff] at hsnew hdnew
  have hsame := pay_sameRecords (create_eq_ok.mp hfunded).2.1
  -- the second account is paid for in a state in which the first one stands already
  have hkept : (funded.setSale sale .blank).shuffles = st.shuffles := hsame.shuffles
  rw [hkept] at hdnew
  subst hshuffle
  exact ⟨{
    depth, funded, built
    signed := hsigned
    sale_eq := hsale
    shuffle_eq := rfl
    sale_new := hsnew
    shuffle_new := hdnew
    funded_eq := hfunded
    built_eq := hbuilt
    valid := hvalid
    limit := hlimit
    royalty := hroyalty
    state_eq := rfl
    events_eq := rfl }⟩

/-- A vault that was opened. -/
structure VaultOpening (st : State) (signer : Signer) (sale vault mint : Address)
    (receipt : Receipt) where
  record : Sale
  funded : State
  signed : signer.signed = true
  loaded : st.sales.find? sale = some record
  mint_known : mint ∈ st.mints
  vault_eq : vault = .vault sale
  vault_new : st.tokens.find? (.vault sale) = none
  funded_eq : st.create signer.address (.vault sale) false vaultSpace = .ok funded
  owner : signer.address = record.terms.owner
  currency : record.terms.currency = .token mint
  state_eq : receipt.state =
    { funded with tokens := funded.tokens.set (.vault sale) ⟨mint, sale, 0⟩ }.setSale sale
      { record with vaultBump := bump }
  events_eq : receipt.events = []

theorem openVault_ok {sale vault mint : Address}
    (h : st.openVault signer sale vault mint = .ok receipt) :
    Nonempty (VaultOpening st signer sale vault mint receipt) := by
  simp only [openVault, bind_eq_ok, load_eq_ok, require_eq_ok, verified_eq_ok,
    checkSeeds_eq_ok] at h
  obtain ⟨record, hload, -, hmint, owner, ⟨hsigned, rfl⟩, -, hvault, funded, hfunded, -, howner,
    hlast⟩ := h
  cases hcur : record.terms.currency with
  | native => simp [hcur] at hlast
  | token currency =>
    simp only [hcur, bind_eq_ok, require_eq_ok, pure_eq_ok] at hlast
    obtain ⟨-, rfl, rfl⟩ := hlast
    have hnew := (create_eq_ok.mp hfunded).2.2
    rw [hnew] at hfunded
    subst hvault
    exact ⟨{
      record, funded
      signed := hsigned
      loaded := hload
      mint_known := hmint
      vault_eq := rfl
      vault_new := Registry.contains_eq_false_iff.mp hnew
      funded_eq := hfunded
      owner := howner
      currency := hcur
      state_eq := rfl
      events_eq := rfl }⟩

/-! ## Trading -/

/-- A purchase that was made. -/
structure Purchase (st : State) (signer : Signer) (who : Buyer) (sale ledger recipient : Address)
    (request : MintRequest) (parties : TokenParties) (receipt : Receipt) where
  record : Sale
  /-- The ledger as it was found or created. -/
  found : Ledger
  quote : SaleQuote
  units : UInt64
  cost : UInt64
  /-- After the ledger's account was paid for. -/
  mid : State
  /-- After the cost was collected. -/
  collected : State
  allocated : UInt64
  minted : UInt64
  paid : UInt64
  held : UInt64
  signed : signer.signed = true
  loaded : st.sales.find? sale = some record
  brought : parties.load st = .ok ()
  ledger_eq : ledger = .ledger sale recipient
  mid_eq : st.withLedger signer.address (.ledger sale recipient) = .ok (mid, found)
  vault_ok : parties.checkVault sale = .ok ()
  allowed : who.check record recipient signer.address = .ok ()
  quoted : record.quoteFor recipient (some (found.bind sale recipient bump)) request.desiredUnits
    mid.now = .ok quote
  settled : request.settle quote record.available
    (record.walletRemaining (found.bind sale recipient bump).minted) = .ok units
  cost_eq : units.toNat * quote.price.toNat = cost.toNat
  collected_eq : mid.collect sale record.terms.currency signer.address parties cost = .ok collected
  in_stock : units ≤ record.available
  allocated_eq : record.allocated.toNat + units.toNat = allocated.toNat
  minted_eq : record.totalMinted.toNat + units.toNat = minted.toNat
  paid_eq : record.amountPaid.toNat + cost.toNat = paid.toNat
  held_eq : (found.bind sale recipient bump).minted.toNat + units.toNat = held.toNat
  state_eq : receipt.state = (collected.setSale sale
    { record with allocated := allocated, totalMinted := minted, amountPaid := paid }).setLedger
      (.ledger sale recipient) { found.bind sale recipient bump with minted := held }
  events_eq : receipt.events =
    [.unitsMinted sale recipient signer.address units quote.price cost]

theorem purchase_ok {who : Buyer} {sale ledger recipient : Address} {request : MintRequest}
    {parties : TokenParties}
    (h : st.purchase signer who sale ledger recipient request parties = .ok receipt) :
    Nonempty (Purchase st signer who sale ledger recipient request parties receipt) := by
  simp only [purchase, bind_eq_ok, load_eq_ok, verified_eq_ok, checkSeeds_eq_ok, ruled_eq_ok,
    demand_eq_ok, pure_eq_ok, Checked.mul_eq_some_iff, Sale.attempt_recordMint,
    Ledger.attempt_recordMint] at h
  obtain ⟨record, hload, payer, ⟨hsigned, rfl⟩, ⟨⟩, hbrought, -, hledger, ⟨mid, found⟩, hmid, ⟨⟩,
    hvault, ⟨⟩, hallowed, quote, hquote, units, hsettle, cost, hcost, collected, hcollected, -,
    ⟨hstock, allocated, minted, paid, ha, hm, hp, rfl⟩, -, ⟨held, hheld, rfl⟩, rfl⟩ := h
  subst hledger
  exact ⟨{
    record, found, quote, units, cost, mid, collected, allocated, minted, paid, held
    signed := hsigned
    loaded := hload
    brought := hbrought
    ledger_eq := rfl
    mid_eq := hmid
    vault_ok := hvault
    allowed := hallowed
    quoted := hquote
    settled := hsettle
    cost_eq := hcost
    collected_eq := hcollected
    in_stock := hstock
    allocated_eq := ha
    minted_eq := hm
    paid_eq := hp
    held_eq := hheld
    state_eq := rfl
    events_eq := rfl }⟩

/-- Units that were burned. -/
structure Burning (st : State) (signer : Signer) (sale ledger : Address) (units : UInt64)
    (receipt : Receipt) where
  record : Sale
  holding : Ledger
  burned : UInt64
  totalBurned : UInt64
  signed : signer.signed = true
  loaded : st.sales.find? sale = some record
  held : st.ledgers.find? (.ledger sale signer.address) = some holding
  ledger_eq : ledger = .ledger sale signer.address
  holder : holding.holder = signer.address
  some_units : 0 < units
  in_balance : units ≤ holding.balance
  burned_eq : holding.burned.toNat + units.toNat = burned.toNat
  total_eq : record.totalBurned.toNat + units.toNat = totalBurned.toNat
  state_eq : receipt.state = (st.setSale sale { record with totalBurned := totalBurned }).setLedger
    (.ledger sale signer.address) { holding with burned := burned }
  events_eq : receipt.events = [.unitsBurned sale signer.address units]

theorem burn_ok {sale ledger : Address} {units : UInt64}
    (h : st.burn signer sale ledger units = .ok receipt) :
    Nonempty (Burning st signer sale ledger units receipt) := by
  simp only [burn, bind_eq_ok, load_eq_ok, verified_eq_ok, checkSeeds_eq_ok, require_eq_ok,
    ruled_eq_ok, pure_eq_ok, Sale.attempt_recordBurn, Ledger.attempt_recordBurn] at h
  obtain ⟨record, hload, holding, hheld, holder, ⟨hsigned, rfl⟩, -, hledger, -, hholder, -,
    ⟨hpos, hbalance, burned, hburned, rfl⟩, -, ⟨total, htotal, rfl⟩, rfl⟩ := h
  subst hledger
  exact ⟨{
    record, holding, burned
    totalBurned := total
    signed := hsigned
    loaded := hload
    held := hheld
    ledger_eq := rfl
    holder := hholder
    some_units := hpos
    in_balance := hbalance
    burned_eq := hburned
    total_eq := htotal
    state_eq := rfl
    events_eq := rfl }⟩

/-! ## The treasury -/

/-- A withdrawal that was paid out. -/
structure Withdrawal (st : State) (signer : Signer) (sale recipient : Address)
    (parties : TokenParties) (amount : UInt64) (receipt : Receipt) where
  record : Sale
  withdrawn : UInt64
  /-- After the money was moved. -/
  moved : State
  signed : signer.signed = true
  loaded : st.sales.find? sale = some record
  brought : parties.load st = .ok ()
  owner : signer.address = record.terms.owner
  recipient_eq : recipient = record.terms.recipient
  vault_ok : parties.checkVault sale = .ok ()
  some_money : 0 < amount
  payable : amount ≤ record.amountPayable
  withdrawn_eq : record.amountWithdrawn.toNat + amount.toNat = withdrawn.toNat
  moved_eq : (match record.terms.currency with
    | .native => st.withdrawCoins sale recipient amount
    | .token mint => st.withdrawTokens sale mint recipient parties amount) = .ok moved
  state_eq : receipt.state = moved.setSale sale { record with amountWithdrawn := withdrawn }
  events_eq : receipt.events = [.fundsWithdrawn sale recipient amount]

theorem withdraw_ok {sale recipient : Address} {parties : TokenParties} {amount : UInt64}
    (h : st.withdraw signer sale recipient parties amount = .ok receipt) :
    Nonempty (Withdrawal st signer sale recipient parties amount receipt) := by
  simp only [withdraw, bind_eq_ok, load_eq_ok, verified_eq_ok, require_eq_ok, ruled_eq_ok,
    Sale.attempt_recordWithdrawal] at h
  obtain ⟨record, hload, owner, ⟨hsigned, rfl⟩, ⟨⟩, hbrought, -, howner, -, hrecipient, ⟨⟩, hvault,
    -, hpos, -, ⟨hpayable, withdrawn, hwithdrawn, rfl⟩, hlast⟩ := h
  obtain ⟨moved, hmoved, rfl⟩ : ∃ moved, (match record.terms.currency with
      | .native => st.withdrawCoins sale recipient amount
      | .token mint => st.withdrawTokens sale mint recipient parties amount) = .ok moved ∧
      receipt = ⟨moved.setSale sale { record with amountWithdrawn := withdrawn }, .none,
        [.withdrew amount recipient], [.fundsWithdrawn sale recipient amount]⟩ := by
    -- the two currencies differ only in how the money is moved
    cases hcur : record.terms.currency with
    | native => simpa [hcur, eq_comm (b := receipt)] using hlast
    | token mint => simpa [hcur, eq_comm (b := receipt)] using hlast
  exact ⟨{
    record, withdrawn, moved
    signed := hsigned
    loaded := hload
    brought := hbrought
    owner := howner
    recipient_eq := hrecipient
    vault_ok := hvault
    some_money := hpos
    payable := hpayable
    withdrawn_eq := hwithdrawn
    moved_eq := hmoved
    state_eq := rfl
    events_eq := rfl }⟩

/-! ## Reservations -/

/-- A reservation that was made. -/
structure Reservation (st : State) (signer : Signer) (sale shuffle commitment : Address)
    (ledger : Option Address) (hash : Bytes32) (units maximumPrice : UInt64)
    (parties : TokenParties) (receipt : Receipt) where
  record : Sale
  draw : Shuffle
  /-- The ledger that was brought along. -/
  held : Option Ledger
  /-- The commitment as it was found or created. -/
  found : Commitment
  quote : SaleQuote
  cost : UInt64
  /-- After the commitment's account was paid for. -/
  mid : State
  /-- After the cost was collected. -/
  collected : State
  allocated : UInt64
  reserved : UInt64
  pending : UInt64
  paid : UInt64
  signed : signer.signed = true
  loaded : st.sales.find? sale = some record
  drawn : st.shuffles.find? (.shuffle sale) = some draw
  held_eq : ledger.mapM (load st.ledgers) = .ok held
  brought : parties.load st = .ok ()
  commitment_eq : commitment = .commitment sale signer.address
  mid_eq : st.withCommitment signer.address (.commitment sale signer.address) = .ok (mid, found)
  shuffle_eq : shuffle = .shuffle sale
  ledger_ok : ∀ l, ledger = some l → l = .ledger sale signer.address
  vault_ok : parties.checkVault sale = .ok ()
  quoted : record.quoteFor signer.address held units mid.now = .ok quote
  cost_eq : quote.reservationCost units maximumPrice = .ok cost
  collected_eq : mid.collect sale record.terms.currency signer.address parties cost = .ok collected
  some_units : 0 < units
  unused : found.units = 0
  opened : draw.phase = .opened
  in_stock : units ≤ record.available
  allocated_eq : record.allocated.toNat + units.toNat = allocated.toNat
  reserved_eq : draw.totalReserved.toNat + units.toNat = reserved.toNat
  pending_eq : draw.pending.toNat + 1 = pending.toNat
  paid_eq : record.amountPaid.toNat + cost.toNat = paid.toNat
  state_eq : receipt.state = ((collected.setSale sale
    { record with allocated := allocated, amountPaid := paid }).setShuffle (.shuffle sale)
      { draw with
        totalReserved := reserved
        pending := pending
        phase := Booking.phaseAfterCommit
          ({ record with allocated := allocated } : Sale).available }).setCommitment
            (.commitment sale signer.address)
            ⟨sale, signer.address, hash, units, 0, .committed, collected.now, bump⟩
  events_eq : receipt.events = [.reservationCommitted sale signer.address units cost]

/-- A ledger that may be brought along has to be the one derived. -/
theorem checkBrought_eq_ok {brought : Option Address} {derived : Address}
    {rest : Except Fault Receipt} :
    (match brought with
      | some l => checkSeeds l derived >>= fun _ => rest
      | none => rest) = .ok receipt
      ↔ (∀ l, brought = some l → l = derived) ∧ rest = .ok receipt := by
  cases brought with
  | none => simp
  | some l => simp

theorem commit_ok {sale shuffle commitment : Address} {ledger : Option Address} {hash : Bytes32}
    {units maximumPrice : UInt64} {parties : TokenParties}
    (h : st.commit signer sale shuffle commitment ledger hash units maximumPrice parties
      = .ok receipt) :
    Nonempty (Reservation st signer sale shuffle commitment ledger hash units maximumPrice parties
      receipt) := by
  simp only [commit, bind_eq_ok, load_eq_ok, verified_eq_ok, checkSeeds_eq_ok] at h
  obtain ⟨record, hload, draw, hdraw, held, hheld, buyer, ⟨hsigned, rfl⟩, ⟨⟩, hbrought, -,
    hcommitment, ⟨mid, found⟩, hmid, -, hshuffle, hchecked⟩ := h
  obtain ⟨hledger, hrest⟩ := checkBrought_eq_ok.mp hchecked
  simp only [bind_eq_ok, ruled_eq_ok, pure_eq_ok, Booking.attempt_commit,
    Sale.attempt_recordPayment] at hrest
  obtain ⟨⟨⟩, hvault, quote, hquote, cost, hcost, collected, hcollected, -, ⟨hpos, hunused, hopened,
    hstock, allocated, reserved, pending, ha, hr, hn, rfl⟩, -, ⟨paid, hpaid, rfl⟩, rfl⟩ := hrest
  subst hcommitment hshuffle
  exact ⟨{
    record, draw, held, found, quote, cost, mid, collected, allocated, reserved, pending, paid
    signed := hsigned
    loaded := hload
    drawn := hdraw
    held_eq := hheld
    brought := hbrought
    commitment_eq := rfl
    mid_eq := hmid
    shuffle_eq := rfl
    ledger_ok := hledger
    vault_ok := hvault
    quoted := hquote
    cost_eq := hcost
    collected_eq := hcollected
    some_units := hpos
    unused := hunused
    opened := hopened
    in_stock := hstock
    allocated_eq := ha
    reserved_eq := hr
    pending_eq := hn
    paid_eq := hpaid
    state_eq := rfl
    events_eq := rfl }⟩

/-- A reveal window that was opened. -/
structure WindowOpening (st : State) (signer : Signer) (sale shuffle : Address) (seed : Bytes32)
    (bound : TimeBound) (receipt : Receipt) where
  record : Sale
  draw : Shuffle
  deadline : Int64
  hardDeadline : Int64
  signed : signer.signed = true
  loaded : st.sales.find? sale = some record
  drawn : st.shuffles.find? (.shuffle sale) = some draw
  owner : signer.address = record.terms.owner
  shuffle_eq : shuffle = .shuffle sale
  phase : draw.phase = .opened ∨ draw.phase = .reserved
  some_reserved : 0 < draw.totalReserved
  valid : bound.Valid
  deadline_eq : Checked.addTime st.now bound.baseDuration = some deadline
  hardDeadline_eq : Checked.addTime deadline bound.maxExtraTime = some hardDeadline
  state_eq : receipt.state = st.setShuffle (.shuffle sale) { draw with
    seed := seed, timeBound := bound, revealStartedAt := st.now, deadline := deadline
    hardDeadline := hardDeadline, phase := .revealing }
  events_eq : receipt.events = [.revealStarted sale draw.totalReserved deadline hardDeadline]

theorem startReveal_ok {sale shuffle : Address} {seed : Bytes32} {bound : TimeBound}
    (h : st.startReveal signer sale shuffle seed bound = .ok receipt) :
    Nonempty (WindowOpening st signer sale shuffle seed bound receipt) := by
  simp only [startReveal, bind_eq_ok, load_eq_ok, verified_eq_ok, require_eq_ok, checkSeeds_eq_ok,
    ruled_eq_ok, pure_eq_ok, Booking.attempt_startReveal] at h
  obtain ⟨record, hload, draw, hdraw, owner, ⟨hsigned, rfl⟩, -, howner, -, hshuffle, -, ⟨hphase,
    hreserved, hvalid, deadline, hardDeadline, hd, hh, rfl⟩, rfl⟩ := h
  subst hshuffle
  exact ⟨{
    record, draw, deadline, hardDeadline
    signed := hsigned
    loaded := hload
    drawn := hdraw
    owner := howner
    shuffle_eq := rfl
    phase := hphase
    some_reserved := hreserved
    valid := hvalid
    deadline_eq := hd
    hardDeadline_eq := hh
    state_eq := rfl
    events_eq := rfl }⟩

/-- A secret that was revealed. -/
structure Revelation (st : State) (signer : Signer) (sale shuffle commitment : Address)
    (secret : Bytes32) (receipt : Receipt) where
  record : Sale
  draw : Shuffle
  reservation : Commitment
  revealed : UInt64
  pending : UInt64
  signed : signer.signed = true
  loaded : st.sales.find? sale = some record
  drawn : st.shuffles.find? (.shuffle sale) = some draw
  reserved : st.commitments.find? (.commitment sale signer.address) = some reservation
  shuffle_eq : shuffle = .shuffle sale
  commitment_eq : commitment = .commitment sale signer.address
  buyer : reservation.buyer = signer.address
  committed : reservation.status = .committed
  some_units : 0 < reservation.units
  revealing : draw.phase = .revealing
  in_time : st.now ≤ draw.deadline
  hash_eq : commitmentHash secret = reservation.hash
  revealed_eq : draw.revealedUnits.toNat + reservation.units.toNat = revealed.toNat
  pending_eq : draw.pending.toNat = 1 + pending.toNat
  state_eq : receipt.state = (st.setShuffle (.shuffle sale) { draw with
      seed := accumulateSeed draw.seed secret
      deadline := draw.extendedDeadline st.now
      revealedUnits := revealed
      pending := pending
      phase := Booking.phaseAfterReveal pending }).setCommitment (.commitment sale signer.address)
        { reservation with status := .revealed, slotStart := draw.revealedUnits }
  events_eq : receipt.events = [.secretRevealed sale signer.address reservation.units
    draw.revealedUnits (draw.extendedDeadline st.now)]

theorem reveal_ok {sale shuffle commitment : Address} {secret : Bytes32}
    (h : st.reveal signer sale shuffle commitment secret = .ok receipt) :
    Nonempty (Revelation st signer sale shuffle commitment secret receipt) := by
  simp only [reveal, bind_eq_ok, load_eq_ok, verified_eq_ok, require_eq_ok, checkSeeds_eq_ok,
    ruled_eq_ok, pure_eq_ok, Booking.attempt_reveal] at h
  obtain ⟨record, hload, draw, hdraw, reservation, hreserved, buyer, ⟨hsigned, rfl⟩, -, hshuffle, -,
    hcommitment, -, hbuyer, -, ⟨⟨hstatus, hpos⟩, hphase, htime, hhash, revealed, pending, hr, hn,
    rfl⟩, rfl⟩ := h
  subst hshuffle hcommitment
  exact ⟨{
    record, draw, reservation, revealed, pending
    signed := hsigned
    loaded := hload
    drawn := hdraw
    reserved := hreserved
    shuffle_eq := rfl
    commitment_eq := rfl
    buyer := hbuyer
    committed := hstatus
    some_units := hpos
    revealing := hphase
    in_time := htime
    hash_eq := hhash
    revealed_eq := hr
    pending_eq := hn
    state_eq := rfl
    events_eq := rfl }⟩

/-- Ids that were drawn. -/
structure Drawing (st : State) (signer : Signer) (sale shuffle : Address) (receipt : Receipt) where
  record : Sale
  draw : Shuffle
  forfeited : UInt64
  allocated : UInt64
  signed : signer.signed = true
  loaded : st.sales.find? sale = some record
  drawn : st.shuffles.find? (.shuffle sale) = some draw
  shuffle_eq : shuffle = .shuffle sale
  phase : draw.phase = .revealed ∨ draw.phase = .revealing ∧ draw.deadline < st.now
  small : draw.revealedUnits.toNat < UInt32.size
  forfeited_eq : draw.totalReserved.toNat = draw.revealedUnits.toNat + forfeited.toNat
  allocated_eq : record.allocated.toNat = forfeited.toNat + allocated.toNat
  state_eq : receipt.state = (st.setSale sale { record with allocated := allocated }).setShuffle
    (.shuffle sale) { draw with
      permutation := permutation draw.seed draw.revealedUnits.toUInt32
      forfeitedUnits := forfeited
      phase := .shuffled }
  events_eq : receipt.events = [.idsRevealed sale draw.totalReserved forfeited]

theorem revealIds_ok {sale shuffle : Address}
    (h : st.revealIds signer sale shuffle = .ok receipt) :
    Nonempty (Drawing st signer sale shuffle receipt) := by
  simp only [revealIds, bind_eq_ok, load_eq_ok, verified_eq_ok, checkSeeds_eq_ok, ruled_eq_ok,
    pure_eq_ok, Booking.attempt_revealIds] at h
  obtain ⟨record, hload, draw, hdraw, -, ⟨hsigned, -⟩, -, hshuffle, -, ⟨hphase, hsmall, forfeited,
    allocated, hf, ha, rfl⟩, rfl⟩ := h
  subst hshuffle
  exact ⟨{
    record, draw, forfeited, allocated
    signed := hsigned
    loaded := hload
    drawn := hdraw
    shuffle_eq := rfl
    phase := hphase
    small := hsmall
    forfeited_eq := hf
    allocated_eq := ha
    state_eq := rfl
    events_eq := rfl }⟩

/-- The ids of a reservation: the slice of the permutation that its slots cover. -/
def idsOf (draw : Shuffle) (reservation : Commitment) : List UInt32 :=
  (draw.permutation.drop reservation.slotStart.toNat).take reservation.units.toNat

/-- Ids that were handed out. -/
structure Handout (st : State) (signer : Signer) (sale shuffle commitment ledger : Address)
    (receipt : Receipt) where
  record : Sale
  draw : Shuffle
  reservation : Commitment
  /-- The ledger as it was found or created. -/
  found : Ledger
  /-- After the ledger's account was paid for. -/
  mid : State
  minted : UInt64
  held : UInt64
  signed : signer.signed = true
  loaded : st.sales.find? sale = some record
  drawn : st.shuffles.find? (.shuffle sale) = some draw
  reserved : st.commitments.find? (.commitment sale signer.address) = some reservation
  ledger_eq : ledger = .ledger sale signer.address
  mid_eq : st.withLedger signer.address (.ledger sale signer.address) = .ok (mid, found)
  shuffle_eq : shuffle = .shuffle sale
  commitment_eq : commitment = .commitment sale signer.address
  buyer : reservation.buyer = signer.address
  shuffled : draw.phase = .shuffled
  revealed : reservation.status = .revealed
  inside : reservation.slotStart.toNat + reservation.units.toNat ≤ draw.permutation.length
  minted_eq : record.totalMinted.toNat + reservation.units.toNat = minted.toNat
  held_eq : (found.bind sale signer.address bump).minted.toNat + reservation.units.toNat
    = held.toNat
  state_eq : receipt.state = ((mid.setSale sale
    { record with totalMinted := minted }).setCommitment (.commitment sale signer.address)
      { reservation with status := .claimed }).setLedger (.ledger sale signer.address)
        { found.bind sale signer.address bump with minted := held }
  events_eq : receipt.events = [.reservationClaimed sale signer.address (idsOf draw reservation)]

theorem claimReserved_ok {sale shuffle commitment ledger : Address}
    (h : st.claimReserved signer sale shuffle commitment ledger = .ok receipt) :
    Nonempty (Handout st signer sale shuffle commitment ledger receipt) := by
  simp only [claimReserved, bind_eq_ok, load_eq_ok, verified_eq_ok, require_eq_ok,
    checkSeeds_eq_ok, ruled_eq_ok, pure_eq_ok, Booking.attempt_claim, Sale.attempt_recordClaim,
    Ledger.attempt_recordMint] at h
  obtain ⟨record, hload, draw, hdraw, reservation, hreserved, buyer, ⟨hsigned, rfl⟩, -, hledger,
    ⟨mid, found⟩, hmid, -, hshuffle, -, hcommitment, -, hbuyer, -, ⟨hphase, hstatus, hinside, -,
    rfl⟩, -, ⟨minted, hminted, rfl⟩, -, ⟨held, hheld, rfl⟩, rfl⟩ := h
  subst hledger hshuffle hcommitment
  exact ⟨{
    record, draw, reservation, found, mid, minted, held
    signed := hsigned
    loaded := hload
    drawn := hdraw
    reserved := hreserved
    ledger_eq := rfl
    mid_eq := hmid
    shuffle_eq := rfl
    commitment_eq := rfl
    buyer := hbuyer
    shuffled := hphase
    revealed := hstatus
    inside := hinside
    minted_eq := hminted
    held_eq := hheld
    state_eq := rfl
    events_eq := rfl }⟩

end State
end UnitSale
