import UnitSale.Proofs.ProtocolSteps

/-!
# Ledgers add up

A sale counts minted and burned units, and so does the ledger of every holder. The two are written
by the same instructions, each on its own account. Along every run the counters of a sale are the
sums over its ledgers, so no difference of counters is ever cut off at zero, and the supply is what
the holders have.
-/

namespace UnitSale

/-- A figure added up over the ledgers of a sale. -/
def overLedgers (ledgers : Registry Address Ledger) (sale : Address) (figure : Ledger → ℕ) : ℕ :=
  ledgers.totalOf (fun l => l.sale = sale) figure

/-- The counters of a sale are the sums over its ledgers. -/
structure Tallies (record : Sale) (ledgers : Registry Address Ledger) (sale : Address) : Prop where
  minted_eq : record.totalMinted.toNat = overLedgers ledgers sale fun l => l.minted.toNat
  burned_eq : record.totalBurned.toNat = overLedgers ledgers sale fun l => l.burned.toNat

/-- Only the two counters matter. -/
theorem Tallies.of_totals {record record' : Sale} {ledgers : Registry Address Ledger}
    {sale : Address} (h : Tallies record ledgers sale)
    (hminted : record'.totalMinted = record.totalMinted)
    (hburned : record'.totalBurned = record.totalBurned) : Tallies record' ledgers sale where
  minted_eq := by
    rw [hminted]
    exact h.minted_eq
  burned_eq := by
    rw [hburned]
    exact h.burned_eq

/-- Every ledger lives where it belongs, in a sale that exists, and has burned no more than it has
minted; and the counters of every sale are the sums over its ledgers. -/
structure Books.Tallied (b : Books) : Prop where
  keyed : ∀ key l, b.ledgers.find? key = some l → key = .ledger l.sale l.holder
  burned_le : ∀ key l, b.ledgers.find? key = some l → l.burned.toNat ≤ l.minted.toNat
  has_sale : ∀ key l, b.ledgers.find? key = some l → ∃ record, b.sales.find? l.sale = some record
  tallies : ∀ sale record, b.sales.find? sale = some record → Tallies record b.ledgers sale

namespace Books.Tallied

variable {b : Books} {shuffles : Registry Address Shuffle}
  {commitments : Registry Address Commitment} {sale holder other : Address} {record record' : Sale}
  {l found : Ledger}

/-- What stands at the address of a ledger belongs to that sale and that holder. -/
theorem of_ledger (h : b.Tallied) (hl : b.ledgers.find? (.ledger sale holder) = some l) :
    sale = l.sale ∧ holder = l.holder := by
  have hkey := h.keyed _ _ hl
  rw [Address.ledger.injEq] at hkey
  exact hkey

/-- The ledger at hand for a holder, found or blank, is bound to the sale and the holder. -/
theorem bound (h : b.Tallied) (hfound : found = (b.ledgers.find? (.ledger sale holder)).getD .blank)
    (bump : UInt8) :
    (found.bind sale holder bump).sale = sale ∧ (found.bind sale holder bump).holder = holder := by
  subst hfound
  cases hl : b.ledgers.find? (.ledger sale holder) with
  | none => exact ⟨rfl, rfl⟩
  | some l =>
    have hkey := h.of_ledger hl
    rw [Option.getD_some, Ledger.bind]
    split
    · exact ⟨rfl, rfl⟩
    · exact ⟨hkey.1.symm, hkey.2.symm⟩

/-- The ledger at hand for a holder has burned no more than it has minted. -/
theorem found_burned_le (h : b.Tallied)
    (hfound : found = (b.ledgers.find? (.ledger sale holder)).getD .blank) :
    found.burned.toNat ≤ found.minted.toNat := by
  subst hfound
  cases hl : b.ledgers.find? (.ledger sale holder) with
  | none => exact Nat.le_refl _
  | some l => exact h.burned_le _ l hl

/-- Writing the ledger of a holder trades its figure in the sale. -/
theorem overLedgers_set (h : b.Tallied) (hsale : l.sale = sale)
    (hfound : found = (b.ledgers.find? (.ledger sale holder)).getD .blank) (figure : Ledger → ℕ)
    (hblank : figure .blank = 0) :
    overLedgers (b.ledgers.set (.ledger sale holder) l) sale figure + figure found
      = overLedgers b.ledgers sale figure + figure l := by
  have hold : ∀ old, b.ledgers.find? (.ledger sale holder) = some old → old.sale = sale :=
    fun old hl => (h.of_ledger hl).1.symm
  have hset := Registry.totalOf_set (fun l : Ledger => l.sale = sale) figure hold hsale
  rw [hfound, ← Option.getD_map figure, hblank]
  exact hset

/-- Writing a ledger of one sale leaves the figures of the others. -/
theorem overLedgers_set_of_ne (h : b.Tallied) (hsale : l.sale = sale) (hne : other ≠ sale)
    (figure : Ledger → ℕ) :
    overLedgers (b.ledgers.set (.ledger sale holder) l) other figure
      = overLedgers b.ledgers other figure := by
  apply Registry.totalOf_set_of_not
  · intro old hl
    rw [← (h.of_ledger hl).1]
    exact hne.symm
  · rw [hsale]
    exact hne.symm

/-- Without a sale at an address there are no ledgers in it. -/
theorem overLedgers_of_no_sale (h : b.Tallied) (hnone : b.sales.find? sale = none)
    (figure : Ledger → ℕ) :
    overLedgers b.ledgers sale figure = 0 := by
  apply Registry.totalOf_eq_zero
  intro key l hl hsale
  obtain ⟨record, hrecord⟩ := h.has_sale key l hl
  rw [hsale, hnone] at hrecord
  cases hrecord

theorem of_same {b' : Books} (h : b.Tallied) (hsales : b'.sales = b.sales)
    (hledgers : b'.ledgers = b.ledgers) : b'.Tallied where
  keyed := by
    rw [hledgers]
    exact h.keyed
  burned_le := by
    rw [hledgers]
    exact h.burned_le
  has_sale := by
    rw [hledgers, hsales]
    exact h.has_sale
  tallies := by
    rw [hledgers, hsales]
    exact h.tallies

theorem writeSale (h : b.Tallied) (hrecord : Tallies record b.ledgers sale) :
    Books.Tallied ⟨b.sales.set sale record, shuffles, b.ledgers, commitments⟩ where
  keyed := h.keyed
  burned_le := h.burned_le
  has_sale := fun key l hl => Sound.exists_find?_set (h.has_sale key l hl)
  tallies := Registry.forall_find?_set h.tallies hrecord

/-- Writing a sale whose counters stay. -/
theorem keepTotals (h : b.Tallied) (hload : b.sales.find? sale = some record)
    (hminted : record'.totalMinted = record.totalMinted)
    (hburned : record'.totalBurned = record.totalBurned) :
    Books.Tallied ⟨b.sales.set sale record', shuffles, b.ledgers, commitments⟩ :=
  h.writeSale ((h.tallies sale record hload).of_totals hminted hburned)

/-- Writing a sale and one of its ledgers, both by the same amounts. -/
theorem write (h : b.Tallied) (hload : b.sales.find? sale = some record)
    (hfound : found = (b.ledgers.find? (.ledger sale holder)).getD .blank)
    (hsale : l.sale = sale) (hholder : l.holder = holder) (hle : l.burned.toNat ≤ l.minted.toNat)
    (hminted : record'.totalMinted.toNat + found.minted.toNat
      = record.totalMinted.toNat + l.minted.toNat)
    (hburned : record'.totalBurned.toNat + found.burned.toNat
      = record.totalBurned.toNat + l.burned.toNat) :
    Books.Tallied ⟨b.sales.set sale record', shuffles, b.ledgers.set (.ledger sale holder) l,
      commitments⟩ where
  keyed := by
    refine Registry.forall_find?_set h.keyed ?_
    rw [hsale, hholder]
  burned_le := Registry.forall_find?_set h.burned_le hle
  has_sale := by
    refine Registry.forall_find?_set (fun key l' hl' => ?_) ?_
    · exact Sound.exists_find?_set (h.has_sale key l' hl')
    · rw [hsale, Registry.find?_set_self]
      exact ⟨record', rfl⟩
  tallies := by
    intro s r hr
    rw [Registry.find?_set] at hr
    split at hr
    · next hs =>
      subst hs
      obtain rfl := Option.some.inj hr
      obtain ⟨hmold, hbold⟩ := h.tallies s record hload
      have hm := h.overLedgers_set hsale hfound (fun l => l.minted.toNat) rfl
      have hb := h.overLedgers_set hsale hfound (fun l => l.burned.toNat) rfl
      refine { minted_eq := ?_, burned_eq := ?_ }
      · show record'.totalMinted.toNat = overLedgers (b.ledgers.set _ _) s _
        omega
      · show record'.totalBurned.toNat = overLedgers (b.ledgers.set _ _) s _
        omega
    · next hs =>
      have hold := h.tallies s r hr
      refine { minted_eq := ?_, burned_eq := ?_ }
      · rw [h.overLedgers_set_of_ne hsale hs]
        exact hold.minted_eq
      · rw [h.overLedgers_set_of_ne hsale hs]
        exact hold.burned_eq

/-- The balances of all holders add up to what was minted less what was burned. -/
theorem supply_eq (h : b.Tallied) (hrecord : b.sales.find? sale = some record) :
    overLedgers b.ledgers sale (fun l => l.balance.toNat) + record.totalBurned.toNat
      = record.totalMinted.toNat := by
  obtain ⟨hminted, hburned⟩ := h.tallies sale record hrecord
  rw [hminted, hburned, overLedgers, overLedgers, ← Registry.totalOf_add]
  apply Registry.totalOf_congr
  intro key l hl _
  have hle := h.burned_le key l hl
  rw [Ledger.toNat_balance]
  omega

end Books.Tallied

/-! ## Instructions -/

namespace State

variable {st : State} {signer : Signer} {receipt : Receipt}
  {sale shuffle ledger commitment recipient mint vault : Address} {parties : TokenParties}

theorem Opening.tallied {number : UInt64} {config : SaleConfig}
    (o : Opening st signer sale shuffle number config receipt) (h : st.books.Tallied) :
    receipt.state.books.Tallied := by
  rw [o.books_eq]
  exact h.writeSale {
    minted_eq := (h.overLedgers_of_no_sale o.sale_new _).symm
    burned_eq := (h.overLedgers_of_no_sale o.sale_new _).symm }

theorem Purchase.tallied {who : Buyer} {request : MintRequest}
    (p : Purchase st signer who sale ledger recipient request parties receipt)
    (h : st.books.Tallied) : receipt.state.books.Tallied := by
  obtain ⟨-, -, hfound, -⟩ := withLedger_effect p.mid_eq
  have hbound := h.bound hfound bump
  have hle := h.found_burned_le hfound
  have hminted := p.minted_eq
  have hheld := p.held_eq
  rw [Ledger.bind_minted] at hheld
  rw [p.books_eq]
  refine h.write p.loaded hfound hbound.1 hbound.2 ?_ ?_ ?_
  · rw [Ledger.bind_burned]
    show p.found.burned.toNat ≤ p.held.toNat
    omega
  · show p.minted.toNat + p.found.minted.toNat = p.record.totalMinted.toNat + p.held.toNat
    omega
  · rw [Ledger.bind_burned]

theorem Burning.tallied {units : UInt64} (b : Burning st signer sale ledger units receipt)
    (h : st.books.Tallied) : receipt.state.books.Tallied := by
  have hkey := h.of_ledger b.held
  have hbalance := UInt64.le_iff_toNat_le.mp b.in_balance
  have hle := h.burned_le _ _ b.held
  have hburned := b.burned_eq
  have htotal := b.total_eq
  rw [Ledger.toNat_balance] at hbalance
  have hheld : st.books.ledgers.find? (.ledger sale signer.address) = some b.holding := b.held
  have hfound : b.holding = (st.books.ledgers.find? (.ledger sale signer.address)).getD .blank := by
    rw [hheld, Option.getD_some]
  rw [b.books_eq]
  refine h.write b.loaded hfound hkey.1.symm b.holder ?_ rfl ?_
  · show b.burned.toNat ≤ b.holding.minted.toNat
    omega
  · show b.totalBurned.toNat + b.holding.burned.toNat
      = b.record.totalBurned.toNat + b.burned.toNat
    omega

theorem Handout.tallied (c : Handout st signer sale shuffle commitment ledger receipt)
    (h : st.books.Tallied) : receipt.state.books.Tallied := by
  obtain ⟨-, -, hfound, -⟩ := withLedger_effect c.mid_eq
  have hbound := h.bound hfound bump
  have hle := h.found_burned_le hfound
  have hminted := c.minted_eq
  have hheld := c.held_eq
  rw [Ledger.bind_minted] at hheld
  rw [c.books_eq]
  refine h.write c.loaded hfound hbound.1 hbound.2 ?_ ?_ ?_
  · rw [Ledger.bind_burned]
    show c.found.burned.toNat ≤ c.held.toNat
    omega
  · show c.minted.toNat + c.found.minted.toNat = c.record.totalMinted.toNat + c.held.toNat
    omega
  · rw [Ledger.bind_burned]

theorem Accepted.tallied {i : Instruction} (h : st.Accepted signer i receipt)
    (htallied : st.books.Tallied) : receipt.state.books.Tallied := by
  cases h with
  | openSale o => exact o.tallied htallied
  | openVault o =>
    rw [o.books_eq]
    exact htallied.keepTotals o.loaded rfl rfl
  | calculate hstate => exact hstate ▸ htallied
  | mint p => exact p.tallied htallied
  | mintFor p => exact p.tallied htallied
  | burn b => exact b.tallied htallied
  | withdraw w =>
    rw [w.books_eq]
    exact htallied.keepTotals w.loaded rfl rfl
  | royaltyInfo hstate => exact hstate ▸ htallied
  | commit r =>
    rw [r.books_eq]
    exact htallied.keepTotals r.loaded rfl rfl
  | startReveal w =>
    rw [w.books_eq]
    exact htallied.of_same rfl rfl
  | reveal r =>
    rw [r.books_eq]
    exact htallied.of_same rfl rfl
  | revealIds d =>
    rw [d.books_eq]
    exact htallied.keepTotals d.loaded rfl rfl
  | claimReserved c => exact c.tallied htallied

/-- A turn withdraws no more than was paid. -/
theorem Turn.withdrawn_le {record record' : Sale} {draw draw' : Shuffle}
    (h : Turn st signer receipt sale record draw record' draw')
    (hle : record.amountWithdrawn.toNat ≤ record.amountPaid.toNat) :
    record'.amountWithdrawn.toNat ≤ record'.amountPaid.toNat := by
  cases h with
  | keeps => exact hle
  | opensVault => exact hle
  | sells p hrecord =>
    subst hrecord
    exact Nat.le_trans hle (Nat.le.intro p.paid_eq)
  | burns => exact hle
  | paysOut w hrecord =>
    subst hrecord
    have hpayable := UInt64.le_iff_toNat_le.mp w.payable
    have hwithdrawn := w.withdrawn_eq
    rw [Sale.toNat_amountPayable] at hpayable
    show w.withdrawn.toNat ≤ w.record.amountPaid.toNat
    omega
  | reserves r hrecord =>
    subst hrecord
    exact Nat.le_trans hle (Nat.le.intro r.paid_eq)
  | opensWindow => exact hle
  | reveals => exact hle
  | draws => exact hle
  | handsOut => exact hle

end State

/-! ## Runs -/

/-- Ledgers and sales are in step in every state that a run reaches. -/
theorem tallied_of_run {start st : State} {trace : List Entry} (hfresh : start.Fresh)
    (h : Run start trace st) : st.books.Tallied := by
  refine Run.invariant (P := fun _ st => st.books.Tallied) ?_ ?_ ?_ h
  · rw [hfresh.books_eq]
    exact {
      keyed := fun _ _ hl => by simp at hl
      burned_le := fun _ _ hl => by simp at hl
      has_sale := fun _ _ hl => by simp at hl
      tallies := fun _ _ hr => by simp at hr }
  · intro trace e _ htallied
    exact e.accepted_case.tallied htallied
  · intro trace st st' hout htallied
    rw [hout.books_eq]
    exact htallied

/-- No sale has withdrawn more than it was paid in any state that a run reaches. -/
theorem withdrawn_le_of_run {start st : State} {trace : List Entry} (hfresh : start.Fresh)
    (h : Run start trace st) {sale : Address} {record : Sale}
    (hrecord : st.books.sales.find? sale = some record) :
    record.amountWithdrawn.toNat ≤ record.amountPaid.toNat := by
  obtain ⟨draw, hdraw, -⟩ := (sound_of_run hfresh h).balanced sale record hrecord
  exact Run.each_sale (P := fun record _ => record.amountWithdrawn.toNat ≤ record.amountPaid.toNat)
    hfresh (fun _ => Nat.le_refl _) State.Turn.withdrawn_le h sale record draw hrecord hdraw

/-- After every run: the ledger at the address of a sale and a holder is bound to just these, and
has burned no more than it has minted; what a sale counts as minted and as burned are the sums over
its ledgers, and its supply is the sum of their balances. So no balance, no supply and no slot that
a script can read is a difference cut off at zero. -/
theorem ledgers_add_up {start st : State} {trace : List Entry} (hfresh : start.Fresh)
    (h : Run start trace st) :
    (∀ sale holder l, st.ledgers.find? (.ledger sale holder) = some l →
      l.sale = sale ∧ l.holder = holder) ∧
    (∀ key l, st.ledgers.find? key = some l → key = .ledger l.sale l.holder ∧
      l.burned ≤ l.minted ∧ l.balance.toNat + l.burned.toNat = l.minted.toNat) ∧
    ∀ sale record, st.sales.find? sale = some record →
      record.totalMinted.toNat = overLedgers st.ledgers sale (fun l => l.minted.toNat) ∧
      record.totalBurned.toNat = overLedgers st.ledgers sale (fun l => l.burned.toNat) ∧
      record.totalBurned ≤ record.totalMinted ∧
      record.totalSupply.toNat + record.totalBurned.toNat = record.totalMinted.toNat ∧
      record.totalSupply.toNat = overLedgers st.ledgers sale (fun l => l.balance.toNat) ∧
      record.amountPayable.toNat + record.amountWithdrawn.toNat = record.amountPaid.toNat ∧
      ∀ account ledger now,
        (Snapshot.ofSale record account ledger now).read .totalSupply = record.totalSupply ∧
        (Snapshot.ofSale record account ledger now).read .amountPayable = record.amountPayable := by
  have htallied := tallied_of_run hfresh h
  refine ⟨?_, ?_, ?_⟩
  · intro sale holder l hl
    have hkey := htallied.of_ledger hl
    exact ⟨hkey.1.symm, hkey.2.symm⟩
  · intro key l hl
    have hle := htallied.burned_le key l hl
    refine ⟨htallied.keyed key l hl, UInt64.le_iff_toNat_le.mpr hle, ?_⟩
    rw [Ledger.toNat_balance]
    omega
  · intro sale record hrecord
    have htallies := htallied.tallies sale record hrecord
    have hsupply := htallied.supply_eq hrecord
    have hwithdrawn := withdrawn_le_of_run hfresh h hrecord
    have hburned : record.totalBurned.toNat ≤ record.totalMinted.toNat :=
      Nat.le_trans (Nat.le_add_left _ _) (Nat.le_of_eq hsupply)
    refine ⟨htallies.minted_eq, htallies.burned_eq, UInt64.le_iff_toNat_le.mpr hburned, ?_, ?_, ?_,
      fun _ _ _ => ⟨rfl, rfl⟩⟩
    · rw [Sale.toNat_totalSupply]
      omega
    · rw [Sale.toNat_totalSupply]
      show _ = overLedgers st.books.ledgers sale _
      omega
    · rw [Sale.toNat_amountPayable]
      omega

/-- Three units were sold, and the buyer's ledger has them. -/
theorem ledgers_add_up_sold :
    Sample.soldRecord.totalMinted.toNat
        = overLedgers Sample.sold.ledgers Sample.capped (fun l => l.minted.toNat) ∧
      Sample.soldRecord.totalSupply.toNat
        = overLedgers Sample.sold.ledgers Sample.capped (fun l => l.balance.toNat) := by
  obtain ⟨trace, hrun⟩ := Sample.run_sold
  obtain ⟨-, -, hsales⟩ := ledgers_add_up Sample.start_fresh hrun
  obtain ⟨hminted, -, -, -, hsupply, -⟩ := hsales Sample.capped Sample.soldRecord rfl
  exact ⟨hminted, hsupply⟩

end UnitSale
