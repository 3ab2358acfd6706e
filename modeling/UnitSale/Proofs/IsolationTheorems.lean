import UnitSale.Proofs.AuthorityTheorems
import UnitSale.Proofs.LedgerTheorems

/-!
# Sales do not interfere

Any number of sales share the chain, and a caller may bring the accounts of one sale to a call about
another. What a call writes is at addresses derived from the sale it is about, and every record
carries what its own address is derived from, so no call reaches a record of another sale.
-/

namespace UnitSale

/-! ## Records at their own addresses -/

/-- Every record is at the address that its own fields derive. -/
structure Books.Placed (b : Books) : Prop where
  sales : ∀ key record, b.sales.find? key = some record →
    key = .sale record.terms.owner record.terms.number
  shuffles : ∀ key draw, b.shuffles.find? key = some draw → key = .shuffle draw.sale
  ledgers : ∀ key l, b.ledgers.find? key = some l → key = .ledger l.sale l.holder
  commitments : ∀ key c, b.commitments.find? key = some c → key = .commitment c.sale c.buyer

theorem DrawStep.sale_eq {now : Int64} {sale : Address} {before : Option Shuffle} {i : Instruction}
    {draw' : Shuffle} (h : DrawStep now sale before i (some draw'))
    (hbefore : ∀ draw, before = some draw → draw.sale = sale) : draw'.sale = sale := by
  cases h with
  | keeps => exact hbefore draw' rfl
  | creates => rfl
  | @reserves draw => exact hbefore draw rfl
  | @opensWindow draw => exact hbefore draw rfl
  | @reveals draw => exact hbefore draw rfl
  | @draws draw => exact hbefore draw rfl

section Step

variable {st : State} {signer : Signer} {receipt : Receipt} {i : Instruction} {key : Address}

theorem State.Accepted.sale_placed (h : st.Accepted signer i receipt) (hsound : st.books.Sound)
    (hplaced : st.books.Placed) {record : Sale}
    (hrecord : receipt.state.books.sales.find? key = some record) :
    key = .sale record.terms.owner record.terms.number := by
  rcases h.known_or_opened hrecord with ⟨old, hold⟩ | ⟨shuffle, number, config, ⟨o⟩⟩
  · obtain ⟨record', hrecord', hterms⟩ := h.terms_kept hsound hold
    obtain rfl : record' = record := Registry.eq_of_find? hrecord' hrecord
    rw [hterms]
    exact hplaced.sales key old hold
  · rw [o.books_eq, Registry.find?_set_self] at hrecord
    obtain rfl := Option.some.inj hrecord
    exact o.sale_eq

theorem State.Accepted.shuffle_placed (h : st.Accepted signer i receipt)
    (hplaced : st.books.Placed) {draw : Shuffle}
    (hdraw : receipt.state.books.shuffles.find? key = some draw) : key = .shuffle draw.sale := by
  by_cases hkey : key = .shuffle i.sale
  · subst hkey
    have hstep : DrawStep st.now i.sale (st.draw? i.sale) i (some draw) :=
      hdraw ▸ h.drawStep i.sale
    have hsale : draw.sale = i.sale := by
      refine hstep.sale_eq fun old hold => ?_
      exact (Address.shuffle.inj (hplaced.shuffles _ old hold)).symm
    rw [hsale]
  · -- a shuffle anywhere else has not been written
    rw [h.confined.shuffles key hkey] at hdraw
    exact hplaced.shuffles key draw hdraw

end Step

/-- In every state that a run reaches, every record is at its own address. -/
theorem placed_of_run {start st : State} {trace : List Entry} (hfresh : start.Fresh)
    (h : Run start trace st) : st.books.Placed := by
  refine Run.invariant (P := fun _ st => st.books.Placed) ?_ ?_ ?_ h
  · rw [hfresh.books_eq]
    exact {
      sales := fun _ _ hfind => by cases hfind
      shuffles := fun _ _ hfind => by cases hfind
      ledgers := fun _ _ hfind => by cases hfind
      commitments := fun _ _ hfind => by cases hfind }
  · intro trace e hrun hplaced
    have hnext := hrun.accepted e
    exact {
      sales := fun _ _ hfind =>
        e.accepted_case.sale_placed (sound_of_run hfresh hrun) hplaced hfind
      shuffles := fun _ _ hfind => e.accepted_case.shuffle_placed hplaced hfind
      ledgers := (tallied_of_run hfresh hnext).keyed
      commitments := (sound_of_run hfresh hnext).keyed }
  · intro trace st st' hout hplaced
    rw [hout.books_eq]
    exact hplaced

/-! ## Other sales -/

/-- What a call about one sale leaves of all others. -/
structure State.Isolated (st st' : State) (target : Address) : Prop where
  /-- Nothing changes at the addresses of other sales. -/
  beside : st.books.SameBeside st'.books target
  /-- The shuffles that name another sale are the same as before, and where they were. -/
  shuffles : ∀ key draw, draw.sale ≠ target →
    (st'.shuffles.find? key = some draw ↔ st.shuffles.find? key = some draw)
  ledgers : ∀ key l, l.sale ≠ target →
    (st'.ledgers.find? key = some l ↔ st.ledgers.find? key = some l)
  commitments : ∀ key c, c.sale ≠ target →
    (st'.commitments.find? key = some c ↔ st.commitments.find? key = some c)
  /-- No tokens leave the vault of another sale. -/
  vaults : ∀ other t, other ≠ target → st.tokens.find? (.vault other) = some t →
    ∃ amount, t.amount ≤ amount ∧
      st'.tokens.find? (.vault other) = some { t with amount := amount }
  /-- Whatever is written is at an address derived from the sale. -/
  confined : st.books.Confined st'.books target
  /-- Every record is at the address that its own fields derive. -/
  placed : st'.books.Placed

/-- A record that both registries keep at its own address only is in both or in neither, if they
agree at this address. -/
theorem Registry.find?_iff_of_own {α : Type} {records records' : Registry Address α}
    {key own : Address} {a : α} (hsame : records'.find? own = records.find? own)
    (hown : records.find? key = some a → key = own)
    (hown' : records'.find? key = some a → key = own) :
    records'.find? key = some a ↔ records.find? key = some a := by
  constructor
  · intro hfind
    obtain rfl := hown' hfind
    rwa [← hsame]
  · intro hfind
    obtain rfl := hown hfind
    rwa [hsame]

/-- A record cannot be changed from outside its sale: it names the sale of its own address, and only
addresses of another sale are written. -/
theorem State.Isolated.of_confined {st st' : State} {target : Address}
    (hconfined : st.books.Confined st'.books target) (hplaced : st.books.Placed)
    (hplaced' : st'.books.Placed)
    (hvaults : ∀ other t, other ≠ target → st.tokens.find? (.vault other) = some t →
      ∃ amount, t.amount ≤ amount ∧
        st'.tokens.find? (.vault other) = some { t with amount := amount }) :
    st.Isolated st' target := by
  have hbeside := hconfined.sameBeside
  exact {
    beside := hbeside
    shuffles := fun key draw hsale => Registry.find?_iff_of_own (hbeside.shuffles draw.sale hsale)
      (hplaced.shuffles key draw) (hplaced'.shuffles key draw)
    ledgers := fun key l hsale => Registry.find?_iff_of_own
      (hbeside.ledgers l.sale hsale l.holder) (hplaced.ledgers key l) (hplaced'.ledgers key l)
    commitments := fun key c hsale => Registry.find?_iff_of_own
      (hbeside.commitments c.sale hsale c.buyer) (hplaced.commitments key c)
      (hplaced'.commitments key c)
    vaults := hvaults
    confined := hconfined
    placed := hplaced' }

/-- Tokens leave no vault but that of the sale an instruction is about. -/
theorem State.Accepted.vault_kept {st : State} {signer : Signer} {receipt : Receipt}
    {i : Instruction} (h : st.Accepted signer i receipt) (hvaulted : st.Vaulted)
    (hkey : signer.address.IsKey) {other : Address} {t : TokenAccount} (hother : other ≠ i.sale)
    (ht : st.tokens.find? (.vault other) = some t) :
    ∃ amount, t.amount ≤ amount ∧
      receipt.state.tokens.find? (.vault other) = some { t with amount := amount } := by
  rcases h.vault_authorized hvaulted hkey ht with hkept | ⟨_, _, _, _, -, -, hwithdraw⟩
  · exact hkept
  · rw [hwithdraw] at hother
    exact absurd rfl hother

/-- In every state that a run reaches, with any number of sales, a call leaves all sales alone but
the one it is about, whatever accounts it brings along and whether it is accepted or refused. -/
theorem sales_isolated {start st : State} {trace : List Entry} (hfresh : start.Fresh)
    (h : Run start trace st) (call : Call) : st.Isolated (st.after call) call.instruction.sale := by
  have hplaced := placed_of_run hfresh h
  cases hcall : st.execute call with
  | error refusal =>
    rw [State.after_of_error hcall]
    refine .of_confined (.refl _ _) hplaced hplaced ?_
    intro other t _ ht
    exact ⟨t.amount, UInt64.le_refl _, ht⟩
  | ok receipt =>
    have haccepted := State.accepted_of_run hcall
    rw [State.after_of_ok hcall]
    refine .of_confined haccepted.confined hplaced ?_ ?_
    · exact placed_of_run hfresh (h.accepted ⟨st, call, receipt, hcall⟩)
    · intro other t hother ht
      exact haccepted.vault_kept (vaulted_of_run hfresh h) ⟨call.key, rfl⟩ hother ht

/-- Opening a second sale leaves the first one as it was. -/
theorem sales_isolated_opened :
    ∃ record other, Sample.opened.sales.find? Sample.sale = some record ∧
      (Sample.opened.after Sample.cappedOpening).sales.find? Sample.capped = some other ∧
      (Sample.opened.after Sample.cappedOpening).sales.find? Sample.sale = some record := by
  have hrecord : Sample.opened.sales.find? Sample.sale
      = some (State.openedSale (.key Sample.owner) 7 Sample.config 2) := rfl
  have hother : (Sample.opened.after Sample.cappedOpening).sales.find? Sample.capped
      = some Sample.cappedRecord := rfl
  have hisolated := sales_isolated Sample.start_fresh Sample.run_opened Sample.cappedOpening
  have hne : Sample.sale ≠ Sample.cappedOpening.instruction.sale := by
    intro heq
    cases heq
  exact ⟨_, _, hrecord, hother, (hisolated.beside.sales _ hne).trans hrecord⟩

end UnitSale
