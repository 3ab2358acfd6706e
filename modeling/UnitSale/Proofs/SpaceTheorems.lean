import UnitSale.Layout.Records
import UnitSale.Proofs.TermsTheorems

/-!
# Accounts fit their space

An account gets its space when it is created and keeps it. The space of a script, a reservation and a
ledger is what their layouts write. The space of a sale allows for the longer form of everything that
may be missing, and the space of a shuffle for as many ids as the sale may have units; that many are
never exceeded, because what is reserved was in stock before.
-/

namespace UnitSale

/-! ## Lengths of layouts -/

namespace Layout

variable {α β : Type}

@[simp] theorem length_write_integer {width : ℕ} {toNat : α → ℕ} {ofNat : ℕ → α} (a : α) :
    ((integer width toNat ofNat).write a).length = width :=
  length_littleEndian _ _

@[simp] theorem length_write_iso {l : Layout α} {make : α → β} {parts : β → α} (b : β) :
    ((l.iso make parts).write b).length = (l.write (parts b)).length := rfl

@[simp] theorem length_write_pair {l : Layout α} {m : Layout β} (ab : α × β) :
    ((l.pair m).write ab).length = (l.write ab.1).length + (m.write ab.2).length :=
  List.length_append

/-- A list takes four bytes and its items. -/
@[simp] theorem length_write_list {l : Layout α} (items : List α) :
    (l.list.write items).length = 4 + (items.map fun a => (l.write a).length).sum := by
  simp [list, uint32, List.length_flatMap]

@[simp] theorem length_write_bool (b : Bool) : (bool.write b).length = 1 := rfl

@[simp] theorem length_write_choice {index : α → UInt8} {cases : List α} (a : α) :
    ((choice index cases).write a).length = 1 := rfl

@[simp] theorem length_write_bytes32 (b : Bytes32) : (bytes32.write b).length = 32 :=
  b.length_toList

@[simp] theorem length_write_word (w : Word) : (word.write w).length = 32 :=
  length_write_bytes32 _

@[simp] theorem length_write_address (a : Address) : (address.write a).length = 32 :=
  length_write_bytes32 _

/-- An address that may be missing takes up to a byte more than an address. -/
theorem length_write_option_address (o : Option Address) :
    (address.option.write o).length ≤ 33 := by
  cases o <;> simp [option]

theorem length_write_currency (c : Currency) : (currency.write c).length ≤ 33 := by
  cases c <;> simp [currency]

end Layout

/-! ## Lengths of records -/

/-- The space of a script is the length of its layout. -/
theorem Script.length_encode (s : Script) : (Layout.script.encode s).length = s.space := by
  have hsources : s.sources.foldr (fun source total => 4 + 4 * source.length + total) 0
      = (s.sources.map fun source => 4 + 4 * source.length).sum := by
    rw [List.sum_eq_foldr, List.foldr_map]
  have hlength : (Layout.script.encode s).length
      = 4 + (s.sources.map fun source => 4 + 4 * source.length).sum
        + (4 + 32 * s.constants.length) := by
    simp [Layout.encode, Layout.script, Layout.op, Layout.uint16, Nat.mul_comm]
  rw [hlength, space, hsources]
  omega

theorem Commitment.length_encodeAccount (c : Commitment) :
    (Layout.commitment.encodeAccount Layout.commitmentDiscriminator c).length
      = Commitment.space := by
  simp [Layout.encodeAccount, Layout.commitment, Layout.commitmentStatus, Layout.uint64,
    Layout.int64, Layout.uint8, Layout.commitmentDiscriminator, Commitment.space]

theorem Ledger.length_encodeAccount (l : Ledger) :
    (Layout.ledger.encodeAccount Layout.ledgerDiscriminator l).length = Ledger.space := by
  simp [Layout.encodeAccount, Layout.ledger, Layout.uint64, Layout.uint8,
    Layout.ledgerDiscriminator, Ledger.space]

/-- A sale takes the space of its script, that of its minter and its currency, and a fixed rest. -/
theorem Sale.length_encodeAccount (s : Sale) :
    (Layout.sale.encodeAccount Layout.saleDiscriminator s).length
      = 207 + (Layout.address.option.write s.terms.delegatedMinter).length
        + (Layout.currency.write s.terms.currency).length + s.terms.script.space := by
  have hscript : (Layout.script.write s.terms.script).length = s.terms.script.space :=
    s.terms.script.length_encode
  simp +arith [Layout.encodeAccount, Layout.sale, Layout.uint64, Layout.uint16, Layout.uint8,
    Layout.saleDiscriminator, hscript]

/-- A sale takes at most the space for its script. -/
theorem Sale.length_encodeAccount_le (s : Sale) :
    (Layout.sale.encodeAccount Layout.saleDiscriminator s).length
      ≤ Sale.space s.terms.script := by
  have hminter := Layout.length_write_option_address s.terms.delegatedMinter
  have hcurrency := Layout.length_write_currency s.terms.currency
  rw [s.length_encodeAccount, Sale.space]
  omega

/-- A shuffle takes four bytes for each id, and a fixed rest. -/
theorem Shuffle.length_encodeAccount (d : Shuffle) :
    (Layout.shuffle.encodeAccount Layout.shuffleDiscriminator d).length
      = 150 + 4 * d.permutation.length := by
  simp +arith [Layout.encodeAccount, Layout.shuffle, Layout.phase, Layout.timeBound, Layout.uint64,
    Layout.int64, Layout.uint32, Layout.uint8, Layout.shuffleDiscriminator]

/-- A shuffle takes at most the space for a limit that bounds its ids. -/
theorem Shuffle.length_encodeAccount_le {d : Shuffle} {limit : UInt64}
    (hids : d.permutation.length ≤ limit.toNat) (hlimit : limit.toNat ≤ maxSupplyLimit.toNat) :
    (Layout.shuffle.encodeAccount Layout.shuffleDiscriminator d).length ≤ Shuffle.space limit := by
  have hleast : (Checked.least limit maxSupplyLimit).toNat = limit.toNat := by
    rw [Checked.toNat_least]
    exact Nat.min_eq_left hlimit
  rw [d.length_encodeAccount, Shuffle.space, hleast]
  omega

/-! ## Ids of a sale -/

/-- What bounds the ids of a sale: reservations were in stock, and ids are drawn for reservations. -/
structure Bounded (record : Sale) (draw : Shuffle) : Prop where
  allocated_le : record.allocated.toNat ≤ record.terms.supplyLimit.toNat
  reserved_le : draw.totalReserved.toNat ≤ record.terms.supplyLimit.toNat
  /-- Until the ids are drawn, no reservation goes back to stock. -/
  reserved_taken : draw.phase ≠ .shuffled → draw.totalReserved.toNat ≤ record.allocated.toNat
  length_le : draw.permutation.length ≤ draw.totalReserved.toNat

/-- A sale that has just been opened. -/
theorem Bounded.opened (owner sale : Address) (number : UInt64) (config : SaleConfig) (depth : UInt16) :
    Bounded (State.openedSale owner number config depth) (Shuffle.blank.bind sale State.bump) where
  allocated_le := Nat.zero_le _
  reserved_le := Nat.zero_le _
  reserved_taken := fun _ => Nat.le_refl _
  length_le := Nat.le_refl _

/-- Every turn keeps the ids of a sale bounded. -/
theorem State.Turn.bounded {st : State} {signer : Signer} {receipt : Receipt} {sale : Address}
    {record record' : Sale} {draw draw' : Shuffle}
    (h : State.Turn st signer receipt sale record draw record' draw')
    (hbounded : Bounded record draw) : Bounded record' draw' := by
  have hallocated := hbounded.allocated_le
  have hreserved := hbounded.reserved_le
  have hlength := hbounded.length_le
  cases h with
  | keeps => exact hbounded
  | opensVault => exact { hbounded with }
  | burns => exact { hbounded with }
  | paysOut => exact { hbounded with }
  | handsOut => exact { hbounded with }
  | sells p hrecord =>
    subst hrecord
    have htaken := p.allocated_eq
    exact { hbounded with
      allocated_le := p.record.taken_le hallocated p.in_stock htaken
      reserved_taken := fun hphase => by
        have hbefore := hbounded.reserved_taken hphase
        show draw.totalReserved.toNat ≤ p.allocated.toNat
        omega }
  | reserves r hrecord hdraw =>
    subst hrecord hdraw
    have htaken := r.allocated_eq
    have hsum := r.reserved_eq
    have hle := r.record.taken_le hallocated r.in_stock htaken
    have hbefore := hbounded.reserved_taken (by rw [r.opened]; decide)
    exact {
      allocated_le := hle
      reserved_le := by
        show r.reserved.toNat ≤ r.record.terms.supplyLimit.toNat
        omega
      reserved_taken := fun _ => by
        show r.reserved.toNat ≤ r.allocated.toNat
        omega
      length_le := by
        show r.draw.permutation.length ≤ r.reserved.toNat
        omega }
  | opensWindow w hrecord hdraw =>
    subst hrecord hdraw
    have hne : w.draw.phase ≠ .shuffled := by
      rcases w.phase with hphase | hphase <;> rw [hphase] <;> decide
    exact { hbounded with reserved_taken := fun _ => hbounded.reserved_taken hne }
  | reveals r hrecord hdraw =>
    subst hrecord hdraw
    have hne : r.draw.phase ≠ .shuffled := by
      rw [r.revealing]
      decide
    exact { hbounded with reserved_taken := fun _ => hbounded.reserved_taken hne }
  | draws d hrecord hdraw =>
    subst hrecord hdraw
    have hforfeited := d.forfeited_eq
    have hreleased := d.allocated_eq
    -- there is an id for each revealed unit, and what is revealed was reserved
    have hids := (permutation_perm d.draw.seed d.draw.revealedUnits.toUInt32).length_eq
    rw [length_idsUpTo, UInt64.toNat_toUInt32, Nat.mod_eq_of_lt d.small] at hids
    exact {
      allocated_le := by
        show d.allocated.toNat ≤ d.record.terms.supplyLimit.toNat
        omega
      reserved_le := hreserved
      reserved_taken := fun hphase => absurd rfl hphase
      length_le := by
        show (permutation d.draw.seed d.draw.revealedUnits.toUInt32).length
          ≤ d.draw.totalReserved.toNat
        omega }

theorem bounded_of_run {start st : State} {trace : List Entry} {sale : Address} {record : Sale}
    {draw : Shuffle} (hfresh : start.Fresh) (h : Run start trace st)
    (hrecord : st.books.sales.find? sale = some record)
    (hdraw : st.books.shuffles.find? (.shuffle sale) = some draw) : Bounded record draw :=
  Run.each_sale hfresh (fun _ => .opened ..) State.Turn.bounded h sale record draw hrecord hdraw

/-- The space of every script is the length of its layout. After every run from the opening of a
sale, with the ids drawn or not, its record and its shuffle are no longer than the space that the
opening created them with, and all reservations and ledgers take exactly theirs. -/
theorem accounts_fit_space :
    (∀ s : Script, (Layout.script.encode s).length = s.space) ∧
    ∀ {start mid st : State} {trace later : List Entry} {call : Call} {receipt : Receipt}
      {sale shuffle : Address} {number : UInt64} {config : SaleConfig},
      start.Fresh → Run start trace mid → mid.execute call = .ok receipt →
      call.instruction = .openSale sale shuffle number config → Run receipt.state later st →
      (∃ record draw, st.sales.find? sale = some record ∧
        st.shuffles.find? (.shuffle sale) = some draw ∧
        (Layout.sale.encodeAccount Layout.saleDiscriminator record).length
          ≤ Sale.space config.script ∧
        (Layout.shuffle.encodeAccount Layout.shuffleDiscriminator draw).length
          ≤ Shuffle.space config.supplyLimit) ∧
      (∀ key c, st.commitments.find? key = some c →
        (Layout.commitment.encodeAccount Layout.commitmentDiscriminator c).length
          = Commitment.space) ∧
      ∀ key l, st.ledgers.find? key = some l →
        (Layout.ledger.encodeAccount Layout.ledgerDiscriminator l).length = Ledger.space := by
  refine ⟨Script.length_encode, ?_⟩
  intro start mid st trace later call receipt sale shuffle number config hfresh hbefore hopen hcall
    hlater
  have haccepted := State.accepted_of_run hopen
  rw [hcall] at haccepted
  cases haccepted with | openSale o => ?_
  have hfirst : receipt.state.books.sales.find? sale
      = some (State.openedSale call.signer.address number config o.depth) := by
    rw [o.books_eq]
    exact Registry.find?_set_self _ _ _
  obtain ⟨record, hrecord, hterms⟩ :=
    terms_of_run hfresh (hbefore.accepted ⟨mid, call, receipt, hopen⟩) hfirst hlater
  have hrun : Run start _ st := (hbefore.accepted ⟨mid, call, receipt, hopen⟩).trans hlater
  obtain ⟨draw, hdraw, hbalanced⟩ := (sound_of_run hfresh hrun).balanced sale record hrecord
  have hbounded := bounded_of_run hfresh hrun hrecord hdraw
  have hscript : record.terms.script = config.script := congrArg Terms.script hterms
  have hlimit : record.terms.supplyLimit = config.supplyLimit := congrArg Terms.supplyLimit hterms
  refine ⟨⟨record, draw, hrecord, hdraw, ?_, ?_⟩, fun _ c _ => c.length_encodeAccount,
    fun _ l _ => l.length_encodeAccount⟩
  · rw [← hscript]
    exact record.length_encodeAccount_le
  · rw [← hlimit]
    exact Shuffle.length_encodeAccount_le (hbounded.length_le.trans hbounded.reserved_le)
      hbalanced.limit_le

/-- With the ids drawn, the shuffle of the other sale still fits. -/
theorem accounts_fit_space_drawn :
    (Layout.shuffle.encodeAccount Layout.shuffleDiscriminator (Sample.drawnDraw 10)).length
      ≤ Shuffle.space Sample.cappedConfig.supplyLimit := by
  obtain ⟨receipt, later, hopen, -, hlater⟩ :=
    Sample.run_cappedOpened (show (10 : Int64) ≤ 60 by decide)
  obtain ⟨⟨_, draw, -, hdraw, -, hshuffle⟩, -⟩ :=
    accounts_fit_space.2 Sample.start_fresh Run.start hopen rfl hlater
  obtain rfl : Sample.drawnDraw 10 = draw := Option.some.inj hdraw
  exact hshuffle

end UnitSale
