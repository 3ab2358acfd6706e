import UnitSale.Proofs.PledgeTheorems
import UnitSale.Proofs.PurchaseTheorems

/-!
# Buyers in any order

Buyers who are independent of each other may come in any order. Reservations share the stock and the
counters of a sale, claims share its count of minted units; everything else that either of them
writes is at addresses of its own buyer. So both leave behind what is the same for every order, and
no buyer stands in the way of another.
-/

namespace UnitSale
namespace State

variable {start st st' st₁ st₂ : State} {trace : List Entry} {sale payer address : Address}
  {draw : Shuffle} {key : Bytes32} {keys keys' rest : List Bytes32} {receipt : Receipt}

/-! ## Who can fund a ledger -/

/-- A new account is paid for by exactly those who have what is missing from its rent, if the
address can hold it. -/
theorem create_iff {size : ℕ} (hne : address ≠ payer) :
    (∃ mid, st.create payer address false size = .ok mid) ↔
      st.rentDue address size ≤ (st.balance payer).toNat ∧
        (st.balance address).toNat + st.rentDue address size < UInt64.size := by
  constructor
  · rintro ⟨mid, hcreated⟩
    obtain ⟨hdue, hpaid, -⟩ := create_eq_ok.mp hcreated
    obtain ⟨left, held, hleft, hheld, -⟩ := pay_eq_ok.mp hpaid
    rw [balance_setBalance, if_neg hne, UInt64.toNat_ofNat_of_lt' hdue] at hheld
    rw [UInt64.toNat_ofNat_of_lt' hdue] at hleft
    exact ⟨Nat.le.intro hleft.symm, hheld ▸ held.toNat_lt_size⟩
  · rintro ⟨hle, hlt⟩
    have hdue : st.rentDue address size < UInt64.size :=
      Nat.lt_of_le_of_lt hle (st.balance payer).toNat_lt_size
    have hamount : (UInt64.ofNat (st.rentDue address size)).toNat = st.rentDue address size :=
      UInt64.toNat_ofNat_of_lt' hdue
    obtain ⟨left, hleft⟩ := Checked.exists_amount
      (n := (st.balance payer).toNat - st.rentDue address size)
      (Nat.lt_of_le_of_lt (Nat.sub_le _ _) (st.balance payer).toNat_lt_size)
    obtain ⟨held, hheld⟩ := Checked.exists_amount hlt
    have hpaid : st.pay payer address (UInt64.ofNat (st.rentDue address size))
        = .ok ((st.setBalance payer left).setBalance address held) := by
      refine pay_eq_ok.mpr ⟨left, held, ?_, ?_, rfl⟩
      · omega
      · rw [balance_setBalance, if_neg hne, hamount]
        exact hheld
    exact ⟨_, create_eq_ok.mpr ⟨hdue, hpaid, rfl⟩⟩

/-- Whether a payer can fund a ledger at an address: it is there, or the payer has what is missing
from its rent and the address can hold it. -/
def CanFund (st : State) (payer address : Address) : Prop :=
  st.ledgers.contains address = true ∨
    st.rentDue address Ledger.space ≤ (st.balance payer).toNat ∧
      (st.balance address).toNat + st.rentDue address Ledger.space < UInt64.size

theorem withLedger_iff (hne : address ≠ payer) :
    (∃ r, st.withLedger payer address = .ok r) ↔ st.CanFund payer address := by
  unfold withLedger CanFund Registry.contains
  cases hfound : st.ledgers.find? address with
  | some l => exact ⟨fun _ => .inl rfl, fun _ => ⟨_, rfl⟩⟩
  | none =>
    constructor
    · rintro ⟨r, hr⟩
      obtain ⟨funded, hcreated, -⟩ := bind_eq_ok.mp hr
      exact .inr ((create_iff hne).mp ⟨funded, hcreated⟩)
    · rintro (hnone | hcovered)
      · cases hnone
      · obtain ⟨funded, hcreated⟩ := (create_iff hne).mpr hcovered
        exact ⟨_, bind_eq_ok.mpr ⟨funded, hcreated, rfl⟩⟩

/-- Only the price of storage, the ledger and the two balances matter for funding it. -/
theorem CanFund.of_eq (h : st.CanFund payer address) (hrent : st'.rentPerByte = st.rentPerByte)
    (hledger : st'.ledgers.find? address = st.ledgers.find? address)
    (hpayer : st'.balance payer = st.balance payer)
    (haddress : st'.balance address = st.balance address) : st'.CanFund payer address := by
  unfold CanFund rentDue rent Registry.contains at h ⊢
  rw [hrent, hledger, hpayer, haddress]
  exact h

/-! ## What claims leave behind -/

/-- The signed call by which a key claims its ids. -/
def claimCall (sale : Address) (key : Bytes32) : Call :=
  ⟨key, true, .claimReserved sale (.shuffle sale) (.commitment sale (.key key))
    (.ledger sale (.key key))⟩

/-- The claims of some keys, each at its own time. -/
def claimCalls (sale : Address) (timed : List (Int64 × Bytes32)) : List (Int64 × Call) :=
  timed.map fun t => (t.1, claimCall sale t.2)

theorem claimCalls_cons (sale : Address) (now : Int64) (key : Bytes32)
    (timed : List (Int64 × Bytes32)) : claimCalls sale ((now, key) :: timed)
      = (now, claimCall sale key) :: claimCalls sale timed := rfl

/-- The ids that a buyer has coming. -/
def idsDue (st : State) (sale : Address) (draw : Shuffle) (buyer : Address) : List UInt32 :=
  ((st.commitment? sale buyer).map (idsOf draw)).getD []

/-- The books after claims: the sale has minted all their units, every reservation among them is
claimed and its units are in the ledger of its buyer, and nothing else has changed. -/
structure Claimed (st : State) (sale : Address) (keys : List Bytes32) (st' : State) : Prop where
  sale_eq : ∀ record, st.sales.find? sale = some record → ∃ minted : UInt64,
    st'.sales.find? sale = some { record with totalMinted := minted } ∧
    minted.toNat = record.totalMinted.toNat
      + (keys.map fun k => (st.unitsReserved sale (.key k)).toNat).sum
  other_sales : ∀ a, a ≠ sale → st'.sales.find? a = st.sales.find? a
  shuffles_eq : st'.shuffles = st.shuffles
  commitment_eq : ∀ k ∈ keys, st'.commitment? sale (.key k)
    = (st.commitment? sale (.key k)).map fun c => { c with status := .claimed }
  other_commitments : ∀ a, (∀ k ∈ keys, a ≠ .commitment sale (.key k)) →
    st'.commitments.find? a = st.commitments.find? a
  ledger_eq : ∀ k ∈ keys, ∃ held : UInt64,
    st'.ledgers.find? (.ledger sale (.key k))
      = some { (st.holding sale (.key k)).bind sale (.key k) bump with minted := held } ∧
    held.toNat = (st.holding sale (.key k)).minted.toNat
      + (st.unitsReserved sale (.key k)).toNat
  other_ledgers : ∀ a, (∀ k ∈ keys, a ≠ .ledger sale (.key k)) →
    st'.ledgers.find? a = st.ledgers.find? a

/-- States with the same record of any kind at every address. -/
structure SameBooks (st st' : State) : Prop where
  sales : ∀ a, st'.sales.find? a = st.sales.find? a
  shuffles : ∀ a, st'.shuffles.find? a = st.shuffles.find? a
  ledgers : ∀ a, st'.ledgers.find? a = st.ledgers.find? a
  commitments : ∀ a, st'.commitments.find? a = st.commitments.find? a

namespace Claimed

theorem nil (st : State) (sale : Address) : Claimed st sale [] st where
  sale_eq := fun record hrecord => ⟨record.totalMinted, hrecord, rfl⟩
  other_sales := fun _ _ => rfl
  shuffles_eq := rfl
  commitment_eq := fun _ hk => nomatch hk
  other_commitments := fun _ _ => rfl
  ledger_eq := fun _ hk => nomatch hk
  other_ledgers := fun _ _ => rfl

theorem of_atTime {now : Int64} (h : Claimed (st.atTime now) sale keys st') :
    Claimed st sale keys st' :=
  ⟨h.sale_eq, h.other_sales, h.shuffles_eq, h.commitment_eq, h.other_commitments, h.ledger_eq,
    h.other_ledgers⟩

theorem perm (h : Claimed st sale keys st') (hperm : keys.Perm keys') :
    Claimed st sale keys' st' where
  sale_eq := by
    rw [← (hperm.map fun k => (st.unitsReserved sale (.key k)).toNat).sum_nat]
    exact h.sale_eq
  other_sales := h.other_sales
  shuffles_eq := h.shuffles_eq
  commitment_eq := fun k hk => h.commitment_eq k (hperm.mem_iff.mpr hk)
  other_commitments := fun a ha => h.other_commitments a fun k hk => ha k (hperm.mem_iff.mp hk)
  ledger_eq := fun k hk => h.ledger_eq k (hperm.mem_iff.mpr hk)
  other_ledgers := fun a ha => h.other_ledgers a fun k hk => ha k (hperm.mem_iff.mp hk)

theorem same {record : Sale} (hrecord : st.sales.find? sale = some record)
    (h₁ : Claimed st sale keys st₁) (h₂ : Claimed st sale keys st₂) :
    SameBooks st₁ st₂ where
  sales := by
    intro a
    by_cases ha : a = sale
    · subst ha
      obtain ⟨minted₁, hfound₁, hminted₁⟩ := h₁.sale_eq record hrecord
      obtain ⟨minted₂, hfound₂, hminted₂⟩ := h₂.sale_eq record hrecord
      obtain rfl := UInt64.toNat_inj.mp (hminted₁.trans hminted₂.symm)
      exact hfound₂.trans hfound₁.symm
    · rw [h₂.other_sales a ha, h₁.other_sales a ha]
  shuffles := by
    intro a
    rw [h₂.shuffles_eq, h₁.shuffles_eq]
  ledgers := by
    intro a
    by_cases ha : ∃ k ∈ keys, a = .ledger sale (.key k)
    · obtain ⟨k, hk, rfl⟩ := ha
      obtain ⟨held₁, hfound₁, hheld₁⟩ := h₁.ledger_eq k hk
      obtain ⟨held₂, hfound₂, hheld₂⟩ := h₂.ledger_eq k hk
      obtain rfl := UInt64.toNat_inj.mp (hheld₁.trans hheld₂.symm)
      exact hfound₂.trans hfound₁.symm
    · have hother : ∀ k ∈ keys, a ≠ .ledger sale (.key k) := fun k hk heq => ha ⟨k, hk, heq⟩
      rw [h₂.other_ledgers a hother, h₁.other_ledgers a hother]
  commitments := by
    intro a
    by_cases ha : ∃ k ∈ keys, a = .commitment sale (.key k)
    · obtain ⟨k, hk, rfl⟩ := ha
      exact (h₂.commitment_eq k hk).trans (h₁.commitment_eq k hk).symm
    · have hother : ∀ k ∈ keys, a ≠ .commitment sale (.key k) := fun k hk heq => ha ⟨k, hk, heq⟩
      rw [h₂.other_commitments a hother, h₁.other_commitments a hother]

theorem commitment_of_ne (h : Claimed st sale [key] st') {k : Bytes32} (hne : k ≠ key) :
    st'.commitment? sale (.key k) = st.commitment? sale (.key k) := by
  refine h.other_commitments _ ?_
  simpa using hne

theorem ledger_of_ne (h : Claimed st sale [key] st') {k : Bytes32} (hne : k ≠ key) :
    st'.ledgers.find? (.ledger sale (.key k)) = st.ledgers.find? (.ledger sale (.key k)) := by
  refine h.other_ledgers _ ?_
  simpa using hne

/-- A claim and then others, by buyers who have not claimed before. -/
theorem cons (hfirst : Claimed st sale [key] st₁) (hrest : Claimed st₁ sale rest st₂)
    (hnew : key ∉ rest) : Claimed st sale (key :: rest) st₂ := by
  have hne : ∀ k ∈ rest, k ≠ key := fun k hk heq => hnew (heq ▸ hk)
  have hreserved : ∀ k ∈ rest,
      st₁.unitsReserved sale (.key k) = st.unitsReserved sale (.key k) := by
    intro k hk
    rw [unitsReserved, hfirst.commitment_of_ne (hne k hk), unitsReserved]
  have hholding : ∀ k ∈ rest, st₁.holding sale (.key k) = st.holding sale (.key k) := by
    intro k hk
    rw [holding, hfirst.ledger_of_ne (hne k hk), holding]
  refine {
    sale_eq := ?_
    other_sales := fun a ha => (hrest.other_sales a ha).trans (hfirst.other_sales a ha)
    shuffles_eq := hrest.shuffles_eq.trans hfirst.shuffles_eq
    commitment_eq := ?_
    other_commitments := ?_
    ledger_eq := ?_
    other_ledgers := ?_ }
  · intro record hrecord
    obtain ⟨minted₁, hfound₁, hminted₁⟩ := hfirst.sale_eq record hrecord
    obtain ⟨minted₂, hfound₂, hminted₂⟩ := hrest.sale_eq _ hfound₁
    refine ⟨minted₂, hfound₂, ?_⟩
    rw [hminted₂, List.map_congr_left fun k hk => congrArg UInt64.toNat (hreserved k hk)]
    show minted₁.toNat + _ = _
    rw [hminted₁, List.map_singleton, List.sum_singleton, List.map_cons, List.sum_cons,
      Nat.add_assoc]
  · intro k hk
    rcases List.mem_cons.mp hk with rfl | hk
    · have hkept : st₂.commitment? sale (.key k) = st₁.commitment? sale (.key k) := by
        refine hrest.other_commitments _ fun k' hk' heq => hne k' hk' ?_
        simpa using heq.symm
      rw [hkept]
      exact hfirst.commitment_eq k (List.mem_singleton_self k)
    · rw [hrest.commitment_eq k hk, hfirst.commitment_of_ne (hne k hk)]
  · intro a ha
    rw [hrest.other_commitments a fun k hk => ha k (List.mem_cons_of_mem key hk)]
    refine hfirst.other_commitments a fun k hk => ?_
    obtain rfl := List.mem_singleton.mp hk
    exact ha k List.mem_cons_self
  · intro k hk
    rcases List.mem_cons.mp hk with rfl | hk
    · rw [hrest.other_ledgers _ fun k' hk' heq => hne k' hk' (by simpa using heq.symm)]
      exact hfirst.ledger_eq k (List.mem_singleton_self k)
    · rw [← hreserved k hk, ← hholding k hk]
      exact hrest.ledger_eq k hk
  · intro a ha
    rw [hrest.other_ledgers a fun k hk => ha k (List.mem_cons_of_mem key hk)]
    refine hfirst.other_ledgers a fun k hk => ?_
    obtain rfl := List.mem_singleton.mp hk
    exact ha k List.mem_cons_self

end Claimed

/-! ## One claim -/

section Handout

variable {shuffle commitment ledger buyer : Address} {record : Sale} {c : Commitment}

theorem claimReserved_of {mid : State} {found found' : Ledger} {ids : List UInt32}
    {booking : Booking} {record' : Sale} (hrecord : st.sales.find? sale = some record)
    (hdraw : st.shuffles.find? (.shuffle sale) = some draw)
    (hc : st.commitment? sale buyer = some c) (hbuyer : c.buyer = buyer)
    (hmid : st.withLedger buyer (.ledger sale buyer) = .ok (mid, found))
    (hclaim : Booking.claim.attempt ⟨record, draw, c⟩ = .ok (ids, booking))
    (hcounted : (Sale.recordClaim booking.commitment.units).attempt booking.sale
      = .ok ((), record'))
    (hcredited : (Ledger.recordMint booking.commitment.units).attempt (found.bind sale buyer bump)
      = .ok ((), found')) :
    ∃ receipt, st.claimReserved ⟨buyer, true⟩ sale (.shuffle sale) (.commitment sale buyer)
      (.ledger sale buyer) = .ok receipt := by
  simp only [claimReserved, bind_eq_ok, load_eq_ok, verified_eq_ok, checkSeeds_eq_ok,
    require_eq_ok, ruled_eq_ok, pure_eq_ok]
  exact ⟨_, record, hrecord, draw, hdraw, c, hc, buyer, ⟨trivial, rfl⟩, (), rfl, (mid, found),
    hmid, (), trivial, (), rfl, (), hbuyer, (ids, booking), hclaim, ((), record'), hcounted,
    ((), found'), hcredited, rfl⟩

/-- What a claim counts is a part of what was sold and reserved, and that is little. -/
theorem exists_claim_counters (hfresh : start.Fresh) (hrun : Run start trace st)
    (hrecord : st.sales.find? sale = some record)
    (hdraw : st.shuffles.find? (.shuffle sale) = some draw)
    (hc : st.commitment? sale buyer = some c) :
    ∃ minted held : UInt64, record.totalMinted.toNat + c.units.toNat = minted.toNat ∧
      (st.holding sale buyer).minted.toNat + c.units.toNat = held.toNat := by
  have hbalanced := (sound_of_run hfresh hrun).balanced_of_find? hrecord hdraw
  have hcoherent := coherent_of_run hfresh hrun (b := ⟨record, draw, c⟩)
    ⟨hrecord, hdraw, .inr ⟨buyer, hc⟩⟩
  have hlimit : record.terms.supplyLimit.toNat ≤ 2000 := hbalanced.limit_le
  have hallocated := hbalanced.allocated_le
  have hminted := hbalanced.totalMinted_le
  have hheld := holding_minted_le (tallied_of_run hfresh hrun) hrecord buyer
  have hreserved : draw.totalReserved.toNat ≤ 2000 := hcoherent.reserved_le
  have hunits : c.units.toNat ≤ draw.totalReserved.toNat := hcoherent.units_le
  have hsize : UInt64.size = 2 ^ 64 := rfl
  obtain ⟨minted, hm⟩ := Checked.exists_amount
    (n := record.totalMinted.toNat + c.units.toNat) (by omega)
  obtain ⟨held, hl⟩ := Checked.exists_amount
    (n := (st.holding sale buyer).minted.toNat + c.units.toNat) (by omega)
  exact ⟨minted, held, hm, hl⟩

theorem Handout.claimed
    (o : Handout st ⟨.key key, true⟩ sale shuffle commitment ledger receipt) :
    Claimed st sale [key] receipt.state := by
  have hsales : receipt.state.sales = _ := congrArg Books.sales o.books_eq
  have hledgers : receipt.state.ledgers = _ := congrArg Books.ledgers o.books_eq
  have hcommitments : receipt.state.commitments = _ := congrArg Books.commitments o.books_eq
  have hreserved : st.commitment? sale (.key key) = some o.reservation := o.reserved
  have hunits : st.unitsReserved sale (.key key) = o.reservation.units := by
    rw [unitsReserved, hreserved]
    rfl
  have hfound : o.found = st.holding sale (.key key) := (withLedger_effect o.mid_eq).2.2.1
  refine {
    sale_eq := ?_
    other_sales := ?_
    shuffles_eq := congrArg Books.shuffles o.books_eq
    commitment_eq := ?_
    other_commitments := ?_
    ledger_eq := ?_
    other_ledgers := ?_ }
  · intro record hrecord
    obtain rfl : o.record = record := Registry.eq_of_find? o.loaded hrecord
    refine ⟨o.minted, ?_, ?_⟩
    · rw [hsales, Registry.find?_set_self]
    · rw [List.map_singleton, List.sum_singleton, hunits]
      exact o.minted_eq.symm
  · intro a ha
    rw [hsales]
    exact Registry.find?_set_of_ne _ ha _
  · intro k hk
    obtain rfl := List.mem_singleton.mp hk
    rw [hreserved]
    show receipt.state.commitments.find? (.commitment sale (.key k)) = _
    rw [hcommitments]
    exact Registry.find?_set_self _ _ _
  · intro a ha
    rw [hcommitments]
    exact Registry.find?_set_of_ne _ (ha key (List.mem_singleton_self key)) _
  · intro k hk
    obtain rfl := List.mem_singleton.mp hk
    refine ⟨o.held, ?_, ?_⟩
    · rw [hledgers, ← hfound]
      exact Registry.find?_set_self _ _ _
    · have hheld := o.held_eq
      rw [Ledger.bind_minted, hfound] at hheld
      rw [hunits]
      exact hheld.symm
  · intro a ha
    rw [hledgers]
    exact Registry.find?_set_of_ne _ (ha key (List.mem_singleton_self key)) _

theorem withLedger_rentPerByte {mid : State} {found : Ledger}
    (h : st.withLedger payer address = .ok (mid, found)) : mid.rentPerByte = st.rentPerByte := by
  rcases withLedger_cases h with ⟨-, rfl⟩ | ⟨-, -, funded, hfunded, rfl⟩
  · rfl
  · exact (pay_sameRecords (create_eq_ok.mp hfunded).2.1).rentPerByte

/-- One claim leaves the coins of everybody but the buyer and the buyer's ledger. -/
theorem Handout.balance_eq
    (o : Handout st ⟨.key key, true⟩ sale shuffle commitment ledger receipt) {a : Address}
    (hpayer : a ≠ .key key) (hledger : a ≠ .ledger sale (.key key)) :
    receipt.state.balance a = st.balance a := by
  have hcoins := (rented_of_withLedger o.mid_eq).coins a
  rw [if_neg hpayer, if_neg hledger] at hcoins
  rw [o.state_eq]
  exact UInt64.toNat_inj.mp hcoins

/-- One claim leaves it to everybody else to fund a ledger. -/
theorem Handout.canFund
    (o : Handout st ⟨.key key, true⟩ sale shuffle commitment ledger receipt) {k : Bytes32}
    (hne : k ≠ key) (h : st.CanFund (.key k) (.ledger sale (.key k))) :
    receipt.state.CanFund (.key k) (.ledger sale (.key k)) := by
  have hrent := withLedger_rentPerByte o.mid_eq
  have hpayer : Address.key k ≠ .key key := by simpa using hne
  have hledger : Address.ledger sale (.key k) ≠ .ledger sale (.key key) := by simpa using hne
  refine h.of_eq ?_ (o.claimed.ledger_of_ne hne) ?_ ?_
  · rw [o.state_eq]
    exact hrent
  · exact o.balance_eq hpayer (by simp)
  · exact o.balance_eq (by simp) hledger

end Handout

/-! ## Claims that go through -/

/-- Claims of distinct buyers in a sale whose ids are drawn, of revealed reservations, by buyers who
can fund their ledgers. -/
structure Claimable (st : State) (sale : Address) (draw : Shuffle) (keys : List Bytes32) :
    Prop where
  loaded : ∃ record, st.sales.find? sale = some record
  drawn : st.shuffles.find? (.shuffle sale) = some draw
  shuffled : draw.phase = .shuffled
  distinct : keys.Nodup
  revealed : ∀ k ∈ keys, ∃ c, st.commitment? sale (.key k) = some c ∧ c.status = .revealed
  funded : ∀ k ∈ keys, st.CanFund (.key k) (.ledger sale (.key k))

namespace Claimable

theorem perm (h : st.Claimable sale draw keys) (hperm : keys.Perm keys') :
    st.Claimable sale draw keys' where
  loaded := h.loaded
  drawn := h.drawn
  shuffled := h.shuffled
  distinct := hperm.nodup_iff.mp h.distinct
  revealed := fun k hk => h.revealed k (hperm.mem_iff.mpr hk)
  funded := fun k hk => h.funded k (hperm.mem_iff.mpr hk)

theorem atTime (h : st.Claimable sale draw keys) (now : Int64) :
    (st.atTime now).Claimable sale draw keys :=
  ⟨h.loaded, h.drawn, h.shuffled, h.distinct, h.revealed, h.funded⟩

theorem exists_claim (hfresh : start.Fresh) (hrun : Run start trace st)
    (h : st.Claimable sale draw (key :: rest)) :
    ∃ receipt, st.execute (claimCall sale key) = .ok receipt := by
  have hsound := sound_of_run hfresh hrun
  have hslotted := slotted_of_run hfresh hrun
  obtain ⟨record, hrecord⟩ := h.loaded
  obtain ⟨c, hc, hstatus⟩ := h.revealed key List.mem_cons_self
  obtain ⟨⟨mid, found⟩, hmid⟩ :=
    (withLedger_iff (by simp)).mpr (h.funded key List.mem_cons_self)
  have hfound : found = st.holding sale (.key key) := (withLedger_effect hmid).2.2.1
  obtain ⟨minted, held, hm, hl⟩ := exists_claim_counters hfresh hrun hrecord h.drawn hc
  rw [← hfound, ← Ledger.bind_minted found sale (.key key) bump] at hl
  obtain ⟨receipt, hreceipt⟩ := claimReserved_of hrecord h.drawn hc (hsound.of_commitment hc).2.symm
    hmid (claim_of_revealed hsound hslotted hrecord h.drawn h.shuffled hc hstatus)
    (Sale.attempt_recordClaim.mpr ⟨minted, hm, rfl⟩)
    (Ledger.attempt_recordMint.mpr ⟨held, hl, rfl⟩)
  exact ⟨receipt, silent_eq_ok.mpr hreceipt⟩

/-- After the first of the claims the others still go through. -/
theorem remaining {shuffle commitment ledger : Address} (h : st.Claimable sale draw (key :: rest))
    (o : Handout st ⟨.key key, true⟩ sale shuffle commitment ledger receipt) :
    receipt.state.Claimable sale draw rest := by
  obtain ⟨hnew, hdistinct⟩ := List.nodup_cons.mp h.distinct
  have hne : ∀ k ∈ rest, k ≠ key := fun k hk heq => hnew (heq ▸ hk)
  have hclaimed := o.claimed
  exact {
    loaded := by
      obtain ⟨minted, hfound, -⟩ := hclaimed.sale_eq o.record o.loaded
      exact ⟨_, hfound⟩
    drawn := by
      rw [hclaimed.shuffles_eq]
      exact h.drawn
    shuffled := h.shuffled
    distinct := hdistinct
    revealed := by
      intro k hk
      rw [hclaimed.commitment_of_ne (hne k hk)]
      exact h.revealed k (List.mem_cons_of_mem key hk)
    funded := fun k hk => o.canFund (hne k hk) (h.funded k (List.mem_cons_of_mem key hk)) }

/-- All of the claims go through, one after the other, and hand out what each buyer had coming. -/
theorem claimAll (hfresh : start.Fresh) (hrun : Run start trace st)
    {timed : List (Int64 × Bytes32)} (h : st.Claimable sale draw (timed.map Prod.snd)) :
    (st.entries (claimCalls sale timed)).map (fun e => e.receipt.events)
      = timed.map (fun t =>
        [.reservationClaimed sale (.key t.2) (st.idsDue sale draw (.key t.2))]) ∧
    st.Claimed sale (timed.map Prod.snd) (st.afterCalls (claimCalls sale timed)) := by
  induction timed generalizing st trace with
  | nil => exact ⟨rfl, .nil st sale⟩
  | cons t rest ih =>
    obtain ⟨now, key⟩ := t
    have hnow := h.atTime now
    have hrun' := hrun.atTime now
    obtain ⟨receipt, hreceipt⟩ := hnow.exists_claim hfresh hrun'
    obtain ⟨o⟩ := claimReserved_ok (silent_eq_ok.mp hreceipt)
    have hafter := after_of_ok hreceipt
    have hmore := hnow.remaining o
    obtain ⟨hevents, hrest⟩ := ih (hrun'.accepted ⟨_, _, receipt, hreceipt⟩) hmore
    have hfirst := o.claimed.of_atTime
    obtain ⟨hnew, -⟩ := List.nodup_cons.mp h.distinct
    refine ⟨?_, ?_⟩
    · -- what the others have coming is read off their own reservations
      have hkept : ∀ t ∈ rest, receipt.state.idsDue sale draw (.key t.2)
          = st.idsDue sale draw (.key t.2) := by
        intro t ht
        have hne : t.2 ≠ key := fun heq => hnew (List.mem_map.mpr ⟨t, ht, heq⟩)
        rw [idsDue, hfirst.commitment_of_ne hne, idsDue]
      have hdue : idsOf o.draw o.reservation = st.idsDue sale draw (.key key) := by
        have hreserved : st.commitment? sale (.key key) = some o.reservation := o.reserved
        obtain rfl : o.draw = draw := Registry.eq_of_find? o.drawn h.drawn
        rw [idsDue, hreserved]
        rfl
      rw [claimCalls_cons, entries, entry_of_ok hreceipt, hafter, List.singleton_append,
        List.map_cons, List.map_cons, hevents, o.events_eq, hdue]
      refine congrArg _ (List.map_congr_left fun t ht => ?_)
      rw [hkept t ht]
    · rw [claimCalls_cons, afterCalls, hafter]
      exact hfirst.cons hrest hnew

/-- The claims go through in any order, hand out the same and leave the same behind. -/
theorem any_order (hfresh : start.Fresh) (hrun : Run start trace st)
    (h : st.Claimable sale draw keys) :
    ∃ final, st.Claimed sale keys final ∧
      ∀ timed : List (Int64 × Bytes32), (timed.map Prod.snd).Perm keys →
        (st.entries (claimCalls sale timed)).map (fun e => e.receipt.events)
          = timed.map (fun t =>
            [.reservationClaimed sale (.key t.2) (st.idsDue sale draw (.key t.2))]) ∧
        final.SameBooks (st.afterCalls (claimCalls sale timed)) := by
  obtain ⟨record, hrecord⟩ := h.loaded
  -- one order is as good as any other to say what all of them lead to
  have hkeys : (keys.map fun k => (st.now, k)).map Prod.snd = keys := by
    rw [List.map_map]
    exact List.map_id keys
  have hinorder : st.Claimable sale draw ((keys.map fun k => (st.now, k)).map Prod.snd) := by
    rw [hkeys]
    exact h
  obtain ⟨-, hclaimed⟩ := hinorder.claimAll hfresh hrun
  rw [hkeys] at hclaimed
  refine ⟨_, hclaimed, ?_⟩
  intro timed hperm
  obtain ⟨hevents, hclaimed'⟩ := (h.perm hperm.symm).claimAll hfresh hrun
  exact ⟨hevents, hclaimed.same hrecord (hclaimed'.perm hperm)⟩

end Claimable
end State

/-! ## All orders -/

/-- In every state that a run reaches, independent buyers may come in any order. While reservations
are open, pledges by distinct new buyers are all placed if stock has their units, and sale, shuffle
and reservations are the same in the end. Once the ids are drawn, claims of distinct buyers whose
reservations are revealed and who can fund their ledgers all go through, at any times; every buyer
is handed the same ids, and sale, ledgers and reservations are the same in the end. Whoever claims
is an ordinary key, since nobody else can send a call. -/
theorem buyers_in_any_order {start st : State} {trace : List Entry} (hfresh : start.Fresh)
    (h : Run start trace st) {sale : Address} {record : Sale} {draw : Shuffle}
    (hrecord : st.sales.find? sale = some record)
    (hdraw : st.shuffles.find? (.shuffle sale) = some draw) :
    (∀ pledges : List Pledge, draw.phase = .opened → (pledges.map Pledge.buyer).Nodup →
      (∀ p ∈ pledges, st.commitment? sale p.buyer = none) → (∀ p ∈ pledges, 0 < p.units) →
      pledged pledges ≤ record.available.toNat →
        ∃ b, (st.pledgeBook sale record draw).Placed pledges b ∧
          ∀ pledges' : List Pledge, pledges'.Perm pledges →
            pledges'.foldlM PledgeBook.place (st.pledgeBook sale record draw) = .ok b) ∧
    ∀ keys : List Bytes32, draw.phase = .shuffled → keys.Nodup →
      (∀ k ∈ keys, ∃ c, st.commitment? sale (.key k) = some c ∧ c.status = .revealed) →
      (∀ k ∈ keys, ∃ r, st.withLedger (.key k) (.ledger sale (.key k)) = .ok r) →
        ∃ final, st.Claimed sale keys final ∧
          ∀ timed : List (Int64 × Bytes32), (timed.map Prod.snd).Perm keys →
            (st.entries (State.claimCalls sale timed)).map (fun e => e.receipt.events)
              = timed.map (fun t =>
                [.reservationClaimed sale (.key t.2) (st.idsDue sale draw (.key t.2))]) ∧
            final.SameBooks (st.afterCalls (State.claimCalls sale timed)) := by
  refine ⟨?_, ?_⟩
  · intro pledges hopened hdistinct hnew hunits hstock
    exact (placeable_of_run hfresh h hrecord hdraw hopened hdistinct hnew hunits hstock).any_order
  · intro keys hshuffled hdistinct hrevealed hfunded
    have hclaimable : st.Claimable sale draw keys := {
      loaded := ⟨record, hrecord⟩
      drawn := hdraw
      shuffled := hshuffled
      distinct := hdistinct
      revealed := hrevealed
      funded := fun k hk => (State.withLedger_iff (by simp)).mp (hfunded k hk) }
    exact hclaimable.any_order hfresh h

/-- A pledge of a stranger. -/
def Sample.pledge (stranger : UInt8) (units : UInt64) : Pledge :=
  ⟨.key (Vector.replicate 32 stranger), Bytes32.zero, units, 0⟩

/-- Two strangers reserve all of the other sale in either order, and whoever is the last of them
closes the phase; once its ids are drawn, the owner claims them. -/
theorem buyers_in_any_order_capped :
    ∃ opening later, Sample.start.Fresh ∧ Run Sample.start opening Sample.cappedOpened ∧
      Run Sample.start later (Sample.drawn 10) ∧
      (∃ b, [Sample.pledge 2 60, Sample.pledge 3 40].foldlM PledgeBook.place
          (Sample.cappedOpened.pledgeBook Sample.capped Sample.cappedRecord
            (Shuffle.blank.bind Sample.capped 255)) = .ok b ∧
        [Sample.pledge 3 40, Sample.pledge 2 60].foldlM PledgeBook.place
          (Sample.cappedOpened.pledgeBook Sample.capped Sample.cappedRecord
            (Shuffle.blank.bind Sample.capped 255)) = .ok b ∧ b.shuffle.phase = .reserved) ∧
      ∃ final, (Sample.drawn 10).Claimed Sample.capped [Sample.owner] final ∧
        final.SameBooks ((Sample.drawn 10).afterCalls
          (State.claimCalls Sample.capped [(20, Sample.owner)])) := by
  have hopening : Run Sample.start _ Sample.cappedOpened := Run.start.calls _
  obtain ⟨trace, hwindowed⟩ := Sample.run_windowed
  have hdrawing : Run Sample.windowed _ (Sample.drawn 10) := Sample.run_drawn (by decide)
  have hdrawn := hwindowed.trans hdrawing
  refine ⟨_, _, Sample.start_fresh, hopening, hdrawn, ?_, ?_⟩
  · have hrecord : Sample.cappedOpened.sales.find? Sample.capped = some Sample.cappedRecord := rfl
    obtain ⟨b, hplaced, hany⟩ := (buyers_in_any_order Sample.start_fresh hopening hrecord rfl).1
      [Sample.pledge 2 60, Sample.pledge 3 40] rfl (by decide) (by decide +kernel) (by decide)
      (by decide +kernel)
    refine ⟨b, hany _ (List.Perm.refl _), hany _ (List.Perm.swap _ _ _), ?_⟩
    obtain ⟨allocated, hsale, ha⟩ := hplaced.sale_eq
    obtain ⟨reserved, pending, hshuffle, -, -⟩ := hplaced.shuffle_eq
    obtain rfl : allocated = 100 := UInt64.toNat_inj.mp ha
    rw [hshuffle, hsale]
    rfl
  · have hrecord : (Sample.drawn 10).sales.find? Sample.capped = some Sample.reservedRecord := rfl
    have hrevealed : ∀ k ∈ [Sample.owner], ∃ c,
        (Sample.drawn 10).commitment? Sample.capped (.key k) = some c ∧ c.status = .revealed := by
      intro k hk
      obtain rfl := List.mem_singleton.mp hk
      exact ⟨_, rfl, rfl⟩
    have hfunded : ∀ k ∈ [Sample.owner], ∃ r,
        (Sample.drawn 10).withLedger (.key k) (.ledger Sample.capped (.key k)) = .ok r := by
      intro k hk
      obtain rfl := List.mem_singleton.mp hk
      exact ⟨_, rfl⟩
    obtain ⟨final, hclaimed, hany⟩ := (buyers_in_any_order Sample.start_fresh hdrawn hrecord rfl).2
      [Sample.owner] rfl (List.nodup_singleton _) hrevealed hfunded
    exact ⟨final, hclaimed, (hany [(20, Sample.owner)] (List.Perm.refl _)).2⟩

end UnitSale
