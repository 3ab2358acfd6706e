import UnitSale.Proofs.RecordSteps
import UnitSale.Proofs.RefusalTheorems

/-!
# Reservations in any order

Buyers who reserve one after the other draw on one stock and add to the same counters, and whoever
takes the last unit closes the phase for all that come later. As long as stock has enough for all of
them, nobody comes too late, and what they leave behind is a sum that does not depend on who was
first.
-/

namespace UnitSale

/-- A buyer who wants to reserve: behind which digest, how many units, and when. -/
structure Pledge where
  buyer : Address
  hash : Bytes32
  units : UInt64
  time : Int64

/-- The records that the reservations of several buyers work on: the sale, its shuffle, and what
every buyer has reserved. -/
@[ext]
structure PledgeBook where
  sale : Sale
  shuffle : Shuffle
  reservation : Address → Commitment

/-- What is pledged altogether. -/
def pledged (pledges : List Pledge) : ℕ := (pledges.map fun p => p.units.toNat).sum

@[simp] theorem pledged_nil : pledged [] = 0 := rfl

theorem pledged_cons (p : Pledge) (pledges : List Pledge) :
    pledged (p :: pledges) = p.units.toNat + pledged pledges := List.sum_cons

theorem pledged_perm {pledges pledges' : List Pledge} (h : pledges.Perm pledges') :
    pledged pledges = pledged pledges' := (h.map _).sum_nat

/-- The reservation that a pledge makes of the one that was there. -/
def Pledge.reservation (p : Pledge) (c : Commitment) : Commitment :=
  { c with
    hash := p.hash, units := p.units, slotStart := 0, status := .committed, committedAt := p.time }

/-- The sale, the shuffle and the reservations in a state. -/
def State.pledgeBook (st : State) (sale : Address) (record : Sale) (draw : Shuffle) : PledgeBook :=
  ⟨record, draw, fun buyer => (st.commitment? sale buyer).getD .blank⟩

namespace PledgeBook

variable {b b' b₁ b₂ : PledgeBook} {p : Pledge} {pledges pledges' rest : List Pledge}

/-- The step of the protocol that reserves, for one buyer. -/
def place (b : PledgeBook) (p : Pledge) : Except SaleError PledgeBook := do
  let ((), booking) ←
    (Booking.commit p.hash p.units p.time).attempt ⟨b.sale, b.shuffle, b.reservation p.buyer⟩
  return ⟨booking.sale, booking.shuffle,
    Function.update b.reservation p.buyer booking.commitment⟩

/-- A pledge is placed exactly if the step goes through, which then leaves its counters and the
reservation. -/
theorem place_eq_ok : b.place p = .ok b' ↔
    0 < p.units ∧ (b.reservation p.buyer).units = 0 ∧ b.shuffle.phase = .opened ∧
      p.units ≤ b.sale.available ∧ ∃ allocated reserved pending : UInt64,
        b.sale.allocated.toNat + p.units.toNat = allocated.toNat ∧
        b.shuffle.totalReserved.toNat + p.units.toNat = reserved.toNat ∧
        b.shuffle.pending.toNat + 1 = pending.toNat ∧
        b' = {
          sale := { b.sale with allocated := allocated }
          shuffle := { b.shuffle with
            totalReserved := reserved
            pending := pending
            phase := Booking.phaseAfterCommit
              ({ b.sale with allocated := allocated } : Sale).available }
          reservation := Function.update b.reservation p.buyer
            (p.reservation (b.reservation p.buyer)) } := by
  simp only [place, bind_eq_ok, pure_eq_ok, Booking.attempt_commit]
  constructor
  · intro h
    obtain ⟨-, ⟨hpos, hunused, hopened, hstock, allocated, reserved, pending, ha, hr, hn, rfl⟩,
      rfl⟩ := h
    exact ⟨hpos, hunused, hopened, hstock, allocated, reserved, pending, ha, hr, hn, rfl⟩
  · intro h
    obtain ⟨hpos, hunused, hopened, hstock, allocated, reserved, pending, ha, hr, hn, rfl⟩ := h
    exact ⟨_, ⟨hpos, hunused, hopened, hstock, allocated, reserved, pending, ha, hr, hn, rfl⟩, rfl⟩

/-! ## What pledges leave behind -/

/-- The books after pledges: all their units are out of stock and reserved, each of them is pending,
the phase says whether stock is left, everybody who pledged has the reservation, and nobody else has
anything new. -/
structure Placed (b : PledgeBook) (pledges : List Pledge) (b' : PledgeBook) : Prop where
  sale_eq : ∃ allocated : UInt64, b'.sale = { b.sale with allocated := allocated } ∧
    allocated.toNat = b.sale.allocated.toNat + pledged pledges
  shuffle_eq : ∃ reserved pending : UInt64,
    b'.shuffle = { b.shuffle with
      totalReserved := reserved
      pending := pending
      phase := if pledges = [] then b.shuffle.phase
        else Booking.phaseAfterCommit b'.sale.available } ∧
    reserved.toNat = b.shuffle.totalReserved.toNat + pledged pledges ∧
    pending.toNat = b.shuffle.pending.toNat + pledges.length
  reserved : ∀ p ∈ pledges, b'.reservation p.buyer = p.reservation (b.reservation p.buyer)
  others : ∀ buyer, buyer ∉ pledges.map Pledge.buyer → b'.reservation buyer = b.reservation buyer

namespace Placed

theorem nil (b : PledgeBook) : Placed b [] b where
  sale_eq := ⟨b.sale.allocated, rfl, rfl⟩
  shuffle_eq := ⟨b.shuffle.totalReserved, b.shuffle.pending, rfl, rfl, rfl⟩
  reserved := fun _ hp => nomatch hp
  others := fun _ _ => rfl

theorem perm (h : Placed b pledges b') (hperm : pledges.Perm pledges') :
    Placed b pledges' b' where
  sale_eq := by
    rw [← pledged_perm hperm]
    exact h.sale_eq
  shuffle_eq := by
    have hnil : pledges = [] ↔ pledges' = [] := by
      rw [← List.length_eq_zero_iff, hperm.length_eq, List.length_eq_zero_iff]
    simp only [← pledged_perm hperm, ← hnil, ← hperm.length_eq]
    exact h.shuffle_eq
  reserved := fun p hp => h.reserved p (hperm.mem_iff.mpr hp)
  others := fun buyer hbuyer => h.others buyer fun hmem =>
    hbuyer ((hperm.map Pledge.buyer).mem_iff.mp hmem)

theorem unique (h₁ : Placed b pledges b₁) (h₂ : Placed b pledges b₂) : b₁ = b₂ := by
  obtain ⟨allocated₁, hsale₁, ha₁⟩ := h₁.sale_eq
  obtain ⟨allocated₂, hsale₂, ha₂⟩ := h₂.sale_eq
  obtain ⟨reserved₁, pending₁, hshuffle₁, hr₁, hn₁⟩ := h₁.shuffle_eq
  obtain ⟨reserved₂, pending₂, hshuffle₂, hr₂, hn₂⟩ := h₂.shuffle_eq
  obtain rfl := UInt64.toNat_inj.mp (ha₁.trans ha₂.symm)
  obtain rfl := UInt64.toNat_inj.mp (hr₁.trans hr₂.symm)
  obtain rfl := UInt64.toNat_inj.mp (hn₁.trans hn₂.symm)
  have hsale : b₁.sale = b₂.sale := hsale₁.trans hsale₂.symm
  refine PledgeBook.ext hsale ?_ ?_
  · rw [hshuffle₁, hshuffle₂, hsale]
  · funext buyer
    by_cases hbuyer : buyer ∈ pledges.map Pledge.buyer
    · obtain ⟨p, hp, rfl⟩ := List.mem_map.mp hbuyer
      rw [h₁.reserved p hp, h₂.reserved p hp]
    · rw [h₁.others buyer hbuyer, h₂.others buyer hbuyer]

theorem of_ne (h : Placed b [p] b') {buyer : Address} (hne : buyer ≠ p.buyer) :
    b'.reservation buyer = b.reservation buyer := by
  refine h.others buyer ?_
  rw [List.map_singleton, List.mem_singleton]
  exact hne

/-- A pledge and then others, by buyers who have not pledged before. -/
theorem cons (hfirst : Placed b [p] b₁) (hrest : Placed b₁ rest b₂)
    (hnew : p.buyer ∉ rest.map Pledge.buyer) : Placed b (p :: rest) b₂ := by
  -- the phase is that of the last pledge, which is the first one if no others follow
  by_cases hlast : rest = []
  · subst hlast
    obtain rfl := hrest.unique (nil b₁)
    exact hfirst
  obtain ⟨allocated₁, hsale₁, ha₁⟩ := hfirst.sale_eq
  obtain ⟨allocated₂, hsale₂, ha₂⟩ := hrest.sale_eq
  obtain ⟨reserved₁, pending₁, hshuffle₁, hr₁, hn₁⟩ := hfirst.shuffle_eq
  obtain ⟨reserved₂, pending₂, hshuffle₂, hr₂, hn₂⟩ := hrest.shuffle_eq
  have hsum : pledged (p :: rest) = pledged [p] + pledged rest := by simp [pledged_cons]
  rw [hsale₁] at hsale₂ ha₂
  rw [hshuffle₁] at hshuffle₂ hr₂ hn₂
  rw [if_neg hlast] at hshuffle₂
  refine {
    sale_eq := ⟨allocated₂, hsale₂, ?_⟩
    shuffle_eq := ⟨reserved₂, pending₂, ?_, ?_, ?_⟩
    reserved := ?_
    others := ?_ }
  · rw [ha₂, hsum, ha₁, Nat.add_assoc]
  · rw [if_neg (List.cons_ne_nil p rest)]
    exact hshuffle₂
  · rw [hr₂, hsum, hr₁, Nat.add_assoc]
  · rw [hn₂, List.length_cons]
    show pending₁.toNat + rest.length = b.shuffle.pending.toNat + (rest.length + 1)
    rw [hn₁, List.length_singleton]
    omega
  · intro q hq
    rcases List.mem_cons.mp hq with rfl | hq
    · rw [hrest.others _ hnew]
      exact hfirst.reserved q (List.mem_singleton_self q)
    · have hne : q.buyer ≠ p.buyer := fun heq => hnew (heq ▸ List.mem_map_of_mem hq)
      rw [hrest.reserved q hq, hfirst.of_ne hne]
  · intro buyer hbuyer
    rw [List.map_cons, List.mem_cons, not_or] at hbuyer
    rw [hrest.others buyer hbuyer.2, hfirst.of_ne hbuyer.1]

end Placed

theorem placed_of_place (h : b.place p = .ok b') : Placed b [p] b' := by
  obtain ⟨-, -, -, -, allocated, reserved, pending, ha, hr, hn, rfl⟩ := place_eq_ok.mp h
  exact {
    sale_eq := ⟨allocated, rfl, ha.symm⟩
    shuffle_eq := ⟨reserved, pending, rfl, hr.symm, hn.symm⟩
    reserved := by
      intro q hq
      obtain rfl := List.mem_singleton.mp hq
      exact Function.update_self _ _ _
    others := by
      intro buyer hbuyer
      rw [List.map_singleton, List.mem_singleton] at hbuyer
      exact Function.update_of_ne hbuyer _ _ }

/-! ## Pledges that go through -/

/-- Pledges by distinct new buyers that stock has enough for, while reservations are open, and
counters with room for all of stock. -/
structure Placeable (b : PledgeBook) (pledges : List Pledge) : Prop where
  /-- The phase may close with the last pledge. -/
  opened : pledges ≠ [] → b.shuffle.phase = .opened
  distinct : (pledges.map Pledge.buyer).Nodup
  unused : ∀ p ∈ pledges, (b.reservation p.buyer).units = 0
  some_units : ∀ p ∈ pledges, 0 < p.units
  in_stock : pledged pledges ≤ b.sale.available.toNat
  reserved_lt : b.shuffle.totalReserved.toNat + b.sale.available.toNat < UInt64.size
  pending_lt : b.shuffle.pending.toNat + b.sale.available.toNat < UInt64.size

namespace Placeable

theorem perm (h : Placeable b pledges) (hperm : pledges.Perm pledges') : Placeable b pledges' where
  opened := by
    intro hne
    refine h.opened fun hnil => hne ?_
    subst hnil
    exact hperm.nil_eq.symm
  distinct := (hperm.map Pledge.buyer).nodup_iff.mp h.distinct
  unused := fun p hp => h.unused p (hperm.mem_iff.mpr hp)
  some_units := fun p hp => h.some_units p (hperm.mem_iff.mpr hp)
  in_stock := by
    rw [← pledged_perm hperm]
    exact h.in_stock
  reserved_lt := h.reserved_lt
  pending_lt := h.pending_lt

theorem exists_place (h : Placeable b (p :: rest)) : ∃ b', b.place p = .ok b' := by
  have hmem : p ∈ p :: rest := List.mem_cons_self
  have hpos := UInt64.lt_iff_toNat_lt.mp (h.some_units p hmem)
  have hstock := h.in_stock
  rw [pledged_cons] at hstock
  have hreserved := h.reserved_lt
  have hpending := h.pending_lt
  have hleft := Sale.toNat_available b.sale
  have hlimit := b.sale.terms.supplyLimit.toNat_lt_size
  have hzero : (0 : UInt64).toNat = 0 := rfl
  obtain ⟨allocated, ha⟩ := Checked.exists_amount
    (n := b.sale.allocated.toNat + p.units.toNat) (by omega)
  obtain ⟨reserved, hr⟩ := Checked.exists_amount
    (n := b.shuffle.totalReserved.toNat + p.units.toNat) (by omega)
  obtain ⟨pending, hn⟩ := Checked.exists_amount (n := b.shuffle.pending.toNat + 1) (by omega)
  have hin : p.units ≤ b.sale.available := UInt64.le_iff_toNat_le.mpr (by omega)
  exact ⟨_, place_eq_ok.mpr ⟨h.some_units p hmem, h.unused p hmem,
    h.opened (List.cons_ne_nil p rest), hin, allocated, reserved, pending, ha, hr, hn, rfl⟩⟩

/-- After the first of the pledges the others still go through: if there are any, they need units,
so stock is left and the phase has not closed. -/
theorem remaining (h : Placeable b (p :: rest)) (hfirst : Placed b [p] b') : Placeable b' rest := by
  obtain ⟨allocated, hsale, ha⟩ := hfirst.sale_eq
  obtain ⟨reserved, pending, hshuffle, hr, hn⟩ := hfirst.shuffle_eq
  obtain ⟨hnew, hdistinct⟩ := List.nodup_cons.mp h.distinct
  have hpos := UInt64.lt_iff_toNat_lt.mp (h.some_units p List.mem_cons_self)
  have hstock := h.in_stock
  have hreserved := h.reserved_lt
  have hpending := h.pending_lt
  have hbefore := Sale.toNat_available b.sale
  have hafter : b'.sale.available.toNat
      = b.sale.terms.supplyLimit.toNat - allocated.toNat := by
    rw [hsale]
    exact Sale.toNat_available _
  have hzero : (0 : UInt64).toNat = 0 := rfl
  have hcounted : b'.shuffle.totalReserved = reserved ∧ b'.shuffle.pending = pending := by
    rw [hshuffle]
    exact ⟨rfl, rfl⟩
  rw [pledged_cons] at hstock
  rw [pledged_cons, pledged_nil] at ha hr
  rw [List.length_singleton] at hn
  exact {
    opened := by
      intro hne
      -- a reservation that is still to come finds the phase open because its units are in stock
      obtain ⟨q, others, rfl⟩ := List.exists_cons_of_ne_nil hne
      have hq := UInt64.lt_iff_toNat_lt.mp (h.some_units q (by simp))
      rw [pledged_cons] at hstock
      rw [hshuffle]
      refine if_neg fun hnone => ?_
      rw [hnone] at hafter
      omega
    distinct := hdistinct
    unused := by
      intro q hq
      have hne : q.buyer ≠ p.buyer := fun heq => hnew (heq ▸ List.mem_map_of_mem hq)
      rw [hfirst.of_ne hne]
      exact h.unused q (List.mem_cons_of_mem p hq)
    some_units := fun q hq => h.some_units q (List.mem_cons_of_mem p hq)
    in_stock := by omega
    reserved_lt := by
      rw [hcounted.1]
      omega
    pending_lt := by
      rw [hcounted.2]
      omega }

/-- All of the pledges are placed, one after the other. -/
theorem placeAll (h : Placeable b pledges) :
    ∃ b', pledges.foldlM PledgeBook.place b = .ok b' ∧ Placed b pledges b' := by
  induction pledges generalizing b with
  | nil => exact ⟨b, rfl, .nil b⟩
  | cons p rest ih =>
    obtain ⟨b₁, hplace⟩ := h.exists_place
    have hfirst := placed_of_place hplace
    obtain ⟨b₂, hfold, hrest⟩ := ih (h.remaining hfirst)
    refine ⟨b₂, ?_, hfirst.cons hrest (List.nodup_cons.mp h.distinct).1⟩
    rw [List.foldlM_cons, hplace]
    exact hfold

/-- The pledges are placed in any order, and leave the same behind. -/
theorem any_order (h : Placeable b pledges) :
    ∃ b', Placed b pledges b' ∧ ∀ pledges' : List Pledge, pledges'.Perm pledges →
      pledges'.foldlM PledgeBook.place b = .ok b' := by
  obtain ⟨b₁, -, hplaced⟩ := h.placeAll
  refine ⟨b₁, hplaced, ?_⟩
  intro pledges' hperm
  obtain ⟨b₂, hfold, hplaced'⟩ := (h.perm hperm.symm).placeAll
  obtain rfl := hplaced.unique (hplaced'.perm hperm)
  exact hfold

end Placeable
end PledgeBook

/-- In a state that a run reaches, counters have room for all of stock. -/
theorem placeable_of_run {start st : State} {trace : List Entry} (hfresh : start.Fresh)
    (h : Run start trace st) {sale : Address} {record : Sale} {draw : Shuffle}
    (hrecord : st.sales.find? sale = some record)
    (hdraw : st.shuffles.find? (.shuffle sale) = some draw) {pledges : List Pledge}
    (hopened : draw.phase = .opened) (hdistinct : (pledges.map Pledge.buyer).Nodup)
    (hnew : ∀ p ∈ pledges, st.commitment? sale p.buyer = none) (hunits : ∀ p ∈ pledges, 0 < p.units)
    (hstock : pledged pledges ≤ record.available.toNat) :
    (st.pledgeBook sale record draw).Placeable pledges := by
  have hcoherent := coherent_of_run hfresh h (b := ⟨record, draw, .blank⟩)
    ⟨hrecord, hdraw, .inl rfl⟩
  have hlimit : record.terms.supplyLimit.toNat ≤ 2000 := hcoherent.limit_le
  have hreserved : draw.totalReserved.toNat ≤ 2000 := hcoherent.reserved_le
  have hpending : draw.pending.toNat ≤ draw.totalReserved.toNat := hcoherent.pending_le
  have hleft := Sale.toNat_available record
  have hsize : UInt64.size = 2 ^ 64 := rfl
  exact {
    opened := fun _ => hopened
    distinct := hdistinct
    unused := by
      intro p hp
      show ((st.commitment? sale p.buyer).getD .blank).units = 0
      rw [hnew p hp]
      rfl
    some_units := hunits
    in_stock := hstock
    reserved_lt := by
      show draw.totalReserved.toNat + record.available.toNat < _
      omega
    pending_lt := by
      show draw.pending.toNat + record.available.toNat < _
      omega }

end UnitSale
