import UnitSale.Chain.Treasury
import UnitSale.Proofs.SaleTheorems
import UnitSale.Proofs.TransferTheorems

/-!
# Royalties

A royalty is a share of the price in basis points, rounded down. The share is worked out in 128 bits
and then cut to 64. Opening a sale refuses a share of more than a quarter, and that is why the cut
loses nothing: the laws of the share on natural numbers are those of the amount.
-/

namespace UnitSale

/-! ## Shares of a price -/

/-- Basis points of a price, rounded down. -/
def share (bps price : ℕ) : ℕ := price * bps / basisPoints

theorem share_mono (bps : ℕ) {price price' : ℕ} (h : price ≤ price') :
    share bps price ≤ share bps price' :=
  Nat.div_le_div_right (Nat.mul_le_mul_right bps h)

/-- Rounding down loses less than one over two prices. -/
theorem share_add (bps price price' : ℕ) :
    share bps price + share bps price' ≤ share bps (price + price') ∧
      share bps (price + price') ≤ share bps price + share bps price' + 1 := by
  unfold share basisPoints
  rw [Nat.add_mul]
  constructor
  · omega
  · omega

theorem share_le_quarter {bps : ℕ} (h : bps ≤ maxRoyaltyBps.toNat) (price : ℕ) :
    4 * share bps price ≤ price := by
  have hproduct : price * bps ≤ price * 2500 := Nat.mul_le_mul_left price h
  unfold share basisPoints
  omega

namespace Sale

variable {s : Sale}

/-- No product of a price and basis points is too large for 128 bits, so a royalty always comes out,
and it is the one that is owed. -/
theorem quoteRoyalty_eq (s : Sale) (price : UInt64) :
    s.quoteRoyalty price = .ok (s.royalty price) := by
  have hprice := price.toNat_lt
  have hbps := s.terms.royaltyBps.toNat_lt
  have hproduct : price.toNat * s.terms.royaltyBps.toNat ≤ 2 ^ 64 * 2 ^ 16 :=
    Nat.mul_le_mul (Nat.le_of_lt hprice) (Nat.le_of_lt hbps)
  have hfits : Checked.mulWide price.toNat s.terms.royaltyBps.toNat
      = some (price.toNat * s.terms.royaltyBps.toNat) :=
    if_pos (by omega)
  rw [quoteRoyalty, hfits]
  rfl

/-- Where the basis points are inside the bound, cutting the share to 64 bits loses nothing. -/
theorem toNat_royalty (hbps : s.terms.royaltyBps ≤ maxRoyaltyBps) (price : UInt64) :
    (s.royalty price).amount.toNat = share s.terms.royaltyBps.toNat price.toNat := by
  have hquarter := share_le_quarter (UInt16.le_iff_toNat_le.mp hbps) price.toNat
  have hprice := price.toNat_lt
  apply UInt64.toNat_ofNat_of_lt'
  show share s.terms.royaltyBps.toNat price.toNat < UInt64.size
  unfold UInt64.size
  omega

end Sale

/-- A sale that was opened answers with the royalty that is owed and changes nothing. -/
theorem State.royaltyInfo_eq {st : State} {sale : Address} {record : Sale}
    (h : st.sales.find? sale = some record) (price : UInt64) :
    st.royaltyInfo sale price = .ok ⟨st, .royalty (record.royalty price), [], []⟩ := by
  have hload : load st.sales sale = .ok record := load_eq_ok.mpr h
  rw [royaltyInfo, hload, ok_bind, Sale.quoteRoyalty_eq]
  rfl

/-- Royalties of a sale that was configured, as it is then and as long as it has these terms, always
come out. The amount is exactly the basis points of the price, rounded down, and at most a quarter of
the price; a higher price never has a lower one, and two prices together have at least the sum of
their amounts and at most one more. -/
theorem royalties_exact {before opened s : Sale} {owner : Address} {number : UInt64}
    {config : SaleConfig} {depth : UInt16} {fingerprint : Bytes32} {bump : UInt8}
    (hopened : (Sale.configure owner number config depth fingerprint bump).attempt before
      = .ok ((), opened))
    (hterms : s.terms = opened.terms) :
    ∃ amount : UInt64 → UInt64,
      (∀ price, s.quoteRoyalty price = .ok ⟨config.royaltyRecipient, amount price⟩) ∧
      (∀ (st : State) (sale : Address), st.sales.find? sale = some s →
        ∀ price, st.royaltyInfo sale price
          = .ok ⟨st, .royalty ⟨config.royaltyRecipient, amount price⟩, [], []⟩) ∧
      (∀ price, (amount price).toNat = price.toNat * config.royaltyBps.toNat / 10000) ∧
      (∀ price, 4 * (amount price).toNat ≤ price.toNat) ∧
      (∀ price price', price ≤ price' → amount price ≤ amount price') ∧
      ∀ a b : UInt64, a.toNat + b.toNat < UInt64.size →
        (amount a).toNat + (amount b).toNat ≤ (amount (a + b)).toNat ∧
          (amount (a + b)).toNat ≤ (amount a).toNat + (amount b).toNat + 1 := by
  obtain ⟨-, -, hbps, hresult⟩ := Sale.attempt_configure.mp hopened
  have hset : s.terms = Sale.termsOf owner number config depth fingerprint bump :=
    hterms.trans (congrArg (fun result => result.2.terms) hresult)
  have hsame : s.terms.royaltyBps = config.royaltyBps := congrArg Terms.royaltyBps hset
  have hreceiver : s.terms.royaltyRecipient = config.royaltyRecipient :=
    congrArg Terms.royaltyRecipient hset
  have hroyalty : ∀ price, s.royalty price
      = ⟨config.royaltyRecipient, (s.royalty price).amount⟩ := by
    intro price
    rw [← hreceiver]
    rfl
  have hamount : ∀ price, (s.royalty price).amount.toNat
      = share config.royaltyBps.toNat price.toNat := by
    rw [← hsame] at hbps ⊢
    exact Sale.toNat_royalty hbps
  refine ⟨fun price => (s.royalty price).amount, ?_, ?_, hamount, ?_, ?_, ?_⟩
  · intro price
    rw [Sale.quoteRoyalty_eq, ← hroyalty]
  · intro st sale hfound price
    rw [State.royaltyInfo_eq hfound, ← hroyalty]
  · intro price
    rw [hamount]
    exact share_le_quarter (UInt16.le_iff_toNat_le.mp hbps) _
  · intro price price' hle
    rw [UInt64.le_iff_toNat_le, hamount, hamount]
    exact share_mono _ (UInt64.le_iff_toNat_le.mp hle)
  · intro a b hfits
    have hsum : (a + b).toNat = a.toNat + b.toNat := by
      rw [UInt64.toNat_add]
      exact Nat.mod_eq_of_lt hfits
    rw [hamount, hamount, hamount, hsum]
    exact share_add _ _ _

/-- At the highest share, a quarter, the royalty on the largest price of all is not cut. -/
theorem royalties_exact_quarter :
    let receiver : Address := .key (Vector.replicate 32 1)
    let config : SaleConfig := ⟨.empty, 2000, 0, .native, receiver, none, 2500, receiver⟩
    ∃ opened, (Sale.configure receiver 1 config 2 Bytes32.zero 255).attempt .blank
        = .ok ((), opened) ∧
      opened.quoteRoyalty Checked.maxAmount = .ok ⟨receiver, 4611686018427387903⟩ := by
  intro receiver config
  let opened : Sale :=
    { Sale.blank with terms := Sale.termsOf receiver 1 config 2 Bytes32.zero 255 }
  have hopened : (Sale.configure receiver 1 config 2 Bytes32.zero 255).attempt .blank
      = .ok ((), opened) :=
    Sale.attempt_configure.mpr ⟨rfl, by decide, by decide, rfl⟩
  obtain ⟨amount, hquoted, -, hexact, -⟩ := royalties_exact hopened (s := opened) rfl
  have hamount : amount Checked.maxAmount = 4611686018427387903 := by
    have hlargest : Checked.maxAmount.toNat = 18446744073709551615 := rfl
    have hbps : config.royaltyBps.toNat = 2500 := rfl
    rw [← UInt64.toNat_inj, hexact, hlargest, hbps]
    rfl
  exact ⟨opened, hopened, by rw [hquoted, hamount]⟩

end UnitSale
