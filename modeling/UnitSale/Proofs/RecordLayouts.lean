import UnitSale.Layout.Records
import UnitSale.Proofs.Histories
import UnitSale.Proofs.LayoutTheorems

/-!
# Layouts of the records round-trip

The laws of writing and reading for every layout of an argument or an account, put together from the
laws of the parts. In writing an address is its 32 bytes, so a derived address comes back as the key
of these bytes; a value whose addresses are keys comes back as it was.
-/

namespace UnitSale

/-! ## Values as they are read back -/

/-- The key of the bytes that an address is written as. -/
def Address.plain (a : Address) : Address := .key a.bytes

/-- Keys, and only they, are read back as they are. -/
theorem Address.plain_eq_self {a : Address} : a.plain = a ↔ a.IsKey := by
  constructor
  · intro h
    exact ⟨a.bytes, h.symm⟩
  · rintro ⟨b, rfl⟩
    rfl

/-- Addresses that may be missing are read back as they are when they are keys. -/
theorem Address.map_plain_eq_self {o : Option Address} :
    o.map Address.plain = o ↔ ∀ a ∈ o, a.IsKey := by
  cases o <;> simp [plain_eq_self]

/-- A currency as it is read back. -/
def Currency.plain : Currency → Currency
  | native => native
  | token mint => token mint.plain

/-- The mint of a currency, if there is one, is a key. -/
def Currency.Keyed (c : Currency) : Prop := ∀ mint, c = token mint → mint.IsKey

/-- A currency with a key is read back as it is. -/
theorem Currency.plain_eq_self {c : Currency} : c.plain = c ↔ c.Keyed := by
  cases c <;> simp [plain, Keyed, Address.plain_eq_self]

/-- The lists of a script have lengths that four bytes can hold. -/
def Script.Fits (s : Script) : Prop :=
  (s.sources.length < UInt32.size ∧ ∀ source ∈ s.sources, source.length < UInt32.size) ∧
    s.constants.length < UInt32.size

namespace SaleConfig

/-- A configuration as it is read back. -/
def plain (c : SaleConfig) : SaleConfig := { c with
  currency := c.currency.plain
  recipient := c.recipient.plain
  delegatedMinter := c.delegatedMinter.map Address.plain
  royaltyRecipient := c.royaltyRecipient.plain }

/-- All addresses of a configuration are keys. -/
structure Keyed (c : SaleConfig) : Prop where
  currency : c.currency.Keyed
  recipient : c.recipient.IsKey
  delegatedMinter : ∀ a ∈ c.delegatedMinter, a.IsKey
  royaltyRecipient : c.royaltyRecipient.IsKey

/-- A configuration made of keys is read back as it is. -/
theorem plain_eq_self {c : SaleConfig} (h : c.Keyed) : c.plain = c := by
  rw [plain, Currency.plain_eq_self.mpr h.currency, Address.plain_eq_self.mpr h.recipient,
    Address.map_plain_eq_self.mpr h.delegatedMinter,
    Address.plain_eq_self.mpr h.royaltyRecipient]

end SaleConfig

/-- A royalty as it is read back. -/
def RoyaltyQuote.plain (q : RoyaltyQuote) : RoyaltyQuote := { q with receiver := q.receiver.plain }

/-- A royalty for a key is read back as it is. -/
theorem RoyaltyQuote.plain_eq_self {q : RoyaltyQuote} (h : q.receiver.IsKey) : q.plain = q := by
  rw [plain, Address.plain_eq_self.mpr h]

namespace Sale

/-- A sale as it is read back. -/
def plain (s : Sale) : Sale := { s with
  terms := { s.terms with
    owner := s.terms.owner.plain
    recipient := s.terms.recipient.plain
    delegatedMinter := s.terms.delegatedMinter.map Address.plain
    currency := s.terms.currency.plain
    royaltyRecipient := s.terms.royaltyRecipient.plain } }

/-- All addresses of a sale are keys. -/
structure Keyed (s : Sale) : Prop where
  owner : s.terms.owner.IsKey
  recipient : s.terms.recipient.IsKey
  delegatedMinter : ∀ a ∈ s.terms.delegatedMinter, a.IsKey
  currency : s.terms.currency.Keyed
  royaltyRecipient : s.terms.royaltyRecipient.IsKey

/-- A sale made of keys is read back as it is. -/
theorem plain_eq_self {s : Sale} (h : s.Keyed) : s.plain = s := by
  rw [plain, Address.plain_eq_self.mpr h.owner, Address.plain_eq_self.mpr h.recipient,
    Address.map_plain_eq_self.mpr h.delegatedMinter, Currency.plain_eq_self.mpr h.currency,
    Address.plain_eq_self.mpr h.royaltyRecipient]

end Sale

/-- A ledger as it is read back. -/
def Ledger.plain (l : Ledger) : Ledger := { l with sale := l.sale.plain, holder := l.holder.plain }

/-- A ledger of keys is read back as it is. -/
theorem Ledger.plain_eq_self {l : Ledger} (h : l.sale.IsKey ∧ l.holder.IsKey) : l.plain = l := by
  rw [plain, Address.plain_eq_self.mpr h.1, Address.plain_eq_self.mpr h.2]

/-- A reservation as it is read back. -/
def Commitment.plain (c : Commitment) : Commitment := { c with
  sale := c.sale.plain
  buyer := c.buyer.plain }

/-- A reservation of keys is read back as it is. -/
theorem Commitment.plain_eq_self {c : Commitment} (h : c.sale.IsKey ∧ c.buyer.IsKey) :
    c.plain = c := by
  rw [plain, Address.plain_eq_self.mpr h.1, Address.plain_eq_self.mpr h.2]

/-- A shuffle as it is read back. -/
def Shuffle.plain (d : Shuffle) : Shuffle := { d with sale := d.sale.plain }

/-- A shuffle that names its sale by a key is read back as it is. -/
theorem Shuffle.plain_eq_self {d : Shuffle} (h : d.sale.IsKey) : d.plain = d := by
  rw [plain, Address.plain_eq_self.mpr h]

/-!
## The laws for each layout

A record keeps the laws of its fields, taken in the order in which its layout has them.
-/

namespace Layout

theorem faithful_word : word.Faithful Any id :=
  (faithful_bytes32.iso Word.toBytes_ofBytes).congr (fun _ => Iff.rfl) Word.ofBytes_toBytes

/-- Every address can be written, but only the key of its bytes comes back. -/
theorem faithful_address : address.Faithful Any Address.plain :=
  faithful_bytes32.iso fun _ => rfl

theorem faithful_currency : currency.Faithful Any Currency.plain where
  read_write {c} rest _ := by
    cases c with
    | native => simp [currency, read_uint8_cons, Currency.plain]
    | token mint =>
      simp [currency, read_uint8_cons, faithful_address.read_write rest trivial, Currency.plain]
  write_read {bytes rest c} hread := by
    simp only [currency, bind_eq_ok, Prod.exists, read_uint8_eq_ok] at hread
    obtain ⟨tag, between, rfl, hread⟩ := hread
    split at hread
    · obtain ⟨rfl, rfl⟩ := Prod.mk.inj (pure_eq_ok.mp hread)
      exact ⟨rfl, trivial⟩
    · simp only [bind_eq_ok, Prod.exists, pure_eq_ok, Prod.mk.injEq] at hread
      obtain ⟨mint, rest', hread, rfl, rfl⟩ := hread
      obtain ⟨rfl, -⟩ := faithful_address.write_read hread
      exact ⟨rfl, trivial⟩
    · exact absurd hread throw_ne_ok

theorem faithful_phase : phase.Faithful Any id :=
  faithful_choice (fun p => by cases p <;> rfl) (by decide)

theorem faithful_commitmentStatus : commitmentStatus.Faithful Any id :=
  faithful_choice (fun s => by cases s <;> rfl) (by decide)

theorem faithful_op : op.Faithful Any id :=
  ((faithful_uint16.pair faithful_uint16).iso fun _ => rfl).congr (by simp) fun _ => rfl

theorem faithful_script : script.Faithful Script.Fits id :=
  ((faithful_op.list.list.pair faithful_word.list).iso fun _ => rfl).congr
    (by simp [Script.Fits]) (by simp)

theorem faithful_saleConfig :
    saleConfig.Faithful (fun c => c.script.Fits) SaleConfig.plain :=
  ((faithful_script.pair <| faithful_uint64.pair <| faithful_uint64.pair <|
    faithful_currency.pair <| faithful_address.pair <| faithful_address.option.pair <|
    faithful_uint16.pair faithful_address).iso fun _ => rfl).congr (by simp) fun _ => rfl

theorem faithful_mintRequest : mintRequest.Faithful Any id :=
  ((faithful_uint64.pair <| faithful_uint64.pair faithful_uint64).iso fun _ => rfl).congr
    (by simp) fun _ => rfl

theorem faithful_timeBound : timeBound.Faithful Any id :=
  ((faithful_int64.pair faithful_int64).iso fun _ => rfl).congr (by simp) fun _ => rfl

theorem faithful_saleQuote : saleQuote.Faithful Any id :=
  ((faithful_uint64.pair faithful_uint64).iso fun _ => rfl).congr (by simp) fun _ => rfl

theorem faithful_royaltyQuote : royaltyQuote.Faithful Any RoyaltyQuote.plain :=
  ((faithful_address.pair faithful_uint64).iso fun _ => rfl).congr (by simp) fun _ => rfl

theorem faithful_sale : sale.Faithful (fun s => s.terms.script.Fits) Sale.plain :=
  ((faithful_address.pair <| faithful_uint64.pair <| faithful_bool.pair <| faithful_address.pair <|
    faithful_address.option.pair <| faithful_currency.pair <| faithful_uint64.pair <|
    faithful_uint64.pair <| faithful_uint64.pair <| faithful_uint64.pair <| faithful_uint64.pair <|
    faithful_uint64.pair <| faithful_uint64.pair <| faithful_uint16.pair <| faithful_address.pair <|
    faithful_bytes32.pair <| faithful_uint16.pair <| faithful_uint8.pair <|
    faithful_uint8.pair faithful_script).iso fun _ => rfl).congr (by simp) fun _ => rfl

theorem faithful_ledger : ledger.Faithful Any Ledger.plain :=
  ((faithful_address.pair <| faithful_address.pair <| faithful_uint64.pair <|
    faithful_uint64.pair faithful_uint8).iso fun _ => rfl).congr (by simp) fun _ => rfl

theorem faithful_commitment : commitment.Faithful Any Commitment.plain :=
  ((faithful_address.pair <| faithful_address.pair <| faithful_bytes32.pair <|
    faithful_uint64.pair <| faithful_uint64.pair <| faithful_commitmentStatus.pair <|
    faithful_int64.pair faithful_uint8).iso fun _ => rfl).congr (by simp) fun _ => rfl

theorem faithful_shuffle :
    shuffle.Faithful (fun d => d.permutation.length < UInt32.size) Shuffle.plain :=
  ((faithful_address.pair <| faithful_phase.pair <| faithful_uint64.pair <| faithful_uint64.pair <|
    faithful_uint64.pair <| faithful_uint64.pair <| faithful_bytes32.pair <|
    faithful_timeBound.pair <| faithful_int64.pair <| faithful_int64.pair <| faithful_int64.pair <|
    faithful_uint8.pair faithful_uint32.list).iso fun _ => rfl).congr (by simp)
    (by simp [Shuffle.plain])

/-- Every layout of an argument and of an account round-trips, for all values whose lists have fewer
than 2^32 items. -/
theorem layouts_round_trip :
    (script.RoundTrips Script.Fits id ∧
      saleConfig.RoundTrips (fun c => c.script.Fits) SaleConfig.plain ∧
      mintRequest.RoundTrips Any id ∧
      timeBound.RoundTrips Any id ∧
      saleQuote.RoundTrips Any id ∧
      royaltyQuote.RoundTrips Any RoyaltyQuote.plain) ∧
    (sale.AccountRoundTrips saleDiscriminator (fun s => s.terms.script.Fits) Sale.plain ∧
      shuffle.AccountRoundTrips shuffleDiscriminator (fun d => d.permutation.length < UInt32.size)
        Shuffle.plain ∧
      commitment.AccountRoundTrips commitmentDiscriminator Any Commitment.plain ∧
      ledger.AccountRoundTrips ledgerDiscriminator Any Ledger.plain) ∧
    (∀ c : SaleConfig, c.Keyed → c.plain = c) ∧
    (∀ q : RoyaltyQuote, q.receiver.IsKey → q.plain = q) ∧
    (∀ s : Sale, s.Keyed → s.plain = s) ∧
    (∀ d : Shuffle, d.sale.IsKey → d.plain = d) ∧
    (∀ c : Commitment, c.sale.IsKey ∧ c.buyer.IsKey → c.plain = c) ∧
    ∀ l : Ledger, l.sale.IsKey ∧ l.holder.IsKey → l.plain = l :=
  ⟨⟨faithful_script.roundTrips, faithful_saleConfig.roundTrips, faithful_mintRequest.roundTrips,
      faithful_timeBound.roundTrips, faithful_saleQuote.roundTrips,
      faithful_royaltyQuote.roundTrips⟩,
    ⟨faithful_sale.accountRoundTrips _, faithful_shuffle.accountRoundTrips _,
      faithful_commitment.accountRoundTrips _, faithful_ledger.accountRoundTrips _⟩,
    fun _ => SaleConfig.plain_eq_self, fun _ => RoyaltyQuote.plain_eq_self,
    fun _ => Sale.plain_eq_self, fun _ => Shuffle.plain_eq_self,
    fun _ => Commitment.plain_eq_self, fun _ => Ledger.plain_eq_self⟩

/-- The configuration of the sample sale is read back as it was, and not read without its last byte.
-/
theorem layouts_round_trip_config :
    saleConfig.decode (saleConfig.encode Sample.config) = .ok Sample.config ∧
      ∃ cause, saleConfig.decode (saleConfig.encode Sample.config).dropLast = .error cause := by
  have hfits : Sample.config.script.Fits := ⟨⟨by decide, by decide⟩, by decide⟩
  have hkeyed : Sample.config.Keyed := {
    currency := fun _ h => by cases h
    recipient := ⟨_, rfl⟩
    delegatedMinter := fun _ h => by cases h
    royaltyRecipient := ⟨_, rfl⟩ }
  have hnonempty : saleConfig.encode Sample.config ≠ [] := by decide +kernel
  obtain ⟨⟨-, hlaws, -⟩, -, hplain, -⟩ := layouts_round_trip
  have hread := hlaws.decode_encode Sample.config hfits
  rw [hplain Sample.config hkeyed] at hread
  have hlast := (List.dropLast_append_getLast hnonempty).symm
  exact ⟨hread, hlaws.decode_truncated Sample.config _ _ hfits hlast (List.cons_ne_nil _ _)⟩

end Layout
end UnitSale
