import UnitSale.Layout.Basic
import UnitSale.Proofs.UpdateTheorems

/-!
# Layouts that keep what they are given

Writing and reading, as two laws that hold with any bytes behind the value: what was written is read
back, and what was read is what stood there. Both laws go through every way of putting layouts
together. That an input cut short cannot be read follows from them alone.

Two things depend on the type. `Fits` says which values can be written at all: the length of a list
has to fit into four bytes. `plain` is the value as it is read back; it differs from the value only
where two values share their bytes.
-/

namespace UnitSale
namespace Layout

variable {α β : Type}

/-! ## Bytes in front -/

/-- Bytes split at their number are these bytes and whatever follows them. -/
theorem splitBytes_eq_ok {n : Nat} {bytes front rest : List UInt8} :
    splitBytes n bytes = .ok (front, rest) ↔ bytes = front ++ rest ∧ front.length = n := by
  induction n generalizing bytes front rest with
  | zero => cases front <;> simp [splitBytes, eq_comm]
  | succ n ih =>
    cases bytes with
    | nil => cases front <;> simp [splitBytes]
    | cons b bytes =>
      simp only [splitBytes, bind_eq_ok, Prod.exists, ih, pure_eq_ok, Prod.mk.injEq]
      constructor
      · rintro ⟨front', rest', ⟨rfl, hlength⟩, rfl, rfl⟩
        exact ⟨rfl, by rw [List.length_cons, hlength]⟩
      · rintro ⟨hbytes, hlength⟩
        cases front with
        | nil => cases hlength
        | cons c front =>
          obtain ⟨rfl, rfl⟩ := List.cons.inj hbytes
          exact ⟨front, rest, ⟨rfl, Nat.succ.inj hlength⟩, rfl, rfl⟩

/-- Reading a byte takes the first one. -/
theorem read_uint8_cons (b : UInt8) (rest : List UInt8) :
    uint8.read (b :: rest) = .ok (b, rest) := by
  simp [uint8, integer, splitBytes, ofLittleEndian]

/-- A byte is read exactly from bytes that begin with it. -/
theorem read_uint8_eq_ok {bytes rest : List UInt8} {b : UInt8} :
    uint8.read bytes = .ok (b, rest) ↔ bytes = b :: rest := by
  constructor
  · intro h
    cases bytes with
    | nil => simp [uint8, integer, splitBytes, bind, Except.bind] at h
    | cons c bytes =>
      rw [read_uint8_cons, Except.ok.injEq, Prod.mk.injEq] at h
      rw [h.1, h.2]
  · rintro rfl
    exact read_uint8_cons b rest

/-! ## The two laws -/

/-- A layout that reads back what it wrote and only reads what it would write. -/
structure Faithful (l : Layout α) (Fits : α → Prop) (plain : α → α) : Prop where
  read_write : ∀ {a : α} (rest : List UInt8), Fits a →
    l.read (l.write a ++ rest) = .ok (plain a, rest)
  write_read : ∀ {bytes rest : List UInt8} {a : α}, l.read bytes = .ok (a, rest) →
    bytes = l.write a ++ rest ∧ Fits a

/-- All values of a type, where each of them can be written. -/
abbrev Any (_ : α) : Prop := True

namespace Faithful

variable {l : Layout α} {m : Layout β} {Fits : α → Prop} {Fits' : β → Prop} {plain : α → α}
  {plain' : β → β}

/-- The laws with another way to say what fits and how it is read back. -/
theorem congr (h : l.Faithful Fits plain) {Fits' : α → Prop} {plain' : α → α}
    (hfits : ∀ a, Fits a ↔ Fits' a) (hplain : ∀ a, plain a = plain' a) :
    l.Faithful Fits' plain' := by
  rwa [← funext fun a => propext (hfits a), ← funext hplain]

/-- The laws go through an isomorphism. -/
theorem iso (h : l.Faithful Fits plain) {make : α → β} {parts : β → α}
    (hparts : ∀ a, parts (make a) = a) :
    (l.iso make parts).Faithful (fun b => Fits (parts b)) fun b => make (plain (parts b)) where
  read_write rest hfits := by
    simp only [Layout.iso, h.read_write rest hfits]
    rfl
  write_read hread := by
    simp only [Layout.iso, bind_eq_ok, pure_eq_ok, Prod.exists, Prod.mk.injEq] at hread
    obtain ⟨a, rest', hread, rfl, rfl⟩ := hread
    obtain ⟨hbytes, hfits⟩ := h.write_read hread
    simp only [Layout.iso, hparts]
    exact ⟨hbytes, hfits⟩

/-- The laws go through pairs. -/
theorem pair (h : l.Faithful Fits plain) (h' : m.Faithful Fits' plain') :
    (l.pair m).Faithful (fun ab => Fits ab.1 ∧ Fits' ab.2) fun ab => (plain ab.1, plain' ab.2) where
  read_write rest hfits := by
    simp only [Layout.pair, List.append_assoc, h.read_write _ hfits.1, ok_bind,
      h'.read_write rest hfits.2]
    rfl
  write_read hread := by
    simp only [Layout.pair, bind_eq_ok, pure_eq_ok, Prod.exists, Prod.mk.injEq] at hread
    obtain ⟨a, between, hfirst, b, rest', hsecond, rfl, rfl⟩ := hread
    obtain ⟨rfl, hfits⟩ := h.write_read hfirst
    obtain ⟨rfl, hfits'⟩ := h'.write_read hsecond
    exact ⟨(List.append_assoc ..).symm, hfits, hfits'⟩

/-- Values written in a row are read back in a row. -/
theorem readMany_write (h : l.Faithful Fits plain) {items : List α} (rest : List UInt8)
    (hfits : ∀ a ∈ items, Fits a) :
    readMany l items.length (items.flatMap l.write ++ rest) = .ok (items.map plain, rest) := by
  induction items with
  | nil => rfl
  | cons a items ih =>
    obtain ⟨ha, hitems⟩ := List.forall_mem_cons.mp hfits
    -- behind the first item stand the others and the rest
    simp only [List.length_cons, readMany, List.flatMap_cons, List.append_assoc,
      h.read_write _ ha, ok_bind, ih hitems]
    rfl

/-- Values read in a row stood there in a row. -/
theorem write_readMany (h : l.Faithful Fits plain) {n : Nat} {bytes rest : List UInt8}
    {items : List α} (hread : readMany l n bytes = .ok (items, rest)) :
    bytes = items.flatMap l.write ++ rest ∧ items.length = n ∧ ∀ a ∈ items, Fits a := by
  induction n generalizing bytes items with
  | zero =>
    obtain ⟨rfl, rfl⟩ := Prod.mk.inj (Except.ok.inj hread)
    exact ⟨rfl, rfl, List.forall_mem_nil _⟩
  | succ n ih =>
    simp only [readMany, bind_eq_ok, pure_eq_ok, Prod.exists, Prod.mk.injEq] at hread
    obtain ⟨a, between, hfirst, items, rest', hlater, rfl, rfl⟩ := hread
    obtain ⟨rfl, ha⟩ := h.write_read hfirst
    obtain ⟨rfl, rfl, hitems⟩ := ih hlater
    exact ⟨(List.append_assoc ..).symm, rfl, List.forall_mem_cons.mpr ⟨ha, hitems⟩⟩

end Faithful

/-! ## Integers and bytes -/

/-- An integer type with as many values as its width holds keeps the laws. -/
theorem faithful_integer {width : Nat} {toNat : α → Nat} {ofNat : Nat → α}
    (hlt : ∀ a, toNat a < byteRange width) (hvalue : ∀ a, ofNat (toNat a) = a)
    (hnumber : ∀ n < byteRange width, toNat (ofNat n) = n) :
    (integer width toNat ofNat).Faithful Any id where
  read_write {a} rest _ := by
    have hsplit : splitBytes width (littleEndian width (toNat a) ++ rest)
        = .ok (littleEndian width (toNat a), rest) :=
      splitBytes_eq_ok.mpr ⟨rfl, length_littleEndian _ _⟩
    simp only [integer, hsplit, ok_bind, ofLittleEndian_littleEndian, Nat.mod_eq_of_lt (hlt a),
      hvalue]
    rfl
  write_read hread := by
    simp only [integer, bind_eq_ok, splitBytes_eq_ok, pure_eq_ok, Prod.exists,
      Prod.mk.injEq] at hread
    obtain ⟨front, rest, ⟨rfl, rfl⟩, rfl, rfl⟩ := hread
    -- the bytes that were read hold the number in full, so writing it gives them again
    simp only [integer, hnumber _ (ofLittleEndian_lt front), littleEndian_ofLittleEndian,
      and_self]

theorem faithful_uint8 : uint8.Faithful Any id :=
  faithful_integer UInt8.toNat_lt (fun _ => UInt8.ofNat_toNat) fun _ h => UInt8.toNat_ofNat_of_lt h

theorem faithful_uint16 : uint16.Faithful Any id :=
  faithful_integer UInt16.toNat_lt (fun _ => UInt16.ofNat_toNat) fun _ h =>
    UInt16.toNat_ofNat_of_lt h

theorem faithful_uint32 : uint32.Faithful Any id :=
  faithful_integer UInt32.toNat_lt (fun _ => UInt32.ofNat_toNat) fun _ h =>
    UInt32.toNat_ofNat_of_lt h

theorem faithful_uint64 : uint64.Faithful Any id :=
  faithful_integer UInt64.toNat_lt (fun _ => UInt64.ofNat_toNat) fun _ h =>
    UInt64.toNat_ofNat_of_lt h

theorem faithful_int64 : int64.Faithful Any id :=
  (faithful_uint64.iso UInt64.toUInt64_toInt64).congr (fun _ => Iff.rfl) Int64.toInt64_toUInt64

/-- Thirty-two bytes are these bytes as a list. -/
theorem ofList?_eq_some {bytes : List UInt8} {b : Bytes32} :
    Bytes32.ofList? bytes = some b ↔ bytes = b.toList := by
  simp only [Bytes32.ofList?, Option.dite_none_right_eq_some, Option.some.injEq]
  constructor
  · rintro ⟨_, rfl⟩
    rfl
  · rintro rfl
    exact ⟨b.length_toList, rfl⟩

theorem faithful_bytes32 : bytes32.Faithful Any id where
  read_write {b} rest _ := by
    have hsplit : splitBytes 32 (b.toList ++ rest) = .ok (b.toList, rest) :=
      splitBytes_eq_ok.mpr ⟨rfl, b.length_toList⟩
    simp only [bytes32, hsplit, ok_bind, ofList?_eq_some.mpr rfl]
    rfl
  write_read {bytes rest b} hread := by
    simp only [bytes32, bind_eq_ok, Prod.exists, splitBytes_eq_ok] at hread
    obtain ⟨front, rest', ⟨rfl, -⟩, hread⟩ := hread
    split at hread
    · rename_i b' hb
      obtain ⟨rfl, rfl⟩ := Prod.mk.inj (pure_eq_ok.mp hread)
      exact ⟨by rw [ofList?_eq_some.mp hb]; rfl, trivial⟩
    · exact absurd hread throw_ne_ok

/-! ## Lists and tagged values -/

/-- The laws go through lists whose length fits into four bytes. -/
theorem Faithful.list {l : Layout α} {Fits : α → Prop} {plain : α → α}
    (h : l.Faithful Fits plain) :
    l.list.Faithful (fun items => items.length < UInt32.size ∧ ∀ a ∈ items, Fits a)
      (List.map plain) where
  read_write {items} rest hfits := by
    have hlength : (UInt32.ofNat items.length).toNat = items.length :=
      UInt32.toNat_ofNat_of_lt hfits.1
    simp only [Layout.list, List.append_assoc, faithful_uint32.read_write _ trivial, id_eq,
      ok_bind, hlength, h.readMany_write rest hfits.2]
  write_read {bytes rest items} hread := by
    simp only [Layout.list, bind_eq_ok, Prod.exists] at hread
    obtain ⟨length, between, hlength, hitems⟩ := hread
    obtain ⟨rfl, -⟩ := faithful_uint32.write_read hlength
    obtain ⟨rfl, hcount, hfits⟩ := h.write_readMany hitems
    simp only [Layout.list, hcount, UInt32.ofNat_toNat, List.append_assoc, true_and]
    exact ⟨length.toNat_lt, hfits⟩

/-- The laws go through options. -/
theorem Faithful.option {l : Layout α} {Fits : α → Prop} {plain : α → α}
    (h : l.Faithful Fits plain) :
    l.option.Faithful (fun o => ∀ a ∈ o, Fits a) (Option.map plain) where
  read_write {o} rest hfits := by
    cases o with
    | none => simp [Layout.option, read_uint8_cons]
    | some a =>
      simp [Layout.option, read_uint8_cons, h.read_write rest (hfits a rfl)]
  write_read {bytes rest o} hread := by
    simp only [Layout.option, bind_eq_ok, Prod.exists, read_uint8_eq_ok] at hread
    obtain ⟨tag, between, rfl, hread⟩ := hread
    split at hread
    · obtain ⟨rfl, rfl⟩ := Prod.mk.inj (pure_eq_ok.mp hread)
      simp [Layout.option]
    · simp only [bind_eq_ok, Prod.exists, pure_eq_ok, Prod.mk.injEq] at hread
      obtain ⟨a, rest', hread, rfl, rfl⟩ := hread
      obtain ⟨rfl, ha⟩ := h.write_read hread
      simpa [Layout.option] using ha
    · exact absurd hread throw_ne_ok

theorem faithful_bool : bool.Faithful Any id where
  read_write {b} rest _ := by
    cases b <;> simp [bool, read_uint8_cons]
  write_read {bytes rest b} hread := by
    simp only [bool, bind_eq_ok, Prod.exists, read_uint8_eq_ok] at hread
    obtain ⟨tag, between, rfl, hread⟩ := hread
    split at hread
    · obtain ⟨rfl, rfl⟩ := Prod.mk.inj (pure_eq_ok.mp hread)
      exact ⟨rfl, trivial⟩
    · obtain ⟨rfl, rfl⟩ := Prod.mk.inj (pure_eq_ok.mp hread)
      exact ⟨rfl, trivial⟩
    · exact absurd hread throw_ne_ok

/-- One of the listed cases keeps the laws when the index of a case is its place in the list. -/
theorem faithful_choice {index : α → UInt8} {cases : List α}
    (hlisted : ∀ a, cases[(index a).toNat]? = some a)
    (hplace : ∀ i (h : i < cases.length), (index cases[i]).toNat = i) :
    (choice index cases).Faithful Any id where
  read_write {a} rest _ := by
    simp [choice, read_uint8_cons, hlisted]
  write_read {bytes rest a} hread := by
    simp only [choice, bind_eq_ok, Prod.exists, read_uint8_eq_ok] at hread
    obtain ⟨tag, between, rfl, hread⟩ := hread
    split at hread
    · rename_i found hfound
      obtain ⟨rfl, rfl⟩ := Prod.mk.inj (pure_eq_ok.mp hread)
      obtain ⟨hlt, rfl⟩ := List.getElem?_eq_some_iff.mp hfound
      have htag : index cases[tag.toNat] = tag := UInt8.toNat_inj.mp (hplace _ hlt)
      exact ⟨by simp [choice, htag], trivial⟩
    · exact absurd hread throw_ne_ok

/-! ## Whole inputs -/

/-- Bytes are a value exactly when reading it uses them up. -/
theorem decode_eq_ok {l : Layout α} {bytes : List UInt8} {a : α} :
    l.decode bytes = .ok a ↔ l.read bytes = .ok (a, []) := by
  simp only [decode, bind_eq_ok, Prod.exists]
  constructor
  · rintro ⟨b, rest, hread, hdone⟩
    cases rest with
    | nil => rwa [← pure_eq_ok.mp hdone]
    | cons c rest => exact absurd hdone throw_ne_ok
  · intro hread
    exact ⟨a, [], hread, rfl⟩

/-- An account holds a value exactly when it is found behind the discriminator. -/
theorem decodeAccount_eq_ok {l : Layout α} {discriminator bytes : List UInt8} {a : α} :
    l.decodeAccount discriminator bytes = .ok a ↔
      ∃ data rest, bytes = discriminator ++ data ∧ l.read data = .ok (a, rest) := by
  constructor
  · intro h
    unfold decodeAccount at h
    split at h
    · cases h
    · rename_i front data hsplit
      split_ifs at h with hfront
      · split at h
        · rename_i a' rest hread
          obtain rfl := Except.ok.inj h
          exact ⟨data, rest, hfront ▸ (splitBytes_eq_ok.mp hsplit).1, hread⟩
        · cases h
  · rintro ⟨data, rest, rfl, hread⟩
    simp only [decodeAccount, splitBytes_eq_ok.mpr ⟨rfl, rfl⟩, if_true, hread]

/-- A layout of whole inputs: a value is written and read back, bytes are read and written back, and
bytes with some missing at the end are refused. -/
structure RoundTrips (l : Layout α) (Fits : α → Prop) (plain : α → α) : Prop where
  decode_encode : ∀ a, Fits a → l.decode (l.encode a) = .ok (plain a)
  encode_decode : ∀ bytes a, l.decode bytes = .ok a → l.encode a = bytes
  decode_truncated : ∀ a front missing, Fits a → l.encode a = front ++ missing → missing ≠ [] →
    ∃ cause, l.decode front = .error cause

/-- A layout of accounts: a value is written and read back whatever follows it, and bytes that are
read start with what is written. -/
structure AccountRoundTrips (l : Layout α) (discriminator : List UInt8) (Fits : α → Prop)
    (plain : α → α) : Prop where
  decode_encode : ∀ a rest, Fits a →
    l.decodeAccount discriminator (l.encodeAccount discriminator a ++ rest) = .ok (plain a)
  encode_decode : ∀ bytes a, l.decodeAccount discriminator bytes = .ok a →
    ∃ rest, bytes = l.encodeAccount discriminator a ++ rest

namespace Faithful

variable {l : Layout α} {Fits : α → Prop} {plain : α → α}

/-- The laws make a layout of whole inputs. -/
theorem roundTrips (h : l.Faithful Fits plain) : l.RoundTrips Fits plain where
  decode_encode a hfits := by
    have hread := h.read_write [] hfits
    rw [List.append_nil] at hread
    exact decode_eq_ok.mpr hread
  encode_decode bytes a hdecode := by
    have hbytes := (h.write_read (decode_eq_ok.mp hdecode)).1
    rw [List.append_nil] at hbytes
    exact hbytes.symm
  decode_truncated a front missing hfits hencode hmissing := by
    cases hfront : l.decode front with
    | error cause => exact ⟨cause, rfl⟩
    | ok b =>
      obtain ⟨hbytes, hb⟩ := h.write_read (decode_eq_ok.mp hfront)
      rw [List.append_nil] at hbytes
      -- read as a whole the input leaves nothing over, read by its front it leaves what is missing
      have hwhole : l.read (l.encode a) = .ok (plain a, []) := by
        rw [encode, ← List.append_nil (l.write a)]
        exact h.read_write [] hfits
      rw [hencode, hbytes, h.read_write missing hb, Except.ok.injEq, Prod.mk.injEq] at hwhole
      exact absurd hwhole.2 hmissing

/-- The laws make a layout of accounts. -/
theorem accountRoundTrips (h : l.Faithful Fits plain) (discriminator : List UInt8) :
    l.AccountRoundTrips discriminator Fits plain where
  decode_encode a rest hfits := by
    rw [encodeAccount, List.append_assoc]
    exact decodeAccount_eq_ok.mpr ⟨_, rest, rfl, h.read_write rest hfits⟩
  encode_decode bytes a hdecode := by
    obtain ⟨data, rest, rfl, hread⟩ := decodeAccount_eq_ok.mp hdecode
    obtain ⟨rfl, -⟩ := h.write_read hread
    exact ⟨rest, by rw [encodeAccount, List.append_assoc]⟩

end Faithful
end Layout
end UnitSale
