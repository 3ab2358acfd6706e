import Mathlib.Data.List.Forall2
import UnitSale.Proofs.NamesTheorems
import UnitSale.Proofs.ValidationTheorems

/-!
# What a fingerprint pins

A fingerprint is the digest of all descriptors of a table, one after the other. Where no name has a
zero byte in it, the descriptors can be told apart in what is digested: a name ends at the first zero
byte, and what follows it has a fixed length. They tell names and kinds of operand, but not every
arity: the counted one is written as the fixed one of 255 inputs and one output would be.
-/

namespace UnitSale
namespace Script

variable {H H' : Type}

/-! ## Codes -/

/-- Arities that have one code: equal ones, and the counted one and the fixed one that it is written
as. -/
inductive Arity.Confused : Arity → Arity → Prop
  | refl (a : Arity) : Confused a a
  | counted : Confused .counted (.fixed 255 1)
  | fixed : Confused (.fixed 255 1) .counted

@[simp] theorem Arity.length_code (a : Arity) : a.code.length = 2 := by
  cases a <;> rfl

/-- No other arities have one code. -/
theorem Arity.code_eq_iff {a b : Arity} : a.code = b.code ↔ a.Confused b := by
  constructor
  · intro h
    cases a with
    | fixed inputs outputs =>
      cases b with
      | fixed inputs' outputs' =>
        simp only [code, List.cons.injEq, and_true] at h
        obtain ⟨rfl, rfl⟩ := h
        exact .refl _
      | counted =>
        simp only [code, List.cons.injEq, and_true] at h
        obtain ⟨rfl, rfl⟩ := h
        exact .fixed
    | counted =>
      cases b with
      | fixed inputs' outputs' =>
        simp only [code, List.cons.injEq, and_true] at h
        obtain ⟨rfl, rfl⟩ := h
        exact .counted
      | counted => exact .refl _
  · intro h
    cases h <;> rfl

@[simp] theorem OperandKind.length_tag (kind : OperandKind) : kind.tag.length = 3 := by
  cases kind <;> simp [tag]

/-- Every kind of operand, and every bound of a slot, has a tag of its own. -/
theorem OperandKind.tag_injective : Function.Injective tag := by
  intro kind kind' h
  cases kind with
  | slot bound =>
    cases kind' with
    | slot bound' =>
      simp only [tag, List.cons.injEq, true_and] at h
      have hlt : bound.toNat < byteRange 2 := bound.toNat_lt
      have hlt' : bound'.toNat < byteRange 2 := bound'.toNat_lt
      have hbound := congrArg ofBigEndian h
      rw [ofBigEndian_bigEndian, ofBigEndian_bigEndian, Nat.mod_eq_of_lt hlt,
        Nat.mod_eq_of_lt hlt'] at hbound
      rw [UInt16.toNat_inj.mp hbound]
    | _ => simp [tag] at h
  | _ => cases kind' <;> simp [tag] at h ⊢

/-! ## Descriptors one after the other -/

/-- A list that ends at the first zero byte is known from what it starts. -/
theorem zero_ends {bytes bytes' rest rest' : List UInt8} (hfree : 0 ∉ bytes) (hfree' : 0 ∉ bytes')
    (h : bytes ++ 0 :: rest = bytes' ++ 0 :: rest') : bytes = bytes' ∧ rest = rest' := by
  have hread : ∀ {bytes : List UInt8} (rest : List UInt8), 0 ∉ bytes →
      (bytes ++ 0 :: rest).takeWhile (· != 0) = bytes := by
    intro bytes rest hfree
    have hne : ∀ b ∈ bytes, (b != 0) = true := by
      intro b hb
      rw [bne_iff_ne]
      exact ne_of_mem_of_not_mem hb hfree
    rw [List.takeWhile_append_of_pos hne, List.takeWhile_cons_of_neg (by decide), List.append_nil]
  have hbytes : bytes = bytes' := by
    rw [← hread rest hfree, h, hread rest' hfree']
  rw [hbytes, List.append_cancel_left_eq, List.cons.injEq] at h
  exact ⟨hbytes, h.2⟩

namespace Opcode

/-- The bytes of the name. -/
def nameBytes (o : Opcode H) : List UInt8 := o.name.toUTF8.data.toList

theorem name_eq_of_nameBytes_eq {o : Opcode H} {o' : Opcode H'} (h : o.nameBytes = o'.nameBytes) :
    o.name = o'.name :=
  String.toByteArray_inj.mp (ByteArray.ext (Array.toList_inj.mp h))

/-- Opcodes that the checks of a script treat alike: all but their handlers is the same. -/
structure SameShape (o : Opcode H) (o' : Opcode H') : Prop where
  name : o.name = o'.name
  operand : o.operand = o'.operand
  arity : o.arity = o'.arity

/-- Opcodes that descriptors do not tell apart. -/
structure Confused (o : Opcode H) (o' : Opcode H') : Prop where
  name : o.name = o'.name
  operand : o.operand = o'.operand
  arity : o.arity.Confused o'.arity

variable {o : Opcode H} {o' : Opcode H'}

theorem Confused.descriptor_eq (h : o.Confused o') : o.descriptor = o'.descriptor := by
  rw [descriptor, descriptor, h.name, h.operand, Arity.code_eq_iff.mpr h.arity]

/-- Opcodes that are not told apart have one shape if neither has the arity in question. -/
theorem Confused.sameShape (h : o.Confused o') (hplain : o.arity ≠ .fixed 255 1)
    (hplain' : o'.arity ≠ .fixed 255 1) : o.SameShape o' := by
  refine ⟨h.name, h.operand, ?_⟩
  have harity := h.arity
  generalize o.arity = a at harity hplain
  generalize o'.arity = b at harity hplain'
  cases harity with
  | refl => rfl
  | counted => exact absurd rfl hplain'
  | fixed => exact absurd rfl hplain

theorem descriptor_ne_nil (o : Opcode H) : o.descriptor ≠ [] :=
  List.append_ne_nil_of_right_ne_nil _ (List.cons_ne_nil _ _)

/-- A descriptor is known from what it starts, up to arities of one code. -/
theorem descriptor_append_inj {rest rest' : List UInt8} (hfree : 0 ∉ o.nameBytes)
    (hfree' : 0 ∉ o'.nameBytes) (h : o.descriptor ++ rest = o'.descriptor ++ rest') :
    o.Confused o' ∧ rest = rest' := by
  simp only [descriptor, List.append_assoc, List.cons_append] at h
  obtain ⟨hname, hshape⟩ := zero_ends hfree hfree' h
  obtain ⟨htag, hcode⟩ := List.append_inj hshape (by simp)
  obtain ⟨hcode, hrest⟩ := List.append_inj hcode (by simp)
  exact ⟨⟨name_eq_of_nameBytes_eq hname, OperandKind.tag_injective htag,
    Arity.code_eq_iff.mp hcode⟩, hrest⟩

/-- Descriptors one after the other are known up to arities of one code. -/
theorem flatMap_descriptor_eq_iff {entries : List (Opcode H)} {entries' : List (Opcode H')}
    (hfree : ∀ o ∈ entries, 0 ∉ o.nameBytes) (hfree' : ∀ o ∈ entries', 0 ∉ o.nameBytes) :
    entries.flatMap descriptor = entries'.flatMap descriptor
      ↔ List.Forall₂ Confused entries entries' := by
  constructor
  · intro h
    induction entries generalizing entries' with
    | nil =>
      cases entries' with
      | nil => exact .nil
      | cons o' rest' =>
        rw [List.flatMap_nil, List.flatMap_cons] at h
        exact absurd (List.append_eq_nil_iff.mp h.symm).1 (descriptor_ne_nil o')
    | cons o rest ih =>
      cases entries' with
      | nil =>
        rw [List.flatMap_nil, List.flatMap_cons] at h
        exact absurd (List.append_eq_nil_iff.mp h).1 (descriptor_ne_nil o)
      | cons o' rest' =>
        rw [List.forall_mem_cons] at hfree hfree'
        rw [List.flatMap_cons, List.flatMap_cons] at h
        obtain ⟨hsame, hrest⟩ := descriptor_append_inj hfree.1 hfree'.1 h
        exact .cons hsame (ih hfree.2 hfree'.2 hrest)
  · intro h
    clear hfree hfree'
    induction h with
    | nil => rfl
    | cons hsame _ ih => rw [List.flatMap_cons, List.flatMap_cons, hsame.descriptor_eq, ih]

end Opcode

/-! ## Tables -/

/-- No name of a table has a zero byte in it. -/
def Table.ZeroFree (t : Table H) : Prop := ∀ o ∈ t.entries, 0 ∉ o.nameBytes

/-- No opcode of a table has the fixed arity that the counted one is written as. -/
def Table.Unconfused (t : Table H) : Prop := ∀ o ∈ t.entries, o.arity ≠ .fixed 255 1

variable {t : Table H} {t' : Table H'}

/-- In a table that is not too large, going through the opcodes is going through the ids. -/
theorem Table.forall₂_entries_iff (hsize : t.size ≤ maxOpcodes) {R : Opcode H → Opcode H' → Prop} :
    List.Forall₂ R t.entries t'.entries
      ↔ t.size = t'.size ∧ ∀ id, Option.Rel R (t.resolve id) (t'.resolve id) := by
  rw [List.forall₂_iff_get]
  refine and_congr_right fun hlength => ?_
  constructor
  · intro h id
    rw [resolve_eq, resolve_eq]
    by_cases hid : id.toNat < t.entries.length
    · have hid' : id.toNat < t'.entries.length := hlength ▸ hid
      rw [List.getElem?_eq_getElem hid, List.getElem?_eq_getElem hid']
      exact .some (h id.toNat hid hid')
    · have hid' : ¬ id.toNat < t'.entries.length := hlength ▸ hid
      rw [List.getElem?_eq_none (Nat.le_of_not_lt hid),
        List.getElem?_eq_none (Nat.le_of_not_lt hid')]
      exact .none
  · intro h i hi hi'
    have hid : (UInt16.ofNat i).toNat = i := by
      apply UInt16.toNat_ofNat_of_lt'
      unfold size maxOpcodes at hsize
      show i < 65536
      omega
    have hrel := h (UInt16.ofNat i)
    rw [resolve_eq, resolve_eq, hid, List.getElem?_eq_getElem hi, List.getElem?_eq_getElem hi']
      at hrel
    cases hrel with
    | some hrel => exact hrel

/-- Entries that are not told apart have one shape if neither table has the arity in question. -/
theorem Table.sameShape_of_confused (hplain : t.Unconfused) (hplain' : t'.Unconfused)
    {id : UInt16} (h : Option.Rel Opcode.Confused (t.resolve id) (t'.resolve id)) :
    Option.Rel Opcode.SameShape (t.resolve id) (t'.resolve id) := by
  generalize hentry : t.resolve id = found at h
  generalize hentry' : t'.resolve id = found' at h
  cases h with
  | none => exact .none
  | some hconfused =>
    exact .some (hconfused.sameShape (hplain _ (mem_of_resolve hentry))
      (hplain' _ (mem_of_resolve hentry')))

section SameShapes

variable (h : ∀ id, Option.Rel Opcode.SameShape (t.resolve id) (t'.resolve id))
  {constants context : ℕ}
include h

theorem Table.depthAfter_congr (op : Op) (depth : ℕ) :
    t.depthAfter constants context op depth = t'.depthAfter constants context op depth := by
  have hop := h op.opcode
  generalize hentry : t.resolve op.opcode = found at hop
  generalize hentry' : t'.resolve op.opcode = found' at hop
  cases hop with
  | none => rw [depthAfter_of_none hentry, depthAfter_of_none hentry']
  | some hshape =>
    rw [depthAfter_eq hentry, depthAfter_eq hentry', Opcode.effect, Opcode.effect,
      hshape.operand, hshape.arity]

theorem Table.depths_congr (ops : List Op) (depth deepest : ℕ) :
    t.depths constants context ops depth deepest
      = t'.depths constants context ops depth deepest := by
  induction ops generalizing depth deepest with
  | nil => rfl
  | cons op rest ih => simp only [depths, depthAfter_congr h, ih]

theorem Table.checkSources_congr (sources : List (List Op)) (deepest : ℕ) :
    t.checkSources constants context sources deepest
      = t'.checkSources constants context sources deepest := by
  induction sources generalizing deepest with
  | nil => rfl
  | cons source rest ih => simp only [checkSources, depths_congr h, ih]

/-- Scripts pass the checks against both of two tables of one shape, at one depth, or fail both with
one cause. -/
theorem validate_congr (script : Script) (contextLength : ℕ) :
    validate t script contextLength = validate t' script contextLength := by
  simp only [validate, Table.checkSources_congr h]

end SameShapes

end Script

open Script

theorem Sale.table_zeroFree : table.ZeroFree := by
  unfold Table.ZeroFree
  decide +kernel

theorem Sale.table_unconfused : table.Unconfused := by
  unfold Table.Unconfused
  decide +kernel

/-- Tables whose names have no zero byte in them have one string of descriptors exactly if they have
equally many opcodes and no id tells them apart: the names, the kinds of operand and the arities are
the same, except that a counted arity in one may be the fixed one of 255 inputs and one output in the
other. So where neither has an opcode of that arity, all these are the same, and every script that
passes the checks against one table passes them against the other. -/
theorem descriptors_pin_table {H H' : Type} {t : Table H} {t' : Table H'}
    {standard host : List (Opcode H)} {standard' host' : List (Opcode H')}
    (hbuilt : Table.build standard host = .ok t) (hbuilt' : Table.build standard' host' = .ok t')
    (hfree : t.ZeroFree) (hfree' : t'.ZeroFree) :
    (t.descriptors = t'.descriptors ↔ t.size = t'.size ∧
      ∀ id, Option.Rel Opcode.Confused (t.resolve id) (t'.resolve id)) ∧
    (t.descriptors = t'.descriptors → t.Unconfused → t'.Unconfused →
      (∀ id, Option.Rel Opcode.SameShape (t.resolve id) (t'.resolve id)) ∧
      ∀ script contextLength, validate t script contextLength
        = validate t' script contextLength) := by
  obtain ⟨hsize, -, rfl⟩ := Table.build_eq_ok.mp hbuilt
  obtain ⟨-, -, rfl⟩ := Table.build_eq_ok.mp hbuilt'
  rw [← Table.size_mk] at hsize
  have hpinned := (Opcode.flatMap_descriptor_eq_iff hfree hfree').trans
    (Table.forall₂_entries_iff hsize)
  refine ⟨hpinned, fun heq hplain hplain' => ?_⟩
  have hshapes := fun id => Table.sameShape_of_confused hplain hplain' ((hpinned.mp heq).2 id)
  exact ⟨hshapes, validate_congr hshapes⟩

/-- An opcode that does nothing and is otherwise the same. -/
def Script.Opcode.idle {H : Type} (o : Opcode H) : Opcode Unit :=
  ⟨o.name, o.operand, o.arity, fun _ _ => pure ()⟩

/-- Scripts of sales pass the same checks against a table whose opcodes do nothing. -/
theorem descriptors_pin_table_idle :
    let idle : Table Unit :=
      ⟨standardOpcodes.map (Opcode.idle (H := Snapshot)), Sale.opcodes.map Opcode.idle⟩
    Table.build idle.standard idle.host = .ok idle ∧
      Sale.table.descriptors = idle.descriptors ∧ Sale.table.fingerprint = idle.fingerprint ∧
      ∀ script contextLength,
        validate Sale.table script contextLength = validate idle script contextLength := by
  intro idle
  have hbuilt : Table.build idle.standard idle.host = .ok idle :=
    Table.build_eq_ok.mpr ⟨by decide, by decide +kernel, rfl⟩
  have hfree : idle.ZeroFree := by
    unfold Table.ZeroFree
    decide +kernel
  have hplain : idle.Unconfused := by
    unfold Table.Unconfused
    decide +kernel
  have heq : Sale.table.descriptors = idle.descriptors := rfl
  obtain ⟨-, hpins⟩ := descriptors_pin_table Sale.table_built hbuilt Sale.table_zeroFree hfree
  exact ⟨hbuilt, heq, congrArg keccak256 heq, (hpins heq Sale.table_unconfused hplain).2⟩

namespace Script

/-- An opcode that takes a count, at an arity, and does nothing. -/
def sumOpcode (arity : Arity) : Opcode Snapshot := ⟨"sum", .count, arity, fun _ _ => pure ()⟩

/-- The standard opcodes and one more. -/
def sumTable (arity : Arity) : Table Snapshot := ⟨standardOpcodes, [sumOpcode arity]⟩

/-- A script that sums one of two constants. -/
def sumScript : Script := ⟨[[⟨0, 0⟩, ⟨0, 0⟩, ⟨18, 1⟩]], [1]⟩

end Script

/-- Descriptors do not pin arities: tables in which the last opcode is counted, or takes 255 words,
have one fingerprint, and a script that passes the checks against the one fails them against the
other. -/
theorem descriptors_confuse_arities :
    Table.build standardOpcodes [sumOpcode .counted] = .ok (sumTable .counted) ∧
      Table.build standardOpcodes [sumOpcode (.fixed 255 1)] = .ok (sumTable (.fixed 255 1)) ∧
      (sumTable .counted).ZeroFree ∧ (sumTable (.fixed 255 1)).ZeroFree ∧
      (sumTable .counted).descriptors = (sumTable (.fixed 255 1)).descriptors ∧
      (sumTable .counted).fingerprint = (sumTable (.fixed 255 1)).fingerprint ∧
      ((sumTable .counted).resolve 18).map Opcode.arity = some .counted ∧
      ((sumTable (.fixed 255 1)).resolve 18).map Opcode.arity = some (.fixed 255 1) ∧
      validate (sumTable .counted) sumScript 0 = .ok 2 ∧
      validate (sumTable (.fixed 255 1)) sumScript 0 = .error .stackUnderflow := by
  have hdescriptors : (sumTable .counted).descriptors = (sumTable (.fixed 255 1)).descriptors := rfl
  refine ⟨Table.build_eq_ok.mpr ⟨by decide, by decide +kernel, rfl⟩,
    Table.build_eq_ok.mpr ⟨by decide, by decide +kernel, rfl⟩, ?_, ?_, hdescriptors,
    congrArg keccak256 hdescriptors, rfl, rfl, by decide +kernel, by decide +kernel⟩
  · unfold Table.ZeroFree
    decide +kernel
  · unfold Table.ZeroFree
    decide +kernel

end UnitSale
