import Mathlib
import UnitSale.Script.Listing
import UnitSale.Proofs.TableTheorems
import UnitSale.Proofs.ValidationTheorems

/-!
# Listings tell what scripts mean

A listing leaves out the ids of opcodes, the places of constants in their pool, and operands that an
opcode does not take. What is left can be read back, as no piece of the text contains the character
that ends it: lines end at line breaks, the texts of operations at blanks, names at a bracket. So
two scripts of one listing that both pass the checks differ only in the layout of their pools, and
evaluate alike.
-/

namespace UnitSale

/-! ## Hexadecimal texts -/

theorem hexValue?_hexDigit {n : Nat} (h : n < 16) : hexValue? (hexDigit n) = some n := by
  decide +revert

theorem isAlphanum_hexDigit {n : Nat} (h : n < 16) : (hexDigit n).isAlphanum = true := by
  decide +revert

/-- Bytes can be read back from their hexadecimal text. -/
theorem unhex?_hex (bytes : List UInt8) : unhex? (hex bytes).toList = some bytes := by
  unfold hex
  rw [String.toList_ofList]
  induction bytes with
  | nil => rfl
  | cons b rest ih =>
    have hhigh : b.toNat / 16 < 16 := by
      have := b.toNat_lt
      omega
    have hlow : b.toNat % 16 < 16 := Nat.mod_lt _ (by decide)
    simp only [List.flatMap_cons, List.cons_append, List.nil_append, unhex?, ih,
      hexValue?_hexDigit hhigh, hexValue?_hexDigit hlow]
    show some (UInt8.ofNat (16 * (b.toNat / 16) + b.toNat % 16) :: rest) = some (b :: rest)
    rw [Nat.div_add_mod, UInt8.ofNat_toNat]

/-- Different bytes have different hexadecimal texts. -/
theorem hex_injective : Function.Injective hex := by
  intro bytes bytes' h
  have hread := unhex?_hex bytes
  rw [h, unhex?_hex bytes'] at hread
  exact (Option.some.inj hread).symm

theorem isAlphanum_of_mem_hex {bytes : List UInt8} {c : Char} (h : c ∈ (hex bytes).toList) :
    c.isAlphanum = true := by
  unfold hex at h
  rw [String.toList_ofList, List.mem_flatMap] at h
  obtain ⟨b, -, hc⟩ := h
  simp only [List.mem_cons, List.not_mem_nil, or_false] at hc
  rcases hc with rfl | rfl
  · exact isAlphanum_hexDigit (by have := b.toNat_lt; omega)
  · exact isAlphanum_hexDigit (Nat.mod_lt _ (by decide))

namespace Script

/-! ## Decimal texts -/

theorem isDigit_of_mem_toString {n : Nat} {c : Char} (h : c ∈ (toString n).toList) :
    c.isDigit = true := by
  rw [Nat.toString_eq_repr, Nat.toList_repr] at h
  exact Nat.isDigit_of_mem_toDigits (by decide) (by decide) h

/-! ## Texts of words -/

theorem wordText_of_lt {w : Word} (h : w.toNat < UInt64.size) : wordText w = toString w.toNat := by
  unfold wordText Word.toAmount?
  rw [if_pos h]
  exact congrArg toString (UInt64.toNat_ofNat_of_lt' h)

theorem wordText_of_le {w : Word} (h : UInt64.size ≤ w.toNat) :
    wordText w = "0x" ++ hex w.toBytes.toList := by
  unfold wordText Word.toAmount?
  rw [if_neg (Nat.not_lt.mpr h)]

/-- Different words have different texts. -/
theorem wordText_injective : Function.Injective wordText := by
  -- only the wide form has an `x`, so the two forms never meet
  have hforms : ∀ {w v : Word}, w.toNat < UInt64.size → UInt64.size ≤ v.toNat →
      wordText w ≠ wordText v := by
    intro w v hw hv h
    rw [wordText_of_lt hw, wordText_of_le hv] at h
    have hx : 'x' ∈ ("0x" ++ hex v.toBytes.toList).toList := by
      rw [String.toList_append]
      exact List.mem_append_left _ (by decide)
    rw [← h] at hx
    exact absurd (isDigit_of_mem_toString hx) (by decide)
  intro w v h
  rcases Nat.lt_or_ge w.toNat UInt64.size with hw | hw <;>
    rcases Nat.lt_or_ge v.toNat UInt64.size with hv | hv
  · rw [wordText_of_lt hw, wordText_of_lt hv] at h
    exact BitVec.eq_of_toNat_eq (Nat.repr_inj.mp h)
  · exact absurd h (hforms hw hv)
  · exact absurd h.symm (hforms hv hw)
  · rw [wordText_of_le hw, wordText_of_le hv] at h
    have hbytes : w.toBytes = v.toBytes :=
      Vector.toList_inj.mp (hex_injective ((String.append_right_inj _).mp h))
    exact Function.LeftInverse.injective Word.ofBytes_toBytes hbytes

/-! ## Solid texts -/

/-- A text that neither a blank nor a line break interrupts. -/
def Solid (text : String) : Prop := ∀ c ∈ text.toList, c ≠ ' ' ∧ c ≠ '\n'

-- given by name, as the search could also settle on trying every character there is
instance (text : String) : Decidable (Solid text) :=
  List.decidableBAll (fun c => c ≠ ' ' ∧ c ≠ '\n') text.toList

theorem Solid.append {text text' : String} (h : Solid text) (h' : Solid text') :
    Solid (text ++ text') := by
  unfold Solid
  rw [String.toList_append]
  exact List.forall_mem_append.mpr ⟨h, h'⟩

theorem Solid.no_blank {text : String} (h : Solid text) : ' ' ∉ text.toList :=
  fun hc => (h _ hc).1 rfl

theorem Solid.no_break {text : String} (h : Solid text) : '\n' ∉ text.toList :=
  fun hc => (h _ hc).2 rfl

/-- A character that names are made of. -/
def nameChar (c : Char) : Bool := c.isAlphanum || c == '_'

/-- A text of such characters is solid. -/
theorem Solid.of_nameChar {text : String} (h : ∀ c ∈ text.toList, nameChar c = true) :
    Solid text := by
  intro c hc
  constructor
  · rintro rfl
    exact absurd (h _ hc) (by decide)
  · rintro rfl
    exact absurd (h _ hc) (by decide)

theorem solid_toString (n : Nat) : Solid (toString n) := by
  apply Solid.of_nameChar
  intro c hc
  simp [nameChar, Char.isAlphanum, isDigit_of_mem_toString hc]

theorem solid_wordText (w : Word) : Solid (wordText w) := by
  rcases Nat.lt_or_ge w.toNat UInt64.size with hw | hw
  · rw [wordText_of_lt hw]
    exact solid_toString _
  · rw [wordText_of_le hw]
    refine .append (by decide) (.of_nameChar ?_)
    intro c hc
    simp [nameChar, isAlphanum_of_mem_hex hc]

/-- Texts without a character can be told from the text that joins them with it. -/
theorem eq_of_intercalate_eq {c : Char} {joint : String} (hjoint : joint.toList = [c])
    {texts texts' : List String} (hne : texts ≠ []) (hne' : texts' ≠ [])
    (hfree : ∀ text ∈ texts, c ∉ text.toList) (hfree' : ∀ text ∈ texts', c ∉ text.toList)
    (h : joint.intercalate texts = joint.intercalate texts') : texts = texts' := by
  have hsplit : ∀ {texts : List String}, texts ≠ [] → (∀ text ∈ texts, c ∉ text.toList) →
      (joint.intercalate texts).toList.splitOn c = texts.map String.toList := by
    intro texts hne hfree
    rw [String.toList_intercalate, hjoint]
    exact List.splitOn_intercalate c (List.forall_mem_map.mpr hfree) (by simpa using hne)
  have hread := hsplit hne hfree
  rw [h, hsplit hne' hfree'] at hread
  exact (List.map_injective_iff.mpr (fun _ _ => String.toList_injective) hread).symm

/-! ## Operations -/

variable {H : Type} {t : Table H} {pool pool' : List Word}

/-- What follows the name in the text of an operation. -/
def operandText (pool : List Word) (kind : OperandKind) (operand : UInt16) : String :=
  match kind with
  | .none => ""
  | .count => "(" ++ toString operand.toNat ++ ")"
  | .constant =>
    match pool[operand.toNat]? with
    | some value => "[" ++ wordText value ++ "]"
    | none => "[?" ++ toString operand.toNat ++ "]"
  | .context | .slot _ => "[" ++ toString operand.toNat ++ "]"

/-- The text of an operation is the name of its opcode and the text of its operand. -/
theorem opText_of_resolve {op : Op} {entry : Opcode H} (h : t.resolve op.opcode = some entry) :
    opText t pool op = entry.name ++ operandText pool entry.operand op.operand := by
  unfold opText operandText
  rw [h]
  cases hkind : entry.operand with
  | none => simp only [hkind, String.append_empty]
  | constant =>
    simp only [hkind]
    cases pool[op.operand.toNat]? with
    | none => simp only [String.append_assoc]
    | some value => simp only [String.append_assoc]
  | _ => simp only [hkind, String.append_assoc]

/-- No name goes on into the text of an operand, which is empty or starts with a bracket. -/
theorem takeWhile_operandText (kind : OperandKind) (operand : UInt16) :
    (operandText pool kind operand).toList.takeWhile nameChar = [] := by
  unfold operandText
  cases kind with
  | none => rfl
  | constant =>
    cases pool[operand.toNat]? with
    | none => simp [nameChar]
    | some value => simp [nameChar]
  | _ => simp [nameChar]

theorem solid_operandText (kind : OperandKind) (operand : UInt16) :
    Solid (operandText pool kind operand) := by
  have henclosed : ∀ {first text last : String}, Solid first → Solid text → Solid last →
      Solid (first ++ text ++ last) := fun hfirst htext hlast => (hfirst.append htext).append hlast
  unfold operandText
  cases kind with
  | none => exact fun c hc => absurd hc List.not_mem_nil
  | constant =>
    cases pool[operand.toNat]? with
    | none => exact henclosed (by decide) (solid_toString _) (by decide)
    | some value => exact henclosed (by decide) (solid_wordText _) (by decide)
  | _ => exact henclosed (by decide) (solid_toString _) (by decide)

/-- Operands that mean the same, each over a pool of its own: places of one constant, or equal. -/
def OperandKind.Same (kind : OperandKind) (pool pool' : List Word) (operand operand' : UInt16) :
    Prop :=
  if kind = .constant then pool[operand.toNat]? = pool'[operand'.toNat]? else operand = operand'

/-- Texts between the same brackets are equal if the whole is. -/
theorem enclosed_inj {first last text text' : String}
    (h : first ++ text ++ last = first ++ text' ++ last) : text = text' :=
  (String.append_right_inj first).mp ((String.append_left_inj last).mp h)

/-- Operands that the checks let through and that have one text mean the same. -/
theorem same_of_operandText_eq {kind : OperandKind} {context : Nat} {operand operand' : UInt16}
    (h : checkOperand kind operand pool.length context = .ok ())
    (h' : checkOperand kind operand' pool'.length context = .ok ())
    (htext : operandText pool kind operand = operandText pool' kind operand') :
    kind.Same pool pool' operand operand' := by
  have hequal : toString operand.toNat = toString operand'.toNat → operand = operand' :=
    fun h => UInt16.toNat_inj.mp (Nat.repr_inj.mp h)
  unfold OperandKind.Same
  unfold operandText at htext
  unfold checkOperand at h h'
  cases kind with
  | none =>
    -- the text says nothing, but both operands have to be zero
    exact (require_eq_ok.mp h).trans (require_eq_ok.mp h').symm
  | constant =>
    have hplace := List.getElem?_eq_getElem (require_eq_ok.mp h)
    have hplace' := List.getElem?_eq_getElem (require_eq_ok.mp h')
    rw [if_pos rfl, hplace, hplace']
    simp only [hplace, hplace'] at htext
    exact congrArg some (wordText_injective (enclosed_inj htext))
  | _ => exact hequal (enclosed_inj htext)

/-- A table whose listings can be read: its names differ, and no bracket, blank or line break is
part of them. -/
structure Table.Readable (t : Table H) : Prop where
  distinct : (t.entries.map Opcode.name).Nodup
  plain : ∀ entry ∈ t.entries, ∀ c ∈ entry.name.toList, nameChar c = true

/-- An operation that the checks of its opcode and operand let through. -/
def Table.Accepts (t : Table H) (constants context : Nat) (op : Op) : Prop :=
  ∃ entry, t.resolve op.opcode = some entry ∧
    checkOperand entry.operand op.operand constants context = .ok ()

/-- Operations that mean the same, each over a pool of its own. -/
def Table.Alike (t : Table H) (pool pool' : List Word) (op op' : Op) : Prop :=
  op.opcode = op'.opcode ∧ ∃ entry, t.resolve op.opcode = some entry ∧
    entry.operand.Same pool pool' op.operand op'.operand

/-- The name of an opcode ends where the text of the operand starts. -/
theorem Table.Readable.append_inj (hr : t.Readable) {entry entry' : Opcode H}
    (hmem : entry ∈ t.entries) (hmem' : entry' ∈ t.entries) {operand operand' : UInt16}
    (h : entry.name ++ operandText pool entry.operand operand
      = entry'.name ++ operandText pool' entry'.operand operand') :
    entry.name = entry'.name ∧
      operandText pool entry.operand operand = operandText pool' entry'.operand operand' := by
  have hread : ∀ {entry : Opcode H} (pool : List Word) (operand : UInt16), entry ∈ t.entries →
      (entry.name ++ operandText pool entry.operand operand).toList.takeWhile nameChar
        = entry.name.toList := by
    intro entry pool operand hmem
    rw [String.toList_append, List.takeWhile_append_of_pos (hr.plain entry hmem),
      takeWhile_operandText, List.append_nil]
  have hname : entry.name = entry'.name := by
    apply String.toList_injective
    rw [← hread pool operand hmem, h, hread pool' operand' hmem']
  rw [hname] at h
  exact ⟨hname, (String.append_right_inj _).mp h⟩

/-- Operations that the checks let through and that have one text mean the same. -/
theorem Table.Readable.alike (hr : t.Readable) {context : Nat} {op op' : Op}
    (h : t.Accepts pool.length context op) (h' : t.Accepts pool'.length context op')
    (htext : opText t pool op = opText t pool' op') : t.Alike pool pool' op op' := by
  obtain ⟨entry, hentry, hoperand⟩ := h
  obtain ⟨entry', hentry', hoperand'⟩ := h'
  rw [opText_of_resolve hentry, opText_of_resolve hentry'] at htext
  obtain ⟨hname, htail⟩ :=
    hr.append_inj (Table.mem_of_resolve hentry) (Table.mem_of_resolve hentry') htext
  have hid : op.opcode = op'.opcode := Table.id_inj hr.distinct hentry hentry' hname
  obtain rfl : entry = entry' := by
    rw [hid, hentry'] at hentry
    exact (Option.some.inj hentry).symm
  exact ⟨hid, entry, hentry, same_of_operandText_eq hoperand hoperand' htail⟩

/-- The text of an operation is solid. -/
theorem Table.Readable.solid_opText (hr : t.Readable) (pool : List Word) (op : Op) :
    Solid (opText t pool op) := by
  cases hentry : t.resolve op.opcode with
  | none =>
    have htext : opText t pool op
        = "op#" ++ toString op.opcode.toNat ++ "(" ++ toString op.operand.toNat ++ ")" := by
      unfold opText
      rw [hentry]
    rw [htext]
    exact ((((show Solid "op#" by decide).append (solid_toString _)).append (by decide)).append
      (solid_toString _)).append (by decide)
  | some entry =>
    rw [opText_of_resolve hentry]
    exact (Solid.of_nameChar (hr.plain entry (Table.mem_of_resolve hentry))).append
      (solid_operandText _ _)

/-! ## Lines -/

/-- A line is its index and the texts of its operations, joined by blanks. -/
theorem sourceText_eq (index : Nat) (ops : List Op) :
    sourceText t pool index ops
      = " ".intercalate ((toString index ++ ":") :: ops.map (opText t pool)) := by
  unfold sourceText
  generalize toString index ++ ":" = line
  induction ops generalizing line with
  | nil => rfl
  | cons op rest ih =>
    rw [List.foldl_cons, ih, List.map_cons, String.intercalate_cons_cons,
      String.intercalate_cons_append]

/-- The start of a line is solid. -/
theorem solid_index (index : Nat) : Solid (toString index ++ ":") :=
  (solid_toString index).append (by decide)

/-- A line goes on to the end of its source. -/
theorem Table.Readable.not_mem_sourceText (hr : t.Readable) (index : Nat) (ops : List Op) :
    '\n' ∉ (sourceText t pool index ops).toList := by
  unfold sourceText
  refine List.foldlRecOn (motive := fun line : String => '\n' ∉ line.toList) ops _
    (solid_index index).no_break ?_
  intro line hline op _
  rw [String.toList_append, String.toList_append, List.mem_append, List.mem_append]
  rintro ((hc | hc) | hc)
  · exact hline hc
  · exact absurd hc (by decide)
  · exact (hr.solid_opText pool op).no_break hc

/-- The texts of operations can be read back from their line. -/
theorem Table.Readable.opTexts_eq (hr : t.Readable) {index : Nat} {ops ops' : List Op}
    (h : sourceText t pool index ops = sourceText t pool' index ops') :
    ops.map (opText t pool) = ops'.map (opText t pool') := by
  have hfree : ∀ (pool : List Word) (ops : List Op),
      ∀ text ∈ (toString index ++ ":") :: ops.map (opText t pool), ' ' ∉ text.toList := by
    intro pool ops
    refine List.forall_mem_cons.mpr ⟨(solid_index index).no_blank, ?_⟩
    exact List.forall_mem_map.mpr fun op _ => (hr.solid_opText pool op).no_blank
  rw [sourceText_eq, sourceText_eq] at h
  have hread := eq_of_intercalate_eq rfl (List.cons_ne_nil _ _) (List.cons_ne_nil _ _)
    (hfree pool ops) (hfree pool' ops') h
  exact (List.cons.inj hread).2

/-- The lines of sources can be read back from a listing. -/
theorem Table.Readable.lines_eq (hr : t.Readable) {script script' : Script}
    (hsome : script.sources ≠ []) (hsome' : script'.sources ≠ [])
    (h : listing t script = listing t script') :
    List.Forall₂ (fun ops ops' =>
        ops.map (opText t script.constants) = ops'.map (opText t script'.constants))
      script.sources script'.sources := by
  have hfree : ∀ script : Script, ∀ line ∈ script.sources.mapIdx (sourceText t script.constants),
      '\n' ∉ line.toList := by
    intro script line hline
    obtain ⟨index, _, rfl⟩ := List.mem_mapIdx.mp hline
    exact hr.not_mem_sourceText _ _
  unfold listing at h
  have hlines := eq_of_intercalate_eq rfl (by simpa using hsome) (by simpa using hsome')
    (hfree script) (hfree script') h
  have hlength : script.sources.length = script'.sources.length := by
    simpa using congrArg List.length hlines
  refine List.forall₂_iff_get.mpr ⟨hlength, ?_⟩
  intro index hlt hlt'
  have hline := congrArg (fun lines => lines[index]?) hlines
  simp only [List.getElem?_mapIdx, List.getElem?_eq_getElem hlt, List.getElem?_eq_getElem hlt',
    Option.map_some, Option.some.injEq] at hline
  exact hr.opTexts_eq hline

/-! ## What the checks add -/

/-- Each operation of a walk that gets through has been let through. -/
theorem Table.accepts_of_depthFrom {constants context : Nat} {ops : List Op} {depth last : Nat}
    (h : t.depthFrom constants context ops depth = .ok last) :
    ∀ op ∈ ops, t.Accepts constants context op := by
  induction ops generalizing depth with
  | nil => exact fun op hmem => absurd hmem List.not_mem_nil
  | cons op rest ih =>
    rw [depthFrom_cons, bind_eq_ok] at h
    obtain ⟨after, hafter, hrest⟩ := h
    refine List.forall_mem_cons.mpr ⟨?_, ih hrest⟩
    cases hentry : t.resolve op.opcode with
    | none =>
      rw [depthAfter_of_none hentry] at hafter
      cases hafter
    | some entry =>
      rw [depthAfter_eq hentry, bind_eq_ok] at hafter
      obtain ⟨_, hoperand, -⟩ := hafter
      exact ⟨entry, hentry, hoperand⟩

/-- An accepted script has a source, and all of its operations have been let through. -/
theorem accepts_of_validate {script : Script} {context : Nat} {deepest : UInt16}
    (h : validate t script context = .ok deepest) :
    script.sources ≠ [] ∧
      ∀ ops ∈ script.sources, ∀ op ∈ ops, t.Accepts script.constants.length context op := by
  obtain ⟨-, hpasses, source, hmem, -⟩ := validate_ok h
  refine ⟨List.ne_nil_of_mem hmem, ?_⟩
  intro ops hops
  obtain ⟨depth, hdepth, -⟩ := (hpasses ops hops).results
  exact Table.accepts_of_depthFrom hdepth

/-- Operations that the checks let through and that have the same texts mean the same. -/
theorem Table.Readable.alike_of_opTexts_eq (hr : t.Readable) {context : Nat} {ops ops' : List Op}
    (haccepts : ∀ op ∈ ops, t.Accepts pool.length context op)
    (haccepts' : ∀ op ∈ ops', t.Accepts pool'.length context op)
    (h : ops.map (opText t pool) = ops'.map (opText t pool')) :
    List.Forall₂ (t.Alike pool pool') ops ops' := by
  induction ops generalizing ops' with
  | nil =>
    obtain rfl : ops' = [] := List.map_eq_nil_iff.mp h.symm
    exact .nil
  | cons op rest ih =>
    obtain ⟨op', rest', rfl, htext, hrest⟩ := List.map_eq_cons_iff.mp h.symm
    rw [List.forall_mem_cons] at haccepts haccepts'
    exact .cons (hr.alike haccepts.1 haccepts'.1 htext.symm)
      (ih haccepts.2 haccepts'.2 hrest.symm)

/-- Accepted scripts of one listing are the same but for the layout of their pools. -/
theorem Table.Readable.alike_of_listing_eq (hr : t.Readable) {script script' : Script}
    {context : Nat} {deepest deepest' : UInt16} (hvalid : validate t script context = .ok deepest)
    (hvalid' : validate t script' context = .ok deepest')
    (h : listing t script = listing t script') :
    List.Forall₂ (List.Forall₂ (t.Alike script.constants script'.constants))
      script.sources script'.sources := by
  obtain ⟨hsome, haccepts⟩ := accepts_of_validate hvalid
  obtain ⟨hsome', haccepts'⟩ := accepts_of_validate hvalid'
  obtain ⟨hlength, hlines⟩ := List.forall₂_iff_get.mp (hr.lines_eq hsome hsome' h)
  refine List.forall₂_iff_get.mpr ⟨hlength, ?_⟩
  intro index hlt hlt'
  exact hr.alike_of_opTexts_eq (haccepts _ (List.get_mem _ _)) (haccepts' _ (List.get_mem _ _))
    (hlines index hlt hlt')

/-! ## What is alike runs alike -/

/-- Operations that mean the same do the same. -/
theorem Table.Alike.step_eq (hreads : ∀ entry ∈ t.entries, entry.ReadsPool) {op op' : Op}
    (h : t.Alike pool pool' op op') (context : List Word) (host : H) :
    t.step ⟨pool, context, host⟩ op = t.step ⟨pool', context, host⟩ op' := by
  obtain ⟨hid, entry, hentry, hsame⟩ := h
  have hreads := hreads entry (Table.mem_of_resolve hentry)
  unfold OperandKind.Same at hsame
  unfold step
  rw [← hid, hentry]
  by_cases hkind : entry.operand = .constant
  · rw [if_pos hkind] at hsame
    exact hreads.place hkind _ _ _ _ _ _ hsame
  · rw [if_neg hkind] at hsame
    rw [hsame]
    exact hreads.apart hkind _ _ _ _ _

/-- Sources that mean the same run alike. -/
theorem Table.run_eq_of_alike (hreads : ∀ entry ∈ t.entries, entry.ReadsPool) {ops ops' : List Op}
    (h : List.Forall₂ (t.Alike pool pool') ops ops') (context : List Word) (host : H) :
    t.run ⟨pool, context, host⟩ ops = t.run ⟨pool', context, host⟩ ops' := by
  induction h with
  | nil => rfl
  | cons hop _ ih =>
    unfold run
    rw [hop.step_eq hreads, ih]

/-- Scripts that mean the same evaluate alike. -/
theorem evaluate_eq_of_alike (hreads : ∀ entry ∈ t.entries, entry.ReadsPool)
    {script script' : Script}
    (h : List.Forall₂ (List.Forall₂ (t.Alike script.constants script'.constants))
      script.sources script'.sources) (source : Nat) (context : List Word) (host : H) :
    evaluate t script source context host = evaluate t script' source context host := by
  obtain ⟨hlength, halike⟩ := List.forall₂_iff_get.mp h
  by_cases hlt : source < script.sources.length
  · have hlt' : source < script'.sources.length := hlength ▸ hlt
    rw [evaluate_of_getElem? (List.getElem?_eq_getElem hlt),
      evaluate_of_getElem? (List.getElem?_eq_getElem hlt')]
    have hrun : t.run ⟨script.constants, context, host⟩ script.sources[source]
        = t.run ⟨script'.constants, context, host⟩ script'.sources[source] :=
      Table.run_eq_of_alike hreads (halike source hlt hlt') context host
    unfold Table.quote
    rw [hrun]
  · have hge : script.sources.length ≤ source := Nat.le_of_not_lt hlt
    unfold evaluate
    rw [List.getElem?_eq_none hge, List.getElem?_eq_none (hlength ▸ hge)]
    rfl

end Script

open Script

/-- The listings of sale scripts can be read. -/
theorem Sale.table_readable : Sale.table.Readable where
  distinct := by decide +kernel
  plain := by
    have hnames : ∀ name ∈ Sale.table.entries.map Opcode.name,
        name.toList.all nameChar = true := by decide +kernel
    exact fun entry hmem => List.all_eq_true.mp (hnames _ (List.mem_map_of_mem hmem))

/-- The listing of a script determines what it means. Over the table of a sale, two scripts that
pass the checks for contexts of one length and have the same listing have as many sources as each
other, whose operations are the same but for the places of constants in the pools; and each source
has the same quote, or fails with the same cause, in both. -/
theorem listing_determines_meaning (script script' : Script) (contextLength : Nat)
    (deepest deepest' : UInt16) (hvalid : validate Sale.table script contextLength = .ok deepest)
    (hvalid' : validate Sale.table script' contextLength = .ok deepest')
    (hlisting : listing Sale.table script = listing Sale.table script') :
    script.sources.length = script'.sources.length ∧
      List.Forall₂ (List.Forall₂ (Sale.table.Alike script.constants script'.constants))
        script.sources script'.sources ∧
      ∀ (source : Nat) (context : List Word) (view : Snapshot),
        evaluate Sale.table script source context view
          = evaluate Sale.table script' source context view := by
  have halike := Sale.table_readable.alike_of_listing_eq hvalid hvalid' hlisting
  exact ⟨halike.length_eq, halike,
    evaluate_eq_of_alike Sale.table_authorable.reads halike⟩

/-- Two scripts whose pools differ in order and size have one listing. -/
theorem listing_determines_meaning_pools :
    let script : Script := ⟨[[⟨0, 0⟩, ⟨1, 1⟩, ⟨5, 2⟩, ⟨0, 1⟩]], [100, 10]⟩
    let script' : Script := ⟨[[⟨0, 2⟩, ⟨1, 1⟩, ⟨5, 2⟩, ⟨0, 0⟩]], [10, 7, 100]⟩
    validate Sale.table script 2 = .ok 2 ∧ validate Sale.table script' 2 = .ok 2 ∧
      listing Sale.table script = "0: constant[100] context[1] saturating_sub(2) constant[10]" ∧
      listing Sale.table script = listing Sale.table script' ∧
      ∀ (context : List Word) (view : Snapshot),
        evaluate Sale.table script 0 context view = evaluate Sale.table script' 0 context view := by
  intro script script'
  have hvalid : validate Sale.table script 2 = .ok 2 := by decide +kernel
  have hvalid' : validate Sale.table script' 2 = .ok 2 := by decide +kernel
  have htext : listing Sale.table script
      = "0: constant[100] context[1] saturating_sub(2) constant[10]" := by decide +kernel
  have hlisting : listing Sale.table script = listing Sale.table script' := by decide +kernel
  obtain ⟨-, -, hsame⟩ := listing_determines_meaning script script' 2 2 2 hvalid hvalid' hlisting
  exact ⟨hvalid, hvalid', htext, hlisting, hsame 0⟩

end UnitSale
