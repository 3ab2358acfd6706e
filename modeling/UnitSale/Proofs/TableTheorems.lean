import Mathlib.Data.List.Nodup
import UnitSale.Proofs.OpcodeTheorems

/-!
# Opcodes by name

A script holds ids, its author writes names. Over a table that is not too large the opcode at the
id of a name is the first one of that name, so both run the same handler. The handlers themselves
read the pool of constants only where the operand says so: all but those with a constant operand
run the same over any pool.
-/

namespace UnitSale
namespace Script

variable {H : Type} {t : Table H}

/-! ## Names -/

/-- The opcode of a name. -/
def Table.named (t : Table H) (name : String) : Option (Opcode H) :=
  t.entries.find? fun entry => entry.name == name

/-- Runs the opcode of a name. -/
def Table.call (t : Table H) (inputs : Inputs H) (name : String) (operand : UInt16) : Exec Unit :=
  match t.named name with
  | none => throw .unknownOpcode
  | some entry => entry.run inputs operand

/-- A name without an id is the name of no opcode. -/
theorem Table.named_of_idOf_eq_none {name : String} (h : t.idOf name = none) :
    t.named name = none := by
  unfold idOf at h
  rw [Option.map_eq_none_iff] at h
  unfold named
  rw [List.find?_eq_bind_findIdx?_getElem?, h]
  rfl

/-- The name of an opcode has an id. -/
theorem Table.idOf_of_named {name : String} {entry : Opcode H} (h : t.named name = some entry) :
    ∃ id, t.idOf name = some id := by
  cases hid : t.idOf name with
  | none =>
    rw [named_of_idOf_eq_none hid] at h
    cases h
  | some id => exact ⟨id, rfl⟩

/-- At the id of a name stands the opcode of that name. -/
theorem Table.resolve_of_idOf (hsize : t.size ≤ maxOpcodes) {name : String} {id : UInt16}
    (h : t.idOf name = some id) :
    ∃ entry, t.named name = some entry ∧ t.resolve id = some entry := by
  unfold idOf at h
  rw [Option.map_eq_some_iff] at h
  obtain ⟨position, hposition, rfl⟩ := h
  obtain ⟨hlt, -, -⟩ := List.findIdx?_eq_some_iff_getElem.mp hposition
  -- the position is cut to an id, which loses nothing in a table of this size
  have hid : (UInt16.ofNat position).toNat = position := by
    apply UInt16.toNat_ofNat_of_lt'
    unfold size maxOpcodes at hsize
    show position < 65536
    omega
  refine ⟨t.entries[position], ?_, ?_⟩
  · unfold named
    rw [List.find?_eq_bind_findIdx?_getElem?, hposition, Option.bind_some,
      List.getElem?_eq_getElem hlt]
  · rw [resolve_eq, hid, List.getElem?_eq_getElem hlt]

/-- Where all names differ, an opcode is known by its name. -/
theorem Table.id_inj (hdistinct : (t.entries.map Opcode.name).Nodup) {id id' : UInt16}
    {entry entry' : Opcode H} (h : t.resolve id = some entry) (h' : t.resolve id' = some entry')
    (hname : entry.name = entry'.name) : id = id' := by
  rw [resolve_eq] at h h'
  have hlt : id.toNat < (t.entries.map Opcode.name).length := by
    rw [List.length_map]
    exact (List.getElem?_eq_some_iff.mp h).1
  have hplace : (t.entries.map Opcode.name)[id.toNat]?
      = (t.entries.map Opcode.name)[id'.toNat]? := by
    rw [List.getElem?_map, List.getElem?_map, h, h', Option.map_some, Option.map_some, hname]
  exact UInt16.toNat_inj.mp ((List.getElem?_inj hlt hdistinct).mp hplace)

/-- An operation at the id of a name runs the opcode of that name. -/
theorem Table.step_of_idOf (hsize : t.size ≤ maxOpcodes) {name : String} {id : UInt16}
    (h : t.idOf name = some id) (inputs : Inputs H) (operand : UInt16) :
    t.step inputs ⟨id, operand⟩ = t.call inputs name operand := by
  obtain ⟨entry, hnamed, hresolved⟩ := resolve_of_idOf hsize h
  unfold step call
  rw [hnamed, hresolved]

theorem Table.named_spec {name : String} {entry : Opcode H} (h : t.named name = some entry) :
    entry ∈ t.entries ∧ entry.name = name := by
  unfold named at h
  exact ⟨List.mem_of_find?_eq_some h, by simpa using List.find?_some h⟩

theorem Table.named_eq_none_iff {name : String} :
    t.named name = none ↔ ∀ entry ∈ t.entries, entry.name ≠ name := by
  unfold named
  rw [List.find?_eq_none]
  simp only [beq_iff_eq, ne_eq]

/-! ## The pool -/

/-- A handler that never looks at the pool. -/
def Handler.IgnoresPool (run : Handler H) : Prop := ∀ pool pool' context host operand,
  run ⟨pool, context, host⟩ operand = run ⟨pool', context, host⟩ operand

/-- An opcode reads the pool at its operand if its entry says that the operand is a place in it, and
otherwise not at all. -/
structure Opcode.ReadsPool (o : Opcode H) : Prop where
  apart : o.operand ≠ .constant → o.run.IgnoresPool
  place : o.operand = .constant → ∀ pool pool' context host (i j : UInt16),
    pool[i.toNat]? = pool'[j.toNat]? →
      o.run ⟨pool, context, host⟩ i = o.run ⟨pool', context, host⟩ j

/-- An opcode with another operand need not look at the pool. -/
theorem Opcode.ReadsPool.of_apart {o : Opcode H} (hkind : o.operand ≠ .constant)
    (h : o.run.IgnoresPool) : o.ReadsPool :=
  ⟨fun _ => h, fun hconstant => absurd hconstant hkind⟩

/-- The opcode that pushes constants reads one place of the pool. -/
theorem pushConstant_readsPool :
    Opcode.ReadsPool (H := H) ⟨"constant", .constant, .fixed 0 1, pushConstant⟩ where
  apart := fun hkind => absurd rfl hkind
  place := by
    intro _ pool pool' context host i j hplace
    show (read (demand pool[i.toNat]? _) >>= push) = (read (demand pool'[j.toNat]? _) >>= push)
    rw [hplace]

theorem plainOpcode_readsPool {name : String} {n : UInt8} {run : Handler H} (h : run.IgnoresPool) :
    (plainOpcode name n run).ReadsPool :=
  .of_apart (fun hkind => by cases hkind) h

theorem countedOpcode_readsPool {name : String} {run : Handler H} (h : run.IgnoresPool) :
    (countedOpcode name run).ReadsPool :=
  .of_apart (fun hkind => by cases hkind) h

theorem foldTop_ignoresPool (f : Word → Word → Option Word) (cause : ScriptError) :
    Handler.IgnoresPool (H := H) (foldTop f cause) := fun _ _ _ _ _ => rfl

theorem mergeTop_ignoresPool (f : Word → Word → Word) :
    Handler.IgnoresPool (H := H) (mergeTop f) := fun _ _ _ _ _ => rfl

theorem compareTop_ignoresPool (f : Word → Word → Bool) :
    Handler.IgnoresPool (H := H) (compareTop f) := fun _ _ _ _ _ => rfl

theorem standardOpcodes_readsPool [Clock H] : ∀ o ∈ standardOpcodes (H := H), o.ReadsPool := by
  unfold standardOpcodes
  simp only [List.forall_mem_cons]
  exact ⟨pushConstant_readsPool, .of_apart (fun hkind => by cases hkind) fun _ _ _ _ _ => rfl,
    plainOpcode_readsPool fun _ _ _ _ _ => rfl, countedOpcode_readsPool (foldTop_ignoresPool _ _),
    countedOpcode_readsPool (foldTop_ignoresPool _ _),
    countedOpcode_readsPool (mergeTop_ignoresPool _),
    countedOpcode_readsPool (foldTop_ignoresPool _ _),
    countedOpcode_readsPool (foldTop_ignoresPool _ _),
    countedOpcode_readsPool (foldTop_ignoresPool _ _),
    countedOpcode_readsPool (mergeTop_ignoresPool _),
    countedOpcode_readsPool (mergeTop_ignoresPool _),
    plainOpcode_readsPool (compareTop_ignoresPool _),
    plainOpcode_readsPool (compareTop_ignoresPool _),
    plainOpcode_readsPool (compareTop_ignoresPool _), plainOpcode_readsPool fun _ _ _ _ _ => rfl,
    countedOpcode_readsPool fun _ _ _ _ _ => rfl, countedOpcode_readsPool fun _ _ _ _ _ => rfl,
    plainOpcode_readsPool fun _ _ _ _ _ => rfl, List.forall_mem_nil _⟩

theorem saleOpcodes_readsPool : ∀ o ∈ Sale.opcodes, o.ReadsPool := by
  unfold Sale.opcodes
  simp only [List.forall_mem_cons]
  exact ⟨.of_apart (fun hkind => by cases hkind) fun _ _ _ _ _ => rfl,
    plainOpcode_readsPool fun _ _ _ _ _ => rfl, plainOpcode_readsPool fun _ _ _ _ _ => rfl,
    plainOpcode_readsPool fun _ _ _ _ _ => rfl, plainOpcode_readsPool fun _ _ _ _ _ => rfl,
    List.forall_mem_nil _⟩

/-- A table that scripts can be written for: ids reach all of it, and the pool is read by the
opcode that pushes constants alone. -/
structure Table.Authorable (t : Table H) : Prop where
  small : t.size ≤ maxOpcodes
  constant : t.named "constant" = some ⟨"constant", .constant, .fixed 0 1, pushConstant⟩
  context : t.named "context" = some ⟨"context", .context, .fixed 0 1, pushContext⟩
  reads : ∀ entry ∈ t.entries, entry.ReadsPool
  kinds : ∀ entry ∈ t.entries, entry.operand = .constant → entry.name = "constant"

/-- An opcode of another name than the one that pushes constants runs the same over any pool. -/
theorem Table.Authorable.call_eq (ht : t.Authorable) {name : String} (hname : name ≠ "constant")
    (pool pool' context : List Word) (host : H) (operand : UInt16) :
    t.call ⟨pool, context, host⟩ name operand = t.call ⟨pool', context, host⟩ name operand := by
  unfold call
  cases hentry : t.named name with
  | none => rfl
  | some entry =>
    obtain ⟨hmem, rfl⟩ := named_spec hentry
    exact (ht.reads entry hmem).apart (fun hkind => hname (ht.kinds entry hmem hkind)) _ _ _ _ _

end Script

open Script

/-- Scripts can be written for the table of a sale. -/
theorem Sale.table_authorable : Sale.table.Authorable where
  small := by decide
  constant := rfl
  context := rfl
  reads := List.forall_mem_append.mpr ⟨standardOpcodes_readsPool, saleOpcodes_readsPool⟩
  kinds := by
    have hkinds : ∀ shape ∈ Sale.table.entries.map fun entry => (entry.operand, entry.name),
        shape.1 = .constant → shape.2 = "constant" := by decide +kernel
    exact fun entry hmem => hkinds _ (List.mem_map_of_mem hmem)

end UnitSale
