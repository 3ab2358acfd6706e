import Mathlib.Data.List.Nodup
import UnitSale.Proofs.TableTheorems

/-!
# Names and ids

An author writes names, a script holds ids. A table is only made of as many opcodes as there are ids
and of opcodes with names of their own, which are looked for in sorted order. So the first opcode of
a name is the only one, no position is cut when it becomes an id, and names and ids translate into
each other. The ids of the standard opcodes do not depend on the host.
-/

namespace UnitSale
namespace Script

/-! ## Equal names -/

/-- In sorted order, words that differ from their neighbours differ from all others. -/
theorem noEqualNeighbours_iff {names : List String} (hsorted : names.Pairwise (· ≤ ·)) :
    noEqualNeighbours names = true ↔ names.Nodup := by
  induction names with
  | nil => simp [noEqualNeighbours]
  | cons a rest ih =>
    cases rest with
    | nil => simp [noEqualNeighbours]
    | cons b rest =>
      obtain ⟨hle, hrest⟩ := List.pairwise_cons.mp hsorted
      have hbelow := (List.pairwise_cons.mp hrest).1
      -- a word that comes again comes again at once: it bounds everything in between
      have hnew : a ≠ b ↔ a ∉ b :: rest := by
        refine ⟨fun hne hmem => ?_, List.ne_of_not_mem_cons⟩
        rcases List.mem_cons.mp hmem with heq | hlater
        · exact hne heq
        · exact hne (String.le_antisymm (hle b List.mem_cons_self) (hbelow a hlater))
      rw [noEqualNeighbours, Bool.and_eq_true, bne_iff_ne, ih hrest, hnew]
      exact List.nodup_cons.symm

theorem distinctNames_iff {names : List String} : distinctNames names = true ↔ names.Nodup := by
  have hsorted : (names.mergeSort fun a b => decide (a ≤ b)).Pairwise
      fun a b => decide (a ≤ b) = true :=
    List.pairwise_mergeSort (by simpa using fun a b c => String.le_trans)
      (by simpa using String.le_total) names
  simp only [decide_eq_true_eq] at hsorted
  rw [distinctNames, noEqualNeighbours_iff hsorted]
  exact (List.mergeSort_perm names _).nodup_iff

variable {H : Type} {t : Table H} {standard host : List (Opcode H)}

/-- Two opcodes at different places have one name. -/
def ShareName (entries : List (Opcode H)) : Prop :=
  ∃ (i j : ℕ) (a b : Opcode H), i < j ∧ entries[i]? = some a ∧ entries[j]? = some b ∧
    a.name = b.name

/-- All names differ exactly when no two opcodes share one. -/
theorem nodup_names_iff {entries : List (Opcode H)} :
    (entries.map Opcode.name).Nodup ↔ ¬ ShareName entries := by
  rw [List.nodup_iff_getElem?_ne_getElem?]
  constructor
  · intro hdistinct hshare
    obtain ⟨i, j, a, b, hij, ha, hb, hname⟩ := hshare
    have hj : j < (entries.map Opcode.name).length := by
      rw [List.length_map]
      exact (List.getElem?_eq_some_iff.mp hb).1
    apply hdistinct i j hij hj
    rw [List.getElem?_map, List.getElem?_map, ha, hb, Option.map_some, Option.map_some, hname]
  · intro hnone i j hij hj hsame
    rw [List.length_map] at hj
    have hi : i < entries.length := Nat.lt_trans hij hj
    rw [List.getElem?_map, List.getElem?_map, List.getElem?_eq_getElem hi,
      List.getElem?_eq_getElem hj, Option.map_some, Option.map_some, Option.some.injEq] at hsame
    exact hnone ⟨i, j, entries[i], entries[j], hij, List.getElem?_eq_getElem hi,
      List.getElem?_eq_getElem hj, hsame⟩

/-! ## Making a table -/

theorem Table.size_mk (standard host : List (Opcode H)) :
    (⟨standard, host⟩ : Table H).size = standard.length + host.length :=
  List.length_append

theorem Table.build_eq_ok : build standard host = .ok t ↔
    standard.length + host.length ≤ maxOpcodes ∧
      ((standard ++ host).map Opcode.name).Nodup ∧ t = ⟨standard, host⟩ := by
  rw [build]
  simp only [bind_eq_ok, require_eq_ok, pure_eq_ok, size_mk, distinctNames_iff, exists_const,
    entries, eq_comm (b := t)]

/-- No table is made of too many opcodes; of others it is not made if two names are equal. -/
theorem Table.build_eq_error {cause : ScriptError} : build standard host = .error cause ↔
    maxOpcodes < standard.length + host.length ∧ .tooManyOpcodes = cause ∨
      standard.length + host.length ≤ maxOpcodes ∧
        ¬ ((standard ++ host).map Opcode.name).Nodup ∧ .duplicateOpcode = cause := by
  have hmade : ¬ (pure ⟨standard, host⟩ : Except ScriptError (Table H)) = .error cause := by
    intro h
    cases h
  rw [build]
  simp only [bind_eq_error, require_eq_error, require_eq_ok, size_mk, distinctNames_iff,
    exists_const, entries, Nat.not_le, hmade, and_false, or_false]

/-! ## Names of a table -/

/-- Where all names differ, the id of a name is the id at which an opcode of that name stands. -/
theorem Table.idOf_eq_some_iff (hsize : t.size ≤ maxOpcodes)
    (hdistinct : (t.entries.map Opcode.name).Nodup) {name : String} {id : UInt16} :
    t.idOf name = some id ↔ ∃ entry, t.resolve id = some entry ∧ entry.name = name := by
  constructor
  · intro hid
    obtain ⟨entry, hnamed, hentry⟩ := resolve_of_idOf hsize hid
    exact ⟨entry, hentry, (named_spec hnamed).2⟩
  · intro h
    obtain ⟨entry, hentry, rfl⟩ := h
    -- the name has some id, and no other opcode stands there
    obtain ⟨found, hfound⟩ : ∃ found, t.named entry.name = some found := by
      rw [← Option.ne_none_iff_exists']
      intro hnone
      exact named_eq_none_iff.mp hnone entry (mem_of_resolve hentry) rfl
    obtain ⟨id', hid'⟩ := idOf_of_named hfound
    obtain ⟨entry', hnamed', hentry'⟩ := resolve_of_idOf hsize hid'
    have hsame : id' = id := id_inj hdistinct hentry' hentry (named_spec hnamed').2
    rw [hid', hsame]

/-- Ids are handed out to opcodes one by one. -/
theorem Table.isSome_resolve {id : UInt16} : (t.resolve id).isSome ↔ id.toNat < t.size := by
  rw [resolve_eq, size, Option.isSome_iff_exists]
  exact ⟨fun ⟨_, h⟩ => (List.getElem?_eq_some_iff.mp h).1, fun h => ⟨_, List.getElem?_eq_getElem h⟩⟩

theorem Table.resolve_standard {id : UInt16} (h : id.toNat < standard.length)
    (host : List (Opcode H)) : resolve ⟨standard, host⟩ id = standard[id.toNat]? :=
  if_pos h

end Script

open Script

/-- The opcodes of a sale make a table: they are not too many, and no two have one name. -/
theorem Sale.table_built : Table.build standardOpcodes opcodes = .ok table :=
  Table.build_eq_ok.mpr ⟨by decide, by decide +kernel, rfl⟩

/-- Opcodes make a table if they are not too many and no two of them share a name; otherwise the first
of these that fails is the cause of the refusal. In a table a name has exactly the id at which an
opcode of that name stands; the ids are the positions in the standard opcodes followed by those of
the host, and the first ones do not change with the host. -/
theorem names_and_ids {H : Type} (standard host : List (Opcode H)) :
    (Table.build standard host = .error .tooManyOpcodes ↔
      65535 < standard.length + host.length) ∧
    (Table.build standard host = .error .duplicateOpcode ↔
      standard.length + host.length ≤ 65535 ∧ ShareName (standard ++ host)) ∧
    (∀ t, Table.build standard host = .ok t ↔ standard.length + host.length ≤ 65535 ∧
      ¬ ShareName (standard ++ host) ∧ t = ⟨standard, host⟩) ∧
    ∀ t, Table.build standard host = .ok t →
      t.size = standard.length + host.length ∧
      (∀ name id, t.idOf name = some id ↔
        ∃ entry, t.resolve id = some entry ∧ entry.name = name) ∧
      (∀ id, (t.resolve id).isSome ↔ id.toNat < t.size) ∧
      (∀ id, t.resolve id = (standard ++ host)[id.toNat]?) ∧
      ∀ host' t', Table.build standard host' = .ok t' →
        ∀ id : UInt16, id.toNat < standard.length → t.resolve id = t'.resolve id := by
  refine ⟨?_, ?_, ?_, ?_⟩
  · rw [Table.build_eq_error]
    simp [Table.maxOpcodes]
  · rw [Table.build_eq_error, nodup_names_iff, Classical.not_not]
    simp [Table.maxOpcodes]
  · intro t
    rw [Table.build_eq_ok, nodup_names_iff, Table.maxOpcodes]
  · intro t hbuilt
    obtain ⟨hsize, hdistinct, rfl⟩ := Table.build_eq_ok.mp hbuilt
    rw [← Table.size_mk] at hsize
    refine ⟨Table.size_mk _ _, fun _ _ => Table.idOf_eq_some_iff hsize hdistinct,
      fun _ => Table.isSome_resolve, Table.resolve_eq _, ?_⟩
    intro host' t' hbuilt' id hid
    obtain ⟨-, -, rfl⟩ := Table.build_eq_ok.mp hbuilt'
    rw [Table.resolve_standard hid, Table.resolve_standard hid]

/-- In the table of a sale the first opcode of the host comes after the 18 standard ones, which any
other host finds under the same ids. -/
theorem names_and_ids_sale :
    Table.build standardOpcodes Sale.opcodes = .ok Sale.table ∧
      Sale.table.idOf "storage" = some 18 ∧
      ∀ host t, Table.build standardOpcodes host = .ok t →
        ∀ id : UInt16, id.toNat < 18 → Sale.table.resolve id = t.resolve id := by
  obtain ⟨-, -, -, htable⟩ := names_and_ids standardOpcodes Sale.opcodes
  obtain ⟨-, hids, -, -, hstandard⟩ := htable Sale.table Sale.table_built
  exact ⟨Sale.table_built, (hids "storage" 18).mpr ⟨_, rfl, rfl⟩, hstandard⟩

end UnitSale
