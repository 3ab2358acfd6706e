import Mathlib.Data.List.Dedup
import Mathlib.Data.List.Forall2
import Mathlib.Data.List.Induction
import Mathlib.Data.List.Perm.Subperm
import UnitSale.Script.Builder
import UnitSale.Proofs.TableTheorems
import UnitSale.Proofs.ValidationTheorems

/-!
# Built scripts do what their author wrote

The calls to a builder are a program of their own: each names an opcode or a word to push, and some
end a source. A builder that has met no offending call holds operations that do the same, one for
each call. The pool that they read only grows, so a place in it that was handed out keeps its word.
-/

namespace UnitSale
namespace Script

variable {H : Type} {t : Table H}

/-! ## What calls mean -/

/-- What a call does when it is run directly. A call that ends a source does nothing. -/
def Table.perform (t : Table H) (inputs : Inputs H) : Call → Exec Unit
  | .op name operand => t.call inputs name operand
  | .constant value => push value
  | .context index => t.call inputs "context" index
  | .nextSource => pure ()

/-- Performs calls in order. -/
def Table.performAll (t : Table H) (inputs : Inputs H) : List Call → Exec Unit
  | [] => pure ()
  | call :: rest => do
    t.perform inputs call
    t.performAll inputs rest

/-- The quote that calls leave when they are performed from the empty stack, without any pool. -/
def Table.quoteOfCalls (t : Table H) (context : List Word) (host : H) (calls : List Call) :
    Except ScriptError Quote :=
  match (t.performAll ⟨[], context, host⟩ calls).run [] with
  | .ok _ stack => quoteOf stack
  | .error cause _ => .error cause

/-- The calls between one end of a source and the next. -/
def segments (calls : List Call) : List (List Call) := calls.splitOn .nextSource

/-- The words that calls push as constants, in order and as often as they do. -/
def pooled (calls : List Call) : List Word :=
  calls.filterMap fun
    | .constant value => some value
    | _ => none

/-! ## Offending calls -/

/-- Why a call offends after the calls before it, if it does: it names no opcode, or it ends the
last source that a script may have. -/
def offence (t : Table H) (before : List Call) : Call → Option ScriptError
  | .op name _ => if (t.named name).isNone then some .unknownOpcode else none
  | .nextSource =>
    if maxSources ≤ before.count .nextSource + 1 then some .tooManySources else none
  | .constant _ | .context _ => none

theorem offence_op (before : List Call) (name : String) (operand : UInt16) :
    offence t before (.op name operand)
      = if (t.named name).isNone then some .unknownOpcode else none := rfl

/-- No call offends. -/
def Clean (t : Table H) (calls : List Call) : Prop :=
  ∀ before call, before ++ [call] <+: calls → offence t before call = none

/-- A call offends, for the given cause, and none before it does. -/
def FirstOffence (t : Table H) (calls : List Call) (cause : ScriptError) : Prop :=
  ∃ before call, before ++ [call] <+: calls ∧ Clean t before ∧ offence t before call = some cause

theorem clean_nil : Clean t [] := fun _ _ h => by simp at h

theorem clean_concat {calls : List Call} {call : Call} :
    Clean t (calls ++ [call]) ↔ Clean t calls ∧ offence t calls call = none := by
  constructor
  · intro h
    exact ⟨fun before call' hstart => h before call' (hstart.trans (List.prefix_append _ _)),
      h calls call List.prefix_rfl⟩
  · rintro ⟨hclean, hlast⟩ before call' hstart
    rcases List.prefix_concat_iff.mp hstart with heq | hearlier
    · obtain ⟨rfl, hcall⟩ := List.append_inj' heq rfl
      cases hcall
      exact hlast
    · exact hclean before call' hearlier

theorem not_firstOffence_nil {cause : ScriptError} : ¬ FirstOffence t [] cause := by
  rintro ⟨before, call, hstart, -⟩
  simp at hstart

theorem firstOffence_concat {calls : List Call} {call : Call} {cause : ScriptError} :
    FirstOffence t (calls ++ [call]) cause
      ↔ FirstOffence t calls cause ∨ Clean t calls ∧ offence t calls call = some cause := by
  constructor
  · rintro ⟨before, call', hstart, hclean, hcause⟩
    rcases List.prefix_concat_iff.mp hstart with heq | hearlier
    · obtain ⟨rfl, hcall⟩ := List.append_inj' heq rfl
      cases hcall
      exact .inr ⟨hclean, hcause⟩
    · exact .inl ⟨before, call', hearlier, hclean, hcause⟩
  · rintro (⟨before, call', hstart, hrest⟩ | ⟨hclean, hcause⟩)
    · exact ⟨before, call', hstart.trans (List.prefix_append _ _), hrest⟩
    · exact ⟨calls, call, List.prefix_rfl, hclean, hcause⟩

/-- No call offends exactly when every name is known and at most three sources are ended. -/
theorem clean_iff {calls : List Call} : Clean t calls ↔
    (∀ name operand, .op name operand ∈ calls → ∃ entry ∈ t.entries, entry.name = name) ∧
      calls.count .nextSource < maxSources := by
  induction calls using List.reverseRecOn with
  | nil =>
    refine iff_of_true clean_nil ⟨fun _ _ hmem => absurd hmem List.not_mem_nil, ?_⟩
    rw [List.count_nil]
    decide
  | append_singleton calls call ih =>
    rw [clean_concat, ih]
    cases call with
    | op name operand =>
      have hknown : offence t calls (.op name operand) = none
          ↔ ∃ entry ∈ t.entries, entry.name = name := by
        rw [offence_op, ite_eq_right_iff, Option.isNone_iff_eq_none, Table.named_eq_none_iff]
        simp
      rw [hknown]
      simp only [List.mem_append, List.mem_singleton, List.count_append, List.count_singleton]
      grind
    | constant value =>
      simp [offence]
    | context index =>
      simp [offence]
    | nextSource =>
      have hcount : offence t calls .nextSource = none
          ↔ calls.count .nextSource + 1 < maxSources := by
        unfold offence
        rw [ite_eq_right_iff]
        simp
      rw [hcount]
      simp only [List.mem_append, List.mem_singleton, List.count_append, List.count_singleton]
      grind

/-! ## What a builder holds -/

/-- An operation over a pool stands for a call. -/
inductive Emits (t : Table H) (pool : List Word) : Call → Op → Prop
  | op {name : String} {operand id : UInt16} (h : t.idOf name = some id) :
    Emits t pool (.op name operand) ⟨id, operand⟩
  | constant {value : Word} {id place : UInt16} (h : t.idOf "constant" = some id)
    (hplace : pool[place.toNat]? = some value) : Emits t pool (.constant value) ⟨id, place⟩
  | context {index id : UInt16} (h : t.idOf "context" = some id) :
    Emits t pool (.context index) ⟨id, index⟩

/-- A pool that has grown still holds its words at their places. -/
theorem Emits.grow {pool pool' : List Word} (hgrown : pool <+: pool') {call : Call} {op : Op}
    (h : Emits t pool call op) : Emits t pool' call op := by
  cases h with
  | op h => exact .op h
  | constant h hplace =>
    obtain ⟨more, rfl⟩ := hgrown
    refine .constant h ?_
    rw [List.getElem?_append_left (List.getElem?_eq_some_iff.mp hplace).1]
    exact hplace
  | context h => exact .context h

/-- What a builder holds after calls. Unless one of them offended, it holds one source for each of
their segments, and one operation for each call. -/
structure Built (t : Table H) (calls : List Call) (b : Builder) : Prop where
  distinct : b.constants.Nodup
  words : b.constants ⊆ pooled calls
  ended : b.finished.length = min (calls.count .nextSource) (maxSources - 1)
  sound : b.failure = none ↔ Clean t calls
  failed : ∀ cause, b.failure = some cause ↔ FirstOffence t calls cause
  emitted : b.failure = none → ∃ done last, segments calls = done ++ [last] ∧
    List.Forall₂ (List.Forall₂ (Emits t b.constants)) done b.finished ∧
      List.Forall₂ (Emits t b.constants) last b.current

theorem segments_nil : segments [] = [[]] := rfl

/-- There is always a last segment, be it empty. -/
theorem segments_split (calls : List Call) : ∃ done last, segments calls = done ++ [last] :=
  ⟨_, _, (List.dropLast_append_getLast (List.splitOn_ne_nil _ _)).symm⟩

theorem segments_nextSource (calls : List Call) :
    segments (calls ++ [.nextSource]) = segments calls ++ [[]] := by
  unfold segments
  rw [List.splitOn_append_cons_self]
  rfl

/-- A call that ends no source belongs to the last segment. -/
theorem segments_concat {call : Call} (hcall : call ≠ .nextSource) {calls : List Call}
    {done : List (List Call)} {last : List Call} (h : segments calls = done ++ [last]) :
    segments (calls ++ [call]) = done ++ [last ++ [call]] := by
  unfold segments at h ⊢
  induction calls generalizing done last with
  | nil =>
    have hsplit : [] ++ [[]] = done ++ [last] := h
    obtain ⟨rfl, hlast⟩ := List.append_inj' hsplit rfl
    cases hlast
    rw [List.nil_append, List.splitOn_cons_eq_if_modifyHead, if_neg (by simpa using hcall)]
    rfl
  | cons c rest ih =>
    -- the rest has a last segment of its own, which the first call may or may not belong to
    obtain ⟨done', last', hrest⟩ := segments_split rest
    unfold segments at hrest
    rw [List.splitOn_cons_eq_if_modifyHead, hrest] at h
    rw [List.cons_append, List.splitOn_cons_eq_if_modifyHead, ih hrest]
    split at h
    · rename_i hends
      have hsplit : ([] :: done') ++ [last'] = done ++ [last] := h
      obtain ⟨rfl, hlast⟩ := List.append_inj' hsplit rfl
      cases hlast
      rw [if_pos hends]
      rfl
    · rename_i hgoes
      rw [if_neg hgoes]
      cases done' with
      | nil =>
        have hsplit : [] ++ [c :: last'] = done ++ [last] := h
        obtain ⟨rfl, hlast⟩ := List.append_inj' hsplit rfl
        cases hlast
        rfl
      | cons first more =>
        have hsplit : ((c :: first) :: more) ++ [last'] = done ++ [last] := h
        obtain ⟨rfl, hlast⟩ := List.append_inj' hsplit rfl
        cases hlast
        rfl

/-! ## One call -/

/-- Looking a word up in the pool, which takes it in if it is new. -/
structure Interned (b : Builder) (value : Word) (pool : List Word) (place : Nat) : Prop where
  result : b.intern value = ({ b with constants := pool }, place)
  grown : b.constants <+: pool
  found : pool[place]? = some value
  distinct : b.constants.Nodup → pool.Nodup
  words : pool ⊆ b.constants ++ [value]

theorem Builder.intern_spec (b : Builder) (value : Word) :
    ∃ pool place, Interned b value pool place := by
  cases hindex : b.constants.findIdx? (· == value) with
  | some place =>
    obtain ⟨hlt, hfound, -⟩ := List.findIdx?_eq_some_iff_getElem.mp hindex
    refine ⟨b.constants, place, ?_, List.prefix_rfl, ?_, id, List.subset_append_left _ _⟩
    · unfold intern
      rw [hindex]
    · rw [List.getElem?_eq_getElem hlt, beq_iff_eq.mp hfound]
  | none =>
    have hnew : value ∉ b.constants := fun hmem => by
      simpa using List.findIdx?_eq_none_iff.mp hindex value hmem
    refine ⟨b.constants ++ [value], b.constants.length, ?_, List.prefix_append _ _, ?_, ?_,
      List.Subset.refl _⟩
    · unfold intern
      rw [hindex]
    · rw [List.getElem?_append_right (Nat.le_refl _), Nat.sub_self]
      rfl
    · exact fun hdistinct => List.nodup_append.mpr ⟨hdistinct, List.nodup_singleton _,
        fun a ha b hb => by
          rw [List.mem_singleton] at hb
          exact fun heq => hnew (hb ▸ heq ▸ ha)⟩

namespace Built

variable {calls : List Call} {call : Call} {b : Builder}

/-- A call that does not offend leaves the verdict on the calls before it. -/
theorem verdict (h : Built t calls b) (hoffence : offence t calls call = none) :
    (b.failure = none ↔ Clean t (calls ++ [call])) ∧
      ∀ cause, b.failure = some cause ↔ FirstOffence t (calls ++ [call]) cause := by
  constructor
  · rw [clean_concat, and_iff_left hoffence]
    exact h.sound
  · intro cause
    rw [firstOffence_concat, hoffence, or_iff_left (fun hlast => by cases hlast.2)]
    exact h.failed cause

/-- Other calls do not end sources. -/
theorem ended_concat (h : Built t calls b) (hcall : call ≠ .nextSource) :
    b.finished.length = min ((calls ++ [call]).count .nextSource) (maxSources - 1) := by
  rw [List.count_append, List.count_singleton, if_neg (by simpa using hcall), Nat.add_zero]
  exact h.ended

/-- A call that does not offend adds its operation to the source being written. -/
theorem emit (h : Built t calls b) (hcall : call ≠ .nextSource)
    (hoffence : offence t calls call = none) {pool : List Word} (hgrown : b.constants <+: pool)
    (hdistinct : pool.Nodup) (hwords : pool ⊆ pooled (calls ++ [call])) {op : Op}
    (hop : Emits t pool call op) :
    Built t (calls ++ [call]) { b with constants := pool, current := b.current ++ [op] } where
  distinct := hdistinct
  words := hwords
  ended := h.ended_concat hcall
  sound := (h.verdict hoffence).1
  failed := (h.verdict hoffence).2
  emitted := by
    intro hnone
    obtain ⟨done, last, hsegments, hdone, hlast⟩ := h.emitted hnone
    refine ⟨done, last ++ [call], segments_concat hcall hsegments, ?_, ?_⟩
    · exact hdone.imp fun _ _ hsource => hsource.imp fun _ _ hemits => hemits.grow hgrown
    · exact List.rel_append (hlast.imp fun _ _ hemits => hemits.grow hgrown)
        (.cons hop .nil)

/-- A call that offends changes nothing but the failure, and this only if it is the first. -/
theorem offend (h : Built t calls b) {cause : ScriptError}
    (hoffence : offence t calls call = some cause)
    (hwords : pooled (calls ++ [call]) = pooled calls)
    (hended : b.finished.length = min ((calls ++ [call]).count .nextSource) (maxSources - 1)) :
    Built t (calls ++ [call]) (b.fail cause) where
  distinct := h.distinct
  words := by
    rw [hwords]
    exact h.words
  ended := hended
  sound := by
    rw [clean_concat, hoffence]
    unfold Builder.fail
    simp
  failed := by
    intro cause'
    rw [firstOffence_concat, hoffence, ← h.failed, ← h.sound]
    unfold Builder.fail
    exact Option.or_eq_some_iff
  emitted := by
    intro hnone
    unfold Builder.fail at hnone
    simp at hnone

/-- Before the first call a builder holds one source without operations. -/
theorem start : Built t [] .start where
  distinct := List.nodup_nil
  words := List.Subset.refl _
  ended := by rw [List.count_nil, Nat.zero_min]; rfl
  sound := iff_of_true rfl clean_nil
  failed := fun cause => iff_of_false (fun h => by cases h) not_firstOffence_nil
  emitted := fun _ => ⟨[], [], rfl, .nil, .nil⟩

/-- An opcode by name. -/
theorem op (ht : t.Authorable) (h : Built t calls b) (name : String) (operand : UInt16) :
    Built t (calls ++ [.op name operand]) (b.op t name operand) := by
  have hwords : pooled (calls ++ [.op name operand]) = pooled calls := by simp [pooled]
  unfold Builder.op
  cases hid : t.idOf name with
  | none =>
    have hoffence : offence t calls (.op name operand) = some .unknownOpcode := by
      rw [offence_op, Table.named_of_idOf_eq_none hid]
      rfl
    exact h.offend hoffence hwords (h.ended_concat (by simp))
  | some id =>
    have hoffence : offence t calls (.op name operand) = none := by
      obtain ⟨entry, hentry, -⟩ := Table.resolve_of_idOf ht.small hid
      rw [offence_op, hentry]
      rfl
    exact h.emit (by simp) hoffence List.prefix_rfl h.distinct (hwords ▸ h.words) (.op hid)

/-- A word of the context. -/
theorem context (ht : t.Authorable) (h : Built t calls b) (index : UInt16) :
    Built t (calls ++ [.context index]) (b.op t "context" index) := by
  have hwords : pooled (calls ++ [.context index]) = pooled calls := by simp [pooled]
  obtain ⟨id, hid⟩ := Table.idOf_of_named ht.context
  unfold Builder.op
  rw [hid]
  exact h.emit (by simp) rfl List.prefix_rfl h.distinct (hwords ▸ h.words) (.context hid)

/-- A constant, as long as places in the pool fit in an operand. -/
theorem constant (ht : t.Authorable) (h : Built t calls b) (value : Word)
    (hfits : (pooled (calls ++ [.constant value])).dedup.length ≤ UInt16.size) :
    Built t (calls ++ [.constant value]) (b.constant t value) := by
  obtain ⟨pool, place, hinterned⟩ := b.intern_spec value
  obtain ⟨id, hid⟩ := Table.idOf_of_named ht.constant
  have hwords : pool ⊆ pooled (calls ++ [.constant value]) := by
    have hpooled : pooled (calls ++ [.constant value]) = pooled calls ++ [value] := by
      simp [pooled]
    rw [hpooled]
    refine List.Subset.trans hinterned.words (List.append_subset.mpr ⟨?_, ?_⟩)
    · exact List.Subset.trans h.words (List.subset_append_left _ _)
    · exact List.subset_append_right _ _
  have hdistinct := hinterned.distinct h.distinct
  -- the pool has each word once, so it is no longer than the words pushed so far
  have hplace : place < UInt16.size := by
    have hlt : place < pool.length := (List.getElem?_eq_some_iff.mp hinterned.found).1
    have hle : pool.length ≤ (pooled (calls ++ [.constant value])).dedup.length :=
      (hdistinct.subperm fun w hw => List.mem_dedup.mpr (hwords hw)).length_le
    omega
  unfold Builder.constant
  rw [hinterned.result]
  dsimp only
  rw [if_pos hplace]
  unfold Builder.op
  rw [hid]
  refine h.emit (by simp) rfl hinterned.grown hdistinct hwords (.constant hid ?_)
  rw [UInt16.toNat_ofNat_of_lt' hplace]
  exact hinterned.found

/-- The end of a source, unless it is the last that a script may have. -/
theorem nextSource (h : Built t calls b) : Built t (calls ++ [.nextSource]) b.nextSource := by
  have hwords : pooled (calls ++ [.nextSource]) = pooled calls := by simp [pooled]
  have hcount : (calls ++ [Call.nextSource]).count Call.nextSource
      = calls.count Call.nextSource + 1 := by
    rw [List.count_append, List.count_singleton_self]
  have hended := h.ended
  unfold Builder.nextSource
  by_cases hfull : maxSources ≤ b.finished.length + 1
  · have hlast : maxSources ≤ calls.count .nextSource + 1 := by omega
    rw [if_pos hfull]
    refine h.offend (if_pos hlast) hwords ?_
    rw [hcount]
    omega
  · have hroom : ¬ maxSources ≤ calls.count .nextSource + 1 := by omega
    have hoffence : offence t calls .nextSource = none := if_neg hroom
    rw [if_neg hfull]
    exact {
      distinct := h.distinct
      words := hwords ▸ h.words
      ended := by
        rw [hcount, List.length_append, List.length_singleton]
        omega
      sound := (h.verdict hoffence).1
      failed := (h.verdict hoffence).2
      emitted := by
        intro hnone
        obtain ⟨done, last, hsegments, hdone, hlast⟩ := h.emitted hnone
        refine ⟨done ++ [last], [], ?_, List.rel_append hdone (.cons hlast .nil), .nil⟩
        rw [segments_nextSource, hsegments] }

/-- One more call. -/
theorem step (ht : t.Authorable) (h : Built t calls b) (call : Call)
    (hfits : (pooled (calls ++ [call])).dedup.length ≤ UInt16.size) :
    Built t (calls ++ [call]) (b.apply t call) := by
  cases call with
  | op name operand => exact h.op ht name operand
  | constant value => exact h.constant ht value hfits
  | context index => exact h.context ht index
  | nextSource => exact h.nextSource

/-- All calls. -/
theorem run (ht : t.Authorable) (calls : List Call)
    (hfits : (pooled calls).dedup.length ≤ UInt16.size) :
    Built t calls (calls.foldl (Builder.apply t) .start) := by
  induction calls using List.reverseRecOn with
  | nil => exact start
  | append_singleton calls call ih =>
    have hearlier : (pooled calls).dedup.length ≤ UInt16.size := by
      have hsub : (pooled calls).dedup ⊆ (pooled (calls ++ [call])).dedup := fun w hw => by
        rw [List.mem_dedup] at hw ⊢
        unfold pooled at hw ⊢
        rw [List.filterMap_append]
        exact List.mem_append_left _ hw
      exact Nat.le_trans ((List.nodup_dedup _).subperm hsub).length_le hfits
    rw [List.foldl_append]
    exact (ih hearlier).step ht call hfits

end Built

/-! ## Running what was built -/

/-- An operation does what the call does that it stands for, over its pool and without one. -/
theorem Emits.step_eq (ht : t.Authorable) {pool : List Word} {call : Call} {op : Op}
    (h : Emits t pool call op) (hname : ∀ name operand, call = .op name operand → name ≠ "constant")
    (context : List Word) (host : H) :
    t.step ⟨pool, context, host⟩ op = t.perform ⟨[], context, host⟩ call := by
  cases h with
  | @op name operand id h =>
    rw [Table.step_of_idOf ht.small h]
    exact ht.call_eq (hname name operand rfl) _ _ _ _ _
  | @constant value id place h hplace =>
    rw [Table.step_of_idOf ht.small h]
    unfold Table.call
    rw [ht.constant]
    show (read (demand pool[place.toNat]? _) >>= push) = _
    rw [hplace]
    rfl
  | context h =>
    rw [Table.step_of_idOf ht.small h]
    exact ht.call_eq (by decide) _ _ _ _ _

/-- A source does what its segment of the calls does. -/
theorem run_eq_performAll (ht : t.Authorable) {pool : List Word} {segment : List Call}
    {ops : List Op} (h : List.Forall₂ (Emits t pool) segment ops)
    (hname : ∀ name operand, .op name operand ∈ segment → name ≠ "constant")
    (context : List Word) (host : H) :
    t.run ⟨pool, context, host⟩ ops = t.performAll ⟨[], context, host⟩ segment := by
  induction h with
  | nil => rfl
  | @cons call op segment ops hemits _ ih =>
    have hfirst := hemits.step_eq ht (fun name operand heq =>
      hname name operand (heq ▸ List.mem_cons_self)) context host
    have hrest := ih fun name operand hmem => hname name operand (List.mem_cons_of_mem _ hmem)
    unfold Table.run Table.performAll
    rw [hfirst, hrest]

/-- A segment has no other calls than the whole. -/
theorem mem_of_mem_segments {calls segment : List Call} {call : Call}
    (hsegment : segment ∈ segments calls) (hcall : call ∈ segment) : call ∈ calls := by
  induction calls using List.reverseRecOn generalizing segment with
  | nil =>
    rw [segments_nil, List.mem_singleton] at hsegment
    rwa [hsegment] at hcall
  | append_singleton calls c ih =>
    by_cases hc : c = .nextSource
    · rw [hc, segments_nextSource, List.mem_append, List.mem_singleton] at hsegment
      rcases hsegment with hearlier | rfl
      · exact List.mem_append_left _ (ih hearlier hcall)
      · exact absurd hcall List.not_mem_nil
    · obtain ⟨done, last, hsplit⟩ := segments_split calls
      rw [segments_concat hc hsplit, List.mem_append, List.mem_singleton] at hsegment
      rw [hsplit] at ih
      rcases hsegment with hearlier | rfl
      · exact List.mem_append_left _ (ih (List.mem_append_left _ hearlier) hcall)
      · rcases List.mem_append.mp hcall with hlast | hnew
        · exact List.mem_append_left _ (ih (List.mem_append_right _ List.mem_cons_self) hlast)
        · exact List.mem_append_right _ hnew

namespace Built

variable {calls : List Call} {b : Builder} {script : Script}

/-- A builder fails with the cause of the first offending call. -/
theorem build_error (h : Built t calls b) (cause : ScriptError) :
    b.build = .error cause ↔ FirstOffence t calls cause := by
  rw [← h.failed]
  unfold Builder.build
  cases b.failure with
  | none => simp
  | some first => simp

/-- A builder gives back a script when no call offends: one source for each segment, and in each
one operation for each call. -/
theorem build_ok (h : Built t calls b) (hbuild : b.build = .ok script) :
    Clean t calls ∧ script.constants = b.constants ∧
      List.Forall₂ (List.Forall₂ (Emits t b.constants)) (segments calls) script.sources := by
  have hnone : b.failure = none := by
    unfold Builder.build at hbuild
    cases hfailure : b.failure with
    | none => rfl
    | some cause =>
      rw [hfailure] at hbuild
      cases hbuild
  obtain ⟨done, last, hsegments, hdone, hlast⟩ := h.emitted hnone
  unfold Builder.build at hbuild
  rw [hnone] at hbuild
  cases hbuild
  refine ⟨h.sound.mp hnone, rfl, ?_⟩
  rw [hsegments]
  exact List.rel_append hdone (.cons hlast .nil)

/-- Without an offending call there is a script. -/
theorem build_of_clean (h : Built t calls b) (hclean : Clean t calls) :
    ∃ script, b.build = .ok script := by
  unfold Builder.build
  rw [h.sound.mpr hclean]
  exact ⟨_, rfl⟩

end Built

/-- A source of a built script has the quote of its segment. -/
theorem evaluate_eq_quoteOfCalls (ht : t.Authorable) {script : Script} {sources : List (List Call)}
    (h : List.Forall₂ (List.Forall₂ (Emits t script.constants)) sources script.sources)
    {source : Nat} {segment : List Call} (hsegment : sources[source]? = some segment)
    (hname : ∀ name operand, .op name operand ∈ segment → name ≠ "constant")
    (context : List Word) (host : H) :
    evaluate t script source context host = t.quoteOfCalls context host segment := by
  obtain ⟨hlength, hemits⟩ := List.forall₂_iff_get.mp h
  obtain ⟨hlt, rfl⟩ := List.getElem?_eq_some_iff.mp hsegment
  have hsource : script.sources[source]? = some script.sources[source] :=
    List.getElem?_eq_getElem (hlength ▸ hlt)
  rw [evaluate_of_getElem? hsource]
  have hsame : List.Forall₂ (Emits t script.constants) sources[source] script.sources[source] :=
    hemits source hlt (hlength ▸ hlt)
  unfold Table.quote Table.quoteOfCalls
  exact run_eq_performAll ht hsame hname context host ▸ rfl

end Script

open Script

/-- The builder compiles what was authored. Over the table of a sale, calls that name no opcode
`constant` and push at most 65536 different words build a script exactly when every name is known
and at most three sources are ended; otherwise the cause is that of the first offending call. The
script has a pool without duplicates and one source for each segment of the calls, and evaluating
a source comes to what performing its segment comes to, with no pool at all. -/
theorem builder_compiles_calls (calls : List Script.Call)
    (hname : ∀ name operand, .op name operand ∈ calls → name ≠ "constant")
    (hfits : (pooled calls).dedup.length ≤ 65536) :
    ((∃ script, ofCalls Sale.table calls = .ok script) ↔
      (∀ name operand, .op name operand ∈ calls →
        ∃ entry ∈ Sale.table.entries, entry.name = name) ∧ calls.count .nextSource ≤ 3) ∧
    (∀ cause, ofCalls Sale.table calls = .error cause ↔ FirstOffence Sale.table calls cause) ∧
    ∀ script, ofCalls Sale.table calls = .ok script →
      script.constants.Nodup ∧ script.sources.length = (segments calls).length ∧
        ∀ (source : Nat) (segment : List Script.Call), (segments calls)[source]? = some segment →
          ∀ (context : List Word) (view : Snapshot),
            evaluate Sale.table script source context view
              = Sale.table.quoteOfCalls context view segment := by
  have hbuilt := Built.run Sale.table_authorable calls hfits
  refine ⟨?_, hbuilt.build_error, ?_⟩
  · have hclean := @clean_iff _ Sale.table calls
    unfold maxSources at hclean
    rw [← Nat.lt_succ_iff, ← hclean]
    exact ⟨fun ⟨script, hscript⟩ => (hbuilt.build_ok hscript).1, hbuilt.build_of_clean⟩
  · intro script hscript
    obtain ⟨-, hconstants, hsources⟩ := hbuilt.build_ok hscript
    rw [← hconstants] at hsources
    refine ⟨hconstants ▸ hbuilt.distinct, hsources.length_eq.symm, ?_⟩
    intro source segment hsegment context view
    refine evaluate_eq_quoteOfCalls Sale.table_authorable hsources hsegment ?_ context view
    intro name operand hmem
    exact hname name operand (mem_of_mem_segments (List.mem_of_getElem? hsegment) hmem)

/-- Two sources that share a constant of their pool. -/
theorem builder_compiles_calls_shared :
    let calls : List Script.Call := [.constant 100, .context 1, .op "saturating_sub" 2,
      .constant 10, .nextSource, .constant 7, .constant 10, .context 1, .op "mul" 2]
    (∀ name operand, .op name operand ∈ calls → name ≠ "constant") ∧
      (pooled calls).dedup.length ≤ 65536 ∧
        ∃ script, ofCalls Sale.table calls = .ok script ∧
          evaluate Sale.table script 1 [0, 3] ⟨100, 0, 0, 0, 0, 0, none⟩ = .ok ⟨7, 30⟩ := by
  intro calls
  have hnames : ∀ name operand, .op name operand ∈ calls →
      name = "saturating_sub" ∨ name = "mul" := by
    intro name operand hmem
    simp only [calls, List.mem_cons, reduceCtorEq, Script.Call.op.injEq, List.not_mem_nil] at hmem
    tauto
  have hname : ∀ name operand, .op name operand ∈ calls → name ≠ "constant" := by
    intro name operand hmem
    rcases hnames name operand hmem with rfl | rfl <;> decide
  have hfits : (pooled calls).dedup.length ≤ 65536 := by decide
  obtain ⟨hbuilds, -, hsame⟩ := builder_compiles_calls calls hname hfits
  obtain ⟨script, hscript⟩ := hbuilds.mpr (by
    have hknown : "saturating_sub" ∈ Sale.table.entries.map Opcode.name ∧
        "mul" ∈ Sale.table.entries.map Opcode.name := by decide +kernel
    refine ⟨?_, by decide⟩
    intro name operand hmem
    rcases hnames name operand hmem with rfl | rfl
    · exact List.mem_map.mp hknown.1
    · exact List.mem_map.mp hknown.2)
  refine ⟨hname, hfits, script, hscript, ?_⟩
  obtain ⟨-, -, hquote⟩ := hsame script hscript
  exact hquote 1 [.constant 7, .constant 10, .context 1, .op "mul" 2] rfl _ _

end UnitSale
