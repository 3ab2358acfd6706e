import UnitSale.Proofs.ValidationTheorems

/-!
# Code composes

What operations do with the words they have pushed they also do on top of other words, as long as
the stack has room for both. So an author can write the expression for the quantity and the one for
the price on their own, each as if the stack were empty, and put one after the other.
-/

namespace UnitSale
namespace Script

/-! ## Pieces of handlers -/

/-- A piece of a run is local: where it succeeds it succeeds on top of any other words as well,
provided there is room for what it leaves. -/
structure Local (x : Exec Unit) : Prop where
  framed : ∀ {s s' : Stack}, x s = .ok () s' →
    ∀ below : Stack, s'.length + below.length ≤ maxStackDepth →
      x (s ++ below) = .ok () (s' ++ below)

namespace Local

variable {α : Type}

theorem push (value : Word) : Local (push value) where
  framed := by
    intro s s' h below hle
    unfold Script.push at h
    split at h
    · cases h
      rw [List.length_cons] at hle
      have hroom : (s ++ below).length < maxStackDepth := by
        rw [List.length_append]
        omega
      rw [Script.push, if_pos hroom, List.cons_append]
    · cases h

/-- What fails promises nothing. -/
theorem fail (cause : ScriptError) : Local (throw cause) where
  framed := fun h => by cases h

/-- The word that is popped lies above all that is added below. -/
theorem pop {f : Word → Exec Unit} (h : ∀ value, Local (f value)) : Local (pop >>= f) where
  framed := by
    intro s s' hrun below hle
    cases s with
    | nil => cases hrun
    | cons top rest => exact (h top).framed hrun below hle

/-- The words that are popped lie above all that is added below. -/
theorem popMany {n : Nat} {f : List Word → Exec Unit} (h : ∀ words, Local (f words)) :
    Local (popMany n >>= f) where
  framed := by
    intro s s' hrun below hle
    obtain ⟨hpos, hn, hrest⟩ := popMany_bind_eq_ok.mp hrun
    have hlonger : n ≤ (s ++ below).length := by
      rw [List.length_append]
      omega
    rw [popMany_bind_of_le f hpos hlonger, List.take_append_of_le_length hn,
      List.drop_append_of_le_length hn]
    exact (h _).framed hrest below hle

theorem demand {o : Option α} {cause : ScriptError} {f : α → Exec Unit} (h : ∀ a, Local (f a)) :
    Local (demand o cause >>= f) := by
  cases o with
  | none => exact .fail cause
  | some a => exact h a

theorem read {x : Except ScriptError α} {f : α → Exec Unit} (h : ∀ a, Local (f a)) :
    Local (read x >>= f) := by
  cases x with
  | error cause => exact .fail cause
  | ok a => exact h a

end Local

/-! ## Handlers -/

/-- An opcode whose handler is local, whatever it reads and whatever its operand. -/
def Opcode.IsLocal {H : Type} (o : Opcode H) : Prop :=
  ∀ inputs operand, Local (o.run inputs operand)

section Handlers

variable {H : Type}

theorem foldTop_local {name : String} (f : Word → Word → Option Word) (cause : ScriptError) :
    (countedOpcode (H := H) name (foldTop f cause)).IsLocal := fun _ _ =>
  .popMany fun words => match words with
    | [] => .fail _
    | _ :: _ => .demand fun _ => .push _

theorem mergeTop_local {name : String} (f : Word → Word → Word) :
    (countedOpcode (H := H) name (mergeTop f)).IsLocal := fun _ _ =>
  .popMany fun words => match words with
    | [] => .fail _
    | _ :: _ => .push _

theorem compareTop_local {name : String} (f : Word → Word → Bool) :
    (plainOpcode (H := H) name 2 (compareTop f)).IsLocal := fun _ _ =>
  .pop fun _ => .pop fun _ => .push _

/-- The standard opcodes are local. -/
theorem standardOpcodes_local [Clock H] : ∀ o ∈ standardOpcodes (H := H), o.IsLocal := by
  unfold standardOpcodes
  simp only [List.forall_mem_cons]
  refine ⟨fun _ _ => .read fun _ => .push _, fun _ _ => .read fun _ => .push _,
    fun _ _ => .push _, foldTop_local _ _, foldTop_local _ _, mergeTop_local _, foldTop_local _ _,
    foldTop_local _ _, foldTop_local _ _, mergeTop_local _, mergeTop_local _, compareTop_local _,
    compareTop_local _, compareTop_local _, fun _ _ => .pop fun _ => .push _,
    fun _ _ => .popMany fun _ => .push _, fun _ _ => .popMany fun _ => .push _,
    fun _ _ => .pop fun _ => .pop fun _ => .pop fun _ => .push _, List.forall_mem_nil _⟩

/-- The opcodes that a sale adds are local. -/
theorem saleOpcodes_local : ∀ o ∈ Sale.opcodes, o.IsLocal := by
  unfold Sale.opcodes
  simp only [List.forall_mem_cons]
  exact ⟨fun _ _ => .demand fun _ => .push _, fun _ _ => .push _, fun _ _ => .push _,
    fun _ _ => .pop fun _ => .read fun _ => .push _,
    fun _ _ => .pop fun _ => .read fun _ => .push _, List.forall_mem_nil _⟩

end Handlers

/-! ## Runs -/

section Runs

variable {H : Type} {t : Table H} {inputs : Inputs H}

/-- Every opcode of a table is local. -/
def Table.IsLocal (t : Table H) : Prop := ∀ o ∈ t.entries, o.IsLocal

/-- The stacks that a run goes through, from the one it starts from to the last one it reaches. -/
def Table.trace (t : Table H) (inputs : Inputs H) : List Op → Stack → List Stack
  | [], s => [s]
  | op :: rest, s =>
    s :: match t.step inputs op s with
      | .ok _ s' => t.trace inputs rest s'
      | .error _ _ => []

/-- The deepest that the stack is in a run. -/
def Table.deepest (t : Table H) (inputs : Inputs H) (ops : List Op) (s : Stack) : Nat :=
  ((t.trace inputs ops s).map List.length).foldr max 0

/-- Operations of a local table are local. -/
theorem Table.step_local (hlocal : t.IsLocal) (op : Op) : Local (t.step inputs op) := by
  unfold step
  cases ho : t.resolve op.opcode with
  | none => exact .fail _
  | some o => exact hlocal o (mem_of_resolve ho) inputs op.operand

/-- A run that succeeds has made its first step and gone on from there. -/
theorem Table.run_cons_ok {op : Op} {rest : List Op} {s r : Stack}
    (h : t.run inputs (op :: rest) s = .ok () r) :
    ∃ s', t.step inputs op s = .ok () s' ∧ t.run inputs rest s' = .ok () r := by
  have hrun : EStateM.bind (t.step inputs op) (fun _ => t.run inputs rest) s = .ok () r := h
  unfold EStateM.bind at hrun
  split at hrun
  · rename_i s' hstep
    exact ⟨s', hstep, hrun⟩
  · cases hrun

theorem Table.run_cons_of_step {op : Op} {s s' : Stack} (h : t.step inputs op s = .ok () s')
    (rest : List Op) : t.run inputs (op :: rest) s = t.run inputs rest s' := by
  show EStateM.bind (t.step inputs op) (fun _ => t.run inputs rest) s = _
  rw [EStateM.bind, h]

/-- A run goes on from where its first part has come to. -/
theorem Table.run_append_of_ok {before : List Op} {s s' : Stack}
    (h : t.run inputs before s = .ok () s') (after : List Op) :
    t.run inputs (before ++ after) s = t.run inputs after s' := by
  rw [run_append]
  show EStateM.bind (t.run inputs before) (fun _ => t.run inputs after) s = _
  rw [EStateM.bind, h]

theorem Table.trace_cons_of_step {op : Op} {s s' : Stack} (h : t.step inputs op s = .ok () s')
    (rest : List Op) : t.trace inputs (op :: rest) s = s :: t.trace inputs rest s' := by
  rw [trace, h]

theorem Table.deepest_cons_of_step {op : Op} {s s' : Stack} (h : t.step inputs op s = .ok () s')
    (rest : List Op) :
    t.deepest inputs (op :: rest) s = max s.length (t.deepest inputs rest s') := by
  rw [deepest, trace_cons_of_step h, List.map_cons, List.foldr_cons, deepest]

/-- A run is at least as deep as the stack it starts from. -/
theorem Table.length_le_deepest (ops : List Op) (s : Stack) :
    s.length ≤ t.deepest inputs ops s := by
  cases ops <;> exact Nat.le_max_left _ _

/-- A run that succeeds does the same on top of other words, step by step, as long as there is room
for the deepest stack it comes to. -/
theorem Table.run_framed (hlocal : t.IsLocal) {ops : List Op} {s r below : Stack}
    (h : t.run inputs ops s = .ok () r)
    (hroom : t.deepest inputs ops s + below.length ≤ maxStackDepth) :
    t.run inputs ops (s ++ below) = .ok () (r ++ below) ∧
      t.trace inputs ops (s ++ below) = (t.trace inputs ops s).map (· ++ below) := by
  induction ops generalizing s with
  | nil =>
    cases h
    exact ⟨rfl, rfl⟩
  | cons op rest ih =>
    obtain ⟨s', hstep, hrest⟩ := run_cons_ok h
    rw [deepest_cons_of_step hstep] at hroom
    -- the stack after the first step is one of those that there is room for
    have hdeep : s'.length ≤ t.deepest inputs rest s' := length_le_deepest rest s'
    have hframed := (step_local hlocal op).framed hstep below (by omega)
    obtain ⟨hrun, htrace⟩ := ih hrest (by omega)
    rw [run_cons_of_step hframed, trace_cons_of_step hframed, trace_cons_of_step hstep, htrace]
    exact ⟨hrun, rfl⟩

end Runs

end Script

open Script

/-- The table of a sale is local. -/
theorem Sale.table_local : Sale.table.IsLocal :=
  List.forall_mem_append.mpr ⟨standardOpcodes_local, saleOpcodes_local⟩

/-- Script code composes. What operations leave when they run from the empty stack they also leave
on top of any other words, if the stack has room for these and for the deepest stack of that run;
and all along the other words lie untouched under what the run has pushed. So operations that leave
a quantity, followed by operations that leave a price, are a source with this quote. -/
theorem script_code_composes (constants context : List Word) (view : Snapshot) :
    let inputs : Inputs Snapshot := ⟨constants, context, view⟩
    (∀ ops r, Sale.table.run inputs ops [] = .ok () r →
      ∀ p : Stack, p.length + Sale.table.deepest inputs ops [] ≤ maxStackDepth →
        Sale.table.run inputs ops p = .ok () (r ++ p) ∧
        Sale.table.trace inputs ops p = (Sale.table.trace inputs ops []).map (· ++ p)) ∧
    ∀ xs ys u v, Sale.table.run inputs xs [] = .ok () [u] →
      Sale.table.run inputs ys [] = .ok () [v] → Sale.table.deepest inputs ys [] ≤ 63 →
        ∀ (script : Script) (source : Nat), script.constants = constants →
          script.sources[source]? = some (xs ++ ys) →
            evaluate Sale.table script source context view = .ok ⟨u, v⟩ := by
  intro inputs
  have hframe : ∀ ops r, Sale.table.run inputs ops [] = .ok () r →
      ∀ p : Stack, p.length + Sale.table.deepest inputs ops [] ≤ maxStackDepth →
        Sale.table.run inputs ops p = .ok () (r ++ p) ∧
        Sale.table.trace inputs ops p = (Sale.table.trace inputs ops []).map (· ++ p) := by
    intro ops r hrun p hroom
    rw [Nat.add_comm] at hroom
    exact Table.run_framed Sale.table_local hrun hroom
  refine ⟨hframe, ?_⟩
  intro xs ys u v hxs hys hdeep script source hconstants hsource
  have hroom : [u].length + Sale.table.deepest inputs ys [] ≤ maxStackDepth := by
    unfold maxStackDepth
    rw [List.length_singleton]
    omega
  -- the price is computed on top of the quantity
  have hrun : Sale.table.run inputs (xs ++ ys) [] = .ok () [v, u] := by
    rw [Table.run_append_of_ok hxs]
    exact (hframe ys [v] hys [u] hroom).1
  rw [evaluate_of_getElem? hsource, hconstants, Table.quote_of_ok hrun]
  rfl

/-- The units that are left of a hundred, then ten for each unit asked for. -/
theorem script_code_composes_tiered :
    let inputs : Inputs Snapshot := ⟨[100, 10], [0, 3], ⟨100, 0, 0, 0, 0, 0, none⟩⟩
    let units : List Op := [⟨0, 0⟩, ⟨1, 1⟩, ⟨5, 2⟩]
    let price : List Op := [⟨0, 1⟩, ⟨1, 1⟩, ⟨6, 2⟩]
    Sale.table.run inputs units [] = .ok () [97] ∧ Sale.table.run inputs price [] = .ok () [30] ∧
      Sale.table.deepest inputs price [] ≤ 63 ∧
        evaluate Sale.table ⟨[units ++ price], [100, 10]⟩ 0 [0, 3] inputs.host = .ok ⟨97, 30⟩ := by
  intro inputs units price
  obtain ⟨-, hquote⟩ := script_code_composes inputs.constants inputs.context inputs.host
  have hdeep : Sale.table.deepest inputs price [] ≤ 63 := by decide
  exact ⟨rfl, rfl, hdeep, hquote units price 97 30 rfl rfl hdeep _ 0 rfl rfl⟩

end UnitSale
