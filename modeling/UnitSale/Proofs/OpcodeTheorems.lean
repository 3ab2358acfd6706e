import UnitSale.Sale.Opcodes
import UnitSale.Proofs.UpdateTheorems

/-!
# What opcodes take and leave

The checks of a script know an opcode by its entry alone: what operand it is allowed and how many
words it takes and leaves. Its handler is a separate text. Here every handler is compared with its
entry: it fails where the checks do and with the same cause, or it fails on its data, or it leaves
the stack as deep as the checks say.
-/

namespace UnitSale

/-- A cause that depends on what a script computes with, not on its text. -/
def ScriptError.OfData (cause : ScriptError) : Prop :=
  cause = .arithmeticOverflow ∨ cause = .divisionByZero ∨ cause = .unknownAccount

namespace Script

/-- A run ends at the depth that the checks have found, or fails on its data, or fails with the
cause that the checks have found. -/
def Follows (checked : Except ScriptError Nat) : EStateM.Result ScriptError Stack Unit → Prop
  | .ok _ stack => checked = .ok stack.length
  | .error cause _ => cause.OfData ∨ checked = .error cause

/-! ## Pieces of handlers -/

/-- A piece of a run that puts one word in the place of the top `n`, unless it fails for want of
words or on its data. -/
structure Takes (n : Nat) (x : Exec Unit) : Prop where
  missing : ∀ s : Stack, s.length < n → ∃ left, x s = .error .stackUnderflow left
  replaces : ∀ s : Stack, n ≤ s.length → (∃ value, x s = push value (s.drop n)) ∨
    ∃ cause left, cause.OfData ∧ x s = .error cause left

namespace Takes

variable {α : Type} {n : Nat}

/-- Pushing takes nothing. -/
theorem push (value : Word) : Takes 0 (push value) where
  missing := fun _ hs => absurd hs (Nat.not_lt_zero _)
  replaces := fun _ _ => .inl ⟨value, rfl⟩

/-- Failing on the data is allowed anywhere. -/
theorem fail {cause : ScriptError} (h : cause.OfData) : Takes 0 (throw cause) where
  missing := fun _ hs => absurd hs (Nat.not_lt_zero _)
  replaces := fun s _ => .inr ⟨cause, s, h, rfl⟩

/-- Popping takes one word more than what follows. -/
theorem pop {f : Word → Exec Unit} (h : ∀ value, Takes n (f value)) :
    Takes (n + 1) (pop >>= f) where
  missing := by
    intro s hs
    cases s with
    | nil => exact ⟨[], rfl⟩
    | cons top below =>
      rw [List.length_cons] at hs
      exact (h top).missing below (by omega)
  replaces := by
    intro s hs
    cases s with
    | nil => exact absurd hs (Nat.not_succ_le_zero n)
    | cons top below =>
      rw [List.length_cons] at hs
      exact (h top).replaces below (by omega)

/-- Popping `n` words takes them, where what follows takes no more. -/
theorem popMany {f : List Word → Exec Unit} (hn : n ≠ 0)
    (h : ∀ first rest, Takes 0 (f (first :: rest))) : Takes n (popMany n >>= f) where
  missing := by
    intro s hs
    refine ⟨s, ?_⟩
    rw [popMany_bind, if_neg hn, if_pos hs]
  replaces := by
    intro s hs
    -- the words taken are `n` many and `n` is not zero, so there is a first one
    have hlength : (s.take n).reverse.length = n := by
      rw [List.length_reverse, List.length_take, Nat.min_eq_left hs]
    rw [popMany_bind_of_le f hn hs]
    cases htop : (s.take n).reverse with
    | nil =>
      rw [htop] at hlength
      exact absurd hlength.symm hn
    | cons first rest => exact (h first rest).replaces _ (Nat.zero_le _)

/-- A demand may fail on the data. -/
theorem demand {o : Option α} {cause : ScriptError} {f : α → Exec Unit} (hcause : cause.OfData)
    (h : ∀ a, Takes 0 (f a)) : Takes 0 (demand o cause >>= f) := by
  cases o with
  | none => exact .fail hcause
  | some a => exact h a

/-- A piece that reads may fail on the data. -/
theorem read {x : Except ScriptError α} {f : α → Exec Unit}
    (hcause : ∀ cause, x = .error cause → cause.OfData) (h : ∀ a, Takes 0 (f a)) :
    Takes 0 (read x >>= f) := by
  cases x with
  | error cause => exact .fail (hcause cause rfl)
  | ok a => exact h a

end Takes

/-! ## Handlers -/

section Handlers

variable {H : Type} (inputs : Inputs H) (operand : UInt16)

/-- Folding that can fail takes what its operand says. -/
theorem foldTop_takes {f : Word → Word → Option Word} {cause : ScriptError}
    (hcause : cause.OfData) (hpos : operand.toNat ≠ 0) :
    Takes operand.toNat (foldTop f cause inputs operand) :=
  .popMany hpos fun _ _ => .demand hcause fun _ => .push _

/-- Folding that cannot fail takes what its operand says. -/
theorem mergeTop_takes (f : Word → Word → Word) (hpos : operand.toNat ≠ 0) :
    Takes operand.toNat (mergeTop f inputs operand) :=
  .popMany hpos fun _ _ => .push _

theorem testEvery_takes (hpos : operand.toNat ≠ 0) :
    Takes operand.toNat (testEvery inputs operand) :=
  .popMany hpos fun _ _ => .push _

theorem testAny_takes (hpos : operand.toNat ≠ 0) :
    Takes operand.toNat (testAny inputs operand) :=
  .popMany hpos fun _ _ => .push _

/-- A comparison takes two words. -/
theorem compareTop_takes (f : Word → Word → Bool) : Takes 2 (compareTop f inputs operand) :=
  .pop fun _ => .pop fun _ => .push _

theorem testZero_takes : Takes 1 (testZero inputs operand) :=
  .pop fun _ => .push _

/-- A choice takes the condition and both of its branches. -/
theorem choose_takes : Takes 3 (choose inputs operand) :=
  .pop fun _ => .pop fun _ => .pop fun _ => .push _

theorem pushTimestamp_takes [Clock H] : Takes 0 (pushTimestamp inputs operand) :=
  .push _

/-- A counter of the sale takes nothing. -/
theorem pushSlot_takes (slot : Slot) (view : Inputs Snapshot) :
    Takes 0 (Sale.pushSlot slot view operand) :=
  .push _

/-- Counters that are not at hand are a matter of data. -/
theorem counters_ofData {v : Snapshot} {account : Word} {cause : ScriptError}
    (h : v.counters account = .error cause) : cause.OfData := by
  unfold Snapshot.counters at h
  split at h
  · split at h
    · cases h
    · cases h
      exact .inr (.inr rfl)
  · cases h
    exact .inr (.inr rfl)

/-- A counter of an account takes the account. -/
theorem pushCounter_takes (counter : HolderCounters → UInt64) (view : Inputs Snapshot) :
    Takes 1 (Sale.pushCounter counter view operand) :=
  .pop fun _ => .read (fun _ h => counters_ofData h) fun _ => .push _

end Handlers

/-! ## Entries -/

section Entries

variable {H : Type}

/-- What the checks find of the depth once an operand is allowed. -/
def settle (effect : Nat × Nat) (depth : Nat) : Except ScriptError Nat := do
  require (effect.1 ≤ depth) ScriptError.stackUnderflow
  require (depth - effect.1 + effect.2 ≤ maxStackDepth) ScriptError.stackOverflow
  return depth - effect.1 + effect.2

/-- A handler that puts one word in the place of `n` follows the checks that say so. -/
theorem Takes.follows {n : Nat} {x : Exec Unit} (h : Takes n x) (s : Stack) :
    Follows (settle (n, 1) s.length) (x s) := by
  unfold settle
  dsimp only
  by_cases hn : n ≤ s.length
  · rw [require_of _ hn, ok_bind]
    rcases h.replaces s hn with ⟨value, hvalue⟩ | ⟨cause, left, hcause, hfail⟩
    · have hdrop : (s.drop n).length = s.length - n := List.length_drop
      rw [hvalue, Script.push, hdrop]
      -- the machine refuses before it pushes, the checks after they count
      by_cases hroom : s.length - n < maxStackDepth
      · rw [if_pos hroom, require_of _ (Nat.succ_le_of_lt hroom)]
        show Except.ok (s.length - n + 1) = .ok (value :: s.drop n).length
        rw [List.length_cons, hdrop]
      · rw [if_neg hroom, require, if_neg (fun hle => hroom (Nat.lt_of_succ_le hle))]
        exact .inr rfl
    · rw [hfail]
      exact .inl hcause
  · obtain ⟨left, hleft⟩ := h.missing s (Nat.lt_of_not_le hn)
    rw [hleft, require, if_neg hn]
    exact .inr rfl

/-- The machine follows the checks of an opcode. An operand where none is taken is all that the
checks refuse and the machine does not look at. -/
def Opcode.Faithful (o : Opcode H) : Prop :=
  ∀ (inputs : Inputs H) (operand : UInt16) (s : Stack), (o.operand = .none → operand = 0) →
    Follows (checkOperand o.operand operand inputs.constants.length inputs.context.length
      >>= fun _ => settle (o.effect operand) s.length) (o.run inputs operand s)

/-- An opcode without an operand is faithful if its handler takes what the entry says. -/
theorem plainOpcode_faithful {name : String} {n : UInt8} {run : Handler H}
    (h : ∀ inputs operand, Takes n.toNat (run inputs operand)) :
    (plainOpcode name n run).Faithful := by
  intro inputs operand s hzero
  have hallowed : checkOperand .none operand inputs.constants.length inputs.context.length
      = .ok () := require_of _ (hzero rfl)
  show Follows (checkOperand .none operand _ _ >>= _) _
  rw [hallowed]
  exact (h inputs operand).follows s

/-- A counted opcode is faithful if its handler refuses to take none and otherwise takes what its
operand says. -/
theorem countedOpcode_faithful {name : String} {run : Handler H}
    (hnone : ∀ inputs s, run inputs 0 s = .error .invalidOperand s)
    (h : ∀ inputs operand, operand.toNat ≠ 0 → Takes operand.toNat (run inputs operand)) :
    (countedOpcode name run).Faithful := by
  intro inputs operand s _
  show Follows (require (1 ≤ operand) ScriptError.invalidOperand >>= _) (run inputs operand s)
  -- a count of zero is refused on both sides before the stack is looked at
  by_cases hzero : operand = 0
  · rw [hzero, hnone, require, if_neg (by decide)]
    exact .inr rfl
  · have hpos : operand.toNat ≠ 0 := fun heq => hzero (UInt16.toNat_inj.mp heq)
    have hle : 1 ≤ operand := by
      rw [UInt16.le_iff_toNat_le]
      show 1 ≤ operand.toNat
      omega
    rw [require_of _ hle]
    exact (h inputs operand hpos).follows s

/-- An opcode that looks something up by its operand is faithful if the checks look it up too. -/
theorem lookup_faithful {α : Type} {o : Opcode H} (cause : ScriptError)
    (lookup : Inputs H → UInt16 → Option α) (word : Inputs H → α → Word)
    (harity : o.arity = .fixed 0 1)
    (hcheck : ∀ inputs operand,
      checkOperand o.operand operand inputs.constants.length inputs.context.length
        = require ((lookup inputs operand).isSome) cause)
    (hrun : ∀ inputs operand, o.run inputs operand
      = demand (lookup inputs operand) cause >>= fun a => push (word inputs a)) : o.Faithful := by
  intro inputs operand s _
  rw [hcheck, hrun, Opcode.effect, harity]
  cases lookup inputs operand with
  | none => exact .inr rfl
  | some a => exact (Takes.push (word inputs a)).follows s

/-- An index is allowed exactly when there is something at it. -/
theorem require_lt_length {α : Type} (l : List α) (i : Nat) (cause : ScriptError) :
    (require (i < l.length) cause : Except ScriptError Unit) = require (l[i]?.isSome) cause := by
  by_cases hi : i < l.length
  · rw [require_of _ hi, require_of]
    rw [List.getElem?_eq_getElem hi]
    rfl
  · rw [require, if_neg hi, List.getElem?_eq_none (Nat.le_of_not_lt hi)]
    rfl

theorem pushConstant_faithful :
    Opcode.Faithful (H := H) ⟨"constant", .constant, .fixed 0 1, pushConstant⟩ := by
  refine lookup_faithful .constantOutOfBounds
    (fun inputs operand => inputs.constants[operand.toNat]?) (fun _ value => value) rfl ?_ ?_
  · intro inputs operand
    exact require_lt_length _ _ _
  · intro inputs operand
    show (read (demand inputs.constants[operand.toNat]? _) >>= push) = _
    cases inputs.constants[operand.toNat]? <;> rfl

theorem pushContext_faithful :
    Opcode.Faithful (H := H) ⟨"context", .context, .fixed 0 1, pushContext⟩ := by
  refine lookup_faithful .contextOutOfBounds
    (fun inputs operand => inputs.context[operand.toNat]?) (fun _ value => value) rfl ?_ ?_
  · intro inputs operand
    exact require_lt_length _ _ _
  · intro inputs operand
    show (read (demand inputs.context[operand.toNat]? _) >>= push) = _
    cases inputs.context[operand.toNat]? <;> rfl

theorem pushStorage_faithful :
    Opcode.Faithful ⟨"storage", .slot Slot.count, .fixed 0 1, Sale.pushStorage⟩ := by
  refine lookup_faithful .unknownStorageSlot (fun _ operand => Slot.ofOperand? operand)
    (fun inputs slot => Word.ofAmount (inputs.host.read slot)) rfl ?_ ?_
  · intro inputs operand
    -- the bound of the entry is the number of slots
    exact require_lt_length [Slot.supplyLimit, .totalMinted, .totalSupply, .amountPaid,
      .amountWithdrawn, .amountPayable] operand.toNat _
  · intro inputs operand
    rfl

theorem foldTop_faithful {name : String} {f : Word → Word → Option Word} {cause : ScriptError}
    (hcause : cause.OfData) : (countedOpcode (H := H) name (foldTop f cause)).Faithful :=
  countedOpcode_faithful (fun _ _ => rfl) fun inputs operand => foldTop_takes inputs operand hcause

theorem mergeTop_faithful {name : String} {f : Word → Word → Word} :
    (countedOpcode (H := H) name (mergeTop f)).Faithful :=
  countedOpcode_faithful (fun _ _ => rfl) fun inputs operand => mergeTop_takes inputs operand f

theorem compareTop_faithful {name : String} {f : Word → Word → Bool} :
    (plainOpcode (H := H) name 2 (compareTop f)).Faithful :=
  plainOpcode_faithful fun inputs operand => compareTop_takes inputs operand f

/-- The standard opcodes are faithful. -/
theorem standardOpcodes_faithful [Clock H] : ∀ o ∈ standardOpcodes (H := H), o.Faithful := by
  have hoverflow : ScriptError.arithmeticOverflow.OfData := .inl rfl
  have hdivisor : ScriptError.divisionByZero.OfData := .inr (.inl rfl)
  unfold standardOpcodes
  simp only [List.forall_mem_cons]
  refine ⟨pushConstant_faithful, pushContext_faithful, plainOpcode_faithful ?_,
    foldTop_faithful hoverflow, foldTop_faithful hoverflow, mergeTop_faithful,
    foldTop_faithful hoverflow, foldTop_faithful hdivisor, foldTop_faithful hdivisor,
    mergeTop_faithful, mergeTop_faithful, compareTop_faithful, compareTop_faithful,
    compareTop_faithful, plainOpcode_faithful testZero_takes,
    countedOpcode_faithful (fun _ _ => rfl) testEvery_takes,
    countedOpcode_faithful (fun _ _ => rfl) testAny_takes, plainOpcode_faithful choose_takes,
    List.forall_mem_nil _⟩
  exact fun inputs operand => pushTimestamp_takes inputs operand

/-- The opcodes that a sale adds are faithful. -/
theorem saleOpcodes_faithful : ∀ o ∈ Sale.opcodes, o.Faithful := by
  unfold Sale.opcodes
  simp only [List.forall_mem_cons]
  refine ⟨pushStorage_faithful, plainOpcode_faithful ?_, plainOpcode_faithful ?_,
    plainOpcode_faithful ?_, plainOpcode_faithful ?_, List.forall_mem_nil _⟩
  · exact fun inputs operand => pushSlot_takes operand .totalSupply inputs
  · exact fun inputs operand => pushSlot_takes operand .totalMinted inputs
  · exact fun inputs operand => pushCounter_takes operand HolderCounters.minted inputs
  · exact fun inputs operand => pushCounter_takes operand HolderCounters.burned inputs

end Entries

end Script
end UnitSale
