import UnitSale.Script.Opcode

/-!
# Standard opcodes

The opcodes that need nothing of the host but a clock. Counted ones take the top `n` words, the
operand being `n`, and leave one. Sums, differences and products fail where the exact result does
not fit; only `saturating_sub` stops at zero instead.
-/

namespace UnitSale
namespace Script

/-- A host with a clock. -/
class Clock (H : Type) where
  timestamp : H → UInt64

variable {H : Type}

/-! ## Handlers -/

/-- Pushes a pooled constant. -/
def pushConstant : Handler H := fun inputs index => do
  push (← read (inputs.constant index))

/-- Pushes a word of the context. -/
def pushContext : Handler H := fun inputs index => do
  push (← read (inputs.contextWord index))

/-- Pushes the time of the current block. -/
def pushTimestamp [Clock H] : Handler H := fun inputs _ =>
  push (Word.ofAmount (Clock.timestamp inputs.host))

/-- Folds the top `n` words from the first pushed on, failing with `cause` where `f` does. -/
def foldTop (f : Word → Word → Option Word) (cause : ScriptError) : Handler H := fun _ n => do
  match ← popMany n.toNat with
  | [] => throw .invalidOperand
  | first :: rest => push (← demand (rest.foldlM f first) cause)

/-- Folds the top `n` words with a function that cannot fail. -/
def mergeTop (f : Word → Word → Word) : Handler H := fun _ n => do
  match ← popMany n.toNat with
  | [] => throw .invalidOperand
  | first :: rest => push (rest.foldl f first)

/-- Compares the top two words, the one pushed first on the left. -/
def compareTop (f : Word → Word → Bool) : Handler H := fun _ _ => do
  let right ← pop
  let left ← pop
  push (Word.ofBool (f left right))

/-- Replaces the top word by whether it is zero. -/
def testZero : Handler H := fun _ _ => do
  let value ← pop
  push (Word.ofBool (value == 0))

/-- Replaces the top `n` words by whether all of them are nonzero. -/
def testEvery : Handler H := fun _ n => do
  let values ← popMany n.toNat
  push (Word.ofBool (values.all fun v => v != 0))

/-- Replaces the top `n` words by whether some of them is nonzero. -/
def testAny : Handler H := fun _ n => do
  let values ← popMany n.toNat
  push (Word.ofBool (values.any fun v => v != 0))

/-- Takes a condition and two choices and leaves the first choice unless the condition is zero. -/
def choose : Handler H := fun _ _ => do
  let ifZero ← pop
  let ifNonzero ← pop
  let condition ← pop
  push (if condition = 0 then ifZero else ifNonzero)

/-! ## Entries in id order -/

/-- A counted opcode. -/
def countedOpcode (name : String) (run : Handler H) : Opcode H :=
  ⟨name, .count, .counted, run⟩

/-- An opcode without an operand that leaves one word. -/
def plainOpcode (name : String) (inputs : UInt8) (run : Handler H) : Opcode H :=
  ⟨name, .none, .fixed inputs 1, run⟩

/-- The standard opcodes. -/
def standardOpcodes [Clock H] : List (Opcode H) :=
  [⟨"constant", .constant, .fixed 0 1, pushConstant⟩,
   ⟨"context", .context, .fixed 0 1, pushContext⟩,
   plainOpcode "block_timestamp" 0 pushTimestamp,
   countedOpcode "add" (foldTop Word.add .arithmeticOverflow),
   countedOpcode "sub" (foldTop Word.sub .arithmeticOverflow),
   countedOpcode "saturating_sub" (mergeTop Word.monus),
   countedOpcode "mul" (foldTop Word.mul .arithmeticOverflow),
   countedOpcode "div" (foldTop Word.div .divisionByZero),
   countedOpcode "mod" (foldTop Word.mod .divisionByZero),
   countedOpcode "min" (mergeTop Word.least),
   countedOpcode "max" (mergeTop Word.greatest),
   plainOpcode "less_than" 2 (compareTop fun a b => decide (a.toNat < b.toNat)),
   plainOpcode "greater_than" 2 (compareTop fun a b => decide (b.toNat < a.toNat)),
   plainOpcode "equal_to" 2 (compareTop fun a b => a == b),
   plainOpcode "is_zero" 1 testZero,
   countedOpcode "every" testEvery,
   countedOpcode "any" testAny,
   plainOpcode "eager_if" 3 choose]

end Script
end UnitSale
