import UnitSale.Script.Table

/-!
# Evaluation

Running one source of a script from the empty stack to a quote. The result depends on the table, the
script, the context and the host alone.
-/

namespace UnitSale
namespace Script

/-- What a source leaves: how many units may be bought, and the price of one. -/
structure Quote where
  maxUnits : Word
  price : Word
  deriving DecidableEq, Repr

/-- The quote on a stack: the price on top, the unit limit below it, and whatever lies under them.
-/
def quoteOf : Stack → Except ScriptError Quote
  | price :: maxUnits :: _ => .ok ⟨maxUnits, price⟩
  | _ => .error .missingResults

variable {H : Type}

/-- Runs one operation. -/
def Table.step (t : Table H) (inputs : Inputs H) (op : Op) : Exec Unit :=
  match t.resolve op.opcode with
  | none => throw .unknownOpcode
  | some entry => entry.run inputs op.operand

/-- Runs operations in order. -/
def Table.run (t : Table H) (inputs : Inputs H) : List Op → Exec Unit
  | [] => pure ()
  | op :: rest => do
    t.step inputs op
    t.run inputs rest

/-- The quote that operations leave when they run from the empty stack. -/
def Table.quote (t : Table H) (inputs : Inputs H) (ops : List Op) : Except ScriptError Quote :=
  match (t.run inputs ops).run [] with
  | .ok _ stack => quoteOf stack
  | .error cause _ => .error cause

/-- Evaluates one source of a script. -/
def evaluate (t : Table H) (script : Script) (source : Nat) (context : List Word) (host : H) :
    Except ScriptError Quote := do
  let ops ← demand script.sources[source]? .sourceOutOfBounds
  t.quote ⟨script.constants, context, host⟩ ops

end Script
end UnitSale
