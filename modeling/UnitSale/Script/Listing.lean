import UnitSale.Script.Table

/-!
# Listings

The text of a script, one line a source, as in `0: constant[100] context[1] saturating_sub(2)`.
Counts stand in round brackets, everything looked up in square ones, and constants show their value.
-/

namespace UnitSale
namespace Script

/-- Decimal if the word fits in 64 bits, otherwise all 64 hexadecimal digits. -/
def wordText (value : Word) : String :=
  match value.toAmount? with
  | some small => toString small.toNat
  | none => "0x" ++ hex value.toBytes.toList

variable {H : Type}

/-- The text of an operation. -/
def opText (t : Table H) (constants : List Word) (op : Op) : String :=
  let operand := toString op.operand.toNat
  match t.resolve op.opcode with
  | none => "op#" ++ toString op.opcode.toNat ++ "(" ++ operand ++ ")"
  | some entry =>
    match entry.operand with
    | .none => entry.name
    | .count => entry.name ++ "(" ++ operand ++ ")"
    | .constant =>
      match constants[op.operand.toNat]? with
      | some value => entry.name ++ "[" ++ wordText value ++ "]"
      | none => entry.name ++ "[?" ++ operand ++ "]"
    | .context | .slot _ => entry.name ++ "[" ++ operand ++ "]"

/-- The line of a source: its index, a colon and its operations, each after a space. -/
def sourceText (t : Table H) (constants : List Word) (index : Nat) (source : List Op) : String :=
  source.foldl (fun line op => line ++ " " ++ opText t constants op) (toString index ++ ":")

/-- The text of a script. -/
def listing (t : Table H) (script : Script) : String :=
  String.intercalate "\n"
    (script.sources.mapIdx fun index source => sourceText t script.constants index source)

end Script
end UnitSale
