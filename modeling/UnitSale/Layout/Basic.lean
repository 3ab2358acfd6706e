import UnitSale.Bytes
import UnitSale.Error

/-!
# Byte layouts

A layout writes a value as bytes and reads one off the front of bytes. Integers are little-endian, a
list has its length in four bytes before its items, options and enumerations have one byte that
tells which case follows, and records are their fields one after another.
-/

namespace UnitSale

/-- How a type is laid out in bytes. -/
structure Layout (α : Type) where
  write : α → List UInt8
  /-- The value at the front of the bytes, and the bytes after it. -/
  read : List UInt8 → Except LayoutError (α × List UInt8)

namespace Layout

variable {α β : Type}

/-- The first `n` bytes and the rest, if there are that many. -/
def splitBytes : (n : Nat) → List UInt8 → Except LayoutError (List UInt8 × List UInt8)
  | 0, bytes => .ok ([], bytes)
  | _ + 1, [] => .error .unexpectedEnd
  | n + 1, b :: bytes => do
    let (front, rest) ← splitBytes n bytes
    return (b :: front, rest)

/-- An integer of `width` bytes, least significant first. -/
def integer (width : Nat) (toNat : α → Nat) (ofNat : Nat → α) : Layout α where
  write a := littleEndian width (toNat a)
  read bytes := do
    let (front, rest) ← splitBytes width bytes
    return (ofNat (ofLittleEndian front), rest)

/-- The layout of a type whose values are made of values that have one. -/
def iso (l : Layout α) (make : α → β) (parts : β → α) : Layout β where
  write b := l.write (parts b)
  read bytes := do
    let (a, rest) ← l.read bytes
    return (make a, rest)

/-- One value after another. -/
def pair (first : Layout α) (second : Layout β) : Layout (α × β) where
  write ab := first.write ab.1 ++ second.write ab.2
  read bytes := do
    let (a, rest) ← first.read bytes
    let (b, rest) ← second.read rest
    return ((a, b), rest)

/-- Reads `n` values in a row. -/
def readMany (l : Layout α) : (n : Nat) → List UInt8 → Except LayoutError (List α × List UInt8)
  | 0, bytes => .ok ([], bytes)
  | n + 1, bytes => do
    let (a, rest) ← l.read bytes
    let (items, rest) ← readMany l n rest
    return (a :: items, rest)

/-! ## Integers -/

/-- One byte, unsigned. -/
def uint8 : Layout UInt8 := integer 1 UInt8.toNat UInt8.ofNat
/-- Two bytes, unsigned. -/
def uint16 : Layout UInt16 := integer 2 UInt16.toNat UInt16.ofNat
/-- Four bytes, unsigned. -/
def uint32 : Layout UInt32 := integer 4 UInt32.toNat UInt32.ofNat
/-- Eight bytes, unsigned. -/
def uint64 : Layout UInt64 := integer 8 UInt64.toNat UInt64.ofNat

/-- A signed integer is laid out as the unsigned one with the same bits. -/
def int64 : Layout Int64 := uint64.iso UInt64.toInt64 Int64.toUInt64

/-! ## Composite values -/

/-- A list, its length first. -/
def list (l : Layout α) : Layout (List α) where
  write items := uint32.write (UInt32.ofNat items.length) ++ items.flatMap l.write
  read bytes := do
    let (length, rest) ← uint32.read bytes
    readMany l length.toNat rest

/-- An option: zero, or one and the value. -/
def option (l : Layout α) : Layout (Option α) where
  write
    | none => [0]
    | some a => 1 :: l.write a
  read bytes := do
    let (tag, rest) ← uint8.read bytes
    match tag with
    | 0 => return (none, rest)
    | 1 =>
      let (a, rest) ← l.read rest
      return (some a, rest)
    | tag => throw (.optionTag tag)

/-- A truth value: zero or one. -/
def bool : Layout Bool where
  write b := [if b then 1 else 0]
  read bytes := do
    let (byte, rest) ← uint8.read bytes
    match byte with
    | 0 => return (false, rest)
    | 1 => return (true, rest)
    | byte => throw (.boolTag byte)

/-- One of the listed cases, by its index. -/
def choice (index : α → UInt8) (cases : List α) : Layout α where
  write a := [index a]
  read bytes := do
    let (tag, rest) ← uint8.read bytes
    match cases[tag.toNat]? with
    | some a => return (a, rest)
    | none => throw (.variant tag)

/-- Thirty-two bytes as they are. -/
def bytes32 : Layout Bytes32 where
  write b := b.toList
  read bytes := do
    let (front, rest) ← splitBytes 32 bytes
    match Bytes32.ofList? front with
    | some b => return (b, rest)
    | none => throw .unexpectedEnd

/-! ## Whole inputs -/

/-- The bytes of a value. -/
def encode (l : Layout α) (a : α) : List UInt8 := l.write a

/-- The value that bytes are, with none left over. -/
def decode (l : Layout α) (bytes : List UInt8) : Except LayoutError α := do
  let (a, rest) ← l.read bytes
  match rest with
  | [] => return a
  | _ :: _ => throw .leftOver

/-- The bytes of an account: its kind's discriminator, then its value. -/
def encodeAccount (l : Layout α) (discriminator : List UInt8) (a : α) : List UInt8 :=
  discriminator ++ l.write a

/-- The value in an account's bytes. What follows the value does not matter. -/
def decodeAccount (l : Layout α) (discriminator : List UInt8) (bytes : List UInt8) :
    Except AccountError α :=
  match splitBytes discriminator.length bytes with
  | .error _ => .error .discriminatorNotFound
  | .ok (front, rest) =>
    if front = discriminator then
      match l.read rest with
      | .ok (a, _) => .ok a
      | .error _ => .error .didNotDeserialize
    else .error .discriminatorMismatch

end Layout
end UnitSale
