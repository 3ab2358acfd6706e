import UnitSale.Keccak
import UnitSale.Word

/-!
# Addresses

Where accounts live. An ordinary address is a 32-byte key; only these can sign. All others are
derived from what they belong to, so two derived addresses are the same exactly when they were
derived from the same seeds, and none of them is an ordinary key.
-/

namespace UnitSale

/-- An ordinary key, or an address derived from seeds. -/
inductive Address
  | key (bytes : Bytes32)
  | sale (owner : Address) (number : UInt64)
  | shuffle (sale : Address)
  | vault (sale : Address)
  | ledger (sale holder : Address)
  | commitment (sale buyer : Address)
  deriving DecidableEq, Repr

namespace Address

/-- The key of zero bytes. It stands where no address has been set, and the program that moves coins
lives at it. -/
def zero : Address := .key Bytes32.zero

/-- The bytes of a piece of seed text. -/
def seedText (text : String) : List UInt8 := text.toUTF8.data.toList

/-- The 32 bytes an address is written as. A derived one is the digest of its seeds. -/
def bytes : Address → Bytes32
  | key b => b
  | sale owner number =>
    keccak256 (seedText "sale" ++ owner.bytes.toList ++ littleEndian 8 number.toNat)
  | shuffle s => keccak256 (seedText "shuffle" ++ s.bytes.toList)
  | vault s => keccak256 (seedText "vault" ++ s.bytes.toList)
  | ledger s holder => keccak256 (seedText "ledger" ++ s.bytes.toList ++ holder.bytes.toList)
  | commitment s buyer =>
    keccak256 (seedText "commitment" ++ s.bytes.toList ++ buyer.bytes.toList)

/-- The word a script sees for an address. -/
def word (a : Address) : Word := Word.ofBytes a.bytes

/-- An address whose bytes are given, as it is read back from bytes. -/
def IsKey (a : Address) : Prop := ∃ b, a = .key b

/-- A derived address in writing, with the seeds that its own derivatives repeat. -/
def spelling (kind : String) (seeds : List String) : String × List String :=
  (kind ++ "(" ++ String.intercalate "," seeds ++ ")", seeds)

/-- How an address is written, and the seeds it is written with. -/
def spelled (name : Bytes32 → String) : Address → String × List String
  | key b => (name b, [name b])
  | sale owner number => spelling "sale" [(owner.spelled name).1, toString number.toNat]
  | shuffle s => spelling "shuffle" (s.spelled name).2
  | vault s => spelling "vault" (s.spelled name).2
  | ledger s holder => spelling "ledger" ((s.spelled name).2 ++ [(holder.spelled name).1])
  | commitment s buyer => spelling "commitment" ((s.spelled name).2 ++ [(buyer.spelled name).1])

/-- The text of an address: keys by the given naming, derived addresses by their seeds. -/
def text (name : Bytes32 → String) (a : Address) : String := (a.spelled name).1

/-! ## Reading addresses -/

/-- All ways to cut a text in two at a comma. Names may have commas themselves, so any of them may
be the right one. -/
def commaCuts : List Char → List (List Char × List Char)
  | [] => []
  | c :: rest =>
    let later := (commaCuts rest).map fun cut => (c :: cut.1, cut.2)
    if c = ',' then ([], rest) :: later else later

/-- What stands between the brackets of a kind of address. -/
def inBrackets? (kind : String) (cs : List Char) : Option (List Char) := do
  let rest ← (kind ++ "(").toList.isPrefixOf? cs
  if rest.getLast? = some ')' then some rest.dropLast else none

/-- The sale that an owner and a number name, the owner read by the given function. -/
def readSale? (owner? : List Char → Option Address) (cs : List Char) : Option Address :=
  (commaCuts cs).findSome? fun (owner, number) => do
    return .sale (← owner? owner) (UInt64.ofNat (← (String.ofList number).toNat?))

/-- A sale and one more address, the addresses read by the given function. -/
def readMember? (address? : List Char → Option Address) (cs : List Char) :
    Option (Address × Address) :=
  (commaCuts cs).findSome? fun (front, back) => do
    return (← readSale? address? front, ← address? back)

/-- The address that a text names: a key by the given naming, a derived address by its seeds. Seeds
nest no deeper than the fuel. -/
def read? (key? : String → Option Bytes32) : (fuel : Nat) → List Char → Option Address
  | 0, _ => none
  | fuel + 1, cs =>
    let seed? := read? key? fuel
    let ofSale (kind : String) := (inBrackets? kind cs).bind (readSale? seed?)
    let ofMember (kind : String) := (inBrackets? kind cs).bind (readMember? seed?)
    ((key? (String.ofList cs)).map Address.key).or <|
      (ofSale "sale").or <|
        ((ofSale "shuffle").map .shuffle).or <|
          ((ofSale "vault").map .vault).or <|
            ((ofMember "ledger").map fun m => .ledger m.1 m.2).or <|
              (ofMember "commitment").map fun m => .commitment m.1 m.2

/-- The address that a text names. -/
def ofText? (key? : String → Option Bytes32) (text : String) : Option Address :=
  read? key? (text.length + 1) text.toList

end Address
end UnitSale
