import UnitSale.Chain.State

/-!
# What an instruction reports

An instruction that succeeds gives a new state, an answer, events and notices. One that is refused
gives the cause and the notices it had made by then; the state stays what it was.
-/

namespace UnitSale

/-- The answer of an instruction. -/
inductive Reply
  | none
  | quote (q : SaleQuote)
  | royalty (r : RoyaltyQuote)
  deriving DecidableEq, Repr

/-- What an instruction announces. -/
inductive Event
  | saleOpened (sale owner : Address) (number supplyLimit : UInt64) (currency : Currency)
      (fingerprint : Bytes32)
  | unitsMinted (sale recipient payer : Address) (units price cost : UInt64)
  | unitsBurned (sale holder : Address) (units : UInt64)
  | fundsWithdrawn (sale recipient : Address) (amount : UInt64)
  | reservationCommitted (sale buyer : Address) (units cost : UInt64)
  | revealStarted (sale : Address) (totalReserved : UInt64) (deadline hardDeadline : Int64)
  | secretRevealed (sale buyer : Address) (units slotStart : UInt64) (deadline : Int64)
  | idsRevealed (sale : Address) (totalReserved forfeited : UInt64)
  | reservationClaimed (sale buyer : Address) (ids : List UInt32)
  deriving DecidableEq, Repr

/-- What an instruction writes to the log. -/
inductive Notice
  | script (listing : String)
  | saleOpened (number supplyLimit : UInt64) (maxStackDepth : UInt16)
  | vaultCreated (vault mint : Address)
  | minted (units : UInt64) (recipient : Address) (price cost : UInt64)
  | burned (units : UInt64) (holder : Address) (balance : UInt64)
  | withdrew (amount : UInt64) (recipient : Address)
  | reserved (units : UInt64) (buyer : Address) (price : UInt64) (phase : Phase)
  | revealStarted (reserved : UInt64) (deadline hardDeadline : Int64)
  | revealed (buyer : Address) (pending : UInt64) (deadline : Int64)
  | idsRevealed (slots forfeited : UInt64)
  | claimed (units : UInt64) (buyer : Address)
  deriving DecidableEq, Repr

/-- The line a notice is logged as, addresses written by the given function. -/
def Notice.text (write : Address → String) : Notice → String
  | script listing => "Sale script:\n" ++ listing
  | saleOpened number limit depth =>
    "Sale " ++ amount number ++ " initialized: supply_limit=" ++ amount limit
      ++ ", max_stack_depth=" ++ toString depth.toNat
  | vaultCreated vault mint =>
    "Payment vault " ++ write vault ++ " created for mint " ++ write mint
  | minted units recipient price cost =>
    "Minted " ++ amount units ++ " units to " ++ write recipient ++ " at " ++ amount price
      ++ " each (" ++ amount cost ++ " total)"
  | burned units holder balance =>
    "Burned " ++ amount units ++ " units from " ++ write holder ++ " (balance " ++ amount balance
      ++ ")"
  | withdrew sum recipient => "Withdrew " ++ amount sum ++ " to " ++ write recipient
  | reserved units buyer price phase =>
    "Reserved " ++ amount units ++ " units for " ++ write buyer ++ " at " ++ amount price
      ++ " each (phase " ++ phase.name ++ ")"
  | revealStarted total deadline hard =>
    "Reveal started: " ++ amount total ++ " units reserved, deadline " ++ time deadline
      ++ " (hard " ++ time hard ++ ")"
  | revealed buyer pending deadline =>
    "Secret revealed by " ++ write buyer ++ ": " ++ amount pending ++ " pending, deadline "
      ++ time deadline
  | idsRevealed slots forfeited =>
    "Ids revealed for " ++ amount slots ++ " slots, " ++ amount forfeited ++ " units forfeited"
  | claimed units buyer =>
    "Claimed " ++ amount units ++ " reserved units for " ++ write buyer
where
  /-- An amount in decimal. -/
  amount (n : UInt64) : String := toString n.toNat
  /-- A time in decimal. -/
  time (t : Int64) : String := toString t.toInt

/-- What an instruction that succeeds leaves. -/
structure Receipt where
  state : State
  reply : Reply
  notices : List Notice
  events : List Event

/-- Why an instruction was refused, and what it had logged by then. -/
structure Refusal where
  fault : Fault
  notices : List Notice
  deriving DecidableEq, Repr

/-- A refusal by the sale's rules. -/
def ruled {α : Type} (result : Except SaleError α) : Except Fault α := result.mapError Fault.sale

end UnitSale
