import UnitSale.Checked
import UnitSale.Update

/-!
# Phases and the reveal window

Reservations are taken while the phase is `opened`, until stock runs out (`reserved`) or the owner
starts the reveal (`revealing`). When every buyer has revealed (`revealed`), or the window has
closed, the ids can be drawn (`shuffled`). The window is a duration and how far late reveals may
push its end.
-/

namespace UnitSale

/-- How far the reservations of a sale have come. -/
inductive Phase
  | opened
  | reserved
  | revealing
  | revealed
  | shuffled
  deriving DecidableEq, Repr

/-- What moves a phase on. -/
inductive PhaseEvent
  /-- A reservation, which may have taken the last of the stock. -/
  | commit (capReached : Bool)
  | startReveal
  /-- A reveal, which may have been the last one due. -/
  | reveal (last : Bool)
  /-- The drawing of ids, possibly after the deadline. -/
  | shuffle (deadlinePassed : Bool)
  deriving DecidableEq, Repr

namespace Phase

/-- The next phase, if the event is allowed in this one. -/
def advance : Phase → PhaseEvent → Except SaleError Phase
  | opened, .commit false => .ok opened
  | opened, .commit true => .ok reserved
  | opened, .startReveal => .ok revealing
  | reserved, .startReveal => .ok revealing
  | revealing, .reveal false => .ok revealing
  | revealing, .reveal true => .ok revealed
  | revealing, .shuffle true => .ok shuffled
  | revealed, .shuffle _ => .ok shuffled
  | _, _ => .error .invalidPhaseTransition

/-- The name of a phase. -/
def name : Phase → String
  | opened => "Open"
  | reserved => "Reserved"
  | revealing => "Revealing"
  | revealed => "Revealed"
  | shuffled => "Shuffled"

/-- All phases in order. -/
def all : List Phase := [opened, reserved, revealing, revealed, shuffled]

/-- The phase of a name. -/
def ofName? (text : String) : Option Phase := all.find? fun p => p.name == text

end Phase

/-- Longest reveal window and longest extension, in seconds: thirty days. -/
def maxRevealSeconds : Int64 := 2592000

/-- How long a reveal window is open, and the extra time that late reveals may add. -/
structure TimeBound where
  baseDuration : Int64
  maxExtraTime : Int64
  deriving DecidableEq, Repr

namespace TimeBound

/-- No time at all. -/
def zero : TimeBound := ⟨0, 0⟩

/-- A window has a positive length, extra time is not negative, and neither exceeds the limit. -/
def Valid (b : TimeBound) : Prop :=
  (0 < b.baseDuration ∧ b.baseDuration ≤ maxRevealSeconds) ∧
    (0 ≤ b.maxExtraTime ∧ b.maxExtraTime ≤ maxRevealSeconds)

instance (b : TimeBound) : Decidable b.Valid := by
  unfold Valid
  infer_instance

/-- Refuses a bound that is not valid. -/
def validate (b : TimeBound) : Except SaleError Unit := require b.Valid .invalidTimeBound

end TimeBound
end UnitSale
