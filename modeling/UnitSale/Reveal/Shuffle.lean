import UnitSale.Reveal.Draws
import UnitSale.Reveal.Phase
import UnitSale.Sale.Basic

/-!
# Commit and reveal

Buyers reserve units behind the digest of a secret and reveal the secret later. Every revealed
secret is folded into one seed, revealed reservations get slots in the order of their reveals, and
the ids of all slots are a permutation drawn from the final seed. Units that nobody revealed go back
to stock.
-/

namespace UnitSale

/-! ## Records -/

/-- How far one reservation has come. -/
inductive CommitmentStatus
  | committed
  | revealed
  | claimed
  deriving DecidableEq, Repr

namespace CommitmentStatus

/-- The name of a status. -/
def name : CommitmentStatus → String
  | committed => "Committed"
  | revealed => "Revealed"
  | claimed => "Claimed"

/-- All statuses in order. -/
def all : List CommitmentStatus := [committed, revealed, claimed]

/-- The status of a name. -/
def ofName? (text : String) : Option CommitmentStatus := all.find? fun s => s.name == text

end CommitmentStatus

/-- The reservation of one buyer. -/
structure Commitment where
  sale : Address
  buyer : Address
  hash : Bytes32
  units : UInt64
  /-- The first slot of the reservation, given at its reveal. -/
  slotStart : UInt64
  status : CommitmentStatus
  committedAt : Int64
  bump : UInt8
  deriving DecidableEq, Repr

/-- What all reservations of a sale add up to. -/
structure Shuffle where
  sale : Address
  phase : Phase
  totalReserved : UInt64
  /-- Reservations not revealed yet. -/
  pending : UInt64
  revealedUnits : UInt64
  forfeitedUnits : UInt64
  seed : Bytes32
  timeBound : TimeBound
  revealStartedAt : Int64
  deadline : Int64
  hardDeadline : Int64
  bump : UInt8
  /-- The id of each slot, empty until the ids are drawn. -/
  permutation : List UInt32
  deriving DecidableEq, Repr

/-- The records that a step of the protocol works on: the sale, its shuffle and one reservation. -/
structure Booking where
  sale : Sale
  shuffle : Shuffle
  commitment : Commitment
  deriving DecidableEq, Repr

namespace Commitment

/-- A reservation that has not been made. -/
def blank : Commitment :=
  ⟨.zero, .zero, Bytes32.zero, 0, 0, .committed, 0, 0⟩

/-- Bytes a reservation takes, its discriminator included. -/
def space : Nat := 8 + 32 + 32 + 32 + 8 + 8 + 1 + 8 + 1

end Commitment

namespace Shuffle

/-- The shuffle of a sale without reservations. -/
def blank : Shuffle where
  sale := .zero
  phase := .opened
  totalReserved := 0
  pending := 0
  revealedUnits := 0
  forfeitedUnits := 0
  seed := Bytes32.zero
  timeBound := .zero
  revealStartedAt := 0
  deadline := 0
  hardDeadline := 0
  bump := 0
  permutation := []

/-- Bytes a shuffle takes at most in a sale with the given limit, its discriminator included. -/
def space (supplyLimit : UInt64) : Nat :=
  8 + 32 + 1 + (8 + 8 + 8 + 8) + 32 + 16 + (8 + 8 + 8) + 1 + 4
    + 4 * (Checked.least supplyLimit maxSupplyLimit).toNat

/-- The shuffle bound to a sale. -/
def bind (s : Shuffle) (sale : Address) (bump : UInt8) : Shuffle :=
  { s with sale := sale, bump := bump }

/-- The deadline after a reveal at `now`: pushed out so that the extra time remains, but never past
the hard deadline. -/
def extendedDeadline (s : Shuffle) (now : Int64) : Int64 :=
  let extra := s.timeBound.maxExtraTime
  if Checked.clampedSub s.deadline now < extra then
    let pushed := Checked.clampedAdd now extra
    if pushed ≤ s.hardDeadline then pushed else s.hardDeadline
  else s.deadline

end Shuffle

/-! ## Steps -/

namespace Booking

/-- Runs an update of the sale. -/
def onSale {α : Type} (u : Update Sale α) : Update Booking α :=
  u.within Booking.sale fun sale b => { b with sale := sale }

/-- Writes the shuffle. -/
def modifyShuffle (f : Shuffle → Shuffle) : Update Booking Unit :=
  modify fun b => { b with shuffle := f b.shuffle }

/-- Writes the reservation. -/
def modifyCommitment (f : Commitment → Commitment) : Update Booking Unit :=
  modify fun b => { b with commitment := f b.commitment }

/-- Moves the phase on. -/
def advance (event : PhaseEvent) : Update Booking Unit := do
  match (← get).shuffle.phase.advance event with
  | .ok phase => modifyShuffle fun s => { s with phase := phase }
  | .error cause => throw cause

/-- Reserves units of the sale's stock behind a digest. -/
def commit (hash : Bytes32) (units : UInt64) (now : Int64) : Update Booking Unit := do
  let b ← get
  require (0 < units) SaleError.zeroUnits
  require (b.commitment.units = 0) SaleError.alreadyCommitted
  match b.shuffle.phase with
  | .opened => pure ()
  | .reserved => throw .maxLimit
  | _ => throw .reservationsClosed
  onSale (Sale.allocate units)
  modifyCommitment fun c => { c with
    hash := hash, units := units, slotStart := 0, status := .committed, committedAt := now }
  let reserved ← demand (Checked.add b.shuffle.totalReserved units) SaleError.overflow
  modifyShuffle fun s => { s with totalReserved := reserved }
  let pending ← demand (Checked.add b.shuffle.pending 1) SaleError.overflow
  modifyShuffle fun s => { s with pending := pending }
  advance (.commit ((← get).sale.available == 0))

/-- Opens the reveal window. -/
def startReveal (seed : Bytes32) (bound : TimeBound) (now : Int64) : Update Booking Unit := do
  let s := (← get).shuffle
  let phase ← match s.phase.advance .startReveal with
    | .ok phase => pure phase
    | .error cause => throw cause
  require (0 < s.totalReserved) SaleError.nothingReserved
  require bound.Valid SaleError.invalidTimeBound
  let deadline ← demand (Checked.addTime now bound.baseDuration) SaleError.overflow
  let hardDeadline ← demand (Checked.addTime deadline bound.maxExtraTime) SaleError.overflow
  modifyShuffle fun s => { s with
    seed := seed, timeBound := bound, revealStartedAt := now, deadline := deadline,
    hardDeadline := hardDeadline, phase := phase }

/-- Reveals a secret: the seed takes it in, the deadline may move, the reservation gets its slots.
-/
def reveal (secret : Bytes32) (now : Int64) : Update Booking Unit := do
  let b ← get
  let s := b.shuffle
  let c := b.commitment
  require (c.status = .committed ∧ 0 < c.units) SaleError.noCommitment
  require (s.phase = .revealing) SaleError.notRevealing
  require (now ≤ s.deadline) SaleError.revealWindowClosed
  require (commitmentHash secret = c.hash) SaleError.cannotReveal
  modifyShuffle fun s => { s with
    seed := accumulateSeed s.seed secret, deadline := s.extendedDeadline now }
  modifyCommitment fun c => { c with status := .revealed, slotStart := s.revealedUnits }
  let revealed ← demand (Checked.add s.revealedUnits c.units) SaleError.overflow
  modifyShuffle fun s => { s with revealedUnits := revealed }
  let pending ← demand (Checked.sub s.pending 1) SaleError.overflow
  modifyShuffle fun s => { s with pending := pending }
  advance (.reveal (pending == 0))

/-- Draws the ids of all revealed slots. Units that were not revealed go back to stock; their number
is the result. -/
def revealIds (now : Int64) : Update Booking UInt64 := do
  let s := (← get).shuffle
  match s.phase with
  | .shuffled => throw .alreadyShuffled
  | .opened | .reserved => throw .notRevealing
  | .revealing => require (s.deadline < now) SaleError.revealsPending
  | .revealed => pure ()
  let phase ← match s.phase.advance (.shuffle (decide (s.deadline < now))) with
    | .ok phase => pure phase
    | .error cause => throw cause
  require (s.revealedUnits.toNat < UInt32.size) SaleError.overflow
  let forfeited ← demand (Checked.sub s.totalReserved s.revealedUnits) SaleError.overflow
  onSale (Sale.release forfeited)
  modifyShuffle fun s => { s with
    permutation := permutation s.seed s.revealedUnits.toUInt32, forfeitedUnits := forfeited,
    phase := phase }
  return forfeited

/-- Hands out the ids of a revealed reservation: the slice of the permutation that its slots cover.
-/
def claim : Update Booking (List UInt32) := do
  let b ← get
  let c := b.commitment
  require (b.shuffle.phase = .shuffled) SaleError.notShuffled
  match c.status with
  | .revealed => pure ()
  | .committed => throw .notRevealed
  | .claimed => throw .alreadyClaimed
  let stop ← demand (Checked.add c.slotStart c.units) SaleError.overflow
  require (stop.toNat ≤ b.shuffle.permutation.length) SaleError.overflow
  modifyCommitment fun c => { c with status := .claimed }
  return (b.shuffle.permutation.drop c.slotStart.toNat).take c.units.toNat

end Booking
end UnitSale
