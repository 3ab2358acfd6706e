import UnitSale.Reveal.Shuffle
import UnitSale.Proofs.SaleTheorems

/-!
# What the steps of the protocol do

For each step of commit and reveal, exactly when it goes through on the records it is given, and
what it leaves there.
-/

namespace UnitSale
namespace Booking

open Update

variable {b : Booking} {hash secret seed : Bytes32} {units : UInt64} {now : Int64}
  {bound : TimeBound}

theorem attempt_onSale {α : Type} (u : Update Sale α) :
    (onSale u).attempt b
      = u.attempt b.sale >>= fun p => pure (p.1, { b with sale := p.2 }) := by
  simp only [onSale, attempt_within]

theorem attempt_modifyShuffle (f : Shuffle → Shuffle) :
    (modifyShuffle f).attempt b = .ok ((), { b with shuffle := f b.shuffle }) := rfl

theorem attempt_modifyCommitment (f : Commitment → Commitment) :
    (modifyCommitment f).attempt b = .ok ((), { b with commitment := f b.commitment }) := rfl

/-- Moving on sets the next phase, if there is one. -/
theorem attempt_advance (event : PhaseEvent) {r : Unit × Booking} :
    (advance event).attempt b = .ok r ↔
      ∃ phase, b.shuffle.phase.advance event = .ok phase ∧
        r = ((), { b with shuffle := { b.shuffle with phase := phase } }) := by
  cases h : b.shuffle.phase.advance event with
  | error e => simp [advance, h]
  | ok phase => simp [advance, h, attempt_modifyShuffle, eq_comm (b := r)]

theorem attempt_advance_eq_error (event : PhaseEvent) {cause : SaleError} :
    (advance event).attempt b = .error cause ↔ b.shuffle.phase.advance event = .error cause := by
  cases h : b.shuffle.phase.advance event with
  | error e => simp [advance, h]
  | ok phase => simp [advance, h, attempt_modifyShuffle]

/-- The phase after a reservation that leaves `available` units in stock. -/
def phaseAfterCommit (available : UInt64) : Phase :=
  if available = 0 then .reserved else .opened

/-- The phase after a reveal that leaves `pending` reservations to reveal. -/
def phaseAfterReveal (pending : UInt64) : Phase :=
  if pending = 0 then .revealed else .revealing

theorem phaseAfterCommit_ne_shuffled (available : UInt64) :
    phaseAfterCommit available ≠ .shuffled := by
  unfold phaseAfterCommit
  split <;> decide

theorem phaseAfterReveal_ne_shuffled (pending : UInt64) :
    phaseAfterReveal pending ≠ .shuffled := by
  unfold phaseAfterReveal
  split <;> decide

/-- A reservation always finds its next phase while reservations are open. -/
theorem advance_commit (available : UInt64) {phase : Phase} :
    Phase.opened.advance (.commit (available == 0)) = .ok phase
      ↔ phase = phaseAfterCommit available := by
  by_cases h : available = 0
  · simp [phaseAfterCommit, h, Phase.advance, eq_comm (b := phase)]
  · have hfalse : (available == 0) = false := beq_eq_false_iff_ne.mpr h
    simp [phaseAfterCommit, h, hfalse, Phase.advance, eq_comm (b := phase)]

/-- A reveal always finds its next phase while the window is open. -/
theorem advance_reveal (pending : UInt64) {phase : Phase} :
    Phase.revealing.advance (.reveal (pending == 0)) = .ok phase
      ↔ phase = phaseAfterReveal pending := by
  by_cases h : pending = 0
  · simp [phaseAfterReveal, h, Phase.advance, eq_comm (b := phase)]
  · have hfalse : (pending == 0) = false := beq_eq_false_iff_ne.mpr h
    simp [phaseAfterReveal, h, hfalse, Phase.advance, eq_comm (b := phase)]

/-- Units are reserved exactly when there are some to reserve, the reservation is new, reservations
are open and stock has that many. -/
theorem attempt_commit {r : Unit × Booking} : (commit hash units now).attempt b = .ok r ↔
    0 < units ∧ b.commitment.units = 0 ∧ b.shuffle.phase = .opened ∧ units ≤ b.sale.available ∧
      ∃ allocated reserved pending : UInt64,
        b.sale.allocated.toNat + units.toNat = allocated.toNat ∧
        b.shuffle.totalReserved.toNat + units.toNat = reserved.toNat ∧
        b.shuffle.pending.toNat + 1 = pending.toNat ∧
        r = ((), {
          sale := { b.sale with allocated := allocated }
          shuffle := { b.shuffle with
            totalReserved := reserved
            pending := pending
            phase := phaseAfterCommit ({ b.sale with allocated := allocated } : Sale).available }
          commitment := { b.commitment with
            hash := hash, units := units, slotStart := 0, status := .committed
            committedAt := now } }) := by
  cases hp : b.shuffle.phase
  case opened =>
    simp only [commit, hp, attempt_bind, attempt_get, attempt_require, attempt_demand,
      attempt_onSale, attempt_modifyShuffle, attempt_modifyCommitment, attempt_advance, ok_bind,
      bind_assoc, pure_bind, bind_eq_ok, require_eq_ok, demand_eq_ok, Sale.attempt_allocate,
      Checked.add_eq_some_iff, advance_commit]
    constructor
    · intro h
      obtain ⟨-, hpos, -, hnew, -, ⟨hstock, allocated, ha, rfl⟩, reserved, hr, pending, hn, -, rfl,
        rfl⟩ := h
      exact ⟨hpos, hnew, trivial, hstock, allocated, reserved, pending, ha, hr, hn, rfl⟩
    · intro h
      obtain ⟨hpos, hnew, -, hstock, allocated, reserved, pending, ha, hr, hn, rfl⟩ := h
      exact ⟨(), hpos, (), hnew, _, ⟨hstock, allocated, ha, rfl⟩, reserved, hr, pending, hn, _, rfl,
        rfl⟩
  -- in every other phase the update throws before it writes
  all_goals simp [commit, hp]

/-- The window opens exactly once something is reserved, with a valid bound that stays inside the
range of times. -/
theorem attempt_startReveal {r : Unit × Booking} : (startReveal seed bound now).attempt b = .ok r ↔
    (b.shuffle.phase = .opened ∨ b.shuffle.phase = .reserved) ∧ 0 < b.shuffle.totalReserved ∧
      bound.Valid ∧ ∃ deadline hardDeadline : Int64,
        Checked.addTime now bound.baseDuration = some deadline ∧
        Checked.addTime deadline bound.maxExtraTime = some hardDeadline ∧
        r = ((), { b with shuffle := { b.shuffle with
          seed := seed, timeBound := bound, revealStartedAt := now, deadline := deadline
          hardDeadline := hardDeadline, phase := .revealing } }) := by
  cases hp : b.shuffle.phase <;>
    simp [startReveal, hp, Phase.advance, attempt_modifyShuffle, eq_comm (b := r)]

/-- A secret is revealed exactly once, while the window is open, by the secret behind the digest. -/
theorem attempt_reveal {r : Unit × Booking} : (reveal secret now).attempt b = .ok r ↔
    (b.commitment.status = .committed ∧ 0 < b.commitment.units) ∧ b.shuffle.phase = .revealing ∧
      now ≤ b.shuffle.deadline ∧ commitmentHash secret = b.commitment.hash ∧
      ∃ revealed pending : UInt64,
        b.shuffle.revealedUnits.toNat + b.commitment.units.toNat = revealed.toNat ∧
        b.shuffle.pending.toNat = 1 + pending.toNat ∧
        r = ((), { b with
          shuffle := { b.shuffle with
            seed := accumulateSeed b.shuffle.seed secret
            deadline := b.shuffle.extendedDeadline now
            revealedUnits := revealed
            pending := pending
            phase := phaseAfterReveal pending }
          commitment := { b.commitment with
            status := .revealed, slotStart := b.shuffle.revealedUnits } }) := by
  simp only [reveal, attempt_bind, attempt_get, attempt_require, attempt_demand,
    attempt_modifyShuffle, attempt_modifyCommitment, attempt_advance, ok_bind, bind_assoc,
    pure_bind, bind_eq_ok, require_eq_ok, demand_eq_ok, Checked.add_eq_some_iff,
    Checked.sub_eq_some_iff]
  constructor
  · intro h
    obtain ⟨-, hfresh, -, hphase, -, htime, -, hhash, revealed, hr, pending, hn, phase, hnext, rfl⟩
      := h
    rw [hphase, advance_reveal] at hnext
    subst hnext
    exact ⟨hfresh, hphase, htime, hhash, revealed, pending, hr, hn, rfl⟩
  · intro h
    obtain ⟨hfresh, hphase, htime, hhash, revealed, pending, hr, hn, rfl⟩ := h
    refine ⟨(), hfresh, (), hphase, (), htime, (), hhash, revealed, hr, pending, hn, _, ?_, rfl⟩
    rw [hphase, advance_reveal]

/-- Ids are drawn exactly once everything is revealed or the window has closed. -/
theorem attempt_revealIds {r : UInt64 × Booking} : (revealIds now).attempt b = .ok r ↔
    (b.shuffle.phase = .revealed ∨ b.shuffle.phase = .revealing ∧ b.shuffle.deadline < now) ∧
      b.shuffle.revealedUnits.toNat < UInt32.size ∧
      ∃ forfeited allocated : UInt64,
        b.shuffle.totalReserved.toNat = b.shuffle.revealedUnits.toNat + forfeited.toNat ∧
        b.sale.allocated.toNat = forfeited.toNat + allocated.toNat ∧
        r = (forfeited, { b with
          sale := { b.sale with allocated := allocated }
          shuffle := { b.shuffle with
            permutation := permutation b.shuffle.seed b.shuffle.revealedUnits.toUInt32
            forfeitedUnits := forfeited
            phase := .shuffled } }) := by
  cases hp : b.shuffle.phase
  case revealing =>
    by_cases hlate : b.shuffle.deadline < now
    · simp [revealIds, hp, hlate, Phase.advance, attempt_onSale, attempt_modifyShuffle,
        Sale.attempt_release, Checked.sub_eq_some_iff, eq_comm (b := r), -bind_pure_comp]
    · simp [revealIds, hp, hlate]
  case revealed =>
    simp [revealIds, hp, Phase.advance, attempt_onSale, attempt_modifyShuffle,
      Sale.attempt_release, Checked.sub_eq_some_iff, eq_comm (b := r), -bind_pure_comp]
  all_goals simp [revealIds, hp]

/-- The ids of a reservation are handed out exactly once it is revealed, all ids are drawn and its
slots are among them. -/
theorem attempt_claim {r : List UInt32 × Booking} : claim.attempt b = .ok r ↔
    b.shuffle.phase = .shuffled ∧ b.commitment.status = .revealed ∧
      b.commitment.slotStart.toNat + b.commitment.units.toNat ≤ b.shuffle.permutation.length ∧
      b.commitment.slotStart.toNat + b.commitment.units.toNat < UInt64.size ∧
      r = ((b.shuffle.permutation.drop b.commitment.slotStart.toNat).take b.commitment.units.toNat,
        { b with commitment := { b.commitment with status := .claimed } }) := by
  cases hp : b.shuffle.phase
  case shuffled =>
    cases hs : b.commitment.status
    case revealed =>
      simp only [claim, hp, hs, attempt_bind, attempt_get, attempt_require, attempt_demand,
        attempt_modifyCommitment, attempt_pure, ok_bind, bind_assoc, pure_bind, bind_eq_ok,
        require_eq_ok, demand_eq_ok, Checked.add_eq_some_iff, Except.ok.injEq]
      constructor
      · intro h
        obtain ⟨-, -, stop, hstop, -, hinside, rfl⟩ := h
        exact ⟨trivial, trivial, by omega, by rw [hstop]; exact stop.toNat_lt, rfl⟩
      · intro h
        obtain ⟨-, -, hinside, hfits, rfl⟩ := h
        have hstop : b.commitment.slotStart.toNat + b.commitment.units.toNat
            = (b.commitment.slotStart + b.commitment.units).toNat := by
          rw [UInt64.toNat_add, Nat.mod_eq_of_lt hfits]
        exact ⟨(), trivial, _, hstop, (), hstop ▸ hinside, rfl⟩
    all_goals simp [claim, hp, hs]
  -- before the ids are drawn nothing can be claimed
  all_goals simp [claim, hp]

end Booking
end UnitSale
