import UnitSale.Chain.Trading

/-!
# Reservations

The protocol of commit and reveal over the accounts of a sale: buyers pay for units behind a digest,
the owner opens the window, buyers reveal, anyone draws the ids, and buyers claim theirs.
-/

namespace UnitSale
namespace State

/-- The state with a commitment at an address, which is created if it is not there. -/
def withCommitment (st : State) (payer address : Address) : Except Fault (State × Commitment) :=
  match st.commitments.find? address with
  | some commitment => .ok (st, commitment)
  | none => do
    let st ← st.create payer address false Commitment.space
    return (st.setCommitment address .blank, .blank)

/-- Reserves units for the signer, priced with the ledger the caller brings. -/
def commit (st : State) (signer : Signer) (sale shuffle commitment : Address)
    (ledger : Option Address) (hash : Bytes32) (units maximumPrice : UInt64)
    (parties : TokenParties) : Except Fault Receipt := do
  let record ← load st.sales sale
  let draw ← load st.shuffles shuffle
  let held ← ledger.mapM (load st.ledgers)
  let buyer ← signer.verified
  parties.load st
  checkSeeds commitment (.commitment sale buyer)
  let (st, reservation) ← st.withCommitment buyer commitment
  checkSeeds shuffle (.shuffle sale)
  match ledger with
  | some l => checkSeeds l (.ledger sale buyer)
  | none => pure ()
  parties.checkVault sale
  let quote ← record.quoteFor buyer held units st.now
  let cost ← ruled (quote.reservationCost units maximumPrice)
  let st ← st.collect sale record.terms.currency buyer parties cost
  let ((), booking) ←
    ruled ((Booking.commit hash units st.now).attempt ⟨record, draw, reservation⟩)
  let reservation := { booking.commitment with sale := sale, buyer := buyer, bump := bump }
  let ((), record) ← ruled ((Sale.recordPayment cost).attempt booking.sale)
  return {
    state := ((st.setSale sale record).setShuffle shuffle booking.shuffle).setCommitment commitment
      reservation
    reply := .none
    notices := [.reserved units buyer quote.price booking.shuffle.phase]
    events := [.reservationCommitted sale buyer units cost] }

/-- Opens the reveal window of a sale. -/
def startReveal (st : State) (signer : Signer) (sale shuffle : Address) (seed : Bytes32)
    (bound : TimeBound) : Except Fault Receipt := do
  let record ← load st.sales sale
  let draw ← load st.shuffles shuffle
  let owner ← signer.verified
  require (owner = record.terms.owner) (Fault.sale .unauthorized)
  checkSeeds shuffle (.shuffle sale)
  let ((), booking) ←
    ruled ((Booking.startReveal seed bound st.now).attempt ⟨record, draw, .blank⟩)
  let draw := booking.shuffle
  return {
    state := st.setShuffle shuffle draw
    reply := .none
    notices := [.revealStarted draw.totalReserved draw.deadline draw.hardDeadline]
    events := [.revealStarted sale draw.totalReserved draw.deadline draw.hardDeadline] }

/-- Reveals the secret of the signer's reservation. -/
def reveal (st : State) (signer : Signer) (sale shuffle commitment : Address) (secret : Bytes32) :
    Except Fault Receipt := do
  let record ← load st.sales sale
  let draw ← load st.shuffles shuffle
  let reservation ← load st.commitments commitment
  let buyer ← signer.verified
  checkSeeds shuffle (.shuffle sale)
  checkSeeds commitment (.commitment sale buyer)
  require (reservation.buyer = buyer) (Fault.sale .unauthorized)
  let ((), booking) ←
    ruled ((Booking.reveal secret st.now).attempt ⟨record, draw, reservation⟩)
  let draw := booking.shuffle
  let reservation := booking.commitment
  return {
    state := (st.setShuffle shuffle draw).setCommitment commitment reservation
    reply := .none
    notices := [.revealed buyer draw.pending draw.deadline]
    events := [.secretRevealed sale buyer reservation.units reservation.slotStart draw.deadline] }

/-- Draws the ids of a sale. -/
def revealIds (st : State) (signer : Signer) (sale shuffle : Address) : Except Fault Receipt := do
  let record ← load st.sales sale
  let draw ← load st.shuffles shuffle
  let _caller ← signer.verified
  checkSeeds shuffle (.shuffle sale)
  let (forfeited, booking) ←
    ruled ((Booking.revealIds st.now).attempt ⟨record, draw, .blank⟩)
  let draw := booking.shuffle
  return {
    state := (st.setSale sale booking.sale).setShuffle shuffle draw
    reply := .none
    notices := [.idsRevealed draw.totalReserved forfeited]
    events := [.idsRevealed sale draw.totalReserved forfeited] }

/-- Hands the signer the ids of a revealed reservation. -/
def claimReserved (st : State) (signer : Signer) (sale shuffle commitment ledger : Address) :
    Except Fault Receipt := do
  let record ← load st.sales sale
  let draw ← load st.shuffles shuffle
  let reservation ← load st.commitments commitment
  let buyer ← signer.verified
  checkSeeds ledger (.ledger sale buyer)
  let (st, holding) ← st.withLedger buyer ledger
  checkSeeds shuffle (.shuffle sale)
  checkSeeds commitment (.commitment sale buyer)
  require (reservation.buyer = buyer) (Fault.sale .unauthorized)
  let (ids, booking) ← ruled (Booking.claim.attempt ⟨record, draw, reservation⟩)
  let units := booking.commitment.units
  let ((), record) ← ruled ((Sale.recordClaim units).attempt booking.sale)
  let ((), holding) ← ruled ((Ledger.recordMint units).attempt (holding.bind sale buyer bump))
  return {
    state := ((st.setSale sale record).setCommitment commitment booking.commitment).setLedger ledger
      holding
    reply := .none
    notices := [.claimed units buyer]
    events := [.reservationClaimed sale buyer ids] }

end State
end UnitSale
