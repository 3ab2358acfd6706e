import UnitSale.Proofs.BooksTheorems
import UnitSale.Proofs.DrawsTheorems

/-!
# Runs of the chain

A run is any sequence of calls by anybody, accepted or refused, with anything in between that the
rest of the world may do. The program alone writes the books and debits the addresses it has derived;
the world sets the clock, moves what ordinary keys own and may add to any account.
-/

namespace UnitSale
namespace State

/-- Nothing has been recorded yet: no sales, and no token accounts but at ordinary keys. -/
structure Fresh (st : State) : Prop where
  books_eq : st.books = ⟨.empty, .empty, .empty, .empty⟩
  tokens_key : ∀ a t, st.tokens.find? a = some t → a.IsKey

/-- Accounts at derived addresses lose nothing. -/
structure Secure (st st' : State) : Prop where
  balance_le : ∀ a, ¬ a.IsKey → st.balance a ≤ st'.balance a
  tokens_kept : ∀ a t, ¬ a.IsKey → st.tokens.find? a = some t →
    ∃ amount, t.amount ≤ amount ∧ st'.tokens.find? a = some { t with amount := amount }

/-- What may happen between two calls. The clock, the price of storage, the mints and the accounts
of ordinary keys change in any way. The books stay. Accounts at derived addresses lose nothing, and
no token account comes to be at one. -/
structure Outside (st st' : State) : Prop extends Secure st st' where
  books_eq : st'.books = st.books
  tokens_none : ∀ a, ¬ a.IsKey → st.tokens.find? a = none → st'.tokens.find? a = none

/-- No coins and no tokens have moved. -/
theorem Secure.of_eq {st st' : State} (hcoins : st'.coins = st.coins)
    (htokens : st'.tokens = st.tokens) : Secure st st' where
  balance_le := by
    intro a _
    unfold balance
    rw [hcoins]
    exact UInt64.le_refl _
  tokens_kept := by
    intro a t _ ht
    rw [htokens]
    exact ⟨t.amount, UInt64.le_refl _, ht⟩

end State

/-- A call that was accepted: the state it was sent to and what came of it. -/
structure Entry where
  before : State
  call : Call
  receipt : Receipt
  accepted : before.execute call = .ok receipt

/-- A run from a state: the accepted calls in order and the state reached. -/
inductive Run (start : State) : List Entry → State → Prop
  | start : Run start [] start
  | accepted {trace : List Entry} (e : Entry) : Run start trace e.before →
      Run start (trace ++ [e]) e.receipt.state
  | refused {trace : List Entry} {st : State} {call : Call} {refusal : Refusal} :
      Run start trace st → st.execute call = .error refusal → Run start trace (st.after call)
  | outside {trace : List Entry} {st st' : State} : Run start trace st → st.Outside st' →
      Run start trace st'

namespace Entry

theorem accepted_case (e : Entry) :
    e.before.Accepted e.call.signer e.call.instruction e.receipt :=
  State.accepted_of_run e.accepted

end Entry

theorem State.after_of_error {st : State} {call : Call} {refusal : Refusal}
    (h : st.execute call = .error refusal) : st.after call = st := by
  unfold after
  rw [h]

theorem State.after_of_ok {st : State} {call : Call} {receipt : Receipt}
    (h : st.execute call = .ok receipt) : st.after call = receipt.state := by
  unfold after
  rw [h]

namespace Run

variable {start st : State} {trace : List Entry}

/-- What holds at the start and is kept by accepted calls and by the world holds after every run. -/
theorem invariant {P : List Entry → State → Prop} (hstart : P [] start)
    (haccepted : ∀ (trace : List Entry) (e : Entry), Run start trace e.before →
      P trace e.before → P (trace ++ [e]) e.receipt.state)
    (houtside : ∀ (trace : List Entry) (st st' : State), st.Outside st' → P trace st → P trace st')
    (h : Run start trace st) : P trace st := by
  induction h with
  | start => exact hstart
  | accepted e hrun ih => exact haccepted _ e hrun ih
  | refused _ herror ih =>
    rw [State.after_of_error herror]
    exact ih
  | outside _ hout ih => exact houtside _ _ _ hout ih

theorem trans {mid : State} {later : List Entry} (h : Run start trace mid)
    (h' : Run mid later st) : Run start (trace ++ later) st := by
  induction h' with
  | start =>
    rw [List.append_nil]
    exact h
  | accepted e _ ih =>
    rw [← List.append_assoc]
    exact ih.accepted e
  | refused _ herror ih => exact ih.refused herror
  | outside _ hout ih => exact ih.outside hout

/-- Every accepted call of a run was sent to a state that the calls before it have reached. -/
theorem before_of_eq {earlier later : List Entry} {e : Entry} (h : Run start trace st)
    (htrace : trace = earlier ++ e :: later) : Run start earlier e.before := by
  induction h generalizing later with
  | start => simp at htrace
  | accepted e' hrun ih =>
    -- the entry is the one just accepted, or it lies further back in the run
    rcases List.eq_nil_or_concat later with rfl | ⟨rest, last, rfl⟩
    · obtain ⟨rfl, hlast⟩ := List.append_inj' htrace rfl
      obtain rfl : e' = e := by simpa using hlast
      exact hrun
    · rw [List.concat_eq_append, ← List.cons_append, ← List.append_assoc] at htrace
      exact ih (List.append_inj' htrace rfl).1
  | refused _ _ ih => exact ih htrace
  | outside _ _ ih => exact ih htrace

theorem atTime (h : Run start trace st) (now : Int64) : Run start trace (st.atTime now) :=
  h.outside {
    toSecure := .of_eq rfl rfl
    books_eq := rfl
    tokens_none := fun _ _ ht => ht }

end Run

/-! ## Runs of given calls -/

namespace State

/-- A call as an entry, if it is accepted. -/
def entry (st : State) (call : Call) : List Entry :=
  match h : st.execute call with
  | .ok receipt => [⟨st, call, receipt, h⟩]
  | .error _ => []

theorem entry_of_ok {st : State} {call : Call} {receipt : Receipt}
    (h : st.execute call = .ok receipt) : st.entry call = [⟨st, call, receipt, h⟩] := by
  unfold entry
  split
  · next receipt' hok =>
    obtain rfl : receipt = receipt' := Except.ok.inj (h.symm.trans hok)
    rfl
  · next herror => cases h.symm.trans herror

/-- The state after calls, each sent at its own time. -/
def afterCalls : State → List (Int64 × Call) → State
  | st, [] => st
  | st, (now, call) :: rest => ((st.atTime now).after call).afterCalls rest

/-- The accepted ones of calls, each sent at its own time. -/
def entries : State → List (Int64 × Call) → List Entry
  | _, [] => []
  | st, (now, call) :: rest =>
    (st.atTime now).entry call ++ ((st.atTime now).after call).entries rest

end State

namespace Run

variable {start st : State} {trace : List Entry}

/-- One more call, accepted or not. -/
theorem call (h : Run start trace st) (call : Call) :
    Run start (trace ++ st.entry call) (st.after call) := by
  unfold State.entry
  split
  · next receipt hok =>
    rw [State.after_of_ok hok]
    exact h.accepted ⟨st, call, receipt, hok⟩
  · next refusal herror =>
    rw [List.append_nil]
    exact h.refused herror

/-- Any list of calls makes a run. -/
theorem calls (h : Run start trace st) (calls : List (Int64 × Call)) :
    Run start (trace ++ st.entries calls) (st.afterCalls calls) := by
  induction calls generalizing trace st with
  | nil =>
    rw [State.entries, State.afterCalls, List.append_nil]
    exact h
  | cons timed rest ih =>
    rw [State.entries, State.afterCalls, ← List.append_assoc]
    exact ih ((h.atTime timed.1).call timed.2)

end Run

/-! ## A small sale -/

namespace Sample

/-- The owner's key. -/
def owner : Bytes32 := Vector.replicate 32 1

/-- The address of the owner's sale. -/
def sale : Address := .sale (.key owner) 7

/-- A hundred units, up to fifty at a time, for five coins each. -/
def config : SaleConfig where
  script := ⟨[[⟨0, 0⟩, ⟨0, 1⟩]], [50, 5]⟩
  supplyLimit := 100
  maxPerWallet := 0
  currency := .native
  recipient := .key owner
  delegatedMinter := none
  royaltyBps := 0
  royaltyRecipient := .key owner

/-- Nothing but the owner's coins. -/
def start : State where
  now := 0
  rentPerByte := 1
  mints := []
  coins := .ofList [(.key owner, 1000000)]
  tokens := .empty
  sales := .empty
  shuffles := .empty
  ledgers := .empty
  commitments := .empty

/-- Opens the sale. -/
def opening : Call := ⟨owner, true, .openSale sale (.shuffle sale) 7 config⟩

/-- The state with the sale opened. -/
def opened : State := start.afterCalls [(0, opening)]

theorem start_fresh : start.Fresh where
  books_eq := rfl
  tokens_key := fun _ _ h => by cases h

theorem run_opened : Run start (start.entries [(0, opening)]) opened :=
  Run.start.calls [(0, opening)]

/-! ## A sale that counts what a wallet has -/

/-- The address of the owner's other sale. -/
def capped : Address := .sale (.key owner) 8

/-- Four units for each wallet, less those it has minted, at a hundred coins and fifty more for each
of these. -/
def cappedConfig : SaleConfig := { config with
  script := ⟨[[⟨0, 0⟩, ⟨1, 0⟩, ⟨21, 0⟩, ⟨5, 2⟩, ⟨0, 1⟩, ⟨0, 2⟩, ⟨1, 0⟩, ⟨21, 0⟩, ⟨6, 2⟩, ⟨3, 2⟩]],
    [4, 100, 50]⟩ }

/-- Opens the other sale. -/
def cappedOpening : Call := ⟨owner, true, .openSale capped (.shuffle capped) 8 cappedConfig⟩

/-- The state with the other sale opened. -/
def cappedOpened : State := start.afterCalls [(0, cappedOpening)]

/-- The call goes through and leaves the other sale opened. -/
theorem cappedOpening_ok :
    ∃ receipt, start.execute cappedOpening = .ok receipt ∧ receipt.state = cappedOpened := by
  have hok : (start.execute cappedOpening).toOption.isSome = true := by decide +kernel
  cases h : start.execute cappedOpening with
  | ok receipt => exact ⟨receipt, rfl, (State.after_of_ok h).symm⟩
  | error refusal =>
    rw [h] at hok
    cases hok

/-- The other sale as it is opened. -/
def cappedRecord : Sale := State.openedSale (.key owner) 8 cappedConfig 4

/-- The owner's ledger in the other sale. -/
def holding : Address := .ledger capped (.key owner)

/-- Buys three units. -/
def buying : Call := ⟨owner, true, .mint capped holding (.key owner) ⟨3, 3, 1000⟩ .none⟩

/-- The other sale after that. -/
def soldRecord : Sale := { cappedRecord with allocated := 3, totalMinted := 3, amountPaid := 300 }

/-- The state with three units sold for three hundred coins. -/
def sold : State := { cappedOpened with
  coins := .ofList
    [(.key owner, 998256), (capped, 849), (.shuffle capped, 678), (holding, 217)]
  sales := .ofList [(capped, soldRecord)]
  ledgers := .ofList [(holding, ⟨capped, .key owner, 3, 0, 255⟩)] }

theorem buying_ok : cappedOpened.execute buying
    = .ok ⟨sold, .none, [.minted 3 (.key owner) 100 300],
      [.unitsMinted capped (.key owner) (.key owner) 3 100 300]⟩ := by
  have hrun : cappedOpened.execute buying = State.run.silent (cappedOpened.purchase
    ⟨.key owner, true⟩ .recipient capped holding (.key owner) ⟨3, 3, 1000⟩ .none) := rfl
  have hload : State.load cappedOpened.sales capped = .ok cappedRecord := rfl
  have hpinned : Sale.table.fingerprint = cappedRecord.terms.fingerprint := rfl
  rw [hrun]
  unfold State.purchase
  rw [hload, ok_bind]
  -- the table is not compared byte by byte, it is the same table
  simp only [Sale.quoteFor, Sale.wordQuote_of_pinned hpinned]
  rfl

theorem run_sold : ∃ trace, Run start trace sold :=
  ⟨_, (Run.start.calls _).accepted ⟨cappedOpened, buying, _, buying_ok⟩⟩

/-- Reserves units of the other sale, with or without the owner's ledger. -/
def reserving (brought : Option Address) (units : UInt64) : Call :=
  ⟨owner, true, .commit capped (.shuffle capped) (.commitment capped (.key owner)) brought
    (commitmentHash (Vector.replicate 32 9)) units 1000 .none⟩

/-- The other sale with four units reserved. -/
def reservedRecord : Sale := { soldRecord with allocated := 7, amountPaid := 700 }

/-- The owner's reservation. -/
def reservation : Commitment :=
  ⟨capped, .key owner, commitmentHash (Vector.replicate 32 9), 4, 0, .committed, 0, 255⟩

/-- The state with four units reserved for four hundred coins. -/
def reserved : State := { sold with
  coins := .ofList [(.key owner, 997598), (capped, 1249), (.shuffle capped, 678), (holding, 217),
    (.commitment capped (.key owner), 258)]
  sales := .ofList [(capped, reservedRecord)]
  shuffles := .ofList
    [(.shuffle capped, { Shuffle.blank.bind capped 255 with totalReserved := 4, pending := 1 })]
  commitments := .ofList [(.commitment capped (.key owner), reservation)] }

/-- One unit is reserved with the ledger, four are without it. -/
theorem reserving_ok :
    (∃ receipt, sold.execute (reserving (some holding) 1) = .ok receipt) ∧
    sold.execute (reserving none 4)
      = .ok ⟨reserved, .none, [.reserved 4 (.key owner) 100 .opened],
        [.reservationCommitted capped (.key owner) 4 400]⟩ := by
  have hrun : ∀ brought units, sold.execute (reserving brought units) = State.run.silent
    (sold.commit ⟨.key owner, true⟩ capped (.shuffle capped) (.commitment capped (.key owner))
      brought (commitmentHash (Vector.replicate 32 9)) units 1000 .none) := fun _ _ => rfl
  have hload : State.load sold.sales capped = .ok soldRecord := rfl
  have hpinned : Sale.table.fingerprint = soldRecord.terms.fingerprint := rfl
  rw [hrun, hrun]
  unfold State.commit
  rw [hload, ok_bind, ok_bind]
  simp only [Sale.quoteFor, Sale.wordQuote_of_pinned hpinned]
  exact ⟨⟨_, rfl⟩, rfl⟩

theorem run_reserved : ∃ trace, Run start trace reserved := by
  obtain ⟨trace, hrun⟩ := run_sold
  exact ⟨_, hrun.accepted ⟨sold, reserving none 4, _, reserving_ok.2⟩⟩

/-! ## A sale that is drawn -/

/-- Opens the reveal window of the other sale for a minute, which late reveals may double. -/
def windowing : Call :=
  ⟨owner, true, .startReveal capped (.shuffle capped) (Vector.replicate 32 5) ⟨60, 60⟩⟩

/-- The shuffle of the other sale while its window is open. -/
def windowedDraw : Shuffle := { Shuffle.blank.bind capped 255 with
  phase := .revealing
  totalReserved := 4
  pending := 1
  seed := Vector.replicate 32 5
  timeBound := ⟨60, 60⟩
  deadline := 60
  hardDeadline := 120 }

/-- The state with the window open. -/
def windowed : State := { reserved with shuffles := .ofList [(.shuffle capped, windowedDraw)] }

theorem windowing_ok : reserved.execute windowing
    = .ok ⟨windowed, .none, [.revealStarted 4 60 120], [.revealStarted capped 4 60 120]⟩ := rfl

theorem run_windowed : ∃ trace, Run start trace windowed := by
  obtain ⟨trace, hrun⟩ := run_reserved
  exact ⟨_, hrun.accepted ⟨reserved, windowing, _, windowing_ok⟩⟩

/-- Reveals the secret of the owner's reservation. -/
def revealing : Call :=
  ⟨owner, true, .reveal capped (.shuffle capped) (.commitment capped (.key owner))
    (Vector.replicate 32 9)⟩

/-- The shuffle of the other sale after the reveal. -/
def disclosedDraw (now : Int64) : Shuffle := { windowedDraw with
  phase := .revealed
  pending := 0
  revealedUnits := 4
  seed := accumulateSeed windowedDraw.seed (Vector.replicate 32 9)
  deadline := windowedDraw.extendedDeadline now }

/-- The owner's reservation once it is revealed. -/
def disclosedReservation : Commitment := { reservation with status := .revealed }

/-- The state after the reveal. -/
def disclosed (now : Int64) : State := { windowed with
  now := now
  shuffles := .ofList [(.shuffle capped, disclosedDraw now)]
  commitments := .ofList [(.commitment capped (.key owner), disclosedReservation)] }

/-- What the reveal leaves. -/
def disclosedReceipt (now : Int64) : Receipt :=
  ⟨disclosed now, .none, [.revealed (.key owner) 0 (windowedDraw.extendedDeadline now)],
    [.secretRevealed capped (.key owner) 4 0 (windowedDraw.extendedDeadline now)]⟩

theorem revealing_ok {now : Int64} (h : now ≤ 60) :
    (windowed.atTime now).execute revealing = .ok (disclosedReceipt now) := by
  have hrun : (windowed.atTime now).execute revealing = State.run.silent
    ((windowed.atTime now).reveal ⟨.key owner, true⟩ capped (.shuffle capped)
      (.commitment capped (.key owner)) (Vector.replicate 32 9)) := rfl
  have hstep : ∀ record, (Booking.reveal (Vector.replicate 32 9) now).attempt
      ⟨record, windowedDraw, reservation⟩
        = .ok ((), ⟨record, disclosedDraw now, disclosedReservation⟩) := by
    intro record
    have hunits : 0 < reservation.units := by decide
    exact Booking.attempt_reveal.mpr ⟨⟨rfl, hunits⟩, rfl, h, rfl, 4, 0, rfl, rfl, rfl⟩
  rw [hrun]
  unfold State.reveal
  have hsale : State.load (windowed.atTime now).sales capped = .ok reservedRecord := rfl
  have hdraw : State.load (windowed.atTime now).shuffles (.shuffle capped) = .ok windowedDraw := rfl
  have hreservation : State.load (windowed.atTime now).commitments
      (.commitment capped (.key owner)) = .ok reservation := rfl
  rw [hsale, hdraw, hreservation]
  simp only [ok_bind]
  rw [show (windowed.atTime now).now = now from rfl, hstep]
  rfl

/-- Draws the ids. -/
def drawing : Call := ⟨owner, true, .revealIds capped (.shuffle capped)⟩

/-- The shuffle of the other sale with the ids drawn. -/
def drawnDraw (now : Int64) : Shuffle := { disclosedDraw now with
  phase := .shuffled
  permutation := permutation (disclosedDraw now).seed 4 }

/-- The state with the ids drawn. -/
def drawn (now : Int64) : State := { disclosed now with
  shuffles := .ofList [(.shuffle capped, drawnDraw now)] }

/-- What the drawing leaves. -/
def drawnReceipt (now : Int64) : Receipt :=
  ⟨drawn now, .none, [.idsRevealed 4 0], [.idsRevealed capped 4 0]⟩

theorem drawing_ok (now : Int64) : (disclosed now).execute drawing = .ok (drawnReceipt now) := by
  have hrun : (disclosed now).execute drawing = State.run.silent
    ((disclosed now).revealIds ⟨.key owner, true⟩ capped (.shuffle capped)) := rfl
  have hstep : ∀ c, (Booking.revealIds now).attempt ⟨reservedRecord, disclosedDraw now, c⟩
      = .ok (0, ⟨reservedRecord, drawnDraw now, c⟩) := by
    intro c
    have hsmall : (4 : UInt64).toNat < UInt32.size := by decide
    exact Booking.attempt_revealIds.mpr ⟨.inl rfl, hsmall, 0, 7, rfl, rfl, rfl⟩
  rw [hrun]
  unfold State.revealIds
  have hsale : State.load (disclosed now).sales capped = .ok reservedRecord := rfl
  have hdraw : State.load (disclosed now).shuffles (.shuffle capped)
      = .ok (disclosedDraw now) := rfl
  rw [hsale, hdraw]
  simp only [ok_bind]
  rw [show (disclosed now).now = now from rfl, hstep]
  rfl

/-- The reveal, at a given time, and the drawing of the ids. -/
def drawnEntries (now : Int64) (h : now ≤ 60) : List Entry :=
  [⟨windowed.atTime now, revealing, _, revealing_ok h⟩, ⟨disclosed now, drawing, _, drawing_ok now⟩]

/-- Drawing the ids of the other sale, with the reveal at any time up to the deadline. -/
theorem run_drawn {now : Int64} (h : now ≤ 60) :
    Run windowed (drawnEntries now h) (drawn now) := by
  have hdisclosed := (Run.start.atTime now).accepted ⟨_, revealing, _, revealing_ok h⟩
  exact hdisclosed.accepted ⟨_, drawing, _, drawing_ok now⟩

/-- From the opening of the other sale to the drawing of its ids, with the reveal at any time up to
the deadline. -/
theorem run_cappedOpened {now : Int64} (h : now ≤ 60) :
    ∃ receipt later, start.execute cappedOpening = .ok receipt ∧ receipt.state = cappedOpened ∧
      Run receipt.state later (drawn now) := by
  obtain ⟨receipt, hopen, hstate⟩ := cappedOpening_ok
  have hsold := Run.start.accepted ⟨cappedOpened, buying, _, buying_ok⟩
  have hreserved := hsold.accepted ⟨sold, reserving none 4, _, reserving_ok.2⟩
  have hwindowed := hreserved.accepted ⟨reserved, windowing, _, windowing_ok⟩
  obtain ⟨later, hdrawn⟩ : ∃ later, Run cappedOpened later (drawn now) :=
    ⟨_, hwindowed.trans (run_drawn h)⟩
  exact ⟨receipt, later, hopen, hstate, hstate ▸ hdrawn⟩

/-- Claims the units of the owner's reservation. -/
def claiming : Call :=
  ⟨owner, true, .claimReserved capped (.shuffle capped) (.commitment capped (.key owner)) holding⟩

/-- The ids that the owner's reservation has coming. -/
def idsDue (now : Int64) : List UInt32 := State.idsOf (drawnDraw now) disclosedReservation

/-- The state with the owner's units claimed. -/
def claimed (now : Int64) : State := { drawn now with
  sales := .ofList [(capped, { reservedRecord with totalMinted := 7 })]
  ledgers := .ofList [(holding, ⟨capped, .key owner, 7, 0, 255⟩)]
  commitments := .ofList
    [(.commitment capped (.key owner), { reservation with status := .claimed })] }

/-- What the claim leaves. -/
def claimedReceipt (now : Int64) : Receipt :=
  ⟨claimed now, .none, [.claimed 4 (.key owner)],
    [.reservationClaimed capped (.key owner) (idsDue now)]⟩

theorem claiming_ok (now : Int64) : (drawn now).execute claiming = .ok (claimedReceipt now) := by
  have hrun : (drawn now).execute claiming = State.run.silent ((drawn now).claimReserved
    ⟨.key owner, true⟩ capped (.shuffle capped) (.commitment capped (.key owner)) holding) := rfl
  have hlength : (drawnDraw now).permutation.length = 4 := by
    rw [drawnDraw, length_permutation]
    rfl
  have hinside : disclosedReservation.slotStart.toNat + disclosedReservation.units.toNat
      ≤ (drawnDraw now).permutation.length := by
    rw [hlength]
    decide
  have hsmall : disclosedReservation.slotStart.toNat + disclosedReservation.units.toNat
      < UInt64.size := by
    decide
  have hstep : Booking.claim.attempt ⟨reservedRecord, drawnDraw now, disclosedReservation⟩
      = .ok (idsDue now, ⟨reservedRecord, drawnDraw now,
        { reservation with status := .claimed }⟩) :=
    Booking.attempt_claim.mpr ⟨rfl, rfl, hinside, hsmall, rfl⟩
  have hcounted : (Sale.recordClaim 4).attempt reservedRecord
      = .ok ((), { reservedRecord with totalMinted := 7 }) := rfl
  have hcredited : (Ledger.recordMint 4).attempt ⟨capped, .key owner, 3, 0, 255⟩
      = .ok ((), ⟨capped, .key owner, 7, 0, 255⟩) := rfl
  rw [hrun, State.silent_eq_ok]
  simp only [State.claimReserved, bind_eq_ok, State.load_eq_ok, State.verified_eq_ok,
    State.checkSeeds_eq_ok, require_eq_ok, State.ruled_eq_ok, pure_eq_ok]
  refine ⟨reservedRecord, rfl, drawnDraw now, rfl, disclosedReservation, rfl, _, ⟨trivial, rfl⟩, (),
    rfl, (drawn now, ⟨capped, .key owner, 3, 0, 255⟩), rfl, (), trivial, (), rfl, (), rfl, _, hstep,
    _, hcounted, _, hcredited, ?_⟩
  -- the two receipts are compared part by part, without working out the ids
  rw [claimedReceipt]
  congr 1

/-- Claiming the owner's units, with the reveal at any time up to the deadline. -/
theorem run_claimed {now : Int64} (h : now ≤ 60) :
    ∃ trace, Run start (trace ++ [⟨drawn now, claiming, _, claiming_ok now⟩]) (claimed now) := by
  obtain ⟨trace, hrun⟩ := run_windowed
  exact ⟨_, (hrun.trans (run_drawn h)).accepted ⟨drawn now, claiming, _, claiming_ok now⟩⟩

/-! ## A sale with a limit for each wallet -/

/-- The address of the owner's third sale. -/
def limited : Address := .sale (.key owner) 9

/-- Like the first sale, with three units for each wallet. -/
def limitedConfig : SaleConfig := { config with maxPerWallet := 3 }

/-- The state with the third sale opened. -/
def limitedOpened : State :=
  start.afterCalls [(0, ⟨owner, true, .openSale limited (.shuffle limited) 9 limitedConfig⟩)]

/-- The third sale as it is opened. -/
def limitedRecord : Sale := State.openedSale (.key owner) 9 limitedConfig 2

/-- Asks for five units. -/
def limitedBuying : Call :=
  ⟨owner, true, .mint limited (.ledger limited (.key owner)) (.key owner) ⟨5, 1, 1000⟩ .none⟩

/-- Three units are sold of the five. -/
theorem limitedBuying_ok : ∃ receipt, limitedOpened.execute limitedBuying = .ok receipt ∧
    receipt.events = [.unitsMinted limited (.key owner) (.key owner) 3 5 15] ∧
      ∃ record, receipt.state.sales.find? limited = some record ∧
        record.terms = limitedRecord.terms := by
  have hrun : limitedOpened.execute limitedBuying = State.run.silent (limitedOpened.purchase
    ⟨.key owner, true⟩ .recipient limited (.ledger limited (.key owner)) (.key owner) ⟨5, 1, 1000⟩
      .none) := rfl
  have hload : State.load limitedOpened.sales limited = .ok limitedRecord := rfl
  have hpinned : Sale.table.fingerprint = limitedRecord.terms.fingerprint := rfl
  rw [hrun]
  unfold State.purchase
  rw [hload, ok_bind]
  simp only [Sale.quoteFor, Sale.wordQuote_of_pinned hpinned]
  exact ⟨_, rfl, rfl, _, rfl, rfl⟩

end Sample
end UnitSale
