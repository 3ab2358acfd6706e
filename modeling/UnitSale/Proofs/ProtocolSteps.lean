import UnitSale.Proofs.Reservations

/-!
# Steps of the protocol

Most instructions touch neither the shuffle of a sale nor a reservation. `ProtocolStep` sorts the
accepted ones by what they do to these, `ReservationStep` by what becomes of one reservation, and
`Run.each_sale` follows one sale and its shuffle from the opening on.
-/

namespace UnitSale

/-- Whether an event tells of units sold or burned, or of money paid out. -/
def Event.IsTrade : Event → Prop
  | .unitsMinted .. => True
  | .unitsBurned .. => True
  | .fundsWithdrawn .. => True
  | _ => False

/-- Whether an address has signed. -/
def Signer.Signs (s : Signer) (a : Address) : Prop := s.signed = true ∧ s.address = a

namespace State

variable {st : State} {signer : Signer} {receipt : Receipt} {i : Instruction} {sale key : Address}

/-! ## Instructions -/

/-- What an accepted instruction does to shuffles and reservations: nothing, or one step of the
protocol. -/
inductive ProtocolStep (st : State) (signer : Signer) (receipt : Receipt) : Prop
  | none : receipt.state.books.shuffles = st.books.shuffles →
      receipt.state.books.commitments = st.books.commitments →
        (∀ event ∈ receipt.events, event.IsTrade) → ProtocolStep st signer receipt
  | opens {sale shuffle number config} : Opening st signer sale shuffle number config receipt →
      ProtocolStep st signer receipt
  | reserves {sale shuffle commitment brought hash units maximumPrice parties} :
      Reservation st signer sale shuffle commitment brought hash units maximumPrice parties
        receipt → ProtocolStep st signer receipt
  | opensWindow {sale shuffle seed bound} :
      WindowOpening st signer sale shuffle seed bound receipt → ProtocolStep st signer receipt
  | reveals {sale shuffle commitment secret} :
      Revelation st signer sale shuffle commitment secret receipt → ProtocolStep st signer receipt
  | draws {sale shuffle} : Drawing st signer sale shuffle receipt → ProtocolStep st signer receipt
  | handsOut {sale shuffle commitment ledger} :
      Handout st signer sale shuffle commitment ledger receipt → ProtocolStep st signer receipt

/-- Writing sales and ledgers is none of the protocol's business. -/
theorem ProtocolStep.of_books {sales : Registry Address Sale} {ledgers : Registry Address Ledger}
    {events : List Event}
    (hbooks : receipt.state.books = ⟨sales, st.shuffles, ledgers, st.commitments⟩)
    (hevents : receipt.events = events) (htrade : ∀ event ∈ events, event.IsTrade) :
    ProtocolStep st signer receipt := by
  subst hevents
  refine .none ?_ ?_ htrade
  · rw [hbooks]
    rfl
  · rw [hbooks]
    rfl

/-- Every instruction that goes through is one of the steps, as far as the protocol goes. -/
theorem Accepted.protocolStep (h : st.Accepted signer i receipt) :
    ProtocolStep st signer receipt := by
  have hnone : ∀ event ∈ ([] : List Event), event.IsTrade := List.forall_mem_nil _
  cases h with
  | openSale o => exact .opens o
  | openVault o => exact .of_books o.books_eq o.events_eq hnone
  | calculate hstate hevents => exact .of_books (congrArg books hstate) hevents hnone
  | mint p => exact .of_books p.books_eq p.events_eq (List.forall_mem_singleton.mpr trivial)
  | mintFor p => exact .of_books p.books_eq p.events_eq (List.forall_mem_singleton.mpr trivial)
  | burn b => exact .of_books b.books_eq b.events_eq (List.forall_mem_singleton.mpr trivial)
  | withdraw w => exact .of_books w.books_eq w.events_eq (List.forall_mem_singleton.mpr trivial)
  | royaltyInfo hstate hevents => exact .of_books (congrArg books hstate) hevents hnone
  | commit r => exact .reserves r
  | startReveal w => exact .opensWindow w
  | reveal r => exact .reveals r
  | revealIds d => exact .draws d
  | claimReserved c => exact .handsOut c

/-! ## One reservation -/

/-- What an accepted instruction makes of the reservation at an address. -/
inductive ReservationStep (st : State) (signer : Signer) (receipt : Receipt) (key : Address) : Prop
  | keeps : receipt.state.books.commitments.find? key = st.books.commitments.find? key →
      ReservationStep st signer receipt key
  | makes {sale shuffle commitment brought hash units maximumPrice parties}
      (r : Reservation st signer sale shuffle commitment brought hash units maximumPrice parties
        receipt) : key = .commitment sale signer.address → st.books.commitments.find? key = none →
      receipt.state.books.commitments.find? key
        = some ⟨sale, signer.address, hash, units, 0, .committed, st.now, bump⟩ →
      ReservationStep st signer receipt key
  | reveals {sale shuffle commitment secret}
      (r : Revelation st signer sale shuffle commitment secret receipt) :
      key = .commitment sale signer.address →
      st.books.commitments.find? key = some r.reservation →
      receipt.state.books.commitments.find? key
        = some { r.reservation with status := .revealed, slotStart := r.draw.revealedUnits } →
      ReservationStep st signer receipt key
  | claims {sale shuffle commitment ledger}
      (c : Handout st signer sale shuffle commitment ledger receipt) :
      key = .commitment sale signer.address →
      st.books.commitments.find? key = some c.reservation →
      receipt.state.books.commitments.find? key
        = some { c.reservation with status := .claimed } → ReservationStep st signer receipt key

theorem ReservationStep.of_set {written : Address} {new : Commitment}
    (hset : receipt.state.books.commitments = st.books.commitments.set written new)
    (hwritten : receipt.state.books.commitments.find? written = some new →
      ReservationStep st signer receipt written) (key : Address) :
    ReservationStep st signer receipt key := by
  by_cases hkey : key = written
  · subst hkey
    refine hwritten ?_
    rw [hset, Registry.find?_set_self]
  · refine .keeps ?_
    rw [hset, Registry.find?_set_of_ne _ hkey]

/-- What an accepted instruction makes of any reservation is one of the steps. -/
theorem Accepted.reservationStep (h : st.Accepted signer i receipt) (hsound : st.books.Sound)
    (key : Address) : ReservationStep st signer receipt key := by
  cases h.protocolStep with
  | none _ hcommitments => exact .keeps (by rw [hcommitments])
  | opens o => exact .keeps (by rw [o.books_eq])
  | reserves r =>
    refine .of_set (by rw [r.books_eq]; rfl) (fun hnew => ?_) key
    exact .makes r rfl (r.find?_eq_none hsound) hnew
  | opensWindow w => exact .keeps (by rw [w.books_eq])
  | reveals r =>
    refine .of_set (by rw [r.books_eq]; rfl) (fun hnew => ?_) key
    exact .reveals r rfl r.reserved hnew
  | draws d => exact .keeps (by rw [d.books_eq])
  | handsOut c =>
    refine .of_set (by rw [c.books_eq]; rfl) (fun hnew => ?_) key
    exact .claims c rfl c.reserved hnew

/-! ## One sale from its opening on -/

/-- Every sale after an instruction was there before, unless it has just been opened. -/
theorem Accepted.known_or_opened (h : st.Accepted signer i receipt) {record : Sale}
    (hrecord : receipt.state.books.sales.find? sale = some record) :
    (∃ old, st.books.sales.find? sale = some old) ∨
      ∃ shuffle number config, Nonempty (Opening st signer sale shuffle number config receipt) := by
  by_cases hsale : sale = i.sale
  case neg => exact .inl ⟨record, (h.beside.sales sale hsale).symm.trans hrecord⟩
  subst hsale
  cases h with
  | openSale o => exact .inr ⟨_, _, _, ⟨o⟩⟩
  | openVault o => exact .inl ⟨_, o.loaded⟩
  | calculate hstate => exact .inl ⟨record, hstate ▸ hrecord⟩
  | mint p => exact .inl ⟨_, p.loaded⟩
  | mintFor p => exact .inl ⟨_, p.loaded⟩
  | burn b => exact .inl ⟨_, b.loaded⟩
  | withdraw w => exact .inl ⟨_, w.loaded⟩
  | royaltyInfo hstate => exact .inl ⟨record, hstate ▸ hrecord⟩
  | commit r => exact .inl ⟨_, r.loaded⟩
  | startReveal w => exact .inl ⟨_, w.loaded⟩
  | reveal r => exact .inl ⟨_, r.loaded⟩
  | revealIds d => exact .inl ⟨_, d.loaded⟩
  | claimReserved c => exact .inl ⟨_, c.loaded⟩

end State

/-- What holds of a sale and its shuffle when it is opened, and is kept by every turn, holds of
every sale that a run reaches. -/
theorem Run.each_sale {start st : State} {trace : List Entry} {P : Sale → Shuffle → Prop}
    (hfresh : start.Fresh)
    (hopened : ∀ {st signer sale shuffle number config receipt}
      (o : State.Opening st signer sale shuffle number config receipt),
      P (State.openedSale signer.address number config o.depth)
        (Shuffle.blank.bind sale State.bump))
    (hturn : ∀ {st signer receipt sale record draw record' draw'},
      State.Turn st signer receipt sale record draw record' draw' → P record draw →
        P record' draw')
    (h : Run start trace st) (sale : Address) (record : Sale) (draw : Shuffle)
    (hrecord : st.books.sales.find? sale = some record)
    (hdraw : st.books.shuffles.find? (.shuffle sale) = some draw) : P record draw := by
  refine Run.invariant (P := fun _ st => ∀ sale record draw,
    st.books.sales.find? sale = some record →
      st.books.shuffles.find? (.shuffle sale) = some draw → P record draw)
    ?_ ?_ ?_ h sale record draw hrecord hdraw
  · intro sale record draw hrecord
    rw [hfresh.books_eq] at hrecord
    cases hrecord
  · intro trace e hrun hkept sale record' draw' hrecord' hdraw'
    rcases e.accepted_case.known_or_opened hrecord' with
      ⟨record, hrecord⟩ | ⟨shuffle, number, config, ⟨o⟩⟩
    · obtain ⟨draw, hdraw, -⟩ := (sound_of_run hfresh hrun).balanced sale record hrecord
      obtain ⟨record₁, draw₁, hrecord₁, hdraw₁, hstep⟩ := e.accepted_case.turn hrecord hdraw
      obtain rfl : record₁ = record' := Registry.eq_of_find? hrecord₁ hrecord'
      obtain rfl : draw₁ = draw' := Registry.eq_of_find? hdraw₁ hdraw'
      exact hturn hstep (hkept sale record draw hrecord hdraw)
    · rw [o.books_eq, Registry.find?_set_self] at hrecord' hdraw'
      obtain rfl := Option.some.inj hrecord'
      obtain rfl := Option.some.inj hdraw'
      exact hopened o
  · intro trace st st' hout hkept
    rw [hout.books_eq]
    exact hkept

end UnitSale
