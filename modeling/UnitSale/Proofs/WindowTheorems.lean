import UnitSale.Proofs.RecordSteps

/-!
# The sliding reveal window

A reveal close to the deadline pushes the deadline out, but never past the hard deadline. Over a
whole run the deadline is a closed form in the times of the reveals, in exact integers: the
saturating arithmetic that computes it never saturates.
-/

namespace UnitSale

/-! ## The deadline in exact integers -/

/-- The end of a window after reveals at the given times: so far out that the last of them has the
extra time left, but not past the hard end and not before the first end. -/
def slidDeadline (first extra hard : ℤ) (times : List ℤ) : ℤ :=
  match times.max? with
  | none => first
  | some last => max first (min (last + extra) hard)

section Slid

variable {first extra hard : ℤ} {times : List ℤ}

/-- One more reveal, earlier or later than the others, pushes the end out as far as it may. -/
theorem slidDeadline_concat (first extra hard : ℤ) (times : List ℤ) (time : ℤ) :
    slidDeadline first extra hard (times ++ [time])
      = max (slidDeadline first extra hard times) (min (time + extra) hard) := by
  cases times with
  | nil => rfl
  | cons head rest =>
    simp only [slidDeadline, List.cons_append, List.max?_cons', List.foldl_append,
      List.foldl_cons, List.foldl_nil]
    omega

theorem slidDeadline_le (h : first ≤ hard) : slidDeadline first extra hard times ≤ hard := by
  unfold slidDeadline
  split
  · exact h
  · omega

end Slid

namespace Shuffle

variable {draw : Shuffle}

/-- The deadline that a reveal leaves, computed with saturation, is the exact one. -/
theorem toInt_extendedDeadline (now : Int64) (hextra : 0 ≤ draw.timeBound.maxExtraTime)
    (hinside : draw.deadline ≤ draw.hardDeadline) :
    (draw.extendedDeadline now).toInt = max draw.deadline.toInt
      (min (now.toInt + draw.timeBound.maxExtraTime.toInt) draw.hardDeadline.toInt) := by
  have hnow := now.le_toInt
  have hdeadline := draw.deadline.toInt_lt
  have hbound := draw.timeBound.maxExtraTime.toInt_lt
  have hhard := draw.hardDeadline.toInt_lt
  rw [Int64.le_iff_toInt_le] at hinside
  have hextra : 0 ≤ draw.timeBound.maxExtraTime.toInt := Int64.le_iff_toInt_le.mp hextra
  simp only [extendedDeadline, Checked.clampedSub, Checked.clampedAdd, Int64.lt_iff_toInt_lt,
    Int64.le_iff_toInt_le, Checked.toInt_clamp]
  split
  · next hshort =>
    -- too little is left, so the end moves to the pushed time or to the hard end
    split
    · rw [Checked.toInt_clamp]
      omega
    · omega
  · next hlong => omega

end Shuffle

/-! ## The window over a run -/

/-- The shuffle of a sale whose window was opened with a bound, with a first and a hard end, and
whose reveals since came at the given times. -/
structure Windowed (bound : TimeBound) (first hard : ℤ) (times : List ℤ) (draw : Shuffle) :
    Prop where
  opened : Phase.revealing.rank ≤ draw.phase.rank
  bound_eq : draw.timeBound = bound
  hardDeadline_eq : draw.hardDeadline.toInt = hard
  deadline_eq : draw.deadline.toInt = slidDeadline first bound.maxExtraTime.toInt hard times

/-- The times of all reveals in a sale. -/
def revealTimes (sale : Address) (trace : List Entry) : List ℤ :=
  (disclosures sale trace).map fun d => d.time.toInt

theorem revealTimes_append (sale : Address) (trace : List Entry) (e : Entry) :
    revealTimes sale (trace ++ [e]) = revealTimes sale trace
      ++ ((e.call.instruction.revealedSecret sale).map fun _ => e.before.now.toInt).toList := by
  rw [revealTimes, disclosures_concat, List.map_append, Entry.disclosure]
  cases e.call.instruction.revealedSecret sale <;> rfl

namespace Windowed

variable {bound : TimeBound} {first hard : ℤ} {times : List ℤ} {draw draw' : Shuffle}
  {now : Int64} {sale : Address} {i : Instruction}

theorem deadline_le (h : Windowed bound first hard times draw) (hfirst : first ≤ hard) :
    draw.deadline ≤ draw.hardDeadline := by
  rw [Int64.le_iff_toInt_le, h.deadline_eq, h.hardDeadline_eq]
  exact slidDeadline_le hfirst

/-- A reveal leaves the window with its time added, any other step leaves it as it is. -/
theorem step (h : Windowed bound first hard times draw) (hfirst : first ≤ hard)
    (hextra : 0 ≤ bound.maxExtraTime) (hstep : DrawStep now sale (some draw) i (some draw')) :
    Windowed bound first hard
      (times ++ ((i.revealedSecret sale).map fun _ => now.toInt).toList) draw' := by
  have hquiet : (none.map fun _ : Bytes32 => now.toInt).toList = [] := rfl
  cases hstep with
  | keeps _ hsecret =>
    rw [hsecret, hquiet, List.append_nil]
    exact h
  | reserves _ _ _ hphase =>
    exact absurd h.opened (Nat.not_le_of_lt (Phase.rank_lt_revealing (.inl hphase)))
  | opensWindow _ _ hphase =>
    exact absurd h.opened (Nat.not_le_of_lt (Phase.rank_lt_revealing hphase))
  | reveals revealed pending hphase htime =>
    have hextended := Shuffle.toInt_extendedDeadline now (h.bound_eq ▸ hextra)
      (h.deadline_le hfirst)
    rw [h.bound_eq, h.hardDeadline_eq, h.deadline_eq] at hextended
    rw [Instruction.revealedSecret, if_pos rfl, Option.map_some, Option.toList_some]
    exact {
      opened := (Booking.rank_phaseAfterReveal pending).1
      bound_eq := h.bound_eq
      hardDeadline_eq := h.hardDeadline_eq
      deadline_eq := by rw [slidDeadline_concat]; exact hextended }
  | draws =>
    have hlast : Phase.revealing.rank ≤ Phase.shuffled.rank := by decide
    rw [show (Instruction.revealIds _ _).revealedSecret sale = none from rfl, hquiet,
      List.append_nil]
    exact {
      opened := hlast
      bound_eq := h.bound_eq
      hardDeadline_eq := h.hardDeadline_eq
      deadline_eq := h.deadline_eq }

theorem of_run {start st : State} {trace : List Entry} (h : Run start trace st)
    (hdraw : start.draw? sale = some draw) (hstart : Windowed bound first hard [] draw)
    (hfirst : first ≤ hard) (hextra : 0 ≤ bound.maxExtraTime) :
    ∃ draw', st.draw? sale = some draw' ∧
      Windowed bound first hard (revealTimes sale trace) draw' := by
  refine h.follow_draw (P := fun trace draw' => ∃ d, draw' = some d ∧
    Windowed bound first hard (revealTimes sale trace) d) ⟨draw, hdraw, hstart⟩ ?_
  rintro trace e _ after hstep ⟨d, rfl, hd⟩
  obtain ⟨d', rfl⟩ := hstep.kept
  refine ⟨d', rfl, ?_⟩
  rw [revealTimes_append]
  exact hd.step hfirst hextra hstep

end Windowed

/-! ## The time guards -/

namespace Booking

open Update

variable {record : Sale} {draw : Shuffle} {c : Commitment} {secret : Bytes32} {now : Int64}

/-- While the window is open, a reveal is refused as late exactly after the deadline. -/
theorem reveal_late_iff (hwaiting : c.status = .committed ∧ 0 < c.units)
    (hphase : draw.phase = .revealing) :
    (reveal secret now).attempt ⟨record, draw, c⟩ = .error .revealWindowClosed
      ↔ ¬ now ≤ draw.deadline := by
  -- no later guard has this cause
  have hadvance : ∀ last, Phase.revealing.advance (.reveal last) ≠ .error .revealWindowClosed := by
    intro last
    cases last <;> simp [Phase.advance]
  simp only [reveal, attempt_bind, attempt_get, attempt_require, attempt_demand,
    attempt_modifyShuffle, attempt_modifyCommitment, attempt_advance_eq_error, ok_bind, bind_assoc,
    pure_bind, bind_eq_error, require_eq_error, demand_eq_error, require_eq_ok, demand_eq_ok,
    hwaiting, hphase, hadvance]
  simp

/-- While the window is open, drawing is refused as early exactly up to the deadline. -/
theorem revealIds_early_iff (hphase : draw.phase = .revealing) :
    (revealIds now).attempt ⟨record, draw, c⟩ = .error .revealsPending
      ↔ ¬ draw.deadline < now := by
  by_cases hlate : draw.deadline < now
  · simp [revealIds, hphase, hlate, Phase.advance, attempt_onSale, attempt_modifyShuffle,
      bind_eq_error, require_eq_error, demand_eq_error, Sale.release, -bind_pure_comp]
  · simp [revealIds, hphase, hlate, bind_eq_error, require_eq_error, -bind_pure_comp]

end Booking

/-! ## The window as a whole -/

/-- What one more call does to the deadlines of an open window: they move forward only and not past
the hard one, and after a reveal the extra time is left, or all time up to the hard deadline. -/
structure SlideStep (sale : Address) (now : Int64) (i : Instruction) (draw draw' : Shuffle) : Prop
    where
  hardDeadline_eq : draw'.hardDeadline = draw.hardDeadline
  forward : draw.deadline ≤ draw'.deadline
  inside : draw'.deadline ≤ draw'.hardDeadline
  left_open : (i.revealedSecret sale).isSome →
    min draw.timeBound.maxExtraTime.toInt (draw.hardDeadline.toInt - now.toInt)
      ≤ draw'.deadline.toInt - now.toInt

/-- A reveal window after a run from its opening: where its deadlines are, what one more call does
to them, and when the time allows to reveal and to draw. -/
structure SlidingWindow (sale : Address) (opened : Int64) (bound : TimeBound) (later : List Entry)
    (st : State) (draw : Shuffle) : Prop where
  timeBound_eq : draw.timeBound = bound
  hardDeadline_eq : draw.hardDeadline.toInt
    = opened.toInt + bound.baseDuration.toInt + bound.maxExtraTime.toInt
  hardDeadline_le : draw.hardDeadline.toInt ≤ opened.toInt + 2 * maxRevealSeconds.toInt
  deadline_eq : draw.deadline.toInt = slidDeadline (opened.toInt + bound.baseDuration.toInt)
    bound.maxExtraTime.toInt draw.hardDeadline.toInt (revealTimes sale later)
  inside : draw.deadline ≤ draw.hardDeadline
  next : ∀ call receipt, st.execute call = .ok receipt →
    ∃ draw', receipt.state.draw? sale = some draw' ∧
      SlideStep sale st.now call.instruction draw draw'
  /-- While the window is open, the time refuses either a reveal or the drawing, and not both. -/
  guards : draw.phase = .revealing → ∀ record c secret now, c.status = .committed ∧ 0 < c.units →
    ((Booking.reveal secret now).attempt ⟨record, draw, c⟩ = .error .revealWindowClosed ↔
      ¬ now ≤ draw.deadline) ∧
    ((Booking.revealIds now).attempt ⟨record, draw, c⟩ = .error .revealsPending ↔
      now ≤ draw.deadline)

/-- The window as it is opened. -/
theorem State.WindowOpening.windowed {st : State} {signer : Signer} {sale shuffle : Address}
    {seed : Bytes32} {bound : TimeBound} {receipt : Receipt}
    (w : WindowOpening st signer sale shuffle seed bound receipt) :
    ∃ draw, receipt.state.draw? sale = some draw ∧
      Windowed bound (st.now.toInt + bound.baseDuration.toInt)
        (st.now.toInt + bound.baseDuration.toInt + bound.maxExtraTime.toInt) [] draw := by
  have hfirst := Checked.addTime_eq_some_iff.mp w.deadline_eq
  have hhard := Checked.addTime_eq_some_iff.mp w.hardDeadline_eq
  rw [← hfirst] at hhard
  exact ⟨_, draw?_of_set (congrArg Books.shuffles w.books_eq), {
    opened := Nat.le_refl _
    bound_eq := rfl
    hardDeadline_eq := hhard.symm
    deadline_eq := hfirst.symm }⟩

theorem Windowed.slideStep {bound : TimeBound} {first hard : ℤ} {times : List ℤ}
    {draw draw' : Shuffle} {now : Int64} {sale : Address} {i : Instruction}
    (h : Windowed bound first hard times draw) (hfirst : first ≤ hard)
    (hextra : 0 ≤ bound.maxExtraTime) (hstep : DrawStep now sale (some draw) i (some draw')) :
    SlideStep sale now i draw draw' := by
  have hnext := h.step hfirst hextra hstep
  have hhard : draw'.hardDeadline = draw.hardDeadline :=
    Int64.toInt_inj.mp (hnext.hardDeadline_eq.trans h.hardDeadline_eq.symm)
  have hdeadline := hnext.deadline_eq
  refine {
    hardDeadline_eq := hhard
    forward := ?_
    inside := hnext.deadline_le hfirst
    left_open := ?_ }
  · rw [Int64.le_iff_toInt_le, hdeadline, h.deadline_eq]
    cases i.revealedSecret sale with
    | none => simp
    | some secret =>
      rw [Option.map_some, Option.toList_some, slidDeadline_concat]
      exact Int.le_max_left _ _
  · intro hreveals
    obtain ⟨secret, hsecret⟩ := Option.isSome_iff_exists.mp hreveals
    rw [hsecret, Option.map_some, Option.toList_some, slidDeadline_concat] at hdeadline
    rw [h.bound_eq, h.hardDeadline_eq, hdeadline]
    omega

/-- From the opening of a reveal window on, whatever calls follow at whatever times, the deadlines
are the exact ones. -/
theorem reveal_window_slides {start st : State} {call : Call} {receipt : Receipt}
    {later : List Entry} {sale shuffle : Address} {seed : Bytes32} {bound : TimeBound}
    (hcall : call.instruction = .startReveal sale shuffle seed bound)
    (hopened : start.execute call = .ok receipt) (h : Run receipt.state later st) :
    ∃ draw, st.draw? sale = some draw ∧ SlidingWindow sale start.now bound later st draw := by
  have haccepted := State.accepted_of_run hopened
  rw [hcall] at haccepted
  cases haccepted with
  | startReveal w =>
    obtain ⟨draw₀, hdraw₀, hwindowed₀⟩ := w.windowed
    obtain ⟨⟨hbase, hbaseMax⟩, hextra, hextraMax⟩ := w.valid
    simp only [Int64.le_iff_toInt_le] at hbaseMax hextraMax
    have hextra' : (0 : ℤ) ≤ bound.maxExtraTime.toInt := Int64.le_iff_toInt_le.mp hextra
    have hfirst : start.now.toInt + bound.baseDuration.toInt
        ≤ start.now.toInt + bound.baseDuration.toInt + bound.maxExtraTime.toInt := by omega
    obtain ⟨draw, hdraw, hwindowed⟩ := Windowed.of_run h hdraw₀ hwindowed₀ hfirst hextra
    refine ⟨draw, hdraw, {
      timeBound_eq := hwindowed.bound_eq
      hardDeadline_eq := hwindowed.hardDeadline_eq
      hardDeadline_le := by rw [hwindowed.hardDeadline_eq]; omega
      deadline_eq := by rw [hwindowed.hardDeadline_eq]; exact hwindowed.deadline_eq
      inside := hwindowed.deadline_le hfirst
      next := ?_
      guards := ?_ }⟩
    · intro call receipt hcall
      have hstep := (State.accepted_of_run hcall).drawStep sale
      rw [hdraw] at hstep
      obtain ⟨draw', hdraw'⟩ := hstep.kept
      rw [hdraw'] at hstep
      exact ⟨draw', hdraw', hwindowed.slideStep hfirst hextra hstep⟩
    · intro hphase record c secret now hwaiting
      refine ⟨Booking.reveal_late_iff hwaiting hphase, ?_⟩
      rw [Booking.revealIds_early_iff hphase, Int64.not_lt]

/-- A minute's window, revealed in its tenth second, ends ten seconds later. -/
theorem reveal_window_slides_drawn :
    ∃ draw, (Sample.drawn 10).draw? Sample.capped = some draw ∧ draw.hardDeadline.toInt = 120 ∧
      draw.deadline.toInt = 70 := by
  have hlater := Sample.run_drawn (show (10 : Int64) ≤ 60 by decide)
  obtain ⟨draw, hdraw, hwindow⟩ := reveal_window_slides rfl Sample.windowing_ok hlater
  refine ⟨draw, hdraw, hwindow.hardDeadline_eq, ?_⟩
  rw [hwindow.deadline_eq, hwindow.hardDeadline_eq]
  rfl

end UnitSale
