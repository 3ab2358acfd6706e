import Mathlib.Data.List.Induction
import UnitSale.Proofs.IdsTheorems
import UnitSale.Proofs.RecordSteps
import UnitSale.Proofs.SlotOrder

/-!
# The outcome depends only on what was revealed

The final seed, the permutation and the ids of every revealer are functions of the seed that the
window was opened with and of the revealed secrets with their units, in order. Nothing else in a run
has any part in them.
-/

namespace UnitSale

/-! ## The outcome as a function -/

/-- What was revealed in a sale: the secrets and the units behind them, in order. -/
def revelations (sale : Address) (trace : List Entry) : List (Bytes32 × UInt64) :=
  (disclosures sale trace).map fun d => (d.secret, d.units)

theorem secrets_append (sale : Address) (trace : List Entry) (e : Entry) :
    (revelations sale (trace ++ [e])).map Prod.fst = (revelations sale trace).map Prod.fst
      ++ (e.call.instruction.revealedSecret sale).toList := by
  rw [revelations, disclosures_concat, List.map_append, List.map_append, Entry.disclosure]
  cases e.call.instruction.revealedSecret sale <;> rfl

/-- The seed after all secrets were folded into the first one. -/
def finalSeed (seed : Bytes32) (revealed : List (Bytes32 × UInt64)) : Bytes32 :=
  (revealed.map Prod.fst).foldl accumulateSeed seed

/-- All units together. -/
def totalUnits (revealed : List (Bytes32 × UInt64)) : ℕ :=
  (revealed.map fun r => r.2.toNat).sum

/-- The ids that the final seed puts in order. -/
def finalPermutation (seed : Bytes32) (revealed : List (Bytes32 × UInt64)) : List UInt32 :=
  permutation (finalSeed seed revealed) (UInt32.ofNat (totalUnits revealed))

/-- The ids of the revealer with a number: as many as the units, from where the units of all earlier
ones end. -/
def idsOfRevealer (seed : Bytes32) (revealed : List (Bytes32 × UInt64)) (number : ℕ)
    (units : UInt64) : List UInt32 :=
  ((finalPermutation seed revealed).drop (totalUnits (revealed.take number))).take units.toNat

/-! ## The seed -/

/-- How a shuffle has come to its seed: the window was opened once at most, and all secrets revealed
since are folded in. -/
inductive Seeded : (seeds secrets : List Bytes32) → Option Shuffle → Prop
  | absent : Seeded [] [] none
  | unopened {draw} : draw.phase.rank < Phase.revealing.rank → Seeded [] [] (some draw)
  | opened {draw secrets} (seed : Bytes32) : Phase.revealing.rank ≤ draw.phase.rank →
      draw.seed = secrets.foldl accumulateSeed seed → Seeded [seed] secrets (some draw)

/-- Once the window has been opened, there is one seed with all secrets folded in. -/
theorem Seeded.of_rank_le {seeds secrets : List Bytes32} {draw : Shuffle}
    (h : Seeded seeds secrets (some draw)) (hrank : Phase.revealing.rank ≤ draw.phase.rank) :
    ∃ seed, seeds = [seed] ∧ draw.seed = secrets.foldl accumulateSeed seed := by
  cases h with
  | unopened hlt => exact absurd hrank (Nat.not_le_of_lt hlt)
  | opened seed _ hseed => exact ⟨seed, rfl, hseed⟩

theorem Seeded.of_rank_lt {seeds secrets : List Bytes32} {draw : Shuffle}
    (h : Seeded seeds secrets (some draw)) (hrank : draw.phase.rank < Phase.revealing.rank) :
    seeds = [] ∧ secrets = [] := by
  cases h with
  | unopened => exact ⟨rfl, rfl⟩
  | opened _ hle => exact absurd hle (Nat.not_le_of_lt hrank)

/-- Every step folds in what its instruction brings, and nothing else. -/
theorem Seeded.step {seeds secrets : List Bytes32} {before after : Option Shuffle} {now : Int64}
    {sale : Address} {i : Instruction} (h : Seeded seeds secrets before)
    (hstep : DrawStep now sale before i after) :
    Seeded (seeds ++ (i.openingSeed sale).toList) (secrets ++ (i.revealedSecret sale).toList)
      after := by
  cases hstep with
  | keeps hseed hsecret =>
    rw [hseed, hsecret, Option.toList_none, List.append_nil, List.append_nil]
    exact h
  | creates =>
    cases h with
    | absent => exact .unopened (Phase.rank_lt_revealing (.inl rfl))
  | reserves reserved pending available hphase =>
    obtain ⟨rfl, rfl⟩ := h.of_rank_lt (Phase.rank_lt_revealing (.inl hphase))
    exact .unopened (Booking.rank_phaseAfterCommit available)
  | opensWindow _ _ hphase =>
    obtain ⟨rfl, rfl⟩ := h.of_rank_lt (Phase.rank_lt_revealing hphase)
    rw [Instruction.openingSeed, if_pos rfl]
    exact .opened _ (Nat.le_refl _) rfl
  | reveals revealed pending hphase =>
    obtain ⟨seed, rfl, hseed⟩ := h.of_rank_le (Nat.le_of_eq (by rw [hphase]))
    rw [Instruction.revealedSecret, if_pos rfl, Option.toList_some]
    refine .opened seed (Booking.rank_phaseAfterReveal pending).1 ?_
    rw [List.foldl_append, ← hseed]
    rfl
  | @draws draw _ _ hphase =>
    have hrank : Phase.revealing.rank ≤ draw.phase.rank := by
      rcases hphase with hphase | ⟨hphase, -⟩
      · rw [hphase]
        decide
      · rw [hphase]
    obtain ⟨seed, rfl, hseed⟩ := h.of_rank_le hrank
    have hlast : Phase.revealing.rank ≤ Phase.shuffled.rank := by decide
    rw [show (Instruction.revealIds _ _).revealedSecret sale = none from rfl, Option.toList_none,
      List.append_nil]
    exact .opened seed hlast hseed

theorem seeded_of_run {start st : State} {trace : List Entry} (hfresh : start.Fresh)
    (h : Run start trace st) (sale : Address) :
    Seeded (openingSeeds sale trace) ((revelations sale trace).map Prod.fst) (st.draw? sale) := by
  refine h.follow_draw (P := fun trace draw =>
    Seeded (openingSeeds sale trace) ((revelations sale trace).map Prod.fst) draw) ?_ ?_
  · rw [hfresh.draw?_eq_none]
    exact .absent
  · intro trace e before after hstep hseeded
    rw [openingSeeds_concat, secrets_append]
    exact hseeded.step hstep

/-! ## Slots and ids -/

/-- The last slot is followed by the sum of all units. -/
theorem Tiles.end_eq {lo hi : ℕ} {gs : List SlotGrant} (h : Tiles lo gs hi) :
    hi = lo + (gs.map fun g => g.units.toNat).sum := by
  induction gs generalizing lo with
  | nil =>
    obtain rfl : lo = hi := h
    rfl
  | cons first rest ih =>
    have hrest := ih h.2
    rw [List.map_cons, List.sum_cons]
    omega

/-- Slots start where all earlier units end. -/
theorem Tiles.start_eq {lo hi : ℕ} {gs : List SlotGrant} (h : Tiles lo gs hi) {number : ℕ}
    {g : SlotGrant} (hg : gs[number]? = some g) :
    g.slotStart.toNat = lo + ((gs.take number).map fun g => g.units.toNat).sum := by
  induction gs generalizing lo number with
  | nil => cases hg
  | cons first rest ih =>
    cases number with
    | zero =>
      obtain rfl : first = g := Option.some.inj hg
      exact h.1
    | succ number =>
      have hrest := ih h.2 hg
      rw [List.take_succ_cons, List.map_cons, List.sum_cons]
      omega

namespace State

variable {st : State} {signer : Signer} {receipt : Receipt} {i : Instruction}

/-- An instruction gives slots exactly if it reveals a secret: to its signer, and one for each unit
reserved. -/
theorem Accepted.grants_eq (h : st.Accepted signer i receipt) (sale : Address) :
    (receipt.events.filterMap (Event.grant sale)).map (fun g => (g.buyer, g.units))
      = ((i.revealedSecret sale).map fun _ =>
          (signer.address, st.unitsReserved sale signer.address)).toList := by
  cases h with
  | openSale o => rw [o.events_eq]; rfl
  | openVault o => rw [o.events_eq]; rfl
  | calculate _ hevents => rw [hevents]; rfl
  | mint p => rw [p.events_eq]; rfl
  | mintFor p => rw [p.events_eq]; rfl
  | burn b => rw [b.events_eq]; rfl
  | withdraw w => rw [w.events_eq]; rfl
  | royaltyInfo _ hevents => rw [hevents]; rfl
  | commit r => rw [r.events_eq]; rfl
  | startReveal w => rw [w.events_eq]; rfl
  | @reveal s _ _ _ _ r =>
    rw [r.events_eq]
    by_cases hs : s = sale
    · subst hs
      simp [Event.grant, Instruction.revealedSecret, unitsReserved, commitment?, r.reserved]
    · simp [Event.grant, Instruction.revealedSecret, hs]
  | revealIds d => rw [d.events_eq]; rfl
  | claimReserved c => rw [c.events_eq]; rfl

end State

theorem grants_eq_disclosures (sale : Address) (trace : List Entry) :
    (grants sale trace).map (fun g => (g.buyer, g.units))
      = (disclosures sale trace).map fun d => (d.buyer, d.units) := by
  induction trace using List.reverseRecOn with
  | nil => rfl
  | append_singleton trace e ih =>
    rw [grants_append, disclosures_concat, List.map_append, List.map_append, ih,
      e.accepted_case.grants_eq, Entry.disclosure]
    cases e.call.instruction.revealedSecret sale <;> rfl

/-- One slot is given for each unit that was revealed. -/
theorem grants_units (sale : Address) (trace : List Entry) :
    ((grants sale trace).map fun g => g.units.toNat)
      = (revelations sale trace).map fun r => r.2.toNat := by
  have hunits := congrArg (List.map fun p => p.2.toNat) (grants_eq_disclosures sale trace)
  rw [List.map_map, List.map_map] at hunits
  rw [revelations, List.map_map]
  exact hunits

/-! ## Claims -/

/-- Whoever has a claimed reservation has been handed ids. -/
theorem handed_of_claimed {start st : State} {trace : List Entry} {sale buyer : Address}
    {c : Commitment} (hfresh : start.Fresh) (h : Run start trace st)
    (hc : st.commitment? sale buyer = some c) (hstatus : c.status = .claimed) :
    ∃ ids, (buyer, ids) ∈ handouts sale trace := by
  refine Run.follow_commitment (P := fun trace found => ∀ c, found = some c →
    c.status = .claimed → ∃ ids, (buyer, ids) ∈ handouts sale trace) hfresh .start h ?_ ?_ c hc
    hstatus
  · intro c hc
    rw [hfresh.commitment?_eq_none] at hc
    cases hc
  · intro trace e before after hstep hkept c hc hstatus
    have haccepted := e.accepted_case
    rw [handouts_append]
    generalize e.call.instruction = i at hstep haccepted
    cases hstep with
    | keeps =>
      obtain ⟨ids, hids⟩ := hkept c hc hstatus
      exact ⟨ids, List.mem_append_left _ hids⟩
    | makes =>
      obtain rfl := Option.some.inj hc
      cases hstatus
    | reveals =>
      obtain rfl := Option.some.inj hc
      cases hstatus
    | claims hsigns =>
      cases haccepted with
      | claimReserved handout =>
        refine ⟨State.idsOf handout.draw handout.reservation, List.mem_append_right _ ?_⟩
        rw [handout.events_eq, ← hsigns.2]
        simp [Event.handout]

/-- The ids that a buyer's claim returns: the claim was made and has returned them, or it can be
made and returns them. -/
def Entitled (trace : List Entry) (st : State) (sale buyer : Address) (ids : List UInt32) : Prop :=
  (buyer, ids) ∈ handouts sale trace ∨
    ∃ record draw c after, st.sales.find? sale = some record ∧ st.draw? sale = some draw ∧
      st.commitment? sale buyer = some c ∧
        Booking.claim.attempt ⟨record, draw, c⟩ = .ok (ids, after)

/-- Once the ids are drawn, a buyer past the reveal is entitled to the ids of the reservation and to
nothing else. -/
theorem entitled_iff {start st : State} {trace : List Entry} {sale buyer : Address} {record : Sale}
    {draw : Shuffle} {c : Commitment} {ids : List UInt32} (hfresh : start.Fresh)
    (h : Run start trace st) (hrecord : st.sales.find? sale = some record)
    (hdraw : st.draw? sale = some draw) (hphase : draw.phase = .shuffled)
    (hc : st.commitment? sale buyer = some c) (hstatus : c.status ≠ .committed) :
    Entitled trace st sale buyer ids ↔ ids = State.idsOf draw c := by
  have hhanded := handed_of_run hfresh h
  have honly : ∀ ids, (buyer, ids) ∈ handouts sale trace → ids = State.idsOf draw c := by
    intro ids hgiven
    obtain ⟨c', draw', hc', -, hdraw', -, rfl⟩ := hhanded.claimed sale buyer ids hgiven
    obtain rfl : c = c' := Registry.eq_of_find? hc hc'
    obtain rfl : draw = draw' := Registry.eq_of_find? hdraw hdraw'
    rfl
  constructor
  · rintro (hgiven | ⟨record', draw', c', after, -, hdraw', hc', hclaim⟩)
    · exact honly ids hgiven
    · obtain rfl : c = c' := Registry.eq_of_find? hc hc'
      obtain rfl : draw = draw' := Registry.eq_of_find? hdraw hdraw'
      exact congrArg Prod.fst (Booking.attempt_claim.mp hclaim).2.2.2.2
  · rintro rfl
    cases hpast : c.status with
    | committed => exact absurd hpast hstatus
    | revealed =>
      exact .inr ⟨record, draw, c, _, hrecord, hdraw, hc, claim_of_revealed
        (sound_of_run hfresh h) (slotted_of_run hfresh h) hrecord hdraw hphase hc hpast⟩
    | claimed =>
      obtain ⟨ids, hids⟩ := handed_of_claimed hfresh h hc hpast
      exact .inl (honly ids hids ▸ hids)

/-! ## The outcome of a run -/

/-- A run from nothing in which the ids of a sale have been drawn. -/
structure DrawnRun (start st : State) (trace : List Entry) (sale : Address) (draw : Shuffle) :
    Prop where
  fresh : start.Fresh
  run : Run start trace st
  drawn : st.draw? sale = some draw
  shuffled : draw.phase = .shuffled

/-- What a run that has drawn the ids of a sale has come to: everything is the function of the
opening seed and of what was revealed. -/
structure Outcome (trace : List Entry) (st : State) (sale : Address) (draw : Shuffle)
    (seed : Bytes32) : Prop where
  opened_once : openingSeeds sale trace = [seed]
  seed_eq : draw.seed = finalSeed seed (revelations sale trace)
  units_lt : totalUnits (revelations sale trace) < UInt32.size
  permutation_eq : draw.permutation = finalPermutation seed (revelations sale trace)
  entitled : ∀ number d, (disclosures sale trace)[number]? = some d → ∀ ids,
    Entitled trace st sale d.buyer ids
      ↔ ids = idsOfRevealer seed (revelations sale trace) number d.units

/-- The slots of a revealer start where the units of all earlier ones end. -/
theorem slot_of_revealer {start st : State} {trace : List Entry} {sale : Address} {number : ℕ}
    {d : Disclosure} (hfresh : start.Fresh) (h : Run start trace st)
    (hd : (disclosures sale trace)[number]? = some d) :
    ∃ c, st.commitment? sale d.buyer = some c ∧ c.status ≠ .committed ∧ c.units = d.units ∧
      c.slotStart.toNat = totalUnits ((revelations sale trace).take number) := by
  have hgranted := granted_of_run hfresh h
  have hsame := grants_eq_disclosures sale trace
  -- the grant at the same place, to the same buyer and of as many units
  have hplace : ((grants sale trace).map fun g => (g.buyer, g.units))[number]?
      = some (d.buyer, d.units) := by
    rw [hsame, List.getElem?_map, hd]
    rfl
  rw [List.getElem?_map, Option.map_eq_some_iff] at hplace
  obtain ⟨g, hg, hpair⟩ := hplace
  obtain ⟨hbuyer, hunits⟩ := Prod.mk.inj hpair
  obtain ⟨c, hc, hstatus, hcunits, hstart⟩ :=
    hgranted.granted sale g (List.mem_of_getElem? hg)
  refine ⟨c, hbuyer ▸ hc, hstatus, hcunits.trans hunits, ?_⟩
  rw [hstart, (hgranted.tiled sale).start_eq hg, Nat.zero_add, List.map_take, grants_units,
    ← List.map_take]
  rfl

theorem DrawnRun.outcome {start st : State} {trace : List Entry} {sale : Address} {draw : Shuffle}
    (h : DrawnRun start st trace sale draw) : ∃ seed, Outcome trace st sale draw seed := by
  obtain ⟨hfresh, hrun, hdraw, hphase⟩ := h
  obtain ⟨record, hrecord⟩ := hrun.sale_of_draw hfresh hdraw
  have hbalanced := (sound_of_run hfresh hrun).balanced_of_find? hrecord hdraw
  have hseeded := seeded_of_run hfresh hrun sale
  rw [hdraw] at hseeded
  have hrank : Phase.revealing.rank ≤ draw.phase.rank := by
    rw [hphase]
    decide
  obtain ⟨seed, hopened, hseed⟩ := hseeded.of_rank_le hrank
  have hunits : draw.revealedUnits.toNat = totalUnits (revelations sale trace) := by
    have hend := ((granted_of_run hfresh hrun).tiled sale).end_eq
    have hslots : revealedIn st.books.shuffles sale = draw.revealedUnits.toNat :=
      revealedIn_of_find? hdraw
    rw [hslots, Nat.zero_add, grants_units] at hend
    exact hend
  have hpermutation : draw.permutation = finalPermutation seed (revelations sale trace) := by
    have hslots : draw.revealedUnits.toUInt32
        = UInt32.ofNat (totalUnits (revelations sale trace)) := by
      rw [← hunits]
      rfl
    rw [hbalanced.permutation_eq hphase, hseed, hslots]
    rfl
  refine ⟨seed, {
    opened_once := hopened
    seed_eq := hseed
    units_lt := hunits ▸ hbalanced.slots_lt
    permutation_eq := hpermutation
    entitled := ?_ }⟩
  intro number d hd ids
  obtain ⟨c, hc, hstatus, hcunits, hstart⟩ := slot_of_revealer hfresh hrun hd
  rw [entitled_iff hfresh hrun hrecord hdraw hphase hc hstatus, State.idsOf, hcunits, hstart,
    hpermutation]
  rfl

/-- In a run that has drawn the ids of a sale, the final seed, the permutation and the ids of every
revealer are functions of the opening seed and of what was revealed. So any other run, of this sale
or of another one, with the same opening seed and the same secrets and units revealed in the same
order comes to the same seed and permutation, and gives each revealer the same ids. -/
theorem outcome_of_revelations {start st : State} {trace : List Entry} {sale : Address}
    {draw : Shuffle} (h : DrawnRun start st trace sale draw) :
    (∃ seed, Outcome trace st sale draw seed) ∧
    ∀ (start' st' : State) (trace' : List Entry) (sale' : Address) (draw' : Shuffle),
      DrawnRun start' st' trace' sale' draw' →
      openingSeeds sale' trace' = openingSeeds sale trace →
      revelations sale' trace' = revelations sale trace →
        draw'.seed = draw.seed ∧ draw'.permutation = draw.permutation ∧
        ∀ (number : ℕ) (d d' : Disclosure), (disclosures sale trace)[number]? = some d →
          (disclosures sale' trace')[number]? = some d' → ∀ ids,
            Entitled trace' st' sale' d'.buyer ids ↔ Entitled trace st sale d.buyer ids := by
  obtain ⟨seed, houtcome⟩ := h.outcome
  refine ⟨⟨seed, houtcome⟩, ?_⟩
  intro start' st' trace' sale' draw' h' hseeds hrevealed
  obtain ⟨seed', houtcome'⟩ := h'.outcome
  obtain rfl : seed' = seed := by
    have hboth := houtcome'.opened_once.symm.trans (hseeds.trans houtcome.opened_once)
    exact List.singleton_inj.mp hboth
  refine ⟨?_, ?_, ?_⟩
  · rw [houtcome'.seed_eq, houtcome.seed_eq, hrevealed]
  · rw [houtcome'.permutation_eq, houtcome.permutation_eq, hrevealed]
  · intro number d d' hd hd' ids
    have hunits : d'.units = d.units := by
      have hplace := congrArg (·[number]?) hrevealed
      simp only [revelations, List.getElem?_map, hd, hd', Option.map_some] at hplace
      exact (Prod.mk.inj (Option.some.inj hplace)).2
    rw [houtcome'.entitled number d' hd', houtcome.entitled number d hd, hrevealed, hunits]

/-- A reveal in the tenth second and one in the fiftieth come to the same ids. -/
theorem outcome_of_revelations_drawn : ∃ trace trace',
    Run Sample.start trace (Sample.drawn 10) ∧ Run Sample.start trace' (Sample.drawn 50) ∧
      (Sample.drawnDraw 50).permutation = (Sample.drawnDraw 10).permutation ∧
      ∀ ids, Entitled trace' (Sample.drawn 50) Sample.capped (.key Sample.owner) ids
        ↔ Entitled trace (Sample.drawn 10) Sample.capped (.key Sample.owner) ids := by
  obtain ⟨earlier, hwindowed⟩ := Sample.run_windowed
  have hdrawn : ∀ now (h : now ≤ 60), DrawnRun Sample.start (Sample.drawn now)
      (earlier ++ Sample.drawnEntries now h) Sample.capped (Sample.drawnDraw now) := by
    intro now h
    exact {
      fresh := Sample.start_fresh
      run := hwindowed.trans (Sample.run_drawn h)
      drawn := rfl
      shuffled := rfl }
  have hdisclosed : ∀ now (h : now ≤ 60),
      disclosures Sample.capped (earlier ++ Sample.drawnEntries now h)
        = disclosures Sample.capped earlier
          ++ [⟨.key Sample.owner, Vector.replicate 32 9, 4, now⟩] := by
    intro now h
    rw [disclosures_append]
    rfl
  have hlast : ∀ now (h : now ≤ 60),
      (disclosures Sample.capped (earlier ++ Sample.drawnEntries now h))[
        (disclosures Sample.capped earlier).length]?
          = some ⟨.key Sample.owner, Vector.replicate 32 9, 4, now⟩ := by
    intro now h
    rw [hdisclosed, List.getElem?_concat_length]
  have hrevealed : ∀ now (h : now ≤ 60),
      revelations Sample.capped (earlier ++ Sample.drawnEntries now h)
        = revelations Sample.capped earlier ++ [(Vector.replicate 32 9, 4)] := by
    intro now h
    rw [revelations, hdisclosed, List.map_append]
    rfl
  have hseeds : ∀ now (h : now ≤ 60),
      openingSeeds Sample.capped (earlier ++ Sample.drawnEntries now h)
        = openingSeeds Sample.capped earlier := by
    intro now h
    rw [openingSeeds_append]
    exact List.append_nil _
  have hearly : (10 : Int64) ≤ 60 := by decide
  have hlate : (50 : Int64) ≤ 60 := by decide
  have h10 := hdrawn 10 hearly
  have h50 := hdrawn 50 hlate
  obtain ⟨-, hboth⟩ := outcome_of_revelations h10
  obtain ⟨-, hpermutation, hids⟩ := hboth _ _ _ _ _ h50
    ((hseeds 50 hlate).trans (hseeds 10 hearly).symm)
    ((hrevealed 50 hlate).trans (hrevealed 10 hearly).symm)
  exact ⟨_, _, h10.run, h50.run, hpermutation, hids _ _ _ (hlast 10 hearly) (hlast 50 hlate)⟩

end UnitSale
