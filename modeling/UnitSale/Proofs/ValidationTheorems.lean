import UnitSale.Proofs.OpcodeTheorems

/-!
# Validation and evaluation

The checks of a script follow the depth of the stack without running anything. Over a table whose
opcodes are faithful to their entries the machine has, after every operation, the depth that the
checks have found, and where it fails it fails on its data or as the checks do.
-/

namespace UnitSale
namespace Script

variable {H : Type} {t : Table H} {constants context : Nat}

/-! ## The walk through a source -/

/-- The depth that the checks find after operations, from a depth before them. -/
def Table.depthFrom (t : Table H) (constants context : Nat) (ops : List Op) (depth : Nat) :
    Except ScriptError Nat :=
  (t.depths constants context ops depth 0).map Prod.fst

/-- The depth does not depend on how deep the stack was before. -/
theorem Table.depths_map_fst (ops : List Op) (depth deepest : Nat) :
    (t.depths constants context ops depth deepest).map Prod.fst
      = t.depthFrom constants context ops depth := by
  unfold depthFrom
  -- the walk only hands the deepest depth on, so any two of them may be compared
  suffices h : ∀ ops depth deepest deepest',
      (t.depths constants context ops depth deepest).map Prod.fst
        = (t.depths constants context ops depth deepest').map Prod.fst from h _ _ _ _
  intro ops
  induction ops with
  | nil => exact fun _ _ _ => rfl
  | cons op rest ih =>
    intro depth deepest deepest'
    unfold depths
    cases t.depthAfter constants context op depth with
    | error cause => rfl
    | ok after => exact ih after _ _

theorem Table.depthFrom_cons (op : Op) (rest : List Op) (depth : Nat) :
    t.depthFrom constants context (op :: rest) depth
      = t.depthAfter constants context op depth >>= t.depthFrom constants context rest := by
  unfold depthFrom
  show Except.map _ (t.depthAfter constants context op depth >>= _) = _
  cases t.depthAfter constants context op depth with
  | error cause => rfl
  | ok after => exact depths_map_fst rest after _

theorem Table.depthFrom_append (before after : List Op) (depth : Nat) :
    t.depthFrom constants context (before ++ after) depth
      = t.depthFrom constants context before depth >>= t.depthFrom constants context after := by
  induction before generalizing depth with
  | nil => rfl
  | cons op rest ih =>
    rw [List.cons_append, depthFrom_cons, depthFrom_cons]
    cases t.depthAfter constants context op depth with
    | error cause => rfl
    | ok between => exact ih between

/-- The checks of an operation are those of its operand, then those of the depth. -/
theorem Table.depthAfter_eq {op : Op} {o : Opcode H} (h : t.resolve op.opcode = some o)
    (depth : Nat) : t.depthAfter constants context op depth
      = checkOperand o.operand op.operand constants context
        >>= fun _ => settle (o.effect op.operand) depth := by
  unfold depthAfter
  rw [h]
  rfl

theorem Table.depthAfter_of_none {op : Op} (h : t.resolve op.opcode = none) (depth : Nat) :
    t.depthAfter constants context op depth = .error .unknownOpcode := by
  unfold depthAfter
  rw [h]
  rfl

theorem Table.depthAfter_le {op : Op} {depth after : Nat}
    (h : t.depthAfter constants context op depth = .ok after) : after ≤ maxStackDepth := by
  cases ho : t.resolve op.opcode with
  | none =>
    rw [depthAfter_of_none ho] at h
    cases h
  | some o =>
    rw [depthAfter_eq ho] at h
    simp only [settle, bind_eq_ok, require_eq_ok, pure_eq_ok] at h
    obtain ⟨-, -, -, -, -, hle, rfl⟩ := h
    exact hle

theorem Table.depthFrom_le {ops : List Op} {depth last : Nat} (hdepth : depth ≤ maxStackDepth)
    (h : t.depthFrom constants context ops depth = .ok last) : last ≤ maxStackDepth := by
  induction ops generalizing depth with
  | nil =>
    cases h
    exact hdepth
  | cons op rest ih =>
    rw [depthFrom_cons, bind_eq_ok] at h
    obtain ⟨after, hafter, hrest⟩ := h
    exact ih (depthAfter_le hafter) hrest

/-! ## The machine follows the walk -/

/-- Every opcode of a table is faithful to its entry. -/
def Table.Faithful (t : Table H) : Prop := ∀ o ∈ t.entries, o.Faithful

/-- An operation gives an operand only where one is taken. -/
def Table.Plain (t : Table H) (op : Op) : Prop :=
  ∀ o, t.resolve op.opcode = some o → o.operand = .none → op.operand = 0

/-- An operation that the checks let through gives no spare operand. -/
theorem Table.plain_of_ok {op : Op} {depth after : Nat}
    (h : t.depthAfter constants context op depth = .ok after) : t.Plain op := by
  intro o ho hnone
  rw [depthAfter_eq ho, hnone, bind_eq_ok] at h
  obtain ⟨_, hoperand, _⟩ := h
  exact require_eq_ok.mp hoperand

/-- An operation that the checks refuse gives no spare operand, unless that is why. -/
theorem Table.plain_of_error {op : Op} {depth : Nat} {cause : ScriptError}
    (h : t.depthAfter constants context op depth = .error cause)
    (hcause : cause = .invalidOperand → op.operand = 0) : t.Plain op := by
  intro o ho hnone
  by_contra hne
  rw [depthAfter_eq ho, hnone] at h
  -- a spare operand is refused before anything else is looked at
  have hrefused : checkOperand .none op.operand constants context = .error .invalidOperand :=
    require_eq_error.mpr ⟨hne, rfl⟩
  rw [hrefused] at h
  cases h
  exact hne (hcause rfl)

/-- A run in two parts follows the checks if each part does. -/
theorem Follows.bind {checked : Except ScriptError Nat} {f : Nat → Except ScriptError Nat}
    {x y : Exec Unit} {s : Stack} (h : Follows checked (x s))
    (hrest : ∀ s' : Stack, checked = .ok s'.length → Follows (f s'.length) (y s')) :
    Follows (checked >>= f) ((x >>= fun _ => y) s) := by
  show Follows _ (EStateM.bind x _ s)
  unfold EStateM.bind
  cases hx : x s with
  | ok u s' =>
    rw [hx] at h
    have hchecked : checked = .ok s'.length := h
    rw [hchecked]
    exact hrest s' hchecked
  | error cause left =>
    rw [hx] at h
    rcases h with hdata | hsame
    · exact .inl hdata
    · rw [hsame]
      exact .inr rfl

/-- One operation follows its checks. -/
theorem Table.step_follows (hfaithful : t.Faithful) (inputs : Inputs H) {op : Op}
    (hplain : t.Plain op) (s : Stack) :
    Follows (t.depthAfter inputs.constants.length inputs.context.length op s.length)
      (t.step inputs op s) := by
  unfold step
  cases ho : t.resolve op.opcode with
  | none =>
    rw [depthAfter_of_none ho]
    exact .inr rfl
  | some o =>
    rw [depthAfter_eq ho]
    exact hfaithful o (mem_of_resolve ho) inputs op.operand s (hplain o ho)

/-- A run follows the walk through its operations. -/
theorem Table.run_follows (hfaithful : t.Faithful) (inputs : Inputs H) {ops : List Op}
    (hplain : ∀ op ∈ ops, t.Plain op) (s : Stack) :
    Follows (t.depthFrom inputs.constants.length inputs.context.length ops s.length)
      (t.run inputs ops s) := by
  -- the stack varies: what one operation leaves is what the next one starts from
  induction ops generalizing s with
  | nil => exact rfl
  | cons op rest ih =>
    rw [depthFrom_cons]
    refine (step_follows hfaithful inputs (hplain op List.mem_cons_self) s).bind ?_
    intro s' _
    exact ih (fun op' hmem => hplain op' (List.mem_cons_of_mem _ hmem)) s'

theorem Table.plain_of_depthFrom {ops : List Op} {depth last : Nat}
    (h : t.depthFrom constants context ops depth = .ok last) : ∀ op ∈ ops, t.Plain op := by
  induction ops generalizing depth with
  | nil => exact fun op hmem => absurd hmem List.not_mem_nil
  | cons op rest ih =>
    rw [depthFrom_cons, bind_eq_ok] at h
    obtain ⟨after, hafter, hrest⟩ := h
    exact List.forall_mem_cons.mpr ⟨plain_of_ok hafter, ih hrest⟩

/-- Where the walk gets through, the machine ends at the depth found or fails on its data. -/
theorem Table.run_of_ok (hfaithful : t.Faithful) (inputs : Inputs H) {ops : List Op} {depth : Nat}
    (h : t.depthFrom inputs.constants.length inputs.context.length ops 0 = .ok depth) :
    (∃ s, t.run inputs ops [] = .ok () s ∧ s.length = depth) ∨
      ∃ cause left, t.run inputs ops [] = .error cause left ∧ cause.OfData := by
  have hfollows := run_follows hfaithful inputs (plain_of_depthFrom h) []
  rw [List.length_nil, h] at hfollows
  cases hrun : t.run inputs ops [] with
  | ok _ s =>
    rw [hrun] at hfollows
    injection hfollows with hdepth
    exact .inl ⟨s, rfl, hdepth.symm⟩
  | error cause left =>
    rw [hrun] at hfollows
    rcases hfollows with hdata | hsame
    · exact .inr ⟨cause, left, rfl, hdata⟩
    · cases hsame

/-- Where the walk fails, the machine fails on its data or with the same cause. -/
theorem Table.run_of_error (hfaithful : t.Faithful) (inputs : Inputs H) {ops : List Op}
    {cause : ScriptError} (hplain : ∀ op ∈ ops, t.Plain op)
    (h : t.depthFrom inputs.constants.length inputs.context.length ops 0 = .error cause) :
    ∃ failure left, t.run inputs ops [] = .error failure left ∧
      (failure.OfData ∨ failure = cause) := by
  have hfollows := run_follows hfaithful inputs hplain []
  rw [List.length_nil, h] at hfollows
  cases hrun : t.run inputs ops [] with
  | ok _ s =>
    rw [hrun] at hfollows
    cases hfollows
  | error failure left =>
    rw [hrun] at hfollows
    refine ⟨failure, left, rfl, ?_⟩
    rcases hfollows with hdata | hsame
    · exact .inl hdata
    · injection hsame with heq
      exact .inr heq.symm

theorem Table.run_append (inputs : Inputs H) (before after : List Op) :
    t.run inputs (before ++ after) = t.run inputs before >>= fun _ => t.run inputs after := by
  induction before with
  | nil => rfl
  | cons op rest ih =>
    funext s
    show EStateM.bind (t.step inputs op) (fun _ => t.run inputs (rest ++ after)) s
      = EStateM.bind (EStateM.bind (t.step inputs op) fun _ => t.run inputs rest) _ s
    rw [ih]
    unfold EStateM.bind
    cases t.step inputs op s <;> rfl

theorem Table.run_append_of_error {inputs : Inputs H} {before : List Op} {s left : Stack}
    {cause : ScriptError} (h : t.run inputs before s = .error cause left) (after : List Op) :
    t.run inputs (before ++ after) s = .error cause left := by
  rw [run_append]
  show EStateM.bind (t.run inputs before) _ s = _
  rw [EStateM.bind, h]

theorem Table.quote_of_ok {inputs : Inputs H} {ops : List Op} {s : Stack}
    (h : t.run inputs ops [] = .ok () s) : t.quote inputs ops = quoteOf s := by
  unfold quote
  rw [EStateM.run, h]

theorem Table.quote_of_error {inputs : Inputs H} {ops : List Op} {left : Stack}
    {cause : ScriptError} (h : t.run inputs ops [] = .error cause left) :
    t.quote inputs ops = .error cause := by
  unfold quote
  rw [EStateM.run, h]

theorem quoteOf_of_le {s : Stack} (h : resultCount ≤ s.length) : ∃ quote, quoteOf s = .ok quote :=
  match s, h with
  | price :: maxUnits :: _, _ => ⟨⟨maxUnits, price⟩, rfl⟩

theorem quoteOf_of_lt {s : Stack} (h : s.length < resultCount) :
    quoteOf s = .error .missingResults := by
  match s with
  | [] => rfl
  | [_] => rfl
  | _ :: _ :: below =>
    unfold resultCount at h
    rw [List.length_cons, List.length_cons] at h
    omega

/-! ## What acceptance says -/

/-- What the checks have found of a source that passes: it leaves enough words, and none of its
prefixes goes deeper than the bound. -/
structure Table.Passes (t : Table H) (constants context : Nat) (source : List Op) (bound : Nat) :
    Prop where
  results : ∃ depth, t.depthFrom constants context source 0 = .ok depth ∧ resultCount ≤ depth
  prefixes : ∀ before, before <+: source →
    ∃ depth, t.depthFrom constants context before 0 = .ok depth ∧ depth ≤ bound

/-- A walk that gets through has gone through all prefixes, and one of them was the deepest. -/
theorem Table.depths_ok {ops : List Op} {depth deepest last top : Nat} (hle : depth ≤ deepest)
    (h : t.depths constants context ops depth deepest = .ok (last, top)) :
    deepest ≤ top ∧
      (∀ before, before <+: ops →
        ∃ between, t.depthFrom constants context before depth = .ok between ∧ between ≤ top) ∧
      (top = deepest ∨
        ∃ before, before <+: ops ∧ t.depthFrom constants context before depth = .ok top) := by
  induction ops generalizing depth deepest with
  | nil =>
    cases h
    refine ⟨Nat.le_refl _, ?_, .inl rfl⟩
    intro before hbefore
    rw [List.prefix_nil.mp hbefore]
    exact ⟨_, rfl, hle⟩
  | cons op rest ih =>
    unfold depths at h
    rw [bind_eq_ok] at h
    obtain ⟨after, hafter, hrest⟩ := h
    obtain ⟨htop, hprefixes, hattained⟩ := ih (Nat.le_max_right deepest after) hrest
    have hdeepest : deepest ≤ top := Nat.le_trans (Nat.le_max_left deepest after) htop
    -- a prefix of the walk is empty or starts with the first operation
    have hstep : ∀ before, t.depthFrom constants context (op :: before) depth
        = t.depthFrom constants context before after := by
      intro before
      rw [depthFrom_cons, hafter, ok_bind]
    refine ⟨hdeepest, ?_, ?_⟩
    · intro before hbefore
      cases before with
      | nil => exact ⟨depth, rfl, Nat.le_trans hle hdeepest⟩
      | cons op' before' =>
        obtain ⟨rfl, hbefore'⟩ := List.cons_prefix_cons.mp hbefore
        rw [hstep]
        exact hprefixes before' hbefore'
    · rcases hattained with heq | ⟨before, hbefore, hdepth⟩
      · by_cases hmax : after ≤ deepest
        · rw [Nat.max_eq_left hmax] at heq
          exact .inl heq
        · rw [Nat.max_eq_right (Nat.le_of_not_le hmax)] at heq
          refine .inr ⟨[op], List.prefix_append [op] rest, ?_⟩
          rw [hstep, heq]
          rfl
      · exact .inr ⟨op :: before, List.cons_prefix_cons.mpr ⟨rfl, hbefore⟩, (hstep _).trans hdepth⟩

/-- Sources that pass stay within the depth found, which one of them has. -/
theorem Table.checkSources_ok {sources : List (List Op)} {deepest top : Nat}
    (h : t.checkSources constants context sources deepest = .ok top) :
    deepest ≤ top ∧ (∀ source ∈ sources, t.Passes constants context source top) ∧
      (top = deepest ∨ ∃ source ∈ sources, ∃ before, before <+: source ∧
        t.depthFrom constants context before 0 = .ok top) := by
  induction sources generalizing deepest with
  | nil =>
    cases h
    exact ⟨Nat.le_refl _, fun source hmem => absurd hmem List.not_mem_nil, .inl rfl⟩
  | cons source rest ih =>
    unfold checkSources at h
    simp only [bind_eq_ok, require_eq_ok] at h
    obtain ⟨-, -, ⟨depth, middle⟩, hdepths, -, hresults, hrest⟩ := h
    have hlast : t.depthFrom constants context source 0 = .ok depth := by
      rw [← depths_map_fst source 0 deepest, hdepths]
      rfl
    obtain ⟨hmiddle, hprefixes, hattained⟩ := depths_ok (Nat.zero_le _) hdepths
    obtain ⟨htop, hpasses, hrestAttained⟩ := ih hrest
    refine ⟨Nat.le_trans hmiddle htop, ?_, ?_⟩
    · refine List.forall_mem_cons.mpr ⟨⟨⟨depth, hlast, hresults⟩, ?_⟩, hpasses⟩
      intro before hbefore
      obtain ⟨between, hbetween, hle⟩ := hprefixes before hbefore
      exact ⟨between, hbetween, Nat.le_trans hle htop⟩
    · rcases hrestAttained with heq | ⟨source', hmem, hdeep⟩
      · rcases hattained with heq' | ⟨before, hbefore, hdepth⟩
        · exact .inl (heq.trans heq')
        · rw [heq]
          exact .inr ⟨source, List.mem_cons_self, before, hbefore, hdepth⟩
      · exact .inr ⟨source', List.mem_cons_of_mem _ hmem, hdeep⟩

/-- What an accepted script is known to be: all of its sources pass, and one of them has the depth
that is given back. -/
theorem validate_ok {script : Script} {contextLength : Nat} {deepest : UInt16}
    (h : validate t script contextLength = .ok deepest) :
    deepest.toNat ≤ maxStackDepth ∧
      (∀ source ∈ script.sources,
        t.Passes script.constants.length contextLength source deepest.toNat) ∧
      ∃ source ∈ script.sources, ∃ before, before <+: source ∧
        t.depthFrom script.constants.length contextLength before 0 = .ok deepest.toNat := by
  unfold validate at h
  simp only [bind_eq_ok, require_eq_ok, pure_eq_ok] at h
  obtain ⟨-, hsome, -, -, -, -, top, htop, rfl⟩ := h
  obtain ⟨-, hpasses, hattained⟩ := Table.checkSources_ok htop
  have hdeep : ∃ source ∈ script.sources, ∃ before, before <+: source ∧
      t.depthFrom script.constants.length contextLength before 0 = .ok top := by
    rcases hattained with rfl | hdeep
    · obtain ⟨source, hmem⟩ := List.exists_mem_of_ne_nil _ hsome
      exact ⟨source, hmem, [], List.nil_prefix, rfl⟩
    · exact hdeep
  have hle : top ≤ maxStackDepth := by
    obtain ⟨_, _, before, _, hdepth⟩ := hdeep
    exact Table.depthFrom_le (Nat.zero_le _) hdepth
  have htoNat : (UInt16.ofNat top).toNat = top := by
    unfold maxStackDepth at hle
    exact UInt16.toNat_ofNat_of_lt' (by show top < 65536; omega)
  rw [htoNat]
  exact ⟨hle, hpasses, hdeep⟩

/-! ## What rejection says -/

/-- Where in a source the checks stop, and why: at an operation, or at the end for want of results.
-/
inductive Table.Stops (t : Table H) (constants context : Nat) (source : List Op) :
    Option Op → ScriptError → Prop
  | operation {before after : List Op} {op : Op} {depth : Nat} {cause : ScriptError}
      (split : source = before ++ op :: after)
      (reached : t.depthFrom constants context before 0 = .ok depth)
      (refused : t.depthAfter constants context op depth = .error cause) :
      Stops t constants context source (some op) cause
  | results {depth : Nat} (reached : t.depthFrom constants context source 0 = .ok depth)
      (few : depth < resultCount) : Stops t constants context source none .missingResults

/-- The checks reject a script while they walk through one of its sources, those before it having
passed. -/
structure Table.RejectsIn (t : Table H) (script : Script) (contextLength source : Nat)
    (stop : Option Op) (cause : ScriptError) : Prop where
  rejected : validate t script contextLength = .error cause
  passed : ∃ deepest, t.checkSources script.constants.length contextLength (script.sources.take source) 0
    = .ok deepest
  stops : ∃ ops, script.sources[source]? = some ops ∧ ops.length ≤ maxSourceLength ∧
    t.Stops script.constants.length contextLength ops stop cause

/-- A walk that fails has come to the operation that is refused. -/
theorem Table.depths_error {ops : List Op} {depth deepest : Nat} {cause : ScriptError}
    (h : t.depths constants context ops depth deepest = .error cause) :
    ∃ before op after between, ops = before ++ op :: after ∧
      t.depthFrom constants context before depth = .ok between ∧
        t.depthAfter constants context op between = .error cause := by
  induction ops generalizing depth deepest with
  | nil => cases h
  | cons op rest ih =>
    unfold depths at h
    rcases bind_eq_error.mp h with hrefused | ⟨after, hafter, hrest⟩
    · exact ⟨[], op, rest, depth, rfl, rfl, hrefused⟩
    · obtain ⟨before, op', after', between, rfl, hbetween, hrefused⟩ := ih hrest
      refine ⟨op :: before, op', after', between, rfl, ?_, hrefused⟩
      rw [depthFrom_cons, hafter]
      exact hbetween

/-- Sources that fail contain a first one that does, which is too long or where the walk stops. -/
theorem Table.checkSources_error {sources : List (List Op)} {deepest : Nat} {cause : ScriptError}
    (h : t.checkSources constants context sources deepest = .error cause) :
    ∃ i source top, sources[i]? = some source ∧
      t.checkSources constants context (sources.take i) deepest = .ok top ∧
        (cause = .sourceTooLong ∨ source.length ≤ maxSourceLength ∧
          ∃ stop, t.Stops constants context source stop cause) := by
  induction sources generalizing deepest with
  | nil => cases h
  | cons source rest ih =>
    unfold checkSources at h
    -- the first source fails by its length, in its walk or for want of results, or a later one does
    rcases bind_eq_error.mp h with hlong | ⟨_, hlength, hwalk⟩
    · exact ⟨0, source, deepest, rfl, rfl, .inl (require_eq_error.mp hlong).2.symm⟩
    have hshort := require_eq_ok.mp hlength
    rcases bind_eq_error.mp hwalk with hstop | ⟨⟨depth, middle⟩, hdepths, hresults⟩
    · obtain ⟨before, op, after, between, hsplit, hreached, hrefused⟩ := depths_error hstop
      refine ⟨0, source, deepest, rfl, rfl, .inr ⟨hshort, some op, ?_⟩⟩
      exact .operation hsplit hreached hrefused
    rcases bind_eq_error.mp hresults with hmissing | ⟨_, henough, hrest⟩
    · obtain ⟨hfew, rfl⟩ := require_eq_error.mp hmissing
      have hlast : t.depthFrom constants context source 0 = .ok depth := by
        rw [← depths_map_fst source 0 deepest, hdepths]
        rfl
      refine ⟨0, source, deepest, rfl, rfl, .inr ⟨hshort, none, ?_⟩⟩
      exact .results hlast (Nat.lt_of_not_le hfew)
    · obtain ⟨i, source', top, hsource', hbefore, hwhy⟩ := ih hrest
      refine ⟨i + 1, source', top, hsource', ?_, hwhy⟩
      rw [List.take_succ_cons, checkSources, hlength, ok_bind, hdepths, ok_bind]
      dsimp only
      rw [henough, ok_bind]
      exact hbefore

/-- A script that is rejected is so for its size or in one of its sources. -/
theorem validate_error {script : Script} {contextLength : Nat} {cause : ScriptError}
    (h : validate t script contextLength = .error cause) :
    cause ∈ [ScriptError.emptyScript, .tooManySources, .tooManyConstants, .sourceTooLong] ∨
      ∃ source stop, t.RejectsIn script contextLength source stop cause := by
  have hrejected := h
  unfold validate at h
  -- three requirements on sizes come before the first source
  rcases bind_eq_error.mp h with hempty | ⟨_, -, h⟩
  · obtain ⟨-, rfl⟩ := require_eq_error.mp hempty
    exact .inl (by simp)
  rcases bind_eq_error.mp h with hmany | ⟨_, -, h⟩
  · obtain ⟨-, rfl⟩ := require_eq_error.mp hmany
    exact .inl (by simp)
  rcases bind_eq_error.mp h with hmany | ⟨_, -, h⟩
  · obtain ⟨-, rfl⟩ := require_eq_error.mp hmany
    exact .inl (by simp)
  rcases bind_eq_error.mp h with hsources | ⟨top, -, hreturn⟩
  · obtain ⟨i, source, top, hsource, hbefore, hlong | ⟨hshort, stop, hstops⟩⟩ :=
      Table.checkSources_error hsources
    · rw [hlong]
      exact .inl (by simp)
    · exact .inr ⟨i, stop, hrejected, ⟨top, hbefore⟩, source, hsource, hshort, hstops⟩
  · cases hreturn

/-- Where the checks stop in a source, the machine comes to no quote: it fails on its data or as the
checks do. An operand given where none is taken is not looked at. -/
theorem Table.Stops.quote_error {source : List Op} {stop : Option Op} {cause : ScriptError}
    (hfaithful : t.Faithful) (inputs : Inputs H)
    (h : t.Stops inputs.constants.length inputs.context.length source stop cause)
    (hzero : cause = .invalidOperand → ∃ opcode, stop = some ⟨opcode, 0⟩) :
    ∃ failure, t.quote inputs source = .error failure ∧ (failure.OfData ∨ failure = cause) := by
  cases h with
  | @operation before after op depth _ split reached refused =>
    have hplain : ∀ op' ∈ before ++ [op], t.Plain op' := by
      refine List.forall_mem_append.mpr ⟨plain_of_depthFrom reached, ?_⟩
      refine List.forall_mem_singleton.mpr (plain_of_error refused fun hcause => ?_)
      obtain ⟨opcode, hop⟩ := hzero hcause
      cases hop
      rfl
    -- the operations up to the refused one are all that has to run
    have hwalk : t.depthFrom inputs.constants.length inputs.context.length (before ++ [op]) 0
        = .error cause := by
      rw [depthFrom_append, reached, ok_bind, depthFrom_cons, refused]
      rfl
    obtain ⟨failure, left, hrun, hcause⟩ := run_of_error hfaithful inputs hplain hwalk
    refine ⟨failure, ?_, hcause⟩
    rw [split, List.append_cons]
    exact quote_of_error (run_append_of_error hrun after)
  | @results depth reached few =>
    rcases run_of_ok hfaithful inputs reached with ⟨s, hrun, hlength⟩ | ⟨failure, left, hrun, hdata⟩
    · rw [← hlength] at few
      exact ⟨.missingResults, (quote_of_ok hrun).trans (quoteOf_of_lt few), .inr rfl⟩
    · exact ⟨failure, quote_of_error hrun, .inl hdata⟩

theorem Table.Passes.quote {source : List Op} {bound : Nat} (hfaithful : t.Faithful)
    (inputs : Inputs H)
    (h : t.Passes inputs.constants.length inputs.context.length source bound) :
    (∃ quote, t.quote inputs source = .ok quote) ∨
      ∃ cause, t.quote inputs source = .error cause ∧ cause.OfData := by
  obtain ⟨depth, hdepth, henough⟩ := h.results
  rcases Table.run_of_ok hfaithful inputs hdepth with
    ⟨s, hrun, hlength⟩ | ⟨failure, left, hrun, hdata⟩
  · rw [← hlength] at henough
    obtain ⟨quote, hquote⟩ := quoteOf_of_le henough
    exact .inl ⟨quote, (quote_of_ok hrun).trans hquote⟩
  · exact .inr ⟨failure, quote_of_error hrun, hdata⟩

theorem evaluate_of_getElem? {script : Script} {source : Nat} {ops : List Op}
    (h : script.sources[source]? = some ops) (context : List Word) (host : H) :
    evaluate t script source context host = t.quote ⟨script.constants, context, host⟩ ops := by
  unfold evaluate
  rw [h]
  rfl

end Script

open Script

theorem Sale.table_faithful : Sale.table.Faithful :=
  List.forall_mem_append.mpr ⟨standardOpcodes_faithful, saleOpcodes_faithful⟩

/-- The checks of a script foresee its evaluation, for every context of the length they were made
for and every view of a sale.

Where they accept, each source ends in a quote or fails on its data; after the operations of every
prefix the stack is as deep as the checks have found for that prefix, and the depth they give back
is the largest of these, at most 64.

Where they reject, for another reason than its size, they stop in one source: at an operation, or
for want of results. Evaluating that source then fails on its data or with the very cause, unless
the cause is an operand given where none is taken. -/
theorem validation_foresees_evaluation (script : Script) (contextLength : Nat) :
    (∀ deepest, validate Sale.table script contextLength = .ok deepest →
      deepest.toNat ≤ maxStackDepth ∧
      (∃ ops ∈ script.sources, ∃ before, before <+: ops ∧
        Sale.table.depthFrom script.constants.length contextLength before 0 = .ok deepest.toNat) ∧
      ∀ source ops, script.sources[source]? = some ops →
        ∀ context : List Word, context.length = contextLength → ∀ view : Snapshot,
          ((∃ quote, evaluate Sale.table script source context view = .ok quote) ∨
            ∃ cause, evaluate Sale.table script source context view = .error cause ∧
              cause.OfData) ∧
          ∀ before, before <+: ops → ∃ depth,
            Sale.table.depthFrom script.constants.length contextLength before 0 = .ok depth ∧
              depth ≤ deepest.toNat ∧
              ∀ stack, (Sale.table.run ⟨script.constants, context, view⟩ before).run []
                = .ok () stack → stack.length = depth) ∧
    (∀ source stop cause, Sale.table.RejectsIn script contextLength source stop cause →
      (cause = .invalidOperand → ∃ opcode, stop = some ⟨opcode, 0⟩) →
        ∀ context : List Word, context.length = contextLength → ∀ view : Snapshot,
          ∃ failure, evaluate Sale.table script source context view = .error failure ∧
            (failure.OfData ∨ failure = cause)) ∧
    ∀ cause, validate Sale.table script contextLength = .error cause →
      cause ∈ [ScriptError.emptyScript, .tooManySources, .tooManyConstants, .sourceTooLong] ∨
        ∃ source stop, Sale.table.RejectsIn script contextLength source stop cause := by
  refine ⟨?_, ?_, fun cause => validate_error⟩
  · intro deepest hvalid
    obtain ⟨hle, hpasses, hattained⟩ := validate_ok hvalid
    refine ⟨hle, hattained, ?_⟩
    intro source ops hops context hlength view
    have hpass := hpasses ops (List.mem_of_getElem? hops)
    rw [← hlength] at hpass ⊢
    rw [evaluate_of_getElem? hops]
    refine ⟨hpass.quote Sale.table_faithful ⟨script.constants, context, view⟩, ?_⟩
    intro before hbefore
    obtain ⟨depth, hdepth, hbound⟩ := hpass.prefixes before hbefore
    refine ⟨depth, hdepth, hbound, ?_⟩
    intro stack hstack
    rcases Table.run_of_ok Sale.table_faithful ⟨script.constants, context, view⟩ hdepth with
      ⟨s, hrun, hstackLength⟩ | ⟨cause, left, hrun, -⟩
    · obtain rfl : stack = s := by simpa using hstack.symm.trans hrun
      exact hstackLength
    · cases hstack.symm.trans hrun
  · intro source stop cause hrejects hzero context hlength view
    obtain ⟨ops, hops, -, hstops⟩ := hrejects.stops
    rw [← hlength] at hstops
    rw [evaluate_of_getElem? hops]
    exact hstops.quote_error Sale.table_faithful ⟨script.constants, context, view⟩ hzero

/-- A source of two constants is accepted: two words is as deep as it gets, and evaluating it ends in
a quote or fails on its data. One that adds two words with one constant there is rejected at the
addition, and evaluating it fails for want of words or on its data. -/
theorem validation_foresees_evaluation_constants :
    let accepted : Script := ⟨[[⟨0, 0⟩, ⟨0, 0⟩]], [1]⟩
    let rejected : Script := ⟨[[⟨0, 0⟩, ⟨3, 2⟩]], [1]⟩
    let view : Snapshot := ⟨100, 0, 0, 0, 0, 0, none⟩
    validate Sale.table accepted 2 = .ok 2 ∧
      (∃ ops ∈ accepted.sources, ∃ before, before <+: ops ∧
        Sale.table.depthFrom 1 2 before 0 = .ok 2) ∧
      ((∃ quote, evaluate Sale.table accepted 0 [0, 3] view = .ok quote) ∨
        ∃ cause, evaluate Sale.table accepted 0 [0, 3] view = .error cause ∧ cause.OfData) ∧
      Sale.table.RejectsIn rejected 2 0 (some ⟨3, 2⟩) .stackUnderflow ∧
      ∃ failure, evaluate Sale.table rejected 0 [0, 3] view = .error failure ∧
        (failure.OfData ∨ failure = .stackUnderflow) := by
  intro accepted rejected view
  have hvalid : validate Sale.table accepted 2 = .ok 2 := by decide +kernel
  have hsplit : [(⟨0, 0⟩ : Op), ⟨3, 2⟩] = [⟨0, 0⟩] ++ ⟨3, 2⟩ :: [] := rfl
  have hrejects : Sale.table.RejectsIn rejected 2 0 (some ⟨3, 2⟩) .stackUnderflow := {
    rejected := by decide +kernel
    passed := ⟨0, rfl⟩
    stops := ⟨_, rfl, by decide, .operation hsplit rfl rfl⟩ }
  obtain ⟨-, hattained, hends⟩ := (validation_foresees_evaluation accepted 2).1 2 hvalid
  have hfails := (validation_foresees_evaluation rejected 2).2.1 _ _ _ hrejects
    (fun hcause => by cases hcause) [0, 3] rfl view
  exact ⟨hvalid, hattained, (hends 0 _ rfl [0, 3] rfl view).1, hrejects, hfails⟩

end UnitSale
