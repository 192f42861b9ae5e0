import TurboScxml.Voice.SubdialogDelivery
import TurboScxml.Voice.SubdialogReturns
import TurboScxml.Voice.SubdialogScan

/-!
# The rows that run_ready visits

* `Placed`, `Moves`: what holds of the row of a call, and its steps on a row (`stepRun_moves`);
* `Scans`: the rows that a call has visited (`Scans.step`);
* `visits_sound`: a call that succeeds has visited every row, and a call that fails has visited the
  rows up to the one that fails.
-/

namespace TurboScxml.Voice

open Function Machine

namespace Subdialogs

/-! ## Rows that are left behind -/

variable {run : Run}

section Steps

variable {ι : Type} {config : Config} {s t : State ι} {answers : Answers} {slot : ℕ}

/-- A row that stays `ACTIVE` has a child at work. -/
def Row.Left (row : Row) : Prop :=
  row.state = .active → row.syntheticEvent = none ∧
    ∃ session, row.session = some session ∧ (session.mode = .running ∨ session.mode.waits = true)

def Run.drives : Run → Option ℕ
  | .driving slot | .searching slot _ _ | .filling slot _ _ | .committing slot _ _
  | .driven slot => some slot
  | _ => none

/-- A call of which nothing is known but its row. -/
def Run.free : Run → Bool
  | .pending _ | .row (_ + 1) | .driving _ | .searching .. | .filling .. | .committing ..
  | .driven _ => false
  | _ => true

theorem Run.drives_of_free (h : run.free = true) : run.drives = none := by
  cases run <;> first | rfl | cases h

/-- What holds of the row of a call. -/
structure Placed (s : State ι) : Prop where
  pending : ∀ slot, s.run = .pending slot → (s.rows slot).state ≠ .active
  driven : ∀ slot, s.run.drives = some slot → (s.rows slot).syntheticEvent = none
  left : ∀ slot, s.run = .row (slot + 1) → (s.rows slot).Left

theorem Placed.of_free (h : s.run.free = true) : Placed s := by
  refine ⟨fun slot hslot => ?_, fun slot hslot => ?_, fun slot hslot => ?_⟩
  · rw [hslot] at h
    cases h
  · rw [Run.drives_of_free h] at hslot
    cases hslot
  · rw [hslot] at h
    cases h

/-! ## Adapter calls -/

/-- What an adapter call may do to a row. -/
structure Row.Calm (row row' : Row) : Prop where
  active : row'.state = .active → row' = row
  event : row.syntheticEvent = none → row'.syntheticEvent = none

theorem Row.Calm.refl (row : Row) : row.Calm row := ⟨fun _ => rfl, id⟩

variable {row : Row}

theorem Row.Calm.withState {state : RowState} (h : state ≠ .active) :
    row.Calm { row with state := state } :=
  ⟨fun hactive => absurd hactive h, id⟩

variable {row' : Row}

theorem Row.Calm.fresh (h : row'.state ≠ .active) (hevent : row'.syntheticEvent = none) :
    row.Calm row' :=
  ⟨fun hactive => absurd hactive h, fun _ => hevent⟩

theorem Row.Left.calm (h : row.Left) (hcalm : row.Calm row') : row'.Left := by
  intro hactive
  obtain rfl := hcalm.active hactive
  exact h hactive

def Calm (s t : State ι) : Prop := ∀ k, (s.rows k).Calm (t.rows k)

theorem Calm.of_rows (h : t.rows = s.rows) : Calm s t := by
  intro k
  rw [h]
  exact .refl _

theorem Calm.write {k : ℕ} (hrows : t.rows = update s.rows k row) (hrow : (s.rows k).Calm row) :
    Calm s t := by
  intro j
  rw [hrows]
  by_cases hj : j = k
  · subst hj
    rw [update_self]
    exact hrow
  · rw [update_of_ne hj]
    exact .refl _

variable (s)

theorem emptyRow_calm (k : ℕ) : Calm s (s.emptyRow k) :=
  .write rfl (.fresh (by decide) rfl)

theorem fillRow_calm (k : ℕ) (context : Context) (session : Option ℕ) (depth : ℕ)
    (request : Request) : Calm s (s.fillRow config k context session depth request) := by
  unfold State.fillRow
  split_ifs
  · exact .write rfl (.fresh (fun h => by cases h) rfl)
  · exact emptyRow_calm s k

theorem commitRow_calm (k r : ℕ) : Calm s (s.commitRow k r) := by
  unfold State.commitRow
  dsimp only
  split_ifs
  · exact .write rfl (.withState (by decide))
  · exact .of_rows rfl

theorem markRow_calm (k : ℕ) : Calm s (s.markRow k) :=
  .write rfl (.withState (by decide))

theorem cancelStep_calm (scan : Scan) : Calm s (s.cancelStep config scan).1 := by
  unfold State.cancelStep
  cases scan.seen with
  | none => exact .of_rows rfl
  | some seen =>
    unfold State.mark
    dsimp only
    split_ifs
    · exact markRow_calm s scan.slot
    · exact .of_rows rfl
    · exact .of_rows rfl
    · exact .of_rows rfl

variable {s}

theorem cancelStep_run (s : State ι) (scan : Scan) : (s.cancelStep config scan).1.run = s.run := by
  unfold State.cancelStep
  cases scan.seen with
  | none => rfl
  | some seen =>
    unfold State.mark
    dsimp only
    split_ifs <;> rfl

theorem Placed.calm (h : Placed s) (hcalm : Calm s t) (hrun : t.run = s.run) : Placed t := by
  refine ⟨fun slot hslot hactive => ?_, fun slot hslot => ?_, fun slot hslot => ?_⟩
  · rw [hrun] at hslot
    rw [(hcalm slot).active hactive] at hactive
    exact h.pending slot hslot hactive
  · rw [hrun] at hslot
    exact (hcalm slot).event (h.driven slot hslot)
  · rw [hrun] at hslot
    exact (h.left slot hslot).calm (hcalm slot)

/-! ## Steps on a row -/

/-- **A step on a row**: the call stays, leaves the row, or fails. -/
inductive Moves (config : Config) (s : State ι) (answers : Answers) (slot : ℕ) (t : State ι) : Prop
  | stays (hfailure : failure config s answers = none) (hslot : t.run.slot = some slot)
      (hpending : t.run ≠ .pending slot)
      (hdriven : t.run.drives = some slot → (t.rows slot).syntheticEvent = none)
  | leaves (hfailure : failure config s answers = none) (hrun : t.run = .row (slot + 1))
      (hleft : (t.rows slot).Left)
  | fails (cause : Cause) (hfailure : failure config s answers = some cause) (hrun : t.run = .idle)

theorem Run.slot_of_drives (h : run.drives = some slot) : run.slot = some slot := by
  cases run <;> cases h <;> rfl

theorem Moves.rests (hfailure : failure config s answers = none) (hslot : t.run.slot = some slot)
    (hfree : t.run.free = true) : Moves config s answers slot t := by
  refine .stays hfailure hslot (fun h => ?_) fun h => ?_
  · rw [h] at hfree
    cases hfree
  · rw [Run.drives_of_free hfree] at h
    cases h

theorem Moves.placed (h : Moves config s answers slot t) : Placed t := by
  cases h with
  | stays hfailure hslot hpending hdriven =>
    refine ⟨fun k hk => ?_, fun k hk => ?_, fun k hk => ?_⟩
    · rw [hk] at hslot
      cases hslot
      exact absurd hk hpending
    · rw [Run.slot_of_drives hk] at hslot
      cases hslot
      exact hdriven hk
    · rw [hk] at hslot
      cases hslot
  | leaves hfailure hrun hleft =>
    refine ⟨fun k hk => ?_, fun k hk => ?_, fun k hk => ?_⟩
    · rw [hrun] at hk
      cases hk
    · rw [hrun] at hk
      cases hk
    · rw [hrun] at hk
      cases hk
      exact hleft
  | fails cause hfailure hrun => exact .of_free (by rw [hrun]; rfl)

theorem waitFailure_event (h : row.syntheticEvent.isSome = true) : waitFailure row = none := by
  unfold waitFailure
  rw [if_neg fun hwait => absurd (hwait.1.symm.trans h) (by decide)]

variable {session : Session}

theorem waitFailure_session (hevent : row.syntheticEvent.isSome = false)
    (hsession : row.session = some session) :
    waitFailure row = if session.mode.waits = true then some .handoff else none := by
  unfold waitFailure
  simp only [hevent, hsession, Option.any_some, true_and]

theorem waitFailure_none (hsession : row.session = none) : waitFailure row = none := by
  unfold waitFailure
  simp only [hsession, Option.any_none, Bool.false_eq_true, and_false, if_false]

theorem followed_moves (again : Bool)
    (hfailure : failure config s answers = waitFailure (s.rows slot)) :
    Moves config s answers slot (s.followed slot again) := by
  unfold State.followed
  by_cases hevent : (s.rows slot).syntheticEvent.isSome = true
  · rw [if_pos hevent]
    exact .stays (hfailure.trans (waitFailure_event hevent)) rfl (by rintro ⟨⟩)
      (fun h => by cases h)
  rw [if_neg hevent]
  have hnone : (s.rows slot).syntheticEvent.isSome = false := eq_false_of_ne_true hevent
  have hevent' : (s.rows slot).syntheticEvent = none := Option.not_isSome_iff_eq_none.mp hevent
  cases hsession : (s.rows slot).session with
  | none =>
    exact .stays (hfailure.trans (waitFailure_none hsession)) rfl (by rintro ⟨⟩)
      (fun h => by cases h)
  | some session =>
    have hwait := hfailure.trans (waitFailure_session hnone hsession)
    rw [Option.map_some]
    cases hmode : session.mode with
    | running =>
      rw [hmode] at hwait
      cases again with
      | true =>
        exact .leaves hwait rfl fun _ => ⟨hevent', session, hsession, .inl hmode⟩
      | false => exact .stays hwait rfl (by rintro ⟨⟩) fun _ => hevent'
    | navigating =>
      rw [hmode] at hwait
      exact .rests hwait rfl rfl
    | submitting =>
      rw [hmode] at hwait
      exact .fails _ hwait rfl
    | scripting =>
      rw [hmode] at hwait
      exact .fails _ hwait rfl
    | exited =>
      rw [hmode] at hwait
      exact .rests hwait rfl rfl
    | failed =>
      rw [hmode] at hwait
      exact .rests hwait rfl rfl

theorem followNavigation_moves {again : Bool} (hrun : s.run = .following slot again)
    (hsession : (s.rows slot).session = some session) (hmode : session.mode = .navigating) :
    Moves config s answers slot (s.followNavigation config slot again answers) := by
  have hfailure : failure config s answers =
      if config.maxNavigationHops ≤ (s.rows slot).navigationHops then some .hops
      else if answers.fails = true then some .child else none := by
    unfold failure
    simp only [hrun, hsession, Option.any_some, hmode, decide_true, if_true]
  unfold State.followNavigation
  by_cases hhops : config.maxNavigationHops ≤ (s.rows slot).navigationHops
  · rw [if_pos hhops] at hfailure
    rw [if_pos (.inl hhops)]
    exact .fails _ hfailure rfl
  rw [if_neg hhops] at hfailure
  by_cases hfails : answers.fails = true
  · rw [if_pos hfails] at hfailure
    rw [if_pos (.inr hfails)]
    exact .fails _ hfailure rfl
  rw [if_neg hfails] at hfailure
  rw [if_neg (not_or.mpr ⟨hhops, hfails⟩)]
  split_ifs
  · exact .rests hfailure rfl rfl
  · exact .rests hfailure rfl rfl
  · exact .rests hfailure rfl rfl

theorem drive_moves (hrun : s.run = .driving slot) (hsession : (s.rows slot).session = some session)
    (hevent : (s.rows slot).syntheticEvent = none) :
    Moves config s answers slot (s.drive config slot session answers) := by
  have hfailure : failure config s answers = driveFailure config s answers slot session := by
    unfold failure
    simp only [hrun, hsession]
  unfold driveFailure at hfailure
  unfold State.drive
  cases hsubdialog : session.subdialog with
  | inFlight generation =>
    rw [hsubdialog] at hfailure
    exact .stays hfailure rfl (by rintro ⟨⟩) fun _ => hevent
  | ready =>
    rw [hsubdialog] at hfailure
    by_cases hfails : answers.fails = true
    · rw [if_pos hfails] at hfailure
      rw [if_pos hfails]
      exact .fails _ hfailure rfl
    · rw [if_neg hfails] at hfailure
      rw [if_neg hfails]
      refine .stays hfailure rfl (by rintro ⟨⟩) fun _ => ?_
      simpa [State.goto, State.setSession, State.setRow] using hevent
  | none =>
    rw [hsubdialog] at hfailure
    cases hselected : session.selected with
    | none =>
      rw [hselected] at hfailure
      exact .stays hfailure rfl (by rintro ⟨⟩) fun _ => hevent
    | some selected =>
      obtain ⟨src, params⟩ := selected
      rw [hselected] at hfailure
      dsimp only at hfailure ⊢
      by_cases hfails : answers.fails = true
      · rw [if_pos hfails] at hfailure
        rw [if_pos (.inl hfails)]
        exact .fails _ hfailure rfl
      rw [if_neg hfails] at hfailure
      by_cases hrefused : prepareRefused config s.closed (s.rows slot).depth
          ⟨session.generation, src, params⟩ = true
      · rw [if_pos hrefused] at hfailure
        rw [if_pos (.inr hrefused)]
        exact .fails _ hfailure rfl
      · rw [if_neg hrefused] at hfailure
        rw [if_neg (not_or.mpr ⟨hfails, hrefused⟩)]
        exact .stays hfailure rfl (by rintro ⟨⟩) fun _ => hevent

theorem publish_moves (hrun : s.run = .publishing slot) :
    Moves config s answers slot (s.publish slot answers) := by
  have hfailure : failure config s answers = publishFailure s answers slot := by
    unfold failure
    simp only [hrun]
  unfold publishFailure at hfailure
  unfold State.publish
  dsimp only at hfailure ⊢
  cases hreceiver : s.receiver (s.rows slot) answers.ingress with
  | none =>
    rw [hreceiver] at hfailure
    exact .fails _ hfailure rfl
  | some receiver =>
    obtain ⟨session, ingress⟩ := receiver
    rw [hreceiver] at hfailure
    cases hparent : (s.rows slot).parent with
    | none =>
      rw [hparent] at hfailure
      exact .fails _ hfailure rfl
    | some context =>
      rw [hparent] at hfailure
      dsimp only at hfailure ⊢
      by_cases hfailed : (s.rows slot).syntheticEvent = none ∧
          ((s.rows slot).session = none ∨ answers.terminal = .failed)
      · rw [if_pos hfailed] at hfailure ⊢
        exact .fails _ hfailure rfl
      rw [if_neg hfailed] at hfailure ⊢
      by_cases hunsupported : (s.rows slot).syntheticEvent = none ∧ answers.terminal = .unsupported
      · rw [if_pos hunsupported] at hfailure ⊢
        refine .stays hfailure ?_ ?_ fun h => ?_
        · change s.run.slot = some slot
          rw [hrun]
          rfl
        · change s.run ≠ .pending slot
          rw [hrun]
          rintro ⟨⟩
        · change s.run.drives = some slot at h
          rw [hrun] at h
          cases h
      rw [if_neg hunsupported] at hfailure ⊢
      cases ingress with
      | accepted =>
        exact .rests hfailure rfl rfl
      | full => exact .fails _ hfailure rfl
      | stale => exact .rests hfailure rfl rfl
      | closed => exact .rests hfailure rfl rfl
      | other => exact .fails _ hfailure rfl

theorem emptyRow_left (s : State ι) (slot : ℕ) : ((s.emptyRow slot).rows slot).Left := by
  intro hactive
  have hblank : (s.emptyRow slot).rows slot = .blank := by
    simp [State.emptyRow, State.setRow]
  rw [hblank] at hactive
  cases hactive

theorem consume_moves (hrun : s.run = .consuming slot) :
    Moves config s answers slot (s.consume slot answers) := by
  have hfailure : failure config s answers =
      if answers.fails = true ∨ answers.consumes = false then some .parent else none := by
    unfold failure
    simp only [hrun]
  unfold State.consume
  by_cases hfails : answers.fails = true ∨ answers.consumes = false
  · rw [if_pos hfails] at hfailure ⊢
    exact .fails _ hfailure rfl
  · rw [if_neg hfails] at hfailure ⊢
    exact .leaves hfailure rfl (emptyRow_left _ slot)

theorem finish_moves {after : After} (hrun : s.run = .destroying slot after) :
    Moves config s answers slot (s.finish slot answers after) := by
  have hfailure : failure config s answers = none := by
    unfold failure
    simp only [hrun]
  cases after with
  | clear => exact .leaves hfailure rfl (emptyRow_left _ slot)
  | deliver => exact .rests hfailure rfl rfl
  | follow document again => exact .rests hfailure rfl rfl

/-- A row with an event is published, and a session that navigates is followed. -/
theorem progressing_moves (hrun : s.run = .progressing slot)
    (hstep : s.stepRun config answers = some t) : Moves config s answers slot t := by
  simp only [State.stepRun, hrun] at hstep
  by_cases hevent : (s.rows slot).syntheticEvent.isSome = true
  · rw [if_pos hevent] at hstep
    cases hstep
    have hfailure : failure config s answers = none := by
      simp only [failure, hrun, hevent, waitFailure_event hevent, Bool.true_eq_false, false_and,
        if_false]
    exact .rests hfailure rfl rfl
  rw [if_neg hevent] at hstep
  have hevent' := eq_false_of_ne_true hevent
  cases hsession : (s.rows slot).session with
  | none =>
    rw [hsession] at hstep
    cases hstep
    have hfailure : failure config s answers = some .session := by
      simp only [failure, hrun, hevent', hsession, true_and, if_true]
    exact .fails _ hfailure rfl
  | some session =>
    rw [hsession] at hstep
    have hfailure : failure config s answers = waitFailure (s.rows slot) := by
      simp only [failure, hrun, hsession, Option.some_ne_none, and_false, if_false]
    dsimp only at hstep
    split_ifs at hstep with hmode
    · cases hstep
      have hnone := hfailure.trans (waitFailure_session hevent' hsession)
      rw [hmode] at hnone
      exact .rests hnone rfl rfl
    · cases hstep
      exact followed_moves false hfailure

theorem following_moves {again : Bool} (hrun : s.run = .following slot again)
    (hstep : s.stepRun config answers = some t) : Moves config s answers slot t := by
  simp only [State.stepRun, hrun] at hstep
  cases hsession : (s.rows slot).session with
  | none =>
    rw [hsession] at hstep
    cases hstep
    refine followed_moves again ?_
    simp only [failure, hrun, hsession, Option.any_none, Bool.false_eq_true, if_false]
  | some session =>
    rw [hsession] at hstep
    dsimp only at hstep
    split_ifs at hstep with hmode
    · cases hstep
      exact followNavigation_moves hrun hsession hmode
    · cases hstep
      refine followed_moves again ?_
      simp only [failure, hrun, hsession, Option.any_some, decide_eq_true_eq, if_neg hmode]

variable (h : Placed s)
include h

theorem driving_moves (hrun : s.run = .driving slot)
    (hstep : s.stepRun config answers = some t) : Moves config s answers slot t := by
  have hevent := h.driven slot (by rw [hrun]; rfl)
  simp only [State.stepRun, hrun] at hstep
  cases hsession : (s.rows slot).session with
  | none =>
    rw [hsession] at hstep
    cases hstep
    have hfailure : failure config s answers = some .session := by
      simp only [failure, hrun, hsession]
    exact .fails _ hfailure rfl
  | some session =>
    rw [hsession] at hstep
    cases hstep
    exact drive_moves hrun hsession hevent

theorem searching_moves {request : Request} {free : ℕ} (hrun : s.run = .searching slot request free)
    (hstep : s.stepRun config answers = some t) : Moves config s answers slot t := by
  have hevent := h.driven slot (by rw [hrun]; rfl)
  have hfailure : failure config s answers
      = if config.capacity ≤ free then some .full else none := by
    simp only [failure, hrun]
  simp only [State.stepRun, hrun] at hstep
  by_cases hfull : config.capacity ≤ free
  · rw [if_pos hfull] at hfailure hstep
    cases hstep
    exact .fails _ hfailure rfl
  rw [if_neg hfull] at hfailure hstep
  split_ifs at hstep
  · cases hstep
    have hcalm : Calm s (s.setRow free { s.rows free with state := .writing }) :=
      .write rfl (.withState (by decide))
    exact .stays hfailure rfl (by rintro ⟨⟩) fun _ => (hcalm slot).event hevent
  · cases hstep
    exact .stays hfailure rfl (by rintro ⟨⟩) fun _ => hevent

theorem filling_moves {request : Request} {free : ℕ} (hrun : s.run = .filling slot request free)
    (hstep : s.stepRun config answers = some t) : Moves config s answers slot t := by
  have hevent := h.driven slot (by rw [hrun]; rfl)
  have hfailure : failure config s answers
      = if copyParams config.maxParamBytes 0 request.params = true then none
        else some .request := by
    simp only [failure, hrun]
  simp only [State.stepRun, hrun] at hstep
  cases hstep
  by_cases hcopied : copyParams config.maxParamBytes 0 request.params = true
  · rw [if_pos hcopied] at hfailure
    rw [if_pos hcopied]
    exact .stays hfailure rfl (by rintro ⟨⟩) fun _ =>
      (fillRow_calm s free _ _ _ _ slot).event hevent
  · rw [if_neg hcopied] at hfailure
    rw [if_neg hcopied]
    exact .fails _ hfailure rfl

theorem committing_moves {free reservation : ℕ} (hrun : s.run = .committing slot free reservation)
    (hstep : s.stepRun config answers = some t) : Moves config s answers slot t := by
  have hevent := h.driven slot (by rw [hrun]; rfl)
  have hfailure : failure config s answers
      = if (s.rows slot).session = none then some .session else none := by
    simp only [failure, hrun]
  simp only [State.stepRun, hrun] at hstep
  cases hsession : (s.rows slot).session with
  | none =>
    rw [hsession] at hstep
    rw [if_pos hsession] at hfailure
    cases hstep
    exact .fails _ hfailure rfl
  | some session =>
    rw [hsession] at hstep
    rw [if_neg (by rw [hsession]; exact Option.some_ne_none session)] at hfailure
    cases hstep
    refine .stays hfailure rfl (by rintro ⟨⟩) fun _ => (commitRow_calm _ free _ slot).event ?_
    simpa [State.setSession, State.setRow] using hevent

/-- Behind `drive_parent_context` a session that waits leaves its row. -/
theorem driven_moves (hrun : s.run = .driven slot)
    (hstep : s.stepRun config answers = some t) : Moves config s answers slot t := by
  have hevent := h.driven slot (by rw [hrun]; rfl)
  have hevent' : (s.rows slot).syntheticEvent.isSome = false := by rw [hevent]; rfl
  have hfailure : failure config s answers = none := by simp only [failure, hrun]
  simp only [State.stepRun, hrun] at hstep
  cases hsession : (s.rows slot).session with
  | none =>
    rw [hsession] at hstep
    cases hstep
    exact followed_moves true (hfailure.trans (waitFailure_none hsession).symm)
  | some session =>
    rw [hsession, Option.map_some] at hstep
    have hwait := waitFailure_session hevent' hsession
    cases hmode : session.mode with
    | navigating =>
      rw [hmode] at hstep
      cases hstep
      exact .rests hfailure rfl rfl
    | submitting =>
      rw [hmode] at hstep
      cases hstep
      exact .leaves hfailure rfl fun _ => ⟨hevent, session, hsession, .inr (by rw [hmode]; rfl)⟩
    | scripting =>
      rw [hmode] at hstep
      cases hstep
      exact .leaves hfailure rfl fun _ => ⟨hevent, session, hsession, .inr (by rw [hmode]; rfl)⟩
    | running =>
      rw [hmode] at hstep hwait
      cases hstep
      exact followed_moves true (hfailure.trans hwait.symm)
    | exited =>
      rw [hmode] at hstep hwait
      cases hstep
      exact followed_moves true (hfailure.trans hwait.symm)
    | failed =>
      rw [hmode] at hstep hwait
      cases hstep
      exact followed_moves true (hfailure.trans hwait.symm)

/-- **One step on a row.** -/
theorem stepRun_moves (hslot : s.run.slot = some slot)
    (hstep : s.stepRun config answers = some t) : Moves config s answers slot t := by
  cases hrun : s.run <;> rw [hrun] at hslot <;> cases hslot
  case pending =>
    have hfailure : failure config s answers = none := by simp only [failure, hrun]
    have hactive := h.pending slot hrun
    simp only [State.stepRun, hrun] at hstep
    split_ifs at hstep
    · cases hstep
      exact .rests hfailure rfl rfl
    · cases hstep
      exact .leaves hfailure rfl fun hstate => absurd hstate hactive
  case acquiring =>
    have hfailure : failure config s answers = none := by simp only [failure, hrun]
    simp only [State.stepRun, hrun] at hstep
    cases hstep
    exact .rests hfailure rfl rfl
  case active =>
    have hfailure : failure config s answers = none := by simp only [failure, hrun]
    simp only [State.stepRun, hrun] at hstep
    split_ifs at hstep with hactive
    · cases hstep
      exact .rests hfailure rfl rfl
    · cases hstep
      exact .leaves hfailure rfl fun hstate => absurd hstate hactive
  case progressing =>
    exact progressing_moves hrun hstep
  case following again =>
    exact following_moves hrun hstep
  case driving =>
    exact driving_moves h hrun hstep
  case searching request free =>
    exact searching_moves h hrun hstep
  case filling request free =>
    exact filling_moves h hrun hstep
  case committing free reservation =>
    exact committing_moves h hrun hstep
  case driven =>
    exact driven_moves h hrun hstep
  case publishing =>
    simp only [State.stepRun, hrun] at hstep
    cases hstep
    exact publish_moves hrun
  case closing after =>
    have hfailure : failure config s answers = none := by simp only [failure, hrun]
    simp only [State.stepRun, hrun] at hstep
    split at hstep
    · cases hstep
      split_ifs
      · exact .rests hfailure rfl rfl
      · exact .rests hfailure rfl rfl
    · cases hstep
      exact .rests hfailure rfl rfl
  case canceling scan after =>
    have hfailure : failure config s answers = none := by simp only [failure, hrun]
    simp only [State.stepRun, hrun] at hstep
    cases hstep
    cases (s.cancelStep config scan).2 with
    | none => exact .rests hfailure rfl rfl
    | some next => exact .rests hfailure rfl rfl
  case destroying after =>
    simp only [State.stepRun, hrun] at hstep
    cases hstep
    exact finish_moves hrun
  case consuming =>
    simp only [State.stepRun, hrun] at hstep
    cases hstep
    exact consume_moves hrun

omit h

theorem stepRun_row (hrun : s.run = .row slot) (hstep : s.stepRun config answers = some t) :
    failure config s answers = none ∧ t.rows = s.rows ∧
      ((config.capacity ≤ slot ∨ answers.resumes = false) ∧ t.run = .idle ∨
        ¬(config.capacity ≤ slot ∨ answers.resumes = false) ∧
          (t.run = .row (slot + 1) ∧ (s.rows slot).state ≠ .active ∨
            t.run = .pending slot ∧ (s.rows slot).state = .pending ∨
            t.run = .active slot ∨ t.run = .closing slot .clear)) := by
  refine ⟨by simp only [failure, hrun], ?_⟩
  simp only [State.stepRun, hrun] at hstep
  by_cases hend : config.capacity ≤ slot ∨ answers.resumes = false
  · rw [if_pos hend] at hstep
    cases hstep
    exact ⟨rfl, .inl ⟨hend, rfl⟩⟩
  rw [if_neg hend] at hstep
  cases hstate : (s.rows slot).state with
  | canceled =>
    rw [hstate] at hstep
    cases hstep
    exact ⟨rfl, .inr ⟨hend, .inr (.inr (.inr rfl))⟩⟩
  | pending =>
    rw [hstate] at hstep
    cases hstep
    exact ⟨rfl, .inr ⟨hend, .inr (.inl ⟨rfl, rfl⟩)⟩⟩
  | active =>
    rw [hstate] at hstep
    cases hstep
    exact ⟨rfl, .inr ⟨hend, .inr (.inr (.inl rfl))⟩⟩
  | empty =>
    rw [hstate] at hstep
    cases hstep
    exact ⟨rfl, .inr ⟨hend, .inl ⟨rfl, by decide⟩⟩⟩
  | writing =>
    rw [hstate] at hstep
    cases hstep
    exact ⟨rfl, .inr ⟨hend, .inl ⟨rfl, by decide⟩⟩⟩
  | reserved =>
    rw [hstate] at hstep
    cases hstep
    exact ⟨rfl, .inr ⟨hend, .inl ⟨rfl, by decide⟩⟩⟩

end Steps

/-! ## Calls that go over the rows -/

section Scans

variable {ι : Type} {config : Config} {s t : State ι} {o o' : Owner ι}

structure Scans (config : Config) (o : Owner ι) : Prop where
  placed : Placed o.state
  row : ∀ slot, o.state.run = .row slot →
    slot ≤ config.capacity ∧ o.visited = List.range slot ∧ o.processed ≤ slot + 1
  within : ∀ slot, o.state.run.slot = some slot →
    slot < config.capacity ∧ o.visited = List.range (slot + 1) ∧ o.processed ≤ slot + 1
  busy : o.state.run ≠ .idle → o.result = none
  ended : o.state.run = .idle → ∃ k, k ≤ config.capacity ∧ o.visited = List.range k ∧
    (o.result = some (.ok ()) → config.capacity < o.maxWork → k = config.capacity)

theorem Scans.idle (hrun : o.state.run = .idle) (h : ∃ k, k ≤ config.capacity ∧
    o.visited = List.range k ∧
      (o.result = some (.ok ()) → config.capacity < o.maxWork → k = config.capacity)) :
    Scans config o := by
  refine ⟨⟨?_, ?_, ?_⟩, ?_, ?_, fun hbusy => absurd hrun hbusy, fun _ => h⟩
  all_goals
    intro slot h
    rw [hrun] at h
    cases h

variable {slot : ℕ}

theorem Scans.between (hplaced : Placed o.state) (hrun : o.state.run = .row slot)
    (hresult : o.result = none)
    (h : slot ≤ config.capacity ∧ o.visited = List.range slot ∧ o.processed ≤ slot + 1) :
    Scans config o := by
  refine ⟨hplaced, fun k hk => ?_, fun k hk => ?_, fun _ => hresult, fun hk => ?_⟩
  · rw [hrun] at hk
    cases hk
    exact h
  · rw [hrun] at hk
    cases hk
  · rw [hrun] at hk
    cases hk

theorem Scans.inside (hplaced : Placed o.state) (hslot : o.state.run.slot = some slot)
    (hresult : o.result = none)
    (h : slot < config.capacity ∧ o.visited = List.range (slot + 1) ∧ o.processed ≤ slot + 1) :
    Scans config o := by
  refine ⟨hplaced, fun k hk => ?_, fun k hk => ?_, fun _ => hresult, fun hk => ?_⟩
  · rw [hk] at hslot
    cases hslot
  · rw [hslot] at hk
    cases hk
    exact h
  · rw [hk] at hslot
    cases hslot

theorem Scans.init (h : o.Init) : Scans config o := by
  obtain ⟨hstate, -, hvisited, hresult⟩ := h
  refine .idle hstate.2.2.2.1 ⟨0, Nat.zero_le _, hvisited, fun h => ?_⟩
  rw [hresult] at h
  cases h

theorem Scans.frame (h : Scans config o) (hplaced : Placed o'.state)
    (hrun : o'.state.run = o.state.run) (hvisited : o'.visited = o.visited)
    (hprocessed : o'.processed = o.processed) (hmaxWork : o'.maxWork = o.maxWork)
    (hresult : o'.result = o.result) : Scans config o' := by
  refine ⟨hplaced, ?_, ?_, ?_, ?_⟩
  · rw [hrun, hvisited, hprocessed]
    exact h.row
  · rw [hrun, hvisited, hprocessed]
    exact h.within
  · rw [hrun, hresult]
    exact h.busy
  · rw [hrun, hvisited, hresult, hmaxWork]
    exact h.ended

variable {answers : Answers}

theorem resultOf_none (h : s.run ≠ .idle) : o.resultOf config answers s = none := by
  unfold Owner.resultOf
  rw [if_neg h]

theorem resultOf_error (hidle : (failure config o.state answers).isSome = true →
    s.run = .idle) (cause : Cause) :
    o.resultOf config answers s = some (.error cause)
      ↔ failure config o.state answers = some cause := by
  unfold Owner.resultOf
  cases hfailure : failure config o.state answers with
  | none =>
    split_ifs
    · exact iff_of_false (fun h => by cases h) (fun h => by cases h)
    · exact iff_of_false (fun h => by cases h) (fun h => by cases h)
  | some cause' =>
    rw [if_pos (hidle (by rw [hfailure]; rfl))]
    constructor
    · intro h
      cases h
      rfl
    · intro h
      cases h
      rfl

theorem looks_of_slot (h : o.state.run.slot = some slot) : o.looks config = [] := by
  unfold Owner.looks
  cases hrun : o.state.run with
  | row k =>
    rw [hrun] at h
    cases h
  | _ => rfl

theorem arrives_of_slot (h : s.run.slot = some slot) : Owner.arrives s = false := by
  unfold Owner.arrives
  cases hrun : s.run with
  | row k =>
    rw [hrun] at h
    cases h
  | _ => rfl

variable {report : Report}

theorem Scans.move (h : Scans config o) (hslot : o.state.run.slot = some slot)
    (hmoves : Moves config o.state (o.told answers report) slot s) (hstate : o'.state = s)
    (hvisited : o'.visited = o.visited ++ o.looks config)
    (hprocessed : o'.processed = o.processed + (Owner.arrives s && o.progresses).toNat)
    (hresult : o'.result = o.resultOf config (o.told answers report) s) : Scans config o' := by
  obtain ⟨hbound, hrange, hcount⟩ := h.within slot hslot
  rw [looks_of_slot hslot, List.append_nil] at hvisited
  have hplaced := hmoves.placed
  subst hstate
  cases hmoves with
  | stays hfailure hslot' hpending hdriven =>
    rw [arrives_of_slot hslot'] at hprocessed
    refine .inside hplaced hslot' (hresult.trans (resultOf_none ?_))
      ⟨hbound, hvisited.trans hrange, ?_⟩
    · intro hrun
      rw [hrun] at hslot'
      cases hslot'
    rw [hprocessed]
    exact hcount
  | leaves hfailure hrun hleft =>
    refine .between hplaced hrun (hresult.trans (resultOf_none ?_))
      ⟨hbound, hvisited.trans hrange, ?_⟩
    · rw [hrun]
      rintro ⟨⟩
    have hone := Bool.toNat_le (Owner.arrives o'.state && o.progresses)
    omega
  | fails cause hfailure hrun =>
    refine .idle hrun ⟨slot + 1, hbound, hvisited.trans hrange, fun hok => ?_⟩
    rw [hresult, Owner.resultOf, if_pos hrun, hfailure] at hok
    cases hok

theorem Scans.look (h : Scans config o) (hrun : o.state.run = .row slot)
    (hstep : o.state.stepRun config (o.told answers report) = some o'.state)
    (hvisited : o'.visited = o.visited ++ o.looks config)
    (hprocessed : o'.processed = o.processed + (Owner.arrives o'.state && o.progresses).toNat)
    (hmaxWork : o'.maxWork = o.maxWork)
    (hresult : o'.result = o.resultOf config (o.told answers report) o'.state) :
    Scans config o' := by
  obtain ⟨hbound, hrange, hcount⟩ := h.row slot hrun
  have hbusy : o'.state.run ≠ .idle → o'.result = none :=
    fun hrun' => hresult.trans (resultOf_none hrun')
  have hprogresses : o.progresses = false := by simp only [Owner.progresses, hrun]
  rw [hprogresses, Bool.and_false] at hprocessed
  obtain ⟨-, hrows, ⟨hend, hidle⟩ | ⟨hgoes, hnext⟩⟩ := stepRun_row hrun hstep
  · have hlooks : o.looks config = [] := by
      simp only [Owner.looks, hrun]
      rw [if_neg]
      rintro ⟨hslot, hbudget⟩
      rcases hend with hend | hend
      · omega
      · exact of_decide_eq_false hend hbudget
    rw [hlooks, List.append_nil] at hvisited
    refine .idle hidle ⟨slot, hbound, hvisited.trans hrange, fun _ hbudget => ?_⟩
    rcases hend with hend | hend
    · omega
    · have hspent := of_decide_eq_false hend
      omega
  have hslot : slot < config.capacity := Nat.lt_of_not_le fun h => hgoes (.inl h)
  have hbudget : o.processed < o.maxWork :=
    of_decide_eq_true (eq_true_of_ne_false fun h => hgoes (.inr h))
  have hvisited' : o'.visited = List.range (slot + 1) := by
    simp only [hvisited, Owner.looks, hrun, if_pos (And.intro hslot hbudget), hrange,
      List.range_succ]
  have hcount' : o'.processed ≤ slot + 1 := by
    rw [hprocessed]
    exact hcount
  rcases hnext with ⟨hnext, hstate⟩ | ⟨hnext, hstate⟩ | hnext | hnext
  · refine .between ⟨fun k hk => ?_, fun k hk => ?_, fun k hk hactive => ?_⟩ hnext
      (hbusy (by rw [hnext]; rintro ⟨⟩)) ⟨hslot, hvisited', Nat.le_succ_of_le hcount'⟩
    · rw [hnext] at hk
      cases hk
    · rw [hnext] at hk
      cases hk
    · rw [hnext] at hk
      cases hk
      rw [hrows] at hactive
      exact absurd hactive hstate
  · refine .inside ⟨fun k hk => ?_, fun k hk => ?_, fun k hk => ?_⟩ (by rw [hnext]; rfl)
      (hbusy (by rw [hnext]; rintro ⟨⟩)) ⟨hslot, hvisited', hcount'⟩
    · rw [hnext] at hk
      cases hk
      rw [hrows, hstate]
      decide
    · rw [hnext] at hk
      cases hk
    · rw [hnext] at hk
      cases hk
  · exact .inside (.of_free (by rw [hnext]; rfl)) (by rw [hnext]; rfl)
      (hbusy (by rw [hnext]; rintro ⟨⟩)) ⟨hslot, hvisited', hcount'⟩
  · exact .inside (.of_free (by rw [hnext]; rfl)) (by rw [hnext]; rfl)
      (hbusy (by rw [hnext]; rintro ⟨⟩)) ⟨hslot, hvisited', hcount'⟩

theorem Run.of_slot (h : run.slot = none) : run = .idle ∨ ∃ slot, run = .row slot := by
  cases run with
  | idle => exact .inl rfl
  | row slot => exact .inr ⟨slot, rfl⟩
  | _ => cases h

theorem bindRoot_scans (h : Scans config o) : Scans config (o.bindRoot config) := by
  unfold Owner.bindRoot
  split_ifs
  · exact h
  · exact h.frame h.placed rfl rfl rfl rfl rfl

/-- **A step of a call.** -/
theorem Scans.proceed (h : Scans config o) (hstep : o.proceed config answers report = some o') :
    Scans config o' ∧ ∀ cause, o'.result = some (.error cause) ↔
      failure config o.state (o.told answers report) = some cause := by
  unfold Owner.proceed at hstep
  cases hstate : o.state.stepRun config (o.told answers report) with
  | none =>
    rw [hstate] at hstep
    cases hstep
  | some s =>
    rw [hstate] at hstep
    cases hstep
    cases hslot : o.state.run.slot with
    | some slot =>
      have hmoves := stepRun_moves h.placed hslot hstate
      refine ⟨h.move hslot hmoves rfl rfl rfl rfl, fun cause => resultOf_error ?_ cause⟩
      intro hfailure
      cases hmoves with
      | stays hnone => rw [hnone] at hfailure; cases hfailure
      | leaves hnone => rw [hnone] at hfailure; cases hfailure
      | fails cause hfailed hrun => exact hrun
    | none =>
      rcases Run.of_slot hslot with hrun | ⟨slot, hrun⟩
      · simp only [State.stepRun, hrun] at hstate
        cases hstate
      · refine ⟨h.look hrun hstate rfl rfl rfl rfl, fun cause => resultOf_error ?_ cause⟩
        intro hfailure
        rw [(stepRun_row hrun hstate).1] at hfailure
        cases hfailure

theorem proceed_isSome (hrun : o.state.run ≠ .idle) (answers : Answers) (report : Report) :
    (o.proceed config answers report).isSome = true := by
  unfold Owner.proceed
  rw [Option.isSome_map]
  exact stepRun_isSome hrun

end Scans

/-! ## Steps of an owner -/

section Owners

variable {ι : Type} [DecidableEq ι] {config : Config} {s t : State ι} {o o' : Owner ι}

theorem stepTask_calm {i : ι} (h : s.stepTask config i = some t) : Calm s t ∧ t.run = s.run := by
  unfold State.stepTask at h
  cases htask : s.tasks i with
  | idle =>
    rw [htask] at h
    cases h
  | ticket slot reservation =>
    rw [htask] at h
    cases h
  | done =>
    rw [htask] at h
    cases h
  | searching request slot =>
    rw [htask] at h
    dsimp only at h
    split_ifs at h
    · cases h
      exact ⟨.of_rows rfl, rfl⟩
    · cases h
      exact ⟨.write rfl (.withState (by decide)), rfl⟩
    · cases h
      exact ⟨.of_rows rfl, rfl⟩
  | filling request slot =>
    rw [htask] at h
    cases h
    refine ⟨fillRow_calm s slot .root none 0 request, ?_⟩
    simp only [State.setTask, State.fillRow, State.setRow, State.emptyRow]
    split_ifs <;> rfl
  | discarding slot =>
    rw [htask] at h
    cases h
    exact ⟨emptyRow_calm s slot, rfl⟩
  | canceling scan =>
    rw [htask] at h
    cases h
    exact ⟨cancelStep_calm s scan, cancelStep_run s scan⟩
  | closing slot seen =>
    rw [htask] at h
    cases seen with
    | none =>
      dsimp only at h
      split_ifs at h
      · cases h
        exact ⟨.of_rows rfl, rfl⟩
      · cases h
        exact ⟨.of_rows rfl, rfl⟩
      · cases h
        exact ⟨.of_rows rfl, rfl⟩
    | some seen =>
      dsimp only at h
      split_ifs at h
      · cases h
        exact ⟨markRow_calm s slot, rfl⟩
      · cases h
        exact ⟨.of_rows rfl, rfl⟩

/-- **An adapter call** makes no row active. -/
theorem step_calm {a : Action ι} (ha : a.runs = false) (h : Subdialogs.step config s a = some t) :
    Calm s t ∧ t.run = s.run := by
  cases a with
  | prepare i request =>
    simp only [Subdialogs.step] at h
    split_ifs at h
    cases h
    exact ⟨.of_rows rfl, rfl⟩
  | cancel i context generation =>
    simp only [Subdialogs.step] at h
    split_ifs at h
    cases h
    exact ⟨.of_rows rfl, rfl⟩
  | close i =>
    simp only [Subdialogs.step] at h
    split_ifs at h
    cases h
    exact ⟨.of_rows rfl, rfl⟩
  | commit i =>
    simp only [Subdialogs.step, State.commitTicket] at h
    cases htask : s.tasks i <;> rw [htask] at h <;> cases h
    exact ⟨commitRow_calm s _ _, commitRow_run _ _⟩
  | discard i =>
    simp only [Subdialogs.step, State.discardTicket] at h
    cases htask : s.tasks i <;> rw [htask] at h <;> try cases h
    dsimp only at h
    split_ifs at h
    · cases h
      exact ⟨.write rfl (.withState (by decide)), rfl⟩
    · cases h
      exact ⟨.of_rows rfl, rfl⟩
  | task i => exact stepTask_calm h
  | runReady => cases ha
  | proceed answers => cases ha

theorem Scans.runReady {maxWork : ℕ} {root : RootAnswers}
    (hstep : o.runReady config maxWork root = some o') : Scans config o' := by
  unfold Owner.runReady at hstep
  by_cases hrefused : o.state.run ≠ .idle ∨ maxWork = 0
  · rw [if_pos hrefused] at hstep
    cases hstep
  rw [if_neg hrefused] at hstep
  have hrun : o.state.run = .idle := Decidable.not_not.mp fun h => hrefused (.inl h)
  generalize (if o.state.closed = false ∧ o.bound = true then driveParentContext root
    else some false) = driven at hstep
  cases driven with
  | none =>
    cases hstep
    exact .idle hrun ⟨0, Nat.zero_le _, rfl, fun h => by cases h⟩
  | some progressed =>
    have hone : progressed.toNat ≤ 1 := Bool.toNat_le progressed
    dsimp only at hstep
    split_ifs at hstep with hspent
    · cases hstep
      refine .idle hrun ⟨0, Nat.zero_le _, rfl, fun _ hbudget => ?_⟩
      change config.capacity < maxWork at hbudget
      omega
    · simp only [Subdialogs.step, if_pos hrun, Option.map_some] at hstep
      cases hstep
      exact .between (.of_free rfl) rfl rfl ⟨Nat.zero_le _, rfl, hone⟩

/-- **One step of an owner.** -/
theorem Scans.step {a : OwnerAction ι} (h : Scans config o) (hstep : o.step config a = some o') :
    Scans config o' := by
  cases a with
  | adapter a =>
    simp only [Owner.step] at hstep
    by_cases hruns : a.runs = true
    · rw [if_pos hruns] at hstep
      cases hstep
    rw [if_neg hruns] at hstep
    cases hstate : Subdialogs.step config o.state a with
    | none =>
      rw [hstate] at hstep
      cases hstep
    | some s =>
      rw [hstate] at hstep
      cases hstep
      obtain ⟨hcalm, hrun⟩ := step_calm (eq_false_of_ne_true hruns) hstate
      exact h.frame (h.placed.calm hcalm hrun) hrun rfl rfl rfl rfl
  | bindRoot =>
    cases hstep
    exact bindRoot_scans h
  | runReady maxWork root => exact .runReady hstep
  | proceed answers report => exact (h.proceed hstep).1

/-! ## Visits -/

/-- **What a call does.** -/
structure Visits (config : Config) (o : Owner ι) : Prop where
  complete : o.result = some (.ok ()) → config.capacity < o.maxWork →
    ∀ k, k < config.capacity → k ∈ o.visited
  ordered : ∃ k, k ≤ config.capacity ∧ o.visited = List.range k
  left : ∀ slot, o.state.run = .row (slot + 1) → (o.state.rows slot).Left
  fails : ∀ answers report o', o.proceed config answers report = some o' → ∀ cause,
    o'.result = some (.error cause) ↔ failure config o.state (o.told answers report) = some cause
  returns : o.state.run ≠ .idle → ∀ answers report, (o.proceed config answers report).isSome = true
  finite : Acc (fun o' o : Owner ι => ∃ answers report, o.proceed config answers report = some o') o

/-- **Main.** Whatever calls of the adapter come in between, a call that succeeds has visited every
row, and one that fails the rows up to the failing one. -/
theorem visits_sound (h : Reachable (Owner.step config) Owner.Init o) : Visits config o := by
  have hscans : Scans config o :=
    h.invariant (fun _ hinit => .init hinit) fun _ _ _ h hstep => h.step hstep
  have hacc :
      Acc (fun o' o : Owner ι => ∃ answers report, o.proceed config answers report = some o')
        o := by
    have hstate := InvImage.accessible (f := Owner.state) (stepRun_acc config o.state)
    refine Subrelation.accessible ?_ hstate
    rintro o' o ⟨answers, report, hstep⟩
    obtain ⟨s, hs, rfl⟩ := Option.map_eq_some_iff.mp hstep
    exact ⟨_, hs⟩
  have hordered : ∃ k, k ≤ config.capacity ∧ o.visited = List.range k := by
    cases hslot : o.state.run.slot with
    | some slot => exact ⟨slot + 1, (hscans.within slot hslot).1, (hscans.within slot hslot).2.1⟩
    | none =>
      rcases Run.of_slot hslot with hrun | ⟨slot, hrun⟩
      · obtain ⟨k, hk, hvisited, -⟩ := hscans.ended hrun
        exact ⟨k, hk, hvisited⟩
      · exact ⟨slot, (hscans.row slot hrun).1, (hscans.row slot hrun).2.1⟩
  have hcomplete : o.result = some (.ok ()) → config.capacity < o.maxWork →
      ∀ k, k < config.capacity → k ∈ o.visited := by
    intro hresult hbudget k hk
    have hrun : o.state.run = .idle := Decidable.byContradiction fun hrun => by
      rw [hscans.busy hrun] at hresult
      cases hresult
    obtain ⟨last, -, hvisited, hlast⟩ := hscans.ended hrun
    rw [hvisited, hlast hresult hbudget]
    exact List.mem_range.mpr hk
  exact ⟨hcomplete, hordered, hscans.placed.left, fun answers report o' hstep =>
    (hscans.proceed hstep).2, proceed_isSome, hacc⟩

end Owners

/-! ## A row that blocks another one -/

def twoRows : Config := ⟨2, 8, 1, 1, 8, 8⟩

def unbound : Owner ℕ where
  state := opened
  maxCompletionEntries := 4
  bound := false
  maxWork := 0
  processed := 0
  acquired := false
  progressed := false
  visited := []
  result := none

theorem unbound_init : unbound.Init := ⟨opened_init, rfl, rfl, rfl⟩

def becomes (mode : Mode) : Answers := { exits with mode := mode }

def unreported : Report := ⟨true, .none, true, true, .empty, 0, true⟩

def restful : RootAnswers := ⟨.invalidState, false, .invalidState, .ok⟩

def calls (steps : ℕ) (mode : Mode) : List (OwnerAction ℕ) :=
  .runReady 3 restful :: List.replicate steps (.proceed (becomes mode) unreported)

def asksFor (i generation busy : ℕ) : List (OwnerAction ℕ) :=
  .adapter (.prepare i ⟨generation, ['s'], []⟩) ::
    List.replicate (busy + 2) (.adapter (.task i)) ++ [.adapter (.commit i)]

def cancelsAt (i generation before : ℕ) : List (OwnerAction ℕ) :=
  .adapter (.cancel i .root generation) :: List.replicate (before + 2) (.adapter (.task i))

def firstCall : List (OwnerAction ℕ) :=
  .bindRoot :: asksFor 0 1 0 ++ cancelsAt 1 1 0 ++ asksFor 2 2 1 ++ calls 11 .running

def betweenCalls : List (OwnerAction ℕ) :=
  firstCall ++ cancelsAt 3 2 1 ++ asksFor 4 3 0

theorem firstCall_runs : (exec (Owner.step twoRows) unbound firstCall).isSome = true := by
  decide +kernel

theorem betweenCalls_runs : (exec (Owner.step twoRows) unbound betweenCalls).isSome = true := by
  decide +kernel

def waiting : Owner ℕ := (exec (Owner.step twoRows) unbound betweenCalls).get betweenCalls_runs

theorem submitting_runs :
    (exec (Owner.step twoRows) waiting (calls 5 .submitting)).isSome = true := by
  decide +kernel

theorem visits_firstCall :
    Visits twoRows ((exec (Owner.step twoRows) unbound firstCall).get firstCall_runs) ∧
      ((exec (Owner.step twoRows) unbound firstCall).get firstCall_runs).visited = [0, 1] :=
  ⟨visits_sound ((Reachable.of_init unbound_init).runs (exec_runs (Option.some_get _).symm)),
    by decide +kernel⟩

/-- A row canceled before the call is not visited. -/
theorem canceled_unvisited :
    ¬∀ (config : Config) (o o' : Owner ℕ) (maxWork : ℕ) (root : RootAnswers)
        (steps : List (OwnerAction ℕ)),
      Reachable (Owner.step config) Owner.Init o → o.state.closed = false →
      o.state.run = .idle → config.capacity < maxWork →
      exec (Owner.step config) o (.runReady maxWork root :: steps) = some o' →
      (∀ a ∈ steps, ∃ answers report, a = .proceed answers report) → o'.state.run = .idle →
      ∀ k, k < config.capacity → (o.state.rows k).state = .canceled → k ∈ o'.visited := by
  intro h
  have hreachable : Reachable (Owner.step twoRows) Owner.Init waiting :=
    (Reachable.of_init unbound_init).runs (exec_runs (Option.some_get _).symm)
  have hsteps : ∀ a ∈ List.replicate 5
      (.proceed (becomes .submitting) unreported : OwnerAction ℕ),
      ∃ answers report, a = .proceed answers report :=
    fun a ha => ⟨_, _, (List.mem_replicate.mp ha).2⟩
  have hvisited := h twoRows waiting _ 3 restful _ hreachable (by decide +kernel)
    (by decide +kernel) (by decide) (Option.some_get submitting_runs).symm hsteps
    (by decide +kernel) 1 (by decide) (by decide +kernel)
  revert hvisited
  decide +kernel

end Subdialogs

end TurboScxml.Voice
