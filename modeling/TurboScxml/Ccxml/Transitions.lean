import TurboScxml.Ccxml.ForeachScopes
import TurboScxml.Lib.Machine

/-!
# Runs of a CCXML session

* `System.step`: a transition is selected, runs round by round, and the staged aggregate is
  committed or discarded;
* `Record.AllOrNothing`: what a transition may do with its tickets and the scope;
* **`reachable_allOrNothing`**: every transition of every run is all-or-nothing.
-/

namespace TurboScxml.Ccxml

open EffectLog Machine

variable {σ : Type} [EmptyCollection σ] {program : Program} {before : σ}

namespace Session

variable {s : Session σ} {replies : Replies σ} {loop : Loop} {status : Status}

/-! ## The end of a transition -/

structure Settled (program : Program) (before : σ) (s : Session σ) : Prop where
  tickets : Open s
  scopes : s.scopes.Sound program before
  frame : s.scopes.frame = {}
  checkpointLive : s.scopes.checkpointLive = false

structure Clean (s : Session σ) : Prop where
  tickets : s.tickets = []
  prepared : s.preparedTicketCount = 0
  frame : s.scopes.frame = {}
  checkpointLive : s.scopes.checkpointLive = false
  transactionPending : s.scopes.transactionPending = false
  staged : s.scopes.staged = ∅
  checkpoint : s.scopes.checkpoint = ∅

structure Reverted (before : σ) (s : Session σ) : Prop extends Clean s where
  ledger : Ledger s
  committed : s.scopes.committed = before

theorem Clean.steady (h : Clean s) : s.scopes.Steady program s.scopes.committed := by
  refine ⟨⟨rfl, fun _ => h.frame, fun hlive => ?_, fun hlive => ?_, fun _ => h.staged,
    fun _ => h.checkpoint⟩, by rw [h.checkpointLive, h.frame]⟩
  · rw [h.frame] at hlive
    cases hlive
  · rw [h.checkpointLive] at hlive
    cases hlive

theorem Ledger.reverted (h : Ledger s) (hnone : s.tickets = [])
    (hprepared : s.preparedTicketCount = 0) {scopes : Scopes σ}
    (hscopes : scopes.Sound program before) (hframe : scopes.frame = {})
    (hsame : s.scopes = scopes.discardForeachScope) : Reverted before s := by
  obtain ⟨hsound, hpending, hlive, hkept⟩ := hscopes.discardForeachScope
  rw [← hsame] at hsound hpending hlive hkept
  exact ⟨⟨hnone, hprepared, hkept.trans hframe, hlive, hpending, hsound.staged hpending,
    hsound.checkpoint hlive⟩, h, hsound.committed⟩

/-- **The scopes after a failed transition.** -/
theorem Broken.settleActions (h : Broken program before s) (hstatus : status ≠ .ok) :
    Reverted before (s.settleActions program status) := by
  obtain ⟨hsettled, hframe⟩ := h.scopes.leave false
  unfold Session.settleActions
  rw [if_pos hstatus]
  exact (h.ledger.withScopes _).reverted h.none h.prepared hsettled.toSound hframe rfl

/-- **The scopes after a successful transition.** -/
theorem Running.settleActions (h : Running program before s) :
    Settled program before (s.settleActions program .ok) ∧
      (s.settleActions program .ok).preparedTicketCount = 0 := by
  unfold Session.settleActions
  cases hlive : s.scopes.frame.live with
  | true =>
    obtain ⟨hsettled, hframe⟩ := h.scopes.toSound.leave true
    have hrunning := h.withScopes hsettled
    refine ⟨⟨hrunning.tickets, hsettled.toSound, hframe, ?_⟩, h.prepared⟩
    exact hsettled.live.trans (congrArg Frame.live hframe)
  | false =>
    exact ⟨⟨h.tickets, h.scopes.toSound, h.scopes.zero hlive, h.scopes.live.trans hlive⟩,
      h.prepared⟩

theorem Running.endActions (h : Running program before s) {s' : Session σ}
    (hend : s.endActions loop = (s', status)) :
    (status = .ok ∧ Running program before s') ∨ (status ≠ .ok ∧ Broken program before s') := by
  unfold Session.endActions at hend
  split_ifs at hend
  all_goals obtain ⟨rfl, rfl⟩ := Prod.mk.inj hend
  · exact .inr h.invalid
  · exact .inl ⟨rfl, h⟩

/-! ## The aggregate -/

theorem Settled.discardAll (h : Settled program before s) (hprepared : s.preparedTicketCount = 0) :
    Reverted before s.discardAll := by
  have hdiscard := h.tickets.toLedger.discardTickets
  exact (hdiscard.ledger.withScopes _).reverted hdiscard.none
    (hdiscard.same.prepared.trans hprepared) h.scopes h.frame rfl

theorem Settled.discardPreparedTickets (h : Settled program before s)
    (hprepared : s.preparedTicketCount = s.tickets.length) :
    Reverted before s.discardPreparedTickets := by
  have hall : s.tickets.take s.preparedTicketCount = s.tickets := by
    rw [hprepared, List.take_length]
  have hopen : Open ({ s with
      preparedTicketCount := 0
      tickets := s.tickets.take s.preparedTicketCount } : Session σ) := by
    rw [hall]
    exact ⟨⟨h.tickets.balanced, h.tickets.fresh, h.tickets.committed⟩, h.tickets.kept,
      h.tickets.order⟩
  have hsettled : Settled program before _ := ⟨hopen, h.scopes, h.frame, h.checkpointLive⟩
  exact hsettled.discardAll rfl

/-- **The commit of the aggregate.** -/
theorem Settled.commitPreparedTickets (h : Settled program before s)
    (hprepared : s.preparedTicketCount = s.tickets.length) :
    Clean s.commitPreparedTickets ∧
      s.commitPreparedTickets.log = s.log ++ s.tickets.map .committed ∧
      s.commitPreparedTickets.scopes.committed
        = if s.scopes.transactionPending = true then s.scopes.staged else before := by
  have hcheckpoint := h.scopes.checkpoint h.checkpointLive
  have hall : s.tickets.take s.preparedTicketCount = s.tickets := by
    rw [hprepared, List.take_length]
  have hnone : s.tickets.drop s.preparedTicketCount = [] := by
    rw [hprepared, List.drop_length]
  unfold Session.commitPreparedTickets Scopes.commitForeachScope
  cases hpending : s.scopes.transactionPending with
  | true =>
    exact ⟨⟨hnone, rfl, h.frame, h.checkpointLive, rfl, rfl, hcheckpoint⟩, by rw [hall], rfl⟩
  | false =>
    exact ⟨⟨hnone, rfl, h.frame, h.checkpointLive, hpending, h.scopes.staged hpending,
      hcheckpoint⟩, by rw [hall], h.scopes.committed⟩

def Finished (program : Program) (before : σ) (s : Session σ) (status : Status) : Fate → Prop
  | .failed => status ≠ .ok ∧ Reverted before s
  | .nothing => status = .ok ∧ Reverted before s
  | .staged =>
    status = .ok ∧ Settled program before s ∧ s.preparedTicketCount = s.tickets.length

/-- **The staging of the aggregate.** -/
theorem Settled.stage (h : Settled program before s) (hprepared : s.preparedTicketCount = 0) :
    Finished program before (s.stage replies).1 (s.stage replies).2.1 (s.stage replies).2.2 := by
  have hcontract : Status.invalidContract ≠ .ok := by decide
  have hlimit : Status.limitExceeded ≠ .ok := by decide
  unfold Session.stage
  by_cases hnothing : s.tickets = [] ∧ s.scopes.transactionPending = false
  · rw [if_pos hnothing]
    refine ⟨rfl, ⟨hnothing.1, hprepared, h.frame, h.checkpointLive, hnothing.2, ?_, ?_⟩, ?_, ?_⟩
    · exact h.scopes.staged hnothing.2
    · exact h.scopes.checkpoint h.checkpointLive
    · exact h.tickets.toLedger
    · exact h.scopes.committed
  rw [if_neg hnothing]
  by_cases hunavailable : s.preparedTicketCount ≠ 0 ∨ replies.stageAvailable = false
  · rw [if_pos hunavailable]
    exact ⟨hcontract, h.discardAll hprepared⟩
  rw [if_neg hunavailable]
  have hall : Settled program before { s with preparedTicketCount := s.tickets.length } :=
    ⟨⟨⟨h.tickets.balanced, h.tickets.fresh, h.tickets.committed⟩, h.tickets.kept,
      h.tickets.order⟩, h.scopes, h.frame, h.checkpointLive⟩
  by_cases haccepted : replies.stageAccepted = false
  · dsimp only
    rw [if_pos haccepted]
    exact ⟨hlimit, hall.discardPreparedTickets rfl⟩
  · dsimp only
    rw [if_neg haccepted]
    exact ⟨rfl, hall, rfl⟩

theorem Running.finish (h : Running program before s) :
    Finished program before (s.finish program replies .ok).1 (s.finish program replies .ok).2.1
      (s.finish program replies .ok).2.2 := by
  obtain ⟨hsettled, hprepared⟩ := h.settleActions
  exact hsettled.stage hprepared

theorem Broken.finish (h : Broken program before s) (hstatus : status ≠ .ok) :
    Finished program before (s.finish program replies status).1
      (s.finish program replies status).2.1 (s.finish program replies status).2.2 := by
  have hreverted := h.settleActions hstatus
  unfold Session.finish
  rw [if_pos hstatus]
  exact ⟨hstatus, hreverted⟩

end Session

/-! ## Runs -/

inductive Outcome
  | failed | nothing | committed | discarded
  deriving DecidableEq

structure Record (σ : Type) where
  status : Status
  outcome : Outcome
  log : List (Effect Ticket)
  before : σ
  staged : Option σ
  after : σ
  deriving DecidableEq

/-- **All or nothing.** The accepted tickets are committed in order with the staged scope, or
discarded with the scope as before. -/
structure Record.AllOrNothing (r : Record σ) : Prop where
  once : (accepted r.log).Nodup
  failed : r.status ≠ .ok ↔ r.outcome = .failed
  reverted : r.outcome ≠ .committed →
    committed r.log = [] ∧ (discarded r.log).Perm (accepted r.log) ∧ r.after = r.before
  committed : r.outcome = .committed →
    committed r.log = commitOrder (accepted r.log) ∧ discarded r.log = [] ∧
      r.after = r.staged.getD r.before

inductive Phase
  | idle
  | running (transition : TransitionRow) (event : Event) (loop : Loop)
  | staged
  deriving DecidableEq

namespace System

/-- A session with the transitions that ended. -/
structure State (σ : Type) where
  session : Session σ
  phase : Phase
  before : σ
  history : List (Record σ)
  deriving DecidableEq

inductive Action (σ : Type)
  | select (transition : TransitionRow) (event : Event)
  | iterate (replies : Replies σ)
  | settle (commit : Bool)

def Init (s : State σ) : Prop := s.phase = .idle ∧ s.session.Clean ∧ s.history = []

def State.record (s : State σ) (session : Session σ) (status : Status) (outcome : Outcome)
    (staged : Option σ) : State σ :=
  { s with
    session := session
    phase := .idle
    history :=
      ⟨status, outcome, session.log, s.before, staged, session.scopes.committed⟩ :: s.history }

def stagedScope (scopes : Scopes σ) : Option σ :=
  if scopes.transactionPending = true then some scopes.staged else none

/-- The state behind `execute_transition_binding`. -/
def State.conclude (s : State σ) : Session σ × Status × Fate → State σ
  | (session, status, .failed) => s.record session status .failed none
  | (session, status, .nothing) => s.record session status .nothing none
  | (session, _, .staged) => { s with session := session, phase := .staged }

variable (program)

def State.round (replies : Replies σ) (s : State σ)
    (transition : TransitionRow) (event : Event) : Session σ × Round → State σ
  | (session, .next loop) =>
    { s with session := session, phase := .running transition event loop }
  | (session, .exit) => s.conclude (session.finish program replies .ok)
  | (session, .fail status) => s.conclude (session.finish program replies status)

variable (s : State σ)

def State.select (transition : TransitionRow) (event : Event) : Option (State σ) :=
  if s.phase ≠ .idle ∨ transition ∉ program.transitions then none
  else some { s with
    session := { s.session with log := [] }
    phase := .running transition event ⟨0, []⟩
    before := s.session.scopes.committed }

def State.iterate (replies : Replies σ) : Option (State σ) :=
  match s.phase with
  | .running transition event loop =>
    if loop.index < transition.actionCount then
      some (s.round program replies transition event
        (s.session.iterate program transition replies loop event))
    else
      let ended := s.session.endActions loop
      some (s.conclude (ended.1.finish program replies ended.2))
  | _ => none

def State.settle (commit : Bool) : Option (State σ) :=
  if s.phase ≠ .staged then none
  else if commit = true then
    some (s.record s.session.commitPreparedTickets .ok .committed
      (stagedScope s.session.scopes))
  else
    some (s.record s.session.discardPreparedTickets .ok .discarded
      (stagedScope s.session.scopes))

def step : Action σ → Option (State σ)
  | .select transition event => s.select program transition event
  | .iterate replies => s.iterate program replies
  | .settle commit => s.settle commit

/-! ## The invariant -/

def PhaseSound : Phase → Prop
  | .idle => s.session.Clean
  | .running transition _ _ =>
    transition ∈ program.transitions ∧ s.session.Running program s.before
  | .staged =>
    s.session.Settled program s.before ∧
      s.session.preparedTicketCount = s.session.tickets.length

variable {program}

structure Sound (program : Program) (s : State σ) : Prop where
  phase : PhaseSound program s s.phase
  history : ∀ r ∈ s.history, r.AllOrNothing

variable {s s' : State σ} {replies : Replies σ}

theorem Sound.record_reverted (hhistory : ∀ r ∈ s.history, r.AllOrNothing)
    {session : Session σ} (hreverted : session.Reverted s.before) {status : Status}
    {outcome : Outcome} {staged : Option σ} (hfailed : status ≠ .ok ↔ outcome = .failed)
    (houtcome : outcome ≠ .committed) :
    Sound program (s.record session status outcome staged) := by
  have hbalanced := hreverted.ledger.balanced
  rw [hreverted.tickets] at hbalanced
  obtain ⟨hnodup, hperm⟩ := hbalanced.settled
  rw [hreverted.ledger.committed, List.nil_append] at hperm
  refine ⟨hreverted.toClean, ?_⟩
  simp only [State.record, List.forall_mem_cons]
  refine ⟨⟨hnodup, hfailed, fun _ => ?_, fun hcommitted => absurd hcommitted houtcome⟩, hhistory⟩
  exact ⟨hreverted.ledger.committed, hperm, hreverted.committed⟩

/-- **The end of a transition.** -/
theorem Sound.conclude (hhistory : ∀ r ∈ s.history, r.AllOrNothing)
    {finished : Session σ × Status × Fate}
    (hfinished : Session.Finished program s.before finished.1 finished.2.1 finished.2.2) :
    Sound program (s.conclude finished) := by
  obtain ⟨session, status, fate⟩ := finished
  cases fate with
  | failed =>
    obtain ⟨hstatus, hreverted⟩ := hfinished
    exact .record_reverted hhistory hreverted (iff_of_true hstatus rfl) (by decide)
  | nothing =>
    obtain ⟨hstatus, hreverted⟩ := hfinished
    exact .record_reverted hhistory hreverted (iff_of_false (not_not.mpr hstatus) (by decide))
      (by decide)
  | staged => exact ⟨hfinished.2, hhistory⟩

variable (h : Sound program s)
include h

/-- **Selection.** -/
theorem Sound.select {transition : TransitionRow} {event : Event}
    (hselect : s.select program transition event = some s') : Sound program s' := by
  unfold State.select at hselect
  split_ifs at hselect with hrefused
  obtain rfl := Option.some.inj hselect
  simp only [not_or, not_not] at hrefused
  have hclean : s.session.Clean := by
    have hphase := h.phase
    rwa [hrefused.1] at hphase
  refine ⟨⟨hrefused.2, ⟨⟨?_, ?_, rfl⟩, rfl, ?_⟩, hclean.prepared, hclean.steady⟩, h.history⟩
  · show Balanced [] s.session.tickets
    rw [hclean.tickets]
    exact .nil
  · exact fun t ht => absurd ht List.not_mem_nil
  · exact hclean.tickets

/-- **Rounds.** -/
theorem Sound.iterate (hiterate : s.iterate program replies = some s') : Sound program s' := by
  unfold State.iterate at hiterate
  cases hphase : s.phase with
  | idle =>
    rw [hphase] at hiterate
    cases hiterate
  | staged =>
    rw [hphase] at hiterate
    cases hiterate
  | running transition event loop =>
    obtain ⟨hmem, hrunning⟩ : transition ∈ program.transitions ∧
        s.session.Running program s.before := by
      have hsound := h.phase
      rwa [hphase] at hsound
    simp only [hphase] at hiterate
    split_ifs at hiterate with hindex
    all_goals obtain rfl := Option.some.inj hiterate
    · have hwithin := program.within transition hmem
      cases hround : s.session.iterate program transition replies loop event with
      | mk session round =>
        have hafter := hrunning.iterate (by omega) hround
        cases round with
        | next loop => exact ⟨⟨hmem, hafter⟩, h.history⟩
        | exit => exact .conclude h.history (Session.Running.finish hafter)
        | fail status => exact .conclude h.history (hafter.2.finish hafter.1)
    · cases hend : s.session.endActions loop with
      | mk session status =>
        rcases hrunning.endActions hend with ⟨rfl, hended⟩ | ⟨hstatus, hbroken⟩
        · exact .conclude h.history hended.finish
        · exact .conclude h.history (hbroken.finish hstatus)

/-- **The state chart settles the aggregate.** -/
theorem Sound.settle {commit : Bool} (hsettle : s.settle commit = some s') : Sound program s' := by
  unfold State.settle at hsettle
  split_ifs at hsettle with hphase hcommit
  all_goals
    obtain rfl := Option.some.inj hsettle
    obtain ⟨hsettled, hprepared⟩ : s.session.Settled program s.before ∧
        s.session.preparedTicketCount = s.session.tickets.length := by
      have hsound := h.phase
      rwa [not_not.mp hphase] at hsound
  · obtain ⟨hclean, hlog, hscope⟩ := hsettled.commitPreparedTickets hprepared
    have hopen := hsettled.tickets
    refine ⟨hclean, ?_⟩
    simp only [State.record, List.forall_mem_cons]
    have hfailed : Status.ok ≠ .ok ↔ Outcome.committed = .failed := by decide
    refine ⟨⟨?_, hfailed, fun hfalse => absurd rfl hfalse, fun _ => ⟨?_, ?_, ?_⟩⟩, h.history⟩
    · rw [hlog]
      exact hopen.balanced.commit.nodup
    · rw [hlog, committed_append, committed_commits, hopen.committed, List.nil_append,
        accepted_append, accepted_commits, List.append_nil, hopen.order]
    · rw [hlog, discarded_append, discarded_commits, hopen.kept]
      rfl
    · rw [hscope]
      unfold stagedScope
      split_ifs <;> rfl
  · exact .record_reverted h.history (hsettled.discardPreparedTickets hprepared) (by decide)
      (by decide)

theorem Sound.step {a : Action σ} (hstep : step program s a = some s') : Sound program s' := by
  cases a with
  | select transition event => exact h.select hstep
  | iterate replies => exact h.iterate hstep
  | settle commit => exact h.settle hstep

omit h

/-- **Main.** Every transition of every run is all-or-nothing and leaves nothing live. -/
theorem reachable_allOrNothing (program : Program) {s : State σ}
    (h : Reachable (step program) Init s) :
    (∀ r ∈ s.history, r.AllOrNothing) ∧ (s.phase = .idle → s.session.Clean) := by
  have hsound : Sound program s := by
    refine h.invariant (fun s hinit => ⟨?_, ?_⟩) fun s a s' hs hstep => hs.step hstep
    · rw [hinit.1]
      exact hinit.2.1
    · rw [hinit.2.2]
      exact fun r hr => absurd hr List.not_mem_nil
  refine ⟨hsound.history, fun hidle => ?_⟩
  have hphase := hsound.phase
  rwa [hidle] at hphase

/-! ## A sample run -/

def plainAction (kind : ActionKind) (branchNext blockEnd : ℕ) : ActionRow where
  kind := kind
  destination := "room".toList
  id1 := []
  id2 := []
  location := none
  name := []
  targetType := []
  delay := []
  delayMs := 0
  destinationIsDynamic := false
  nameIsDynamic := false
  targetTypeIsDynamic := false
  delayKind := .literal
  branchNext := branchNext
  blockEnd := blockEnd
  payloadFirst := 0
  payloadCount := 0

def conferences : Program where
  actions := fun
    | 0 => plainAction .foreach 1 3
    | 1 => { plainAction .createConference 0 0 with location := some "id".toList }
    | _ => plainAction .endforeach 0 0
  actionCount := 3
  transitions := [⟨0, 3⟩]
  within := by decide
  payloads := fun _ => []
  payloadCount := 0
  maxNameBytes := 16
  usesForeach := true
  ticketCapacity := 4
  payloadScratchCapacity := 0
  conditionalFrameCapacity := 0
  sendNamespace := []

def accepting : Replies (List ℕ) where
  condition := .accepted
  conditionValue := true
  destination := ⟨.accepted, "room".toList⟩
  name := ⟨.accepted, []⟩
  targetType := ⟨.accepted, []⟩
  delay := ⟨.accepted, []⟩
  readString := ⟨.accepted, []⟩
  readDelay := ⟨.accepted, .other⟩
  readPayload := fun _ => ⟨.accepted, .other⟩
  nameAllocated := true
  typeAllocated := true
  provider := ⟨.accepted, true, true⟩
  providerId := "conf".toList
  assign := ⟨.accepted, true, true⟩
  scopesValid := true
  stagedCopied := true
  checkpointCopied := true
  foreachOpen := .ok
  foreachLength := 1
  foreachValue := .ok
  foreachNext := .ok
  foreachScope := [7]
  stageAvailable := true
  stageAccepted := true

def freshState : State (List ℕ) where
  session := ⟨[], 0, 1, ⟨[], ∅, ∅, false, false, {}⟩, 0, []⟩
  phase := .idle
  before := []
  history := []

def secondRefused : State (List ℕ) :=
  (Machine.exec (step conferences) freshState
    [.select ⟨0, 3⟩ ⟨[], none⟩, .iterate accepting, .iterate accepting, .iterate accepting,
      .iterate accepting, .settle true,
      .select ⟨0, 3⟩ ⟨[], none⟩, .iterate { accepting with foreachScope := [8] },
      .iterate { accepting with assign := ⟨.errorExecution, false, false⟩ }]).get
    (by decide +kernel)

theorem secondRefused_clean :
    secondRefused.session.scopes.committed = [7] ∧ secondRefused.session.Clean ∧
      (∀ r ∈ secondRefused.history, r.AllOrNothing) := by
  have hinit : Reachable (step conferences) Init freshState :=
    .of_init ⟨rfl, ⟨rfl, rfl, rfl, rfl, rfl, rfl, rfl⟩, rfl⟩
  have hreachable : Reachable (step conferences) Init secondRefused :=
    hinit.runs (Machine.exec_runs (Option.some_get _).symm)
  obtain ⟨hhistory, hidle⟩ := reachable_allOrNothing conferences hreachable
  exact ⟨by decide +kernel, hidle (by decide +kernel), hhistory⟩

end System

end TurboScxml.Ccxml
