import Mathlib.Data.List.Range
import TurboScxml.Voice.SubdialogOwner

/-!
# The scan of run_ready

`voicexml_subdialog_owner.c`: a call of `run_ready` drives the root session, then visits the rows in
order, and ends with an error at the first one that fails.

* `buildTerminalCompletion`: what a child session that has ended reports;
* `Cause`, `failure`: the errors of a row, read off the state before the step;
* `Owner`, `Owner.step`: an owner with the result of its last call.
-/

namespace TurboScxml.Voice

open Function Machine

namespace Subdialogs

/-! ## The end of a child -/

/-- `vxml_cmeta_terminal_kind`. -/
inductive TerminalKind
  | none | exit | return | returnEvent | disconnect | other
  deriving DecidableEq

/-- `vxml_cmeta_exit_kind`. -/
inductive ExitKind
  | empty | expression | namelist | other
  deriving DecidableEq

structure Report where
  kindOk : Bool
  terminal : TerminalKind
  eventOk : Bool
  exitOk : Bool
  exitKind : ExitKind
  count : ℕ
  entriesOk : Bool
  deriving DecidableEq

def buildTerminalCompletion (maxCompletionEntries : ℕ) (r : Report) : Terminal :=
  if r.kindOk = false then .failed
  else
    match r.terminal with
    | .none => .ok
    | .returnEvent => if r.eventOk = false then .failed else .ok
    | .disconnect => .ok
    | terminal =>
      if r.exitOk = false ∨ maxCompletionEntries < r.count ∨ r.entriesOk = false then .failed
      else
        match terminal with
        | .return => if r.exitKind = .expression then .unsupported else .ok
        | .exit => if r.exitKind = .other then .failed else .ok
        | _ => .failed

/-! ## The root session -/

/-- What `drive_parent_context` tells apart. -/
inductive CallStatus
  | ok | invalidState | other
  deriving DecidableEq

structure RootAnswers where
  runReady : CallStatus
  progressed : Bool
  prepare : CallStatus
  commit : CallStatus
  deriving DecidableEq

def driveParentContext (a : RootAnswers) : Option Bool :=
  if a.runReady = .other then none
  else if a.runReady = .ok ∧ a.progressed = true then some true
  else
    match a.prepare with
    | .invalidState => some false
    | .other => none
    | .ok => if a.commit = .ok then some true else none

/-! ## Errors -/

/-- Why a call of `run_ready` ends. -/
inductive Cause
  | root
  | session
  | hops
  | handoff
  | child
  | request
  | full
  | completion
  | mailbox
  | parent
  deriving DecidableEq

def Mode.waits : Mode → Bool
  | .submitting | .scripting => true
  | _ => false

section Failure

variable {ι : Type} (config : Config) (s : State ι) (answers : Answers)

/-- A session that `row_follow_navigation` is left with. -/
def waitFailure (row : Row) : Option Cause :=
  if row.syntheticEvent.isSome = false ∧ row.session.any (fun session => session.mode.waits) then
    some .handoff
  else none

/-- The errors of `drive_parent_context` for a child. -/
def driveFailure (slot : ℕ) (session : Session) : Option Cause :=
  match session.subdialog, session.selected with
  | .ready, _ => if answers.fails = true then some .child else none
  | .none, some (src, params) =>
    if answers.fails = true then some .child
    else if prepareRefused config s.closed (s.rows slot).depth
        ⟨session.generation, src, params⟩ = true then some .request
    else none
  | _, _ => none

/-- The errors of `publish_row_completion`. -/
def publishFailure (slot : ℕ) : Option Cause :=
  let row := s.rows slot
  match s.receiver row answers.ingress, row.parent with
  | some (_, ingress), some _ =>
    if row.syntheticEvent = none ∧ (row.session = none ∨ answers.terminal = .failed) then
      some .completion
    else if row.syntheticEvent = none ∧ answers.terminal = .unsupported then none
    else
      match ingress with
      | .full | .other => some .mailbox
      | _ => none
  | _, _ => some .parent

/-- The error of the next step of `run_ready`. -/
def failure : Option Cause :=
  match s.run with
  | .progressing slot =>
    let row := s.rows slot
    if row.syntheticEvent.isSome = false ∧ row.session = none then some .session
    else waitFailure row
  | .following slot _ =>
    let row := s.rows slot
    if row.session.any (fun session => session.mode = .navigating) then
      if config.maxNavigationHops ≤ row.navigationHops then some .hops
      else if answers.fails = true then some .child
      else none
    else waitFailure row
  | .driving slot =>
    match (s.rows slot).session with
    | none => some .session
    | some session => driveFailure config s answers slot session
  | .searching _ _ free => if config.capacity ≤ free then some .full else none
  | .filling _ request _ =>
    if copyParams config.maxParamBytes 0 request.params = true then none else some .request
  | .committing slot _ _ => if (s.rows slot).session = none then some .session else none
  | .publishing slot => publishFailure s answers slot
  | .consuming _ =>
    if answers.fails = true ∨ answers.consumes = false then some .parent else none
  | _ => none

end Failure

/-! ## Calls -/

/-- An owner, with the result of its last call of `run_ready`. -/
structure Owner (ι : Type) where
  state : State ι
  maxCompletionEntries : ℕ
  /-- `root_context.session` is set. -/
  bound : Bool
  maxWork : ℕ
  processed : ℕ
  /-- `row_acquire_initial` was called for the row. -/
  acquired : Bool
  progressed : Bool
  visited : List ℕ
  /-- Nothing before the first call and during a call. -/
  result : Option (Except Cause Unit)

inductive OwnerAction (ι : Type)
  | adapter (a : Action ι)
  | bindRoot
  | runReady (maxWork : ℕ) (root : RootAnswers)
  /-- The next step of `run_ready`. -/
  | proceed (answers : Answers) (report : Report)

/-- A call of `run_ready` begins, or takes a step. -/
def Action.runs {ι : Type} : Action ι → Bool
  | .runReady | .proceed _ => true
  | _ => false

namespace Owner

section Calls

variable {ι : Type} [DecidableEq ι] (config : Config) (o : Owner ι)

def bindRoot : Owner ι :=
  if o.state.closed = true ∨
      ((List.range config.capacity).any fun k => (o.state.rows k).state ≠ .empty) = true then o
  else { o with bound := true }

/-- `vxml_cmeta_subdialog_owner_run_ready`, up to its loop. -/
def runReady (maxWork : ℕ) (root : RootAnswers) : Option (Owner ι) :=
  let driven := if o.state.closed = false ∧ o.bound = true then driveParentContext root
    else some false
  if o.state.run ≠ .idle ∨ maxWork = 0 then none
  else
    match driven with
    | none =>
      some { o with
        maxWork := maxWork, processed := 0, visited := [], result := some (.error .root) }
    | some progressed =>
      if maxWork ≤ progressed.toNat then
        some { o with
          maxWork := maxWork, processed := progressed.toNat, visited := [],
          result := some (.ok ()) }
      else
        (step config o.state .runReady).map fun s =>
          { o with
            state := s, maxWork := maxWork, processed := progressed.toNat, acquired := false,
            progressed := false, visited := [], result := none }

/-- What the next step of `run_ready` is told. -/
def told (answers : Answers) (report : Report) : Answers :=
  { answers with
    resumes := decide (o.processed < o.maxWork)
    terminal := buildTerminalCompletion o.maxCompletionEntries report }

def acquires : Bool :=
  match o.state.run with
  | .row _ => false
  | .acquiring _ => true
  | _ => o.acquired

/-- Whether the row has progressed, after the next step. -/
def progresses : Bool :=
  match o.state.run with
  | .row _ => false
  | .acquiring _ | .following _ _ | .committing _ _ _ | .consuming _ | .destroying _ .clear => true
  | .driving slot =>
    -- `drive_parent_context` forgets the navigation in front of it
    o.acquired || (o.state.rows slot).session.any fun session => session.subdialog = .ready
  | _ => o.progressed

def looks : List ℕ :=
  match o.state.run with
  | .row slot => if slot < config.capacity ∧ o.processed < o.maxWork then [slot] else []
  | _ => []

def arrives (s : State ι) : Bool :=
  match s.run with
  | .row _ => true
  | _ => false

/-- The result of a call that has taken a step to `s`. -/
def resultOf (answers : Answers) (s : State ι) : Option (Except Cause Unit) :=
  if s.run = .idle then
    match failure config o.state answers with
    | some cause => some (.error cause)
    | none => some (.ok ())
  else none

/-- The next step of `run_ready`. -/
def proceed (answers : Answers) (report : Report) : Option (Owner ι) :=
  (o.state.stepRun config (o.told answers report)).map fun s =>
    { o with
      state := s
      processed := o.processed + (arrives s && o.progresses).toNat
      acquired := o.acquires
      progressed := o.progresses
      visited := o.visited ++ o.looks config
      result := o.resultOf config (o.told answers report) s }

/-- **One step of an owner.** -/
def step : OwnerAction ι → Option (Owner ι)
  | .adapter a =>
    if a.runs = true then none
    else (Subdialogs.step config o.state a).map fun s => { o with state := s }
  | .bindRoot => some (o.bindRoot config)
  | .runReady maxWork root => o.runReady config maxWork root
  | .proceed answers report => o.proceed config answers report

end Calls

def Init {ι : Type} (o : Owner ι) : Prop :=
  Subdialogs.Init o.state ∧ o.bound = false ∧ o.visited = [] ∧ o.result = none

end Owner

end Subdialogs

end TurboScxml.Voice
