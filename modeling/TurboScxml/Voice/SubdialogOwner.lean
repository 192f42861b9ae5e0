import Mathlib.Algebra.Group.Nat.Defs
import Mathlib.Logic.Function.Basic
import TurboScxml.Lib.Machine

/-!
# The subdialog owner

The rows of `voicexml_subdialog_owner.c`, which the adapter calls change with atomic steps while one
caller of `run_ready` walks over them:

* `State.look`, `State.mark`: the steps of `owner_cancel` on one row;
* `State.stepTask`: the atomic steps of an adapter call of the root session;
* `State.stepRun`: the atomic steps of `run_ready`;
* `step`: one step of an adapter call or of `run_ready`.

A run_ready that meets an error returns, and the next one starts over. The numbers of the
reservations, sessions and borrows, the origins and the logs are no part of the source.
-/

namespace TurboScxml.Voice

open Function

namespace Subdialogs

/-! ## Data -/

inductive Context
  | root
  | child (slot : ℕ)
  deriving DecidableEq

inductive RowState
  | empty | writing | reserved | pending | active | canceled
  deriving DecidableEq

inductive ParamContent
  | scalar
  | text (bytes : List Char)
  | literal (bytes : List Char)
  | other
  deriving DecidableEq

structure Param where
  name : List Char
  content : ParamContent
  deriving DecidableEq

structure Request where
  generation : ℕ
  src : List Char
  params : List Param
  deriving DecidableEq

inductive Mode
  | running | navigating | submitting | scripting | exited | failed
  deriving DecidableEq

inductive Subdialog
  | none
  | inFlight (generation : ℕ)
  | ready
  deriving DecidableEq

structure Session where
  number : ℕ
  mode : Mode
  selected : Option (List Char × List Param)
  generation : ℕ
  subdialog : Subdialog
  deriving DecidableEq

inductive Event
  | badfetch | semantic
  deriving DecidableEq

structure Row where
  state : RowState
  parent : Option Context
  generation : ℕ
  depth : ℕ
  src : List Char
  params : List Param
  navigationHops : ℕ
  document : Option ℕ
  session : Option Session
  syntheticEvent : Option Event
  reservation : Option ℕ
  deriving DecidableEq

structure Config where
  capacity : ℕ
  maxUriBytes : ℕ
  maxParams : ℕ
  maxParamBytes : ℕ
  maxNavigationHops : ℕ
  maxNestingDepth : ℕ

/-- `owner_cancel`, on its way over the rows. -/
structure Scan where
  context : Context
  generation : ℕ
  slot : ℕ
  seen : Option RowState
  deriving DecidableEq

inductive Task
  | idle
  | searching (request : Request) (slot : ℕ)
  | filling (request : Request) (slot : ℕ)
  | ticket (slot reservation : ℕ)
  | discarding (slot : ℕ)
  | canceling (scan : Scan)
  | closing (slot : ℕ) (seen : Option RowState)
  | done
  deriving DecidableEq

/-- What follows `row_destroy_runtime`. -/
inductive After
  /-- `row_clear`. -/
  | clear
  | follow (document : ℕ) (again : Bool)
  | deliver
  deriving DecidableEq

/-- Where `run_ready` stands. -/
inductive Run
  | idle
  | row (slot : ℕ)
  | pending (slot : ℕ)
  | acquiring (slot : ℕ)
  | active (slot : ℕ)
  | progressing (slot : ℕ)
  | following (slot : ℕ) (again : Bool)
  | driving (slot : ℕ)
  | searching (slot : ℕ) (request : Request) (free : ℕ)
  | filling (slot : ℕ) (request : Request) (free : ℕ)
  | committing (slot free reservation : ℕ)
  | driven (slot : ℕ)
  | publishing (slot : ℕ)
  | closing (slot : ℕ) (after : After)
  | canceling (slot : ℕ) (scan : Scan) (after : After)
  | destroying (slot : ℕ) (after : After)
  | consuming (slot : ℕ)
  deriving DecidableEq

/-- Who prepared a reservation or receives a completion. -/
structure Origin where
  context : Context
  session : Option ℕ
  generation : ℕ
  deriving DecidableEq

structure Delivery where
  reservation : ℕ
  receiver : Origin
  run : ℕ
  deriving DecidableEq

structure State (ι : Type) where
  rows : ℕ → Row
  closed : Bool
  tasks : ι → Task
  run : Run
  /-- The number of calls of `run_ready`. -/
  runs : ℕ
  accepted : ℕ
  /-- The reservations whose row is empty again. -/
  emptied : List ℕ
  origin : ℕ → Origin
  committed : List ℕ
  started : List ℕ
  marks : List (ℕ × ℕ)
  delivered : List Delivery
  sessions : ℕ
  destroyed : List ℕ
  documents : ℕ
  released : List ℕ

inductive SessionSelection
  | keep | drop
  | select (src : List Char) (params : List Param)
  deriving DecidableEq

inductive Terminal
  | ok | unsupported | failed
  deriving DecidableEq

inductive Ingress
  | accepted | full | stale | closed | other
  deriving DecidableEq

structure Answers where
  /-- `max_work` is not reached. -/
  resumes : Bool
  resolved : Bool
  viewed : Bool
  initialized : Bool
  started : Bool
  fails : Bool
  consumes : Bool
  mode : Mode
  selection : SessionSelection
  terminal : Terminal
  ingress : Ingress
  deriving DecidableEq

inductive Action (ι : Type)
  | prepare (i : ι) (request : Request)
  | cancel (i : ι) (context : Context) (generation : ℕ)
  | close (i : ι)
  | commit (i : ι)
  | discard (i : ι)
  | task (i : ι)
  | runReady
  /-- The next step of `run_ready`. -/
  | proceed (answers : Answers)

/-! ## Requests -/

def nul : Char := Char.ofNat 0

def bytesValid (bytes : List Char) : Bool := bytes != [] && !bytes.contains nul

/-- `copy_param`. -/
def copyParams (maxParamBytes : ℕ) : ℕ → List Param → Bool
  | _, [] => true
  | used, param :: rest =>
    let size := param.name.length + match param.content with
      | .text bytes => bytes.length
      | .literal bytes => bytes.length
      | _ => 0
    bytesValid param.name && param.content != .other && decide (used + size ≤ maxParamBytes) &&
      copyParams maxParamBytes (used + size) rest

/-- What `owner_prepare` checks first. -/
def prepareRefused (config : Config) (closed : Bool) (depth : ℕ) (request : Request) : Bool :=
  request.generation == 0 || !bytesValid request.src || closed ||
    decide (config.maxUriBytes < request.src.length) ||
    decide (config.maxParams < request.params.length) || decide (config.maxNestingDepth ≤ depth)

def nextGeneration (generation : ℕ) : ℕ :=
  if (generation + 1) % 2 ^ 64 = 0 then 1 else (generation + 1) % 2 ^ 64

/-! ## Rows -/

def RowState.live : RowState → Bool
  | .reserved => true
  | .pending => true
  | .active => true
  | _ => false

def Row.blank : Row where
  state := .empty
  parent := none
  generation := 0
  depth := 0
  src := []
  params := []
  navigationHops := 0
  document := none
  session := none
  syntheticEvent := none
  reservation := none

def Session.moved (s : Session) (answers : Answers) : Session :=
  match answers.selection with
  | .keep => { s with mode := answers.mode }
  | .drop => { s with mode := answers.mode, selected := none }
  | .select src params =>
    { s with
      mode := answers.mode
      selected := some (src, params)
      generation := nextGeneration s.generation }

def Session.fresh (number : ℕ) (answers : Answers) : Session :=
  Session.moved ⟨number, .running, none, 0, .none⟩ answers

/-- `vxml_session_cmeta_subdialog_try_complete`. -/
def Session.tryComplete (s : Session) (generation : ℕ) (answer : Ingress) : Ingress :=
  match s.subdialog with
  | .none => .stale
  | .ready => .full
  | .inFlight armed =>
    if generation ≠ armed ∨ generation ≠ s.generation then .stale else answer

namespace State

variable {ι : Type} (config : Config) (s : State ι)

def setRow (slot : ℕ) (row : Row) : State ι := { s with rows := update s.rows slot row }

/-- `row_request_reset` and the store of `EMPTY`. -/
def emptyRow (slot : ℕ) : State ι :=
  { s.setRow slot .blank with emptied := (s.rows slot).reservation.toList ++ s.emptied }

def fillRow (slot : ℕ) (context : Context) (session : Option ℕ) (depth : ℕ) (request : Request) :
    State ι :=
  if copyParams config.maxParamBytes 0 request.params = true then
    { s.setRow slot { Row.blank with
        state := .reserved
        parent := some context
        generation := request.generation
        depth := depth + 1
        src := request.src
        params := request.params
        reservation := some s.accepted } with
      accepted := s.accepted + 1
      origin := update s.origin s.accepted ⟨context, session, request.generation⟩ }
  else s.emptyRow slot

def commitRow (slot reservation : ℕ) : State ι :=
  let row := s.rows slot
  if row.state = .reserved then
    { s.setRow slot { row with state := .pending } with
      committed := reservation :: s.committed }
  else s

/-- The exchange of a loaded state for `CANCELED`. -/
def markRow (slot : ℕ) : State ι :=
  let row := s.rows slot
  { s.setRow slot { row with state := .canceled } with
    marks := row.reservation.toList.map (fun r => (r, s.runs)) ++ s.marks }

/-- `owner_cancel` loads the state of a row. -/
def look (scan : Scan) : Option Scan :=
  if config.capacity ≤ scan.slot then none
  else
    let row := s.rows scan.slot
    if row.state = .empty ∨ row.state = .writing ∨ row.parent ≠ some scan.context ∨
        row.generation ≠ scan.generation then some { scan with slot := scan.slot + 1 }
    else if row.state = .canceled then none
    else some { scan with seen := some row.state }

/-- `owner_cancel` exchanges the state that it loaded. -/
def mark (scan : Scan) (seen : RowState) : State ι × Option Scan :=
  let row := s.rows scan.slot
  if row.state = seen then (s.markRow scan.slot, none)
  else if row.state = .canceled then (s, none)
  else if row.state.live = true then (s, some { scan with seen := some row.state })
  else (s, some { scan with slot := scan.slot + 1, seen := none })

def cancelStep (scan : Scan) : State ι × Option Scan :=
  match scan.seen with
  | none => (s, s.look config scan)
  | some seen => s.mark scan seen

/-! ## Adapter calls -/

section Tasks

variable [DecidableEq ι] (i : ι)

def setTask (task : Task) : State ι := { s with tasks := update s.tasks i task }

def stepTask : Option (State ι) :=
  match s.tasks i with
  | .searching request slot =>
    if config.capacity ≤ slot then some (s.setTask i .done)
    else if (s.rows slot).state = .empty then
      some ((s.setRow slot { s.rows slot with state := .writing }).setTask i
        (.filling request slot))
    else some (s.setTask i (.searching request (slot + 1)))
  | .filling request slot =>
    let task := if copyParams config.maxParamBytes 0 request.params = true then
      Task.ticket slot s.accepted else .done
    some ((s.fillRow config slot .root none 0 request).setTask i task)
  | .discarding slot => some ((s.emptyRow slot).setTask i .done)
  | .canceling scan =>
    let (t, next) := s.cancelStep config scan
    some (t.setTask i (next.elim .done .canceling))
  | .closing slot none =>
    if config.capacity ≤ slot then some (s.setTask i .done)
    else if (s.rows slot).state.live = true then
      some (s.setTask i (.closing slot (some (s.rows slot).state)))
    else some (s.setTask i (.closing (slot + 1) none))
  | .closing slot (some seen) =>
    if (s.rows slot).state = seen then
      some ((s.markRow slot).setTask i (.closing (slot + 1) none))
    else some (s.setTask i (.closing slot none))
  | _ => none

def commitTicket : Option (State ι) :=
  match s.tasks i with
  | .ticket slot reservation => some ((s.commitRow slot reservation).setTask i .done)
  | _ => none

def discardTicket : Option (State ι) :=
  match s.tasks i with
  | .ticket slot _ =>
    let row := s.rows slot
    if row.state = .reserved then
      some ((s.setRow slot { row with state := .writing }).setTask i (.discarding slot))
    else some (s.setTask i .done)
  | _ => none

end Tasks

/-! ## Run -/

def goto (run : Run) : State ι := { s with run := run }

variable (slot : ℕ)

def destroyRow : State ι :=
  let row := s.rows slot
  { s.setRow slot { row with document := none, session := none, navigationHops := 0 } with
    destroyed := (row.session.map Session.number).toList ++ s.destroyed
    released := row.document.toList ++ s.released }

variable (answers : Answers)

/-- `row_init_session`. -/
def initSession : State ι :=
  let row := s.rows slot
  let failed : Row :=
    { row with document := none, navigationHops := 0, syntheticEvent := some .semantic }
  if answers.initialized = false then
    { s.setRow slot failed with
      released := row.document.toList ++ s.released }
  else if answers.started = false then
    { s.setRow slot failed with
      sessions := s.sessions + 1
      destroyed := s.sessions :: s.destroyed
      released := row.document.toList ++ s.released }
  else
    { s.setRow slot { row with session := some (.fresh s.sessions answers) } with
      sessions := s.sessions + 1 }

def acquireInitial : State ι :=
  let row := s.rows slot
  if answers.resolved = false then s.setRow slot { row with syntheticEvent := some .badfetch }
  else if answers.viewed = false then
    { s.setRow slot { row with syntheticEvent := some .badfetch } with
      documents := s.documents + 1
      released := s.documents :: s.released }
  else
    State.initSession { s.setRow slot { row with document := some s.documents } with
      documents := s.documents + 1 } slot answers

def setSession (session : Session) : State ι :=
  s.setRow slot { s.rows slot with session := some session }

/-- The next step of `row_follow_navigation`. -/
def followNavigation (again : Bool) (answers : Answers) : State ι :=
  let row := s.rows slot
  if config.maxNavigationHops ≤ row.navigationHops ∨ answers.fails = true then s.goto .idle
  else if answers.resolved = false then
    (s.setRow slot { row with syntheticEvent := some .badfetch }).goto (.publishing slot)
  else if answers.viewed = false then
    { s.setRow slot { row with syntheticEvent := some .badfetch } with
      documents := s.documents + 1
      released := s.documents :: s.released
      run := .publishing slot }
  else
    { s with documents := s.documents + 1, run := .closing slot (.follow s.documents again) }

/-- `progress_active_row` after `row_follow_navigation`. -/
def followed (again : Bool) : State ι :=
  let row := s.rows slot
  if row.syntheticEvent.isSome = true then s.goto (.publishing slot)
  else match row.session.map Session.mode with
    | some .submitting => s.goto .idle
    | some .scripting => s.goto .idle
    | some .exited => s.goto (.publishing slot)
    | some .running => s.goto (if again = true then .row (slot + 1) else .driving slot)
    | _ =>
      (s.setRow slot { row with syntheticEvent := some .semantic }).goto (.publishing slot)

/-- `drive_parent_context` for the child of a row. -/
def drive (session : Session) (answers : Answers) : State ι :=
  match session.subdialog with
  | .inFlight _ => s.goto (.driven slot)
  | .ready =>
    (s.setSession slot ({ session with subdialog := .none }.moved answers)).goto
      (if answers.fails = true then .idle else .driven slot)
  | .none =>
    match session.selected with
    | none => s.goto (.driven slot)
    | some (src, params) =>
      let request : Request := ⟨session.generation, src, params⟩
      if answers.fails = true ∨
          prepareRefused config s.closed (s.rows slot).depth request = true then s.goto .idle
      else s.goto (.searching slot request 0)

def receiver (row : Row) (answer : Ingress) : Option (Option ℕ × Ingress) :=
  match row.parent with
  | none => none
  | some .root => some (none, answer)
  | some (.child k) =>
    (s.rows k).session.map fun session =>
      (some session.number, session.tryComplete row.generation answer)

def fillMailbox (row : Row) : State ι :=
  match row.parent with
  | some (.child k) =>
    match (s.rows k).session with
    | some session => s.setSession k { session with subdialog := .ready }
    | none => s
  | _ => s

/-- `publish_row_completion`. -/
def publish : State ι :=
  let row := s.rows slot
  match s.receiver row answers.ingress, row.parent with
  | some (session, ingress), some context =>
    if row.syntheticEvent = none ∧ (row.session = none ∨ answers.terminal = .failed) then
      s.goto .idle
    else if row.syntheticEvent = none ∧ answers.terminal = .unsupported then
      s.setRow slot { row with syntheticEvent := some .semantic }
    else match ingress with
      | .full => s.goto .idle
      | .other => s.goto .idle
      | .stale => s.goto (.closing slot .clear)
      | .closed => s.goto (.closing slot .clear)
      | .accepted =>
        { s.fillMailbox row with
          delivered := row.reservation.toList.map
            (fun r => ⟨r, ⟨context, session, row.generation⟩, s.runs⟩) ++ s.delivered
          run := .closing slot .deliver }
  | _, _ => s.goto .idle

def consume : State ι :=
  let row := s.rows slot
  let t := match row.parent with
    | some (.child k) =>
      match (s.rows k).session with
      | some session =>
        if answers.consumes = true then
          s.setSession k ({ session with subdialog := .none }.moved answers)
        else s
      | none => s
    | _ => s
  (t.emptyRow slot).goto
    (if answers.fails = true ∨ answers.consumes = false then .idle else .row (slot + 1))

/-- What follows `row_destroy_runtime`. -/
def finish : After → State ι
  | .clear => ((s.destroyRow slot).emptyRow slot).goto (.row (slot + 1))
  | .deliver => (s.destroyRow slot).goto (.consuming slot)
  | .follow document again =>
    let t := s.destroyRow slot
    let u := t.setRow slot { t.rows slot with
      document := some document
      navigationHops := (s.rows slot).navigationHops + 1 }
    (u.initSession slot answers).goto (.following slot again)

/-- The next atomic step of `run_ready`. -/
def stepRun : Option (State ι) :=
  match s.run with
  | .idle => none
  | .row slot =>
    if config.capacity ≤ slot ∨ answers.resumes = false then some (s.goto .idle)
    else match (s.rows slot).state with
      | .canceled => some (s.goto (.closing slot .clear))
      | .pending => some (s.goto (.pending slot))
      | .active => some (s.goto (.active slot))
      | _ => some (s.goto (.row (slot + 1)))
  | .pending slot =>
    let row := s.rows slot
    if row.state = .pending then
      some { s.setRow slot { row with state := .active } with
        started := row.reservation.toList ++ s.started
        run := .acquiring slot }
    else some (s.goto (.row (slot + 1)))
  | .acquiring slot => some ((s.acquireInitial slot answers).goto (.active slot))
  | .active slot =>
    some (s.goto (if (s.rows slot).state = .active then .progressing slot else .row (slot + 1)))
  | .progressing slot =>
    let row := s.rows slot
    if row.syntheticEvent.isSome = true then some (s.goto (.publishing slot))
    else match row.session with
      | none => some (s.goto .idle)
      | some session =>
        if session.mode = .navigating then some (s.goto (.following slot false))
        else some (s.followed slot false)
  | .following slot again =>
    match (s.rows slot).session with
    | none => some (s.followed slot again)
    | some session =>
      if session.mode = .navigating then some (s.followNavigation config slot again answers)
      else some (s.followed slot again)
  | .driving slot =>
    match (s.rows slot).session with
    | none => some (s.goto .idle)
    | some session => some (s.drive config slot session answers)
  | .searching slot request free =>
    if config.capacity ≤ free then some (s.goto .idle)
    else if (s.rows free).state = .empty then
      some ((s.setRow free { s.rows free with state := .writing }).goto
        (.filling slot request free))
    else some (s.goto (.searching slot request (free + 1)))
  | .filling slot request free =>
    let row := s.rows slot
    let run := if copyParams config.maxParamBytes 0 request.params = true then
      Run.committing slot free s.accepted else .idle
    some ((s.fillRow config free (.child slot) (row.session.map Session.number) row.depth
      request).goto run)
  | .committing slot free reservation =>
    match (s.rows slot).session with
    | none => some (s.goto .idle)
    | some session =>
      let t := s.setSession slot { session with subdialog := .inFlight session.generation }
      some ((t.commitRow free reservation).goto (.driven slot))
  | .driven slot =>
    match (s.rows slot).session.map Session.mode with
    | some .navigating => some (s.goto (.following slot true))
    | some .submitting => some (s.goto (.row (slot + 1)))
    | some .scripting => some (s.goto (.row (slot + 1)))
    | _ => some (s.followed slot true)
  | .publishing slot => some (s.publish slot answers)
  | .closing slot after =>
    match (s.rows slot).session.map Session.subdialog with
    | some (.inFlight generation) =>
      some (s.goto (if generation = 0 then .destroying slot after
        else .canceling slot ⟨.child slot, generation, 0, none⟩ after))
    | _ => some (s.goto (.destroying slot after))
  | .canceling slot scan after =>
    let (t, next) := s.cancelStep config scan
    some (t.goto (next.elim (.destroying slot after) fun scan => .canceling slot scan after))
  | .destroying slot after => some (s.finish slot answers after)
  | .consuming slot => some (s.consume slot answers)

end State

section Steps

variable {ι : Type} [DecidableEq ι] (config : Config)

/-- One step of an adapter call or of `run_ready`. -/
def step (s : State ι) : Action ι → Option (State ι)
  | .prepare i request =>
    if s.tasks i = .idle ∧ prepareRefused config s.closed 0 request = false then
      some (s.setTask i (.searching request 0))
    else none
  | .cancel i context generation =>
    if s.tasks i = .idle ∧ generation ≠ 0 then
      some (s.setTask i (.canceling ⟨context, generation, 0, none⟩))
    else none
  | .close i =>
    if s.tasks i = .idle ∧ s.closed = false then
      some ({ s with closed := true }.setTask i (.closing 0 none))
    else none
  | .commit i => s.commitTicket i
  | .discard i => s.discardTicket i
  | .task i => s.stepTask config i
  | .runReady =>
    if s.run = .idle then some { s with run := .row 0, runs := s.runs + 1 } else none
  | .proceed answers => s.stepRun config answers

def Init (s : State ι) : Prop :=
  (∀ k, s.rows k = .blank) ∧ s.closed = false ∧ (∀ i, s.tasks i = .idle) ∧ s.run = .idle ∧
    s.accepted = 0 ∧ s.emptied = [] ∧ s.committed = [] ∧ s.started = [] ∧ s.marks = [] ∧
    s.delivered = [] ∧ s.sessions = 0 ∧ s.destroyed = [] ∧ s.documents = 0 ∧ s.released = []

end Steps

end Subdialogs

end TurboScxml.Voice
