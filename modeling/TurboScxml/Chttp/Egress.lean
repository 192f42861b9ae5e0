import TurboScxml.Lib.Machine
import TurboScxml.Session.Sends

/-!
# The BasicHTTP egress table

`chttp_event_io_egress.c`: a bounded table of sends on their way to the CHTTP client. The Sessions
reserve, settle and cancel rows, each for its own binding; one worker submits them and reports their
completion.

* `Row`, `CancelTicket`, `Binding`, `Processor`: the data behind the processor mutex;
* `prepareSend`, `egressCommit`, `cancelCommit` and so on: the locked sections of the Sessions;
* `cancelSelect`, `submitSelect`, `submitAnswer`, `completeBegin` and so on: the locked sections of
  the worker, which leave and take the mutex again around the calls of the client and the Session;
* `System`: the processor with the tickets of the Sessions, the place of the worker, and the
  requests that the client has accepted and not completed.
-/

namespace TurboScxml.Chttp

open Function Slots

/-! ## Data -/

/-- `scxml_chttp_binding_state`. -/
inductive BindingState
  | reserved | active | closing | quiescent
  deriving DecidableEq

/-- `scxml_chttp_egress_state`. -/
inductive RowState
  | free | reserved | ready | submitting | submitted | completing
  deriving DecidableEq

/-- `scxml_chttp_binding_impl`. -/
structure Binding where
  state : BindingState
  /-- `session` is set. -/
  hasSession : Bool
  outboundReferences : ℕ
  nextCommitSequence : ℕ
  deriving DecidableEq

def Binding.isOpen (binding : Binding) : Bool :=
  binding.state == .reserved || binding.state == .active

/-- `scxml_chttp_egress_row`. -/
structure Row (β : Type) where
  state : RowState
  binding : Option β
  generation : ℕ
  sendId : Text
  delayMs : ℕ
  dueMs : ℕ
  commitSequence : ℕ
  request : ℕ
  cancelRequested : Bool
  deriving DecidableEq

/-- What `reset_row_locked` leaves. -/
def Row.free (β : Type) (generation : ℕ) : Row β :=
  ⟨.free, none, generation, [], 0, 0, 0, 0, false⟩

def Row.queued {β : Type} (row : Row β) : Bool := decide (row.state = .reserved ∨ row.state = .ready)

def Row.inFlight {β : Type} (row : Row β) : Bool :=
  decide (row.state = .submitting ∨ row.state = .submitted)

def Row.boundTo {β : Type} [DecidableEq β] (b : β) (row : Row β) : Bool :=
  decide (row.state ≠ .free ∧ row.binding = some b)

/-- `scxml_chttp_cancel_ticket`. -/
structure CancelTicket (n : ℕ) where
  target : Option (Fin n)
  targetGeneration : ℕ
  reserved : Bool
  deriving DecidableEq

/-- `scxml_chttp_processor_impl`. -/
structure Processor (n : ℕ) (β : Type) where
  rows : Fin n → Row β
  cancelTickets : Fin n → CancelTicket n
  bindings : β → Binding
  running : Bool
  queuedEgress : ℕ
  inFlightEgress : ℕ
  egressAccepted : ℕ
  egressCompleted : ℕ
  egressFailed : ℕ
  egressCancelled : ℕ
  invariantFailures : ℕ

/-- `scxml_chttp_egress_outcome`. -/
inductive Outcome
  | completed | failed | cancelled
  deriving DecidableEq

/-- What `complete_row` reports to the Session. -/
structure Report where
  error : Bool
  sendDone : Option Text
  deriving DecidableEq

/-- What `chttp_async_client_submit` answers. -/
inductive SubmitStatus
  | ok (request : ℕ) | enobufs | other
  deriving DecidableEq

/-- What `chttp_async_request_cancel` answers. -/
inductive CancelStatus
  | ok | ealready | enobufs | ebusy | enoent | other
  deriving DecidableEq

inductive Worker (n : ℕ)
  | idle
  /-- Inside `chttp_async_request_cancel`. -/
  | cancelling (row : Fin n) (request : ℕ)
  /-- Inside `chttp_async_client_submit`. -/
  | submitting (row : Fin n)
  /-- Before the first section of `complete_row`. -/
  | completing (row : Fin n) (outcome : Outcome)
  /-- Between the sections of `complete_row`. -/
  | reporting (row : Fin n)
  deriving DecidableEq

namespace Processor

variable {n : ℕ} {β : Type}

/-- After `scxml_chttp_processor_start`. -/
def init (n : ℕ) (β : Type) : Processor n β where
  rows _ := .free β 0
  cancelTickets _ := ⟨none, 0, false⟩
  bindings _ := ⟨.reserved, false, 0, 1⟩
  running := true
  queuedEgress := 0
  inFlightEgress := 0
  egressAccepted := 0
  egressCompleted := 0
  egressFailed := 0
  egressCancelled := 0
  invariantFailures := 0

variable (p : Processor n β) (i : Fin n)

def violated : Processor n β := { p with invariantFailures := p.invariantFailures + 1 }

def setRow (row : Row β) : Processor n β := { p with rows := update p.rows i row }

def setState (state : RowState) : Processor n β := p.setRow i { p.rows i with state }

def unqueued : Processor n β := { p with queuedEgress := p.queuedEgress - 1 }

/-- The generation after `g`, which is never zero. -/
def nextGeneration (g : ℕ) : ℕ := if g = uint32Max then 1 else g + 1

variable [DecidableEq β]

def releaseBinding (binding : Option β) : Processor n β :=
  match binding with
  | none => p
  | some b => { p with
      bindings := update p.bindings b
        { p.bindings b with outboundReferences := (p.bindings b).outboundReferences - 1 } }

def resetRowLocked : Processor n β :=
  (p.releaseBinding (p.rows i).binding).setRow i (.free β (p.rows i).generation)

/-- `abort_reserved` and `egress_discard`. -/
def dropReserved : Processor n β :=
  if (p.rows i).state = .reserved then p.unqueued.resetRowLocked i else p.violated

def abortReserved : Processor n β := p.dropReserved i

def egressDiscard : Processor n β := p.dropReserved i

omit [DecidableEq β] in
def rowOpen : Bool :=
  match (p.rows i).binding with
  | none => false
  | some b => (p.bindings b).isOpen

/-- The commit number after `m`, which is never zero. -/
def nextSequence (m : ℕ) : ℕ := if m = uint64Max then 1 else m + 1

def committedRow (m now : ℕ) (row : Row β) : Row β :=
  { row with state := .ready, commitSequence := m, dueMs := min uint64Max (now + row.delayMs) }

def egressCommit (now : ℕ) : Processor n β :=
  let row := p.rows i
  match row.state, row.binding with
  | .reserved, some b =>
    if !p.running || !(p.bindings b).isOpen then p.unqueued.resetRowLocked i
    else
      { p.setRow i (committedRow (p.bindings b).nextCommitSequence now row) with
        bindings := update p.bindings b
          { p.bindings b with
            nextCommitSequence := nextSequence (p.bindings b).nextCommitSequence } }
  | _, _ => p.violated

/-! ## Preparing a send -/

def vacant : Option (Fin n) := Fin.find? fun i => (p.rows i).state == .free

variable (b : β)

def reserveRow (sendId : Text) (delayMs : ℕ) : Processor n β :=
  { p.setRow i { p.rows i with
      state := .reserved
      binding := some b
      generation := nextGeneration (p.rows i).generation
      sendId
      delayMs } with
    bindings := update p.bindings b
      { p.bindings b with outboundReferences := (p.bindings b).outboundReferences + 1 }
    queuedEgress := p.queuedEgress + 1 }

/-- The first section of `scxml_chttp_egress_prepare_send`. -/
def prepareSend (sendId : Text) (delayMs : ℕ) :
    Processor n β × Except Session.AdapterStatus (Fin n) :=
  if sendId.length > eventMetadataCapacity then (p, .error .invalidContract)
  else if !p.running || !(p.bindings b).isOpen then (p, .error .closed)
  else match p.vacant with
    | none => (p, .error .full)
    | some i => (p.reserveRow i b sendId delayMs, .ok i)

/-- The end of `scxml_chttp_egress_prepare_send`. -/
def finishSend : Processor n β × Bool :=
  if (p.rows i).state ≠ .reserved ∨ (p.bindings b).isOpen = false then
    (if (p.rows i).state = .reserved then p.unqueued.resetRowLocked i else p, false)
  else ({ p with egressAccepted := p.egressAccepted + 1 }, true)

/-! ## Cancelling -/

def isTarget (sendId : Text) (row : Row β) : Bool :=
  row.binding == some b && row.sendId == sendId && row.state != .free

/-- `scxml_chttp_egress_prepare_cancel`. -/
def prepareCancel (sendId : Text) : Processor n β × Except Session.AdapterStatus (Option (Fin n)) :=
  if !p.running || !(p.bindings b).isOpen then (p, .error .closed)
  else match Fin.find? fun i => isTarget b sendId (p.rows i) with
    | none => (p, .ok none)
    | some i =>
      match Fin.find? fun k => !(p.cancelTickets k).reserved with
      | none => (p, .error .full)
      | some k =>
        ({ p with
          cancelTickets := update p.cancelTickets k ⟨some i, (p.rows i).generation, true⟩ },
          .ok (some k))

/-- The ticket `k` given back. -/
def releaseCancel (k : Fin n) : Processor n β :=
  { p with
    cancelTickets := update p.cancelTickets k { p.cancelTickets k with reserved := false } }

def cancelDiscard (k : Fin n) : Processor n β :=
  if (p.cancelTickets k).reserved then p.releaseCancel k else p.violated

/-- A round of `scxml_chttp_egress_close_binding_locked`. -/
def cancelRow : Processor n β :=
  if (p.rows i).state = .ready then
    { p.unqueued with egressCancelled := p.egressCancelled + 1 }.resetRowLocked i
  else if (p.rows i).inFlight then p.setRow i { p.rows i with cancelRequested := true }
  else p

def cancelCommit (k : Fin n) : Processor n β :=
  let ticket := p.cancelTickets k
  match ticket.target with
  | some i =>
    if !ticket.reserved then p.violated
    else if (p.rows i).generation ≠ ticket.targetGeneration then p.releaseCancel k
    else (p.releaseCancel k).cancelRow i
  | none => p.violated

def closeBindingLocked : Processor n β :=
  sweep (fun p i => if (p.rows i).binding = some b then p.cancelRow i else p) p

def compositeClose : Processor n β :=
  if (p.bindings b).isOpen then
    { p with
      bindings := update p.bindings b { p.bindings b with state := .closing } }.closeBindingLocked b
  else p

def activate : Processor n β :=
  if (p.bindings b).state = .reserved ∧ p.running = true then
    { p with
      bindings := update p.bindings b
        { p.bindings b with state := .active, hasSession := true } }
  else p

/-- `composite_is_quiescent`. -/
def compositeIsQuiescent (downstream : Bool) (callbacks : ℕ) : Processor n β × Bool :=
  match (p.bindings b).state with
  | .quiescent => (p, true)
  | .closing =>
    if downstream && callbacks == 0 && (p.bindings b).outboundReferences == 0 then
      ({ p with
        bindings := update p.bindings b
          { p.bindings b with state := .quiescent, hasSession := false } }, true)
    else (p, false)
  | _ => (p, false)

/-! ## The worker -/

def earlierRowBlocks : Bool :=
  decide (∃ j, j ≠ i ∧ (p.rows j).binding = (p.rows i).binding ∧ (p.rows j).state ≠ .free ∧
    (p.rows j).state ≠ .reserved ∧ (p.rows j).commitSequence < (p.rows i).commitSequence)

omit [DecidableEq β] in
def rowActive : Bool :=
  match (p.rows i).binding with
  | none => false
  | some b => (p.bindings b).state == .active

/-- `select_ready_locked` may take the row. -/
def selectable (now : ℕ) (i : Fin n) : Bool :=
  (p.rows i).state == .ready && p.rowActive i && decide ((p.rows i).dueMs ≤ now) &&
    !p.earlierRowBlocks i

def selectReady (now : ℕ) : Option (Fin n) :=
  bestSlot (p.selectable now) fun i j => (p.rows i).dueMs < (p.rows j).dueMs

/-- The first section of `scxml_chttp_egress_submit_one`. -/
def submitSelect (now : ℕ) : Processor n β × Worker n :=
  match p.selectReady now with
  | none => (p, .idle)
  | some i =>
    ({ p.unqueued.setState i .submitting with inFlightEgress := p.inFlightEgress + 1 },
      .submitting i)

/-- The section after the client answered `status`. -/
def submitAnswer (status : SubmitStatus) : Processor n β × Worker n :=
  if (p.rows i).state = .submitting then
    match status with
    | .ok request => (p.setRow i { p.rows i with state := .submitted, request }, .idle)
    | .enobufs =>
      ({ p.setState i .ready with
        queuedEgress := p.queuedEgress + 1
        inFlightEgress := p.inFlightEgress - 1 }, .idle)
    | .other => (p, .completing i .failed)
  else (p, .completing i .failed)

def countOutcome : Outcome → Processor n β
  | .completed => { p with egressCompleted := p.egressCompleted + 1 }
  | .failed => { p with egressFailed := p.egressFailed + 1 }
  | .cancelled => { p with egressCancelled := p.egressCancelled + 1 }

/-- The first section of `complete_row`. -/
def completeBegin (outcome : Outcome) : Processor n β × Option Report :=
  let row := p.rows i
  match row.inFlight, row.binding with
  | true, some b =>
    ({ (p.setState i .completing).countOutcome outcome with
        inFlightEgress := p.inFlightEgress - 1 },
      some {
        error := outcome == .failed && (p.bindings b).hasSession &&
          (p.bindings b).state == .active
        sendDone :=
          if row.delayMs ≠ 0 ∧ row.sendId ≠ [] ∧ (p.bindings b).hasSession then some row.sendId
          else none })
  | _, _ => (p.violated, none)

/-- The last section of `complete_row`. -/
def completeEnd : Processor n β :=
  if (p.rows i).state = .completing then p.resetRowLocked i else p.violated

/-- The first section of `scxml_chttp_egress_cancel_one`. -/
def cancelSelect : Processor n β × Worker n :=
  match Fin.find? fun i => (p.rows i).state == .submitted && (p.rows i).cancelRequested with
  | none => (p, .idle)
  | some i => (p.setRow i { p.rows i with cancelRequested := false },
      .cancelling i (p.rows i).request)

/-- The section after the client answered `status`. -/
def cancelAnswer (request : ℕ) (status : CancelStatus) : Processor n β × Worker n :=
  let pending := (p.rows i).state = .submitted ∧ (p.rows i).request = request
  match status with
  | .ok | .ealready => (p, .idle)
  | .enoent => (if pending then p.violated else p, .completing i .cancelled)
  | .enobufs | .ebusy =>
    (if pending then p.setRow i { p.rows i with cancelRequested := true } else p, .idle)
  | .other =>
    (if pending then (p.setRow i { p.rows i with cancelRequested := true }).violated else p, .idle)

end Processor

/-! ## The processor in use -/

structure System (n : ℕ) (β : Type) where
  processor : Processor n β
  worker : Worker n
  callback : Option (Fin n)
  accepted : List (ℕ × Fin n)
  preparing : List (Fin n)
  tickets : List (Fin n)
  cancels : List (Fin n)

inductive Action (n : ℕ) (β : Type)
  | prepareSend (b : β) (sendId : Text) (delayMs : ℕ)
  | abortReserved (row : Fin n)
  | finishSend (row : Fin n)
  | commit (now : ℕ) (row : Fin n)
  | discard (row : Fin n)
  | prepareCancel (b : β) (sendId : Text)
  | cancelCommit (ticket : Fin n)
  | cancelDiscard (ticket : Fin n)
  | activate (b : β)
  | close (b : β)
  | isQuiescent (b : β) (downstream : Bool) (callbacks : ℕ)
  | cancelSelect
  | cancelAnswer (status : CancelStatus)
  | submitSelect (now : ℕ)
  | submitAnswer (status : SubmitStatus)
  | completeBegin
  | completeEnd
  | requestComplete (request : ℕ) (row : Fin n) (outcome : Outcome)
  | requestCompleted

def CancelStatus.admitted : CancelStatus → Bool
  | .enoent | .other => false
  | _ => true

namespace System

variable {n : ℕ} {β : Type}

def init (n : ℕ) (β : Type) : System n β := ⟨.init n β, .idle, none, [], [], [], []⟩

/-- The client may complete requests. -/
def polling (s : System n β) : Bool :=
  s.callback.isNone && (match s.worker with
    | .idle | .cancelling _ _ => true
    | _ => false)

def worked (s : System n β) (result : Processor n β × Worker n) : System n β :=
  { s with processor := result.1, worker := result.2 }

variable [DecidableEq β]

/-- **One step.** The Sessions come at any time. -/
def step (s : System n β) : Action n β → Option (System n β)
  | .prepareSend b sendId delayMs =>
    match s.processor.prepareSend b sendId delayMs with
    | (p, .ok i) => some { s with processor := p, preparing := s.preparing ++ [i] }
    | (p, .error _) => some { s with processor := p }
  | .abortReserved i =>
    if i ∈ s.preparing then
      some { s with
        processor := s.processor.abortReserved i
        preparing := s.preparing.erase i }
    else none
  | .finishSend i =>
    match (s.processor.rows i).binding with
    | some b =>
      if i ∈ s.preparing then
        match s.processor.finishSend i b with
        | (p, true) => some { s with
            processor := p
            preparing := s.preparing.erase i
            tickets := s.tickets ++ [i] }
        | (p, false) => some { s with processor := p, preparing := s.preparing.erase i }
      else none
    | none => none
  | .commit now i =>
    if i ∈ s.tickets then
      some { s with
        processor := s.processor.egressCommit i now
        tickets := s.tickets.erase i }
    else none
  | .discard i =>
    if i ∈ s.tickets then
      some { s with
        processor := s.processor.egressDiscard i
        tickets := s.tickets.erase i }
    else none
  | .prepareCancel b sendId =>
    match s.processor.prepareCancel b sendId with
    | (p, .ok (some k)) => some { s with processor := p, cancels := s.cancels ++ [k] }
    | (p, _) => some { s with processor := p }
  | .cancelCommit k =>
    if k ∈ s.cancels then
      some { s with
        processor := s.processor.cancelCommit k
        cancels := s.cancels.erase k }
    else none
  | .cancelDiscard k =>
    if k ∈ s.cancels then
      some { s with
        processor := s.processor.cancelDiscard k
        cancels := s.cancels.erase k }
    else none
  | .activate b => some { s with processor := s.processor.activate b }
  | .close b => some { s with processor := s.processor.compositeClose b }
  | .isQuiescent b downstream callbacks =>
    some { s with processor := (s.processor.compositeIsQuiescent b downstream callbacks).1 }
  | .cancelSelect =>
    if s.worker = .idle ∧ s.callback = none then some (s.worked s.processor.cancelSelect) else none
  | .cancelAnswer status =>
    match s.worker with
    | .cancelling i request =>
      if status.admitted && s.callback.isNone then
        some (s.worked (s.processor.cancelAnswer i request status))
      else none
    | _ => none
  | .submitSelect now =>
    if s.worker = .idle ∧ s.callback = none then some (s.worked (s.processor.submitSelect now))
    else none
  | .submitAnswer status =>
    match s.worker with
    | .submitting i =>
      match status with
      | .ok request =>
        if s.accepted.all (·.1 != request) then
          some { s.worked (s.processor.submitAnswer i status) with
            accepted := s.accepted ++ [(request, i)] }
        else none
      | _ => some (s.worked (s.processor.submitAnswer i status))
    | _ => none
  | .completeBegin =>
    match s.worker with
    | .completing i outcome =>
      match s.processor.completeBegin i outcome with
      | (p, some _) => some (s.worked (p, .reporting i))
      | (p, none) => some (s.worked (p, .idle))
    | _ => none
  | .completeEnd =>
    match s.worker with
    | .reporting i => some (s.worked (s.processor.completeEnd i, .idle))
    | _ => none
  | .requestComplete request i outcome =>
    if s.polling ∧ (request, i) ∈ s.accepted then
      match s.processor.completeBegin i outcome with
      | (p, some _) => some { s with
          processor := p
          callback := some i
          accepted := s.accepted.erase (request, i) }
      | (p, none) => some { s with
          processor := p
          accepted := s.accepted.erase (request, i) }
    else none
  | .requestCompleted =>
    match s.callback with
    | some i => some { s with processor := s.processor.completeEnd i, callback := none }
    | none => none

def Initial (s : System n β) : Prop := s = init n β

abbrev Reachable (s : System n β) : Prop :=
  Machine.Reachable (step : System n β → Action n β → Option (System n β)) Initial s

end System

end TurboScxml.Chttp
