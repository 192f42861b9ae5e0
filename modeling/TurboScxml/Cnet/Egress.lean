import TurboScxml.Lib.Machine
import TurboScxml.Session.Sends

/-!
# The CNet egress adapter

`scxml_cnet_egress.c`: a bounded table of raw-byte sends on their way to one CNet connection. The
Session reserves and settles rows, the owner of the connection pumps them into CNet, and CNet's
callbacks release them.

* tables: `Row`, `Config`, `Egress`;
* `prepareSend`, `ticketCommit`, `ticketDiscard`: the Event I/O adapter;
* `pumpBegin`, `pumpClaim`, `pumpBuffer`, `pumpSettle`, `pumpFinish`: the locked sections of
  `scxml_cnet_egress_pump`;
* `System`, `Action`, `step`: the adapter with the outstanding tickets and the running pump.
-/

namespace TurboScxml

open Function Slots Machine

namespace Cnet

/-- The `SALTS_*` results. -/
inductive Status
  | ok | einval | ebusy | ealready | enobufs | enomem | enotconn | eproto | eio | emsgsize
  | eshutdown
  | other (code : ℕ)
  deriving DecidableEq

/-- `cnet_connection`. Generation `0` names nothing. -/
structure Connection where
  slot : ℕ
  generation : ℕ
  deriving DecidableEq

/-- `cnet_connection_state`. -/
inductive ConnectionState
  | connected | closing | closed | failed (status : Option Status)
  | other
  deriving DecidableEq

def rawProcessorUri : Text := "urn:turboscxml:cnet-raw:1".toList

def boundTarget : Text := "cnet://bound".toList

namespace Egress

/-- `scxml_cnet_egress_row_state`. -/
inductive RowState
  | free | reserved | ready | submitting | submitted
  deriving DecidableEq

/-- `scxml_cnet_egress_row`. -/
structure Row where
  state : RowState
  sequence : ℕ
  bytes : Text
  deriving DecidableEq

def Row.free : Row := ⟨.free, 0, []⟩

def Row.used (row : Row) : Bool := row.state != .free

/-- `scxml_cnet_egress_config`. -/
structure Config where
  capacity : ℕ
  maxPayloadBytes : ℕ

/-- The check of `scxml_cnet_egress_init`. -/
def Config.accepted (cfg : Config) : Bool :=
  cfg.capacity != 0 && cfg.maxPayloadBytes != 0 && cfg.maxPayloadBytes ≤ eventMetadataCapacity

end Egress

open Egress in
/-- `scxml_cnet_egress_impl`. -/
structure Egress (cfg : Config) where
  rows : Fin cfg.capacity → Row
  connection : Connection
  pending : ℕ
  highWater : ℕ
  nextSequence : ℕ
  prepared : ℕ
  committed : ℕ
  discarded : ℕ
  submitted : ℕ
  completed : ℕ
  cancelled : ℕ
  rejectedFull : ℕ
  transientFull : ℕ
  staleCallbacks : ℕ
  invariantFailures : ℕ
  bound : Bool
  connected : Bool
  terminal : Bool
  closed : Bool
  failed : Bool
  pumping : Bool
  firstError : Status

namespace Egress

variable {cfg : Config}

def init (cfg : Config) : Egress cfg where
  rows _ := .free
  connection := ⟨0, 0⟩
  pending := 0
  highWater := 0
  nextSequence := 0
  prepared := 0
  committed := 0
  discarded := 0
  submitted := 0
  completed := 0
  cancelled := 0
  rejectedFull := 0
  transientFull := 0
  staleCallbacks := 0
  invariantFailures := 0
  bound := false
  connected := false
  terminal := false
  closed := false
  failed := false
  pumping := false
  firstError := .ok

variable (e : Egress cfg) (connection : Connection)

def isBoundTo : Bool :=
  e.bound && e.connection == connection

def setFailure (status : Status) : Egress cfg :=
  if e.failed then e else { e with failed := true, firstError := status }

def violated : Egress cfg :=
  { e with invariantFailures := e.invariantFailures + 1 }

def stale : Egress cfg := { e with staleCallbacks := e.staleCallbacks + 1 }

variable (i : Fin cfg.capacity)

def setRow (row : Row) : Egress cfg :=
  { e with rows := update e.rows i row }

def setState (state : RowState) : Egress cfg :=
  e.setRow i { e.rows i with state }

def releaseRow : Egress cfg :=
  if (e.rows i).state = .free ∨ e.pending = 0 then e.violated
  else { e.setRow i .free with pending := e.pending - 1 }

def cancelRow : Egress cfg :=
  { e with cancelled := e.cancelled + 1 }.releaseRow i

def earliest (state : RowState) : Option (Fin cfg.capacity) :=
  bestSlot (fun i => (e.rows i).state == state)
    fun i j => (e.rows i).sequence < (e.rows j).sequence

/-! ## The Event I/O adapter -/

def ticketCommit (i : Fin cfg.capacity) : Egress cfg :=
  if (e.rows i).state ≠ .reserved then e.violated
  else if e.closed || e.terminal then e.cancelRow i
  else { e.setRow i { e.rows i with state := .ready, sequence := e.nextSequence + 1 } with
    nextSequence := e.nextSequence + 1
    committed := e.committed + 1 }

def ticketDiscard (i : Fin cfg.capacity) : Egress cfg :=
  if (e.rows i).state ≠ .reserved then e.violated
  else { e with discarded := e.discarded + 1 }.releaseRow i

/-- The payloads that `prepare_send` tells apart. -/
inductive Payload
  | none | content (kind : ContentKind) (bytes : Option Text)
  | other
  deriving DecidableEq

/-- `scxml_send_request`. -/
structure SendRequest where
  type : Text
  target : Text
  delayMs : ℕ
  event : Option Text
  payload : Payload

/-- The status and the text of `out_error`. -/
structure Refusal where
  status : Session.AdapterStatus
  error : Option String
  deriving DecidableEq

def SendRequest.bytes (request : SendRequest) : Option Text :=
  match request.payload with
  | .none => request.event
  | .content .textUtf8 bytes => bytes
  | _ => Option.none

/-- `prepare_send` before the lock. -/
def checkSend (cfg : Config) (request : SendRequest) : Except Refusal Text :=
  if request.type ≠ rawProcessorUri then
    .error ⟨.errorExecution,
      some "CNet raw-byte profile requires explicit urn:turboscxml:cnet-raw:1 type"⟩
  else if request.target ≠ boundTarget then
    .error ⟨.errorCommunication, some "CNet raw-byte profile requires cnet://bound target"⟩
  else if request.delayMs ≠ 0 then
    .error ⟨.errorExecution, some "CNet raw-byte profile does not implement delayed sends"⟩
  else match request.bytes with
    | some (c :: cs) =>
      if (c :: cs).length > cfg.maxPayloadBytes then
        .error ⟨.errorExecution,
          some "CNet raw-byte profile accepts only event-name or TEXT_UTF8 content bytes"⟩
      else .ok (c :: cs)
    | _ => .error ⟨.errorExecution,
        some "CNet raw-byte profile accepts only event-name or TEXT_UTF8 content bytes"⟩

def vacant : Option (Fin cfg.capacity) :=
  Fin.find? fun i => (e.rows i).state == .free

def reserveRow (i : Fin cfg.capacity) (bytes : Text) : Egress cfg :=
  { e.setRow i ⟨.reserved, 0, bytes⟩ with
    prepared := e.prepared + 1
    pending := e.pending + 1
    highWater := max e.highWater (e.pending + 1) }

/-- `prepare_send`, with the row of the ticket. -/
def prepareSend (request : SendRequest) : Egress cfg × Except Refusal (Fin cfg.capacity) :=
  match checkSend cfg request with
  | .error refusal => (e, .error refusal)
  | .ok bytes =>
    if e.closed || e.terminal || e.failed then (e, .error ⟨.closed, none⟩)
    else if e.pending = cfg.capacity then
      ({ e with rejectedFull := e.rejectedFull + 1 }, .error ⟨.full, none⟩)
    else match e.vacant with
      | none => (e.violated, .error ⟨.invalidContract, none⟩)
      | some i => (e.reserveRow i bytes, .ok i)

/-! ## Callbacks, close and bind -/

def cancelRows (p : RowState → Bool) : Egress cfg :=
  sweep (fun e i => if p (e.rows i).state then e.cancelRow i else e) e

def RowState.terminated (state : RowState) : Bool := state == .ready || state == .submitted

/-- The terminal branch of `observe_state`. -/
def terminate : Egress cfg := e.cancelRows RowState.terminated

def failureStatus : Option Status → Status
  | none | some .ok => .eio
  | some status => status

def observeState (state : ConnectionState) : Egress cfg :=
  if !e.isBoundTo connection then e.stale
  else match state with
    | .connected => { e with connected := true }
    | .closing => { e with connected := false }
    | .closed => { e with connected := false, terminal := true }.terminate
    | .failed status =>
      ({ e with connected := false, terminal := true }.setFailure
        (failureStatus status)).terminate
    | .other => e

def observeSend (size : ℕ) : Egress cfg :=
  if !e.isBoundTo connection || e.terminal then e.stale
  else match e.earliest .submitted with
    | none => e.violated.setFailure .eproto
    | some i =>
      if (e.rows i).bytes.length = size then { e with completed := e.completed + 1 }.releaseRow i
      else (e.setFailure .eproto).releaseRow i

def adapterClose : Egress cfg :=
  if e.closed then e else { e with closed := true }.cancelRows (· == RowState.ready)

/-- `adapter_quiescent`. -/
def adapterQuiescent : Bool :=
  e.closed && e.pending == 0 && !e.pumping && (!e.bound || e.terminal)

def bind : Egress cfg × Status :=
  if connection.generation = 0 then (e, .einval)
  else if e.bound || e.closed then (e, .ebusy)
  else ({ e with connection, bound := true }, .ok)

/-! ## The pump -/

/-- Where the caller of `scxml_cnet_egress_pump` is. -/
inductive PumpLane (n : ℕ)
  | idle
  /-- Before the section that takes the earliest row. -/
  | scanning (completed maxWrites : ℕ) (result : Status)
  | buffering (row : Fin n) (completed maxWrites : ℕ) (result : Status)
  /-- Inside `cnet_send_buffer`. -/
  | sending (row : Fin n) (completed maxWrites : ℕ) (result : Status)
  | leaving (completed : ℕ) (result : Status)
  deriving DecidableEq

def PumpLane.holds {n : ℕ} : PumpLane n → Option (Fin n)
  | .buffering i _ _ _ => some i
  | .sending i _ _ _ => some i
  | _ => none

/-- The entry of `scxml_cnet_egress_pump`. -/
def pumpBegin (maxWrites : ℕ) : Egress cfg × Except Status (PumpLane cfg.capacity) :=
  if maxWrites = 0 then (e, .error .einval)
  else if e.pumping then (e, .error .ebusy)
  else if e.closed || e.terminal || e.failed then (e, .error .eshutdown)
  else if !e.bound || !e.connected then (e, .error .enotconn)
  else ({ e with pumping := true }, .ok (.scanning 0 maxWrites .ok))

def pumpClaim (completed maxWrites : ℕ) (result : Status) : Egress cfg × PumpLane cfg.capacity :=
  if completed < maxWrites then
    match e.earliest .ready with
    | none => (e, .leaving completed result)
    | some i =>
      if e.closed || e.terminal then (e, .leaving completed result)
      else (e.setState i .submitting, .buffering i completed maxWrites result)
  else (e, .leaving completed result)

/-- The section after `mem_get_buffer`. -/
def pumpBuffer (given : Bool) (i : Fin cfg.capacity)
    (completed maxWrites : ℕ) (result : Status) : Egress cfg × PumpLane cfg.capacity :=
  if given then
    if e.closed || e.terminal then (e.cancelRow i, .leaving completed result)
    else (e, .sending i completed maxWrites result)
  else if e.closed then (e.cancelRow i, .leaving completed .enomem)
  else (e.setState i .ready, .leaving completed .enomem)

/-- The section after `cnet_send_buffer`. -/
def pumpSettle (status : Status) (i : Fin cfg.capacity)
    (completed maxWrites : ℕ) (result : Status) : Egress cfg × PumpLane cfg.capacity :=
  if (e.rows i).state ≠ .submitting then
    (e.violated.setFailure .eproto,
      if status = .ok then .scanning completed maxWrites .eproto else .leaving completed .eproto)
  else if status = .ok then
    ({ e.setState i .submitted with submitted := e.submitted + 1 },
      .scanning (completed + 1) maxWrites result)
  else if e.closed || e.terminal then (e.cancelRow i, .leaving completed status)
  else if status = .enobufs ∨ status = .ebusy then
    ({ e.setState i .ready with transientFull := e.transientFull + 1 }, .leaving completed status)
  else ((e.setFailure status).releaseRow i, .leaving completed status)

/-- The last section of `scxml_cnet_egress_pump`. -/
def pumpFinish : Egress cfg := { e with pumping := false }

/-! ## The adapter in use -/

structure System (cfg : Config) where
  egress : Egress cfg
  pump : PumpLane cfg.capacity
  tickets : List (Fin cfg.capacity)

inductive Action (cfg : Config)
  | bind (connection : Connection)
  | prepareSend (request : SendRequest)
  | commit (ticket : Fin cfg.capacity)
  | discard (ticket : Fin cfg.capacity)
  | observeState (connection : Connection) (state : ConnectionState)
  | observeSend (connection : Connection) (size : ℕ)
  | close
  | pumpBegin (maxWrites : ℕ)
  | pumpClaim
  | pumpBuffer (given : Bool)
  | pumpSettle (status : Status)
  | pumpFinish

namespace System

/-- The adapter after `scxml_cnet_egress_init`. -/
def init (cfg : Config) : System cfg := ⟨.init cfg, .idle, []⟩

variable (s : System cfg)

def settle (i : Fin cfg.capacity) (e : Egress cfg) : System cfg :=
  { s with egress := e, tickets := s.tickets.erase i }

def pumped (result : Egress cfg × PumpLane cfg.capacity) : System cfg :=
  { s with egress := result.1, pump := result.2 }

/-- **One step.** Callbacks and settlements come at any time. -/
def step : Action cfg → Option (System cfg)
  | .bind connection => some { s with egress := (s.egress.bind connection).1 }
  | .prepareSend request =>
    match s.egress.prepareSend request with
    | (e, .ok i) => some { s with egress := e, tickets := s.tickets ++ [i] }
    | (e, .error _) => some { s with egress := e }
  | .commit i => if i ∈ s.tickets then some (s.settle i (s.egress.ticketCommit i)) else none
  | .discard i => if i ∈ s.tickets then some (s.settle i (s.egress.ticketDiscard i)) else none
  | .observeState connection state =>
    some { s with egress := s.egress.observeState connection state }
  | .observeSend connection size =>
    some { s with egress := s.egress.observeSend connection size }
  | .close => some { s with egress := s.egress.adapterClose }
  | .pumpBegin maxWrites =>
    match s.egress.pumpBegin maxWrites with
    | (e, .ok lane) => some { s with egress := e, pump := lane }
    | (e, .error _) => some { s with egress := e }
  | .pumpClaim =>
    match s.pump with
    | .scanning completed maxWrites result =>
      some (s.pumped (s.egress.pumpClaim completed maxWrites result))
    | _ => none
  | .pumpBuffer given =>
    match s.pump with
    | .buffering i completed maxWrites result =>
      some (s.pumped (s.egress.pumpBuffer given i completed maxWrites result))
    | _ => none
  | .pumpSettle status =>
    match s.pump with
    | .sending i completed maxWrites result =>
      some (s.pumped (s.egress.pumpSettle status i completed maxWrites result))
    | _ => none
  | .pumpFinish =>
    match s.pump with
    | .leaving _ _ => some { s with egress := s.egress.pumpFinish, pump := .idle }
    | _ => none

def Initial : Prop := cfg.accepted = true ∧ s = init cfg

abbrev Reachable : Prop :=
  Machine.Reachable (step : System cfg → Action cfg → Option (System cfg)) Initial s

end System

end Egress

end Cnet

end TurboScxml
