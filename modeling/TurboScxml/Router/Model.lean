import TurboScxml.Basic
import TurboScxml.Lib.Table
import Mathlib.Logic.Function.Basic

/-!
# The Host router

`scxml_host_router.c`: a bounded table of Session endpoints and a bounded table of accepted events
on their way to them, with the tables of invocation aliases and of cancel tickets.

* tables: `Endpoint`, `InvokeRoute`, `Row`, `CancelRow`, `Config`, `Router`;
* `locate`: the endpoint a generation-tagged reference names;
* `releaseLocked`, `reserveLocked`, `commitLocked`: the moves of a row, run with the lock held;
* `ticketCommit`, `ticketDiscard`: the two ends of a send ticket.
-/

namespace TurboScxml

open Function Slots

namespace Router

/-- The `SALTS_*` results of the router. -/
inductive Status
  | ok | einval | enoent | ebusy | ealready | enobufs | enotsup | emsgsize | erange | eproto
  | eshutdown
  deriving DecidableEq

/-- `scxml_host_session_ref`; generation `0` names nothing. -/
structure SessionRef where
  slot : ℕ
  generation : ℕ
  deriving DecidableEq

def SessionRef.absent : SessionRef := ⟨0, 0⟩

def refsEqual (a b : SessionRef) : Bool :=
  a.generation != 0 && a.slot == b.slot && a.generation == b.generation

/-- `scxml_host_endpoint`. -/
structure Endpoint (σ : Type) where
  session : Option σ
  generation : ℕ
  parent : SessionRef
  location : Text
  live : Bool
  active : Bool
  accessible : Bool

def Endpoint.retired {σ : Type} (generation : ℕ) : Endpoint σ :=
  { session := none, generation, parent := .absent, location := [], live := false,
    active := false, accessible := false }

/-- `scxml_host_invoke_route`. -/
structure InvokeRoute where
  owner : SessionRef
  target : SessionRef
  id : Text
  live : Bool
  deriving DecidableEq

def InvokeRoute.free : InvokeRoute := ⟨.absent, .absent, [], false⟩

/-- `scxml_host_row_state`. -/
inductive RowState
  | free | reserved | delayed | firing | ready | inflight
  deriving DecidableEq

/-- `scxml_host_row`. -/
structure Row where
  state : RowState
  target : SessionRef
  source : SessionRef
  sequence : ℕ
  identity : ℕ
  delayMs : ℕ
  deadlineNs : ℕ
  fireWonCancel : Bool
  name : Text
  text : Text
  contentKind : ContentKind
  sendId : Text
  deriving DecidableEq

def Row.free : Row :=
  { state := .free, target := .absent, source := .absent, sequence := 0, identity := 0,
    delayMs := 0, deadlineNs := 0, fireWonCancel := false, name := [], text := [],
    contentKind := .invalid, sendId := [] }

def Row.timed (row : Row) : Bool :=
  row.delayMs != 0 && (row.state == .reserved || row.state == .delayed || row.state == .firing)

/-- `scxml_host_cancel_row` of a table of `n` rows. -/
structure CancelRow (n : ℕ) where
  target : Option (Fin n)
  source : SessionRef
  targetIdentity : ℕ
  inUse : Bool
  deriving DecidableEq

def CancelRow.free {n : ℕ} : CancelRow n := ⟨none, .absent, 0, false⟩

/-- `scxml_host_router_config`, with `cflow_deadline_after`. -/
structure Config where
  endpointCapacity : ℕ
  eventCapacity : ℕ
  maxTextBytes : ℕ
  invokeCapacity : ℕ
  timerCapacity : ℕ
  cancelCapacity : ℕ
  clockGiven : Bool
  clockValid : Bool
  deadlineAfter : ℕ → ℕ → ℕ

/-- The checks of `scxml_host_router_init`. -/
def Config.accepted (cfg : Config) : Bool :=
  cfg.endpointCapacity != 0 && cfg.endpointCapacity ≤ uint32Max && cfg.eventCapacity != 0 &&
  cfg.timerCapacity ≤ cfg.eventCapacity && (cfg.timerCapacity != 0) == cfg.clockGiven &&
  !(cfg.timerCapacity != 0 && (cfg.cancelCapacity == 0 || !cfg.clockValid)) &&
  !(cfg.timerCapacity == 0 && cfg.cancelCapacity != 0) && cfg.maxTextBytes != 0 &&
  cfg.maxTextBytes ≤ eventMetadataCapacity

end Router

open Router

/-- `scxml_host_router_impl`. -/
structure Router (cfg : Config) (σ : Type) where
  endpoints : Fin cfg.endpointCapacity → Endpoint σ
  rows : Fin cfg.eventCapacity → Row
  invokeRoutes : Fin cfg.invokeCapacity → InvokeRoute
  cancelRows : Fin cfg.cancelCapacity → CancelRow cfg.eventCapacity
  timerPending : ℕ
  cancelPending : ℕ
  invokeCount : ℕ
  endpointCount : ℕ
  pending : ℕ
  reserved : ℕ
  highWater : ℕ
  nextSequence : ℕ
  nextRowIdentity : ℕ
  timerFired : ℕ
  timerCancelled : ℕ
  cancelPrepared : ℕ
  cancelCommitted : ℕ
  cancelDiscarded : ℕ
  cancelFireWon : ℕ
  timerDoneFailed : ℕ
  prepared : ℕ
  committed : ℕ
  discarded : ℕ
  delivered : ℕ
  cancelled : ℕ
  rejectedFull : ℕ
  staleRefs : ℕ
  deliveryErrors : ℕ
  invariantFailures : ℕ
  closed : Bool
  draining : Bool
  timerRunning : Bool

namespace Router

variable {cfg : Config} {σ : Type}

/-- After `scxml_host_router_init`. -/
def init (cfg : Config) (σ : Type) : Router cfg σ where
  endpoints := fun _ => .retired 0
  rows := fun _ => .free
  invokeRoutes := fun _ => .free
  cancelRows := fun _ => .free
  timerPending := 0
  cancelPending := 0
  invokeCount := 0
  endpointCount := 0
  pending := 0
  reserved := 0
  highWater := 0
  nextSequence := 0
  nextRowIdentity := 0
  timerFired := 0
  timerCancelled := 0
  cancelPrepared := 0
  cancelCommitted := 0
  cancelDiscarded := 0
  cancelFireWon := 0
  timerDoneFailed := 0
  prepared := 0
  committed := 0
  discarded := 0
  delivered := 0
  cancelled := 0
  rejectedFull := 0
  staleRefs := 0
  deliveryErrors := 0
  invariantFailures := 0
  closed := false
  draining := false
  timerRunning := false

/-! ## References and counters -/

variable (r : Router cfg σ)

/-- `matches`: the slot of the live endpoint of that generation. -/
def locate (ref : SessionRef) : Option (Fin cfg.endpointCapacity) :=
  if h : ref.slot < cfg.endpointCapacity then
    if ref.generation ≠ 0 ∧ (r.endpoints ⟨ref.slot, h⟩).live = true ∧
        (r.endpoints ⟨ref.slot, h⟩).generation = ref.generation then
      some ⟨ref.slot, h⟩
    else none
  else none

def violated : Router cfg σ :=
  { r with invariantFailures := r.invariantFailures + 1 }

def stale : Router cfg σ := { r with staleRefs := r.staleRefs + 1 }

def full : Router cfg σ := { r with rejectedFull := r.rejectedFull + 1 }

variable (i : Fin cfg.eventCapacity)

def setRow (row : Row) : Router cfg σ :=
  { r with rows := update r.rows i row }

def setEndpoint (i : Fin cfg.endpointCapacity) (p : Endpoint σ) : Router cfg σ :=
  { r with endpoints := update r.endpoints i p }

def setRoute (i : Fin cfg.invokeCapacity) (route : InvokeRoute) : Router cfg σ :=
  { r with invokeRoutes := update r.invokeRoutes i route }

def setCancelRow (i : Fin cfg.cancelCapacity)
    (intent : CancelRow cfg.eventCapacity) : Router cfg σ :=
  { r with cancelRows := update r.cancelRows i intent }

def validInvokeId (id : Text) : Bool :=
  id != [] && id.length ≤ eventMetadataCapacity - 2 && !id.contains (Char.ofNat 0) &&
    !id.contains '#'

def validFields (cfg : Config) (name text : Text) : Bool :=
  name != [] && name.length ≤ eventMetadataCapacity && !name.contains (Char.ofNat 0) &&
    text.length ≤ cfg.maxTextBytes

/-! ## Rows -/

def dropReserved : Router cfg σ :=
  if r.reserved ≠ 0 then { r with reserved := r.reserved - 1 } else r.violated

def dropTimer : Router cfg σ :=
  if r.timerPending ≠ 0 then { r with timerPending := r.timerPending - 1 } else r.violated

def releaseLocked : Router cfg σ :=
  let row := r.rows i
  if row.state = .free ∨ r.pending = 0 then r.violated
  else
    let r := if row.state = .reserved then r.dropReserved else r
    let r := if row.timed then r.dropTimer else r
    { r.setRow i .free with pending := r.pending - 1 }

/-- `reserve_locked`. A `text` of `none` is the null pointer. -/
def reservedRow (target : SessionRef) (name : Text) (text : Option Text) : Row :=
  { r.rows i with
    state := .reserved
    identity := r.nextRowIdentity + 1
    target
    contentKind := if text.isSome then .textUtf8 else .invalid
    name
    text := text.getD [] }

/-- The router after `reserve_locked` took row `i`. -/
def reserveAt (target : SessionRef) (name : Text) (text : Option Text) : Router cfg σ :=
  { r.setRow i (r.reservedRow i target name text) with
    nextRowIdentity := r.nextRowIdentity + 1
    pending := r.pending + 1
    reserved := r.reserved + 1
    highWater := max r.highWater (r.pending + 1) }

def reserveLocked (target : SessionRef) (name : Text) (text : Option Text) :
    Router cfg σ × Option (Fin cfg.eventCapacity) :=
  if r.pending = cfg.eventCapacity ∨ r.nextRowIdentity = uint64Max then (r.full, none)
  else
    match Fin.find? fun i => (r.rows i).state == .free with
    | none => (r.violated, none)
    | some i => (r.reserveAt i target name text, some i)

/-- `commit_locked`, with the clock at `now`. -/
def committedRow (now : ℕ) (row : Row) : Row :=
  let row := { row with sequence := r.nextSequence + 1 }
  if row.delayMs ≠ 0 then
    { row with deadlineNs := cfg.deadlineAfter now row.delayMs, state := .delayed }
  else { row with state := .ready }

def commitLocked (now : ℕ) (i : Fin cfg.eventCapacity) : Router cfg σ :=
  let row := r.rows i
  if row.state ≠ .reserved then r.violated
  else if r.closed = true ∨ r.locate row.target = none ∨ r.nextSequence = uint64Max then
    releaseLocked { r with cancelled := r.cancelled + 1 } i
  else
    { r.setRow i (r.committedRow now row) with
      reserved := r.reserved - 1
      nextSequence := r.nextSequence + 1
      committed := r.committed + 1 }

def ticketCommit (now : ℕ) (i : Fin cfg.eventCapacity) : Router cfg σ :=
  r.commitLocked now i

def ticketDiscard (i : Fin cfg.eventCapacity) : Router cfg σ :=
  if (r.rows i).state ≠ .reserved then r.violated
  else releaseLocked { r with discarded := r.discarded + 1 } i

def dropRow (i : Fin cfg.eventCapacity) : Router cfg σ :=
  let r := if (r.rows i).state = .delayed then { r with timerCancelled := r.timerCancelled + 1 }
    else r
  let r := r.releaseLocked i
  { r with cancelled := r.cancelled + 1 }

/-- The loops that drop the rows chosen by `p`. -/
def dropRows (p : Row → Bool) (r : Router cfg σ) : Router cfg σ × ℕ :=
  sweep (fun (s : Router cfg σ × ℕ) i =>
    if p (s.1.rows i) then (s.1.dropRow i, s.2 + 1) else s) (r, 0)

end Router

end TurboScxml
