import TurboScxml.Router.Model

/-!
# The operations of the Host router

Every function is one section of `scxml_host_router.c` that runs under the router's lock. `run_due`
and `drain` release the lock around a call into a Session, so each is a family of sections, and a
lane value holds its local variables in between.

* endpoints: `reserve`, `activate`, `attach`, `abort`, `detach`, `setParent`, `setExternalAccess`;
* invocation aliases: `bindInvoke`, `unbindInvoke`, `resolve`;
* sends: `prepareTarget`, `prepare`, `enqueue`;
* cancels: `prepareCancel`, `cancelCommit`, `cancelDiscard`, `cancel`, `cancelSource`, `close`.
-/

namespace TurboScxml.Router

open Function Slots

variable {cfg : Config} {σ : Type}

/-! ## Endpoints -/

variable (r : Router cfg σ)

def vacant : Option (Fin cfg.endpointCapacity) :=
  Fin.find? fun i => !(r.endpoints i).live && (r.endpoints i).generation != uint32Max

def reserve : Router cfg σ × Except Status SessionRef :=
  if r.closed then (r, .error .eshutdown)
  else
    match r.vacant with
    | none => (r, .error .enobufs)
    | some i =>
      let generation := (r.endpoints i).generation + 1
      let r := r.setEndpoint i { Endpoint.retired generation with live := true }
      ({ r with endpointCount := r.endpointCount + 1 }, .ok ⟨i, generation⟩)

/-- What `scxml_session_copy_location` has to yield. -/
def usableLocation (location : Option Text) : Option Text :=
  location.filter fun l => l != [] && l.length ≤ eventMetadataCapacity

/-- `scxml_host_router_activate`. -/
def activate [DecidableEq σ] (r : Router cfg σ) (ref : SessionRef) (session : σ)
    (location : Option Text) : Router cfg σ × Status :=
  match usableLocation location with
  | none => (r, .einval)
  | some location =>
    if r.closed then (r, .eshutdown)
    else
      match r.locate ref with
      | none => (r.stale, .enoent)
      | some i =>
        let p := r.endpoints i
        if p.active || p.session.isSome then (r, .ealready)
        else if (Fin.find? fun j => (r.endpoints j).active &&
            ((r.endpoints j).session == some session || (r.endpoints j).location == location)
            ).isSome then (r, .ealready)
        else (r.setEndpoint i { p with session := some session, active := true, location }, .ok)

def attach [DecidableEq σ] (r : Router cfg σ) (session : σ) (location : Option Text) :
    Router cfg σ × Except Status SessionRef :=
  match usableLocation location with
  | none => (r, .error .einval)
  | some location =>
    if r.closed then (r, .error .eshutdown)
    else if (Fin.find? fun j => (r.endpoints j).live &&
        ((r.endpoints j).session == some session || (r.endpoints j).location == location)
        ).isSome then (r, .error .ealready)
    else
      match r.vacant with
      | none => (r, .error .enobufs)
      | some i =>
        let generation := (r.endpoints i).generation + 1
        let r := r.setEndpoint i
          { session := some session, generation, parent := .absent, location, live := true,
            active := true, accessible := false }
        ({ r with endpointCount := r.endpointCount + 1 }, .ok ⟨i, generation⟩)

def Row.pinned (row : Row) (ref : SessionRef) : Bool :=
  (refsEqual row.source ref || refsEqual row.target ref) &&
    (row.state == .reserved || row.state == .inflight || row.state == .firing)

def Row.droppable (row : Row) (ref : SessionRef) : Bool :=
  (row.state == .ready || row.state == .delayed) &&
    (refsEqual row.source ref || refsEqual row.target ref)

/-- `scxml_host_router_abort` up to its call of `detach`. -/
def abort (ref : SessionRef) : Router cfg σ × Status :=
  match r.locate ref with
  | none => (r.stale, .enoent)
  | some i =>
    if (r.endpoints i).active then (r, .ebusy)
    else if (Fin.find? fun j => (r.rows j).pinned ref).isSome then (r, .ebusy)
    else ((r.dropRows fun row => row.droppable ref).1, .ok)

def detach (target : SessionRef) : Router cfg σ × Status :=
  match r.locate target with
  | none => (r.stale, .enoent)
  | some i =>
    if (Fin.find? fun j => (r.rows j).state != .free &&
        (refsEqual (r.rows j).target target || refsEqual (r.rows j).source target)).isSome then
      (r, .ebusy)
    else if (Fin.find? fun j => (r.cancelRows j).inUse &&
        refsEqual (r.cancelRows j).source target).isSome then (r, .ebusy)
    else if (Fin.find? fun j => (r.endpoints j).live &&
        refsEqual (r.endpoints j).parent target).isSome then (r, .ebusy)
    else if (Fin.find? fun j => (r.invokeRoutes j).live &&
        (refsEqual (r.invokeRoutes j).owner target ||
          refsEqual (r.invokeRoutes j).target target)).isSome then (r, .ebusy)
    else
      let r := r.setEndpoint i (.retired (r.endpoints i).generation)
      ({ r with endpointCount := r.endpointCount - 1 }, .ok)

inductive Ancestry
  | clear | cyclic | stale | tooDeep
  deriving DecidableEq

/-- The loop of `set_parent`. -/
def ancestry (r : Router cfg σ) (child : SessionRef) : ℕ → SessionRef → Ancestry
  | 0, ancestor => if ancestor.generation = 0 then .clear else .tooDeep
  | steps + 1, ancestor =>
    if ancestor.generation = 0 then .clear
    else if refsEqual ancestor child then .cyclic
    else
      match r.locate ancestor with
      | none => .stale
      | some i => ancestry r child steps (r.endpoints i).parent

/-- `scxml_host_router_set_parent`. -/
def setParent (child parent : SessionRef) : Router cfg σ × Status :=
  if parent ≠ .absent ∧ refsEqual child parent = true then (r, .einval)
  else if r.closed then (r, .eshutdown)
  else
    match r.locate child with
    | none => (r.stale, .enoent)
    | some i =>
      let linked := (r.setEndpoint i { r.endpoints i with parent }, Status.ok)
      if parent = .absent then linked
      else if r.locate parent = none then (r.stale, .enoent)
      else
        match r.ancestry child cfg.endpointCapacity parent with
        | .clear => linked
        | .cyclic => (r, .einval)
        | .stale => (r.stale, .enoent)
        | .tooDeep => (r, .einval)

def setExternalAccess (ref : SessionRef) (enabled : Bool) : Router cfg σ × Status :=
  if r.closed then (r, .eshutdown)
  else
    match r.locate ref with
    | none => (r.stale, .enoent)
    | some i => (r.setEndpoint i { r.endpoints i with accessible := enabled }, .ok)

/-! ## Invocation aliases -/

def route (owner : SessionRef) (id : Text) : Option (Fin cfg.invokeCapacity) :=
  Fin.find? fun j => (r.invokeRoutes j).live && refsEqual (r.invokeRoutes j).owner owner &&
    (r.invokeRoutes j).id == id

variable (source : SessionRef)

def bindInvoke (invokeId : Text) (target : SessionRef) : Router cfg σ × Status :=
  if validInvokeId invokeId = false ∨ refsEqual source target = true then (r, .einval)
  else if r.closed then (r, .eshutdown)
  else if r.locate source = none ∨ r.locate target = none then (r.stale, .enoent)
  else if (r.route source invokeId).isSome then (r, .ealready)
  else
    match Fin.find? fun j => !(r.invokeRoutes j).live with
    | none => (r, .enobufs)
    | some j =>
      let r := r.setRoute j ⟨source, target, invokeId, true⟩
      ({ r with invokeCount := r.invokeCount + 1 }, .ok)

def unbindInvoke (invokeId : Text) : Router cfg σ × Status :=
  if validInvokeId invokeId = false then (r, .einval)
  else if r.locate source = none then (r.stale, .enoent)
  else
    match r.route source invokeId with
    | none => (r, .enoent)
    | some j =>
      let r := r.setRoute j .free
      ({ r with invokeCount := r.invokeCount - 1 }, .ok)

/-- `resolve_locked`. -/
def resolveAlias (i : Fin cfg.endpointCapacity) (target : Text) : SessionRef :=
  if target = [] then source
  else if target = ['#', '_', 'p', 'a', 'r', 'e', 'n', 't'] then (r.endpoints i).parent
  else
    match target with
    | '#' :: '_' :: c :: id => ((r.route source (c :: id)).map fun j =>
        (r.invokeRoutes j).target).getD .absent
    | _ => .absent

def resolveLocked (target : Text) : Except Status SessionRef :=
  match r.locate source with
  | none => .error .enoent
  | some i =>
    let resolved := r.resolveAlias source i target
    let resolved :=
      if resolved.generation = 0 ∧ target ≠ [] then
        match Fin.find? fun j => (r.endpoints j).live && (r.endpoints j).accessible &&
            (r.endpoints j).location == target with
        | none => resolved
        | some j => ⟨j, (r.endpoints j).generation⟩
      else resolved
    if r.locate resolved = none then .error .enoent else .ok resolved

def resolve (target : Text) : Router cfg σ × Except Status SessionRef :=
  if r.closed then (r, .error .eshutdown)
  else
    match r.resolveLocked source target with
    | .ok resolved => (r, .ok resolved)
    | .error status => (if r.locate source = none then r.stale else r, .error status)

/-! ## Sends -/

/-- `scxml_content_view` with its bytes. -/
structure Content where
  kind : ContentKind
  bytes : Text

def Row.pendingSend (row : Row) (source : SessionRef) (sendId : Text) : Bool :=
  row.timed && refsEqual row.source source && row.sendId == sendId

/-- `prepare_target` before the lock. -/
def checkTarget (cfg : Config) (name sendId : Text) (content : Option Content) (delayMs : ℕ) :
    Status :=
  if sendId.length > eventMetadataCapacity ∨ sendId.contains (Char.ofNat 0) = true ∨
      (delayMs ≠ 0 ∧ (sendId = [] ∨ cfg.clockGiven = false ∨ cfg.timerCapacity = 0)) then .einval
  else if (content.any fun c => c.kind != .textUtf8 && c.kind != .xmlUtf8) then .enotsup
  else if (content.any fun c => c.bytes.length > cfg.maxTextBytes) then .emsgsize
  else if validFields cfg name ((content.map Content.bytes).getD []) = false then .einval
  else .ok

def sendRow (row : Row) (source : SessionRef) (sendId : Text) (content : Option Content)
    (delayMs : ℕ) : Row :=
  { row with source, delayMs, contentKind := (content.map Content.kind).getD .invalid, sendId }

/-- `scxml_host_router_prepare_target`. -/
def prepareTarget (target name sendId : Text) (content : Option Content) (delayMs : ℕ) :
    Router cfg σ × Except Status (Fin cfg.eventCapacity) :=
  if checkTarget cfg name sendId content delayMs ≠ .ok then
    (r, .error (checkTarget cfg name sendId content delayMs))
  else if r.closed then (r, .error .eshutdown)
  else
    match r.resolveLocked source target with
    | .error status => (if r.locate source = none then r.stale else r, .error status)
    | .ok resolved =>
      if delayMs ≠ 0 ∧ cfg.timerCapacity ≤ r.timerPending then (r.full, .error .enobufs)
      else if delayMs ≠ 0 ∧
          (Fin.find? fun j => (r.rows j).pendingSend source sendId).isSome = true then
        (r, .error .ealready)
      else
        match r.reserveLocked resolved name (content.map Content.bytes) with
        | (r, none) => (r, .error .enobufs)
        | (r, some i) =>
          ({ r.setRow i (sendRow (r.rows i) source sendId content delayMs) with
            timerPending := if delayMs ≠ 0 then r.timerPending + 1 else r.timerPending
            prepared := r.prepared + 1 }, .ok i)

/-- `scxml_host_router_prepare`. -/
def prepare (target : SessionRef) (name : Text) (text : Option Text) :
    Router cfg σ × Except Status (Fin cfg.eventCapacity) :=
  if validFields cfg name (text.getD []) = false then (r, .error .einval)
  else if r.closed then (r, .error .eshutdown)
  else if r.locate target = none then (r.stale, .error .enoent)
  else
    match r.reserveLocked target name text with
    | (r, none) => (r, .error .enobufs)
    | (r, some i) => ({ r with prepared := r.prepared + 1 }, .ok i)

/-- `scxml_host_router_enqueue`. -/
def enqueue (now : ℕ) (target : SessionRef) (name : Text)
    (text : Option Text) : Router cfg σ × Status :=
  if validFields cfg name (text.getD []) = false then (r, .einval)
  else if r.closed then (r, .eshutdown)
  else if r.locate target = none then (r.stale, .enoent)
  else if r.nextSequence = uint64Max then (r, .erange)
  else
    match r.reserveLocked target name text with
    | (r, none) => (r, .enobufs)
    | (r, some i) => (commitLocked { r with prepared := r.prepared + 1 } now i, .ok)

/-! ## Cancels -/

def cancelReleaseLocked (k : Fin cfg.cancelCapacity) : Router cfg σ :=
  if (r.cancelRows k).inUse = false ∨ r.cancelPending = 0 then r.violated
  else { r.setCancelRow k .free with cancelPending := r.cancelPending - 1 }

def intentRow (intent : CancelRow cfg.eventCapacity) : Option (Fin cfg.eventCapacity) :=
  intent.target.filter fun i => (r.rows i).identity == intent.targetIdentity

/-- A RESERVED or DELAYED row is dropped; else a witness is left. -/
def cancelRow (intent : CancelRow cfg.eventCapacity) : Router cfg σ :=
  match r.intentRow intent with
  | none => { r with cancelFireWon := r.cancelFireWon + 1 }
  | some i =>
    if refsEqual (r.rows i).source intent.source = true ∧
        ((r.rows i).state = .reserved ∨ (r.rows i).state = .delayed) then
      releaseLocked { r with
        timerCancelled := r.timerCancelled + 1
        cancelled := r.cancelled + 1 } i
    else if (r.rows i).state = .firing then
      { r.setRow i { r.rows i with fireWonCancel := true } with
        cancelFireWon := r.cancelFireWon + 1 }
    else { r with cancelFireWon := r.cancelFireWon + 1 }

def cancelCommit (k : Fin cfg.cancelCapacity) : Router cfg σ :=
  let intent := r.cancelRows k
  if intent.inUse = false then r.violated
  else
    let r := r.cancelRow intent
    cancelReleaseLocked { r with cancelCommitted := r.cancelCommitted + 1 } k

def cancelDiscard (k : Fin cfg.cancelCapacity) : Router cfg σ :=
  if (r.cancelRows k).inUse = false then r.violated
  else cancelReleaseLocked { r with cancelDiscarded := r.cancelDiscarded + 1 } k

/-- The lookup of `prepare_cancel`. -/
def Row.delayedSend (row : Row) (source : SessionRef) (sendId : Text) : Bool :=
  row.delayMs != 0 && row.state != .free && refsEqual row.source source && row.sendId == sendId

/-- `scxml_host_router_prepare_cancel`. -/
def prepareCancel (source : SessionRef) (sendId : Text) :
    Router cfg σ × Except Status (Fin cfg.cancelCapacity) :=
  if sendId = [] ∨ sendId.length > eventMetadataCapacity ∨
      sendId.contains (Char.ofNat 0) = true ∨ cfg.cancelCapacity = 0 then (r, .error .einval)
  else if r.closed then (r, .error .eshutdown)
  else if r.locate source = none then (r.stale, .error .enoent)
  else
    match Fin.find? fun i => (r.rows i).delayedSend source sendId with
    | none => (r, .error .enoent)
    | some i =>
      if cfg.cancelCapacity ≤ r.cancelPending then (r.full, .error .enobufs)
      else
        match Fin.find? fun k => !(r.cancelRows k).inUse with
        | none => (r.violated, .error .eproto)
        | some k =>
          let r := r.setCancelRow k ⟨some i, source, (r.rows i).identity, true⟩
          ({ r with
            cancelPending := r.cancelPending + 1
            cancelPrepared := r.cancelPrepared + 1 }, .ok k)

/-- `scxml_host_router_cancel`. -/
def cancel (target : SessionRef) : Router cfg σ × Except Status ℕ :=
  match r.locate target with
  | none => (r.stale, .error .enoent)
  | some _ =>
    let (r, count) := r.dropRows fun row => row.state == .ready && row.target == target
    (r, .ok count)

/-- `scxml_host_router_cancel_source`. -/
def cancelSource (source : SessionRef) : Router cfg σ × Except Status ℕ :=
  match r.locate source with
  | none => (r.stale, .error .enoent)
  | some _ =>
    let (r, count) := r.dropRows fun row =>
      (row.state == .ready || row.state == .delayed) && refsEqual row.source source
    (r, .ok count)

def close : Router cfg σ × Status :=
  if r.closed then (r, .ealready)
  else
    let r := { r with closed := true }
    ((r.dropRows fun row => row.state == .ready || row.state == .delayed).1, .ok)

/-! ## The clock lane -/

/-- The caller inside `run_due`. -/
inductive TimerLane (cfg : Config)
  | idle
  | scanning (count maxFires : ℕ)
  | reporting (row : Fin cfg.eventCapacity) (count maxFires : ℕ)
  | leaving (count : ℕ) (result : Status)
  deriving DecidableEq

/-- `scxml_host_router_run_due` until its first unlock. -/
def runDueBegin (maxFires : ℕ) : Router cfg σ × Except Status (TimerLane cfg) :=
  if maxFires = 0 ∨ cfg.clockGiven = false then (r, .error .einval)
  else if r.closed then (r, .error .eshutdown)
  else if r.timerRunning then (r, .error .ebusy)
  else ({ r with timerRunning := true }, .ok (.scanning 0 maxFires))

def activeAt (ref : SessionRef) : Bool :=
  (r.locate ref).any fun i => (r.endpoints i).active

def dueRow (now : ℕ) : Option (Fin cfg.eventCapacity) :=
  bestSlot
    (fun i => (r.rows i).state == .delayed && (r.rows i).deadlineNs ≤ now &&
      r.activeAt (r.rows i).source)
    fun i j => (r.rows i).deadlineNs < (r.rows j).deadlineNs ||
      ((r.rows i).deadlineNs == (r.rows j).deadlineNs &&
        (r.rows i).sequence < (r.rows j).sequence)

def runDueClaim (now count maxFires : ℕ) : Router cfg σ × TimerLane cfg :=
  if maxFires ≤ count then (r, .leaving count .ok)
  else if r.closed then (r, .leaving count .eshutdown)
  else
    match r.dueRow now with
    | none => (r, .leaving count .ok)
    | some i => (r.setRow i { r.rows i with state := .firing }, .reporting i count maxFires)

/-- A cancel of the row committed since the claim. -/
def cancelRaced (i : Fin cfg.eventCapacity) : Bool :=
  (r.rows i).fireWonCancel ||
    (Fin.find? fun k => (r.cancelRows k).inUse && (r.cancelRows k).target == some i &&
      (r.cancelRows k).targetIdentity == (r.rows i).identity).isSome

/-- The section after the Session answered `settled`. -/
def runDueSettle (settled : Bool) (i : Fin cfg.eventCapacity)
    (count maxFires : ℕ) : Router cfg σ × TimerLane cfg :=
  if (r.rows i).state ≠ .firing then (r.violated, .leaving count .eproto)
  else
    let missing := !settled && !r.cancelRaced i
    if missing || r.closed then
      let r := if missing then { r with timerDoneFailed := r.timerDoneFailed + 1 } else r
      let r := releaseLocked { r with
        timerCancelled := r.timerCancelled + 1
        cancelled := r.cancelled + 1 } i
      (r, if missing then .leaving count .eproto else .scanning count maxFires)
    else if r.timerPending = 0 then (r.violated.releaseLocked i, .leaving count .eproto)
    else
      ({ r.setRow i { r.rows i with state := .ready } with
        timerPending := r.timerPending - 1
        timerFired := r.timerFired + 1 }, .scanning (count + 1) maxFires)

def runDueFinish : Router cfg σ := { r with timerRunning := false }

/-! ## The drain lane -/

/-- What `drain` hands to the Session. -/
structure Delivery (σ : Type) where
  session : Option σ
  name : Text
  sendId : Option Text
  origin : Option Text
  originType : Option Text
  contentKind : ContentKind
  bytes : Option Text

/-- The caller inside `drain`. -/
inductive DrainLane (cfg : Config) (σ : Type)
  | idle
  | scanning (count maxEvents : ℕ) (result : MailboxStatus)
  | delivering (row : Fin cfg.eventCapacity) (event : Delivery σ) (count maxEvents : ℕ)
  | leaving (count : ℕ) (result : MailboxStatus)

/-- `scxml_host_router_drain` until its first unlock. -/
def drainBegin (maxEvents : ℕ) : Router cfg σ × Except MailboxStatus (DrainLane cfg σ) :=
  if maxEvents = 0 then (r, .error .invalidArgument)
  else if r.draining then (r, .error .invalidArgument)
  else if r.closed then (r, .error .closed)
  else ({ r with draining := true }, .ok (.scanning 0 maxEvents .empty))

def oldestReady : Option (Fin cfg.eventCapacity) :=
  bestSlot (fun i => (r.rows i).state == .ready) fun i j =>
    (r.rows i).sequence < (r.rows j).sequence

def deliveryOf (row : Row) (i : Fin cfg.endpointCapacity) (origin : Option Text) : Delivery σ :=
  { session := (r.endpoints i).session
    name := row.name
    sendId := if row.sendId = [] then none else some row.sendId
    origin
    originType := origin.map fun _ => ['s', 'c', 'x', 'm', 'l']
    contentKind := row.contentKind
    bytes := if row.contentKind = .invalid then none else some row.text }

def drainClaim (count maxEvents : ℕ) (result : MailboxStatus) : Router cfg σ × DrainLane cfg σ :=
  let refused := { r.stale with deliveryErrors := r.deliveryErrors + 1 }
  if maxEvents ≤ count then (r, .leaving count result)
  else if r.closed then (r, .leaving count .closed)
  else
    match r.oldestReady with
    | none => (r, .leaving count result)
    | some j =>
      let row := r.rows j
      let claimed := r.setRow j { row with state := .inflight }
      match r.locate row.target with
      | none => (refused, .leaving count .invalidArgument)
      | some i =>
        if (r.endpoints i).active = false then (r, .leaving count .full)
        else if row.source.generation = 0 then
          (claimed, .delivering j (r.deliveryOf row i none) count maxEvents)
        else
          match r.locate row.source with
          | none => (refused, .leaving count .invalidArgument)
          | some k =>
            if (r.endpoints k).active = false then (r, .leaving count .full)
            else (claimed,
              .delivering j (r.deliveryOf row i (some (r.endpoints k).location)) count maxEvents)

/-- The section after the Session answered `status`. -/
def drainSettle (status : MailboxStatus) (j : Fin cfg.eventCapacity)
    (count maxEvents : ℕ) : Router cfg σ × DrainLane cfg σ :=
  if (r.rows j).state ≠ .inflight then (r.violated, .leaving count .invalidArgument)
  else if status = .ok then
    let r := r.releaseLocked j
    ({ r with delivered := r.delivered + 1 }, .scanning (count + 1) maxEvents .ok)
  else if r.closed then
    (releaseLocked { r with cancelled := r.cancelled + 1 } j, .leaving count .closed)
  else
    let r := r.setRow j { r.rows j with state := .ready }
    let r := if status ≠ .full then { r with deliveryErrors := r.deliveryErrors + 1 } else r
    (r, .leaving count status)

def drainFinish : Router cfg σ := { r with draining := false }

end TurboScxml.Router
