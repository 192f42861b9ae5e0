import TurboScxml.Session.Sends

/-!
# The invocations of a Session

`scxml_runtime.c`: a row for every `<invoke>` of the program and the pool of lifecycle effects. An
effect is staged when a state is entered or left, when an invocation is started, fails to start,
is done or is forwarded an event; it changes the row and the statistics when it is committed.

* tables: `InvocationRow`, `InvocationEffect`, `InvokeStats`, `InvocationTable`;
* `commitInvocationLifecycle`, `discardInvocationLifecycle`: the two ends of an effect;
* `startPending`, `forwardExternal`: one round of the loops over the invocations.
-/

namespace TurboScxml

open Function Slots

namespace Session

inductive InvocationState
  | inactive | pending | startReserved | failReserved | active | failed
  deriving DecidableEq

structure InvocationRow where
  token : ℕ
  id : Text
  ownsId : Bool
  state : InvocationState
  deriving DecidableEq

def InvocationRow.blank (state : InvocationState) : InvocationRow := ⟨0, [], false, state⟩

/-- `scxml_invocation_effect_kind`. -/
inductive InvocationEffectKind
  | unset | enter | exit | start | fail | complete | forward
  deriving DecidableEq

/-- `scxml_invocation_lifecycle_effect`. -/
structure InvocationEffect (n : ℕ) where
  adapterTicket : Option AdapterTicket
  token : ℕ
  invocation : Option (Fin n)
  kind : InvocationEffectKind
  inUse : Bool
  deriving DecidableEq

def InvocationEffect.free {n : ℕ} : InvocationEffect n := ⟨none, 0, none, .unset, false⟩

structure InvokeStats where
  started : ℕ
  startFailed : ℕ
  cancelled : ℕ
  cancelFailed : ℕ
  completed : ℕ
  returnedAccepted : ℕ
  returnedRejected : ℕ
  forwarded : ℕ
  forwardFailed : ℕ
  adapterErrorRejected : ℕ
  active : ℕ
  deriving DecidableEq

def InvokeStats.zero : InvokeStats := ⟨0, 0, 0, 0, 0, 0, 0, 0, 0, 0, 0⟩

def incrementU64 (value : ℕ) : ℕ := if value = uint64Max then value else value + 1

/-- The rows, the pool of lifecycle effects and the counters. -/
structure InvocationTable (cfg : Config) where
  rows : Fin cfg.invocationCount → InvocationRow
  effects : Fin (cfg.effectCapacity + 1) → InvocationEffect cfg.invocationCount
  nextToken : ℕ
  stats : InvokeStats

namespace InvocationTable

variable {cfg : Config}

def init (cfg : Config) : InvocationTable cfg where
  rows := fun _ => .blank .inactive
  effects := fun _ => .free
  nextToken := 1
  stats := .zero

variable (t : InvocationTable cfg)

/-- `acquire_invocation_effect_locked`. -/
def vacantEffect : Option (Fin (cfg.effectCapacity + 1)) :=
  Fin.find? fun e => !(t.effects e).inUse

variable (e : Fin (cfg.effectCapacity + 1))

def setEffect (effect : InvocationEffect cfg.invocationCount) : InvocationTable cfg :=
  { t with effects := update t.effects e effect }

def setRow (i : Fin cfg.invocationCount) (row : InvocationRow) : InvocationTable cfg :=
  { t with rows := update t.rows i row }

def setStats (stats : InvokeStats) : InvocationTable cfg :=
  { t with stats }

/-! ## The ends of an effect -/

inductive Ending
  | nothing
  | commit (ticket : AdapterTicket)
  | discard (ticket : AdapterTicket)
  | cancel (token : ℕ) (id : Text)
  deriving DecidableEq

/-- The change of the row, the counters and the ticket by a commit. -/
def committedRow (row : InvocationRow) (stats : InvokeStats)
    (effect : InvocationEffect cfg.invocationCount) :
    InvocationRow × InvokeStats × Bool × Option (ℕ × Text) :=
  match effect.kind with
  | .enter => (.blank .pending, stats, false, none)
  | .exit =>
    if row.state = .active then
      (.blank .inactive, { stats with active := stats.active - 1 }, false,
        if row.token = 0 then none else some (row.token, row.id))
    else (.blank .inactive, stats, false, none)
  | .start =>
    if row.state = .startReserved ∧ row.token = effect.token then
      ({ row with state := .active },
        { stats with started := incrementU64 stats.started, active := stats.active + 1 }, true, none)
    else (row, stats, false, none)
  | .fail =>
    if row.state = .failReserved ∧ row.token = effect.token then
      ({ row with state := .failed },
        { stats with startFailed := incrementU64 stats.startFailed }, false, none)
    else (row, stats, false, none)
  | .complete =>
    if row.state = .active ∧ row.token = effect.token then
      (.blank .inactive,
        { stats with active := stats.active - 1, completed := incrementU64 stats.completed },
        false, none)
    else (row, stats, false, none)
  | .forward =>
    (row, { stats with forwarded := incrementU64 stats.forwarded }, true, none)
  | .unset => (row, stats, false, none)

/-- The adapter in `commit_invocation_lifecycle`. -/
def commitEnding (effect : InvocationEffect cfg.invocationCount) (committed : Bool)
    (cancelled : Option (ℕ × Text)) : Ending :=
  match effect.adapterTicket, cancelled with
  | some ticket, _ =>
    if committed then .commit ticket
    else if effect.kind = .start then .discard ticket
    else .nothing
  | none, some (token, id) => .cancel token id
  | none, none => .nothing

def commitLocked : InvocationTable cfg × Ending :=
  let effect := t.effects e
  if !effect.inUse then (t, .nothing)
  else
    match effect.invocation with
    | none => (t, .nothing)
    | some i =>
      let (row, stats, committed, cancelled) := committedRow (t.rows i) t.stats effect
      (((t.setRow i row).setStats stats).setEffect e { effect with inUse := false },
        commitEnding effect committed cancelled)

/-- The end of `commit_invocation_lifecycle`. -/
def cancelInvocation (answer : Answer) (errorAdmitted : Bool) : InvocationTable cfg :=
  if answer.accepts then
    t.setStats { t.stats with cancelled := incrementU64 t.stats.cancelled }
  else
    let stats := { t.stats with cancelFailed := incrementU64 t.stats.cancelFailed }
    t.setStats (if errorAdmitted then stats
      else { stats with adapterErrorRejected := incrementU64 stats.adapterErrorRejected })

def reservedState : InvocationEffectKind → Option InvocationState
  | .start => some .startReserved
  | .fail => some .failReserved
  | _ => none

def discardInvocationLifecycle : InvocationTable cfg × Option AdapterTicket :=
  let effect := t.effects e
  if !effect.inUse then (t, none)
  else
    let released := t.setEffect e { effect with inUse := false }
    match effect.invocation, reservedState effect.kind with
    | some i, some reserved =>
      (if (t.rows i).state = reserved ∧ (t.rows i).token = effect.token then
          released.setRow i (.blank .pending)
        else released,
        if effect.kind = .start then effect.adapterTicket else none)
    | _, _ => (released, if effect.kind = .forward then effect.adapterTicket else none)

/-! ## Staging -/

def lifecycle (kind : InvocationEffectKind) (i : Fin cfg.invocationCount) (token : ℕ)
    (ticket : Option AdapterTicket) : InvocationEffect cfg.invocationCount :=
  ⟨ticket, token, some i, kind, true⟩

/-- `acquire_invocation_effect_locked`. -/
def acquire (effect : InvocationEffect cfg.invocationCount) :
    Option (InvocationTable cfg × Fin (cfg.effectCapacity + 1)) :=
  t.vacantEffect.map fun e => (t.setEffect e effect, e)

/-- `execute_invocation_lifecycle` up to `stage_effect`. -/
def executeInvocationLifecycle (entering : Bool)
    (i : Fin cfg.invocationCount) : Option (InvocationTable cfg × Fin (cfg.effectCapacity + 1)) :=
  t.acquire (lifecycle (if entering then .enter else .exit) i 0 none)

variable (i : Fin cfg.invocationCount) (token : ℕ)

def stageInvocationCompletion : Option (InvocationTable cfg × Fin (cfg.effectCapacity + 1)) :=
  if token = 0 then none else t.acquire (lifecycle .complete i token none)

def stageInvocationForward
    (ticket : AdapterTicket) : Option (InvocationTable cfg × Fin (cfg.effectCapacity + 1)) :=
  t.acquire (lifecycle .forward i 0 (some ticket))

/-- `stage_invocation_result` up to `stage_effect`. -/
def stageInvocationResult (id : Text) (ownId : Bool) (ticket : Option AdapterTicket) :
    Option (InvocationTable cfg × Fin (cfg.effectCapacity + 1)) :=
  if token = 0 ∨ (ownId ∧ eventMetadataCapacity < id.length) ∨ (t.rows i).state ≠ .pending then none
  else
    (t.setRow i ⟨token, id, ownId,
        if ticket.isSome then .startReserved else .failReserved⟩).acquire
      (lifecycle (if ticket.isSome then .start else .fail) i token ticket)

/-! ## Starting -/

def takeToken : Option (InvocationTable cfg × ℕ) :=
  if t.nextToken = 0 then none
  else
    some ({ t with nextToken := if t.nextToken = uint64Max then 0 else t.nextToken + 1 },
      t.nextToken)

/-- `restore_invocation_id_location`. -/
inductive IdLocation
  | stored | restored | lost
  deriving DecidableEq

structure StartAnswers where
  ownerActive : Bool
  location : IdLocation
  evaluated : Bool
  adapter : Answer
  deriving DecidableEq

def startId (d : InvocationDescriptor) (token : ℕ) : Option Text :=
  if d.hasIdLocation then
    let id := d.id.take d.ownerIdSize ++ '.' :: Nat.toDigits 10 token
    if eventMetadataCapacity < id.length ∨ d.dynamicIdMaxSize < id.length then none else some id
  else some d.id

inductive StartVerdict
  | fatal
  | fail (id : Text) (ownId : Bool)
  | start (id : Text) (ownId : Bool)
  deriving DecidableEq

/-- The loop up to `stage_invocation_result`. -/
def startVerdict (d : InvocationDescriptor) (token : ℕ) (answers : StartAnswers) : StartVerdict :=
  match startId d token with
  | none => .fatal
  | some id =>
    if d.hasIdLocation ∧ answers.location = .lost then .fatal
    else if d.hasIdLocation ∧ answers.location = .restored then .fail [] true
    else if !answers.evaluated then .fail id d.hasIdLocation
    else if answers.adapter.accepts then .start id d.hasIdLocation
    else if answers.adapter.violates then .fatal
    else .fail id d.hasIdLocation

/-! ## Returned events -/

def findActive : Option (Fin cfg.invocationCount) :=
  Fin.find? fun i => (t.rows i).state == .active && (t.rows i).token == token

def rejectReturned : InvocationTable cfg :=
  t.setStats { t.stats with returnedRejected := incrementU64 t.stats.returnedRejected }

def settleReturned (status : MailboxStatus) : InvocationTable cfg × MailboxStatus :=
  if status = .ok then
    (t.setStats { t.stats with returnedAccepted := incrementU64 t.stats.returnedAccepted }, .ok)
  else (t.rejectReturned, status)

/-- `scxml_session_report_invoke_event`. -/
def reportInvokeEvent (status : MailboxStatus) : InvocationTable cfg × MailboxStatus :=
  if token = 0 then (t, .invalidArgument)
  else
    match t.findActive token with
    | none => (t.rejectReturned, .invalidArgument)
    | some _ => t.settleReturned status

/-- `scxml_session_report_invoke_done`. -/
def reportInvokeDone (status : MailboxStatus) : InvocationTable cfg × MailboxStatus :=
  if token = 0 then (t, .invalidArgument)
  else
    match t.findActive token with
    | none => (t.rejectReturned, .invalidArgument)
    | some i =>
      if (cfg.invocations i).doneEvent = 0 then (t.rejectReturned, .invalidArgument)
      else t.settleReturned status

end InvocationTable

end Session

end TurboScxml
