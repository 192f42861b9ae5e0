import TurboScxml.Basic
import TurboScxml.Lib.Table
import Mathlib.Logic.Function.Basic

/-!
# The delayed sends of a Session

`scxml_runtime.c`: the registry of delayed sends and the pool of prepared Event I/O effects. A
`<send>` or `<cancel>` takes a prepared effect, and a registry row if it is delayed, then asks the
Event I/O adapter for a ticket; the effect is staged and later committed or discarded.

* tables: `DelayedSend`, `PreparedEffect`, `SendTable`;
* `executeSendReserve`, `executeCancelReserve`: the part before the adapter is asked;
* `reportSendDone`: the host reports that a delayed send is over.
-/

namespace TurboScxml

open Function Slots

namespace Session

/-- `scxml_invocation_descriptor`. -/
structure InvocationDescriptor where
  id : Text
  ownerIdSize : ℕ
  dynamicIdMaxSize : ℕ
  doneEvent : ℕ
  autoforward : Bool
  hasIdLocation : Bool

/-- The capacities of a `scxml_session_config`. -/
structure Config where
  delayedSendCapacity : ℕ
  effectCapacity : ℕ
  invocationCount : ℕ
  invocations : Fin invocationCount → InvocationDescriptor

abbrev AdapterTicket := ℕ

/-- `scxml_adapter_status`. -/
inductive AdapterStatus
  | accepted | errorExecution | errorCommunication | full | closed | invalidContract
  deriving DecidableEq

/-- The answer of an adapter to a `prepare_*` call. -/
structure Answer where
  status : AdapterStatus
  /-- Both functions of the returned ticket are given. -/
  ticketValid : Bool
  deriving DecidableEq

def Answer.accepts (a : Answer) : Bool := a.status == .accepted && a.ticketValid

def Answer.violates (a : Answer) : Bool :=
  a.status == .invalidContract || (a.status == .accepted && !a.ticketValid)

inductive AdapterErrorKind
  | execution | communication
  deriving DecidableEq

inductive DelayedState
  | free | reserved | active | cancelReserved
  deriving DecidableEq

structure DelayedSend where
  id : Text
  state : DelayedState
  previousState : DelayedState
  deriving DecidableEq

def DelayedSend.free : DelayedSend := ⟨[], .free, .free⟩

/-- `scxml_prepared_kind`. -/
inductive PreparedKind
  | unset | send | delayedSend | cancel
  deriving DecidableEq

/-- `scxml_prepared_effect`. -/
structure PreparedEffect (n : ℕ) where
  adapterTicket : Option AdapterTicket
  registryIndex : Option (Fin n)
  kind : PreparedKind
  inUse : Bool
  deriving DecidableEq

def PreparedEffect.free {n : ℕ} : PreparedEffect n := ⟨none, none, .unset, false⟩

/-- The registry of delayed sends and the prepared effects. -/
structure SendTable (cfg : Config) where
  delayedSends : Fin cfg.delayedSendCapacity → DelayedSend
  preparedEffects : Fin cfg.effectCapacity → PreparedEffect cfg.delayedSendCapacity

/-- What `execute_send` reads of a request. -/
structure SendRequest where
  id : Text
  delayMs : ℕ
  copyGeneratedId : Bool
  deriving DecidableEq

/-! ## Rows -/

/-- `same_send_id`. -/
def DelayedSend.sameSendId (row : DelayedSend) (id : Text) : Bool :=
  row.state != .free && row.id == id

/-- The row after `rollback_prepared_effect_locked`. -/
def DelayedSend.rolledBack (row : DelayedSend) : PreparedKind → DelayedSend
  | .delayedSend =>
    if row.state = .reserved then .free
    else if row.state = .cancelReserved ∧ row.previousState = .reserved then
      { row with previousState := .free }
    else row
  | .cancel =>
    if row.state = .cancelReserved then
      if row.previousState = .free then .free
      else { row with state := row.previousState, previousState := .free }
    else row
  | _ => row

/-- The row after `commit_prepared_effect`. -/
def DelayedSend.committed (row : DelayedSend) : PreparedKind → DelayedSend
  | .delayedSend =>
    if row.state = .reserved then { row with state := .active }
    else if row.state = .cancelReserved ∧ row.previousState = .reserved then
      { row with previousState := .active }
    else row
  | .cancel => if row.state = .cancelReserved then .free else row
  | _ => row

namespace SendTable

variable {cfg : Config}

def init (cfg : Config) : SendTable cfg where
  delayedSends := fun _ => .free
  preparedEffects := fun _ => .free

variable (t : SendTable cfg)

/-- `acquire_prepared_effect_locked`. -/
def vacantEffect : Option (Fin cfg.effectCapacity) :=
  Fin.find? fun e => !(t.preparedEffects e).inUse

def findDelayedSendLocked (id : Text) : Option (Fin cfg.delayedSendCapacity) :=
  Fin.find? fun k => (t.delayedSends k).sameSendId id

/-- `reserve_delayed_send_locked`. -/
def reserveDelayedSendLocked (id : Text) (copyGeneratedId : Bool) :
    Except Bool (Fin cfg.delayedSendCapacity) :=
  match t.findDelayedSendLocked id with
  | some _ => .error true
  | none =>
    match Fin.find? fun k => (t.delayedSends k).state == .free with
    | none => .error false
    | some k =>
      if id = [] ∨ (copyGeneratedId ∧ eventMetadataCapacity < id.length) then .error false
      else .ok k

def prepared (kind : PreparedKind) (registryIndex : Option (Fin cfg.delayedSendCapacity)) :
    PreparedEffect cfg.delayedSendCapacity :=
  ⟨none, registryIndex, kind, true⟩

def setEffect (e : Fin cfg.effectCapacity)
    (effect : PreparedEffect cfg.delayedSendCapacity) : SendTable cfg :=
  { t with preparedEffects := update t.preparedEffects e effect }

def setRow (k : Fin cfg.delayedSendCapacity) (row : DelayedSend) : SendTable cfg :=
  { t with delayedSends := update t.delayedSends k row }

/-! ## Before the adapter is asked -/

/-- `execute_send` up to `prepare_send`. -/
def executeSendReserve (request : SendRequest) :
    Except AdapterErrorKind (SendTable cfg × Fin cfg.effectCapacity) :=
  match t.vacantEffect with
  | none => .error .communication
  | some e =>
    if request.delayMs = 0 then .ok (t.setEffect e (prepared .send none), e)
    else
      match t.reserveDelayedSendLocked request.id request.copyGeneratedId with
      | .error true => .error .execution
      | .error false => .error .communication
      | .ok k =>
        .ok ((t.setRow k ⟨request.id, .reserved, .free⟩).setEffect e
          (prepared .delayedSend (some k)), e)

/-- `execute_cancel` up to `prepare_cancel`. -/
def executeCancelReserve (sendId : Text) :
    Except AdapterErrorKind (Option (SendTable cfg × Fin cfg.effectCapacity)) :=
  match t.findDelayedSendLocked sendId with
  | none => .ok none
  | some k =>
    match t.vacantEffect with
    | none => .error .communication
    | some e =>
      let row := t.delayedSends k
      .ok (some ((t.setRow k { row with state := .cancelReserved, previousState := row.state })
        |>.setEffect e (prepared .cancel (some k)), e))

variable (e : Fin cfg.effectCapacity)

def storeTicket (ticket : AdapterTicket) : SendTable cfg :=
  t.setEffect e { t.preparedEffects e with adapterTicket := some ticket }

/-! ## The ends of an effect -/

def changeRow (f : DelayedSend → PreparedKind → DelayedSend)
    (effect : PreparedEffect cfg.delayedSendCapacity) : SendTable cfg :=
  match effect.registryIndex with
  | none => t
  | some k => t.setRow k (f (t.delayedSends k) effect.kind)

def settleEffect (f : DelayedSend → PreparedKind → DelayedSend)
    (e : Fin cfg.effectCapacity) : SendTable cfg :=
  (t.changeRow f (t.preparedEffects e)).setEffect e { t.preparedEffects e with inUse := false }

def rollbackPreparedEffectLocked : SendTable cfg :=
  t.settleEffect DelayedSend.rolledBack e

def commitPreparedEffect : SendTable cfg × Option AdapterTicket :=
  if (t.preparedEffects e).inUse then
    (t.settleEffect DelayedSend.committed e, (t.preparedEffects e).adapterTicket)
  else (t, none)

def discardPreparedEffect : SendTable cfg × Option AdapterTicket :=
  if (t.preparedEffects e).inUse then
    (t.rollbackPreparedEffectLocked e, (t.preparedEffects e).adapterTicket)
  else (t, none)

/-- `scxml_session_report_send_done`. -/
def reportSendDone (id : Text) : SendTable cfg × Bool :=
  if id = [] then (t, false)
  else
    match t.findDelayedSendLocked id with
    | none => (t, false)
    | some k =>
      let row := t.delayedSends k
      if row.state = .active then (t.setRow k .free, true)
      else if row.state = .cancelReserved ∧ row.previousState = .active then
        (t.setRow k { row with previousState := .free }, true)
      else (t, false)

end SendTable

end Session

end TurboScxml
