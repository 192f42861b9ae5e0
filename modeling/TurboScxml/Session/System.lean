import TurboScxml.Lib.Machine
import TurboScxml.Session.Invocations

/-!
# The transactions of a Session

A transaction runs blocks, starts pending invocations and forwards events; the effects it stages
are committed in order if it succeeds and discarded, in any order, if it fails. One action is one
locked section of the Session thread or of a host thread; the answers of the adapters, of CFlow and
of the evaluated expressions are arbitrary.

* `Lane`: where the Session thread is; `Staged`: an effect handed to CFlow;
* `System`, `Action`, `step`: the transition system.
-/

namespace TurboScxml.Session

open Function Machine

/-- Tokens from here on name event metadata. -/
def externalMetadataTokenBit : ℕ := 2 ^ 63

/-- How an adapter ticket or a transaction ends. -/
inductive Settlement
  | committed | discarded
  deriving DecidableEq

inductive SendOp
  | send (id : Text) (delayed : Bool)
  | cancel (id : Text)
  deriving DecidableEq

inductive Staged (cfg : Config)
  | prepared (e : Fin cfg.effectCapacity) (op : SendOp)
  | lifecycle (e : Fin (cfg.effectCapacity + 1)) (effect : InvocationEffect cfg.invocationCount)
  | eventMetadata
  deriving DecidableEq

inductive SendEvent
  /-- A cancel found its send and asks the adapter. -/
  | cancelAsked (id : Text)
  | cancelStaged (id : Text)
  | committed (op : SendOp)
  | done (id : Text)
  deriving DecidableEq

inductive Lane (cfg : Config)
  /-- No transaction. -/
  | idle
  | running
  | finalizing (source : Fin cfg.invocationCount) (token : ℕ) (done : Bool)
  /-- The loop of `forward_external_to_invocations`. -/
  | forwarding (index : ℕ) (skipped : Option (Fin cfg.invocationCount))
  | starting (index : ℕ)
  | committing
  | discarding
  deriving DecidableEq

structure System (cfg : Config) where
  sends : SendTable cfg
  invocations : InvocationTable cfg
  lane : Lane cfg
  asked : Option (Fin cfg.effectCapacity × SendOp)
  staged : List (Staged cfg)
  nextTicket : AdapterTicket
  settled : List (AdapterTicket × Settlement)
  entry : Fin cfg.delayedSendCapacity → DelayedSend
  history : List SendEvent
  outcome : Settlement
  present : Fin cfg.invocationCount → Bool
  entered : Fin cfg.invocationCount → Bool
  exited : Fin cfg.invocationCount → Bool
  completed : List ℕ

inductive Action (cfg : Config)
  | begin
  | send (request : SendRequest) (raised : Bool)
  | cancel (sendId : Text) (raised : Bool)
  | answer (answer : Answer) (staged raised : Bool)
  | raise (staged : Bool)
  | enter (i : Fin cfg.invocationCount) (staged : Bool)
  | exit (i : Fin cfg.invocationCount) (staged : Bool)
  | preprocess (token event : ℕ)
  | finalized (staged : Bool)
  | forwardNext (answer : Answer) (staged raised : Bool)
  | startPending
  | startNext (answers : InvocationTable.StartAnswers) (staged raised : Bool)
  | succeed
  | fail
  | commitNext (answer : Answer) (admitted : Bool)
  | discardAt (index : ℕ)
  | finish
  | reportSendDone (id : Text)
  | reportInvokeEvent (token : ℕ) (status : MailboxStatus)
  | reportInvokeDone (token : ℕ) (status : MailboxStatus)

variable {cfg : Config}

def Lane.runsBlocks : Lane cfg → Bool
  | .running | .finalizing .. => true
  | _ => false

def Lane.aborted : Lane cfg → Lane cfg
  | .finalizing .. => .discarding
  | lane => lane

namespace System

def init (cfg : Config) : System cfg where
  sends := .init cfg
  invocations := .init cfg
  lane := .idle
  asked := none
  staged := []
  nextTicket := 0
  settled := []
  entry := fun _ => .free
  history := []
  outcome := .committed
  present := fun _ => false
  entered := fun _ => false
  exited := fun _ => false
  completed := []

/-! ## Blocks -/

variable (s : System cfg)

def raiseError (raised : Bool) : System cfg :=
  { s with lane := if raised then s.lane.aborted else .discarding }

/-- `execute_send` up to the adapter. -/
def send (request : SendRequest) (raised : Bool) : System cfg :=
  match s.sends.executeSendReserve request with
  | .error _ => s.raiseError raised
  | .ok (t, e) => { s with
      sends := t
      asked := some (e, .send request.id (request.delayMs != 0)) }

/-- `execute_cancel` up to the adapter. -/
def cancel (sendId : Text) (raised : Bool) : System cfg :=
  match s.sends.executeCancelReserve sendId with
  | .error _ => s.raiseError raised
  | .ok none => s
  | .ok (some (t, e)) => { s with
      sends := t
      asked := some (e, .cancel sendId)
      history := s.history ++ [.cancelAsked sendId] }

def stagedEvent : SendOp → List SendEvent
  | .send .. => []
  | .cancel id => [.cancelStaged id]

/-- The row that `send_failure_outcome` stages. -/
def failureMetadata : SendOp → List (Staged cfg)
  | .send [] _ => []
  | .send .. => [.eventMetadata]
  | .cancel _ => []

/-- The end of `execute_send` and `execute_cancel`. -/
def answerAsked (e : Fin cfg.effectCapacity) (op : SendOp) (answer : Answer)
    (staged raised : Bool) : System cfg :=
  if answer.accepts then
    let stored := s.sends.storeTicket e s.nextTicket
    if staged then { s with
      sends := stored
      asked := none
      staged := s.staged ++ [.prepared e op]
      nextTicket := s.nextTicket + 1
      history := s.history ++ stagedEvent op }
    else { s with
      sends := (stored.discardPreparedEffect e).1
      asked := none
      lane := .discarding
      nextTicket := s.nextTicket + 1
      settled := s.settled ++ [(s.nextTicket, .discarded)] }
  else if answer.violates then { s with
    sends := s.sends.rollbackPreparedEffectLocked e
    asked := none
    lane := .discarding }
  else { s with
    sends := s.sends.rollbackPreparedEffectLocked e
    asked := none
    staged := if raised then s.staged ++ failureMetadata op else s.staged
    lane := if raised then s.lane.aborted else .discarding }

/-! ## Invocations -/

def settlement (ticket : Option AdapterTicket) (how : Settlement) :
    List (AdapterTicket × Settlement) :=
  ticket.toList.map fun ticket => (ticket, how)

/-- An effect is handed to CFlow, or discarded. -/
def stageLifecycle (acquired : Option (InvocationTable cfg × Fin (cfg.effectCapacity + 1)))
    (ticket : Option AdapterTicket) (staged : Bool) (lane : Lane cfg) : System cfg :=
  match acquired with
  | none => { s with
      lane := .discarding
      settled := s.settled ++ settlement ticket .discarded }
  | some (t, e) =>
    if staged then { s with
      invocations := t
      staged := s.staged ++ [.lifecycle e (t.effects e)]
      lane }
    else { s with
      invocations := (t.discardInvocationLifecycle e).1
      lane := .discarding
      settled := s.settled ++ settlement (t.discardInvocationLifecycle e).2 .discarded }

/-- After `enqueue_invocation_adapter_error` fails. -/
def errorRejected (t : InvocationTable cfg) : InvocationTable cfg :=
  t.setStats { t.stats with adapterErrorRejected := incrementU64 t.stats.adapterErrorRejected }

/-- `enqueue_invocation_adapter_error`. -/
def enqueueError (raised : Bool) : System cfg :=
  if raised ∨ s.lane = .discarding then s
  else { s with invocations := errorRejected s.invocations, lane := .discarding }

/-- The start of `preprocess_invocation_external`. -/
def preprocess (token event : ℕ) : System cfg :=
  if token = 0 ∨ externalMetadataTokenBit ≤ token then { s with lane := .forwarding 0 none }
  else
    match s.invocations.findActive token with
    | none => { s with invocations := s.invocations.rejectReturned, lane := .discarding }
    | some i => { s with lane := .finalizing i token (event == (cfg.invocations i).doneEvent) }

def finalized (source : Fin cfg.invocationCount) (token : ℕ) (done staged : Bool) : System cfg :=
  if done then
    s.stageLifecycle (s.invocations.stageInvocationCompletion source token) none staged
      (.forwarding 0 (some source))
  else { s with lane := .forwarding 0 none }

/-- A round of `forward_external_to_invocations`. -/
def forwardNext (i : Fin cfg.invocationCount)
    (skipped : Option (Fin cfg.invocationCount)) (answer : Answer) (staged raised : Bool) :
    System cfg :=
  let next := Lane.forwarding (i + 1) skipped
  if !(cfg.invocations i).autoforward ∨ skipped = some i ∨
      (s.invocations.rows i).state ≠ .active ∨ (s.invocations.rows i).token = 0 then
    { s with lane := next }
  else if answer.accepts then
    { s with nextTicket := s.nextTicket + 1 }.stageLifecycle
      (s.invocations.stageInvocationForward i s.nextTicket) (some s.nextTicket) staged next
  else
    let t := s.invocations.setStats
      { s.invocations.stats with forwardFailed := incrementU64 s.invocations.stats.forwardFailed }
    if answer.violates then { s with invocations := t, lane := .discarding }
    else { s with invocations := t, lane := next }.enqueueError raised

/-- A round of `scxml_runtime_start_pending_invocations`. -/
def startNext (i : Fin cfg.invocationCount)
    (answers : InvocationTable.StartAnswers) (staged raised : Bool) : System cfg :=
  let next := Lane.starting (i + 1)
  if (s.invocations.rows i).state ≠ .pending ∨ !answers.ownerActive then { s with lane := next }
  else
    match s.invocations.takeToken with
    | none => { s with lane := .discarding }
    | some (t, token) =>
      match InvocationTable.startVerdict (cfg.invocations i) token answers with
      | .fatal => { s with invocations := t, lane := .discarding }
      | .fail id ownId =>
        ({ s with invocations := t }.stageLifecycle
          (t.stageInvocationResult i token id ownId none) none staged next).enqueueError raised
      | .start id ownId =>
        { s with invocations := t, nextTicket := s.nextTicket + 1 }.stageLifecycle
          (t.stageInvocationResult i token id ownId (some s.nextTicket)) (some s.nextTicket)
          staged next

/-! ## The ends of a transaction -/

def presentAfter (present : Fin cfg.invocationCount → Bool)
    (effect : InvocationEffect cfg.invocationCount) : Fin cfg.invocationCount → Bool :=
  match effect.kind, effect.invocation with
  | .enter, some i => update present i true
  | .exit, some i => update present i false
  | _, _ => present

def exitedAfter (exited : Fin cfg.invocationCount → Bool)
    (effect : InvocationEffect cfg.invocationCount) : Fin cfg.invocationCount → Bool :=
  match effect.kind, effect.invocation with
  | .exit, some i => update exited i true
  | _, _ => exited

def completedBy (t : InvocationTable cfg) (effect : InvocationEffect cfg.invocationCount) :
    List ℕ :=
  match effect.kind, effect.invocation with
  | .complete, some i =>
    if (t.rows i).state = .active ∧ (t.rows i).token = effect.token then [effect.token] else []
  | _, _ => []

/-- The adapter's part of `commit_invocation_lifecycle`. -/
def endCommit (ending : InvocationTable.Ending) (answer : Answer) (admitted : Bool) : System cfg :=
  match ending with
  | .nothing => s
  | .commit ticket => { s with settled := s.settled ++ [(ticket, .committed)] }
  | .discard ticket => { s with settled := s.settled ++ [(ticket, .discarded)] }
  | .cancel _ _ =>
    let t := s.invocations.cancelInvocation answer admitted
    if answer.accepts then { s with
      invocations := t
      nextTicket := s.nextTicket + 1
      settled := s.settled ++ [(s.nextTicket, .committed)] }
    else { s with invocations := t }

def commitStaged (x : Staged cfg) (answer : Answer) (admitted : Bool) : System cfg :=
  match x with
  | .prepared e op => { s with
      sends := (s.sends.commitPreparedEffect e).1
      settled := s.settled ++ settlement (s.sends.commitPreparedEffect e).2 .committed
      history := s.history ++ [.committed op] }
  | .lifecycle e effect =>
    { s with
      invocations := (s.invocations.commitLocked e).1
      present := presentAfter s.present effect
      exited := exitedAfter s.exited effect
      completed := s.completed ++ completedBy s.invocations effect }.endCommit
        (s.invocations.commitLocked e).2 answer admitted
  | .eventMetadata => s

def discardStaged (x : Staged cfg) : System cfg :=
  match x with
  | .prepared e _ => { s with
      sends := (s.sends.discardPreparedEffect e).1
      settled := s.settled ++ settlement (s.sends.discardPreparedEffect e).2 .discarded }
  | .lifecycle e _ => { s with
      invocations := (s.invocations.discardInvocationLifecycle e).1
      settled := s.settled ++ settlement (s.invocations.discardInvocationLifecycle e).2 .discarded }
  | .eventMetadata => s

def reportSendDone (id : Text) : System cfg :=
  { s with
    sends := (s.sends.reportSendDone id).1
    history := if (s.sends.reportSendDone id).2 then s.history ++ [.done id] else s.history }

/-- **One step.** -/
def step : Action cfg → Option (System cfg)
  | .begin =>
    if s.lane = .idle then
      some { s with
        lane := .running
        entry := s.sends.delayedSends
        history := []
        exited := fun _ => false }
    else none
  | .send request raised =>
    if s.lane.runsBlocks ∧ s.asked = none then some (s.send request raised) else none
  | .cancel sendId raised =>
    if s.lane.runsBlocks ∧ s.asked = none then some (s.cancel sendId raised) else none
  | .answer answer staged raised =>
    match s.asked with
    | some (e, op) => some (s.answerAsked e op answer staged raised)
    | none => none
  | .raise staged =>
    if s.lane.runsBlocks ∧ s.asked = none then
      some (if staged then { s with staged := s.staged ++ [.eventMetadata] }
        else { s with lane := .discarding })
    else none
  | .enter i staged =>
    -- A state is entered again only after it was exited.
    if s.lane.runsBlocks ∧ s.asked = none ∧ s.entered i = false then
      some ({ s with entered := update s.entered i true }.stageLifecycle
        (s.invocations.executeInvocationLifecycle true i) none staged s.lane)
    else none
  | .exit i staged =>
    if s.lane.runsBlocks ∧ s.asked = none then
      some ({ s with entered := update s.entered i false }.stageLifecycle
        (s.invocations.executeInvocationLifecycle false i) none staged s.lane)
    else none
  | .preprocess token event =>
    if s.lane = .running ∧ s.asked = none then some (s.preprocess token event) else none
  | .finalized staged =>
    match s.lane with
    | .finalizing source token done =>
      if s.asked = none then some (s.finalized source token done staged) else none
    | _ => none
  | .forwardNext answer staged raised =>
    match s.lane with
    | .forwarding index skipped =>
      if h : index < cfg.invocationCount then
        some (s.forwardNext ⟨index, h⟩ skipped answer staged raised)
      else some { s with lane := .running }
    | _ => none
  | .startPending =>
    if s.lane = .running ∧ s.asked = none then some { s with lane := .starting 0 } else none
  | .startNext answers staged raised =>
    match s.lane with
    | .starting index =>
      if h : index < cfg.invocationCount then
        some (s.startNext ⟨index, h⟩ answers staged raised)
      else some { s with lane := .running }
    | _ => none
  | .succeed =>
    if s.lane = .running ∧ s.asked = none then some { s with lane := .committing } else none
  | .fail =>
    if s.lane ≠ .idle ∧ s.lane ≠ .committing ∧ s.asked = none then
      some { s with lane := .discarding }
    else none
  | .commitNext answer admitted =>
    match s.lane, s.staged with
    | .committing, x :: rest => some ({ s with staged := rest }.commitStaged x answer admitted)
    | _, _ => none
  | .discardAt index =>
    match s.lane, s.staged[index]? with
    | .discarding, some x => some ({ s with staged := s.staged.eraseIdx index }.discardStaged x)
    | _, _ => none
  | .finish =>
    if s.staged = [] then
      match s.lane with
      | .committing => some { s with lane := .idle, outcome := .committed }
      | .discarding => some { s with lane := .idle, outcome := .discarded, entered := s.present }
      | _ => none
    else none
  | .reportSendDone id => some (s.reportSendDone id)
  | .reportInvokeEvent token status =>
    some { s with invocations := (s.invocations.reportInvokeEvent token status).1 }
  | .reportInvokeDone token status =>
    some { s with invocations := (s.invocations.reportInvokeDone token status).1 }

def Initial : Prop := s = init cfg

abbrev Reachable : Prop :=
  Machine.Reachable (step : System cfg → Action cfg → Option (System cfg)) Initial s

end System

def smallConfig : Config where
  delayedSendCapacity := 1
  effectCapacity := 2
  invocationCount := 1
  invocations := fun _ =>
    { id := ['i'], ownerIdSize := 0, dynamicIdMaxSize := 0, doneEvent := 1, autoforward := true,
      hasIdLocation := false }

def acceptedAnswer : Answer := ⟨.accepted, true⟩

end TurboScxml.Session
