import TurboScxml.Ccxml.Program
import TurboScxml.Lib.EffectLog

/-!
# Dispatch of a CCXML session

The execution of a transition in `ccxml_session.c`.

* `Scopes`: the foreach scopes and the foreach frame of `ccxml_session_impl`;
* `Session.iterate`: one round of the loop of `execute_transition_actions`;
* `Session.finish`: `execute_transition_binding` behind the loop;
* `Session.commitPreparedTickets`, `Session.discardPreparedTickets`: the aggregate effect.

The log and the numbers of the tickets are no part of the source.
-/

namespace TurboScxml.Ccxml

open EffectLog

/-! ## Data -/

/-- `cflow_statechart_effect_ticket`, with its request. -/
structure Ticket where
  id : ℕ
  request : Request
  assignsId : Bool
  deriving DecidableEq

/-- `ccxml_foreach_frame`. -/
structure Frame where
  actionIndex : ℕ := 0
  iteration : ℕ := 0
  length : ℕ := 0
  snapshotOpen : Bool := false
  valueOpen : Bool := false
  live : Bool := false
  deriving DecidableEq

structure ConditionalFrame where
  blockEnd : ℕ
  branchTaken : Bool
  deriving DecidableEq

/-- The foreach part of `ccxml_session_impl`. -/
structure Scopes (σ : Type) where
  /-- `foreach_scope_committed`, `…_staged` and `…_checkpoint`. -/
  committed : σ
  staged : σ
  checkpoint : σ
  transactionPending : Bool
  checkpointLive : Bool
  frame : Frame
  deriving DecidableEq

/-- `ccxml_session_impl`. -/
structure Session (σ : Type) where
  /-- The entries of `tickets` below `prepared`. -/
  tickets : List Ticket
  preparedTicketCount : ℕ
  nextSendToken : ℕ
  scopes : Scopes σ
  nextTicket : ℕ
  log : List (Effect Ticket)
  deriving DecidableEq

/-- The locals of `execute_transition_actions`; the last frame first. -/
structure Loop where
  index : ℕ
  conditional : List ConditionalFrame
  deriving DecidableEq

inductive Round
  | next (loop : Loop)
  | exit
  | fail (status : Status)
  deriving DecidableEq

inductive Fate
  | failed | nothing | staged
  deriving DecidableEq

namespace Session

variable {σ : Type}

/-! ## Tickets -/

variable (s : Session σ)

def accept (ticket : Ticket) : Session σ :=
  { s with nextTicket := s.nextTicket + 1, log := s.log ++ [.accepted ticket] }

def drop (ticket : Ticket) : Session σ :=
  { s.accept ticket with log := (s.accept ticket).log ++ [.discarded ticket] }

def discardTickets : Session σ :=
  { s with tickets := [], log := s.log ++ s.tickets.reverse.map .discarded }

def retainTicket (capacity : ℕ) (s : Session σ) (request : Request) (assignsId : Bool)
    (reply : TicketReply) : Session σ × Status :=
  let ticket : Ticket := ⟨s.nextTicket, request, assignsId⟩
  if reply.status ≠ .accepted then (s.discardTickets, .adapterError)
  else if reply.commit = false ∨ reply.discard = false then
    (if reply.discard = true then (s.drop ticket).discardTickets else s.discardTickets,
      .invalidContract)
  else if capacity ≤ s.tickets.length then ((s.drop ticket).discardTickets, .limitExceeded)
  else ({ s.accept ticket with tickets := s.tickets ++ [ticket] }, .ok)

def swapLast : List Ticket → List Ticket
  | [] => []
  | [a] => [a]
  | [a, b] => [b, a]
  | a :: b :: c :: rest => a :: swapLast (b :: c :: rest)

def assignIdentifier (capacity : ℕ) (s : Session σ) (location : Text) (id : Except Status Text)
    (reply : TicketReply) : Session σ × Status :=
  match id with
  | .error status => (s.discardTickets, status)
  | .ok id =>
    let retained := s.retainTicket capacity (.assign location id) true reply
    if retained.2 ≠ .ok then retained
    else ({ retained.1 with tickets := swapLast retained.1.tickets }, .ok)

def perform (capacity : ℕ) (replies : Replies σ) (s : Session σ) : Plan → Session σ × Status
  | .single request => s.retainTicket capacity request false replies.provider
  | .paired request location id =>
    let retained := s.retainTicket capacity request false replies.provider
    if retained.2 ≠ .ok then retained
    else retained.1.assignIdentifier capacity location id replies.assign

def spendToken (action : ActionRow) : Session σ :=
  if action.kind = .send ∧ action.location.isSome = true then
    { s with nextSendToken := if s.nextSendToken = uint64Max then 0 else s.nextSendToken + 1 }
  else s

end Session

/-! ## The foreach scopes -/

namespace Scopes

variable {σ : Type} [EmptyCollection σ]

def commitForeachScope (s : Scopes σ) : Scopes σ :=
  if s.transactionPending = false then s
  else { s with committed := s.staged, staged := ∅, transactionPending := false }

def discardForeachScope (s : Scopes σ) : Scopes σ :=
  if s.transactionPending = false then s
  else
    { s with checkpoint := ∅, staged := ∅, checkpointLive := false, transactionPending := false }

omit [EmptyCollection σ] in
/-- The first half of `begin_foreach_block`. -/
def openTransaction (s : Scopes σ) (copied : Bool) : Option (Scopes σ) :=
  if s.transactionPending = true then some s
  else if copied = false then none
  else some { s with staged := s.committed, transactionPending := true }

/-- The second half of `begin_foreach_block`. -/
def takeCheckpoint (s : Scopes σ) (copied : Bool) : Scopes σ × Bool :=
  if copied = false then (s, false)
  else ({ s with checkpoint := s.staged, checkpointLive := true }, true)

def beginForeachBlock (s : Scopes σ) (replies : Replies σ) : Scopes σ × Bool :=
  if s.checkpointLive = true ∨ replies.scopesValid = false then (s, false)
  else
    match s.openTransaction replies.stagedCopied with
    | none => (s, false)
    | some s => s.takeCheckpoint replies.checkpointCopied

def settleForeachBlock (s : Scopes σ) (succeeded : Bool) : Scopes σ :=
  if s.checkpointLive = false then s
  else if succeeded = true then { s with checkpoint := ∅, checkpointLive := false }
  else { s with staged := s.checkpoint, checkpoint := ∅, checkpointLive := false }

def closeForeachFrame (program : Program) (s : Scopes σ) : Scopes σ :=
  if s.frame.live = false ∨ program.usesForeach = false ∨
      program.actionCount ≤ s.frame.actionIndex then s
  else { s with frame := {} }

end Scopes

def foreachExpressionStatus : ExprStatus → Status
  | .limitExceeded => .limitExceeded
  | .invalidArgument => .invalidContract
  | .unknownLocation => .invalidContract
  | .typeMismatch => .invalidContract
  | _ => .adapterError

def evaluateActionCondition {σ : Type} (replies : Replies σ) : Except Status Bool :=
  match replies.condition with
  | .accepted => .ok replies.conditionValue
  | .invalidContract => .error .invalidContract
  | _ => .error .adapterError

namespace Session

/-! ## The rounds of the loop -/

section Rounds

variable {σ : Type} [EmptyCollection σ] (program : Program) (transition : TransitionRow)
  (replies : Replies σ) (s : Session σ) (loop : Loop) (actionIndex : ℕ) (action : ActionRow)

def fail (s : Session σ) (status : Status) : Session σ × Round := (s.discardTickets, .fail status)

def failBlock (s : Session σ) (scopes : Scopes σ) (status : ExprStatus) : Session σ × Round :=
  ({ s with scopes := scopes.settleForeachBlock false } : Session σ).fail
    (foreachExpressionStatus status)

def advanceItem (scopes : Scopes σ) (index : ℕ) : Session σ × Round :=
  let moved := { scopes with staged := replies.foreachScope }
  if replies.foreachNext ≠ .ok then
    s.failBlock (moved.closeForeachFrame program) replies.foreachNext
  else ({ s with scopes := moved }, .next { loop with index := index })

def leaveBlock (scopes : Scopes σ) (index : ℕ) : Session σ × Round :=
  ({ s with scopes := (scopes.closeForeachFrame program).settleForeachBlock true },
    .next { loop with index := index })

/-- The rest of a `foreach` whose block has begun. -/
def openForeach (scopes : Scopes σ) : Session σ × Round :=
  if replies.foreachOpen ≠ .ok then s.failBlock scopes replies.foreachOpen
  -- the snapshot is destroyed again
  else if replies.foreachValue ≠ .ok then s.failBlock scopes replies.foreachValue
  else
    let opened := { scopes with
      frame := {
        scopes.frame with
        actionIndex := actionIndex
        length := replies.foreachLength
        snapshotOpen := true
        valueOpen := true
        live := true } }
    if replies.foreachLength = 0 then
      s.leaveBlock program loop opened (action.blockEnd - transition.firstAction)
    else s.advanceItem program replies loop opened (loop.index + 1)

def foreachRound : Session σ × Round :=
  if s.scopes.frame.live = true ∨ program.usesForeach = false ∨
      action.branchNext ≠ actionIndex + 1 ∨ action.blockEnd ≤ action.branchNext ∨
      transition.firstAction + transition.actionCount < action.blockEnd then
    s.fail .invalidContract
  else
    let begun := s.scopes.beginForeachBlock replies
    if begun.2 = false then ({ s with scopes := begun.1 } : Session σ).fail .invalidContract
    else s.openForeach program transition replies loop actionIndex action begun.1

def endforeachRound : Session σ × Round :=
  if s.scopes.frame.live = false ∨ action.branchNext ≠ s.scopes.frame.actionIndex ∨
      program.actionCount ≤ s.scopes.frame.actionIndex then s.fail .invalidContract
  else
    let opening := program.actions s.scopes.frame.actionIndex
    let counted := { s.scopes with
      frame := { s.scopes.frame with iteration := s.scopes.frame.iteration + 1 } }
    if counted.frame.iteration < counted.frame.length then
      s.advanceItem program replies loop counted (opening.branchNext - transition.firstAction)
    else s.leaveBlock program loop counted (loop.index + 1)

/-- The condition of an `if` or `elseif`. -/
def branch (blockEnd : ℕ) (rest : List ConditionalFrame) : Session σ × Round :=
  match evaluateActionCondition replies with
  | .error status => s.fail status
  | .ok value =>
    (s, .next {
      index := if value = true then loop.index + 1 else action.branchNext - transition.firstAction
      conditional := ⟨blockEnd, value⟩ :: rest })

def targetsWithin (transition : TransitionRow) (action : ActionRow) : Bool :=
  transition.firstAction ≤ action.branchNext &&
    action.branchNext < transition.firstAction + transition.actionCount &&
    action.branchNext ≤ action.blockEnd &&
    action.blockEnd < transition.firstAction + transition.actionCount

def ifRound : Session σ × Round :=
  if targetsWithin transition action = false then s.fail .invalidContract
  else if program.conditionalFrameCapacity ≤ loop.conditional.length then s.fail .limitExceeded
  else s.branch transition replies loop action action.blockEnd loop.conditional

def elseifRound : Session σ × Round :=
  if targetsWithin transition action = false then s.fail .invalidContract
  else
    match loop.conditional with
    | [] => s.fail .invalidContract
    | frame :: rest =>
      if frame.blockEnd ≠ action.blockEnd then s.fail .invalidContract
      else if frame.branchTaken = true then
        (s, .next ⟨action.blockEnd - transition.firstAction + 1, rest⟩)
      else s.branch transition replies loop action frame.blockEnd rest

def elseRound : Session σ × Round :=
  match loop.conditional with
  | [] => s.fail .invalidContract
  | frame :: rest =>
    if frame.blockEnd ≠ action.blockEnd ∨ action.branchNext ≠ action.blockEnd then
      s.fail .invalidContract
    else if frame.branchTaken = true then
      (s, .next ⟨action.blockEnd - transition.firstAction + 1, rest⟩)
    else (s, .next ⟨loop.index + 1, { frame with branchTaken := true } :: rest⟩)

def endifRound : Session σ × Round :=
  match loop.conditional with
  | [] => s.fail .invalidContract
  | frame :: rest =>
    if frame.blockEnd ≠ actionIndex then s.fail .invalidContract
    else (s, .next ⟨loop.index + 1, rest⟩)

def adapterRound (event : Event) : Session σ × Round :=
  match planOf program action event replies s.nextSendToken with
  | none => (s, .next { loop with index := loop.index + 1 })
  | some (.error status) => s.fail status
  | some (.ok plan) =>
    let performed := (s.spendToken action).perform program.ticketCapacity replies plan
    if performed.2 ≠ .ok then (performed.1, .fail performed.2)
    else (performed.1, .next { loop with index := loop.index + 1 })

/-- One round of the loop of `execute_transition_actions`. -/
def iterate (event : Event) : Session σ × Round :=
  let actionIndex := transition.firstAction + loop.index
  let action := program.actions actionIndex
  match action.kind with
  | .foreach => s.foreachRound program transition replies loop actionIndex action
  | .endforeach => s.endforeachRound program transition replies loop action
  | .if => s.ifRound program transition replies loop action
  | .elseif => s.elseifRound transition replies loop action
  | .else => s.elseRound transition loop action
  | .endif => s.endifRound loop actionIndex
  | .exit => (s, .exit)
  | _ => s.adapterRound program replies loop action event

def endActions : Session σ × Status :=
  if loop.conditional ≠ [] then (s.discardTickets, .invalidContract) else (s, .ok)

end Rounds

/-! ## The binding -/

section Binding

variable {σ : Type} [EmptyCollection σ] (program : Program) (replies : Replies σ) (s : Session σ)

def settleActions (status : Status) : Session σ :=
  if status ≠ .ok then
    { s with
      scopes :=
        ((s.scopes.closeForeachFrame program).settleForeachBlock false).discardForeachScope }
  else if s.scopes.frame.live = true then
    { s with scopes := (s.scopes.closeForeachFrame program).settleForeachBlock true }
  else s

def discardAll (s : Session σ) : Session σ :=
  { s.discardTickets with scopes := s.scopes.discardForeachScope }

def discardPreparedTickets : Session σ :=
  ({ s with
    preparedTicketCount := 0
    tickets := s.tickets.take s.preparedTicketCount } : Session σ).discardAll

def commitPreparedTickets : Session σ :=
  { s with
    preparedTicketCount := 0
    tickets := s.tickets.drop s.preparedTicketCount
    log := s.log ++ (s.tickets.take s.preparedTicketCount).map .committed
    scopes := s.scopes.commitForeachScope }

/-- The staging in `execute_transition_binding`. -/
def stage : Session σ × Status × Fate :=
  if s.tickets = [] ∧ s.scopes.transactionPending = false then (s, .ok, .nothing)
  else if s.preparedTicketCount ≠ 0 ∨ replies.stageAvailable = false then
    (s.discardAll, .invalidContract, .failed)
  else
    let prepared := { s with preparedTicketCount := s.tickets.length }
    if replies.stageAccepted = false then
      (prepared.discardPreparedTickets, .limitExceeded, .failed)
    else (prepared, .ok, .staged)

/-- The end of `execute_transition_binding`. -/
def finish (status : Status) : Session σ × Status × Fate :=
  let settled := s.settleActions program status
  if status ≠ .ok then (settled, status, .failed) else settled.stage replies

end Binding

end Session

end TurboScxml.Ccxml
