import TurboScxml.Voice.Content

/-!
# Dispatch of scoped events

An event is looked up in the scopes of the active item, the form and the document, and the handler
that is found runs in a transaction of its own.

* `HandlerRow`, `Program`, `Active`, `Limits`: the compiled handlers, the active items, the bounds;
* `eventPrefixMatch`, `eventCounterNext`, `eventScopeOwner`, `selectEventHandler`: one lookup;
* `executeEventHandler`: the transaction of a handler;
* `dispatchLoop`, `dispatchEventImpl`: lookups chained by throw, rethrow and failing scripts.
-/

namespace TurboScxml.Voice.Events

open Content

def uintMax : ℕ := 0xFFFFFFFF

section

variable (σ X G S : Type)

/-- `vxml_cmeta_event_handler_row`. -/
structure HandlerRow where
  scope : EventScope
  event : Text
  count : ℕ
  actions : Actions σ X G S
  event_ne : event ≠ []
  count_pos : 0 < count
  count_le : count ≤ uintMax

structure Program where
  handlers : List (HandlerRow σ X G S)
  documentScope : ℕ
  forms : List ℕ
  fieldCount : ℕ
  initialCount : ℕ
  subdialogCount : ℕ
  recordCount : ℕ
  transferCount : ℕ

end

structure Active where
  form : Option ℕ
  field : Option ℕ
  initial : Option ℕ
  subdialog : Option ℕ
  record : Option ℕ
  transfer : Option ℕ
  menu : Option ℕ
  block : Option ℕ

/-- `vxml_cmeta_event_counter`. -/
structure Counter where
  scope : EventScope
  event : Text
  count : ℕ
  deriving DecidableEq

structure Limits where
  eventNameStride : ℕ
  eventCounterCapacity : ℕ
  maxEventDispatchDepth : ℕ

variable {σ X G S : Type}

/-! ## One lookup -/

def eventPrefixMatch (pattern event : Text) : Bool :=
  !pattern.isEmpty && pattern.isPrefixOf event &&
    (event.length == pattern.length || event[pattern.length]? == some '.')

def setCount (scope : EventScope) (event : Text) (count : ℕ) (counters : List Counter) :
    List Counter :=
  counters.map fun c =>
    if c.scope = scope && c.event = event then { c with count := count } else c

def eventCounterNext (L : Limits) (scope : EventScope) (event : Text) (counters : List Counter) :
    Except Status (ℕ × List Counter) :=
  if event.isEmpty || L.eventNameStride == 0 || L.eventNameStride ≤ event.length then
    .error .invalidContract
  else
    match counters.find? fun c => c.scope = scope && c.event = event with
    | some counter =>
      let count := if counter.count = uintMax then counter.count else counter.count + 1
      .ok (count, setCount scope event count counters)
    | none =>
      if counters.length ≥ L.eventCounterCapacity then .error .limitExceeded
      else .ok (1, counters ++ [⟨scope, event, 1⟩])

def present (index : Option ℕ) (count : ℕ) : Bool := index.any (· < count)

variable (P : Program σ X G S)

def activeItem (active : Active) : Option EventScope :=
  match active.subdialog, active.initial, active.transfer, active.record, active.field with
  | some owner, initial, _, _, field =>
    if owner < P.subdialogCount && initial.isNone && field.isNone && active.menu.isNone &&
      active.block.isNone then some ⟨.subdialog, owner⟩ else none
  | none, some owner, _, record, field =>
    if field.isNone && record.isNone && owner < P.initialCount then some ⟨.initial, owner⟩
    else none
  | none, none, some owner, record, field =>
    if field.isNone && record.isNone && owner < P.transferCount then some ⟨.transfer, owner⟩
    else none
  | none, none, none, some owner, field =>
    if field.isNone && owner < P.recordCount then some ⟨.record, owner⟩ else none
  | none, none, none, none, field =>
    field.bind fun owner => if owner < P.fieldCount then some ⟨.field, owner⟩ else none

def eventScopeOwner (active : Active) : ℕ → Option EventScope
  | 0 => activeItem P active
  | 1 => active.form.bind fun owner => if owner < P.forms.length then some ⟨.form, owner⟩ else none
  | 2 => some ⟨.document, 0⟩
  | _ => none

def HandlerRow.eligible (row : HandlerRow σ X G S) (scope : EventScope) (event : Text)
    (occurrence : ℕ) : Bool :=
  row.scope = scope && row.count ≤ occurrence && eventPrefixMatch row.event event

def selectEventHandler (scope : EventScope) (event : Text)
    (occurrence : ℕ) : Option (HandlerRow σ X G S) :=
  P.handlers.foldl (fun best row =>
    if row.eligible scope event occurrence then
      match best with
      | none => some row
      | some chosen =>
        if chosen.event.length < row.event.length ||
          (row.event.length == chosen.event.length && chosen.count < row.count) then some row
        else some chosen
    else best) none

/-! ## The transaction of a handler -/

/-- A session with its event counters and its active items. -/
structure Dispatcher (σ X G S : Type) where
  session : Session σ X G S
  counters : List Counter
  active : Active

variable (d : Dispatcher σ X G S)

def Dispatcher.fail (status : Status) : Dispatcher σ X G S :=
  { d with session := d.session.fail status }

def recoveryEventName (event : Text) : Bool :=
  event = "noinput".toList || event = "nomatch".toList

def applyRetryResets (resets : List EventScope) (counters : List Counter) : List Counter :=
  counters.map fun c =>
    if resets.contains c.scope && recoveryEventName c.event then { c with count := 0 } else c

def handlerScopes (active : Active) (scope : EventScope) : Option (List ℕ) :=
  match active.form with
  | none => if scope.kind = .document then some [P.documentScope] else none
  | some form =>
    match P.forms[form]? with
    | none => none
    | some formScope =>
      some (if scope.kind = .document then [P.documentScope] else [formScope, P.documentScope])

def clearRequests (s : Session σ X G S) : Session σ X G S :=
  { s with
    thrownEvent := none
    rethrowRequested := false
    handlerRepromptRequested := false }

/-- The end of `execute_event_handler`. -/
def publishHandler (s : Session σ X G S) : Option Status × Session σ X G S :=
  if s.submitRequested.isSome || s.pendingNavigation.isSome then
    let r := s.publishPendingControl
    (r.1, { r.2 with handlerRepromptRequested := false, pendingTerminal := none })
  else
    let s := { s with
      repromptRequested := s.repromptRequested || s.handlerRepromptRequested
      handlerRepromptRequested := false }
    if s.exitRequested then (none, s.terminalPublish)
    else (none, { s with pendingTerminal := none })

/-- The transaction of `execute_event_handler`. -/
def runHandler (H : Host σ) (scopes : List ℕ) (actions : Actions σ X G S)
    (s : Session σ X G S) : Option Status × List EventScope × Session σ X G S :=
  match s.exitSnapshotPrepare H with
  | (false, s) => (some .allocationFailed, [], s)
  | (true, s) =>
    match { clearRequests s.terminalPendingReset with
        eventDispatchActive := true }.transactionBegin H with
    | (false, s) =>
      (some .allocationFailed, [], { s with eventDispatchActive := false, pendingTerminal := none })
    | (true, s) =>
      match executeActionRange H scopes actions s with
      | (.fail status, s) =>
        (some status, [], { clearRequests (s.transactionReset H) with
          eventDispatchActive := false
          pendingTerminal := none })
      | (_, s) =>
        let r := publishHandler ({ s with eventDispatchActive := false }.transactionCommit H)
        (r.1, s.staged.retryResets, r.2)

def executeEventHandler (H : Host σ) (handler : HandlerRow σ X G S)
    (d : Dispatcher σ X G S) : Option Status × Dispatcher σ X G S :=
  match handlerScopes P d.active handler.scope with
  | none => (some .invalidStructure, d)
  | some scopes =>
    match runHandler H scopes handler.actions d.session with
    | (status, resets, s) =>
      (status, { d with session := s, counters := applyRetryResets resets d.counters })

/-! ## Dispatch -/

def eventOriginRank (origin : EventScope) : ℕ :=
  match origin.kind with
  | .document => 2
  | .form => 1
  | _ => 0

/-- Where a dispatch stands, with the status if nothing handles the event. -/
structure Cursor where
  event : Text
  startScope : ℕ
  origin : Option EventScope
  unhandledStatus : Status

def scopeAt (active : Active) (origin : Option EventScope) (rank : ℕ) : Option EventScope :=
  match origin with
  | some scope => if rank = eventOriginRank scope then some scope else eventScopeOwner P active rank
  | none => eventScopeOwner P active rank

inductive Found (σ X G S : Type)
  | failed (status : Status)
  | unhandled
  | handler (rank : ℕ) (row : HandlerRow σ X G S)

/-- The loop of `dispatch_event_impl` over the scopes. -/
def lookup (P : Program σ X G S) (L : Limits) (active : Active) (c : Cursor) :
    List ℕ → List Counter → Found σ X G S × List Counter
  | [], counters => (.unhandled, counters)
  | rank :: ranks, counters =>
    match scopeAt P active c.origin rank with
    | none => lookup P L active c ranks counters
    | some scope =>
      match eventCounterNext L scope c.event counters with
      | .error status => (.failed status, counters)
      | .ok (occurrence, counters) =>
        match selectEventHandler P scope c.event occurrence with
        | none => lookup P L active c ranks counters
        | some row => (.handler rank row, counters)

def ranksFrom (start : ℕ) : List ℕ := List.range' start (3 - start)

structure Dispatched (σ X G S : Type) where
  ran : List (HandlerRow σ X G S)
  status : Option Status
  dispatcher : Dispatcher σ X G S

def Dispatched.after (row : HandlerRow σ X G S) (r : Dispatched σ X G S) : Dispatched σ X G S :=
  { r with ran := row :: r.ran }

def Dispatcher.failed (ran : List (HandlerRow σ X G S)) (status : Status) : Dispatched σ X G S :=
  ⟨ran, some status, d.fail status⟩

def Dispatcher.clearBackendFailure : Dispatcher σ X G S :=
  { d with session := { d.session with
      staged := { d.session.staged with backendFailureEvent := none } } }

/-- The outer loop of `dispatch_event_impl`. -/
def dispatchLoop (P : Program σ X G S) (L : Limits) (H : Host σ) :
    ℕ → Cursor → Dispatcher σ X G S → Dispatched σ X G S
  | 0, _, d => d.failed [] .limitExceeded
  | depth + 1, c, d =>
    match lookup P L d.active c (ranksFrom c.startScope) d.counters with
    | (.failed status, counters) => { d with counters := counters }.failed [] status
    | (.unhandled, counters) => { d with counters := counters }.failed [] c.unhandledStatus
    | (.handler rank row, counters) =>
      match executeEventHandler P H row { d with counters := counters } with
      | (some status, d) =>
        match d.session.staged.backendFailureEvent with
        | none => d.failed [row] status
        | some event =>
          if event.isEmpty then d.clearBackendFailure.failed [row] status
          else
            (dispatchLoop P L H depth ⟨event, eventOriginRank row.scope, some row.scope, status⟩
              d.clearBackendFailure).after row
      | (none, d) =>
        if d.session.state ≠ .running then ⟨[row], none, d⟩
        else
          match d.session.thrownEvent with
          | some event =>
            let d := { d with session := { d.session with thrownEvent := none } }
            if event.isEmpty then d.failed [row] .semanticError
            else
              (dispatchLoop P L H depth
                (if c.origin.isSome then
                  ⟨event, eventOriginRank row.scope, some row.scope, .semanticError⟩
                else ⟨event, 0, none, .semanticError⟩) d).after row
          | none =>
            if d.session.rethrowRequested then
              let d := { d with session := { d.session with rethrowRequested := false } }
              if rank + 1 < 3 then
                (dispatchLoop P L H depth { c with startScope := rank + 1 } d).after row
              else d.failed [row] c.unhandledStatus
            else ⟨[row], none, d⟩

/-! ## Admission -/

/-- The loop of `vxml_cmeta_event_token_valid`. -/
def tokenValid : Bool → Text → Bool
  | start, [] => !start
  | start, c :: rest =>
    if c = '\x00' || c = ' ' || c = '\t' || c = '\r' || c = '\n' then false
    else if c = '.' then !start && tokenValid true rest
    else if c.toNat < 0x80 then
      (c.isAlpha || c.isDigit || c = '_' || (!start && c = '-')) && tokenValid false rest
    else tokenValid false rest

def eventTokenValid (event : Text) : Bool := !event.isEmpty && tokenValid true event

def initialConsistent (active : Active) : Bool :=
  match active.initial with
  | none => true
  | some owner =>
    owner < P.initialCount && active.field.isNone && active.menu.isNone && active.block.isNone

/-- How `dispatch_event_impl` refuses an event before it looks at a scope. -/
inductive Refusal
  | rejected (status : Status)
  | failed (status : Status)
  deriving DecidableEq

/-- The tests of `dispatch_event_impl` before its loop. -/
def admission (L : Limits) (event : Text) (allowSubdialog : Bool)
    (unhandledStatus : Status) (d : Dispatcher σ X G S) : Option Refusal :=
  if event.isEmpty || event.contains '\x00' then some (.rejected .invalidArgument)
  else if d.session.state ≠ .running then some (.rejected .invalidState)
  else if d.session.collectMediaTransaction then some (.rejected .invalidState)
  else if d.active.subdialog.isSome && !allowSubdialog then some (.rejected .invalidState)
  else if !initialConsistent P d.active then some (.failed .invalidStructure)
  else if !eventTokenValid event then some (.rejected .invalidArgument)
  else if P.handlers.isEmpty then some (.failed unhandledStatus)
  else if L.eventNameStride == 0 || L.eventNameStride ≤ event.length then
    some (.rejected .invalidArgument)
  else if L.maxEventDispatchDepth == 0 then some (.failed .invalidContract)
  else none

def Cursor.start (event : Text) (origin : Option EventScope) (unhandledStatus : Status) : Cursor :=
  ⟨event, origin.elim 0 eventOriginRank, origin, unhandledStatus⟩

def dispatchEventImpl (L : Limits) (H : Host σ) (event : Text)
    (allowSubdialog : Bool) (origin : Option EventScope) (unhandledStatus : Status)
    (d : Dispatcher σ X G S) : Dispatched σ X G S :=
  match admission P L event allowSubdialog unhandledStatus d with
  | some (.rejected status) => ⟨[], some status, d⟩
  | some (.failed status) => d.failed [] status
  | none =>
    dispatchLoop P L H L.maxEventDispatchDepth (Cursor.start event origin unhandledStatus) d

def raiseEvent (L : Limits) (H : Host σ) (event : Text)
    (allowSubdialog : Bool) (d : Dispatcher σ X G S) : Dispatched σ X G S :=
  dispatchEventImpl P L H event allowSubdialog none .semanticError d

def recoverBackendFailure (L : Limits) (H : Host σ) (status : Status)
    (d : Dispatcher σ X G S) : Dispatched σ X G S :=
  match d.session.staged.backendFailureEvent with
  | none => d.failed [] status
  | some event =>
    let r := dispatchEventImpl P L H event true (some d.session.backendFailureOrigin) status
      d.clearBackendFailure
    if r.status.isSome && r.dispatcher.session.state = .running then
      r.dispatcher.failed r.ran status
    else r

end TurboScxml.Voice.Events
