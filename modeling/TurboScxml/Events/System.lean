import TurboScxml.Events.Rows
import TurboScxml.Lib.Machine
import TurboScxml.Lib.Parties

/-!
# The senders and the executor

The metadata rows, while threads send named and tagged events and the executor of the session raises
and observes events. Each locked section is one step:

* `Producer`: `scxml_session_try_send_metadata_impl` in a thread;
* `Executor`: `execute_send` with internal data, `send_failure_outcome`, the tickets of a step, and
  `scxml_runtime_observe_event`;
* `State.stepProducer`, `State.stepExecutor`, `step`.

CFlow keeps the queues first-in first-out. A step that is discarded drops the events it raised. What
a sender gave (`Event.given`), the token of a ticket, the freed reservations and the observations
are no part of the source.
-/

namespace TurboScxml.Events

open Function

variable {S T K V ι : Type} {n : ℕ}

/-! ## Events -/

inductive Data (S V : Type)
  | text (bytes : Text)
  | object (schema : S) (value : V)

/-- What a sender gave for an event. -/
structure Given (S V : Type) where
  name : Text
  sendId : Text
  origin : Text
  originType : Text
  invokeId : Text
  data : Data S V

structure Event (S V : Type) where
  id : ℕ
  token : ℕ
  given : Option (Given S V)

inductive Kind
  | internal | external
  deriving DecidableEq

def Content.given (P : Program S T K) : Content S K V → Data S V
  | .invalid => .text []
  | .scalar value => .text ((P.scalarToText value).getD [])
  | .textUtf8 bytes | .xmlUtf8 bytes => .text bytes
  | .cmeta schema value => .object schema value

/-! ## Threads -/

/-- The arguments of `scxml_session_try_send_metadata_impl`. -/
structure Call (S K V : Type) where
  event : ℕ
  name : Text
  metadata : Metadata S K V

def Call.given (P : Program S T K) (c : Call S K V) : Given S V where
  name := c.name
  sendId := c.metadata.sendId
  origin := c.metadata.origin
  originType := c.metadata.originType
  invokeId := c.metadata.invokeId
  data := c.metadata.data.given P

/-- What follows in `scxml_runtime_release_event_metadata`. -/
inductive Phase (S : Type)
  | enter
  | destroy (schema : Option S)
  | clear

inductive Producer (n : ℕ) (S K V : Type)
  | done (status : Option MailboxStatus)
  | start (call : Call S K V)
  | reserved (call : Call S K V) (row : Fin n) (token : ℕ)
  | filled (call : Call S K V) (row : Fin n) (token : ℕ)
  | releasing (row : Fin n) (token : ℕ) (phase : Phase S) (status : MailboxStatus)

/-! ## The executor -/

/-- The data of an internal `<send>`. -/
inductive Payload (P : Program S T K) (V : Type)
  | content (view : Content S K V)
  | named (payload : NamedPayload P V)

inductive Work (P : Program S T K) (V : Type)
  | send (event : ℕ) (payload : Payload P V)
  | failed (execution : Bool) (id : Text)

variable {P : Program S T K}

def Work.event : Work P V → ℕ
  | .send event _ => event
  | .failed true _ => P.executionError
  | .failed false _ => P.communicationError

def Work.metadata : Work P V → Metadata S K V
  | .send _ (.content view) => ⟨[], [], [], [], view⟩
  | .send _ (.named _) => ⟨[], [], [], [], .invalid⟩
  | .failed _ id => ⟨id, [], [], [], .invalid⟩

def Payload.given : Payload P V → Data S V
  | .content view => view.given P
  | .named p => .object p.schema (p.assigned.getD p.state)

def Work.given : Work P V → Given S V
  | .send _ payload => ⟨[], [], [], [], [], payload.given⟩
  | .failed _ id => ⟨[], id, [], [], [], .text []⟩

/-- What `execute_send` writes to the reserved row. -/
def Work.fill [DecidableEq S] (work : Work P V) (row : Row S T V) (ledger : Ledger S T V)
    (copied : Bool) : Row S T V × Ledger S T V × Bool :=
  match work with
  | .send _ (.content view) =>
    match attachEventContent P row view ledger copied with
    | some (row', ledger') => (row', ledger', true)
    | none => (row, ledger, false)
  | .send _ (.named payload) => payload.fill row ledger copied
  | .failed _ _ => (row, ledger, true)

inductive After
  /-- `raise_block_execution_error`. -/
  | abort
  | fatal
  | discard (failed : Bool)
  deriving DecidableEq

inductive Failure
  | step | outsideProgram | nameUnavailable | staleToken | copyFailed | invokeId | completion
  deriving DecidableEq

inductive Executor (n : ℕ) (P : Program S T K) (V : Type)
  | idle
  | reserved (work : Work P V) (row : Fin n) (token : ℕ)
  | filled (work : Work P V) (row : Fin n) (token : ℕ)
  | releasing (row : Fin n) (token : ℕ) (phase : Phase S) (after : After)
  | aborting
  | fatal
  | discarding (failed : Bool)
  | taken (event : Event S V) (kind : Kind)
  | copying (event : Event S V) (kind : Kind) (row : Fin n)
  | clearing (event : Event S V) (kind : Kind) (row : Fin n) (copied : Bool)
  | failed (why : Failure) (event : Option (Event S V))

def Work.missesEvent : Work P V → Bool
  | .send .. => false
  | .failed execution id => (Work.failed (P := P) (V := V) execution id).event == 0

def Work.refused : Work P V → Executor n P V
  | .send .. => .aborting
  | .failed .. => .fatal

/-! ## The state -/

/-- A staged release of a row. -/
structure Ticket (n : ℕ) where
  row : Fin n
  token : ℕ

structure Invocation where
  id : Text
  doneName : Option Text

structure Observation (S V : Type) where
  event : Event S V
  kind : Kind
  invocation : Option Invocation
  shown : SystemValues S V

structure State (n : ℕ) (ι : Type) (P : Program S T K) (V : Type) where
  rows : Fin n → Row S T V
  nextToken : ℕ
  ledger : Ledger S T V
  current : Current S T V
  producers : ι → Producer n S K V
  executor : Executor n P V
  external : List (Event S V)
  internal : List (Event S V)
  raised : List (Event S V)
  staged : List (Ticket n)
  freed : List ℕ
  reservations : ℕ
  observed : List (Observation S V)

/-- A new session, whose current event was cleared. -/
structure Init (s : State n ι P V) : Prop where
  rows : ∀ r, s.rows r = Row.zero
  nextToken : s.nextToken = tokenBit + 1
  ledger : s.ledger = ⟨0, []⟩
  current : s.current.dataObjectLive = false
  producers : ∀ i, s.producers i = .done none
  executor : s.executor = .idle
  external : s.external = []
  internal : s.internal = []
  raised : s.raised = []
  staged : s.staged = []
  freed : s.freed = []
  reservations : s.reservations = 0
  observed : s.observed = []

namespace State

variable (s : State n ι P V)

def setRow (r : Fin n) (row : Row S T V) : State n ι P V :=
  { s with rows := update s.rows r row }

def reserve (m : Metadata S K V) : Option (Fin n × State n ι P V) :=
  (reserveEventMetadata s.rows s.nextToken m).map fun p =>
    (p.1, { s with rows := p.2.1, nextToken := p.2.2, reservations := s.reservations + 1 })

def release (r : Fin n) : Phase S → State n ι P V × Option (Phase S)
  | .enter =>
    let p := (s.rows r).release
    let s' := s.setRow r p.1
    (if (s.rows r).inUse && !p.1.inUse then
      { s' with freed := serial (s.rows r).token :: s.freed } else s',
      p.2.map Phase.destroy)
  | .destroy schema =>
    ({ s with ledger := s.ledger.destroy schema (s.rows r).dataObject }, some .clear)
  | .clear => (s.setRow r Row.zero, none)

def setProducer [DecidableEq ι] (s : State n ι P V) (i : ι) (pc : Producer n S K V) :
    State n ι P V :=
  { s with producers := update s.producers i pc }

def goto (pc : Executor n P V) : State n ι P V := { s with executor := pc }

def raisePlain (event : ℕ) : State n ι P V :=
  { s with raised := s.raised ++ [⟨event, 0, none⟩] }

def observe (event : Event S V) (kind : Kind) (invocation : Option Invocation) : State n ι P V :=
  { s with
    executor := .idle
    observed := ⟨event, kind, invocation, s.current.values⟩ :: s.observed }

end State

/-! ## Steps of a thread -/

inductive ProducerStep (S K V : Type)
  | trySendWithMetadata (event : ℕ) (metadata : Metadata S K V)
  | trySendNamedWithMetadata (name : Text) (metadata : Metadata S K V)
  | reserve
  | attach (copied : Bool)
  | trySendTagged (status : MailboxStatus)
  | release

/-- The checks of `scxml_session_try_send_metadata_impl`. -/
def Call.begin (c : Call S K V) : Producer n S K V :=
  if c.metadata.valid && fieldValid c.name then .start c else .done (some .invalidArgument)

section Steps

variable [DecidableEq S] [DecidableEq ι] (s : State n ι P V)

def State.stepProducer (i : ι) : ProducerStep S K V → Option (State n ι P V)
  | .trySendWithMetadata event metadata =>
    match s.producers i with
    | .done _ => some (s.setProducer i (Call.begin ⟨event, [], metadata⟩))
    | _ => none
  | .trySendNamedWithMetadata name metadata =>
    match s.producers i with
    | .done _ =>
      if name = [] || !fieldValid name then some (s.setProducer i (.done (some .invalidArgument)))
      else some (s.setProducer i (Call.begin ⟨P.eventOf name, name, metadata⟩))
    | _ => none
  | .reserve =>
    match s.producers i with
    | .start call =>
      match s.reserve call.metadata with
      | none => some (s.setProducer i (.done (some .full)))
      | some (r, s') => some (s'.setProducer i (.reserved call r s.nextToken))
    | _ => none
  | .attach copied =>
    match s.producers i with
    | .reserved call r token =>
      let row := { s.rows r with name := call.name }
      match attachEventContent P row call.metadata.data s.ledger copied with
      | none => some ((s.setRow r row).setProducer i (.releasing r token .enter .invalidArgument))
      | some (row', ledger) =>
        some (({ s with ledger }.setRow r row').setProducer i (.filled call r token))
    | _ => none
  | .trySendTagged status =>
    match s.producers i with
    | .filled call r token =>
      if status = .ok then
        let event : Event S V := ⟨call.event, token, some (call.given P)⟩
        some ({ s with external := s.external ++ [event] }.setProducer i (.done (some .ok)))
      else some (s.setProducer i (.releasing r token .enter status))
    | _ => none
  | .release =>
    match s.producers i with
    | .releasing r token phase status =>
      match s.release r phase with
      | (s', some phase') => some (s'.setProducer i (.releasing r token phase' status))
      | (s', none) => some (s'.setProducer i (.done (some status)))
    | _ => none

/-! ## Steps of the executor -/

inductive DoneData (S V : Type)
  | none
  | text (bytes : Text)
  | object (schema : S) (value : V)
  | invalid

inductive ExecutorStep (P : Program S T K) (V : Type)
  | raise (event : ℕ)
  | work (work : Work P V)
  | fill (copied : Bool)
  /-- `raise_internal_tagged`, then `stage_effect`. -/
  | stage (raised staged : Bool)
  | release
  /-- `raise_block_execution_error`. -/
  | abort (raised : Bool)
  | commit
  | discard
  | discardNext
  | take (kind : Kind)
  | lookup (invocation : Option Invocation)
  | copy (copied : Bool)
  | clear
  | complete (state : Option Text) (data : DoneData S V)

def Program.eventType (P : Program S T K) (kind : Kind) (id : ℕ) : EventType :=
  match kind with
  | .external => .external
  | .internal =>
    if id = P.executionError || id = P.communicationError then .platform else .internal

def plainValues (name : Text) (type : EventType) : SystemValues S V where
  eventName := name
  eventType := type
  eventSendId := []
  eventOrigin := []
  eventOriginType := []
  eventInvokeId := []
  eventData := some []
  eventDataSchema := none
  eventDataObject := none

variable (c : Current S T V)

def Current.entitle (name : Text) (type : EventType) : Current S T V :=
  { c with values := { c.values with eventName := name, eventType := type } }

/-- `scxml_runtime_observe_event`, up to the lock. -/
def State.take (event : Event S V) (kind : Kind) : State n ι P V :=
  let cleared := s.current.clear s.ledger
  let s := { s with current := cleared.1, ledger := cleared.2 }
  if event.id = 0 || (event.id > P.eventNames.length && event.id ≠ P.externalUnmatched) then
    s.goto (.failed .outsideProgram (some event))
  else
    match P.nameOf event.id with
    | none => s.goto (.failed .nameUnavailable (some event))
    | some name =>
      let s := { s with current := s.current.entitle name (P.eventType kind event.id) }
      if event.token = 0 || (kind ≠ .external && !hasTokenBit event.token) then
        s.observe event kind none
      else s.goto (.taken event kind)

def Current.copyRow (row : Row S T V) : Current S T V :=
  { c with
    values := { c.values with
      eventName := if row.name = [] then c.values.eventName else row.name
      eventSendId := row.sendId
      eventOrigin := row.origin
      eventOriginType := row.originType
      eventInvokeId := row.invokeId
      eventData := some row.data } }

def Current.showObject (schema : Option S) (object : Object T V) : Current S T V where
  values := { c.values with
    eventData := none
    eventDataSchema := schema
    eventDataObject := some object.value }
  dataSchema := schema
  dataObjectLive := true
  dataObject := some object

def Current.showInvocation (v : Invocation) : Current S T V :=
  { c with values := { c.values with eventInvokeId := v.id } }

def State.lookup (event : Event S V) (kind : Kind)
    (invocation : Option Invocation) : State n ι P V :=
  if hasTokenBit event.token then
    match Fin.find? fun r => (s.rows r).inUse && (s.rows r).token == event.token with
    | none => s.goto (.failed .staleToken (some event))
    | some r =>
      let row := s.rows r
      let s := { s with
        current := s.current.copyRow row
        freed := serial row.token :: s.freed }
      if row.dataObjectLive then
        (s.setRow r { row with inUse := false }).goto (.copying event kind r)
      else (s.setRow r Row.zero).observe event kind none
  else
    match invocation with
    | none => s.observe event kind none
    | some v =>
      if !fieldValid v.id then s.goto (.failed .invokeId (some event))
      else
        let s := { s with current := s.current.showInvocation v }
        match v.doneName with
        | none => s.observe event kind (some v)
        | some name =>
          if !fieldValid name then s.goto (.failed .invokeId (some event))
          else
            { s with current := s.current.entitle name s.current.values.eventType }.observe event
              kind (some v)

def State.copy (event : Event S V) (kind : Kind) (r : Fin n) (copied : Bool) : State n ι P V :=
  let row := s.rows r
  let s := match row.dataSchema, row.dataObject with
    | some schema, some object =>
      match s.ledger.copy (P.storageType schema) object.value copied with
      | some (object', ledger) =>
        { s with ledger, current := s.current.showObject (some schema) object' }.goto
          (.clearing event kind r true)
      | none => s.goto (.clearing event kind r false)
    | _, _ => s.goto (.clearing event kind r false)
  { s with ledger := s.ledger.destroy row.dataSchema row.dataObject }

def State.complete (state : Option Text) (data : DoneData S V) : State n ι P V :=
  let cleared := s.current.clear s.ledger
  let s := { s with current := cleared.1, ledger := cleared.2 }
  match state with
  | none => { s with current := s.current.entitle [] .internal }
  | some name =>
    if name.length ≤ eventMetadataCapacity - 11 then
      let current := s.current.entitle ("done.state.".toList ++ name) .internal
      match data with
      | .none => { s with current }
      | .text bytes =>
        { s with current := { current with values := { current.values with
          eventData := some bytes } } }
      | .object schema value =>
        { s with current := { current with
          values := { current.values with
            eventData := none
            eventDataSchema := some schema
            eventDataObject := some value }
          dataSchema := some schema } }
      | .invalid => { s with current }.goto (.failed .completion none)
    else s.goto (.failed .completion none)

def State.stepExecutor : ExecutorStep P V → Option (State n ι P V)
  | .raise event =>
    match s.executor with
    | .idle => some (s.raisePlain event)
    | _ => none
  | .work work =>
    match s.executor with
    | .idle =>
      if work.missesEvent then some (s.goto .fatal)
      else
        match s.reserve work.metadata with
        | none => some (s.goto work.refused)
        | some (r, s') => some (s'.goto (.reserved work r s.nextToken))
    | _ => none
  | .fill copied =>
    match s.executor with
    | .reserved work r token =>
      let p := work.fill (s.rows r) s.ledger copied
      some (({ s with ledger := p.2.1 }.setRow r p.1).goto
        (if p.2.2 then .filled work r token else .releasing r token .enter .abort))
    | _ => none
  | .stage raised staged =>
    match s.executor with
    | .filled work r token =>
      if raised then
        let event : Event S V := ⟨work.event, token, some work.given⟩
        let s := { s with raised := s.raised ++ [event] }
        let ticket : Ticket n := ⟨r, token⟩
        if staged then some ({ s with staged := s.staged ++ [ticket] }.goto .idle)
        else some (s.goto (.releasing r token .enter .fatal))
      else some (s.goto (.releasing r token .enter .fatal))
    | _ => none
  | .release =>
    match s.executor with
    | .releasing r token phase after =>
      match s.release r phase with
      | (s', some phase') => some (s'.goto (.releasing r token phase' after))
      | (s', none) =>
        some (s'.goto (match after with
          | .abort => .aborting
          | .fatal => .fatal
          | .discard failed => .discarding failed))
    | _ => none
  | .abort raised =>
    match s.executor with
    | .aborting =>
      if P.executionError ≠ 0 && raised then some ((s.raisePlain P.executionError).goto .idle)
      else some (s.goto .fatal)
    | _ => none
  | .commit =>
    match s.executor with
    | .idle => some { s with internal := s.internal ++ s.raised, raised := [], staged := [] }
    | _ => none
  | .discard =>
    match s.executor with
    | .idle => some ({ s with raised := [] }.goto (.discarding false))
    | .fatal => some ({ s with raised := [] }.goto (.discarding true))
    | _ => none
  | .discardNext =>
    match s.executor with
    | .discarding failed =>
      match s.staged with
      | [] => some (s.goto (if failed then .failed .step none else .idle))
      | ticket :: rest =>
        some ({ s with staged := rest }.goto
          (.releasing ticket.row ticket.token .enter (.discard failed)))
    | _ => none
  | .take .internal =>
    match s.executor, s.internal with
    | .idle, event :: rest => some ({ s with internal := rest }.take event .internal)
    | _, _ => none
  | .take .external =>
    match s.executor, s.external with
    | .idle, event :: rest => some ({ s with external := rest }.take event .external)
    | _, _ => none
  | .lookup invocation =>
    match s.executor with
    | .taken event kind => some (s.lookup event kind invocation)
    | _ => none
  | .copy copied =>
    match s.executor with
    | .copying event kind r => some (s.copy event kind r copied)
    | _ => none
  | .clear =>
    match s.executor with
    | .clearing event kind r copied =>
      let s := s.setRow r Row.zero
      some (if copied then s.observe event kind none else s.goto (.failed .copyFailed none))
    | _ => none
  | .complete state data =>
    match s.executor with
    | .idle => some (s.complete state data)
    | _ => none

/-! ## The system -/

inductive Action (ι : Type) (P : Program S T K) (V : Type)
  | producer (i : ι) (a : ProducerStep S K V)
  | sendPlain (event : ℕ) (token : ℕ)
  | executor (a : ExecutorStep P V)

def step : Action ι P V → Option (State n ι P V)
  | .producer i a => s.stepProducer i a
  | .sendPlain event token =>
    if hasTokenBit token then none
    else some { s with external := s.external ++ [⟨event, token, none⟩] }
  | .executor a => s.stepExecutor a

end Steps

end TurboScxml.Events
