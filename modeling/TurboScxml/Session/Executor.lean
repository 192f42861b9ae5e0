import TurboScxml.Session.Sends

/-!
# The executable content of a Session

`execute_scxml_range` of `scxml_runtime.c` and the functions it calls. The executor runs under a
context that a block or a finalize block supplies; the two offer different things. CFlow, the Event
I/O adapter and the operations of the CMeta data model are parameters.

* `DataModel`, `Host`: the parameters; `Reading`: what an expression reads;
* `Step`, `Steps`, `Branches`: the compiled content, one constructor a step kind;
* `Context`: what the two callers of the executor offer; `Exec`: what it changes.
-/

namespace TurboScxml.Session

open Function

/-- `scxml_expr_value`. -/
inductive Value (Real : Type)
  | bool (value : Bool)
  | sint (value : ℤ)
  | uint (value : ℕ)
  | float (value : Real)
  | string (value : Text)

/-- `scxml_late_initializer_phase`. -/
inductive LatePhase
  | never | pending | done
  deriving DecidableEq

structure Reading (Root Object View : Type) (slotCount : ℕ) where
  root : Root
  scope : Fin slotCount → Option Object
  active : ℕ → Bool
  late : ℕ → LatePhase
  view : View

/-- The CMeta data model of a document. -/
structure DataModel where
  Root : Type
  Object : Type
  slotCount : ℕ
  Real : Type
  View : Type
  Location : Type
  Path : Type
  Expr : Type
  /-- The expressions admitted as `delayexpr`. -/
  DelayExpr : Type
  ConditionExpr : Type
  Sequence : Type
  Script : Type
  Action : Type
  ExternalData : Type
  evaluate : Expr → Reading Root Object View slotCount → Option (Value Real)
  evaluateDelay : DelayExpr → Reading Root Object View slotCount → Option (ℤ ⊕ ℕ)
  evaluateCondition : ConditionExpr → Reading Root Object View slotCount → Option Bool
  bound : Location → (ℕ → LatePhase) → Bool
  load : Location → Root → Object
  store : Location → Value Real → Root → Root × Bool
  storeText : Location → Text → Root → Root × Bool
  storeSlot : Path → Value Real → Object → Object × Bool
  /-- The item of `scxml_foreach_next_with_system`. -/
  putItem : Location → Object → Root → Option Root
  putIndex : Location → ℕ → Root → Root
  indexObject : ℕ → Object
  slotAdmits : Fin slotCount → Object → Bool
  sequenceOpen : Sequence → Root → (ℕ → LatePhase) → Option (List Object)
  executeScript : Script → Reading Root Object View slotCount →
    Option ((Fin slotCount → Option Object) × Option Root)
  executeAction : Action → Reading Root Object View slotCount → Bool
  loadExternal : ExternalData → Root → Root × Bool
  nmtoken : Text → Bool
  scalarText : Value Real → Option Text
  /-- `scxml_analyze_attach_event_content` of an object. -/
  attachObject : Object → Option Root
  /-- `scxml_runtime_copy_event_data_object`. -/
  copyData : Root → Option Root

variable (M : DataModel)

abbrev DataModel.Scope := Fin M.slotCount → Option M.Object

abbrev DataModel.Read := Reading M.Root M.Object M.View M.slotCount

/-! ## The compiled content -/

/-- `scxml_content_view`. -/
inductive Content
  | scalar (value : Value M.Real)
  | textUtf8 (bytes : Text)
  | xmlUtf8 (bytes : Text)
  | cmeta (object : M.Object)

/-- `scxml_content_descriptor`. -/
inductive ContentDescriptor
  | invalid
  | scalar (expression : M.Expr)
  | textUtf8 (bytes : Text)
  | xmlUtf8 (bytes : Text)
  | cmeta (location : M.Location)

inductive AssignSource
  | stringLiteral (bytes : Text)
  | expression (expression : M.Expr)

inductive Destination
  | mutable (location : M.Location)
  | supplemental (slot : Fin M.slotCount) (path : M.Path)
  | readOnlySystem
  | invalid

/-- `scxml_assign_program`. -/
structure Assignment where
  destination : Destination M
  source : AssignSource M

inductive InitializerSource
  | external (data : M.ExternalData)
  | assign (source : AssignSource M)

structure Initializer where
  location : M.Location
  source : InitializerSource M
  overridden : Bool

/-- `scxml_effect_descriptor` of a `<send>`. -/
structure SendDescriptor where
  eventId : ℕ
  event : Text
  eventExpr : Option M.Expr
  target : Text
  internalTarget : Bool
  targetExpr : Option M.Expr
  type : Text
  typeExpr : Option M.Expr
  delayMs : ℕ
  delayExpr : Option M.DelayExpr
  content : ContentDescriptor M
  payload : List (Text × M.Expr)
  internalAssignments : List (M.Location × AssignSource M)
  id : Text
  idLocation : Option M.Location

/-- `scxml_effect_descriptor` of a `<cancel>`. -/
structure CancelDescriptor where
  sendId : Text
  sendIdExpr : Option M.Expr

/-- Where `<foreach>` puts its item or its index. -/
inductive ForeachTarget
  | cmeta (location : M.Location)
  | supplemental (slot : Fin M.slotCount)

structure ForeachProgram where
  sequence : M.Sequence
  itemLocationValid : Bool
  item : ForeachTarget M
  index : Option (ForeachTarget M)
  maxIterations : ℕ

inductive Condition
  | unconditional
  | inState (state : ℕ)
  | expression (expression : M.ConditionExpr)

mutual

inductive Step
  | raise (event : ℕ)
  | send (descriptor : SendDescriptor M)
  | cancel (descriptor : CancelDescriptor M)
  | log (label : Text)
  | script (script : M.Script)
  | customAction (action : M.Action)
  | assign (assignment : Assignment M)
  | earlyInitialize (initializers : List (Initializer M))
  | lateInitialize (index : ℕ) (initializers : List (Initializer M))
  | foreach (program : ForeachProgram M) (body : Steps)
  | conditional (branches : Branches)

inductive Steps
  | nil
  | cons (step : Step) (rest : Steps)

inductive Branches
  | nil
  | cons (condition : Condition M) (body : Steps) (rest : Branches)

end

/-! ## What the executor changes -/

/-- `scxml_payload_view`. -/
inductive Payload
  | none
  | content (content : Content M)
  | named (entries : List (Text × Value M.Real))

/-- A materialized `scxml_send_request`. -/
structure Request where
  event : Text
  target : Text
  type : Text
  id : Text
  delayMs : ℕ
  payload : Payload M

/-- CFlow and the Event I/O adapter. -/
structure Host where
  Adapter : Type
  prepareSend : Adapter → Request M → Adapter × Answer
  prepareCancel : Adapter → Text → Adapter × Answer
  admitsRaise : ℕ → Bool
  admitsEffect : ℕ → Bool
  admitsEffect_of_le : ∀ {m n}, m ≤ n → admitsEffect n = true → admitsEffect m = true

/-- The data of a raised event with a metadata row. -/
inductive RaisedData
  | text (text : Text)
  | object (root : M.Root)
  | failedSend (id : Text)

structure Raised where
  event : ℕ
  data : Option (RaisedData M)

inductive Effect (cfg : Config)
  | supplemental
  | lateInitializer
  | eventMetadata
  | send (e : Fin cfg.effectCapacity) (request : Request M)
  | cancel (e : Fin cfg.effectCapacity) (sendId : Text)

structure Scopes where
  committed : M.Scope
  staged : M.Scope
  checkpoint : M.Scope
  transactionPending : Bool
  checkpointLive : Bool

inductive ScopeWrite
  | slot (slot : Fin M.slotCount) (object : M.Object)
  | replace (scope : M.Scope)

structure Program where
  executionErrorEvent : ℕ
  communicationErrorEvent : ℕ
  /-- `scxml_program_find_name` over the event names. -/
  eventName : Text → Option ℕ
  defaultType : Text
  sessionId : Text
  hasEventIo : Bool
  externalMetadataCapacity : ℕ
  decimal : ℕ → Text

structure Exec (H : Host M) (cfg : Config) where
  /-- `context->state`: the state CFlow holds. -/
  state : M.Root
  /-- `scxml_mutable_state.value`. -/
  value : Option M.Root
  scopes : Scopes M
  late : ℕ → LatePhase
  lateTicketPending : Bool
  sends : SendTable cfg
  nextTicket : AdapterTicket
  nextSendToken : ℕ
  metadata : ℕ
  failedSendId : Option (M.Location × Text)
  adapter : H.Adapter
  raised : List (Raised M)
  effects : List (Effect M cfg)
  writes : List (ScopeWrite M)
  edited : Option M.Root
  strained : Bool

variable {M}

def ScopeWrite.apply (scope : M.Scope) : ScopeWrite M → M.Scope
  | .slot s object => update scope s (some object)
  | .replace replacement => replacement

inductive ScopeView
  | committed | staged
  deriving DecidableEq

/-- `cflow_statechart_executable_context`. -/
structure Context where
  /-- `out_state` is given. -/
  outState : Bool
  /-- `raise_internal_tagged` is given. -/
  tagged : Bool
  supplemental : ScopeView

structure Surroundings (M : DataModel) where
  active : ℕ → Bool
  view : M.View

/-- `scxml_execute_outcome`. -/
inductive Outcome
  | continue | blockAborted | fatal
  deriving DecidableEq

def andThen {α : Type} (o : Outcome × α) (next : α → Outcome × α) : Outcome × α :=
  match o with
  | (.continue, x) => next x
  | stopped => stopped

variable {H : Host M} {cfg : Config}

namespace Exec

variable (x : Exec M H cfg)

def stateRead : M.Root := x.value.getD x.state

/-- `mutable_state_get`; in a finalize block a copy is made. -/
def stateGet : Exec M H cfg :=
  { x with
    value := some x.stateRead
    edited := some (x.edited.getD x.stateRead) }

/-- The memory behind `mutable_state_read`. -/
def overwriteState (root : M.Root) : Exec M H cfg :=
  match x.value with
  | some _ => { x with value := some root }
  | none => { x with state := root }

def scope : ScopeView → M.Scope
  | .committed => x.scopes.committed
  | .staged => x.scopes.staged

def writeScope (view : ScopeView) (w : ScopeWrite M) : Exec M H cfg :=
  { x with
    scopes :=
      match view with
      | .committed => { x.scopes with committed := w.apply x.scopes.committed }
      | .staged => { x.scopes with staged := w.apply x.scopes.staged }
    writes := x.writes ++ [w] }

def reading (env : Surroundings M) (view : ScopeView) (root : M.Root) : M.Read :=
  ⟨root, x.scope view, env.active, x.late, env.view⟩

def raiseInternal (raised : Raised M) : Option (Exec M H cfg) :=
  if H.admitsRaise x.raised.length then some { x with raised := x.raised ++ [raised] } else none

def stageEffect (effect : Effect M cfg) : Option (Exec M H cfg) :=
  if H.admitsEffect x.effects.length then some { x with effects := x.effects ++ [effect] } else none

def raiseError (event : ℕ) : Outcome × Exec M H cfg :=
  if event = 0 then (.fatal, x)
  else
    match x.raiseInternal ⟨event, none⟩ with
    | none => (.fatal, x)
    | some x => (.blockAborted, x)

end Exec

variable (P : Program)

def Program.errorEvent : AdapterErrorKind → ℕ
  | .execution => P.executionErrorEvent
  | .communication => P.communicationErrorEvent

/-! ## Sends -/

/-- The attributes of a `<send>`. -/
structure Materialized (M : DataModel) where
  eventId : ℕ
  event : Text
  target : Text
  internalTarget : Bool
  type : Text
  delayMs : ℕ
  content : Option (Content M)
  payload : Payload M

def Value.text {Real : Type} : Value Real → Option Text
  | .string t => some t
  | _ => none

def internalTargets : List Text :=
  [['#', '_', 'i', 'n', 't', 'e', 'r', 'n', 'a', 'l'],
    ['_', 'i', 'n', 't', 'e', 'r', 'n', 'a', 'l']]

variable (d : SendDescriptor M) (r : M.Read)

/-- The event of a `<send>`. -/
def SendDescriptor.materializeEvent : Option (ℕ × Text) :=
  match d.eventExpr with
  | none => some (d.eventId, d.event)
  | some e => do
    let text ← (M.evaluate e r).bind Value.text
    let id ← if M.nmtoken text then P.eventName text else none
    some (id, text)

def SendDescriptor.materializeTarget : Option (Text × Bool) :=
  match d.targetExpr with
  | none => some (d.target, d.internalTarget)
  | some e => ((M.evaluate e r).bind Value.text).map fun text => (text, internalTargets.contains text)

def SendDescriptor.materializeType : Option Text :=
  match d.typeExpr with
  | none => some (if d.type = [] then P.defaultType else d.type)
  | some e => ((M.evaluate e r).bind Value.text).filter (· ≠ [])

def SendDescriptor.materializeDelay : Option ℕ :=
  match d.delayExpr with
  | none => some d.delayMs
  | some e => (M.evaluateDelay e r).bind fun
    | .inl sint => if sint < 0 then none else some sint.toNat
    | .inr uint => some uint

/-- `scxml_runtime_materialize_content_descriptor`. -/
def ContentDescriptor.materialize : ContentDescriptor M → Option (Option (Content M))
  | .invalid => some none
  | .scalar e => (M.evaluate e r).map fun value => some (.scalar value)
  | .textUtf8 bytes => some (some (.textUtf8 bytes))
  | .xmlUtf8 bytes => some (some (.xmlUtf8 bytes))
  | .cmeta location =>
    if M.bound location r.late then some (some (.cmeta (M.load location r.root))) else none

def SendDescriptor.materializeNamed : Option (List (Text × Value M.Real)) :=
  d.payload.mapM fun entry => (M.evaluate entry.2 r).map fun value => (entry.1, value)

def SendDescriptor.materializePayload (content : Option (Content M))
    (r : M.Read) : Option (Payload M) :=
  if d.payload = [] then some (content.elim .none .content)
  else (d.materializeNamed r).map .named

/-- `execute_send` up to the id location. -/
def SendDescriptor.materialize : Option (Materialized M) := do
  let (eventId, event) ← d.materializeEvent P r
  let (target, internalTarget) ← d.materializeTarget r
  let type ← d.materializeType P r
  let delayMs ← d.materializeDelay r
  let content ← d.content.materialize r
  let payload ← if internalTarget then some .none else d.materializePayload content r
  if content.isSome && internalTarget && delayMs != 0 then none
  else some ⟨eventId, event, target, internalTarget, type, delayMs, content, payload⟩

def sendIdPrefix : Text := ['s', 'e', 'n', 'd', '.']

def Exec.materializeSendIdLocation (x : Exec M H cfg) (d : SendDescriptor M) :
    Exec M H cfg × Option Text :=
  match d.idLocation with
  | none => (x, some d.id)
  | some location =>
    if M.bound location x.late = false ∨ x.nextSendToken = 0 then (x, none)
    else
      let id := sendIdPrefix ++ P.sessionId ++ ['.'] ++ P.decimal x.nextSendToken
      if id.length > eventMetadataCapacity then (x, none)
      else
        let next := if x.nextSendToken = uint64Max then 0 else x.nextSendToken + 1
        let (root, stored) := M.storeText location id x.stateRead
        ({ x with nextSendToken := next }.overwriteState root, if stored then some id else none)

def AssignSource.value : AssignSource M → Option (Value M.Real)
  | .stringLiteral bytes => some (.string bytes)
  | .expression e => M.evaluate e r

def applyInternalAssignments (r : M.Read) :
    List (M.Location × AssignSource M) → M.Root → Option M.Root
  | [], data => some data
  | (location, source) :: rest, data =>
    match source.value r with
    | none => none
    | some value =>
      match M.store location value data with
      | (_, false) => none
      | (data, true) => applyInternalAssignments r rest data

def SendDescriptor.internalObject : Option (RaisedData M) :=
  ((M.copyData r.root).bind (applyInternalAssignments r d.internalAssignments)).map .object

def Content.attach : Content M → Option (RaisedData M)
  | .scalar value => ((M.scalarText value).filter (·.length ≤ eventMetadataCapacity)).map .text
  | .textUtf8 bytes | .xmlUtf8 bytes =>
    if bytes.length ≤ eventMetadataCapacity then some (.text bytes) else none
  | .cmeta object => (M.attachObject object).map .object

def SendDescriptor.internalData (m : Materialized M) (r : M.Read) : Option (RaisedData M) :=
  match m.content with
  | none => d.internalObject r
  | some content => content.attach.bind fun data =>
    if d.payload = [] then some data else d.internalObject r

variable (c : Context) (env : Surroundings M)

/-- An immediate `<send>` to the session itself. -/
def Exec.sendInternal (d : SendDescriptor M)
    (m : Materialized M) (x : Exec M H cfg) : Outcome × Exec M H cfg :=
  if m.content.isNone ∧ d.payload = [] then
    match x.raiseInternal ⟨m.eventId, none⟩ with
    | none => (.fatal, x)
    | some x => (.continue, x)
  else if c.tagged = false then (.fatal, { x with strained := true })
  else
    let x := { x with strained := true }
    if x.metadata ≥ P.externalMetadataCapacity then x.raiseError P.executionErrorEvent
    else
      match d.internalData m (x.reading env c.supplemental x.stateRead) with
      | none => x.raiseError P.executionErrorEvent
      | some data =>
        match x.raiseInternal ⟨m.eventId, some data⟩ with
        | none => (.fatal, x)
        | some x =>
          match { x with metadata := x.metadata + 1 }.stageEffect .eventMetadata with
          | none => (.fatal, x)
          | some x => (.continue, x)

def Exec.adapterFailureOutcome (x : Exec M H cfg) : AdapterStatus → Outcome × Exec M H cfg
  | .errorExecution => x.raiseError (P.errorEvent .execution)
  | .errorCommunication | .full | .closed => x.raiseError (P.errorEvent .communication)
  | .invalidContract | .accepted => (.fatal, x)

def AdapterStatus.errorKind : AdapterStatus → Option AdapterErrorKind
  | .errorExecution => some .execution
  | .errorCommunication | .full | .closed => some .communication
  | .invalidContract | .accepted => none

def Exec.sendFailureOutcome (d : SendDescriptor M) (id : Text)
    (status : AdapterStatus) (x : Exec M H cfg) : Outcome × Exec M H cfg :=
  match status.errorKind with
  | none => x.adapterFailureOutcome P status
  | some kind =>
    if id = [] then x.raiseError (P.errorEvent kind)
    else if c.tagged = false ∨ P.errorEvent kind = 0 then (.fatal, x)
    else if id.length > eventMetadataCapacity ∨ x.metadata ≥ P.externalMetadataCapacity then
      (.fatal, x)
    else
      match x.raiseInternal ⟨P.errorEvent kind, some (.failedSend id)⟩ with
      | none => (.fatal, x)
      | some x =>
        match { x with metadata := x.metadata + 1 }.stageEffect .eventMetadata with
        | none => (.fatal, x)
        | some x =>
          (.blockAborted,
            match d.idLocation with
            | none => x
            | some location => { x with failedSendId := some (location, id) })

def Exec.stagePrepared (x : Exec M H cfg) (t : SendTable cfg) (e : Fin cfg.effectCapacity)
    (effect : Effect M cfg) : Outcome × Exec M H cfg :=
  let x := { x with sends := t.storeTicket e x.nextTicket, nextTicket := x.nextTicket + 1 }
  match x.stageEffect effect with
  | none => (.fatal, { x with sends := (x.sends.discardPreparedEffect e).1 })
  | some x => (.continue, x)

/-- A `<send>` through the Event I/O adapter. -/
def Exec.sendExternal (d : SendDescriptor M) (m : Materialized M) (id : Text)
    (x : Exec M H cfg) : Outcome × Exec M H cfg :=
  if P.hasEventIo = false then (.fatal, x)
  else
    match x.sends.executeSendReserve ⟨id, m.delayMs, d.idLocation.isSome⟩ with
    | .error kind => x.raiseError (P.errorEvent kind)
    | .ok (t, e) =>
      let request : Request M := ⟨m.event, m.target, m.type, id, m.delayMs, m.payload⟩
      let (adapter, answer) := H.prepareSend x.adapter request
      let x := { x with adapter := adapter }
      let rolledBack := { x with sends := t.rollbackPreparedEffectLocked e }
      if answer.status ≠ .accepted then rolledBack.sendFailureOutcome P c d id answer.status
      else if answer.ticketValid = false then (.fatal, rolledBack)
      else x.stagePrepared t e (.send e request)

/-- `execute_send`. -/
def Exec.executeSend (d : SendDescriptor M) (x : Exec M H cfg) : Outcome × Exec M H cfg :=
  match d.materialize P (x.reading env c.supplemental x.stateRead) with
  | none => x.raiseError P.executionErrorEvent
  | some m =>
    match x.materializeSendIdLocation P d with
    | (x, none) => x.raiseError P.executionErrorEvent
    | (x, some id) =>
      if m.internalTarget = true ∧ m.delayMs = 0 then x.sendInternal P c env d m
      else x.sendExternal P c d m id

/-! ## Cancels -/

def CancelDescriptor.materialize (d : CancelDescriptor M) (outState : Option M.Root)
    (r : M.Root → M.Read) : Option Text :=
  match d.sendIdExpr with
  | none => some d.sendId
  | some e =>
    (outState.bind fun root => (M.evaluate e (r root)).bind Value.text).filter (· ≠ [])

def Exec.executeCancel (d : CancelDescriptor M) (x : Exec M H cfg) : Outcome × Exec M H cfg :=
  let x := { x with strained := x.strained || d.sendIdExpr.isSome }
  match d.materialize (if c.outState then x.value else none) (x.reading env c.supplemental) with
  | none => x.raiseError P.executionErrorEvent
  | some sendId =>
    if P.hasEventIo = false then (.fatal, x)
    else
      match x.sends.executeCancelReserve sendId with
      | .error kind => x.raiseError (P.errorEvent kind)
      | .ok none => (.continue, x)
      | .ok (some (t, e)) =>
        let (adapter, answer) := H.prepareCancel x.adapter sendId
        let x := { x with adapter := adapter }
        let rolledBack := { x with sends := t.rollbackPreparedEffectLocked e }
        if answer.status ≠ .accepted then rolledBack.adapterFailureOutcome P answer.status
        else if answer.ticketValid = false then (.fatal, rolledBack)
        else x.stagePrepared t e (.cancel e sendId)

/-! ## Assignments -/

/-- `scxml_assign_apply_with_system`. -/
def Exec.assignApply (view : ScopeView) (env : Surroundings M) (a : Assignment M)
    (x : Exec M H cfg) : Exec M H cfg × Bool :=
  match a.destination with
  | .readOnlySystem => (x, false)
  | .invalid => (x, false)
  | .mutable location =>
    if M.bound location x.late = false then (x, false)
    else
      match a.source.value (x.reading env view x.stateRead) with
      | none => (x, false)
      | some value =>
        let (root, stored) := M.store location value x.stateRead
        (x.overwriteState root, stored)
  | .supplemental slot path =>
    match a.source.value (x.reading env view x.stateRead) with
    | none => (x, false)
    | some value =>
      match x.scope view slot with
      | none => (x, false)
      | some object =>
        let (object, stored) := M.storeSlot path value object
        (x.writeScope view (.slot slot object), stored)

def Initializer.result (i : Initializer M) (r : M.Read) : M.Root × Bool :=
  match i.source with
  | .external data => M.loadExternal data r.root
  | .assign source =>
    if M.bound i.location r.late = false then (r.root, false)
    else
      match source.value r with
      | none => (r.root, false)
      | some value => M.store i.location value r.root

/-- One round of `apply_data_initializers`. -/
def Exec.applyInitializer (view : ScopeView) (env : Surroundings M) (i : Initializer M)
    (x : Exec M H cfg) : Exec M H cfg × Bool :=
  let (root, stored) := i.result (x.reading env view x.stateRead)
  if stored then (x.overwriteState root, true) else (x, false)

/-- `apply_data_initializers`. -/
def Exec.applyDataInitializers (view : ScopeView) (env : Surroundings M) :
    List (Initializer M) → Exec M H cfg → Outcome × Exec M H cfg
  | [], x => (.continue, x)
  | i :: rest, x =>
    if i.overridden then x.applyDataInitializers view env rest
    else
      match x.applyInitializer view env i with
      | (x, true) => x.applyDataInitializers view env rest
      | (x, false) =>
        match x.raiseError P.executionErrorEvent with
        | (.blockAborted, x) => x.applyDataInitializers view env rest
        | (_, x) => (.fatal, x)

def Exec.lateInitialize (view : ScopeView) (env : Surroundings M) (index : ℕ)
    (initializers : List (Initializer M)) (x : Exec M H cfg) : Outcome × Exec M H cfg :=
  match x.late index with
  | .done => (.continue, x)
  | .pending => (.fatal, x)
  | .never =>
    let x := { x with late := update x.late index .pending }
    if x.lateTicketPending then x.stateGet.applyDataInitializers P view env initializers
    else
      match { x with lateTicketPending := true }.stageEffect .lateInitializer with
      | none => (.fatal, { x with late := update x.late index .never })
      | some x => x.stateGet.applyDataInitializers P view env initializers

/-! ## Foreach -/

def ForeachTarget.isBound (late : ℕ → LatePhase) : ForeachTarget M → Bool
  | .cmeta location => M.bound location late
  | .supplemental _ => true

def Exec.writeItem (view : ScopeView) (object : M.Object) (x : Exec M H cfg) :
    ForeachTarget M → Exec M H cfg × Bool
  | .cmeta location =>
    match M.putItem location object x.stateRead with
    | none => (x, false)
    | some root => (x.overwriteState root, true)
  | .supplemental slot =>
    if M.slotAdmits slot object then (x.writeScope view (.slot slot object), true) else (x, false)

def Exec.writeIndex (view : ScopeView) (iteration : ℕ) (x : Exec M H cfg) :
    ForeachTarget M → Exec M H cfg × Bool
  | .cmeta location => (x.overwriteState (M.putIndex location iteration x.stateRead), true)
  | .supplemental slot =>
    if M.slotAdmits slot (M.indexObject iteration) then
      (x.writeScope view (.slot slot (M.indexObject iteration)), true)
    else (x, false)

def ForeachProgram.open (p : ForeachProgram M) (root : M.Root) (late : ℕ → LatePhase) :
    Option (List M.Object) :=
  if p.itemLocationValid then
    (M.sequenceOpen p.sequence root late).filter fun elements => elements.length ≤ p.maxIterations
  else none

def ForeachProgram.next (p : ForeachProgram M) (view : ScopeView) (iteration : ℕ)
    (object : M.Object) (x : Exec M H cfg) : Exec M H cfg × Bool :=
  if p.item.isBound x.late = false ∨ (p.index.all (ForeachTarget.isBound x.late)) = false then
    (x, false)
  else
    match x.writeItem view object p.item with
    | (x, false) => (x, false)
    | (x, true) =>
      match p.index with
      | none => (x, true)
      | some index => x.writeIndex view iteration index

/-- The loop of `SCXML_STEP_FOREACH`. -/
def ForeachProgram.iterate (p : ForeachProgram M) (view : ScopeView)
    (body : Exec M H cfg → Outcome × Exec M H cfg) :
    ℕ → List M.Object → Exec M H cfg → Outcome × Exec M H cfg
  | _, [], x => (.continue, x)
  | iteration, object :: rest, x =>
    match p.next view iteration object x with
    | (x, false) => x.raiseError P.executionErrorEvent
    | (x, true) => andThen (body x) (p.iterate view body (iteration + 1) rest)

/-! ## The executor -/

def Condition.evaluate : Condition M → Option Bool
  | .unconditional => some true
  | .inState state => some (r.active state)
  | .expression e => M.evaluateCondition e r

/-- `SCXML_STEP_SCRIPT`. -/
def Exec.script (s : M.Script) (x : Exec M H cfg) : Outcome × Exec M H cfg :=
  let x := x.stateGet
  match M.executeScript s (x.reading env .staged x.stateRead) with
  | none => x.raiseError P.executionErrorEvent
  | some (scope, published) =>
    let x := x.writeScope .staged (.replace scope)
    match published with
    | none => x.raiseError P.executionErrorEvent
    | some root => (.continue, x.overwriteState root)

mutual

/-- One round of the loop of `execute_scxml_range`. -/
def executeStep (c : Context) (env : Surroundings M) (abortConditionError : Bool) :
    Step M → Exec M H cfg → Outcome × Exec M H cfg
  | .raise event, x =>
    match x.raiseInternal ⟨event, none⟩ with
    | none => (.fatal, x)
    | some x => (.continue, x)
  | .send descriptor, x => x.executeSend P c env descriptor
  | .cancel descriptor, x => x.executeCancel P c env descriptor
  | .log _, x => (.continue, x)
  | .script script, x => x.script P env script
  | .customAction action, x =>
    if M.executeAction action (x.reading env c.supplemental x.stateRead) then (.continue, x)
    else x.raiseError P.executionErrorEvent
  | .assign assignment, x =>
    match x.stateGet.assignApply c.supplemental env assignment with
    | (x, true) => (.continue, x)
    | (x, false) => x.raiseError P.executionErrorEvent
  | .earlyInitialize initializers, x =>
    x.stateGet.applyDataInitializers P c.supplemental { env with active := fun _ => false }
      initializers
  | .lateInitialize index initializers, x =>
    x.lateInitialize P c.supplemental env index initializers
  | .foreach program body, x =>
    let x := x.stateGet
    match program.open x.stateRead x.late with
    | none => x.raiseError P.executionErrorEvent
    | some elements =>
      program.iterate P c.supplemental (executeSteps c env true body) 0 elements x
  | .conditional branches, x => executeBranches c env abortConditionError branches x

/-- `execute_scxml_range` over a span. -/
def executeSteps (c : Context) (env : Surroundings M) (abortConditionError : Bool) :
    Steps M → Exec M H cfg → Outcome × Exec M H cfg
  | .nil, x => (.continue, x)
  | .cons step rest, x =>
    andThen (executeStep c env abortConditionError step x)
      (executeSteps c env abortConditionError rest)

def executeBranches (c : Context) (env : Surroundings M) (abortConditionError : Bool) :
    Branches M → Exec M H cfg → Outcome × Exec M H cfg
  | .nil, x => (.continue, x)
  | .cons condition body rest, x =>
    match condition.evaluate (x.reading env c.supplemental x.stateRead) with
    | some true => executeSteps c env abortConditionError body x
    | some false => executeBranches c env abortConditionError rest x
    | none =>
      match x.raiseError P.executionErrorEvent with
      | (.blockAborted, x) =>
        if abortConditionError then (.blockAborted, x)
        else executeBranches c env abortConditionError rest { x with strained := true }
      | stopped => stopped

end

end TurboScxml.Session
