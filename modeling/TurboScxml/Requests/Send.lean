import TurboScxml.Requests.Views

/-!
# Send and invoke requests with borrowed fields

`execute_send` and the round of `start_pending_invocations` for one row, both of `scxml_runtime.c`,
up to the call of `prepare_send` or `prepare_start`. The strings of a request are views.

* `Content`, `Payload`, `SendRequest`, `StartRequest`: over any representation of strings;
* `SendDescriptor.materialize`, `executeSend`: the fields in the order of their evaluation, the id
  location, and the dispatch to the internal queue or to the Event I/O adapter;
* `Request.denote`: what the fields show in a memory.
-/

namespace TurboScxml.Requests

variable (M : DataModel)

/-! ## Descriptors and requests -/

/-- `scxml_content_view`, over strings `S` and objects `O`. -/
inductive Content (S O : Type)
  | scalar (value : Datum M.Real S)
  | textUtf8 (bytes : Text)
  | xmlUtf8 (bytes : Text)
  | cmeta (object : O)

/-- `scxml_payload_view`. -/
inductive Payload (S O : Type)
  | none
  | content (content : Content M S O)
  | named (entries : List (Text × Datum M.Real S))

structure SendRequest (S O : Type) where
  event : S
  target : S
  type : S
  id : S
  delayMs : ℕ
  payload : Payload M S O

/-- `scxml_invoke_start_request`. -/
structure StartRequest (S O : Type) where
  token : ℕ
  id : S
  type : S
  src : S
  autoforward : Bool
  payload : Payload M S O

/-- `scxml_content_descriptor`. -/
inductive ContentDescriptor
  | invalid
  | scalar (expression : ExprProgram M)
  | textUtf8 (bytes : Text)
  | xmlUtf8 (bytes : Text)
  | cmeta (object : M.Object)

abbrev DelayProgram := M.Root → SystemValues M → Option (ℤ ⊕ ℕ)

/-- `scxml_effect_descriptor` of a `<send>`. -/
structure SendDescriptor where
  eventId : ℕ
  event : Text
  eventExpr : Option (ExprProgram M)
  target : Text
  internalTarget : Bool
  targetExpr : Option (ExprProgram M)
  type : Text
  typeExpr : Option (ExprProgram M)
  delayMs : ℕ
  delayExpr : Option (DelayProgram M)
  content : ContentDescriptor M
  payload : List (Text × ExprProgram M)
  internalAssignments : List (M.Location × ExprProgram M)
  id : Text
  idLocation : Option M.Location

/-- `scxml_invocation_descriptor`. -/
structure InvokeDescriptor where
  id : Text
  ownerIdSize : ℕ
  dynamicIdMaxSize : ℕ
  idLocation : Option M.Location
  type : Text
  typeExpr : Option (ExprProgram M)
  src : Text
  srcExpr : Option (ExprProgram M)
  content : ContentDescriptor M
  payload : List (Text × ExprProgram M)
  autoforward : Bool

/-- What the two functions read of a session and of its program. -/
structure Session where
  /-- `session != NULL`: a block that is bound to its program runs without a session. -/
  present : Bool
  sessionId : Text
  defaultType : Text
  /-- `scxml_program_find_name` over the event names. -/
  eventName : Text → Option ℕ
  hasEventIo : Bool
  tagged : Bool
  metadataRowFree : Bool

def Session.takesTagged (session : Session) : Bool := session.present && session.tagged

def Session.sends (session : Session) : Bool := session.present && session.hasEventIo

variable {M}

def Datum.string? {Real S : Type} : Datum Real S → Option S
  | .scalar _ => none
  | .string text => some text

/-! ## The fields of a send -/

def internalTargets : List Text :=
  [['#', '_', 'i', 'n', 't', 'e', 'r', 'n', 'a', 'l'],
    ['_', 'i', 'n', 't', 'e', 'r', 'n', 'a', 'l']]

/-- The view, and the text that is looked at right away. -/
def ExprProgram.evaluateString (system : SystemValues M) (m : Memory M) (p : ExprProgram M) :
    Option ((View M × Text) × Memory M) := do
  let (d, m) ← p.evaluate system m
  let view ← d.string?
  let text ← m.denote view
  some ((view, text), m)

variable (session : Session) (system : SystemValues M) (d : SendDescriptor M) (m : Memory M)

/-- The event of a `<send>`. -/
def SendDescriptor.materializeEvent : Option ((ℕ × View M) × Memory M) :=
  match d.eventExpr with
  | none => some ((d.eventId, .constant d.event), m)
  | some p =>
    if session.present then do
      let ((view, text), m) ← p.evaluateString system m
      let id ← (session.eventName text).filter fun _ => M.nmtoken text
      some ((id, view), m)
    else none

def SendDescriptor.materializeTarget : Option ((View M × Bool) × Memory M) :=
  match d.targetExpr with
  | none => some ((.constant d.target, d.internalTarget), m)
  | some p => do
    let ((view, text), m) ← p.evaluateString system m
    some ((view, internalTargets.contains text), m)

def SendDescriptor.materializeType : Option (View M × Memory M) :=
  match d.typeExpr with
  | none => some (.constant (if d.type = [] then session.defaultType else d.type), m)
  | some p => do
    let ((view, _), m) ← p.evaluateString system m
    if view.size = 0 then none else some (view, m)

def SendDescriptor.materializeDelay : Option ℕ :=
  match d.delayExpr with
  | none => some d.delayMs
  | some p => (p m.root system).bind fun
    | .inl sint => if sint < 0 then none else some sint.toNat
    | .inr uint => some uint

/-- `scxml_runtime_materialize_content_descriptor`. -/
def ContentDescriptor.materialize :
    ContentDescriptor M → Option (Option (Content M (View M) M.Object) × Memory M)
  | .invalid => some (none, m)
  | .scalar p => (p.evaluate system m).map fun result => (some (.scalar result.1), result.2)
  | .textUtf8 bytes => some (some (.textUtf8 bytes), m)
  | .xmlUtf8 bytes => some (some (.xmlUtf8 bytes), m)
  | .cmeta object => if system.objectBound object then some (some (.cmeta object), m) else none

/-- `materialize_effect_named_payload`. -/
def materializeNamed : List (Text × ExprProgram M) → Memory M →
    Option (List (Text × Datum M.Real (View M)) × Memory M)
  | [], m => some ([], m)
  | (name, p) :: rest, m => do
    let (d, m) ← p.evaluate system m
    let (entries, m) ← materializeNamed rest m
    some ((name, d) :: entries, m)

def materializePayload (payload : List (Text × ExprProgram M))
    (content : Option (Content M (View M) M.Object)) (m : Memory M) :
    Option (Payload M (View M) M.Object × Memory M) :=
  if payload = [] then some (content.elim .none .content, m)
  else (materializeNamed system payload m).map fun result => (.named result.1, result.2)

/-- The payload of a `<send>`; the entries of a named one lie in the session. -/
def SendDescriptor.materializePayload (d : SendDescriptor M) (internalTarget : Bool)
    (content : Option (Content M (View M) M.Object)) (m : Memory M) :
    Option (Payload M (View M) M.Object × Memory M) :=
  if internalTarget then some (.none, m)
  else if session.present || d.payload.isEmpty then
    Requests.materializePayload system d.payload content m
  else none

variable (M) in
/-- The fields of a `<send>`. -/
structure Materialized where
  eventId : ℕ
  event : View M
  target : View M
  internalTarget : Bool
  type : View M
  delayMs : ℕ
  content : Option (Content M (View M) M.Object)
  payload : Payload M (View M) M.Object

/-- `execute_send` up to the id location. -/
def SendDescriptor.materialize (d : SendDescriptor M) (m : Memory M) :
    Option (Materialized M × Memory M) := do
  let ((eventId, event), m) ← d.materializeEvent session system m
  let ((target, internalTarget), m) ← d.materializeTarget system m
  let (type, m) ← d.materializeType session system m
  let delayMs ← d.materializeDelay system m
  let (content, m) ← d.content.materialize system m
  let (payload, m) ← d.materializePayload session system internalTarget content m
  if content.isSome && internalTarget && delayMs != 0 then none
  else some (⟨eventId, event, target, internalTarget, type, delayMs, content, payload⟩, m)

def sendIdPrefix : Text := ['s', 'e', 'n', 'd', '.']

def Memory.generatedSendId (m : Memory M) : Text :=
  sendIdPrefix ++ session.sessionId ++ ['.'] ++ M.decimal m.nextSendToken

def Memory.takeSendToken (m : Memory M) : Memory M :=
  { m with nextSendToken := if m.nextSendToken = uint64Max then 0 else m.nextSendToken + 1 }

def materializeSendIdLocation (d : SendDescriptor M) (m : Memory M) : Memory M × Option (View M) :=
  match d.idLocation with
  | none => (m, some (.constant d.id))
  | some location =>
    let id := m.generatedSendId session
    if session.present = false ∨ system.bound location = false ∨ m.nextSendToken = 0 ∨
        eventMetadataCapacity < id.length then
      (m, none)
    else if M.assigns id then
      (m.takeSendToken.assignOwnedString location id, some (.constant id))
    else (m.takeSendToken.assignOwnedString location [], none)

/-! ## The dispatch -/

variable (M) in
/-- The content part of an internal event. -/
inductive AttachedContent
  | text (text : Option Text)
  | object (root : M.Root)

variable (M) in
structure EventData where
  content : Option (AttachedContent M)
  fields : Option M.Root

def Content.attach (m : Memory M) : Content M (View M) M.Object → Option (AttachedContent M)
  | .scalar (.scalar value) =>
    if (M.printed value).length ≤ eventMetadataCapacity then some (.text (M.printed value))
    else none
  | .scalar (.string view) =>
    if view.size ≤ eventMetadataCapacity then some (.text (m.denote view)) else none
  | .textUtf8 bytes | .xmlUtf8 bytes =>
    if bytes.length ≤ eventMetadataCapacity then some (.text bytes) else none
  | .cmeta object => if M.isRoot object then (M.copyData m.root).map .object else none

def applyInternalAssignments (root : M.Root) :
    List (M.Location × ExprProgram M) → M.Root → Option M.Root
  | [], data => some data
  | (location, source) :: rest, data => do
    let value ← source.value system 0 root
    let data ← M.store location value data
    applyInternalAssignments root rest data

def SendDescriptor.internalFields (d : SendDescriptor M) (m : Memory M) : Option M.Root :=
  if d.internalAssignments.length ≠ d.payload.length then none
  else (M.copyData m.root).bind (applyInternalAssignments system m.root d.internalAssignments)

def SendDescriptor.internalData (d : SendDescriptor M)
    (content : Option (Content M (View M) M.Object)) (m : Memory M) : Option (EventData M) :=
  (content.elim (some none) fun c => (c.attach m).map some).bind fun attached =>
    (if d.payload = [] then some none else (d.internalFields system m).map some).map fun fields =>
      ⟨attached, fields⟩

variable (M) in
/-- How `execute_send` ends. -/
inductive SendOutcome
  | raise (event : ℕ) (data : Option (EventData M))
  | request (request : SendRequest M (View M) M.Object)
  | errorExecution
  | fatal

/-- An immediate `<send>` to the session itself. -/
def SendDescriptor.sendInternal (d : SendDescriptor M) (x : Materialized M) (m : Memory M) :
    SendOutcome M :=
  if x.content.isNone ∧ d.payload = [] then .raise x.eventId none
  else if session.takesTagged = false then .fatal
  else if session.metadataRowFree = false then .errorExecution
  else
    match d.internalData system x.content m with
    | none => .errorExecution
    | some data => .raise x.eventId (some data)

/-- The rest of `execute_send` after the id location. -/
def SendDescriptor.dispatch (d : SendDescriptor M) (x : Materialized M) (id : View M)
    (m : Memory M) : SendOutcome M :=
  if x.internalTarget = true ∧ x.delayMs = 0 then d.sendInternal session system x m
  else if session.sends = false then .fatal
  else .request ⟨x.event, x.target, x.type, id, x.delayMs, x.payload⟩

/-- `execute_send` up to the call of `prepare_send`. -/
def executeSend (d : SendDescriptor M) (m : Memory M) : SendOutcome M × Memory M :=
  match d.materialize session system m with
  | none => (.errorExecution, m)
  | some (x, m) =>
    match materializeSendIdLocation session system d m with
    | (m, none) => (.errorExecution, m)
    | (m, some id) => (d.dispatch session system x id m, m)

/-! ## Invocations -/

def materializeInvocationString (literal : Text) (expression : Option (ExprProgram M))
    (m : Memory M) : Option (View M × Memory M) :=
  match expression with
  | none => some (.constant literal, m)
  | some p => do
    let ((view, _), m) ← p.evaluateString system m
    if view.size = 0 then none else some (view, m)

variable (d : InvokeDescriptor M)

def InvokeDescriptor.requestId (token : ℕ) : Text :=
  if d.idLocation.isSome then d.id.take d.ownerIdSize ++ ['.'] ++ M.decimal token else d.id

/-- The id is written before any expression is evaluated. One that is too long fails the session,
and one that cannot be written raises `error.execution`. -/
def InvokeDescriptor.writeIdLocation (token : ℕ) (m : Memory M) : Option (Memory M) :=
  match d.idLocation with
  | none => some m
  | some location =>
    let id := d.requestId token
    if eventMetadataCapacity < id.length ∨ d.dynamicIdMaxSize < id.length then none
    else if system.bound location && M.assigns id then some (m.assignOwnedString location id)
    else none

def InvokeDescriptor.materializePayload (m : Memory M) :
    Option (Payload M (View M) M.Object × Memory M) :=
  match d.content with
  | .invalid => Requests.materializePayload system d.payload none m
  | content =>
    (content.materialize system m).map fun result => (result.1.elim .none .content, result.2)

/-- The round of `start_pending_invocations` for one row. -/
def startInvocation (token : ℕ) (m : Memory M) :
    Option (StartRequest M (View M) M.Object × Memory M) := do
  let m ← d.writeIdLocation system token m
  let (type, m) ← materializeInvocationString system d.type d.typeExpr m
  let (src, m) ← materializeInvocationString system d.src d.srcExpr m
  let (payload, m) ← d.materializePayload system m
  some (⟨token, .constant (d.requestId token), type, src, d.autoforward, payload⟩, m)

/-! ## What requests show -/

variable (M) in
abbrev ObjectValue := List (Datum M.Real Text)

def Memory.object (m : Memory M) (object : M.Object) : ObjectValue M :=
  (M.leaves object).map m.root

variable (m : Memory M)

def Datum.denote : Datum M.Real (View M) → Option (Datum M.Real Text)
  | .scalar value => some (.scalar value)
  | .string view => (m.denote view).map .string

def Content.denote : Content M (View M) M.Object → Option (Content M Text (ObjectValue M))
  | .scalar value => (value.denote m).map .scalar
  | .textUtf8 bytes => some (.textUtf8 bytes)
  | .xmlUtf8 bytes => some (.xmlUtf8 bytes)
  | .cmeta object => some (.cmeta (m.object object))

def denoteEntries (m : Memory M) :
    List (Text × Datum M.Real (View M)) → Option (List (Text × Datum M.Real Text))
  | [] => some []
  | (name, value) :: rest => do
    let value ← value.denote m
    let rest ← denoteEntries m rest
    some ((name, value) :: rest)

def Payload.denote : Payload M (View M) M.Object → Option (Payload M Text (ObjectValue M))
  | .none => some .none
  | .content c => (c.denote m).map .content
  | .named entries => (denoteEntries m entries).map .named

def SendRequest.denote (r : SendRequest M (View M) M.Object) :
    Option (SendRequest M Text (ObjectValue M)) := do
  let event ← m.denote r.event
  let target ← m.denote r.target
  let type ← m.denote r.type
  let id ← m.denote r.id
  let payload ← r.payload.denote m
  some ⟨event, target, type, id, r.delayMs, payload⟩

def StartRequest.denote (r : StartRequest M (View M) M.Object) :
    Option (StartRequest M Text (ObjectValue M)) := do
  let id ← m.denote r.id
  let type ← m.denote r.type
  let src ← m.denote r.src
  let payload ← r.payload.denote m
  some ⟨r.token, id, type, src, r.autoforward, payload⟩

end TurboScxml.Requests
