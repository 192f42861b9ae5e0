import Mathlib.Algebra.Group.Nat.Defs
import Mathlib.Data.Int.Notation
import Mathlib.Tactic.SplitIfs
import TurboScxml.Basic

/-!
# Actions of a CCXML transition

`ccxml_internal.h` and the parts of `ccxml_session.c` that turn an action into a request.

* `ActionRow`, `TransitionRow`, `Program`: the compiled program, as far as transitions run it;
* `Replies`: what the adapters, the datamodel and the allocator answer during one action;
* `planOf`: the request of an action and whether its identifier is assigned to a location.
-/

namespace TurboScxml.Ccxml

/-! ## Data -/

inductive Status
  | ok | invalidArgument | xmlError | allocationFailed | limitExceeded | invalidNamespace
  | invalidVersion | invalidStructure | unsupportedFeature | invalidEvent | adapterError
  | invalidContract | closed | busy
  deriving DecidableEq

inductive AdapterStatus
  | accepted | errorExecution | errorCommunication | full | closed | invalidContract
  deriving DecidableEq

inductive ExprStatus
  | ok | invalidArgument | syntaxError | unknownLocation | typeMismatch | limitExceeded
  | allocationFailed | evaluationError
  deriving DecidableEq

inductive ActionKind
  | accept | exit | createCall | disconnect | reject | redirect | join | unjoin | merge
  | createConference | destroyConference | dialogPrepare | dialogStart | preparedDialogStart
  | dialogTerminate | assignString | send | cancel | «if» | elseif | «else» | endif | foreach
  | endforeach
  deriving DecidableEq

/-- `ccxml_send_delay_kind`. -/
inductive DelayKind
  | literal | location | expression
  deriving DecidableEq

/-- `ccxml_action_row`. -/
structure ActionRow where
  kind : ActionKind
  destination : Text
  id1 : Text
  id2 : Text
  /-- `none` is a null pointer. -/
  location : Option Text
  name : Text
  targetType : Text
  delay : Text
  delayMs : ℕ
  destinationIsDynamic : Bool
  nameIsDynamic : Bool
  targetTypeIsDynamic : Bool
  delayKind : DelayKind
  branchNext : ℕ
  blockEnd : ℕ
  payloadFirst : ℕ
  payloadCount : ℕ
  deriving DecidableEq

/-- `ccxml_transition_row`. -/
structure TransitionRow where
  firstAction : ℕ
  actionCount : ℕ
  deriving DecidableEq

/-- `ccxml_program_impl` and what `ccxml_session_init` derives from it. -/
structure Program where
  actions : ℕ → ActionRow
  actionCount : ℕ
  transitions : List TransitionRow
  within : ∀ t ∈ transitions, t.firstAction + t.actionCount ≤ actionCount
  payloads : ℕ → Text
  payloadCount : ℕ
  maxNameBytes : ℕ
  usesForeach : Bool
  ticketCapacity : ℕ
  payloadScratchCapacity : ℕ
  conditionalFrameCapacity : ℕ
  sendNamespace : Text

structure Event where
  name : Text
  /-- `none` is a null pointer. -/
  connectionId : Option Text
  deriving DecidableEq

/-- `scxml_content_view`. -/
inductive Content
  | bool (b : Bool)
  | sint (v : ℤ)
  | uint (v : ℕ)
  | float (whole : Option ℕ)
  | string (valid : Bool)
  | scalar
  | cmeta (valid : Bool)
  | other
  deriving DecidableEq

/-- What a string expression or `read_string` gives. -/
structure StringReply where
  status : AdapterStatus
  value : Text
  deriving DecidableEq

/-- What `read_payload` gives. -/
structure PayloadReply where
  status : AdapterStatus
  content : Content
  deriving DecidableEq

structure TicketReply where
  status : AdapterStatus
  commit : Bool
  discard : Bool
  deriving DecidableEq

structure Replies (σ : Type) where
  condition : AdapterStatus
  conditionValue : Bool
  destination : StringReply
  name : StringReply
  targetType : StringReply
  delay : StringReply
  readString : StringReply
  readDelay : PayloadReply
  readPayload : ℕ → PayloadReply
  nameAllocated : Bool
  typeAllocated : Bool
  provider : TicketReply
  providerId : Text
  assign : TicketReply
  scopesValid : Bool
  stagedCopied : Bool
  checkpointCopied : Bool
  foreachOpen : ExprStatus
  foreachLength : ℕ
  foreachValue : ExprStatus
  foreachNext : ExprStatus
  /-- After `scxml_foreach_next_with_system`. -/
  foreachScope : σ
  stageAvailable : Bool
  stageAccepted : Bool

/-! ## Requests -/

inductive Request
  | assign (location value : Text)
  | send (event target type : Text) (delayMs : ℕ) (payload : List (Text × Content)) (id : Text)
  | cancel (sendId : Text)
  | accept (connection : Text)
  | createCall (destination : Text)
  | disconnect (connection : Text)
  | reject (connection : Text)
  | redirect (connection destination : Text)
  | join (id1 id2 : Text)
  | unjoin (id1 id2 : Text)
  | merge (id1 id2 : Text)
  | createConference (name : Text)
  | destroyConference (id : Text)
  | dialogPrepare (source mediaType : Text)
  | dialogStart (source mediaType connection : Text)
  | preparedDialogStart (dialog connection : Text)
  | dialogTerminate (dialog : Text)
  deriving DecidableEq

inductive Plan
  | single (request : Request)
  | paired (request : Request) (location : Text) (id : Except Status Text)

def evaluateStringExpression (r : StringReply) : Except Status Text :=
  match r.status with
  | .accepted =>
    if r.value = [] ∨ '\x00' ∈ r.value then .error .invalidContract else .ok r.value
  | .full => .error .allocationFailed
  | .invalidContract => .error .invalidContract
  | _ => .error .adapterError

def payloadFailureStatus : AdapterStatus → Status
  | .accepted => .invalidContract
  | .invalidContract => .invalidContract
  | .full => .allocationFailed
  | _ => .adapterError

def readDelayMilliseconds : Content → Except Status ℕ
  | .sint v => if v < 0 then .error .invalidContract else .ok v.toNat
  | .uint v => .ok v
  | .float (some whole) => .ok whole
  | _ => .error .invalidContract

def Content.valid : Content → Bool
  | .bool _ => true
  | .sint _ => true
  | .uint _ => true
  | .float _ => true
  | .string valid => valid
  | .scalar => false
  | .cmeta valid => valid
  | .other => false

/-- The variables of `scxml_time_parse_ms`. -/
structure TimeScan where
  dot : Bool
  fractionDigits : ℕ
  digitCount : ℕ
  whole : ℕ
  fraction : ℕ
  deriving DecidableEq

/-- The loop of `scxml_time_parse_ms`. -/
def scanTime (seconds : Bool) : TimeScan → Text → Option TimeScan
  | scan, [] => some scan
  | scan, c :: rest =>
    if c = '.' then
      if seconds = false ∨ scan.dot = true ∨ rest = [] then none
      else scanTime seconds { scan with dot := true } rest
    else if ¬ c.isDigit then none
    else
      let digit := c.toNat - '0'.toNat
      if scan.dot = false then
        if (uint64Max - digit) / 10 < scan.whole then none
        else scanTime seconds
          { scan with digitCount := scan.digitCount + 1, whole := scan.whole * 10 + digit } rest
      else if 3 < scan.fractionDigits + 1 then none
      else scanTime seconds
        { scan with
          digitCount := scan.digitCount + 1
          fractionDigits := scan.fractionDigits + 1
          fraction := scan.fraction * 10 + digit } rest

def TimeScan.milliseconds (seconds : Bool) (scan : TimeScan) : Option ℕ :=
  if scan.digitCount = 0 then none
  else if seconds = false then some scan.whole
  else
    let fraction := scan.fraction * 10 ^ (3 - scan.fractionDigits)
    if uint64Max / 1000 < scan.whole then none
    else if uint64Max - fraction < scan.whole * 1000 then none
    else some (scan.whole * 1000 + fraction)

def parseTimeNumber (seconds : Bool) (number : Text) : Option ℕ :=
  if number = [] ∨ number = ['+'] then none
  else
    (scanTime seconds ⟨false, 0, 0, 0, 0⟩
      (if number.head? = some '+' then number.tail else number)).bind (·.milliseconds seconds)

def parseTimeMs (value : Text) : Option ℕ :=
  if value.length < 2 then none
  else if 3 ≤ value.length ∧ value.drop (value.length - 2) = ['m', 's'] then
    parseTimeNumber false (value.take (value.length - 2))
  else if value.getLast? = some 's' then parseTimeNumber true (value.take (value.length - 1))
  else none

def sendEventNameValid : Text → Bool
  | [] => false
  | c :: rest =>
    (c.isAlpha || c == '_') && rest.all fun c => c.isAlpha || c.isDigit || c == '_' || c == '.'

def Event.connectionIdValid (event : Event) : Except Status Text :=
  match event.connectionId with
  | none => .error .invalidEvent
  | some id => if id = [] ∨ '\x00' ∈ id then .error .invalidEvent else .ok id

/-- The check of `ccxml_accept_request`. -/
def Event.acceptConnection (event : Event) : Except Status Text :=
  match event.connectionId with
  | none => .error .invalidEvent
  | some id => if id = [] then .error .invalidEvent else .ok id

def identifierValid (id : Text) : Except Status Text :=
  if id = [] ∨ '\x00' ∈ id then .error .invalidContract else .ok id

section Plans

variable {σ : Type} (program : Program) (action : ActionRow) (event : Event) (replies : Replies σ)

def destinationOf : Except Status Text :=
  if action.destinationIsDynamic then evaluateStringExpression replies.destination
  else .ok action.destination

/-! ### Send -/

def sendDelay : Except Status ℕ :=
  match action.delayKind with
  | .literal => .ok action.delayMs
  | .location =>
    if replies.readDelay.status ≠ .accepted then
      .error (payloadFailureStatus replies.readDelay.status)
    else readDelayMilliseconds replies.readDelay.content
  | .expression =>
    (evaluateStringExpression replies.delay).bind fun delay =>
      match parseTimeMs delay with
      | none => .error .invalidContract
      | some ms => .ok ms

def sendEntry (k : ℕ) : Except Status (Text × Content) :=
  let reply := replies.readPayload k
  if reply.status ≠ .accepted then .error (payloadFailureStatus reply.status)
  else if reply.content.valid = false then .error .invalidContract
  else .ok (program.payloads (action.payloadFirst + k), reply.content)

def sendPayload : Except Status (List (Text × Content)) :=
  if action.payloadCount = 0 then .ok []
  else if program.payloadCount < action.payloadFirst ∨
      program.payloadCount - action.payloadFirst < action.payloadCount ∨
      program.payloadScratchCapacity < action.payloadCount then .error .invalidContract
  else (List.range action.payloadCount).mapM (sendEntry program action replies)

def sendName : Except Status Text :=
  if action.nameIsDynamic then
    (evaluateStringExpression replies.name).bind fun name =>
      if program.maxNameBytes < name.length then .error .limitExceeded
      else if sendEventNameValid name = false then .error .invalidContract
      else if replies.nameAllocated = false then .error .allocationFailed
      else .ok name
  else .ok action.name

def sendType : Except Status Text :=
  if action.targetTypeIsDynamic then
    (evaluateStringExpression replies.targetType).bind fun type =>
      if program.maxNameBytes < type.length then .error .limitExceeded
      else if replies.typeAllocated = false then .error .allocationFailed
      else .ok type
  else .ok action.targetType

def sendIdentifier (token : ℕ) : Except Status (Option Text) :=
  match action.location with
  | none => .ok none
  | some _ =>
    let id := "send.".toList ++ program.sendNamespace ++ '.' :: (toString token).toList
    if token = 0 then .error .limitExceeded
    else if eventMetadataCapacity < id.length then .error .invalidContract
    else .ok (some id)

def sendPlan (token : ℕ) : Except Status Plan := do
  let delayMs ← sendDelay action replies
  let payload ← sendPayload program action replies
  let name ← sendName program action replies
  let type ← sendType program action replies
  let target ← destinationOf action replies
  let id ← sendIdentifier program action token
  let request := Request.send name target type delayMs payload (id.getD [])
  pure (match action.location, id with
    | some location, some id => .paired request location (.ok id)
    | _, _ => .single request)

/-! ### The other actions -/

def readLocation (invalid : Status) : Except Status Text :=
  match replies.readString.status with
  | .accepted => .ok replies.readString.value
  | .invalidContract => .error invalid
  | _ => .error .adapterError

def storedIdentifier (invalid : Status) : Except Status Text :=
  match action.location with
  | none => .ok action.id1
  | some _ => readLocation replies invalid

def cancelIdentifier : Except Status Text :=
  (if action.destinationIsDynamic then evaluateStringExpression replies.destination
    else storedIdentifier action replies .invalidContract).bind fun id =>
      if eventMetadataCapacity < id.length then .error .invalidContract else identifierValid id

def pairedPlan (request : Request) : Plan :=
  .paired request (action.location.getD []) (identifierValid replies.providerId)

def voiceXmlMediaType : Text := "application/voicexml+xml".toList

def planOf (token : ℕ) : Option (Except Status Plan) :=
  match action.kind with
  | .assignString =>
    some (.ok (.single (.assign (action.location.getD []) action.destination)))
  | .send => some (sendPlan program action replies token)
  | .cancel => some ((cancelIdentifier action replies).map fun id => .single (.cancel id))
  | .accept => some (event.acceptConnection.map fun id => .single (.accept id))
  | .createCall =>
    some ((destinationOf action replies).map fun destination => .single (.createCall destination))
  | .disconnect => some (event.connectionIdValid.map fun id => .single (.disconnect id))
  | .reject => some (event.connectionIdValid.map fun id => .single (.reject id))
  | .redirect =>
    some (event.connectionIdValid.bind fun id =>
      (destinationOf action replies).map fun destination => .single (.redirect id destination))
  | .join => some (.ok (.single (.join action.id1 action.id2)))
  | .unjoin => some (.ok (.single (.unjoin action.id1 action.id2)))
  | .merge => some (.ok (.single (.merge action.id1 action.id2)))
  | .createConference =>
    some ((destinationOf action replies).map fun name =>
      pairedPlan action replies (.createConference name))
  | .destroyConference =>
    some (((storedIdentifier action replies .adapterError).bind identifierValid).map fun id =>
      .single (.destroyConference id))
  | .dialogPrepare =>
    some ((destinationOf action replies).map fun source =>
      pairedPlan action replies (.dialogPrepare source voiceXmlMediaType))
  | .dialogStart =>
    some (event.connectionIdValid.bind fun connection =>
      (destinationOf action replies).map fun source =>
        pairedPlan action replies (.dialogStart source voiceXmlMediaType connection))
  | .preparedDialogStart =>
    some (event.connectionIdValid.bind fun connection =>
      ((readLocation replies .adapterError).bind identifierValid).map fun dialog =>
        .single (.preparedDialogStart dialog connection))
  | .dialogTerminate =>
    some (((storedIdentifier action replies .adapterError).bind identifierValid).map fun id =>
      .single (.dialogTerminate id))
  | _ => none

end Plans

/-! ## Failures -/

/-- An evaluation fails, or its result satisfies `P`. -/
def Yields {α : Type} (P : α → Prop) : Except Status α → Prop
  | .ok a => P a
  | .error e => e ≠ .ok

section Yields

variable {α β : Type} {P : α → Prop} {Q : β → Prop}

@[simp] theorem yields_ok (a : α) : Yields P (.ok a) ↔ P a := Iff.rfl

@[simp] theorem yields_error (e : Status) : Yields P (.error e) ↔ e ≠ .ok := Iff.rfl

theorem Yields.bind {x : Except Status α} {f : α → Except Status β} (hx : Yields P x)
    (hf : ∀ a, P a → Yields Q (f a)) : Yields Q (x.bind f) := by
  cases x with
  | error e => exact hx
  | ok a => exact hf a hx

theorem Yields.map {x : Except Status α} {f : α → β} (hx : Yields P x)
    (hf : ∀ a, P a → Q (f a)) : Yields Q (x.map f) := by
  cases x with
  | error e => exact hx
  | ok a => exact hf a hx

theorem Yields.mapM {γ : Type} {f : γ → Except Status α} (hf : ∀ c, Yields (fun _ => True) (f c))
    (l : List γ) : Yields (fun _ => True) (l.mapM f) := by
  induction l with
  | nil => trivial
  | cons c l ih =>
    rw [List.mapM_cons]
    exact (hf c).bind fun a _ => ih.bind fun _ _ => trivial

end Yields

section Evaluations

variable {σ : Type} (program : Program) (action : ActionRow) (event : Event) (replies : Replies σ)

theorem evaluateStringExpression_yields (r : StringReply) :
    Yields (fun _ => True) (evaluateStringExpression r) := by
  unfold evaluateStringExpression
  split
  · split_ifs
    · simp
    · simp
  all_goals simp

theorem payloadFailureStatus_ne (status : AdapterStatus) : payloadFailureStatus status ≠ .ok := by
  cases status <;> decide

theorem destinationOf_yields : Yields (fun _ => True) (destinationOf action replies) := by
  unfold destinationOf
  split_ifs
  · exact evaluateStringExpression_yields _
  · simp

theorem readDelayMilliseconds_yields (content : Content) :
    Yields (fun _ => True) (readDelayMilliseconds content) := by
  unfold readDelayMilliseconds
  split
  · split_ifs
    · simp
    · simp
  · simp
  · simp
  · simp

theorem sendDelay_yields : Yields (fun _ => True) (sendDelay action replies) := by
  unfold sendDelay
  split
  · simp
  · split_ifs
    · exact payloadFailureStatus_ne _
    · exact readDelayMilliseconds_yields _
  · refine (evaluateStringExpression_yields _).bind fun delay _ => ?_
    split
    · simp
    · simp

theorem sendPayload_yields : Yields (fun _ => True) (sendPayload program action replies) := by
  unfold sendPayload
  split_ifs
  · simp
  · simp
  · refine Yields.mapM (fun k => ?_) _
    unfold sendEntry
    dsimp only
    split_ifs
    · exact payloadFailureStatus_ne _
    · simp
    · simp

theorem sendName_yields : Yields (fun _ => True) (sendName program action replies) := by
  unfold sendName
  split
  · refine (evaluateStringExpression_yields _).bind fun name _ => ?_
    split_ifs <;> simp
  · simp

theorem sendType_yields : Yields (fun _ => True) (sendType program action replies) := by
  unfold sendType
  split
  · refine (evaluateStringExpression_yields _).bind fun type _ => ?_
    split_ifs <;> simp
  · simp

theorem sendIdentifier_yields (token : ℕ) :
    Yields (fun _ => True) (sendIdentifier program action token) := by
  unfold sendIdentifier
  split
  · simp
  · dsimp only
    split_ifs <;> simp

theorem identifierValid_yields (id : Text) : Yields (fun _ => True) (identifierValid id) := by
  unfold identifierValid
  split_ifs
  · simp
  · simp

theorem connectionIdValid_yields : Yields (fun _ => True) event.connectionIdValid := by
  unfold Event.connectionIdValid
  split
  · simp
  · split_ifs
    · simp
    · simp

theorem acceptConnection_yields : Yields (fun _ => True) event.acceptConnection := by
  unfold Event.acceptConnection
  split
  · simp
  · split_ifs
    · simp
    · simp

theorem readLocation_yields {invalid : Status} (hinvalid : invalid ≠ .ok) :
    Yields (fun _ => True) (readLocation replies invalid) := by
  unfold readLocation
  split
  · simp
  · exact hinvalid
  · simp

theorem storedIdentifier_yields {invalid : Status} (hinvalid : invalid ≠ .ok) :
    Yields (fun _ => True) (storedIdentifier action replies invalid) := by
  unfold storedIdentifier
  split
  · simp
  · exact readLocation_yields replies hinvalid

theorem cancelIdentifier_yields : Yields (fun _ => True) (cancelIdentifier action replies) := by
  refine Yields.bind (P := fun _ => True) ?_ fun id _ => ?_
  · split_ifs
    · exact evaluateStringExpression_yields _
    · exact storedIdentifier_yields action replies (by decide)
  · split_ifs
    · simp
    · exact identifierValid_yields id

def Plan.IdentifierYields : Plan → Prop
  | .single _ => True
  | .paired _ _ id => Yields (fun _ => True) id

theorem sendPlan_yields (token : ℕ) :
    Yields Plan.IdentifierYields (sendPlan program action replies token) := by
  refine (sendDelay_yields action replies).bind fun delayMs _ => ?_
  refine (sendPayload_yields program action replies).bind fun payload _ => ?_
  refine (sendName_yields program action replies).bind fun name _ => ?_
  refine (sendType_yields program action replies).bind fun type _ => ?_
  refine (destinationOf_yields action replies).bind fun target _ => ?_
  refine (sendIdentifier_yields program action token).bind fun id _ => ?_
  cases action.location <;> cases id <;> trivial

theorem pairedPlan_yields (request : Request) :
    (pairedPlan action replies request).IdentifierYields :=
  identifierValid_yields _

/-- **The evaluation of an action does not fail with success.** -/
theorem planOf_yields {token : ℕ} {plan : Except Status Plan}
    (hplan : planOf program action event replies token = some plan) :
    Yields Plan.IdentifierYields plan := by
  have hadapter : Status.adapterError ≠ .ok := by decide
  have hconnection := connectionIdValid_yields event
  have hdestination := destinationOf_yields action replies
  have hlocation := (readLocation_yields replies hadapter).bind fun id _ =>
    identifierValid_yields id
  have hstored := (storedIdentifier_yields action replies hadapter).bind fun id _ =>
    identifierValid_yields id
  unfold planOf at hplan
  split at hplan
  all_goals cases hplan
  · trivial
  · exact sendPlan_yields program action replies token
  · exact (cancelIdentifier_yields action replies).map fun _ _ => trivial
  · exact (acceptConnection_yields event).map fun _ _ => trivial
  · exact hdestination.map fun _ _ => trivial
  · exact hconnection.map fun _ _ => trivial
  · exact hconnection.map fun _ _ => trivial
  · exact hconnection.bind fun _ _ => hdestination.map fun _ _ => trivial
  · trivial
  · trivial
  · trivial
  · exact hdestination.map fun _ _ => pairedPlan_yields action replies _
  · exact hstored.map fun _ _ => trivial
  · exact hdestination.map fun _ _ => pairedPlan_yields action replies _
  · exact hconnection.bind fun _ _ =>
      hdestination.map fun _ _ => pairedPlan_yields action replies _
  · exact hconnection.bind fun _ _ => hlocation.map fun _ _ => trivial
  · exact hstored.map fun _ _ => trivial

end Evaluations

end TurboScxml.Ccxml
