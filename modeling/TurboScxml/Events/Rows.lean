import Mathlib.Algebra.Group.Nat.Defs
import Mathlib.Data.List.FinRange
import Mathlib.Logic.Function.Basic
import TurboScxml.Basic

/-!
# The metadata rows of tagged events

The rows of `scxml_external_event_metadata_row` and the functions that fill and free them:

* `Program`: what they read of the compiled program;
* `Content`, `Metadata`: what a sender gives; `Object`, `Ledger`: the structured objects;
* `reserveEventMetadata`, `attachEventContent`, `Row.release`: the operations on one row;
* `SystemValues`, `Current`: the event that the session shows.

The numbers of the objects and the list of the destroyed ones are no part of the source.
-/

namespace TurboScxml.Events

open Function

/-! ## Tokens -/

def tokenBit : ℕ := 2 ^ 63

def hasTokenBit (token : ℕ) : Bool := tokenBit ≤ token

/-- The next token; zero is left out. -/
def followingToken (token : ℕ) : ℕ :=
  let next := tokenBit + (token % tokenBit + 1) % tokenBit
  if next = tokenBit then next + 1 else next

def serial (token : ℕ) : ℕ := token - tokenBit - 1

/-! ## The program -/

structure Program (S T K : Type) where
  /-- `event_names`, with their identifiers. -/
  eventNames : List (Text × ℕ)
  executionError : ℕ
  communicationError : ℕ
  root : Option S
  storageType : S → T
  scalarToText : K → Option Text

variable {S T K V : Type} {n : ℕ} (P : Program S T K)

def Program.externalUnmatched : ℕ := P.eventNames.length + 1

def Program.nameOf (id : ℕ) : Option Text :=
  if id = P.externalUnmatched then some []
  else (P.eventNames.find? fun entry => entry.2 == id).map Prod.fst

def matchesName (candidate name : Text) : Bool :=
  candidate.isPrefixOf name &&
    (candidate.length = name.length || name[candidate.length]? = some '.')

def Program.representative (name : Text) : Option (Text × ℕ) :=
  P.eventNames.foldl (fun best entry =>
    if matchesName entry.1 name && best.all fun b => b.1.length < entry.1.length then some entry
    else best) none

def Program.eventOf (name : Text) : ℕ :=
  match P.representative name with
  | some entry => entry.2
  | none => P.externalUnmatched

/-! ## What a sender gives -/

/-- `scxml_content_view`. -/
inductive Content (S K V : Type)
  | invalid
  | scalar (value : K)
  | textUtf8 (bytes : Text)
  | xmlUtf8 (bytes : Text)
  | cmeta (schema : S) (value : V)

/-- `scxml_event_metadata`. -/
structure Metadata (S K V : Type) where
  sendId : Text
  origin : Text
  originType : Text
  invokeId : Text
  data : Content S K V

def fieldValid (field : Text) : Bool := field.length ≤ eventMetadataCapacity

def Metadata.valid (m : Metadata S K V) : Bool :=
  fieldValid m.sendId && fieldValid m.origin && fieldValid m.originType && fieldValid m.invokeId

/-! ## Structured objects -/

structure Object (T V : Type) where
  number : ℕ
  type : T
  value : V

structure Ledger (S T V : Type) where
  constructed : ℕ
  destroyed : List (Option (Object T V) × Option S)

/-- `scxml_runtime_copy_event_data_object`. -/
def Ledger.copy (ledger : Ledger S T V) (type : T) (value : V) (copied : Bool) :
    Option (Object T V × Ledger S T V) :=
  if copied then
    some (⟨ledger.constructed, type, value⟩,
      { ledger with constructed := ledger.constructed + 1 })
  else none

def Ledger.destroy (ledger : Ledger S T V) (schema : Option S) (object : Option (Object T V)) :
    Ledger S T V :=
  { ledger with destroyed := (object, schema) :: ledger.destroyed }

/-! ## Rows -/

/-- `scxml_external_event_metadata_row`. -/
structure Row (S T V : Type) where
  /-- The back pointer to the session is set. -/
  session : Bool
  token : ℕ
  inUse : Bool
  name : Text
  sendId : Text
  origin : Text
  originType : Text
  invokeId : Text
  data : Text
  dataSchema : Option S
  dataObjectLive : Bool
  dataObject : Option (Object T V)

def Row.zero : Row S T V where
  session := false
  token := 0
  inUse := false
  name := []
  sendId := []
  origin := []
  originType := []
  invokeId := []
  data := []
  dataSchema := none
  dataObjectLive := false
  dataObject := none

def Row.reserve (row : Row S T V) (token : ℕ) (m : Metadata S K V) : Row S T V :=
  { row with
    session := true
    token
    inUse := true
    sendId := m.sendId
    origin := m.origin
    originType := m.originType
    invokeId := m.invokeId }

/-- The first free row that holds no object. -/
def firstFree (rows : Fin n → Row S T V) : Option (Fin n) :=
  Fin.find? fun r => !(rows r).inUse && !(rows r).dataObjectLive

/-- `scxml_runtime_reserve_event_metadata`. -/
def reserveEventMetadata (rows : Fin n → Row S T V) (next : ℕ) (m : Metadata S K V) :
    Option (Fin n × (Fin n → Row S T V) × ℕ) :=
  if m.valid then
    (firstFree rows).map fun r => (r, update rows r ((rows r).reserve next m), followingToken next)
  else none

/-- `scxml_analyze_attach_event_content`. -/
def attachEventContent [DecidableEq S] (row : Row S T V)
    (content : Content S K V) (ledger : Ledger S T V) (copied : Bool) :
    Option (Row S T V × Ledger S T V) :=
  if row.inUse then
    match content with
    | .invalid => some (row, ledger)
    | .scalar value => (P.scalarToText value).map fun text => ({ row with data := text }, ledger)
    | .textUtf8 bytes | .xmlUtf8 bytes =>
      if bytes.length ≤ eventMetadataCapacity then some ({ row with data := bytes }, ledger)
      else none
    | .cmeta schema value =>
      if P.root = some schema then
        (ledger.copy (P.storageType schema) value copied).map fun p =>
          ({ row with dataObject := some p.1, dataSchema := some schema, dataObjectLive := true },
            p.2)
      else none
  else none

/-- The first section of `scxml_runtime_release_event_metadata`. -/
def Row.release (row : Row S T V) : Row S T V × Option (Option S) :=
  if !row.session || !row.inUse then (row, none)
  else if !row.dataObjectLive then (Row.zero, none)
  else ({ row with inUse := false }, some row.dataSchema)

/-! ## Internal payloads -/

/-- The named payload of an internal `<send>`. -/
structure NamedPayload (P : Program S T K) (V : Type) where
  matched : Bool
  state : V
  assignments : List (V → V → Option V)
  schema : S
  sameStorage : ∀ root ∈ P.root, P.storageType schema = P.storageType root

variable {P : Program S T K}

def NamedPayload.assigned (p : NamedPayload P V) : Option V :=
  p.assignments.foldlM (fun value assign => assign p.state value) p.state

/-- The copy of the root object and the assignments into it. -/
def NamedPayload.fill (p : NamedPayload P V) (row : Row S T V) (ledger : Ledger S T V)
    (copied : Bool) : Row S T V × Ledger S T V × Bool :=
  match P.root, p.matched with
  | some root, true =>
    match ledger.copy (P.storageType root) p.state copied with
    | none => (row, ledger, false)
    | some (object, ledger') =>
      let live : Row S T V :=
        { row with dataObject := some object, dataSchema := some root, dataObjectLive := true }
      match p.assigned with
      | none => (live, ledger', false)
      | some value =>
        ({ live with dataObject := some { object with value }, dataSchema := some p.schema },
          ledger', true)
  | _, _ => (row, ledger, false)

/-! ## The event that is shown -/

inductive EventType
  | internal | external | platform
  deriving DecidableEq

/-- The event fields of `scxml_expr_system_values`. -/
structure SystemValues (S V : Type) where
  eventName : Text
  eventType : EventType
  eventSendId : Text
  eventOrigin : Text
  eventOriginType : Text
  eventInvokeId : Text
  eventData : Option Text
  eventDataSchema : Option S
  eventDataObject : Option V

/-- What the session shows of the current event. -/
structure Current (S T V : Type) where
  values : SystemValues S V
  dataSchema : Option S
  dataObjectLive : Bool
  dataObject : Option (Object T V)

/-- `scxml_runtime_clear_current_event_metadata`. -/
def Current.clear (c : Current S T V) (ledger : Ledger S T V) : Current S T V × Ledger S T V :=
  ({ c with
      values := { c.values with
        eventSendId := []
        eventOrigin := []
        eventOriginType := []
        eventInvokeId := []
        eventData := some []
        eventDataSchema := none
        eventDataObject := none }
      dataSchema := none
      dataObjectLive := false },
    if c.dataObjectLive then ledger.destroy c.dataSchema c.dataObject else ledger)

end TurboScxml.Events
