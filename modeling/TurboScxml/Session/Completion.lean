import TurboScxml.Basic
import TurboScxml.Lib.Machine
import TurboScxml.Lib.Table

/-!
# The data of completion events

`scxml_runtime.c`: entering a final state with donedata fills a slot of the session. The completion
event that CFlow queues for the parent does not name the slot. When the event is observed, the
session binds the oldest filled slot of that parent.

* `System.step`: entries and observations, with the completions that wait in between;
* **`regularly_faithful`**: each completion carries the data of its own entry if no completion
  without data is observed while a filled slot of its parent waits.
-/

namespace TurboScxml.Session

namespace Completion

open Function

variable {Env Object : Type} {n : ℕ}

/-! ## Materialization -/

/-- `_event.data` of a completion event. -/
inductive EventData (Object : Type)
  | text (bytes : Text)
  | params (object : Object) (fields : List ℕ)
  | object (object : Object)
  deriving DecidableEq

def EventData.empty : EventData Object := .text []

/-- `data_size > SCXML_EVENT_METADATA_CAPACITY`. -/
def EventData.tooLong : EventData Object → Bool
  | .text bytes => decide (eventMetadataCapacity < bytes.length)
  | _ => false

abbrev FieldAssignment (Env Object : Type) := Env → Object → Object × Bool

/-- The content of a `scxml_done_data_descriptor`. -/
inductive Content (Env Object : Type)
  | params (valid : Bool) (copyState : Env → Option Object) (storageFits : Bool)
      (assignments : List (FieldAssignment Env Object)) (projected : List ℕ → Bool)
  | scalar (evaluate : Env → Option Text)
  | cmeta (copyLocation : Env → Option Object)
  | inline (bytes : Text)
  | invalid

inductive Materialized (Object : Type)
  | published (data : EventData Object)
  | stranded (data : EventData Object)
  | released

/-- `fail_done_data_expression`. -/
def failExpression (room : ℕ) : Materialized Object :=
  if 0 < room then .published .empty else .stranded .empty

/-- The loop over the assignments; a failing one is left out. -/
def assignFields (env : Env) (index room : ℕ) (object : Object) (fields : List ℕ) :
    List (FieldAssignment Env Object) → Option (Object × List ℕ)
  | [] => some (object, fields)
  | assign :: rest =>
    match assign env object with
    | (object', true) => assignFields env (index + 1) room object' (fields ++ [index]) rest
    | (object', false) =>
      if 0 < room then assignFields env (index + 1) (room - 1) object' fields rest else none

/-- `materialize_done_data_object`. -/
def materializeParams (env : Env) (room : ℕ) (storageFits : Bool)
    (assignments : List (FieldAssignment Env Object)) (projected : List ℕ → Bool)
    (object : Object) : Materialized Object :=
  if !storageFits then .released
  else
    match assignFields env 0 room object [] assignments with
    | none => .released
    | some (_, []) => .published .empty
    | some (object', fields) =>
      if fields.length ≠ assignments.length && !projected fields then .released
      else .published (.params object' fields)

/-- `materialize_done_data`. -/
def materializeDoneData (env : Env) (room : ℕ) : Content Env Object → Materialized Object
  | .params valid copyState storageFits assignments projected =>
    if !valid then .released
    else
      match copyState env with
      | none => failExpression room
      | some object => materializeParams env room storageFits assignments projected object
  | .scalar evaluate =>
    match evaluate env with
    | none => failExpression room
    | some bytes =>
      if eventMetadataCapacity < bytes.length then .released else .published (.text bytes)
  | .cmeta copyLocation =>
    match copyLocation env with
    | none => failExpression room
    | some object => .published (.object object)
  | .inline bytes =>
    if eventMetadataCapacity < bytes.length then .released else .published (.text bytes)
  | .invalid => .released

/-! ## The slots -/

/-- `scxml_completion_data_state`. -/
inductive SlotState
  | free | building | ready | bound
  deriving DecidableEq

/-- `scxml_completion_data_slot`. -/
structure Slot (Object : Type) where
  state : SlotState
  parent : ℕ
  sequence : ℕ
  data : EventData Object

def Slot.released : Slot Object := ⟨.free, 0, 0, .empty⟩

/-- The completion data fields of a session. -/
structure Store (n : ℕ) (Object : Type) where
  slots : Fin n → Slot Object
  nextSequence : ℕ
  current : Option (Fin n)
  eventData : EventData Object

namespace Store

/-- The session after `scxml_session_init`. -/
def init : Store n Object := ⟨fun _ => .released, 1, none, .empty⟩

variable (s : Store n Object)

def reserve (parent : ℕ) : Option (Fin n × Store n Object) :=
  if parent = 0 ∨ s.nextSequence = uint64Max then none
  else
    (Fin.find? fun i => (s.slots i).state == .free).map fun i =>
      (i, { s with
        slots := update s.slots i
          { s.slots i with state := .building, parent, sequence := s.nextSequence }
        nextSequence := s.nextSequence + 1 })

def publish (i : Fin n) (data : EventData Object) : Store n Object :=
  { s with slots := update s.slots i { s.slots i with state := .ready, data } }

/-- `completion_data_release` of slot `i`. -/
def release (i : Fin n) : Store n Object :=
  { s with slots := update s.slots i .released }

/-- What `completion_data_bind_oldest` may take. -/
def waits (parent : ℕ) (i : Fin n) : Bool :=
  (s.slots i).state == .ready && (s.slots i).parent == parent

def oldest (parent : ℕ) : Option (Fin n) :=
  Slots.bestSlot (s.waits parent) fun i j => decide ((s.slots i).sequence < (s.slots j).sequence)

def clear : Store n Object :=
  match s.current with
  | some i => { s.release i with current := none, eventData := .empty }
  | none => { s with eventData := .empty }

/-- `bind_completion_done_data`. -/
def bindCompletion (parent : ℕ) : Store n Object × Bool :=
  match s.oldest parent with
  | none => (s, true)
  | some i =>
    let bound : Store n Object :=
      { s with slots := update s.slots i { s.slots i with state := .bound }, current := some i }
    if (s.slots i).data.tooLong then (bound, false)
    else ({ bound with eventData := (s.slots i).data }, true)

end Store

/-! ## Entries and observations -/

structure Program where
  /-- `find_state_program_name_by_id`. -/
  stateName : ℕ → Option Text

def doneState : Text := ['d', 'o', 'n', 'e', '.', 's', 't', 'a', 't', 'e', '.']

structure Entry (Object : Type) where
  parent : ℕ
  doneData : Option (EventData Object)
  sequence : ℕ
  deriving DecidableEq

structure Observation (Object : Type) where
  entry : Entry Object
  name : Text
  data : EventData Object
  deriving DecidableEq

structure System (n : ℕ) (Object : Type) where
  store : Store n Object
  /-- The completions of CFlow, first in first out. -/
  completions : List (Entry Object)
  observed : List (Observation Object)
  failed : Bool

inductive Action (Env Object : Type)
  | enter (parent : ℕ) (doneData : Option (Content Env Object)) (env : Env) (room : ℕ)
  | observe
  | observeOther

namespace System

def init : System n Object := ⟨.init, [], [], false⟩

def queue (s : System n Object) (store : Store n Object) (parent : ℕ)
    (doneData : Option (EventData Object)) : System n Object :=
  { s with
    store
    completions := s.completions ++ [⟨parent, doneData, s.store.nextSequence⟩] }

def enterDoneData (s : System n Object) (parent : ℕ) (content : Content Env Object) (env : Env)
    (room : ℕ) : System n Object :=
  match s.store.reserve parent with
  | none => { s with failed := true }
  | some (i, store) =>
    match materializeDoneData env room content with
    | .published data => s.queue (store.publish i data) parent (some data)
    | .stranded data => { s with store := store.publish i data, failed := true }
    | .released => { s with store := store.release i, failed := true }

variable (P : Program) (s : System n Object)

/-- `scxml_runtime_observe_event` of a completion. -/
def observeCompletion (entry : Entry Object) (rest : List (Entry Object)) : System n Object :=
  let cleared := s.store.clear
  match P.stateName entry.parent with
  | none => { s with store := cleared, completions := rest }
  | some name =>
    if eventMetadataCapacity + 1 - (doneState.length + 1) < name.length then
      { s with store := cleared, completions := rest, failed := true }
    else
      match cleared.bindCompletion entry.parent with
      | (store, true) =>
        { s with
          store
          completions := rest
          observed := s.observed ++ [⟨entry, doneState ++ name, store.eventData⟩] }
      | (store, false) => { s with store, completions := rest, failed := true }

/-- **One step.** A failed session takes none. -/
def step (a : Action Env Object) : Option (System n Object) :=
  if s.failed then none
  else
    match a with
    | .enter parent none _ _ => some (s.queue s.store parent none)
    | .enter parent (some content) env room => some (s.enterDoneData parent content env room)
    | .observe =>
      match s.completions with
      | [] => none
      | entry :: rest => some (s.observeCompletion P entry rest)
    | .observeOther => some { s with store := s.store.clear }

/-- Each `done.state.P` has the data of its own entry. -/
def Faithful : Prop :=
  ∀ o ∈ s.observed,
    (∃ name, P.stateName o.entry.parent = some name ∧ o.name = doneState ++ name) ∧
      o.data = o.entry.doneData.getD .empty

/-- No completion without data is observed while a slot of its parent waits. -/
def regular : Action Env Object → Bool
  | .observe => s.completions.head?.all fun entry =>
      entry.doneData.isSome || (P.stateName entry.parent).isNone ||
        decide (∀ i, s.store.waits entry.parent i = false)
  | _ => true

def Initial : Prop := s = init

def RegularlyReachable (Env : Type) (s : System n Object) : Prop :=
  Machine.Reachable
    (Machine.guarded (regular P) (step P : System n Object → Action Env Object → Option _))
    Initial s

def Reachable (Env : Type) (s : System n Object) : Prop :=
  Machine.Reachable (step P : System n Object → Action Env Object → Option _) Initial s

end System

end Completion

end TurboScxml.Session
