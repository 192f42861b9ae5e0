import Mathlib.Tactic.SplitIfs
import TurboScxml.Voice.Content

/-!
# Processing of filled handlers

A completion binds its results in a transaction, and the filled handlers of the completed item and
of the form run in the same transaction.

* `FilledRow`, `FormRow`: the compiled handlers, and what the compiler ensures of them;
* `executeFilledProcess` and its four siblings: the candidates of each kind of item;
* `runReady`: a completion from the begin of the transaction to the control that is published.
-/

namespace TurboScxml.Voice.Filled

open Content

/-! ## Compiled forms -/

structure Store (σ V D : Type) where
  rootBound : σ → ℕ → Bool
  slotBound : σ → ℕ → ℕ → Bool
  bindRoot : σ → ℕ → V → Except Status σ
  /-- `cmeta_scope_view_assign` of a completion mark. -/
  markSlot : σ → ℕ → ℕ → Option σ
  /-- `assign_scope_slot` of the name of a transfer result. -/
  assignSlot : σ → ℕ → ℕ → Text → Except Status σ
  /-- `subdialog_stage_return_data`. -/
  stageReturnData : σ → ℕ → D → Except Status σ

/-- `vxml_cmeta_filled_mode`; a handler of an item knows its field. -/
inductive Mode
  | field (field : Option ℕ)
  | all
  | any
  deriving DecidableEq

section

variable (σ X G S : Type)

/-- `vxml_cmeta_filled_row`. -/
structure FilledRow where
  mode : Mode
  targets : List ℕ
  transferTargets : List ℕ
  actions : Actions σ X G S

/-- `vxml_cmeta_field_row` and `vxml_cmeta_subdialog_row`. -/
structure RootItem where
  rootField : ℕ
  filled : Option (FilledRow σ X G S)

/-- `vxml_cmeta_record_row`. -/
structure RecordRow where
  formItemSlot : ℕ
  filled : Option (FilledRow σ X G S)

/-- `vxml_cmeta_transfer_row`. -/
structure TransferRow where
  resultSlot : ℕ
  formItemSlot : ℕ
  filled : Option (FilledRow σ X G S)

/-- `vxml_cmeta_form_row` with its items. -/
structure FormRow where
  scope : ℕ
  fields : List (RootItem σ X G S)
  initials : List ℕ
  subdialogs : List (RootItem σ X G S)
  records : List (RecordRow σ X G S)
  transfers : List (TransferRow σ X G S)
  filled : List (FilledRow σ X G S)
  field_mode : ∀ (i : ℕ) (item : RootItem σ X G S) (row : FilledRow σ X G S),
    fields[i]? = some item → item.filled = some row → row.mode = .field (some i)
  filled_mode : ∀ row ∈ filled, row.mode = .all ∨ row.mode = .any
  filled_targets : ∀ row ∈ filled, row.targets ≠ [] ∨ row.transferTargets ≠ []
  filled_transfers : ∀ row ∈ filled, ∀ t ∈ row.transferTargets, t < transfers.length
  filled_records : records = [] ∨ filled = []

end

inductive Completion (V D : Type)
  | field (index : ℕ) (slots : List (ℕ × V))
  | initial (index : ℕ) (slots : List (ℕ × V))
  | subdialog (index : ℕ) (data : D)
  | transfer (index : ℕ) (result : Text)
  | record (index : ℕ)

variable {σ V D X G S : Type}

/-! ## Which handlers run -/

section

variable (I : Store σ V D) (form : FormRow σ X G S)

/-- The loop over the transfer targets of mode `all`. -/
def transfersBound (values : σ) : List ℕ → Except Status Bool
  | [] => .ok true
  | index :: rest =>
    match form.transfers[index]? with
    | none => .error .invalidStructure
    | some transfer =>
      if I.slotBound values form.scope transfer.resultSlot then transfersBound values rest
      else .ok false

/-- The loop over the transfer targets of mode `any`. -/
def transfersSupplied (completedTransfers : List ℕ) : List ℕ → Except Status Bool
  | [] => .ok false
  | index :: rest =>
    if index ≥ form.transfers.length then .error .invalidStructure
    else if completedTransfers.contains index then .ok true
    else transfersSupplied completedTransfers rest

def filledShouldRunForResults (activeField : Option ℕ) (completedRootFields : List ℕ)
    (completedTransfers : List ℕ) (filled : FilledRow σ X G S) (values : σ) :
    Except Status Bool :=
  match filled.mode with
  | .field field => .ok (field == activeField)
  | .all =>
    if filled.targets.isEmpty && filled.transferTargets.isEmpty then .error .invalidStructure
    else if filled.targets.all (I.rootBound values) then
      transfersBound I form values filled.transferTargets
    else .ok false
  | .any =>
    if filled.targets.isEmpty && filled.transferTargets.isEmpty then .error .invalidStructure
    else if filled.targets.any completedRootFields.contains then .ok true
    else transfersSupplied form completedTransfers filled.transferTargets

def filledShouldRunForRoots (activeField : Option ℕ) (completedRootFields : List ℕ)
    (filled : FilledRow σ X G S) (values : σ) : Except Status Bool :=
  filledShouldRunForResults I form activeField completedRootFields [] filled values

end

/-! ## Handlers in order -/

section

variable (H : Host σ) (I : Store σ V D) (documentScope : ℕ) (form : FormRow σ X G S)

/-- `execute_filled_handler`. -/
def executeFilledHandler (formScope item : EventScope) (filled : FilledRow σ X G S)
    (s : Session σ X G S) : Option Status × Session σ X G S :=
  match s.exitSnapshotPrepare H with
  | (false, s) => (some .allocationFailed, s)
  | (true, s) =>
    match executeActionRange H [form.scope, documentScope] filled.actions
        s.terminalPendingReset with
    | (.fail status, s) =>
      (some status, { s with
        pendingTerminal := none
        backendFailureOrigin :=
          match filled.mode with
          | .field none => item
          | .field (some field) => ⟨.field, field⟩
          | _ => formScope })
    | (_, s) => (none, if s.exitRequested then s else { s with pendingTerminal := none })

structure Candidate (σ X G S : Type) where
  row : FilledRow σ X G S
  shouldRun : σ → Except Status Bool

abbrev Ran (σ X G S : Type) := List (FilledRow σ X G S) × Option Status × Session σ X G S

def processLoop (formScope item : EventScope) :
    List (Candidate σ X G S) → Session σ X G S → Ran σ X G S
  | [], s => ([], none, s)
  | candidate :: rest, s =>
    match candidate.shouldRun s.staged.values with
    | .error status => ([], some status, s)
    | .ok false => processLoop formScope item rest s
    | .ok true =>
      match executeFilledHandler H documentScope form formScope item candidate.row s with
      | (some status, s) => ([candidate.row], some status, s)
      | (none, s) =>
        if s.exitRequested || s.pendingNavigation.isSome then ([candidate.row], none, s)
        else
          ((candidate.row :: (processLoop formScope item rest s).1),
            (processLoop formScope item rest s).2)

def ownCandidate (filled : Option (FilledRow σ X G S)) : List (Candidate σ X G S) :=
  filled.toList.map fun row => ⟨row, fun _ => .ok true⟩

def formCandidates (activeField : Option ℕ) (completedRootFields completedTransfers : List ℕ) :
    List (Candidate σ X G S) :=
  form.filled.map fun row =>
    ⟨row, filledShouldRunForResults I form activeField completedRootFields completedTransfers row⟩

/-- `execute_filled_process`. -/
def executeFilledProcess (formIndex activeField : ℕ) (completedRootFields : List ℕ)
    (s : Session σ X G S) : Ran σ X G S :=
  match form.fields[activeField]? with
  | none => ([], some .invalidStructure, s)
  | some selected =>
    processLoop H documentScope form ⟨.form, formIndex⟩ ⟨.form, formIndex⟩
      ((selected.filled.toList.map fun row =>
          ⟨row, filledShouldRunForRoots I form (some activeField) completedRootFields row⟩) ++
        formCandidates I form (some activeField) completedRootFields []) s

def executeInitialFilledProcess (formIndex : ℕ) (completedRootFields : List ℕ)
    (s : Session σ X G S) : Ran σ X G S :=
  if form.fields = [] then ([], some .invalidStructure, s)
  else
    processLoop H documentScope form ⟨.form, formIndex⟩ ⟨.form, formIndex⟩
      (((form.fields.filter fun item => completedRootFields.contains item.rootField).flatMap
          fun item => ownCandidate item.filled) ++
        formCandidates I form none completedRootFields []) s

def executeSubdialogFilledProcess (formIndex index : ℕ) (s : Session σ X G S) : Ran σ X G S :=
  match form.subdialogs[index]? with
  | none => ([], some .invalidStructure, s)
  | some subdialog =>
    processLoop H documentScope form ⟨.form, formIndex⟩ ⟨.subdialog, index⟩
      (ownCandidate subdialog.filled ++
        formCandidates I form none [subdialog.rootField] []) s

def executeTransferFilledProcess (formIndex index : ℕ) (s : Session σ X G S) : Ran σ X G S :=
  match form.transfers[index]? with
  | none => ([], some .invalidStructure, s)
  | some transfer =>
    processLoop H documentScope form ⟨.form, formIndex⟩ ⟨.transfer, index⟩
      (ownCandidate transfer.filled ++ formCandidates I form none [] [index]) s

/-- `execute_record_filled_process`. -/
def executeRecordFilledProcess (formIndex index : ℕ) (s : Session σ X G S) : Ran σ X G S :=
  match form.records[index]? with
  | none => ([], some .invalidStructure, s)
  | some record =>
    processLoop H documentScope form ⟨.form, formIndex⟩ ⟨.record, index⟩
      (ownCandidate record.filled) s

/-! ## Completions -/

def bindSlots : List (ℕ × V) → σ → Except Status σ
  | [], values => .ok values
  | (rootField, value) :: rest, values =>
    if I.rootBound values rootField then .error .semanticError
    else
      match I.bindRoot values rootField value with
      | .error status => .error status
      | .ok values => bindSlots rest values

def markInitialControlsFilled : List ℕ → σ → Except Status σ
  | [], values => .ok values
  | slot :: rest, values =>
    match I.markSlot values form.scope slot with
    | none => .error .allocationFailed
    | some values => markInitialControlsFilled rest values

variable (completion : Completion V D)

def bindResults (values : σ) : Except Status σ :=
  match completion with
  | .field index slots =>
    match bindSlots I slots values with
    | .error status => .error status
    | .ok values =>
      if (form.fields[index]?.map RootItem.rootField).any (slots.map Prod.fst).contains then
        .ok values
      else .error .invalidStructure
  | .initial _ slots => bindSlots I slots values
  | .record index =>
    match form.records[index]? with
    | none => .error .invalidStructure
    | some record => (I.markSlot values form.scope record.formItemSlot).elim
        (.error .allocationFailed) .ok
  | _ => .ok values

def stageResults (values : σ) : Except Status σ :=
  match completion with
  | .initial _ _ => markInitialControlsFilled I form form.initials values
  | .subdialog index data =>
    match form.subdialogs[index]? with
    | none => .error .invalidStructure
    | some subdialog => I.stageReturnData values subdialog.rootField data
  | .transfer index result =>
    match form.transfers[index]? with
    | none => .error .invalidStructure
    | some transfer =>
      match I.assignSlot values form.scope transfer.resultSlot result with
      | .error status => .error status
      | .ok values => (I.markSlot values form.scope transfer.formItemSlot).elim
          (.error .allocationFailed) .ok
  | _ => .ok values

def executeProcess (formIndex : ℕ) (completion : Completion V D) (s : Session σ X G S) :
    Ran σ X G S :=
  match completion with
  | .field index slots =>
    executeFilledProcess H I documentScope form formIndex index (slots.map Prod.fst) s
  | .initial _ slots =>
    executeInitialFilledProcess H I documentScope form formIndex (slots.map Prod.fst) s
  | .subdialog index _ => executeSubdialogFilledProcess H I documentScope form formIndex index s
  | .transfer index _ => executeTransferFilledProcess H I documentScope form formIndex index s
  | .record index => executeRecordFilledProcess H documentScope form formIndex index s

/-- The rest of a turn: `recover_backend_process` and `select_directed_item`. -/
structure Surroundings (σ X G S : Type) where
  recover : Status → Session σ X G S → Session σ X G S
  select : Session σ X G S → Session σ X G S

def settle (s : Session σ X G S) : Session σ X G S :=
  match completion with
  | .field _ _ => { s with repromptRequested := false, handlerRepromptRequested := false }
  | .initial _ _ => { s with repromptRequested := false, handlerRepromptRequested := false }
  | _ => s

def publish (select : Session σ X G S → Session σ X G S) (s : Session σ X G S) : Session σ X G S :=
  if s.submitRequested.isSome || s.pendingNavigation.isSome then
    match s.publishPendingControl with
    | (some status, s) => s.fail status
    | (none, s) => s
  else if s.exitRequested then s.terminalPublish
  else select s

def bindCompletion (E : Surroundings σ X G S) (completion : Completion V D)
    (s : Session σ X G S) : Except (Session σ X G S) (Session σ X G S) :=
  match s.transactionBegin H with
  | (false, s) => .error (s.fail .allocationFailed)
  | (true, s) =>
    match bindResults I form completion s.staged.values with
    | .error status => .error ((s.transactionReset H).fail status)
    | .ok values =>
      match stageResults I form completion values with
      | .error status => .error (E.recover status (s.transactionReset H))
      | .ok values => .ok { s with staged := { s.staged with values := values } }

/-- The turn of a `run_ready`, with the handlers that ran. -/
def runReady (E : Surroundings σ X G S) (formIndex : ℕ) (completion : Completion V D)
    (s : Session σ X G S) : List (FilledRow σ X G S) × Session σ X G S :=
  match bindCompletion H I form E completion s with
  | .error s => ([], s)
  | .ok s =>
    match executeProcess H I documentScope form formIndex completion s with
    | (ran, some status, s) => (ran, E.recover status (s.transactionReset H))
    | (ran, none, s) => (ran, publish E.select (settle completion (s.transactionCommit H)))

end

end TurboScxml.Voice.Filled
