import TurboScxml.Voice.Completions

/-!
# The mailbox of the recognitions

* `collect`: the mailbox that `vxml_session_cmeta_collect_try_complete`, its second and third
  version and `vxml_session_cmeta_menu_try_complete` fill;
* **`mailboxes_sound`**: the mailboxes of the session are sound in the runs of regular steps.
-/

namespace TurboScxml.Voice

open EffectLog Function Machine Mailbox

namespace Completions

/-! ## Data -/

section Data

variable (D V : Type)

structure FieldRow where
  form : ℕ
  rootField : ℕ
  data : D
  deriving DecidableEq

structure MenuRow where
  form : ℕ
  choiceCount : ℕ
  deriving DecidableEq

structure FormRow where
  firstField : ℕ
  fieldCount : ℕ
  initialCount : ℕ
  recordUtterance : Bool
  maxRecordingDurationUs : ℕ
  recordingMediaType : List Char
  initialGrammar : Bool
  deriving DecidableEq

structure CollectProgram where
  forms : List FormRow
  fields : List (FieldRow D)
  initials : List ℕ
  menus : List MenuRow
  root : List (List Char × D)
  fixedScalar : D → Bool
  size : D → ℕ
  slotCapacity : ℕ
  storageStride : ℕ
  storageBytes : ℕ
  maxRecordingBytes : ℕ
  mediaTypeCapacity : ℕ
  resultMediaTypeCapacity : ℕ

structure CollectSlot where
  name : List Char
  data : D
  value : V
  deriving DecidableEq

/-- The completions of the three versions and of menus. -/
inductive CollectBody
  | v1 (data : D) (value : V)
  | v2 (slots : List (CollectSlot D V))
  | v3 (slots : List (CollectSlot D V)) (recording : Handle) (durationUs : ℕ)
      (mediaType : Option (List Char))
  | menu (choiceIndex : ℕ)
  deriving DecidableEq

structure CollectCompletion where
  versioned : Bool
  generation : ℕ
  body : CollectBody D V
  deriving DecidableEq

inductive CollectItemKind
  | field | initial | menu
  deriving DecidableEq

structure CollectItem where
  activeForm : ℕ
  activeField : Option ℕ
  activeInitial : Option ℕ
  activeMenu : Option ℕ
  itemKind : CollectItemKind
  data : Option D
  recordUtteranceExpected : Bool
  maxRecordingDurationUs : ℕ
  deriving DecidableEq

end Data

inductive CollectReply
  | failed
  | uncopied
  | committed
  deriving DecidableEq

section Collect

variable {D V : Type} [DecidableEq D] (p : CollectProgram D)

/-! ## Checks -/

variable (item : CollectItem D)

def CollectProgram.field? : Option (FieldRow D) :=
  item.activeField.bind (p.fields[·]?)

def CollectProgram.initial? : Option ℕ :=
  item.activeInitial.bind (p.initials[·]?)

def CollectProgram.menu? : Option MenuRow :=
  item.activeMenu.bind (p.menus[·]?)

def offersRootField (form rootField : ℕ) : List (FieldRow D) → Bool
  | [] => false
  | candidate :: rest =>
    candidate.form == form &&
      (candidate.rootField == rootField || offersRootField form rootField rest)

def slotRootField (slot : CollectSlot D V) : Option ℕ :=
  if slot.name = [] ∨ nul ∈ slot.name then none
  else (p.root.findIdx? (·.1 == slot.name)).bind fun k =>
    (p.root[k]?).bind fun target =>
      if slot.data = target.2 ∧ p.fixedScalar target.2 = true ∧ p.size target.2 ≤ p.storageStride
      then some k
      else none

def slotsRootFields (form : ℕ) (offered : Option (List (FieldRow D))) :
    List ℕ → List (CollectSlot D V) → Option (List ℕ)
  | prior, [] => some prior
  | prior, slot :: rest =>
    (slotRootField p slot).bind fun rootField =>
      if offered.all (offersRootField form rootField) = true ∧ rootField ∉ prior then
        slotsRootFields form offered (prior ++ [rootField]) rest
      else none

def activeItemRefused : Option Refusal :=
  match item.activeInitial with
  | some _ =>
    if item.activeField.isSome = true then some .stale
    else match p.initial? item, p.forms[item.activeForm]? with
      | some form, some row =>
        if form ≠ item.activeForm ∨ row.initialCount = 0 ∨ row.fieldCount = 0 then
          some .incompatible
        else none
      | _, _ => some .stale
  | none =>
    match p.field? item, p.forms[item.activeForm]? with
    | some selected, some _ => if selected.form ≠ item.activeForm then some .incompatible else none
    | _, _ => some .stale

def slotCountRefused (slots : List (CollectSlot D V)) : Option Refusal :=
  if p.root = [] ∨ p.slotCapacity = 0 ∨ p.storageStride = 0 then some .invalid
  else if p.slotCapacity < slots.length then some .full
  else none

def utteranceRefused (recording : Handle) (durationUs : ℕ)
    (mediaType : Option (List Char)) : Option Refusal :=
  match recording, mediaType with
  | .empty, none => if durationUs = 0 then none else some .incompatible
  | .whole size, some mediaType =>
    if p.maxRecordingBytes < size ∨ item.maxRecordingDurationUs < durationUs ∨ mediaType = [] ∨
        p.mediaTypeCapacity < mediaType.length ∨ nul ∈ mediaType then some .incompatible
    else none
  | _, _ => some .incompatible

def utteranceMediaRefused (recording : Handle) (mediaType : Option (List Char)) : Option Refusal :=
  match p.forms[item.activeForm]? with
  | none => none
  | some form =>
    if recording ≠ .empty ∧ form.recordingMediaType ≠ [] ∧
        mediaType.getD [] ≠ form.recordingMediaType then some .incompatible
    else none

def collectArguments (c : CollectCompletion D V) : Option Refusal :=
  if c.versioned = false ∨ c.generation = 0 then some .invalid
  else match c.body with
    | .v2 slots => if slots = [] then some .invalid else none
    | .v3 slots _ _ _ => if slots = [] then some .invalid else none
    | _ => none

variable (v : View (CollectItem D))

def collectEnter (c : CollectCompletion D V) : Option Refusal :=
  let item := v.item
  match c.body with
  | .v1 _ _ => none
  | .menu _ => none
  | .v2 slots =>
    if item.activeMenu.isSome = true ∨ item.recordUtteranceExpected = true then some .incompatible
    else (activeItemRefused p item).or (slotCountRefused p slots)
  | .v3 slots recording durationUs mediaType =>
    if item.activeMenu.isSome = true ∨ item.activeInitial.isSome = true ∨
        item.recordUtteranceExpected = false then some .incompatible
    else (utteranceRefused p item recording durationUs mediaType).or <|
      (activeItemRefused p item).or <|
      (utteranceMediaRefused p item recording mediaType).or (slotCountRefused p slots)

variable (generation : ℕ) (c : CollectCompletion D V)

def collectCheck : Option Refusal :=
  let item := v.item
  if c.generation ≠ generation then some .stale
  else match c.body with
    | .v1 data _ =>
      if item.itemKind ≠ .field ∨ item.activeMenu.isSome = true ∨
          item.recordUtteranceExpected = true then some .incompatible
      else if item.data ≠ some data ∨ p.fixedScalar data = false ∨ p.storageBytes < p.size data then
        some .incompatible
      else none
    | .v2 _ =>
      if item.itemKind ≠ (if item.activeInitial.isSome = true then .initial else .field) then
        some .incompatible
      else none
    | .v3 _ _ _ _ => if item.itemKind ≠ .field then some .incompatible else none
    | .menu choiceIndex =>
      if item.itemKind ≠ .menu ∨ item.activeField.isSome = true then some .incompatible
      else match p.menu? item with
        | none => some .stale
        | some menu =>
          if menu.form ≠ item.activeForm ∨ menu.choiceCount ≤ choiceIndex then some .incompatible
          else none

def slotsRecheck (slots : List (CollectSlot D V)) : Option Refusal :=
  let item := v.item
  let offered := if item.activeInitial.isSome = true then
      (p.forms[item.activeForm]?).map fun form =>
        (p.fields.drop form.firstField).take form.fieldCount
    else none
  match slotsRootFields p item.activeForm offered [] slots with
  | none => some .incompatible
  | some rootFields =>
    if item.activeInitial.isNone = true ∧
        (p.field? item).all (fun selected => rootFields.count selected.rootField != 1) = true then
      some .incompatible
    else if generation ≠ c.generation then some .stale
    else none

def collectRecheck : Option Refusal :=
  let item := v.item
  match c.body with
  | .v1 data _ =>
    if generation ≠ c.generation ∨ item.data ≠ some data then some .stale
    else if p.slotCapacity = 0 ∨ (p.field? item).all (fun field => field.data != data) = true then
      some .incompatible
    else none
  | .v2 slots => slotsRecheck p v generation c slots
  | .v3 slots _ _ _ => slotsRecheck p v generation c slots
  | .menu choiceIndex =>
    if generation ≠ c.generation ∨ item.itemKind ≠ .menu ∨
        (p.menu? item).all (fun menu => decide (menu.choiceCount ≤ choiceIndex)) = true then
      some .stale
    else none

/-! ## The mailbox -/

/-- `vxml_session_cmeta_collect_commit`. -/
def collectNote : Option (View (CollectItem D)) :=
  let item := { v.item with
    data := none, recordUtteranceExpected := false, maxRecordingDurationUs := 0 }
  match item.activeInitial, item.activeMenu with
  | some _, menu =>
    match p.initial? item, p.forms[item.activeForm]? with
    | some form, some row =>
      if item.activeField.isSome = true ∨ menu.isSome = true ∨ form ≠ item.activeForm ∨
          row.initialGrammar = false ∨ p.slotCapacity = 0 then none
      else some { v with item := { item with itemKind := .initial } }
    | _, _ => none
  | none, some _ =>
    match p.menu? item with
    | some menu =>
      if item.activeField.isSome = true ∨ menu.form ≠ item.activeForm ∨ menu.choiceCount = 0 then
        none
      else some { v with item := { item with itemKind := .menu } }
    | none => none
  | none, none =>
    match p.field? item, p.forms[item.activeForm]? with
    | some field, some form =>
      if field.form ≠ item.activeForm ∨ p.fixedScalar field.data = false ∨
          p.storageBytes < p.size field.data then none
      else if form.recordUtterance = true ∧
          (form.maxRecordingDurationUs = 0 ∨ p.maxRecordingBytes = 0) then none
      else some { v with item := { item with
        itemKind := .field
        data := some field.data
        recordUtteranceExpected := form.recordUtterance
        maxRecordingDurationUs :=
          if form.recordUtterance = true then form.maxRecordingDurationUs else 0 } }
    | _, _ => none

def CollectBody.recording : CollectBody D V → Handle
  | .v3 _ recording _ _ => recording
  | _ => .empty

def CollectBody.mediaType : CollectBody D V → List Char
  | .v3 _ _ _ mediaType => mediaType.getD []
  | _ => []

def collectStops (item : CollectItem D) : Bool :=
  if item.activeMenu.isSome = true then true
  else if item.itemKind = .initial then
    item.activeField.isSome ||
      (p.initial? item).all fun form => form != item.activeForm
  else
    item.activeInitial.isSome || (p.field? item).all fun field =>
      field.form != item.activeForm || (p.forms[item.activeForm]?).all fun form =>
        form.recordUtterance != item.recordUtteranceExpected

/-- `vxml_session_cmeta_collect_run_ready`. -/
def collectConsume (reply : CollectReply) : Consumption :=
  let item := v.item
  if generation ≠ v.generation then .discard none
  else if item.itemKind = .menu then
    if item.activeField.isSome = true ∨
        (p.menu? item).all (fun menu => menu.form != item.activeForm) = true then .lose
    else .discard none
  else if collectStops p item = true then .stop
  else match reply with
    | .failed => .discard none
    | .uncopied => .lose
    | .committed =>
      if item.recordUtteranceExpected = true ∧ c.body.recording.isWhole = true ∧
          c.body.mediaType ≠ [] ∧ c.body.mediaType.length ≤ p.resultMediaTypeCapacity then .adopt 0
      else .discard (some 0)

def collectAfter : View (CollectItem D) :=
  { v with
    inFlight := false
    item := { v.item with
      itemKind := .field, data := none, recordUtteranceExpected := false
      maxRecordingDurationUs := 0 } }

def CollectBody.isMenu : CollectBody D V → Bool
  | .menu _ => true
  | _ => false

def CollectCompletion.withoutRecording : CollectCompletion D V :=
  match c.body with
  | .v3 slots _ _ _ => { c with body := .v3 slots .empty 0 none }
  | _ => c

def collect : Interface (CollectCompletion D V) (CollectItem D) CollectReply where
  generation := CollectCompletion.generation
  lease c := c.body.recording.isWhole
  arguments := collectArguments
  enter := collectEnter p
  check := collectCheck p
  recheck := collectRecheck p
  stores c := !c.body.isMenu
  reportsClosed c := c.body.isMenu
  reportsStale c := c.body.isMenu
  scrub _ d := some d.withoutRecording
  note := collectNote p
  runnable v := v.inFlight && (p.forms[v.item.activeForm]?).isSome
  consume := collectConsume p
  after := collectAfter
  zeroes := false
  settles := false
  note_generation v w h := by
    unfold collectNote at h
    dsimp only at h
    repeat' split at h
    all_goals
      cases h
      try rfl
  arguments_generation c h := by
    intro hzero
    simp [collectArguments, hzero] at h
  recheck_generation v g c h := by
    by_contra hne
    have hslots : ∀ slots, slotsRecheck p v g c slots ≠ none := by
      intro slots hnone
      unfold slotsRecheck at hnone
      dsimp only at hnone
      split at hnone
      · cases hnone
      · split_ifs at hnone with hcount hsame
        exact hsame (Ne.symm hne)
    unfold collectRecheck at h
    dsimp only at h
    split at h
    · simp [Ne.symm hne] at h
    · exact hslots _ h
    · exact hslots _ h
    · simp [Ne.symm hne] at h
  settles_lease h := by cases h

end Collect

/-! ## The mailboxes of a session -/

/-- **Main.** The mailboxes of a session are sound in the regular runs. -/
theorem mailboxes_sound {ι D V : Type} [DecidableEq ι] [DecidableEq D] (p : CollectProgram D)
    (maxRecordBytes mediaTypeCapacity resultMediaStride : ℕ)
    (records : ι → RecordCompletion) (transfers : ι → TransferCompletion)
    (prompts : ι → PromptMediaCompletion) (recognitions : ι → CollectCompletion D V) :
    Sound (record maxRecordBytes mediaTypeCapacity resultMediaStride) records
      (guarded (regular (record maxRecordBytes mediaTypeCapacity resultMediaStride) records)
        (step (record maxRecordBytes mediaTypeCapacity resultMediaStride) records)) ∧
    Sound transfer transfers (guarded (regular transfer transfers) (step transfer transfers)) ∧
    Sound promptMedia prompts
      (guarded (regular promptMedia prompts) (step promptMedia prompts)) ∧
    Sound (collect p) recognitions
      (guarded (regular (collect p) recognitions) (step (collect p) recognitions)) :=
  ⟨sound_of_regular _ _, sound_of_regular _ _, sound_of_regular _ _, sound_of_regular _ _⟩

def oneField : CollectProgram Unit where
  forms := [⟨0, 1, 0, false, 0, [], false⟩]
  fields := [⟨0, 0, ()⟩]
  initials := []
  menus := []
  root := [(['a'], ())]
  fixedScalar _ := true
  size _ := 1
  slotCapacity := 1
  storageStride := 1
  storageBytes := 1
  maxRecordingBytes := 0
  mediaTypeCapacity := 0
  resultMediaTypeCapacity := 0

def knownOrNot (known : Bool) : CollectCompletion Unit Unit :=
  ⟨true, 1, .v2 [⟨[if known = true then 'a' else 'b'], (), ()⟩]⟩

def unarmed {C I : Type} (generation : ℕ) (item : I) : State C I Bool where
  cell := .disarmed
  generation := 0
  payload := none
  view := ⟨false, generation, item⟩
  prepared := false
  results := []
  pc _ := .start
  owner := .idle
  epoch := 0
  armedWith _ := 0
  awaiting := false
  accepted := []
  consumed := []
  leases := []

def arms {I ρ : Type} (reply : ρ) : List (Action I Bool ρ) :=
  [.prepare, .commit, .proceed reply, .proceed reply, .proceed reply]

def fieldItem : CollectItem Unit := ⟨0, some 0, none, none, .field, none, false, 0⟩

def closing : List (Action (CollectItem Unit) Bool CollectReply) :=
  arms .failed ++ [.call false, .call false, .call false, .call false, .call false, .close]

def reopening : List (Action (CollectItem Unit) Bool CollectReply) :=
  .call false :: List.replicate 7 (.call true)

def promptOf (_ : Bool) : PromptMediaCompletion := ⟨true, 1, .completed, .none, none⟩

def overtaken : List (Action (Option ℕ) Bool Unit) :=
  arms () ++ [.call false, .call false, .call false] ++
    List.replicate 7 (.call true) ++
    [.runReady, .proceed (), .proceed (), .proceed (), .select 2 none] ++ arms () ++
    [.call false, .call false, .call false]

theorem closing_runs : (exec (step (collect oneField) knownOrNot) (unarmed 1 fieldItem)
    closing).isSome = true := by decide +kernel

theorem reopening_runs : (exec (step (collect oneField) knownOrNot)
    ((exec (step (collect oneField) knownOrNot) (unarmed 1 fieldItem) closing).get closing_runs)
    reopening).isSome = true := by decide +kernel

theorem overtaken_runs :
    (exec (step promptMedia promptOf) (unarmed 1 none) overtaken).isSome = true := by
  decide +kernel

theorem unarmed_init {C I : Type} (generation : ℕ) (item : I) :
    Init (unarmed generation item : State C I Bool) := by
  simp [Init, unarmed]

/-- A completion is accepted and consumed, and the mailbox is armed again and closed. -/
def completing : List (Action (CollectItem Unit) Bool CollectReply) :=
  arms .failed ++ List.replicate 7 (.call true) ++
    [.runReady, .proceed .failed, .proceed .failed, .proceed .failed, .select 2 fieldItem] ++
    arms .failed ++ [.close, .proceed .failed]

theorem completing_runs : (exec (guarded (regular (collect oneField) knownOrNot)
    (step (collect oneField) knownOrNot)) (unarmed 1 fieldItem) completing).isSome = true := by
  decide +kernel

def completedField : State (CollectCompletion Unit Unit) (CollectItem Unit) Bool :=
  (exec (guarded (regular (collect oneField) knownOrNot) (step (collect oneField) knownOrNot))
    (unarmed 1 fieldItem) completing).get completing_runs

theorem mailboxes_sound_sample :
    Exact (collect oneField) knownOrNot completedField ∧
      completedField.accepted = [(1, true)] ∧
      completedField.consumed.map (fun p => (p.1, p.2.1)) = [(1, true)] ∧
      completedField.epoch = 2 ∧ completedField.cell = .closed := by
  obtain ⟨-, -, -, hsound⟩ := mailboxes_sound oneField 0 0 0
    (fun _ => ⟨true, 1, .noinput, 0, false, '0', .empty, none⟩)
    (fun _ => ⟨true, 1, .result, .busy, 0⟩) promptOf knownOrNot
  refine ⟨hsound.exact _ ?_, by decide +kernel, by decide +kernel, by decide +kernel,
    by decide +kernel⟩
  exact (Reachable.of_init (unarmed_init 1 fieldItem)).runs
    (exec_runs (Option.some_get completing_runs).symm)

theorem mailboxes_unsound :
    ¬ Sound (collect oneField) knownOrNot (step (collect oneField) knownOrNot) ∧
      ¬ Sound promptMedia promptOf (step promptMedia promptOf) := by
  constructor
  · intro h
    have hreachable : Reachable (step (collect oneField) knownOrNot) Init _ :=
      (Reachable.of_init (unarmed_init 1 fieldItem)).runs
        (exec_runs (Option.some_get closing_runs).symm)
    have hclosed := h.absorbing _ _ hreachable (exec_runs (Option.some_get reopening_runs).symm)
      (by decide +kernel)
    revert hclosed
    decide +kernel
  · intro h
    have hreachable : Reachable (step promptMedia promptOf) Init _ :=
      (Reachable.of_init (unarmed_init 1 none)).runs
        (exec_runs (Option.some_get overtaken_runs).symm)
    have hoffered := (h.exact _ hreachable).offered (by decide +kernel)
    rcases hoffered.2 with hcell | hclaimed
    · revert hcell
      decide +kernel
    · have hcell := hclaimed.1
      revert hcell
      decide +kernel

end Completions

end TurboScxml.Voice
