import TurboScxml.Voice.MailboxRuns

/-!
# The mailboxes of records, transfers and prompts

* `record`: the mailbox that `vxml_session_cmeta_record_try_complete` fills;
* `transfer`: the one of `vxml_session_cmeta_transfer_try_complete`;
* `promptMedia`: the one of `prompt_media_try_complete_impl`.
-/

namespace TurboScxml.Voice

open Mailbox

namespace Completions

/-! ## Records -/

section Record

inductive Handle
  | empty | partly
  | whole (size : ℕ)
  deriving DecidableEq

def Handle.isWhole : Handle → Bool
  | .whole _ => true
  | _ => false

inductive RecordOutcome
  | success | termchar | noinput | error | other
  deriving DecidableEq

structure RecordCompletion where
  versioned : Bool
  generation : ℕ
  outcome : RecordOutcome
  durationUs : ℕ
  hasTermchar : Bool
  termchar : Char
  recording : Handle
  mediaType : Option (List Char)
  deriving DecidableEq

structure RecordRow where
  maxDurationUs : ℕ
  maxtimeUs : Option ℕ
  dtmfTerm : Bool
  maxMediaTypeBytes : ℕ
  mediaType : List Char
  deriving DecidableEq

structure ActiveRecord where
  index : ℕ
  row : RecordRow
  placed : Bool
  deriving DecidableEq

inductive RecordReply
  /-- The transaction or the filled processing fails. -/
  | failed
  | committed (retained : Bool)
  deriving DecidableEq

def nul : Char := Char.ofNat 0

def recordTermcharValid (value : Char) : Bool :=
  ('0' ≤ value && value ≤ '9') || value == '*' || value == '#' || ('A' ≤ value && value ≤ 'D')

def recordTermcharRefused (record : RecordRow) (c : RecordCompletion) : Option Refusal :=
  if c.hasTermchar = true then
    if recordTermcharValid c.termchar = false then some .invalid
    else if record.dtmfTerm = false then some .incompatible
    else none
  else if c.termchar ≠ nul then some .invalid
  else none

def recordSuccessRefused (maxRecordBytes : ℕ) (record : RecordRow) (c : RecordCompletion) :
    Option Refusal :=
  match c.recording, c.mediaType with
  | .whole size, some mediaType =>
    if mediaType = [] ∨ nul ∈ mediaType then some .invalid
    else if maxRecordBytes < size ∨ record.maxMediaTypeBytes < mediaType.length then
      some .incompatible
    else if record.mediaType ≠ [] ∧ mediaType ≠ record.mediaType then some .incompatible
    else none
  | _, _ => some .invalid

def recordOutcomeRefused (maxRecordBytes : ℕ) (record : RecordRow) (c : RecordCompletion) :
    Option Refusal :=
  let bare := c.recording = .empty ∧ c.mediaType = none
  match c.outcome with
  | .success => recordSuccessRefused maxRecordBytes record c
  | .termchar =>
    if record.dtmfTerm = false then some .incompatible
    else if c.hasTermchar = true ∧ bare then none
    else some .invalid
  | .noinput | .error => if c.hasTermchar = false ∧ bare then none else some .invalid
  | .other => some .invalid

def recordCheck (maxRecordBytes : ℕ) (v : View (Option ActiveRecord)) (generation : ℕ)
    (c : RecordCompletion) : Option Refusal :=
  match v.item with
  | none => some .stale
  | some active =>
    if c.generation ≠ generation ∨ c.generation ≠ v.generation ∨ v.inFlight = false then some .stale
    else if active.row.maxDurationUs < c.durationUs ∨ active.row.maxtimeUs.any (· < c.durationUs)
    then some .incompatible
    else (recordTermcharRefused active.row c).or (recordOutcomeRefused maxRecordBytes active.row c)

def recordRecheck (mediaTypeCapacity : ℕ) (v : View (Option ActiveRecord)) (generation : ℕ)
    (c : RecordCompletion) : Option Refusal :=
  if generation ≠ c.generation ∨ v.inFlight = false ∨ v.generation ≠ c.generation then some .stale
  else if mediaTypeCapacity < (c.mediaType.getD []).length then some .incompatible
  else none

/-- `vxml_session_cmeta_record_run_ready`. -/
def recordConsume (resultMediaStride : ℕ) (v : View (Option ActiveRecord)) (generation : ℕ)
    (c : RecordCompletion) (reply : RecordReply) : Consumption :=
  match v.item with
  | none => .discard none
  | some active =>
    if generation = 0 ∨ generation ≠ v.generation ∨ active.placed = false then .discard none
    else if c.outcome ≠ .success ∧ c.outcome ≠ .termchar then .discard none
    else match reply with
      | .failed => .discard none
      | .committed false => .discard none
      | .committed true =>
        if resultMediaStride < (c.mediaType.getD []).length then .discard (some active.index)
        else if c.outcome = .success then .adopt active.index
        else .discard (some active.index)

def record (maxRecordBytes mediaTypeCapacity resultMediaStride : ℕ) :
    Interface RecordCompletion (Option ActiveRecord) RecordReply where
  generation := RecordCompletion.generation
  lease c := c.recording.isWhole
  arguments c := if c.versioned = false ∨ c.generation = 0 then some .invalid else none
  enter _ _ := none
  check := recordCheck maxRecordBytes
  recheck := recordRecheck mediaTypeCapacity
  stores _ := true
  reportsClosed _ := false
  reportsStale _ := false
  scrub _ d := some d
  note v := if v.item.isSome = true then some { v with inFlight := true } else none
  runnable v := v.inFlight && v.item.isSome
  consume := recordConsume resultMediaStride
  after v := { v with inFlight := false }
  zeroes := true
  settles := false
  note_generation v w h := by
    split at h
    · cases h
      rfl
    · cases h
  arguments_generation c h := by
    intro hzero
    simp [hzero] at h
  recheck_generation v g c h := by
    by_contra hne
    simp [recordRecheck, Ne.symm hne] at h
  settles_lease h := by cases h

end Record

/-! ## Transfers -/

section Transfer

inductive TransferMode
  | blind | bridge | consultation
  deriving DecidableEq

inductive TransferResult
  | none
  | nearEndDisconnect | busy | networkBusy | noanswer | maxtimeDisconnect | networkDisconnect
  | farEndDisconnect | unknown
  | other
  deriving DecidableEq

inductive TransferKind
  | result
  | disconnectHangup | disconnectTransfer
  | errorNoauthorization | errorBaddestination | errorNoroute | errorNoresource | errorProtocol
  | errorUnsupportedBlind | errorUnsupportedBridge | errorUnsupportedConsultation
  | errorUnsupportedUri
  | other
  deriving DecidableEq

structure TransferCompletion where
  versioned : Bool
  generation : ℕ
  kind : TransferKind
  result : TransferResult
  protocolCode : ℕ
  deriving DecidableEq

structure ActiveTransfer where
  mode : TransferMode
  placed : Bool
  deriving DecidableEq

/-- `vxml_cmeta_transfer_result_name` knows a result. -/
def TransferResult.named : TransferResult → Bool
  | .none => false
  | .other => false
  | _ => true

def consultationTransferResultValid : TransferResult → Bool
  | .nearEndDisconnect => true
  | .busy => true
  | .networkBusy => true
  | .noanswer => true
  | .unknown => true
  | _ => false

def transferCompletionCompatible (mode : TransferMode) (c : TransferCompletion) : Bool :=
  let bare := c.result == .none && c.protocolCode == 0
  match c.kind with
  | .result =>
    c.protocolCode == 0 && c.result.named &&
      (mode == .bridge || mode == .consultation && consultationTransferResultValid c.result)
  | .disconnectHangup => bare
  | .disconnectTransfer => (mode == .blind || mode == .consultation) && bare
  | .errorNoauthorization => bare
  | .errorBaddestination => bare
  | .errorNoroute => bare
  | .errorNoresource => bare
  | .errorUnsupportedUri => bare
  | .errorProtocol => c.result == .none && decide (c.protocolCode ≤ 999)
  | .errorUnsupportedBlind => mode == .blind && bare
  | .errorUnsupportedBridge => mode == .bridge && bare
  | .errorUnsupportedConsultation => mode == .consultation && bare
  | .other => false

def transferCheck (v : View (Option ActiveTransfer)) (generation : ℕ) (c : TransferCompletion) :
    Option Refusal :=
  match v.item with
  | none => some .stale
  | some active =>
    if v.inFlight = false ∨ c.generation ≠ generation ∨ c.generation ≠ v.generation then some .stale
    else if active.placed = false ∨ transferCompletionCompatible active.mode c = false then
      some .incompatible
    else none

def transferRecheck (v : View (Option ActiveTransfer)) (generation : ℕ) (c : TransferCompletion) :
    Option Refusal :=
  if generation ≠ c.generation ∨ v.inFlight = false ∨ v.generation ≠ c.generation ∨
      v.item.all (fun active => !transferCompletionCompatible active.mode c) = true then some .stale
  else none

def transfer : Interface TransferCompletion (Option ActiveTransfer) Unit where
  generation := TransferCompletion.generation
  lease _ := false
  arguments c := if c.versioned = false ∨ c.generation = 0 then some .invalid else none
  enter _ _ := none
  check := transferCheck
  recheck := transferRecheck
  stores _ := false
  reportsClosed _ := false
  reportsStale _ := true
  scrub _ _ := none
  note v := if v.item.isSome = true then some v else none
  runnable v := v.inFlight && v.item.isSome
  consume _ _ _ _ := .discard none
  after v := { v with inFlight := false }
  zeroes := true
  settles := false
  note_generation v w h := by
    split at h
    · cases h
      rfl
    · cases h
  arguments_generation c h := by
    intro hzero
    simp [hzero] at h
  recheck_generation v g c h := by
    by_contra hne
    simp [transferRecheck, Ne.symm hne] at h
  settles_lease h := by cases h

end Transfer

/-! ## Prompts -/

section PromptMedia

inductive PromptMediaOutcome
  | completed | failed | other
  deriving DecidableEq

inductive PromptMediaFailure
  | none | badfetch | unsupportedFormat | noresource | other
  deriving DecidableEq

/-- The arguments of `prompt_media_try_complete_impl`. -/
structure PromptMediaCompletion where
  versioned : Bool
  generation : ℕ
  outcome : PromptMediaOutcome
  failure : PromptMediaFailure
  /-- The elapsed time, if it is valid. -/
  playbackElapsedMs : Option ℕ
  deriving DecidableEq

def promptMediaArguments (c : PromptMediaCompletion) : Option Refusal :=
  if c.versioned = false ∨ c.generation = 0 then some .invalid
  else match c.outcome with
    | .completed => if c.failure = .none then none else some .invalid
    | .failed => if c.failure = .other then some .invalid else none
    | .other => some .invalid

def promptMediaCheck (v : View (Option ℕ)) (generation : ℕ) (c : PromptMediaCompletion) :
    Option Refusal :=
  if v.inFlight = false ∨ c.generation ≠ generation ∨ c.generation ≠ v.generation then some .stale
  else if c.playbackElapsedMs.any (fun elapsed => v.item.any (elapsed < ·)) = true then
    some .invalid
  else none

def promptMediaRecheck (v : View (Option ℕ)) (generation : ℕ) (c : PromptMediaCompletion) :
    Option Refusal :=
  if generation ≠ c.generation ∨ v.inFlight = false ∨ v.generation ≠ c.generation then some .stale
  else none

def promptMedia : Interface PromptMediaCompletion (Option ℕ) Unit where
  generation := PromptMediaCompletion.generation
  lease _ := false
  arguments := promptMediaArguments
  enter _ _ := none
  check := promptMediaCheck
  recheck := promptMediaRecheck
  stores _ := false
  reportsClosed _ := false
  reportsStale _ := true
  scrub _ d := some { d with playbackElapsedMs := none }
  note v := some { v with item := none }
  runnable _ := true
  consume _ _ _ _ := .discard none
  after v := { v with inFlight := false, generation := 0 }
  zeroes := true
  settles := true
  note_generation v w h := by
    cases h
    rfl
  arguments_generation c h := by
    intro hzero
    simp [promptMediaArguments, hzero] at h
  recheck_generation v g c h := by
    by_contra hne
    simp [promptMediaRecheck, Ne.symm hne] at h
  settles_lease _ _ := rfl

end PromptMedia

end Completions

end TurboScxml.Voice
