import TurboScxml.Lib.Handles
import TurboScxml.Voice.DocumentStore
import TurboScxml.Voice.SubmitEncoding

/-!
# The rows of the dialog manager

`voicexml_dialog_manager.c`: a row holds a dialog with its program, its document and its session.
The document store, the providers and the sessions are a host with a state.

* `Row`, `Config`, `Host`;
* `Frame`: a row at work, with the state of the host and a log of what is taken and returned;
* `quiesceSession`, `destroyRuntime`, `clear`, `queueEvent`, `startCurrentSession`.
-/

namespace TurboScxml.Voice.Dialog

open Handles
open DocumentStore (VoiceStatus ResourceStatus)

/-! ## Data -/

/-- `vxml_dialog_row_state`. -/
inductive RowState
  | empty | reservedPrepare | pendingPrepare | prepared | reservedDirectStart | pendingDirectStart
  | reservedPreparedStart | pendingPreparedStart | running | reservedTerminate | pendingTerminate
  | eventPending
  deriving DecidableEq

/-- `vxml_dialog_event_kind`. -/
inductive EventKind
  | none | prepared | started | exit | errorPrepare | errorStart | errorTerminate
  deriving DecidableEq

inductive SessionState
  | ready | running | exited | failed | closed | navigating | submitting | scripting
  deriving DecidableEq

/-- `vxml_submit_enctype`. -/
inductive Enctype
  | urlencoded | multipartFormData | other
  deriving DecidableEq

/-- `vxml_submit_recording_field_v1`. -/
structure Recording where
  name : Submit.Bytes
  fileName : Submit.Bytes
  mediaType : Submit.Bytes
  data : Submit.Bytes
  deriving DecidableEq

/-- `vxml_submit_multipart_part_ref_v1`. -/
inductive PartRef
  | field (index : ℕ)
  | recording (index : ℕ)
  deriving DecidableEq

structure AudioTiming where
  delay : Option ℕ
  minimum : Option ℕ
  deriving DecidableEq

/-- `vxml_submit_target_v4`. -/
structure SubmitTarget where
  uri : Text
  method : Submit.Method
  enctype : Enctype
  fields : List FormEncoding.Field
  timeout : Option ℕ
  fetchaudioUri : Text
  timing : AudioTiming
  recordings : List Recording
  parts : List PartRef
  deriving DecidableEq

/-- `vxml_submit_multipart_request_v1`. -/
structure MultipartRequest where
  baseDocumentUri : Text
  target : Text
  fields : List FormEncoding.Field
  recordings : List Recording
  parts : List PartRef
  maxUriBytes : ℕ
  maxBodyBytes : ℕ
  maxResponseBytes : ℕ
  maxParts : ℕ
  maxBoundaryBytes : ℕ
  maxHeaderBytes : ℕ
  maxSegments : ℕ
  timeout : Option ℕ
  deriving DecidableEq

/-- `vxml_submit_wire_request_v2`. -/
structure MultipartWire where
  uri : Text
  fragment : Text
  contentType : Text
  segments : List Submit.Bytes
  bodySize : ℕ
  timeout : Option ℕ
  deriving DecidableEq

/-- `vxml_submit_response`. -/
structure Response where
  lease : Bool
  document : DocumentStore.Document
  mediaType : Text
  effectiveUri : Text
  deriving DecidableEq

/-- `vxml_navigation_request_v1`. -/
structure NavigationRequest where
  uri : Text
  fetchaudioUri : Text
  timing : AudioTiming
  deriving DecidableEq

/-- `vxml_dialog_row` without its ticket. -/
structure Row (Pg Ss : Type) where
  generation : ℕ
  state : RowState
  eventKind : EventKind
  dialogId : Text
  source : Text
  mediaType : Text
  connectionId : Text
  startFragment : Text
  currentDocumentUri : Text
  navigationHops : ℕ
  scriptSteps : ℕ
  program : Option Pg
  documentRef : Option DocumentStore.Ref
  programView : Option Pg
  session : Option Ss
  sessionQuiesced : Bool
  started : Bool
  voiceStatus : VoiceStatus
  deriving DecidableEq

def Row.cleared (Pg Ss : Type) (generation : ℕ) : Row Pg Ss where
  generation := generation
  state := .empty
  eventKind := .none
  dialogId := []
  source := []
  mediaType := []
  connectionId := []
  startFragment := []
  currentDocumentUri := []
  navigationHops := 0
  scriptSteps := 0
  program := none
  documentRef := none
  programView := none
  session := none
  sessionQuiesced := false
  started := false
  voiceStatus := .ok

structure Config where
  maxSourceBytes : ℕ
  maxMediaTypeBytes : ℕ
  maxConnectionIdBytes : ℕ
  maxDialogIdBytes : ℕ
  maxDocumentBytes : ℕ
  storeBacked : Bool
  navigationEnabled : Bool
  submitEnabled : Bool
  multipartSubmitEnabled : Bool
  multipartCapable : Bool
  /-- `submit_timeout_provider_capable`. -/
  timeoutCapable : Bool
  maxNavigationHops : ℕ
  maxSubmitResponseBytes : ℕ
  maxSubmitBodyBytes : ℕ
  maxSubmitParts : ℕ
  maxSubmitBoundaryBytes : ℕ
  maxSubmitHeaderBytes : ℕ
  maxSubmitSegments : ℕ
  runReady : Bool
  /-- The session factory has `execute_script`. -/
  executeScript : Bool
  maxScriptSteps : ℕ

/-- `vxml_dialog_event_v1`. -/
structure DialogEvent where
  name : Text
  dialogId : Text
  connectionId : Text
  voiceStatus : VoiceStatus
  deriving DecidableEq

/-- `vxml_dialog_event_sink_status`. -/
inductive SinkStatus
  | accepted | full | closed | invalidArgument
  deriving DecidableEq

structure Compiled (Pg : Type) where
  status : VoiceStatus
  diagnostic : VoiceStatus
  program : Option Pg

/-- The document store, the providers and the sessions. -/
structure Host (σ Pg Ss : Type) where
  /-- `open` of the document adapter. -/
  openDocument : σ → Text → Text → σ × ResourceStatus × DocumentStore.Document
  closeDocument : σ → σ
  compile : σ → List UInt8 → σ × Compiled Pg
  resolve : σ → Text → Text → Except DocumentStore.Status (Text × Text)
  /-- `vxml_document_store_acquire_with_policy`. -/
  acquire : σ → Text → Option (Text × AudioTiming) →
    σ × Except DocumentStore.Failure DocumentStore.Ref
  /-- The program of `vxml_document_store_view`. -/
  view : σ → DocumentStore.Ref → Option Pg
  release : σ → DocumentStore.Ref → σ
  /-- `vxml_document_store_fetch_audio_begin`. -/
  fetchAudioBegin : σ → Text → AudioTiming → σ × Except DocumentStore.Status Bool
  fetchAudioFinish : σ → σ
  submitSetting : σ → Submit.Setting
  /-- `vxml_submit_resource_execute_multipart`, up to the provider. -/
  prepareMultipart : σ → MultipartRequest → Except Submit.Status MultipartWire
  execute : σ → Submit.Wire → σ × Option Submit.Status × Response
  executeV2 : σ → MultipartWire → σ × Option Submit.Status × Response
  closeResponse : σ → σ
  initSession : σ → Pg → σ × Except VoiceStatus Ss
  bindDocument : σ → Ss → Text → σ × Ss × VoiceStatus
  /-- `vxml_session_start` or `vxml_session_start_at_form`. -/
  startSession : σ → Ss → Text → σ × Ss × VoiceStatus
  sessionState : Ss → SessionState
  sessionError : Ss → VoiceStatus
  navigationRequest : Ss → Except VoiceStatus NavigationRequest
  submitTarget : Ss → Except VoiceStatus SubmitTarget
  raiseHangup : σ → Ss → σ × Ss × VoiceStatus
  runReady : σ → Ss → σ × Ss × VoiceStatus
  executeScript : σ → Ss → Text → σ × Ss × VoiceStatus
  quiesce : σ → Ss → σ × Ss
  /-- `vxml_session_close` and `vxml_session_destroy`. -/
  closeSession : σ → Ss → σ
  /-- `try_publish` of the event sink. -/
  publish : σ → DialogEvent → σ × SinkStatus
  closeUpstream : σ → σ

inductive Handle
  | lease
  | ticket
  | program (runtime : ℕ)
  | session (runtime : ℕ)
  | document (runtime : ℕ)
  deriving DecidableEq

structure Frame (σ Pg Ss : Type) where
  row : Row Pg Ss
  host : σ
  log : List (Event Handle)
  attempts : ℕ

variable {σ Pg Ss : Type}

def Frame.note (f : Frame σ Pg Ss) (event : Event Handle) : Frame σ Pg Ss :=
  { f with log := f.log ++ [event] }

/-! ## The runtime of a row -/

section Runtime

variable (cfg : Config) (host : Host σ Pg Ss) (f : Frame σ Pg Ss)

def quiesceSession : Frame σ Pg Ss :=
  match f.row.session with
  | none => f
  | some session =>
    if f.row.sessionQuiesced then f
    else if cfg.runReady then
      { f with
        host := (host.quiesce f.host session).1
        row :=
          { f.row with
            session := some (host.quiesce f.host session).2
            sessionQuiesced := true } }
    else { f with row := { f.row with sessionQuiesced := true } }

/-- `row_destroy_runtime`: the session. -/
def destroySession : Frame σ Pg Ss :=
  match (quiesceSession cfg host f).row.session with
  | none => f
  | some session =>
    { quiesceSession cfg host f with
      host := host.closeSession (quiesceSession cfg host f).host session
      row := { (quiesceSession cfg host f).row with session := none }
      log := f.log ++ [.returned (.session f.row.navigationHops)] }

/-- `row_destroy_runtime`: the program. -/
def destroyProgram : Frame σ Pg Ss :=
  match f.row.program with
  | none => f
  | some _ =>
    { f with
      row := { f.row with program := none }
      log := f.log ++ [.returned (.program f.row.navigationHops)] }

/-- `row_destroy_runtime`: the document. -/
def releaseDocument : Frame σ Pg Ss :=
  match f.row.documentRef with
  | none => f
  | some ref =>
    if cfg.storeBacked then
      { f with
        host := host.release f.host ref
        row := { f.row with documentRef := none }
        log := f.log ++ [.returned (.document f.row.navigationHops)] }
    else f

def destroyRuntime : Frame σ Pg Ss :=
  let f := releaseDocument cfg host (destroyProgram (destroySession cfg host f))
  { f with row := { f.row with programView := none, voiceStatus := .ok } }

def clear : Frame σ Pg Ss :=
  { destroyRuntime cfg host f with row := .cleared Pg Ss f.row.generation }

def Row.queueEvent (row : Row Pg Ss) (kind : EventKind) (voiceStatus : VoiceStatus) : Row Pg Ss :=
  { row with eventKind := kind, voiceStatus := voiceStatus, state := .eventPending }

def Frame.queue (kind : EventKind) (voiceStatus : VoiceStatus) : Frame σ Pg Ss :=
  { f with row := f.row.queueEvent kind voiceStatus }

/-- The tail of `start_current_session`. -/
def startSession (session : Ss) (fragment : Text) : Frame σ Pg Ss × Except VoiceStatus Unit :=
  let (state, session, status) := host.startSession f.host session fragment
  ({ f with host := state, row := { f.row with session := some session } },
    if status ≠ .ok then .error status else .ok ())

def startCurrentSession (fragment : Text) : Frame σ Pg Ss × Except VoiceStatus Unit :=
  match f.row.programView with
  | none => (f, .error .invalidArgument)
  | some program =>
    match host.initSession f.host program with
    | (state, .error status) => ({ f with host := state }, .error status)
    | (state, .ok session) =>
      let f : Frame σ Pg Ss :=
        { f with
          host := state
          row := { f.row with session := some session, sessionQuiesced := false }
          log := f.log ++ [.taken (.session f.row.navigationHops)] }
      if cfg.storeBacked then
        let (state, session, status) :=
          host.bindDocument f.host session f.row.currentDocumentUri
        let f := { f with host := state, row := { f.row with session := some session } }
        if status ≠ .ok then (f, .error status) else startSession host f session fragment
      else startSession host f session fragment

end Runtime

def storeFailureVoiceStatus (status : DocumentStore.Status)
    (error : Option DocumentStore.StoreError) : VoiceStatus :=
  match status, error with
  | .compileError, some error => if error.voice ≠ .ok then error.voice else .invalidState
  | .limitExceeded, _ => .limitExceeded
  | .allocationFailed, _ => .allocationFailed
  | .invalidUri, _ => .invalidArgument
  | .invalidArgument, _ => .invalidArgument
  | _, _ => .invalidState

/-! ## What a row holds -/

def Row.held (row : Row Pg Ss) : List Handle :=
  row.session.toList.map (fun _ => .session row.navigationHops) ++
    (row.program.toList.map (fun _ => .program row.navigationHops) ++
      row.documentRef.toList.map fun _ => .document row.navigationHops)

theorem Row.mem_held {row : Row Pg Ss} {handle : Handle} (h : handle ∈ row.held) :
    handle = .session row.navigationHops ∨ handle = .program row.navigationHops ∨
      handle = .document row.navigationHops := by
  simp only [Row.held, List.mem_append, List.mem_map] at h
  rcases h with ⟨_, _, rfl⟩ | ⟨_, _, rfl⟩ | ⟨_, _, rfl⟩
  · exact .inl rfl
  · exact .inr (.inl rfl)
  · exact .inr (.inr rfl)

section Runtime

variable (cfg : Config) (host : Host σ Pg Ss) (f : Frame σ Pg Ss)

theorem quiesceSession_spec : ∃ session quiesced, session.isSome = f.row.session.isSome ∧
      (quiesceSession cfg host f).row
        = { f.row with session := session, sessionQuiesced := quiesced } ∧
      (quiesceSession cfg host f).log = f.log ∧
      (quiesceSession cfg host f).attempts = f.attempts := by
  cases hsession : f.row.session with
  | none =>
    have hrow : f.row = { f.row with session := none } := by rw [← hsession]
    exact ⟨none, f.row.sessionQuiesced, rfl, by simpa only [quiesceSession, hsession] using hrow,
      by simp only [quiesceSession, hsession], by simp only [quiesceSession, hsession]⟩
  | some session =>
    have hrow : f.row = { f.row with session := some session } := by rw [← hsession]
    simp only [quiesceSession, hsession]
    split_ifs
    · exact ⟨some session, f.row.sessionQuiesced, rfl, hrow, rfl, rfl⟩
    · exact ⟨some (host.quiesce f.host session).2, true, rfl, rfl, rfl, rfl⟩
    · exact ⟨some session, true, rfl, by rw [← hsession], rfl, rfl⟩

theorem destroySession_spec : (∃ quiesced, (destroySession cfg host f).row
      = { f.row with session := none, sessionQuiesced := quiesced }) ∧
    (destroySession cfg host f).log
      = f.log ++ f.row.session.toList.map (fun _ => .returned (.session f.row.navigationHops)) ∧
    (destroySession cfg host f).attempts = f.attempts := by
  obtain ⟨session, quiesced, hlive, hrow, hlog, hattempts⟩ :=
    quiesceSession_spec cfg host f
  unfold destroySession
  rw [hrow]
  cases hsession : f.row.session with
  | none =>
    rw [hsession, Option.isSome_none, Option.isSome_eq_false_iff, Option.isNone_iff_eq_none]
      at hlive
    have hsame : f.row = { f.row with session := none } := by rw [← hsession]
    rw [hlive]
    exact ⟨⟨f.row.sessionQuiesced, hsame⟩, (List.append_nil _).symm, rfl⟩
  | some old =>
    rw [hsession, Option.isSome_some, Option.isSome_iff_exists] at hlive
    obtain ⟨session, rfl⟩ := hlive
    exact ⟨⟨quiesced, rfl⟩, rfl, hattempts⟩

theorem destroyProgram_spec : (destroyProgram f).row = { f.row with program := none } ∧
    (destroyProgram f).log
      = f.log ++ f.row.program.toList.map (fun _ => .returned (.program f.row.navigationHops)) ∧
    (destroyProgram f).attempts = f.attempts := by
  cases hprogram : f.row.program with
  | none =>
    have hsame : f.row = { f.row with program := none } := by rw [← hprogram]
    simp only [destroyProgram, hprogram]
    exact ⟨hsame, (List.append_nil _).symm, trivial⟩
  | some program =>
    simp only [destroyProgram, hprogram]
    exact ⟨trivial, rfl, trivial⟩

theorem releaseDocument_spec (hstore : cfg.storeBacked = true) :
    (releaseDocument cfg host f).row = { f.row with documentRef := none } ∧
    (releaseDocument cfg host f).log
      = f.log ++ f.row.documentRef.toList.map
        (fun _ => .returned (.document f.row.navigationHops)) ∧
    (releaseDocument cfg host f).attempts = f.attempts := by
  cases href : f.row.documentRef with
  | none =>
    have hsame : f.row = { f.row with documentRef := none } := by rw [← href]
    simp only [releaseDocument, href]
    exact ⟨hsame, (List.append_nil _).symm, trivial⟩
  | some ref =>
    simp only [releaseDocument, href, if_pos hstore]
    exact ⟨trivial, rfl, trivial⟩

/-- **The runtime is returned**, each part once. -/
theorem destroyRuntime_spec (hstore : cfg.storeBacked = true) :
    (∃ quiesced, (destroyRuntime cfg host f).row
      = { f.row with
          session := none, sessionQuiesced := quiesced, program := none, documentRef := none,
          programView := none, voiceStatus := .ok }) ∧
    (destroyRuntime cfg host f).log = f.log ++ f.row.held.map .returned ∧
    (destroyRuntime cfg host f).attempts = f.attempts := by
  obtain ⟨⟨quiesced, hrow₁⟩, hlog₁, hattempts₁⟩ :=
    destroySession_spec cfg host f
  obtain ⟨hrow₂, hlog₂, hattempts₂⟩ := destroyProgram_spec (destroySession cfg host f)
  obtain ⟨hrow₃, hlog₃, hattempts₃⟩ := releaseDocument_spec cfg host
    (destroyProgram (destroySession cfg host f)) hstore
  unfold destroyRuntime
  dsimp only
  refine ⟨⟨quiesced, ?_⟩, ?_, ?_⟩
  · rw [hrow₃, hrow₂, hrow₁]
  · rw [hlog₃, hlog₂, hlog₁, hrow₂, hrow₁]
    simp [Row.held]
  · rw [hattempts₃, hattempts₂, hattempts₁]

theorem startSession_spec (host : Host σ Pg Ss) (f : Frame σ Pg Ss) (session : Ss)
    (fragment : Text) :
    ∃ started, (startSession host f session fragment).1.row
        = { f.row with session := some started } ∧
      (startSession host f session fragment).1.log = f.log ∧
      (startSession host f session fragment).1.attempts = f.attempts :=
  ⟨(host.startSession f.host session fragment).2.1, rfl, rfl, rfl⟩

theorem startCurrentSession_spec (fragment : Text) (hsession : f.row.session = none) :
    ∃ session quiesced, (startCurrentSession cfg host f fragment).1.row
        = { f.row with session := session, sessionQuiesced := quiesced } ∧
      (startCurrentSession cfg host f fragment).1.log
        = f.log ++ session.toList.map (fun _ => .taken (.session f.row.navigationHops)) ∧
      (startCurrentSession cfg host f fragment).1.attempts = f.attempts ∧
      ((startCurrentSession cfg host f fragment).2 = .ok () → session.isSome = true) := by
  have hrefl : f.row = { f.row with session := none } := by rw [← hsession]
  unfold startCurrentSession
  cases f.row.programView with
  | none =>
    exact ⟨none, f.row.sessionQuiesced, hrefl, (List.append_nil _).symm, rfl, fun h => by cases h⟩
  | some program =>
    dsimp only
    obtain ⟨state, result⟩ := host.initSession f.host program
    cases result with
    | error status =>
      exact ⟨none, f.row.sessionQuiesced, hrefl, (List.append_nil _).symm, rfl, fun h => by cases h⟩
    | ok session =>
      dsimp only
      split_ifs
      · exact ⟨some _, false, rfl, rfl, rfl, fun _ => rfl⟩
      · obtain ⟨started, hrow, hlog, hattempts⟩ := startSession_spec host _ _ fragment
        exact ⟨some started, false, hrow, hlog, hattempts, fun _ => rfl⟩
      · obtain ⟨started, hrow, hlog, hattempts⟩ := startSession_spec host _ _ fragment
        exact ⟨some started, false, hrow, hlog, hattempts, fun _ => rfl⟩

end Runtime

end TurboScxml.Voice.Dialog
