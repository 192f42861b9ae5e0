import TurboScxml.Voice.DialogRows

/-!
# The submit of a dialog row

`follow_one_submit` of `voicexml_dialog_manager.c`, with the response handling of
`voicexml_submit_resource.c`: the target is resolved, a playback is asked for, the provider is
called once, and the program of the response takes the place of the old runtime.

* `followOneSubmit`;
* **`followOneSubmit_resources`**: what every exit takes and returns.
-/

namespace TurboScxml.Voice.Dialog

open Handles
open DocumentStore (VoiceStatus)

variable {σ Pg Ss : Type} (cfg : Config) (host : Host σ Pg Ss)

/-! ## In front of the provider -/

def submitChecks (row : Row Pg Ss) (session : Ss) : Except VoiceStatus SubmitTarget :=
  if cfg.submitEnabled = false ∨ cfg.storeBacked = false ∨ row.currentDocumentUri = [] then
    .error .unsupportedFeature
  else if cfg.maxNavigationHops ≤ row.navigationHops then .error .limitExceeded
  else
    match host.submitTarget session with
    | .error status => .error status
    | .ok submit =>
      if submit.enctype = .multipartFormData ∧
          (cfg.multipartSubmitEnabled = false ∨ cfg.multipartCapable = false) then
        .error .unsupportedFeature
      else if submit.enctype ≠ .urlencoded ∧ submit.enctype ≠ .multipartFormData then
        .error .unsupportedFeature
      else if submit.timeout.isSome ∧ cfg.timeoutCapable = false then .error .unsupportedFeature
      else .ok submit

variable (f : Frame σ Pg Ss)

def beginSubmitAudio (submit : SubmitTarget) : Frame σ Pg Ss × Except VoiceStatus Bool :=
  if submit.fetchaudioUri = [] then (f, .ok false)
  else
    match host.resolve f.host f.row.currentDocumentUri submit.fetchaudioUri with
    | .error status => (f, .error (storeFailureVoiceStatus status none))
    | .ok (uri, fragment) =>
      if fragment ≠ [] then (f, .error .invalidArgument)
      else
        match host.fetchAudioBegin f.host uri submit.timing with
        | (state, .error status) =>
          ({ f with host := state }, .error (storeFailureVoiceStatus status none))
        | (state, .ok started) =>
          ({ f with
              host := state
              log := f.log ++ if started then [.taken .ticket] else [] }, .ok started)

def finishAudio (started : Bool) : Frame σ Pg Ss :=
  if started then
    { f with host := host.fetchAudioFinish f.host, log := f.log ++ [.returned .ticket] }
  else f

/-! ## The provider -/

def urlencodedRequest (row : Row Pg Ss) (submit : SubmitTarget) : Submit.SubmitRequest where
  baseDocumentUri := row.currentDocumentUri
  target := submit.uri
  method := submit.method
  enctype := if submit.method = .post then Submit.urlencodedType else []
  fields := submit.fields
  maxUriBytes := cfg.maxSourceBytes
  maxBodyBytes := cfg.maxSourceBytes
  maxResponseBytes := cfg.maxSubmitResponseBytes
  timeout := submit.timeout

def multipartRequest (row : Row Pg Ss) (submit : SubmitTarget) : MultipartRequest where
  baseDocumentUri := row.currentDocumentUri
  target := submit.uri
  fields := submit.fields
  recordings := submit.recordings
  parts := submit.parts
  maxUriBytes := cfg.maxSourceBytes
  maxBodyBytes := cfg.maxSubmitBodyBytes
  maxResponseBytes := cfg.maxSubmitResponseBytes
  maxParts := cfg.maxSubmitParts
  maxBoundaryBytes := cfg.maxSubmitBoundaryBytes
  maxHeaderBytes := cfg.maxSubmitHeaderBytes
  maxSegments := cfg.maxSubmitSegments
  timeout := submit.timeout

def responseType : Text := "application/voicexml+xml".toList

/-- A response that is accepted. -/
def Response.valid (r : Response) (maxResponseBytes : ℕ) : Bool :=
  r.lease && (r.document.size == 0 || !r.document.data.isEmpty) &&
    decide (r.document.size ≤ maxResponseBytes) && Submit.textValid r.mediaType false &&
    r.mediaType == responseType &&
    (r.effectiveUri.isEmpty || Submit.textValid r.effectiveUri false)

/-- `close_if_live` and `vxml_submit_resource_close`. -/
def closeResponse (response : Response) : Frame σ Pg Ss :=
  if response.lease then
    { f with host := host.closeResponse f.host, log := f.log ++ [.returned .lease] }
  else f

def submitFailureVoiceStatus : Submit.Status → VoiceStatus
  | .allocationFailed => .allocationFailed
  | .limitExceeded => .limitExceeded
  | .invalidUri | .invalidArgument => .invalidArgument
  | .unsupportedEncoding | .unsupportedPolicy => .unsupportedFeature
  | .providerError | .possiblyProcessed | .invalidResponse => .invalidState

def called (state : σ) (response : Response) : Frame σ Pg Ss :=
  { f with
    host := state
    attempts := f.attempts + 1
    log := f.log ++ if response.lease then [.taken .lease] else [] }

def receive (answer : σ × Option Submit.Status × Response) :
    Frame σ Pg Ss × Except Submit.Status Response :=
  let (state, status, response) := answer
  match status with
  | some status => (closeResponse host (called f state response) response, .error status)
  | none =>
    if response.valid cfg.maxSubmitResponseBytes then (called f state response, .ok response)
    else
      (closeResponse host (called f state response) response,
        .error (if cfg.maxSubmitResponseBytes < response.document.size then .limitExceeded
          else .invalidResponse))

/-- `vxml_submit_resource_execute` or `…_execute_multipart`. -/
def executeSubmit (submit : SubmitTarget) : Frame σ Pg Ss × Except Submit.Status Response :=
  if submit.enctype = .urlencoded then
    match Submit.prepareWire (host.submitSetting f.host) (urlencodedRequest cfg f.row submit) with
    | .error status => (f, .error status)
    | .ok wire => receive cfg host f (host.execute f.host wire)
  else
    match host.prepareMultipart f.host (multipartRequest cfg f.row submit) with
    | .error status => (f, .error status)
    | .ok wire => receive cfg host f (host.executeV2 f.host wire)

/-! ## The response -/

def nextBase (target : Text × Text) (response : Response) :
    Except DocumentStore.Status (Text × Text) :=
  if response.effectiveUri = [] then .ok target
  else
    match host.resolve f.host f.row.currentDocumentUri response.effectiveUri with
    | .error status => .error status
    | .ok (uri, fragment) => .ok (uri, if fragment ≠ [] then fragment else target.2)

/-- `vxml_document_store_compile_source`. -/
def compileResponse (source : List UInt8) : Frame σ Pg Ss × Except VoiceStatus Pg :=
  if source = [] then (f, .error (storeFailureVoiceStatus .invalidArgument none))
  else
    let (state, compiled) := host.compile f.host source
    let f := { f with host := state }
    if compiled.status ≠ .ok then
      (f, .error (if compiled.diagnostic = .ok then compiled.status else compiled.diagnostic))
    else
      match compiled.program with
      | none =>
        (f, .error (if compiled.diagnostic = .ok then .invalidContract else compiled.diagnostic))
      | some program => (f.note (.taken (.program (f.row.navigationHops + 1))), .ok program)

def ownProgram (program : Pg) : Frame σ Pg Ss :=
  { f with
    row :=
      { f.row with
        program := some program
        programView := some program
        navigationHops := f.row.navigationHops + 1 } }

def install (program : Pg) (uri fragment : Text) : Frame σ Pg Ss × Except VoiceStatus Unit :=
  let f := destroyRuntime cfg host { f with row := { f.row with currentDocumentUri := uri } }
  startCurrentSession cfg host (ownProgram f program) fragment

def useResponse (target : Text × Text) (response : Response) :
    Frame σ Pg Ss × Except VoiceStatus Unit :=
  match nextBase host f target response with
  | .error status => (closeResponse host f response, .error (storeFailureVoiceStatus status none))
  | .ok (uri, fragment) =>
    match compileResponse host f response.document.data with
    | (f, .error status) => (closeResponse host f response, .error status)
    | (f, .ok program) =>
      let f := closeResponse host f response
      if cfg.maxSourceBytes < uri.length then
        -- the program that was compiled is destroyed
        (f.note (.returned (.program (f.row.navigationHops + 1))), .error .limitExceeded)
      else install cfg host f program uri fragment

/-- `follow_one_submit` past its checks. -/
def submitTo (submit : SubmitTarget) (target : Text × Text) :
    Frame σ Pg Ss × Except VoiceStatus Unit :=
  match beginSubmitAudio host f submit with
  | (f, .error status) => (f, .error status)
  | (f, .ok started) =>
    match executeSubmit cfg host f submit with
    | (f, .error status) => (finishAudio host f started, .error (submitFailureVoiceStatus status))
    | (f, .ok response) => useResponse cfg host (finishAudio host f started) target response

/-- `follow_one_submit` up to `install`. -/
def submitProgress (session : Ss) : Frame σ Pg Ss × Except VoiceStatus Unit :=
  match submitChecks cfg host f.row session with
  | .error status => (f, .error status)
  | .ok submit =>
    match host.resolve f.host f.row.currentDocumentUri submit.uri with
    | .error status => (f, .error (storeFailureVoiceStatus status none))
    | .ok target => submitTo cfg host f submit target

def followOneSubmit (session : Ss) : Frame σ Pg Ss :=
  match submitProgress cfg host f session with
  | (f, .error status) => f.queue .errorStart status
  | (f, .ok ()) => f

/-! ## What the steps take and return -/

section Steps

variable (cfg : Config) (host : Host σ Pg Ss) {f f' f'' : Frame σ Pg Ss}
  {events events' : List (Event Handle)} {calls calls' : ℕ}

structure Grows (f f' : Frame σ Pg Ss) (events : List (Event Handle)) (calls : ℕ) : Prop where
  row : f'.row = f.row
  log : f'.log = f.log ++ events
  attempts : f'.attempts = f.attempts + calls

theorem Grows.refl (f : Frame σ Pg Ss) : Grows f f [] 0 := ⟨rfl, (List.append_nil _).symm, rfl⟩

theorem Grows.trans (h : Grows f f' events calls) (h' : Grows f' f'' events' calls') :
    Grows f f'' (events ++ events') (calls + calls') where
  row := h'.row.trans h.row
  log := by rw [h'.log, h.log, List.append_assoc]
  attempts := by rw [h'.attempts, h.attempts, Nat.add_assoc]

def ticketEvents (started : Bool) : List (Event Handle) :=
  if started then [.taken .ticket] else []

def finishEvents (started : Bool) : List (Event Handle) :=
  if started then [.returned .ticket] else []

variable (f)

theorem beginSubmitAudio_grows (submit : SubmitTarget) :
    (∃ f' status, beginSubmitAudio host f submit = (f', .error status) ∧ Grows f f' [] 0) ∨
    ∃ f' started, beginSubmitAudio host f submit = (f', .ok started) ∧
      Grows f f' (ticketEvents started) 0 := by
  unfold beginSubmitAudio
  split_ifs
  · exact .inr ⟨f, false, rfl, .refl f⟩
  cases host.resolve f.host f.row.currentDocumentUri submit.fetchaudioUri with
  | error status => exact .inl ⟨f, _, rfl, .refl f⟩
  | ok audio =>
    dsimp only
    split_ifs
    · exact .inl ⟨f, _, rfl, .refl f⟩
    obtain ⟨state, result⟩ := host.fetchAudioBegin f.host audio.1 submit.timing
    cases result with
    | error status => exact .inl ⟨_, _, rfl, rfl, (List.append_nil _).symm, rfl⟩
    | ok started => exact .inr ⟨_, started, rfl, rfl, rfl, rfl⟩

theorem finishAudio_grows (started : Bool) :
    Grows f (finishAudio host f started) (finishEvents started) 0 := by
  cases started
  · exact .refl f
  · exact ⟨rfl, rfl, rfl⟩

variable {response : Response}

theorem closeResponse_grows (hlease : response.lease = true) :
    Grows f (closeResponse host f response) [.returned .lease] 0 := by
  rw [closeResponse, if_pos hlease]
  exact ⟨rfl, rfl, rfl⟩

theorem called_grows (state : σ)
    (hlease : response.lease = true) : Grows f (called f state response) [.taken .lease] 1 := by
  rw [called, if_pos hlease]
  exact ⟨rfl, rfl, rfl⟩

theorem closeResponse_called (state : σ) (response : Response) :
    ∃ events, Grows f (closeResponse host (called f state response) response) events 1 ∧
      (events = [] ∨ events = [.taken .lease, .returned .lease]) := by
  cases hlease : response.lease with
  | false =>
    refine ⟨[], ?_, .inl rfl⟩
    rw [closeResponse, called, hlease]
    exact ⟨rfl, rfl, rfl⟩
  | true =>
    exact ⟨_, (called_grows f state hlease).trans (closeResponse_grows host _ hlease), .inr rfl⟩

/-- **One attempt.** -/
theorem receive_grows (answer : σ × Option Submit.Status × Response) :
    (∃ f' status events, receive cfg host f answer = (f', .error status) ∧ Grows f f' events 1 ∧
      (events = [] ∨ events = [.taken .lease, .returned .lease])) ∨
    ∃ f' response, receive cfg host f answer = (f', .ok response) ∧
      Grows f f' [.taken .lease] 1 ∧ response.lease = true := by
  obtain ⟨state, status, response⟩ := answer
  obtain ⟨events, hgrows, hevents⟩ := closeResponse_called host f state response
  unfold receive
  dsimp only
  cases status with
  | some status => exact .inl ⟨_, status, events, rfl, hgrows, hevents⟩
  | none =>
    by_cases hvalid : response.valid cfg.maxSubmitResponseBytes = true
    · have hlease : response.lease = true := by
        simp only [Response.valid, Bool.and_eq_true] at hvalid
        exact hvalid.1.1.1.1.1
      rw [if_pos hvalid]
      exact .inr ⟨_, response, rfl, called_grows f state hlease, hlease⟩
    · dsimp only
      rw [if_neg hvalid]
      exact .inl ⟨_, _, events, rfl, hgrows, hevents⟩

theorem executeSubmit_grows (submit : SubmitTarget) :
    (∃ f' status events calls, executeSubmit cfg host f submit = (f', .error status) ∧
      Grows f f' events calls ∧ calls ≤ 1 ∧
      (events = [] ∨ events = [.taken .lease, .returned .lease])) ∨
    ∃ f' response, executeSubmit cfg host f submit = (f', .ok response) ∧
      Grows f f' [.taken .lease] 1 ∧ response.lease = true := by
  have hreceive : ∀ answer, (∃ f' status events calls,
      receive cfg host f answer = (f', .error status) ∧ Grows f f' events calls ∧ calls ≤ 1 ∧
      (events = [] ∨ events = [.taken .lease, .returned .lease])) ∨
      ∃ f' response, receive cfg host f answer = (f', .ok response) ∧
        Grows f f' [.taken .lease] 1 ∧ response.lease = true := by
    intro answer
    rcases receive_grows cfg host f answer with
      ⟨f', status, events, heq, hgrows, hevents⟩ | hok
    · exact .inl ⟨f', status, events, 1, heq, hgrows, Nat.le_refl 1, hevents⟩
    · exact .inr hok
  unfold executeSubmit
  split_ifs
  · cases Submit.prepareWire (host.submitSetting f.host) (urlencodedRequest cfg f.row submit) with
    | error status => exact .inl ⟨f, status, [], 0, rfl, .refl f, Nat.zero_le 1, .inl rfl⟩
    | ok wire => exact hreceive _
  · cases host.prepareMultipart f.host (multipartRequest cfg f.row submit) with
    | error status => exact .inl ⟨f, status, [], 0, rfl, .refl f, Nat.zero_le 1, .inl rfl⟩
    | ok wire => exact hreceive _

theorem compileResponse_grows (source : List UInt8) :
    (∃ f' status, compileResponse host f source = (f', .error status) ∧ Grows f f' [] 0) ∨
    ∃ f' program, compileResponse host f source = (f', .ok program) ∧
      Grows f f' [.taken (.program (f.row.navigationHops + 1))] 0 := by
  have hsame : ∀ state, Grows f { f with host := state } [] 0 := fun _ =>
    ⟨rfl, (List.append_nil _).symm, rfl⟩
  unfold compileResponse
  by_cases hsource : source = []
  · rw [if_pos hsource]
    exact .inl ⟨f, _, rfl, .refl f⟩
  rw [if_neg hsource]
  dsimp only
  by_cases hstatus : (host.compile f.host source).2.status = .ok
  · rw [if_neg (not_not.mpr hstatus)]
    cases (host.compile f.host source).2.program with
    | none => exact .inl ⟨_, _, rfl, hsame _⟩
    | some program => exact .inr ⟨_, program, rfl, rfl, rfl, rfl⟩
  · rw [if_pos hstatus]
    exact .inl ⟨_, _, rfl, hsame _⟩

theorem useResponse_cases (target : Text × Text) (hlease : response.lease = true) :
    (∃ f' status events, useResponse cfg host f target response = (f', .error status) ∧
      Grows f f' events 0 ∧ (events = [.returned .lease] ∨
        events = [.taken (.program (f.row.navigationHops + 1)), .returned .lease,
          .returned (.program (f.row.navigationHops + 1))])) ∨
    ∃ f' program uri fragment,
      useResponse cfg host f target response = install cfg host f' program uri fragment ∧
      Grows f f' [.taken (.program (f.row.navigationHops + 1)), .returned .lease] 0 := by
  unfold useResponse
  cases nextBase host f target response with
  | error status => exact .inl ⟨_, _, _, rfl, closeResponse_grows host f hlease, .inl rfl⟩
  | ok base =>
    dsimp only
    rcases compileResponse_grows host f response.document.data with
      ⟨f₁, status, heq, hgrows⟩ | ⟨f₁, program, heq, hgrows⟩
    · rw [heq]
      exact .inl ⟨_, status, _, rfl, hgrows.trans (closeResponse_grows host f₁ hlease), .inl rfl⟩
    · rw [heq]
      have hclosed := hgrows.trans (closeResponse_grows host f₁ hlease)
      split_ifs with huri
      · have hdropped : Grows (closeResponse host f₁ response)
            ((closeResponse host f₁ response).note (.returned
              (.program ((closeResponse host f₁ response).row.navigationHops + 1))))
            [.returned (.program (f.row.navigationHops + 1))] 0 := by
          rw [hclosed.row]
          exact ⟨rfl, rfl, rfl⟩
        exact .inl ⟨_, _, _, rfl, hclosed.trans hdropped, .inr rfl⟩
      · exact .inr ⟨_, program, base.1, base.2, rfl, hclosed⟩

/-! ## The events of an exit -/

/-- The events in front of `install` concern no part of the old runtime. -/
structure Tidy (row : Row Pg Ss) (events : List (Event Handle)) (kept : List Handle) : Prop where
  settles : Settles [] events kept
  nodup : events.Nodup
  fresh : ∀ event ∈ events, event.handle = .lease ∨ event.handle = .ticket ∨
    event.handle = .program (row.navigationHops + 1)

variable (row : Row Pg Ss)

theorem Tidy.nil : Tidy row [] [] :=
  ⟨rfl, List.nodup_nil, fun _ h => by cases h⟩

theorem Tidy.failed (started : Bool)
    (hevents : events = [] ∨ events = [.taken .lease, .returned .lease]) :
    Tidy row (ticketEvents started ++ (events ++ finishEvents started)) [] := by
  rcases hevents with rfl | rfl <;> cases started <;>
    exact ⟨by decide, by decide, by simp [ticketEvents, finishEvents, Event.handle]⟩

theorem Tidy.unused (started : Bool) (hevents : events = [.returned .lease] ∨
      events = [.taken (.program (row.navigationHops + 1)), .returned .lease,
        .returned (.program (row.navigationHops + 1))]) :
    Tidy row (ticketEvents started ++ ([.taken .lease] ++ finishEvents started ++ events)) [] := by
  rcases hevents with rfl | rfl <;> cases started <;> constructor <;>
    simp [ticketEvents, finishEvents, Event.handle, Settles, Machine.exec, step]

theorem Tidy.compiled (started : Bool) :
    Tidy row (ticketEvents started ++ ([.taken .lease] ++ finishEvents started ++
      [.taken (.program (row.navigationHops + 1)), .returned .lease]))
      [.program (row.navigationHops + 1)] := by
  cases started <;> constructor <;>
    simp [ticketEvents, finishEvents, Event.handle, Settles, Machine.exec, step]

/-- **The way to `install`.** An error is found over the old runtime, or the new program is about to
take its place. -/
theorem submitTo_cases (submit : SubmitTarget) (target : Text × Text) :
    (∃ f' status events calls, submitTo cfg host f submit target = (f', .error status) ∧
      Grows f f' events calls ∧ calls ≤ 1 ∧ Tidy f.row events []) ∨
    ∃ f' program uri fragment events,
      submitTo cfg host f submit target = install cfg host f' program uri fragment ∧
      Grows f f' events 1 ∧ Tidy f.row events [.program (f.row.navigationHops + 1)] := by
  unfold submitTo
  rcases beginSubmitAudio_grows host f submit with
    ⟨f₁, status, heq, hbegun⟩ | ⟨f₁, started, heq, hbegun⟩
  · rw [heq]
    exact .inl ⟨f₁, status, [], 0, rfl, hbegun, Nat.zero_le 1, .nil f.row⟩
  rw [heq]
  dsimp only
  rcases executeSubmit_grows cfg host f₁ submit with
    ⟨f₂, status, events, calls, heq, hexecuted, hcalls, hevents⟩ |
    ⟨f₂, response, heq, hexecuted, hlease⟩
  · rw [heq]
    have hfinished := hbegun.trans (hexecuted.trans (finishAudio_grows host f₂ started))
    exact .inl ⟨_, _, _, _, rfl, hfinished, by omega, .failed f.row started hevents⟩
  · rw [heq]
    dsimp only
    have hfinished := hexecuted.trans (finishAudio_grows host f₂ started)
    have hhops : (finishAudio host f₂ started).row = f.row := hfinished.row.trans hbegun.row
    rcases useResponse_cases cfg host (finishAudio host f₂ started) target
        hlease with ⟨f₃, status, events, heq, hused, hevents⟩ |
        ⟨f₃, program, uri, fragment, heq, hused⟩
    · rw [heq]
      rw [hhops] at hevents
      exact .inl ⟨f₃, status, _, _, rfl, hbegun.trans (hfinished.trans hused), Nat.le_refl 1,
        .unused f.row started hevents⟩
    · rw [heq]
      rw [hhops] at hused
      exact .inr ⟨f₃, program, uri, fragment, _, rfl, hbegun.trans (hfinished.trans hused),
        .compiled f.row started⟩

variable {f}

/-! ## The runtime after `install` -/

structure Replaced (f f' : Frame σ Pg Ss) : Prop where
  hops : f'.row.navigationHops = f.row.navigationHops + 1
  program : f'.row.program.isSome = true
  view : f'.row.programView = f'.row.program
  document : f'.row.documentRef = none
  steps : f'.row.scriptSteps = f.row.scriptSteps
  state : f'.row.state = f.row.state ∧ f'.row.eventKind = f.row.eventKind

/-- The new program is in the place of the old runtime, and `start_current_session` ends so. -/
def Restarted (cfg : Config) (host : Host σ Pg Ss) (f f' : Frame σ Pg Ss)
    (result : Except VoiceStatus Unit) : Prop :=
  ∃ g fragment, Replaced f g ∧ g.row.session = none ∧
    startCurrentSession cfg host g fragment = (f', result)

/-- **The installation.** -/
theorem install_spec (f : Frame σ Pg Ss) (program : Pg) (uri fragment : Text)
    (hstore : cfg.storeBacked = true) :
    Replaced f (install cfg host f program uri fragment).1 ∧
    (install cfg host f program uri fragment).1.log = f.log ++ (f.row.held.map .returned ++
      (install cfg host f program uri fragment).1.row.session.toList.map
        fun _ => .taken (.session (f.row.navigationHops + 1))) ∧
    (install cfg host f program uri fragment).1.attempts = f.attempts ∧
    ((install cfg host f program uri fragment).2 = .ok () →
      (install cfg host f program uri fragment).1.row.session.isSome = true) := by
  obtain ⟨⟨quiesced, hrow⟩, hlog, hattempts⟩ := destroyRuntime_spec cfg host
    { f with row := { f.row with currentDocumentUri := uri } } hstore
  unfold install
  generalize destroyRuntime cfg host { f with row := { f.row with currentDocumentUri := uri } }
    = cleared at hrow hlog hattempts ⊢
  have howned : (ownProgram cleared program).row = { f.row with
      session := none, sessionQuiesced := quiesced, program := some program, documentRef := none,
      programView := some program, voiceStatus := .ok, currentDocumentUri := uri,
      navigationHops := f.row.navigationHops + 1 } := by
    rw [ownProgram, hrow]
  obtain ⟨session, started, hrow', hlog', hattempts', hok⟩ := startCurrentSession_spec
    cfg host (ownProgram cleared program) fragment (by rw [howned])
  rw [howned] at hrow' hlog'
  have hsession := congrArg Row.session hrow'
  refine ⟨⟨?_, ?_, ?_, ?_, ?_, ?_⟩, ?_, ?_, ?_⟩
  · rw [hrow']
  · rw [hrow']
    rfl
  · rw [hrow']
  · rw [hrow']
  · rw [hrow']
  · rw [hrow']
    exact ⟨rfl, rfl⟩
  · rw [hsession, hlog']
    change cleared.log ++ _ = _
    rw [hlog, List.append_assoc]
    rfl
  · exact hattempts'.trans hattempts
  · intro hresult
    rw [hsession]
    exact hok hresult

theorem Replaced.held (h : Replaced f f') :
    f'.row.held = f'.row.session.toList.map (fun _ => .session (f.row.navigationHops + 1)) ++
      [.program (f.row.navigationHops + 1)] := by
  obtain ⟨program, hprogram⟩ := Option.isSome_iff_exists.mp h.program
  rw [Row.held, h.hops, hprogram, h.document]
  rfl

end Steps

/-! ## Every exit -/

section Exits

variable (cfg : Config) (host : Host σ Pg Ss) (f f' : Frame σ Pg Ss)

/-- The session of the new document is started. -/
def Moved : Prop :=
  Restarted cfg host f f' (.ok ()) ∧ Replaced f f' ∧ f'.row.session.isSome = true ∧
    ∀ handle ∈ f.row.held, f'.log.count (.returned handle) = 1

def Kept : Prop :=
  (∃ status, f'.row = f.row.queueEvent .errorStart status) ∧
    ∀ handle ∈ f.row.held, f'.log.count (.returned handle) = 0

end Exits

structure Accounted (f f' : Frame σ Pg Ss) : Prop where
  attempts : f'.attempts ≤ 1
  settles : Settles f.row.held f'.log f'.row.held
  borrowed : ∀ handle, handle = .lease ∨ handle = .ticket →
    f'.log.count (.taken handle) ≤ 1 ∧
      f'.log.count (.returned handle) = f'.log.count (.taken handle)

theorem returned_borrowed {row row' : Row Pg Ss} {log : List (Event Handle)} {handle : Handle}
    (h : Settles row.held log row'.held) (hborrowed : handle = .lease ∨ handle = .ticket) :
    log.count (.returned handle) = log.count (.taken handle) := by
  have houtside : ∀ row : Row Pg Ss, row.held.count handle = 0 := by
    intro row
    refine List.count_eq_zero.mpr fun hmem => ?_
    rcases hborrowed with rfl | rfl <;> rcases Row.mem_held hmem with h | h | h <;> cases h
  have hcount := h.count handle
  rw [houtside row, houtside row'] at hcount
  exact hcount.symm

variable {events : List (Event Handle)}

/-- **An exit over the old runtime.** -/
theorem Grows.kept {f g : Frame σ Pg Ss} {calls : ℕ}
    (h : Grows f g events calls) (hlog : f.log = []) (hattempts : f.attempts = 0)
    (hcalls : calls ≤ 1) (htidy : Tidy f.row events []) (status : VoiceStatus) :
    Accounted f (g.queue .errorStart status) ∧ Kept f (g.queue .errorStart status) := by
  have hevents : (g.queue .errorStart status).log = events := by
    change g.log = events
    rw [h.log, hlog, List.nil_append]
  have hrow : (g.queue .errorStart status).row = f.row.queueEvent .errorStart status := by
    change g.row.queueEvent .errorStart status = _
    rw [h.row]
  have houtside : ∀ event ∈ events, event.handle ∉ f.row.held := by
    intro event hevent hmem
    rcases htidy.fresh event hevent with heq | heq | heq <;> rw [heq] at hmem <;>
      rcases Row.mem_held hmem with h | h | h <;> simp at h
  have hsettles : Settles f.row.held (g.queue .errorStart status).log
      (g.queue .errorStart status).row.held := by
    rw [hevents, hrow]
    exact htidy.settles.frame houtside
  refine ⟨⟨?_, hsettles, fun handle hborrowed => ⟨?_, returned_borrowed hsettles hborrowed⟩⟩,
    ⟨status, hrow⟩, fun handle hmem => ?_⟩
  · change g.attempts ≤ 1
    rw [h.attempts, hattempts]
    omega
  · rw [hevents]
    exact List.nodup_iff_count_le_one.mp htidy.nodup _
  · rw [hevents]
    exact List.count_eq_zero.mpr fun hevent => houtside _ hevent hmem

theorem submitChecks_store {row : Row Pg Ss} {session : Ss} {submit : SubmitTarget}
    (h : submitChecks cfg host row session = .ok submit) : cfg.storeBacked = true := by
  unfold submitChecks at h
  split at h
  · cases h
  · rename_i hstore
    by_contra hnone
    exact hstore (.inr (.inl (Bool.eq_false_of_not_eq_true hnone)))

def submitConfig : Config where
  maxSourceBytes := 16
  maxMediaTypeBytes := 24
  maxConnectionIdBytes := 8
  maxDialogIdBytes := 16
  maxDocumentBytes := 16
  storeBacked := true
  navigationEnabled := true
  submitEnabled := true
  multipartSubmitEnabled := false
  multipartCapable := false
  timeoutCapable := false
  maxNavigationHops := 4
  maxSubmitResponseBytes := 4
  maxSubmitBodyBytes := 0
  maxSubmitParts := 0
  maxSubmitBoundaryBytes := 0
  maxSubmitHeaderBytes := 0
  maxSubmitSegments := 0
  runReady := false
  executeScript := false
  maxScriptSteps := 0

def submitHost (startable : Bool) : Host Unit Unit Unit where
  openDocument := fun _ _ _ => ((), .notFound, .null 0)
  closeDocument := id
  compile := fun _ _ => ((), ⟨.ok, .ok, some ()⟩)
  resolve := fun _ _ reference => .ok (reference, [])
  acquire := fun _ _ _ => ((), .error (DocumentStore.failed .full .ok .ok))
  view := fun _ _ => none
  release := fun _ _ => ()
  fetchAudioBegin := fun _ _ _ => ((), .ok false)
  fetchAudioFinish := id
  submitSetting := fun _ => ⟨[], 16, false, true⟩
  prepareMultipart := fun _ _ => .error .unsupportedEncoding
  execute := fun _ _ => ((), none, ⟨true, .bytes [0], responseType, []⟩)
  executeV2 := fun _ _ => ((), some .providerError, ⟨false, .null 0, [], []⟩)
  closeResponse := id
  initSession := fun _ _ => ((), if startable then .ok () else .error .allocationFailed)
  bindDocument := fun _ _ _ => ((), (), .ok)
  startSession := fun _ _ _ => ((), (), .ok)
  sessionState := fun _ => .submitting
  sessionError := fun _ => .ok
  navigationRequest := fun _ => .error .invalidState
  submitTarget := fun _ =>
    .ok ⟨['s', ':', 'b'], .post, .urlencoded, [], none, [], ⟨none, none⟩, [], []⟩
  raiseHangup := fun _ _ => ((), (), .ok)
  runReady := fun _ _ => ((), (), .ok)
  executeScript := fun _ _ _ => ((), (), .ok)
  quiesce := fun _ _ => ((), ())
  closeSession := fun _ _ => ()
  publish := fun _ _ => ((), .accepted)
  closeUpstream := id

def submitFrame : Frame Unit Unit Unit where
  row :=
    { Row.cleared Unit Unit 1 with
      state := .running
      currentDocumentUri := ['s', ':', 'a']
      documentRef := some ⟨1, 1, 1, 1⟩
      programView := some ()
      session := some ()
      started := true }
  host := ()
  log := []
  attempts := 0

def submitted (startable : Bool) : Frame Unit Unit Unit :=
  followOneSubmit submitConfig (submitHost startable) submitFrame ()

end TurboScxml.Voice.Dialog
