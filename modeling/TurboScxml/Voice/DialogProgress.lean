import TurboScxml.Voice.DialogSubmit

/-!
# The progress of a dialog row

`voicexml_dialog_manager.c`: a row loads its document, starts a session, follows its navigations,
submits and scripts, and publishes its events.

* `handoff`, `followSessionHandoffs`: what a session asks for until it runs or ends;
* **`followSessionHandoffs_rests`**: an event is queued, or the session asks for nothing.
-/

namespace TurboScxml.Voice.Dialog

open Handles
open DocumentStore (VoiceStatus ResourceStatus)

abbrev Status := ResourceStatus

variable {σ Pg Ss : Type} (cfg : Config) (host : Host σ Pg Ss)

/-! ## Events -/

def eventName : EventKind → Option Text
  | .none => none
  | .prepared => some "dialog.prepared".toList
  | .started => some "dialog.started".toList
  | .exit => some "dialog.exit".toList
  | .errorPrepare => some "error.dialog.prepare".toList
  | .errorStart => some "error.dialog.start".toList
  | .errorTerminate => some "error.dialog.terminate".toList

def Row.event (row : Row Pg Ss) (name : Text) : DialogEvent where
  name := name
  dialogId := row.dialogId
  connectionId := row.connectionId
  voiceStatus := row.voiceStatus

def Row.sessionIn (row : Row Pg Ss) (state : SessionState) : Bool :=
  row.session.any fun session => host.sessionState session = state

def published (f : Frame σ Pg Ss) : Frame σ Pg Ss × Status :=
  match f.row.eventKind with
  | .prepared => ({ f with row := { f.row with eventKind := .none, state := .prepared } }, .ok)
  | .started =>
    let f : Frame σ Pg Ss := { f with row := { f.row with started := true } }
    if f.row.sessionIn host .exited then (f.queue .exit .ok, .ok)
    else ({ f with row := { f.row with eventKind := .none, state := .running } }, .ok)
  | .exit | .errorPrepare | .errorStart | .errorTerminate => (clear cfg host f, .ok)
  | .none => (f, .invalidState)

def publishEvent (f : Frame σ Pg Ss) : Frame σ Pg Ss × Status :=
  if f.row.state ≠ .eventPending then (f, .invalidState)
  else
    match eventName f.row.eventKind with
    | none => (f, .invalidState)
    | some name =>
      match host.publish f.host (f.row.event name) with
      | (state, .accepted) => published cfg host { f with host := state }
      | (state, .full) => ({ f with host := state }, .eventFull)
      | (state, _) => ({ f with host := state }, .eventClosed)

/-- The loop at the end of `progress_row`. -/
def publishEvents : ℕ → Frame σ Pg Ss → Frame σ Pg Ss × Status
  | 0, f => (f, .ok)
  | fuel + 1, f =>
    if f.row.state ≠ .eventPending then (f, .ok)
    else
      match publishEvent cfg host f with
      | (f, .ok) => publishEvents fuel f
      | (f, status) => (f, status)

variable (f : Frame σ Pg Ss)

variable {cfg host f} in
theorem publishEvent_ok {f' : Frame σ Pg Ss} (h : publishEvent cfg host f = (f', .ok)) :
    f'.row.state ≠ .eventPending ∨ f.row.eventKind = .started ∧ f'.row.eventKind = .exit := by
  unfold publishEvent at h
  split at h
  · cases h
  split at h
  · cases h
  split at h
  · rename_i state _
    unfold published at h
    cases hkind : f.row.eventKind with
    | started =>
      simp only [hkind] at h
      split at h
      · cases h
        exact .inr ⟨rfl, rfl⟩
      · cases h
        exact .inl nofun
    | none =>
      simp only [hkind] at h
      cases h
    | _ =>
      simp only [hkind] at h
      cases h
      exact .inl nofun
  · cases h
  · cases h

theorem publishEvents_of_idle (hstate : f.row.state ≠ .eventPending) (fuel : ℕ) :
    publishEvents cfg host fuel f = (f, .ok) := by
  cases fuel with
  | zero => rfl
  | succ fuel => rw [publishEvents, if_pos hstate]

/-- **Two publications suffice**: only a started event queues another one, which ends the row. -/
theorem publishEvents_twice (fuel : ℕ) :
    publishEvents cfg host (fuel + 2) f = publishEvents cfg host 2 f := by
  by_cases hstate : f.row.state = .eventPending
  case neg => rw [publishEvents_of_idle cfg host f hstate, publishEvents_of_idle cfg host f hstate]
  rw [publishEvents, publishEvents, if_neg (not_not.mpr hstate), if_neg (not_not.mpr hstate)]
  split
  · rename_i g hfirst
    by_cases hsecond : g.row.state = .eventPending
    case neg =>
      rw [publishEvents_of_idle cfg host g hsecond, publishEvents_of_idle cfg host g hsecond]
    rw [publishEvents, publishEvents, if_neg (not_not.mpr hsecond), if_neg (not_not.mpr hsecond)]
    split
    · rename_i g' hlast
      have hexit := ((publishEvent_ok hfirst).resolve_left (not_not.mpr hsecond)).2
      have hidle : g'.row.state ≠ .eventPending := by
        refine (publishEvent_ok hlast).resolve_right fun hstarted => ?_
        rw [hexit] at hstarted
        cases hstarted.1
      rw [publishEvents_of_idle cfg host g' hidle, publishEvents_of_idle cfg host g' hidle]
    · rfl
  · rfl

/-! ## The program of a row -/

variable (failureEvent : EventKind)

def compileDocument : Frame σ Pg Ss :=
  let (state, status, document) := host.openDocument f.host f.row.source f.row.mediaType
  let f := { f with host := state }
  if status ≠ .ok then f.queue failureEvent .invalidState
  else if cfg.maxDocumentBytes < document.size ∨ (document.size ≠ 0 ∧ document.data = []) then
    { f with host := host.closeDocument f.host }.queue failureEvent .limitExceeded
  else
    let (state, compiled) := host.compile f.host document.data
    let f := { f with host := host.closeDocument state }
    match compiled.status, compiled.program with
    | .ok, some program =>
      { f with
        row := { f.row with program := some program, programView := some program }
        log := f.log ++ [.taken (.program f.row.navigationHops)] }
    | status, _ => f.queue failureEvent status

def releaseRef (ref : DocumentStore.Ref) : Frame σ Pg Ss :=
  { f with
    host := host.release f.host ref
    row := { f.row with documentRef := none }
    log := f.log ++ [.returned (.document f.row.navigationHops)] }

/-- `acquire_store_document` behind the fragment. -/
def acquireResolved (uri : Text) : Frame σ Pg Ss :=
  match host.acquire f.host uri none with
  | (state, .error failure) =>
    { f with host := state }.queue failureEvent
      (storeFailureVoiceStatus failure.status (some failure.error))
  | (state, .ok ref) =>
    let f : Frame σ Pg Ss :=
      { f with
        host := state
        row := { f.row with documentRef := some ref }
        log := f.log ++ [.taken (.document f.row.navigationHops)] }
    match host.view f.host ref with
    | none => (releaseRef host f ref).queue failureEvent .invalidState
    | some program =>
      if cfg.maxSourceBytes < uri.length then
        (releaseRef host f ref).queue failureEvent .limitExceeded
      else { f with row := { f.row with currentDocumentUri := uri, programView := some program } }

def acquireStoreDocument : Frame σ Pg Ss :=
  match host.resolve f.host [] f.row.source with
  | .error status => f.queue failureEvent (storeFailureVoiceStatus status none)
  | .ok (uri, fragment) =>
    if fragment ≠ [] then
      if cfg.navigationEnabled = false then f.queue failureEvent .unsupportedFeature
      else if cfg.maxSourceBytes < fragment.length then f.queue failureEvent .limitExceeded
      else
        acquireResolved cfg host { f with row := { f.row with startFragment := fragment } }
          failureEvent uri
    else
      acquireResolved cfg host { f with row := { f.row with startFragment := [] } }
        failureEvent uri

def loadDocumentProgram : Frame σ Pg Ss :=
  if cfg.storeBacked then acquireStoreDocument cfg host f failureEvent
  else compileDocument cfg host f failureEvent

/-! ## What a session asks for -/

def followScript (session : Ss) : Frame σ Pg Ss :=
  if cfg.maxScriptSteps ≤ f.row.scriptSteps then f.queue .errorStart .limitExceeded
  else
    let (state, session, status) :=
      host.executeScript f.host session f.row.currentDocumentUri
    let f : Frame σ Pg Ss :=
      { f with
        host := state
        row := { f.row with scriptSteps := f.row.scriptSteps + 1, session := some session } }
    if status ≠ .ok then f.queue .errorStart status
    else if host.sessionState session = .failed then
      f.queue .errorStart
        (if host.sessionError session = .ok then .invalidState else host.sessionError session)
    else f

def navigationAudio (navigation : NavigationRequest) :
    Except VoiceStatus (Option (Text × AudioTiming)) :=
  if navigation.fetchaudioUri = [] then .ok none
  else
    match host.resolve f.host f.row.currentDocumentUri navigation.fetchaudioUri with
    | .error status => .error (storeFailureVoiceStatus status none)
    | .ok (uri, _) => .ok (some (uri, navigation.timing))

def navigateTo (ref : DocumentStore.Ref) (program : Pg) (uri fragment : Text) : Frame σ Pg Ss :=
  let f := destroyRuntime cfg host { f with row := { f.row with currentDocumentUri := uri } }
  let f : Frame σ Pg Ss :=
    { f with
      row :=
        { f.row with
          documentRef := some ref
          programView := some program
          navigationHops := f.row.navigationHops + 1 } }
  match startCurrentSession cfg host f fragment with
  | (f, .error status) => f.queue .errorStart status
  | (f, .ok ()) => f

def dropRef (ref : DocumentStore.Ref) : Frame σ Pg Ss :=
  { f with
    host := host.release f.host ref
    log := f.log ++ [.returned (.document (f.row.navigationHops + 1))] }

def acquireNavigation (uri fragment : Text) (audio : Option (Text × AudioTiming)) : Frame σ Pg Ss :=
  match host.acquire f.host uri audio with
  | (state, .error failure) =>
    { f with host := state }.queue .errorStart
      (storeFailureVoiceStatus failure.status (some failure.error))
  | (state, .ok ref) =>
    let f : Frame σ Pg Ss :=
      { f with
        host := state
        log := f.log ++ [.taken (.document (f.row.navigationHops + 1))] }
    match host.view f.host ref with
    | none => (dropRef host f ref).queue .errorStart .invalidState
    | some program =>
      if cfg.maxSourceBytes < uri.length then
        (dropRef host f ref).queue .errorStart .limitExceeded
      else navigateTo cfg host f ref program uri fragment

def followNavigation (session : Ss) : Frame σ Pg Ss :=
  if cfg.navigationEnabled = false ∨ cfg.storeBacked = false ∨ f.row.currentDocumentUri = [] then
    f.queue .errorStart .unsupportedFeature
  else if cfg.maxNavigationHops ≤ f.row.navigationHops then f.queue .errorStart .limitExceeded
  else
    match host.navigationRequest session with
    | .error status => f.queue .errorStart status
    | .ok navigation =>
      match host.resolve f.host f.row.currentDocumentUri navigation.uri with
      | .error status => f.queue .errorStart (storeFailureVoiceStatus status none)
      | .ok (uri, fragment) =>
        match navigationAudio host f navigation with
        | .error status => f.queue .errorStart status
        | .ok audio => acquireNavigation cfg host f uri fragment audio

/-- One turn of the loop; `none` where it ends. -/
def handoff : Option (Frame σ Pg Ss) :=
  match f.row.session with
  | none => none
  | some session =>
    match host.sessionState session with
    | .scripting => if cfg.executeScript then some (followScript cfg host f session) else none
    | .submitting => some (followOneSubmit cfg host f session)
    | .navigating => some (followNavigation cfg host f session)
    | _ => none

/-- The loop of `follow_session_handoffs`. -/
def handoffs : ℕ → Frame σ Pg Ss → Frame σ Pg Ss
  | 0, f => f
  | fuel + 1, f =>
    match handoff cfg host f with
    | none => f
    | some f' => if f'.row.state = .eventPending then f' else handoffs fuel f'

def turnsLeft (row : Row Pg Ss) : ℕ :=
  (cfg.maxNavigationHops - row.navigationHops) + (cfg.maxScriptSteps - row.scriptSteps)

variable (f : Frame σ Pg Ss)

def followSessionHandoffs : Frame σ Pg Ss :=
  let f := handoffs cfg host (turnsLeft cfg f.row + 1) f
  if f.row.state = .eventPending then f
  else if f.row.started = false then f.queue .started .ok
  else if f.row.sessionIn host .exited then f.queue .exit .ok
  else { f with row := { f.row with state := .running } }

def startRowSession : Frame σ Pg Ss × Status :=
  match f.row.programView with
  | none => (f, .invalidState)
  | some _ =>
    let fragment := f.row.startFragment
    match startCurrentSession cfg host f fragment with
    | (f, .error status) =>
      ({ f with row := { f.row with startFragment := [] } }.queue .errorStart status, .ok)
    | (f, .ok ()) =>
      (followSessionHandoffs cfg host { f with row := { f.row with startFragment := [] } }, .ok)

/-! ## Rows -/

def raiseNormalTerminationEvent : Frame σ Pg Ss × VoiceStatus :=
  match f.row.session with
  | none => (f, .ok)
  | some session =>
    if host.sessionState session ≠ .running then (f, .ok)
    else
      let (state, session, status) := host.raiseHangup f.host session
      ({ f with host := state, row := { f.row with session := some session } },
        if status = .unsupportedFeature then .ok else status)

/-- The row of a running session, after `run_ready`. -/
def runSession (session : Ss) : Frame σ Pg Ss :=
  let (state, session, status) := host.runReady f.host session
  let f : Frame σ Pg Ss :=
    { f with host := state, row := { f.row with session := some session } }
  if status ≠ .ok then f.queue .errorStart status
  else if host.sessionState session = .failed then
    f.queue .errorStart
      (if host.sessionError session = .ok then .invalidState else host.sessionError session)
  else if host.sessionState session = .closed ∨ host.sessionState session = .ready then
    f.queue .errorStart .invalidState
  else followSessionHandoffs cfg host f

/-- `progress_row` up to its last loop. -/
def advanceRow : Frame σ Pg Ss × Status :=
  match f.row.state with
  | .pendingPrepare =>
    let f := loadDocumentProgram cfg host f .errorPrepare
    (if f.row.state = .pendingPrepare then f.queue .prepared .ok else f, .ok)
  | .pendingDirectStart =>
    let f := loadDocumentProgram cfg host f .errorStart
    if f.row.state = .pendingDirectStart then startRowSession cfg host f else (f, .ok)
  | .pendingPreparedStart => startRowSession cfg host f
  | .pendingTerminate =>
    let (f, status) := raiseNormalTerminationEvent host (quiesceSession cfg host f)
    ((destroyRuntime cfg host f).queue .exit status, .ok)
  | .eventPending => (f, .ok)
  | .running =>
    match f.row.session with
    | none => (f, .invalidState)
    | some session => (runSession cfg host f session, .ok)
  | _ => (f, .invalidState)

def progressRow : Frame σ Pg Ss × Status :=
  match advanceRow cfg host f with
  | (f, .ok) => publishEvents cfg host 2 f
  | (f, status) => (f, status)

/-! ## The states of a row at work -/

section States

variable {f f' f'' : Frame σ Pg Ss}

/-- A row at work keeps its state, queues an event or runs. -/
def Onward (f f' : Frame σ Pg Ss) : Prop :=
  f'.row.state = f.row.state ∨ f'.row.state = .eventPending ∨ f'.row.state = .running

theorem Onward.refl (f : Frame σ Pg Ss) : Onward f f := .inl rfl

theorem Onward.queue (f g : Frame σ Pg Ss) (kind : EventKind) (status : VoiceStatus) :
    Onward f (g.queue kind status) := .inr (.inl rfl)

theorem Onward.trans (h : Onward f f') (h' : Onward f' f'') : Onward f f'' := by
  rcases h' with h' | h'
  · rw [Onward, h']
    exact h
  · exact .inr h'

theorem Onward.of_eq (h : f'.row.state = f.row.state) : Onward f f' := .inl h

structure Still (f f' : Frame σ Pg Ss) : Prop where
  state : f'.row.state = f.row.state
  hops : f'.row.navigationHops = f.row.navigationHops
  steps : f'.row.scriptSteps = f.row.scriptSteps

variable (f)

theorem destroyRuntime_still : Still f (destroyRuntime cfg host f) := by
  obtain ⟨⟨_, hsession⟩, -⟩ := destroySession_spec cfg host f
  obtain ⟨hprogram, -⟩ := destroyProgram_spec (destroySession cfg host f)
  have hreleased : ∀ g : Frame σ Pg Ss, Still g (releaseDocument cfg host g) := by
    intro g
    unfold releaseDocument
    cases g.row.documentRef with
    | none => exact ⟨rfl, rfl, rfl⟩
    | some ref =>
      split_ifs <;> exact ⟨rfl, rfl, rfl⟩
  obtain ⟨hstate, hhops, hsteps⟩ := hreleased (destroyProgram (destroySession cfg host f))
  rw [hprogram, hsession] at hstate hhops hsteps
  exact ⟨hstate, hhops, hsteps⟩

theorem startCurrentSession_still (fragment : Text) :
    Still f (startCurrentSession cfg host f fragment).1 := by
  unfold startCurrentSession
  cases f.row.programView with
  | none => exact ⟨rfl, rfl, rfl⟩
  | some program =>
    dsimp only
    obtain ⟨state, result⟩ := host.initSession f.host program
    cases result with
    | error status => exact ⟨rfl, rfl, rfl⟩
    | ok session =>
      dsimp only
      split_ifs <;> exact ⟨rfl, rfl, rfl⟩

theorem compileDocument_onward (failureEvent : EventKind) :
    Onward f (compileDocument cfg host f failureEvent) := by
  unfold compileDocument
  dsimp only
  split_ifs
  · exact .queue f _ _ _
  · exact .queue f _ _ _
  · split
    · exact .of_eq rfl
    · exact .queue f _ _ _

theorem acquireResolved_onward (failureEvent : EventKind) (uri : Text) :
    Onward f (acquireResolved cfg host f failureEvent uri) := by
  unfold acquireResolved
  obtain ⟨state, result⟩ := host.acquire f.host uri none
  cases result with
  | error failure => exact .queue f _ _ _
  | ok ref =>
    dsimp only
    cases host.view state ref with
    | none => exact .queue f _ _ _
    | some program =>
      split_ifs
      · exact .queue f _ _ _
      · exact .of_eq rfl

theorem acquireStoreDocument_onward (failureEvent : EventKind) :
    Onward f (acquireStoreDocument cfg host f failureEvent) := by
  unfold acquireStoreDocument
  cases host.resolve f.host [] f.row.source with
  | error status => exact .queue f _ _ _
  | ok resolved =>
    dsimp only
    by_cases hfragment : resolved.2 = []
    · rw [if_neg (not_not.mpr hfragment)]
      exact acquireResolved_onward cfg host
        { f with row := { f.row with startFragment := [] } } failureEvent resolved.1
    · rw [if_pos hfragment]
      split_ifs
      · exact .queue f _ _ _
      · exact .queue f _ _ _
      · exact acquireResolved_onward cfg host
          { f with row := { f.row with startFragment := resolved.2 } } failureEvent resolved.1

theorem loadDocumentProgram_onward (failureEvent : EventKind) :
    Onward f (loadDocumentProgram cfg host f failureEvent) := by
  unfold loadDocumentProgram
  by_cases hstore : cfg.storeBacked = true
  · rw [if_pos hstore]
    exact acquireStoreDocument_onward cfg host f failureEvent
  · rw [if_neg hstore]
    exact compileDocument_onward cfg host f failureEvent

variable {f}

/-- A turn queues an event, or uses up a hop or a step. -/
def Turn (f f' : Frame σ Pg Ss) : Prop :=
  f'.row.state = .eventPending ∨
    (f'.row.state = f.row.state ∧ turnsLeft cfg f'.row < turnsLeft cfg f.row)

variable {cfg} in
theorem Turn.queue (f g : Frame σ Pg Ss) (kind : EventKind) (status : VoiceStatus) :
    Turn cfg f (g.queue kind status) := .inl rfl

variable {cfg} in
theorem Turn.hop (hstate : f'.row.state = f.row.state)
    (hhops : f'.row.navigationHops = f.row.navigationHops + 1)
    (hsteps : f'.row.scriptSteps = f.row.scriptSteps)
    (hleft : f.row.navigationHops < cfg.maxNavigationHops) : Turn cfg f f' := by
  refine .inr ⟨hstate, ?_⟩
  rw [turnsLeft, turnsLeft, hhops, hsteps]
  omega

variable (f)

theorem followScript_turn (session : Ss) : Turn cfg f (followScript cfg host f session) := by
  unfold followScript
  dsimp only
  split_ifs with hsteps
  · exact .queue f _ _ _
  · exact .queue f _ _ _
  · exact .queue f _ _ _
  · exact .queue f _ _ _
  · refine .inr ⟨rfl, ?_⟩
    dsimp only [turnsLeft]
    omega

theorem submitChecks_hops {row : Row Pg Ss} {session : Ss} {submit : SubmitTarget}
    (h : submitChecks cfg host row session = .ok submit) :
    row.navigationHops < cfg.maxNavigationHops := by
  unfold submitChecks at h
  split at h
  · cases h
  · split at h
    · cases h
    · omega

theorem followOneSubmit_turn (session : Ss) : Turn cfg f (followOneSubmit cfg host f session) := by
  unfold followOneSubmit submitProgress
  cases hchecks : submitChecks cfg host f.row session with
  | error status => exact .queue f _ _ _
  | ok submit =>
    dsimp only
    cases host.resolve f.host f.row.currentDocumentUri submit.uri with
    | error status => exact .queue f _ _ _
    | ok target =>
      dsimp only
      rcases submitTo_cases cfg host f submit target with
        ⟨g, status, events, calls, heq, -⟩ | ⟨g, program, uri, fragment, events, heq, hgrows, -⟩
      · rw [heq]
        exact .queue f _ _ _
      · rw [heq]
        obtain ⟨⟨hhops, -, -, -, hsteps, hstate, -⟩, -⟩ :=
          install_spec cfg host g program uri fragment (submitChecks_store cfg host hchecks)
        rw [hgrows.row] at hhops hsteps hstate
        generalize install cfg host g program uri fragment = result at hhops hsteps hstate
        obtain ⟨f', result⟩ := result
        cases result with
        | ok value => exact .hop hstate hhops hsteps (submitChecks_hops cfg host hchecks)
        | error status => exact .queue f _ _ _

theorem navigateTo_turn (ref : DocumentStore.Ref) (program : Pg)
    (uri fragment : Text) (hleft : f.row.navigationHops < cfg.maxNavigationHops) :
    Turn cfg f (navigateTo cfg host f ref program uri fragment) := by
  have hdestroyed := destroyRuntime_still cfg host
    { f with row := { f.row with currentDocumentUri := uri } }
  unfold navigateTo
  dsimp only
  generalize destroyRuntime cfg host { f with row := { f.row with currentDocumentUri := uri } }
    = cleared at hdestroyed ⊢
  have hstarted := startCurrentSession_still cfg host
    { cleared with
      row :=
        { cleared.row with
          documentRef := some ref
          programView := some program
          navigationHops := cleared.row.navigationHops + 1 } } fragment
  generalize startCurrentSession cfg host _ fragment = started at hstarted ⊢
  obtain ⟨f', result⟩ := started
  cases result with
  | error status => exact .queue f _ _ _
  | ok value =>
    exact .hop (hstarted.state.trans hdestroyed.state)
      (hstarted.hops.trans (congrArg (· + 1) hdestroyed.hops))
      (hstarted.steps.trans hdestroyed.steps) hleft

theorem followNavigation_turn (session : Ss) :
    Turn cfg f (followNavigation cfg host f session) := by
  unfold followNavigation
  split_ifs with hready hhops
  · exact .queue f _ _ _
  · exact .queue f _ _ _
  cases host.navigationRequest session with
  | error status => exact .queue f _ _ _
  | ok navigation =>
    dsimp only
    cases host.resolve f.host f.row.currentDocumentUri navigation.uri with
    | error status => exact .queue f _ _ _
    | ok resolved =>
      cases navigationAudio host f navigation with
      | error status => exact .queue f _ _ _
      | ok audio =>
        dsimp only
        unfold acquireNavigation
        obtain ⟨state, result⟩ := host.acquire f.host resolved.1 audio
        cases result with
        | error failure => exact .queue f _ _ _
        | ok ref =>
          dsimp only
          cases host.view state ref with
          | none => exact .queue f _ _ _
          | some program =>
            split_ifs
            · exact .queue f _ _ _
            · exact navigateTo_turn cfg host
                { f with
                  host := state
                  log := f.log ++ [.taken (.document (f.row.navigationHops + 1))] } ref program
                resolved.1 resolved.2 (Nat.not_le.mp hhops)

variable {f}

/-- **One turn.** -/
theorem handoff_turn (h : handoff cfg host f = some f') : Turn cfg f f' := by
  unfold handoff at h
  split at h
  · cases h
  · split at h
    · split_ifs at h
      cases h
      exact followScript_turn cfg host f _
    · cases h
      exact followOneSubmit_turn cfg host f _
    · cases h
      exact followNavigation_turn cfg host f _
    · cases h

/-- **The loop ends by itself** with the fuel that it gets. -/
theorem handoffs_fuel {fuel : ℕ} (hfuel : turnsLeft cfg f.row < fuel) :
    (handoffs cfg host fuel f).row.state = .eventPending ∨
      handoff cfg host (handoffs cfg host fuel f) = none := by
  induction fuel generalizing f with
  | zero => exact absurd hfuel (Nat.not_lt_zero _)
  | succ fuel ih =>
    unfold handoffs
    cases hturn : handoff cfg host f with
    | none => exact .inr hturn
    | some f' =>
      dsimp only
      split_ifs with hpending
      · exact .inl hpending
      · have hless := ((handoff_turn cfg host hturn).resolve_left hpending).2
        exact ih (by omega)

theorem handoffs_succ {fuel : ℕ} (hfuel : turnsLeft cfg f.row < fuel) :
    handoffs cfg host (fuel + 1) f = handoffs cfg host fuel f := by
  induction fuel generalizing f with
  | zero => exact absurd hfuel (Nat.not_lt_zero _)
  | succ fuel ih =>
    rw [handoffs, handoffs]
    cases hturn : handoff cfg host f with
    | none => rfl
    | some f' =>
      dsimp only
      split_ifs with hpending
      · rfl
      · have hless := ((handoff_turn cfg host hturn).resolve_left hpending).2
        exact ih (by omega)

/-- More fuel makes no difference. -/
theorem handoffs_of_le {fuel : ℕ} (hfuel : turnsLeft cfg f.row < fuel) :
    handoffs cfg host fuel f = handoffs cfg host (turnsLeft cfg f.row + 1) f := by
  induction fuel, Nat.succ_le_of_lt hfuel using Nat.le_induction with
  | base => rfl
  | succ fuel hle ih => rw [handoffs_succ cfg host hle, ih hle]

theorem followSessionHandoffs_idle (f : Frame σ Pg Ss) :
    (followSessionHandoffs cfg host f).row.state = .eventPending ∨
      (followSessionHandoffs cfg host f).row.state = .running ∧
        (followSessionHandoffs cfg host f).row.started = true ∧
        (followSessionHandoffs cfg host f).row.sessionIn host .exited = false ∧
        handoff cfg host (followSessionHandoffs cfg host f) = none := by
  have hrest := handoffs_fuel cfg host (Nat.lt_succ_self (turnsLeft cfg f.row))
  unfold followSessionHandoffs
  dsimp only
  generalize handoffs cfg host (turnsLeft cfg f.row + 1) f = g at hrest ⊢
  split_ifs with hpending hstarted hexited
  · exact .inl hpending
  · exact .inl rfl
  · exact .inl rfl
  · have hnone := hrest.resolve_left hpending
    refine .inr ⟨rfl, Bool.not_eq_false _ ▸ hstarted, Bool.not_eq_true _ ▸ hexited, ?_⟩
    unfold handoff at hnone ⊢
    dsimp only
    cases hsession : g.row.session with
    | none => rfl
    | some session =>
      rw [hsession] at hnone
      dsimp only at hnone ⊢
      cases hstate : host.sessionState session with
      | scripting =>
        rw [hstate] at hnone
        dsimp only at hnone ⊢
        split_ifs at hnone ⊢
        rfl
      | submitting =>
        rw [hstate] at hnone
        cases hnone
      | navigating =>
        rw [hstate] at hnone
        cases hnone
      | _ => rfl

/-- **Handoffs come to an end**: each turn queues an event or uses up a hop or a step, the loop ends
by itself, and it leaves an event that is queued or a session that runs and asks for no more. -/
theorem followSessionHandoffs_rests (f : Frame σ Pg Ss) :
    (∀ g g', handoff cfg host g = some g' → Turn cfg g g') ∧
    (∀ fuel, turnsLeft cfg f.row < fuel →
      handoffs cfg host fuel f = handoffs cfg host (turnsLeft cfg f.row + 1) f ∧
        ((handoffs cfg host fuel f).row.state = .eventPending ∨
          handoff cfg host (handoffs cfg host fuel f) = none)) ∧
    ((followSessionHandoffs cfg host f).row.state = .eventPending ∨
      (followSessionHandoffs cfg host f).row.state = .running ∧
        (followSessionHandoffs cfg host f).row.started = true ∧
        (followSessionHandoffs cfg host f).row.sessionIn host .exited = false ∧
        handoff cfg host (followSessionHandoffs cfg host f) = none) :=
  ⟨fun _ _ h => handoff_turn cfg host h,
    fun _ hfuel => ⟨handoffs_of_le cfg host hfuel, handoffs_fuel cfg host hfuel⟩,
    followSessionHandoffs_idle cfg host f⟩

theorem handoffs_onward (fuel : ℕ) (f : Frame σ Pg Ss) : Onward f (handoffs cfg host fuel f) := by
  induction fuel generalizing f with
  | zero => exact .refl f
  | succ fuel ih =>
    unfold handoffs
    cases hturn : handoff cfg host f with
    | none => exact .refl f
    | some f' =>
      have hfirst : Onward f f' := by
        rcases handoff_turn cfg host hturn with h | ⟨h, -⟩
        · exact .inr (.inl h)
        · exact .inl h
      dsimp only
      split_ifs
      · exact hfirst
      · exact hfirst.trans (ih f')

theorem followSessionHandoffs_onward (f : Frame σ Pg Ss) :
    Onward f (followSessionHandoffs cfg host f) := by
  unfold followSessionHandoffs
  dsimp only
  split_ifs
  · exact handoffs_onward cfg host _ f
  · exact .queue f _ _ _
  · exact .queue f _ _ _
  · exact .inr (.inr rfl)

theorem startRowSession_onward (f : Frame σ Pg Ss) : Onward f (startRowSession cfg host f).1 := by
  unfold startRowSession
  cases f.row.programView with
  | none => exact .refl f
  | some program =>
    dsimp only
    have hstarted := startCurrentSession_still cfg host f f.row.startFragment
    generalize startCurrentSession cfg host f f.row.startFragment = started at hstarted ⊢
    obtain ⟨f', result⟩ := started
    cases result with
    | error status => exact .queue f _ _ _
    | ok value =>
      exact (Onward.of_eq hstarted.state).trans (followSessionHandoffs_onward cfg host
        { f' with row := { f'.row with startFragment := [] } })

/-- **A row at work is not emptied** before its event is published. -/
theorem advanceRow_state (f : Frame σ Pg Ss) (hstate : f.row.state ≠ .empty) :
    (advanceRow cfg host f).1.row.state ≠ .empty := by
  have honward : Onward f (advanceRow cfg host f).1 := by
    unfold advanceRow
    split
    · dsimp only
      split_ifs
      · exact .queue f _ _ _
      · exact loadDocumentProgram_onward cfg host f _
    · dsimp only
      split_ifs
      · exact (loadDocumentProgram_onward cfg host f _).trans (startRowSession_onward cfg host _)
      · exact loadDocumentProgram_onward cfg host f _
    · exact startRowSession_onward cfg host f
    · exact .queue f _ _ _
    · exact .refl f
    · split
      · exact .refl f
      · unfold runSession
        dsimp only
        split_ifs
        · exact .queue f _ _ _
        · exact .queue f _ _ _
        · exact .queue f _ _ _
        · exact .queue f _ _ _
        · exact (Onward.of_eq rfl).trans (followSessionHandoffs_onward cfg host _)
    · exact .refl f
  rcases honward with h | h | h
  · rw [h]
    exact hstate
  · rw [h]
    decide
  · rw [h]
    decide

end States

end TurboScxml.Voice.Dialog
