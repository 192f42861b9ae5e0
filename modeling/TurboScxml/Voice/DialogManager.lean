import TurboScxml.Voice.DialogProgress

/-!
# The dialog manager

`voicexml_dialog_manager.c`: requests reserve a row and give out a ticket, which is committed or
discarded; `run_ready` works on the rows in turn.

* `Ticket`, `Slot`, `Manager`;
* `Sound`: an empty row is cleared, and the row of a live ticket is reserved (`Reachable.sound`).
-/

namespace TurboScxml.Voice.Dialog

open Function

/-! ## Data -/

/-- `vxml_dialog_ticket_kind`. -/
inductive TicketKind
  | none | prepare | directStart | preparedStart | terminate
  deriving DecidableEq

def TicketKind.moves : TicketKind → Option (RowState × RowState)
  | .prepare => some (.reservedPrepare, .pendingPrepare)
  | .directStart => some (.reservedDirectStart, .pendingDirectStart)
  | .preparedStart => some (.reservedPreparedStart, .pendingPreparedStart)
  | .terminate => some (.reservedTerminate, .pendingTerminate)
  | .none => Option.none

structure Ticket where
  kind : TicketKind
  live : Bool
  restoreState : RowState
  restoreEventKind : EventKind
  deriving DecidableEq

def Ticket.none : Ticket := ⟨.none, false, .empty, .none⟩

structure Slot (Pg Ss : Type) where
  row : Row Pg Ss
  ticket : Ticket

/-- A row after `row_clear`. -/
def Slot.cleared (Pg Ss : Type) (generation : ℕ) : Slot Pg Ss :=
  ⟨.cleared Pg Ss generation, .none⟩

/-- `vxml_dialog_manager_impl`. -/
structure Manager (σ Pg Ss : Type) (n : ℕ) where
  slots : Fin n → Slot Pg Ss
  host : σ
  nextProgressSlot : Fin n
  closed : Bool
  acceptedOperations : ℕ
  discardedOperations : ℕ
  rejectedFull : ℕ
  staleOperations : ℕ

/-- `scxml_adapter_status`. -/
inductive AdapterStatus
  | full | invalidContract | errorExecution | closed
  deriving DecidableEq

/-- `ccxml_dialog_start_request` or `…_prepare_request`. -/
structure StartRequest where
  source : Text
  mediaType : Text
  connectionId : Text
  deriving DecidableEq

/-- `ccxml_prepared_dialog_start_request`. -/
structure PreparedStartRequest where
  dialogId : Text
  connectionId : Text
  deriving DecidableEq

/-- `ccxml_dialog_terminate_request`. -/
structure TerminateRequest where
  dialogId : Text
  immediate : Bool
  deriving DecidableEq

variable {σ Pg Ss : Type} {n : ℕ} (cfg : Config) (host : Host σ Pg Ss)

namespace Manager

variable (m : Manager σ Pg Ss n)

def setSlot (i : Fin n) (slot : Slot Pg Ss) : Manager σ Pg Ss n :=
  { m with slots := update m.slots i slot }

/-! ## Requests -/

def dialogIdText (i : Fin n) (generation : ℕ) : Text :=
  "vxml-".toList ++ Nat.toDigits 10 (i + 1) ++ '-' :: Nat.toDigits 10 generation

def findEmptyRow : Option (Fin n) :=
  Fin.find? fun i => (m.slots i).row.state = .empty

def findDialog (dialogId : Text) : Option (Fin n) :=
  if Submit.textValid dialogId false = false then none
  else Fin.find? fun i => (m.slots i).row.state ≠ .empty && (m.slots i).row.dialogId == dialogId

def mediaTypeValid (mediaType : Text) : Bool := mediaType == responseType

def newDialogValid (request : StartRequest) : Bool :=
  Submit.textValid request.source false && decide (request.source.length ≤ cfg.maxSourceBytes) &&
    mediaTypeValid request.mediaType &&
    decide (request.mediaType.length ≤ cfg.maxMediaTypeBytes) &&
    decide (request.connectionId.length ≤ cfg.maxConnectionIdBytes) &&
    (request.connectionId.isEmpty || Submit.textValid request.connectionId false)

def newRow (row : Row Pg Ss) (i : Fin n) (kind : TicketKind) (request : StartRequest) : Row Pg Ss :=
  { row with
    generation := DocumentStore.nextGeneration row.generation
    dialogId := dialogIdText i (DocumentStore.nextGeneration row.generation)
    source := request.source
    mediaType := request.mediaType
    connectionId := request.connectionId
    voiceStatus := .ok
    state := if kind = .prepare then .reservedPrepare else .reservedDirectStart }

def prepareNewDialog (kind : TicketKind) (request : StartRequest) :
    Manager σ Pg Ss n × Except AdapterStatus (Fin n) :=
  if m.closed then (m, .error .closed)
  else if newDialogValid cfg request = false then (m, .error .invalidContract)
  else
    match m.findEmptyRow with
    | none => ({ m with rejectedFull := m.rejectedFull + 1 }, .error .full)
    | some i =>
      let row := newRow (m.slots i).row i kind request
      if cfg.maxDialogIdBytes < row.dialogId.length then
        (m.setSlot i (.cleared Pg Ss row.generation), .error .invalidContract)
      else (m.setSlot i ⟨row, { (m.slots i).ticket with kind := kind, live := true }⟩, .ok i)

def reserve (slot : Slot Pg Ss) (kind : TicketKind) (state : RowState) : Slot Pg Ss where
  row := { slot.row with state := state }
  ticket := ⟨kind, true, slot.row.state, slot.row.eventKind⟩

def connect (slot : Slot Pg Ss) (connectionId : Text) : Slot Pg Ss :=
  { slot with row := { slot.row with connectionId := connectionId } }

def preparedDialogStart (request : PreparedStartRequest) :
    Manager σ Pg Ss n × Except AdapterStatus (Fin n) :=
  if m.closed then (m, .error .closed)
  else
    match m.findDialog request.dialogId with
    | none => (m, .error .errorExecution)
    | some i =>
      if (m.slots i).row.state ≠ .prepared ∨ Submit.textValid request.connectionId false = false ∨
          cfg.maxConnectionIdBytes < request.connectionId.length then
        (m, .error .invalidContract)
      else
        (m.setSlot i (reserve (connect (m.slots i) request.connectionId) .preparedStart
          .reservedPreparedStart), .ok i)

def dialogTerminate (request : TerminateRequest) :
    Manager σ Pg Ss n × Except AdapterStatus (Fin n) :=
  if m.closed then (m, .error .closed)
  else if request.immediate then (m, .error .errorExecution)
  else
    match m.findDialog request.dialogId with
    | none => (m, .error .errorExecution)
    | some i =>
      if (m.slots i).ticket.live = true ∨
          ((m.slots i).row.state ≠ .prepared ∧ (m.slots i).row.state ≠ .running ∧
            (m.slots i).row.state ≠ .eventPending) then
        (m, .error .invalidContract)
      else (m.setSlot i (reserve (m.slots i) .terminate .reservedTerminate), .ok i)

/-! ## Tickets -/

variable (i : Fin n)

def frame : Frame σ Pg Ss := ⟨(m.slots i).row, m.host, [], 0⟩

def clearSlot : Manager σ Pg Ss n :=
  { m.setSlot i (.cleared Pg Ss (m.slots i).row.generation) with
    host := (clear cfg host (m.frame i)).host }

def settled (slot : Slot Pg Ss) (row : Row Pg Ss) : Slot Pg Ss :=
  ⟨row, { slot.ticket with kind := .none, live := false }⟩

def stale : Manager σ Pg Ss n :=
  { m with staleOperations := m.staleOperations + 1 }

def commit : Manager σ Pg Ss n :=
  let slot := m.slots i
  if slot.ticket.live = false then m.stale
  else
    let m := { m with acceptedOperations := m.acceptedOperations + 1 }
    match slot.ticket.kind.moves with
    | some (reserved, pending) =>
      if slot.row.state = reserved then
        m.setSlot i (settled slot { slot.row with state := pending })
      else (m.setSlot i (settled slot slot.row)).stale
    | none => (m.setSlot i (settled slot slot.row)).stale

def discard : Manager σ Pg Ss n :=
  let slot := m.slots i
  if slot.ticket.live = false then m.stale
  else
    let m := { m with discardedOperations := m.discardedOperations + 1 }
    match slot.ticket.kind with
    | .prepare | .directStart => m.clearSlot cfg host i
    | .preparedStart | .terminate =>
      m.setSlot i (settled slot
        { slot.row with
          state := slot.ticket.restoreState
          eventKind := slot.ticket.restoreEventKind })
    | .none => (m.setSlot i (settled slot slot.row)).stale

/-! ## Progress -/

/-- The rows that `run_ready` works on. -/
def eligible (state : RowState) : Bool :=
  match state with
  | .pendingPrepare | .pendingDirectStart | .pendingPreparedStart | .pendingTerminate
  | .eventPending => true
  | .running => cfg.runReady
  | _ => false

def progressSlot : Manager σ Pg Ss n × Status :=
  let (f, status) := progressRow cfg host (m.frame i)
  ({ m.setSlot i
      ⟨f.row, if f.row.state = .empty then .none else (m.slots i).ticket⟩ with host := f.host },
    status)

/-- The row after `i`. -/
def nextSlot : Fin n :=
  if h : i.1 + 1 < n then ⟨i.1 + 1, h⟩ else ⟨0, i.pos⟩

/-- The loop of `vxml_dialog_manager_run_ready`. -/
def runRows (maxWork : ℕ) : ℕ → ℕ → Manager σ Pg Ss n → Manager σ Pg Ss n × ℕ × Status
  | 0, processed, m => (m, processed, .ok)
  | rows + 1, processed, m =>
    if maxWork ≤ processed then (m, processed, .ok)
    else
      let i := m.nextProgressSlot
      let m := { m with nextProgressSlot := nextSlot i }
      if eligible cfg (m.slots i).row.state = false then runRows maxWork rows processed m
      else
        match progressSlot cfg host m i with
        | (m, .ok) => runRows maxWork rows (processed + 1) m
        | (m, status) => (m, processed + 1, status)

def runReady (m : Manager σ Pg Ss n) (maxWork : ℕ) : Manager σ Pg Ss n × ℕ × Status :=
  if maxWork = 0 then (m, 0, .invalidArgument)
  else if m.closed then (m, 0, .closed)
  else runRows cfg host maxWork n 0 m

def close (m : Manager σ Pg Ss n) : Manager σ Pg Ss n :=
  if m.closed then m
  else
    let m := Slots.sweep
      (fun m i => if (m.slots i).row.state ≠ .empty then m.clearSlot cfg host i else m)
      { m with closed := true }
    { m with host := host.closeUpstream m.host }

end Manager

/-! ## Operations in any order -/

inductive Action (n : ℕ)
  | dialogPrepare (source mediaType : Text)
  | dialogStart (request : StartRequest)
  | preparedDialogStart (request : PreparedStartRequest)
  | dialogTerminate (request : TerminateRequest)
  | commit (i : Fin n)
  | discard (i : Fin n)
  | runReady (maxWork : ℕ)
  | close

inductive Answer (n : ℕ)
  | ticket (result : Except AdapterStatus (Fin n × Text))
  | work (processed : ℕ) (status : Status)
  | done

namespace Manager

def answered (r : Manager σ Pg Ss n × Except AdapterStatus (Fin n)) :
    Manager σ Pg Ss n × Answer n :=
  (r.1, .ticket (r.2.map fun i => (i, (r.1.slots i).row.dialogId)))

variable (m : Manager σ Pg Ss n)

/-- **One operation.** -/
def call : Action n → Manager σ Pg Ss n × Answer n
  | .dialogPrepare source mediaType =>
    answered (m.prepareNewDialog cfg .prepare ⟨source, mediaType, []⟩)
  | .dialogStart request => answered (m.prepareNewDialog cfg .directStart request)
  | .preparedDialogStart request => answered (m.preparedDialogStart cfg request)
  | .dialogTerminate request => answered (m.dialogTerminate request)
  | .commit i => (m.commit i, .done)
  | .discard i => (m.discard cfg host i, .done)
  | .runReady maxWork =>
    let (m, processed, status) := m.runReady cfg host maxWork
    (m, .work processed status)
  | .close => (m.close cfg host, .done)

def step (a : Action n) : Option (Manager σ Pg Ss n) :=
  some (m.call cfg host a).1

def Initial : Prop :=
  (∀ i, m.slots i = .cleared Pg Ss 0) ∧ m.closed = false

abbrev Reachable : Prop := Machine.Reachable (step cfg host) Initial m

end Manager

/-! ## What holds of the rows -/

/-- An empty row is cleared, and the row of a live ticket is reserved. -/
structure Slot.Sound (slot : Slot Pg Ss) : Prop where
  empty : slot.row.state = .empty → slot = .cleared Pg Ss slot.row.generation
  settled : slot.ticket.live = false → slot.ticket.kind = .none
  reserved : slot.ticket.live = true →
    ∃ states, slot.ticket.kind.moves = some states ∧ slot.row.state = states.1
  restore : slot.ticket.live = true → slot.ticket.kind ≠ .prepare →
    slot.ticket.kind ≠ .directStart → slot.ticket.restoreState ≠ .empty

theorem TicketKind.moves_ne_empty {kind : TicketKind} {states : RowState × RowState}
    (h : kind.moves = some states) : states.1 ≠ .empty ∧ states.2 ≠ .empty := by
  cases kind <;> cases h <;> decide

variable {slot : Slot Pg Ss}

theorem Slot.Sound.live_ne_empty (h : slot.Sound) (hlive : slot.ticket.live = true) :
    slot.row.state ≠ .empty := by
  obtain ⟨states, hmoves, hstate⟩ := h.reserved hlive
  rw [hstate]
  exact (TicketKind.moves_ne_empty hmoves).1

theorem Slot.Sound.live_ne_prepared (h : slot.Sound) (hlive : slot.ticket.live = true) :
    slot.row.state ≠ .prepared := by
  obtain ⟨states, hmoves, hstate⟩ := h.reserved hlive
  rw [hstate]
  generalize slot.ticket.kind = kind at hmoves
  cases kind <;> cases hmoves <;> decide

theorem Slot.cleared_sound (generation : ℕ) : (Slot.cleared Pg Ss generation).Sound where
  empty := fun _ => rfl
  settled := fun _ => rfl
  reserved := fun h => by cases h
  restore := fun h => by cases h

theorem Slot.settled_sound (slot : Slot Pg Ss) {row : Row Pg Ss} (hrow : row.state ≠ .empty) :
    (Manager.settled slot row).Sound where
  empty := fun h => absurd h hrow
  settled := fun _ => rfl
  reserved := fun h => by cases h
  restore := fun h => by cases h

theorem Slot.reserve_sound (hslot : slot.row.state ≠ .empty) :
    (Manager.reserve slot .preparedStart .reservedPreparedStart).Sound ∧
      (Manager.reserve slot .terminate .reservedTerminate).Sound := by
  constructor
  · exact ⟨fun h => (by cases h), fun h => (by cases h), fun _ => ⟨_, rfl, rfl⟩,
      fun _ _ _ => hslot⟩
  · exact ⟨fun h => (by cases h), fun h => (by cases h), fun _ => ⟨_, rfl, rfl⟩,
      fun _ _ _ => hslot⟩

variable (f : Frame σ Pg Ss)

def Frame.Settled : Prop :=
  f.row.state = .empty → f.row = .cleared Pg Ss f.row.generation

theorem Frame.settled_of_ne {f : Frame σ Pg Ss} (h : f.row.state ≠ .empty) : f.Settled :=
  fun hempty => absurd hempty h

theorem published_settled (hpending : f.row.state ≠ .empty) : (published cfg host f).1.Settled := by
  unfold published
  cases f.row.eventKind with
  | none => exact Frame.settled_of_ne hpending
  | prepared =>
    intro hempty
    cases hempty
  | started =>
    dsimp only
    split_ifs
    · intro hempty
      cases hempty
    · intro hempty
      cases hempty
  | exit => exact fun _ => rfl
  | errorPrepare => exact fun _ => rfl
  | errorStart => exact fun _ => rfl
  | errorTerminate => exact fun _ => rfl

theorem publishEvent_settled (hpending : f.row.state ≠ .empty) :
    (publishEvent cfg host f).1.Settled := by
  have hkept := Frame.settled_of_ne hpending
  unfold publishEvent
  split_ifs
  · exact hkept
  cases eventName f.row.eventKind with
  | none => exact hkept
  | some name =>
    dsimp only
    obtain ⟨state, status⟩ := host.publish f.host (f.row.event name)
    cases status with
    | accepted => exact published_settled cfg host { f with host := state } hpending
    | full => exact hkept
    | closed => exact hkept
    | invalidArgument => exact hkept

theorem publishEvents_settled (fuel : ℕ) (f : Frame σ Pg Ss) (hrow : f.Settled) :
    (publishEvents cfg host fuel f).1.Settled := by
  induction fuel generalizing f with
  | zero => exact hrow
  | succ fuel ih =>
    unfold publishEvents
    by_cases hpending : f.row.state = .eventPending
    · rw [if_neg (not_not.mpr hpending)]
      have hpublished := publishEvent_settled cfg host f (by rw [hpending]; decide)
      generalize publishEvent cfg host f = result at hpublished ⊢
      obtain ⟨f', status⟩ := result
      cases status with
      | ok => exact ih f' hpublished
      | _ => exact hpublished
    · rw [if_pos hpending]
      exact hrow

theorem progressRow_settled (hstate : f.row.state ≠ .empty) :
    (progressRow cfg host f).1.Settled := by
  have hadvanced := advanceRow_state cfg host f hstate
  unfold progressRow
  generalize advanceRow cfg host f = result at hadvanced ⊢
  obtain ⟨f', status⟩ := result
  cases status with
  | ok => exact publishEvents_settled cfg host 2 f' (Frame.settled_of_ne hadvanced)
  | _ => exact Frame.settled_of_ne hadvanced

namespace Manager

def Sound (m : Manager σ Pg Ss n) : Prop := ∀ i, (m.slots i).Sound

variable {m : Manager σ Pg Ss n} {i j : Fin n}

@[simp] theorem setSlot_self (m : Manager σ Pg Ss n) (i : Fin n) (slot : Slot Pg Ss) :
    (m.setSlot i slot).slots i = slot := by
  exact update_self i slot m.slots

theorem setSlot_of_ne (m : Manager σ Pg Ss n) (slot : Slot Pg Ss) (h : j ≠ i) :
    (m.setSlot i slot).slots j = m.slots j := by
  exact update_of_ne h slot m.slots

theorem Sound.setSlot (h : m.Sound) (hslot : slot.Sound) : (m.setSlot i slot).Sound := by
  intro j
  by_cases hj : j = i
  · rw [hj, setSlot_self]
    exact hslot
  · rw [setSlot_of_ne m slot hj]
    exact h j

theorem Sound.clearSlot (h : m.Sound) (i : Fin n) : (m.clearSlot cfg host i).Sound :=
  h.setSlot (Slot.cleared_sound _)

theorem findDialog_eq_some {dialogId : Text} (h : m.findDialog dialogId = some i) :
    (m.slots i).row.state ≠ .empty := by
  unfold findDialog at h
  split_ifs at h
  have hfound := (Fin.find?_eq_some_iff.mp h).1
  simp only [Bool.and_eq_true, decide_eq_true_eq] at hfound
  exact hfound.1

theorem Sound.prepareNewDialog (h : m.Sound) (kind : TicketKind)
    (hkind : kind = .prepare ∨ kind = .directStart) (request : StartRequest) :
    (m.prepareNewDialog cfg kind request).1.Sound := by
  unfold Manager.prepareNewDialog
  split_ifs
  · exact h
  · exact h
  cases m.findEmptyRow with
  | none => exact h
  | some i =>
    dsimp only
    split_ifs
    · exact h.setSlot (Slot.cleared_sound _)
    · refine h.setSlot ⟨fun hempty => ?_, fun hlive => (by cases hlive), fun _ => ?_,
        fun _ hprepare hstart => ?_⟩
      · rcases hkind with rfl | rfl <;> cases hempty
      · rcases hkind with rfl | rfl <;> exact ⟨_, rfl, rfl⟩
      · exact absurd hkind (not_or.mpr ⟨hprepare, hstart⟩)

theorem Sound.preparedDialogStart (h : m.Sound) (request : PreparedStartRequest) :
    (m.preparedDialogStart cfg request).1.Sound := by
  unfold Manager.preparedDialogStart
  split_ifs
  · exact h
  cases hfind : m.findDialog request.dialogId with
  | none => exact h
  | some i =>
    dsimp only
    split_ifs
    · exact h
    · have hrow : (connect (m.slots i) request.connectionId).row.state ≠ .empty :=
        findDialog_eq_some hfind
      exact h.setSlot (Slot.reserve_sound hrow).1

theorem Sound.dialogTerminate (h : m.Sound) (request : TerminateRequest) :
    (m.dialogTerminate request).1.Sound := by
  unfold Manager.dialogTerminate
  split_ifs
  · exact h
  · exact h
  cases hfind : m.findDialog request.dialogId with
  | none => exact h
  | some i =>
    dsimp only
    split_ifs
    · exact h
    · exact h.setSlot (Slot.reserve_sound (findDialog_eq_some hfind)).2

theorem Sound.commit (h : m.Sound) (i : Fin n) : (m.commit i).Sound := by
  unfold Manager.commit
  dsimp only
  split_ifs with hlive
  · exact h
  have hempty := (h i).live_ne_empty (Bool.eq_true_of_not_eq_false hlive)
  cases hmoves : (m.slots i).ticket.kind.moves with
  | none => exact h.setSlot (Slot.settled_sound _ hempty)
  | some states =>
    dsimp only
    split_ifs
    · exact h.setSlot (Slot.settled_sound _ (TicketKind.moves_ne_empty hmoves).2)
    · exact h.setSlot (Slot.settled_sound _ hempty)

theorem Sound.discard (h : m.Sound) (i : Fin n) : (m.discard cfg host i).Sound := by
  unfold Manager.discard
  dsimp only
  split_ifs with hlive
  · exact h
  have hlive' := Bool.eq_true_of_not_eq_false hlive
  have hrestore := (h i).restore hlive'
  cases hkind : (m.slots i).ticket.kind with
  | none => exact h.setSlot (Slot.settled_sound _ ((h i).live_ne_empty hlive'))
  | prepare => exact h.clearSlot cfg host i
  | directStart => exact h.clearSlot cfg host i
  | preparedStart =>
    rw [hkind] at hrestore
    exact h.setSlot (Slot.settled_sound _ (hrestore (by decide) (by decide)))
  | terminate =>
    rw [hkind] at hrestore
    exact h.setSlot (Slot.settled_sound _ (hrestore (by decide) (by decide)))

theorem not_live_of_eligible (h : slot.Sound) (heligible : eligible cfg slot.row.state = true) :
    slot.ticket.live = false := by
  by_contra hlive
  obtain ⟨states, hmoves, hstate⟩ := h.reserved (Bool.eq_true_of_not_eq_false hlive)
  rw [hstate] at heligible
  generalize slot.ticket.kind = kind at hmoves
  cases kind <;> cases hmoves <;> cases heligible

theorem eligible_ne_empty {state : RowState} (h : eligible cfg state = true) : state ≠ .empty := by
  rintro rfl
  cases h

theorem Sound.progressSlot (h : m.Sound) (heligible : eligible cfg (m.slots i).row.state = true) :
    (m.progressSlot cfg host i).1.Sound := by
  have hlive := not_live_of_eligible cfg (h i) heligible
  have hsettled := progressRow_settled cfg host (m.frame i) (eligible_ne_empty cfg heligible)
  unfold Manager.progressSlot
  generalize progressRow cfg host (m.frame i) = result at hsettled ⊢
  obtain ⟨f, status⟩ := result
  refine h.setSlot ?_
  by_cases hempty : f.row.state = .empty
  · have hcleared : f.row = .cleared Pg Ss f.row.generation := hsettled hempty
    rw [if_pos hempty, hcleared]
    exact Slot.cleared_sound _
  · rw [if_neg hempty]
    exact ⟨fun h => absurd h hempty, (h i).settled,
      fun h => absurd (hlive.symm.trans h) (by decide),
      fun h => absurd (hlive.symm.trans h) (by decide)⟩

theorem Sound.runRows (h : m.Sound) (maxWork rows processed : ℕ) :
    (runRows cfg host maxWork rows processed m).1.Sound := by
  induction rows generalizing processed m with
  | zero => exact h
  | succ rows ih =>
    unfold Manager.runRows
    split_ifs with hwork
    · exact h
    dsimp only
    have hmoved : Sound { m with nextProgressSlot := nextSlot m.nextProgressSlot } := h
    split_ifs with hskip
    · exact ih hmoved processed
    · have hdone := hmoved.progressSlot cfg host (i := m.nextProgressSlot)
        (Bool.eq_true_of_not_eq_false hskip)
      generalize Manager.progressSlot cfg host _ m.nextProgressSlot = result at hdone ⊢
      obtain ⟨m', status⟩ := result
      cases status with
      | ok => exact ih hdone (processed + 1)
      | _ => exact hdone

theorem Sound.close (h : m.Sound) : (m.close cfg host).Sound := by
  unfold Manager.close
  split_ifs
  · exact h
  · refine Slots.sweep_induction (fun _ (m : Manager σ Pg Ss n) => m.Sound) h ?_
    intro i m hm
    split_ifs
    · exact hm.clearSlot cfg host i
    · exact hm

/-- **One operation.** -/
theorem Sound.call (h : m.Sound) (a : Action n) : (m.call cfg host a).1.Sound := by
  cases a with
  | dialogPrepare source mediaType => exact h.prepareNewDialog cfg .prepare (.inl rfl) _
  | dialogStart request => exact h.prepareNewDialog cfg .directStart (.inr rfl) request
  | preparedDialogStart request => exact h.preparedDialogStart cfg request
  | dialogTerminate request => exact h.dialogTerminate request
  | commit i => exact h.commit i
  | discard i => exact h.discard cfg host i
  | runReady maxWork =>
    change (m.runReady cfg host maxWork).1.Sound
    unfold Manager.runReady
    split_ifs
    · exact h
    · exact h
    · exact h.runRows cfg host maxWork n 0
  | close => exact h.close cfg host

/-- **The rows of every reachable manager.** -/
theorem Reachable.sound (h : Reachable cfg host m) : m.Sound := by
  refine Machine.Reachable.invariant ?_ ?_ h
  · rintro m ⟨hslots, -⟩ i
    rw [hslots i]
    exact Slot.cleared_sound 0
  · intro m a m' hm hstep
    cases hstep
    exact hm.call cfg host a

end Manager

end TurboScxml.Voice.Dialog
