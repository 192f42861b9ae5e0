import TurboScxml.Lib.Lockstep
import TurboScxml.Voice.DialogManager

/-!
# Discarded dialog tickets

`voicexml_dialog_manager.c`: `ticket_discard` gives back the row that a request has reserved.

* `Slot.Like`, `Manager.Like`: managers that differ in what a settled ticket would have restored, or
  in the generation of an empty row (`Like.call`);
* `discarded_restores_iff`: a discarded ticket restores the manager, unless it is that of a prepared
  start on another connection.
-/

namespace TurboScxml.Voice.Dialog

open Function

variable {σ Pg Ss : Type} {n : ℕ} (cfg : Config) (host : Host σ Pg Ss)

/-! ## Managers that cannot be told apart -/

/-- Slots that differ in what does not matter. -/
inductive Slot.Like (fresh : Prop) : Slot Pg Ss → Slot Pg Ss → Prop
  | same (slot : Slot Pg Ss) : Like fresh slot slot
  | settled {row : Row Pg Ss} {ticket ticket' : Ticket} (hrow : row.state ≠ .empty)
      (h : ticket.live = false) (h' : ticket'.live = false) :
      Like fresh ⟨row, ticket⟩ ⟨row, ticket'⟩
  | empty (h : fresh) (generation generation' : ℕ) :
      Like fresh (.cleared Pg Ss generation) (.cleared Pg Ss generation')

namespace Slot.Like

variable {fresh : Prop} {slot slot' : Slot Pg Ss} (h : Like fresh slot slot')
include h

theorem state : slot.row.state = slot'.row.state := by
  cases h <;> rfl

theorem dialogId : slot.row.dialogId = slot'.row.dialogId := by
  cases h <;> rfl

theorem live : slot.ticket.live = slot'.ticket.live := by
  cases h with
  | same => rfl
  | settled _ h h' => exact h.trans h'.symm
  | empty => rfl

theorem row (hstate : slot'.row.state ≠ .empty) : slot.row = slot'.row := by
  cases h with
  | same => rfl
  | settled => rfl
  | empty => exact absurd rfl hstate

theorem eq_of_empty (hfresh : ¬ fresh) (hstate : slot'.row.state = .empty) : slot = slot' := by
  cases h with
  | same => rfl
  | settled hrow => exact absurd hstate hrow
  | empty h => exact absurd h hfresh

theorem eq_of_live (hlive : slot'.ticket.live = true) : slot = slot' := by
  cases h with
  | same => rfl
  | settled _ _ h' => exact absurd (h'.symm.trans hlive) (by decide)
  | empty => cases hlive

omit h

end Slot.Like

structure Manager.Like (fresh : Fin n → Prop) (m m' : Manager σ Pg Ss n) : Prop where
  slots : ∀ i, (m.slots i).Like (fresh i) (m'.slots i)
  host : m.host = m'.host
  closed : m.closed = m'.closed
  next : m.nextProgressSlot = m'.nextProgressSlot

def Manager.leaves (i : Fin n) (m : Manager σ Pg Ss n) (a : Action n) : Prop :=
  match a with
  | .dialogPrepare _ _ | .dialogStart _ => m.findEmptyRow ≠ some i
  | _ => True

/-- The answer, and the host with its event sink. -/
def Manager.observe (m : Manager σ Pg Ss n) (a : Action n) : Manager σ Pg Ss n × Answer n × σ :=
  ((m.call cfg host a).1, (m.call cfg host a).2, (m.call cfg host a).1.host)

namespace Manager.Like

variable {fresh : Fin n → Prop} {m m' : Manager σ Pg Ss n} {i : Fin n} (h : Like fresh m m')
include h

theorem of_slots {m₁ m₁' : Manager σ Pg Ss n} (hslots : m₁.slots = m.slots)
    (hslots' : m₁'.slots = m'.slots) (hhost : m₁.host = m.host) (hhost' : m₁'.host = m'.host)
    (hclosed : m₁.closed = m.closed) (hclosed' : m₁'.closed = m'.closed)
    (hnext : m₁.nextProgressSlot = m.nextProgressSlot)
    (hnext' : m₁'.nextProgressSlot = m'.nextProgressSlot) : Like fresh m₁ m₁' := by
  refine ⟨fun i => ?_, ?_, ?_, ?_⟩
  · rw [hslots, hslots']
    exact h.slots i
  · rw [hhost, hhost', h.host]
  · rw [hclosed, hclosed', h.closed]
  · rw [hnext, hnext', h.next]

theorem setSlot {slot slot' : Slot Pg Ss}
    (hslot : slot.Like (fresh i) slot') : Like fresh (m.setSlot i slot) (m'.setSlot i slot') := by
  refine ⟨fun j => ?_, h.host, h.closed, h.next⟩
  by_cases hj : j = i
  · subst hj
    rw [setSlot_self, setSlot_self]
    exact hslot
  · rw [setSlot_of_ne m slot hj, setSlot_of_ne m' slot' hj]
    exact h.slots j

theorem withHost (state : σ) : Like fresh { m with host := state } { m' with host := state } :=
  ⟨h.slots, rfl, h.closed, h.next⟩

theorem stale : Like fresh m.stale m'.stale :=
  ⟨h.slots, h.host, h.closed, h.next⟩

theorem findEmptyRow : m.findEmptyRow = m'.findEmptyRow := by
  have hstate : ∀ i, (m.slots i).row.state = (m'.slots i).row.state := fun i => (h.slots i).state
  simp only [Manager.findEmptyRow, hstate]

theorem findDialog (dialogId : Text) : m.findDialog dialogId = m'.findDialog dialogId := by
  have hstate : ∀ i, (m.slots i).row.state = (m'.slots i).row.state := fun i => (h.slots i).state
  have hname : ∀ i, (m.slots i).row.dialogId = (m'.slots i).row.dialogId :=
    fun i => (h.slots i).dialogId
  simp only [Manager.findDialog, hstate, hname]

theorem frame (hstate : (m'.slots i).row.state ≠ .empty) : m.frame i = m'.frame i := by
  unfold Manager.frame
  rw [(h.slots i).row hstate, h.host]

theorem clearSlot (hstate : (m'.slots i).row.state ≠ .empty) :
    Like fresh (m.clearSlot cfg host i) (m'.clearSlot cfg host i) := by
  unfold Manager.clearSlot
  rw [h.frame hstate, (h.slots i).row hstate]
  exact (h.setSlot (.same _)).withHost _

/-! ## Requests -/

theorem prepareNewDialog (hleaves : ∀ i, fresh i → m.findEmptyRow ≠ some i)
    (kind : TicketKind) (request : StartRequest) :
    (m.prepareNewDialog cfg kind request).2 = (m'.prepareNewDialog cfg kind request).2 ∧
      Like fresh (m.prepareNewDialog cfg kind request).1
        (m'.prepareNewDialog cfg kind request).1 := by
  unfold Manager.prepareNewDialog
  rw [h.closed]
  split_ifs
  · exact ⟨rfl, h⟩
  · exact ⟨rfl, h⟩
  rw [h.findEmptyRow] at hleaves ⊢
  cases hfind : m'.findEmptyRow with
  | none => exact ⟨rfl, h.slots, h.host, rfl, h.next⟩
  | some i =>
    have hempty : (m'.slots i).row.state = .empty := by
      have hfound := (Fin.find?_eq_some_iff.mp hfind).1
      exact of_decide_eq_true hfound
    have hslot := (h.slots i).eq_of_empty (fun hfresh => hleaves i hfresh hfind) hempty
    dsimp only
    rw [hslot]
    split_ifs
    · exact ⟨rfl, h.setSlot (.same _)⟩
    · exact ⟨rfl, h.setSlot (.same _)⟩

theorem preparedDialogStart (request : PreparedStartRequest) :
    (m.preparedDialogStart cfg request).2 = (m'.preparedDialogStart cfg request).2 ∧
      Like fresh (m.preparedDialogStart cfg request).1 (m'.preparedDialogStart cfg request).1 := by
  unfold Manager.preparedDialogStart
  rw [h.closed, h.findDialog]
  split_ifs
  · exact ⟨rfl, h⟩
  cases hfind : m'.findDialog request.dialogId with
  | none => exact ⟨rfl, h⟩
  | some i =>
    have hrow := (h.slots i).row (findDialog_eq_some hfind)
    dsimp only
    rw [hrow]
    split_ifs
    · exact ⟨rfl, h⟩
    · have hslot : reserve (connect (m.slots i) request.connectionId) .preparedStart
          .reservedPreparedStart = reserve (connect (m'.slots i) request.connectionId)
            .preparedStart .reservedPreparedStart := by
        simp only [reserve, connect, hrow]
      rw [hslot]
      exact ⟨rfl, h.setSlot (.same _)⟩

theorem dialogTerminate (request : TerminateRequest) :
    (m.dialogTerminate request).2 = (m'.dialogTerminate request).2 ∧
      Like fresh (m.dialogTerminate request).1 (m'.dialogTerminate request).1 := by
  unfold Manager.dialogTerminate
  rw [h.closed, h.findDialog]
  split_ifs
  · exact ⟨rfl, h⟩
  · exact ⟨rfl, h⟩
  cases hfind : m'.findDialog request.dialogId with
  | none => exact ⟨rfl, h⟩
  | some i =>
    have hrow := (h.slots i).row (findDialog_eq_some hfind)
    dsimp only
    rw [hrow, (h.slots i).live]
    split_ifs
    · exact ⟨rfl, h⟩
    · have hslot : reserve (m.slots i) .terminate .reservedTerminate
          = reserve (m'.slots i) .terminate .reservedTerminate := by
        simp only [reserve, hrow]
      rw [hslot]
      exact ⟨rfl, h.setSlot (.same _)⟩

/-! ## Tickets -/

theorem commit (i : Fin n) : Like fresh (m.commit i) (m'.commit i) := by
  unfold Manager.commit
  dsimp only
  rw [(h.slots i).live]
  split_ifs with hlive
  · exact h.stale
  rw [(h.slots i).eq_of_live (Bool.eq_true_of_not_eq_false hlive)]
  cases (m'.slots i).ticket.kind.moves with
  | none => exact (h.setSlot (.same _)).of_slots rfl rfl rfl rfl rfl rfl rfl rfl
  | some states =>
    dsimp only
    split_ifs
    · exact (h.setSlot (.same _)).of_slots rfl rfl rfl rfl rfl rfl rfl rfl
    · exact (h.setSlot (.same _)).of_slots rfl rfl rfl rfl rfl rfl rfl rfl

theorem discard (hsound : m'.Sound) (i : Fin n) :
    Like fresh (m.discard cfg host i) (m'.discard cfg host i) := by
  unfold Manager.discard
  dsimp only
  rw [(h.slots i).live]
  split_ifs with hlive
  · exact h.stale
  have hlive' := Bool.eq_true_of_not_eq_false hlive
  have hclear := h.clearSlot cfg host ((hsound i).live_ne_empty hlive')
  rw [(h.slots i).eq_of_live hlive']
  cases (m'.slots i).ticket.kind with
  | none => exact (h.setSlot (.same _)).of_slots rfl rfl rfl rfl rfl rfl rfl rfl
  | prepare => exact hclear.of_slots rfl rfl rfl rfl rfl rfl rfl rfl
  | directStart => exact hclear.of_slots rfl rfl rfl rfl rfl rfl rfl rfl
  | preparedStart => exact (h.setSlot (.same _)).of_slots rfl rfl rfl rfl rfl rfl rfl rfl
  | terminate => exact (h.setSlot (.same _)).of_slots rfl rfl rfl rfl rfl rfl rfl rfl

/-! ## Progress -/

theorem progressSlot (heligible : eligible cfg (m'.slots i).row.state = true) (hsound : m'.Sound) :
    (m.progressSlot cfg host i).2 = (m'.progressSlot cfg host i).2 ∧
      Like fresh (m.progressSlot cfg host i).1 (m'.progressSlot cfg host i).1 := by
  have hstate := eligible_ne_empty cfg heligible
  have hlive' := not_live_of_eligible cfg (hsound i) heligible
  have hlive := (h.slots i).live.trans hlive'
  unfold Manager.progressSlot
  rw [h.frame hstate]
  generalize progressRow cfg host (m'.frame i) = result
  obtain ⟨f, status⟩ := result
  refine ⟨rfl, (h.setSlot ?_).withHost _⟩
  by_cases hempty : f.row.state = .empty
  · rw [if_pos hempty, if_pos hempty]
    exact .same _
  · rw [if_neg hempty, if_neg hempty]
    exact .settled hempty hlive hlive'

theorem runRows (hsound : m'.Sound) (maxWork rows processed : ℕ) :
    (Manager.runRows cfg host maxWork rows processed m).2
        = (Manager.runRows cfg host maxWork rows processed m').2 ∧
      Like fresh (Manager.runRows cfg host maxWork rows processed m).1
        (Manager.runRows cfg host maxWork rows processed m').1 := by
  induction rows generalizing processed m m' with
  | zero => exact ⟨rfl, h⟩
  | succ rows ih =>
    unfold Manager.runRows
    split_ifs with hwork
    · exact ⟨rfl, h⟩
    dsimp only
    rw [h.next, (h.slots m'.nextProgressSlot).state]
    have hmoved : Like fresh { m with nextProgressSlot := nextSlot m'.nextProgressSlot }
        { m' with nextProgressSlot := nextSlot m'.nextProgressSlot } :=
      ⟨h.slots, h.host, h.closed, rfl⟩
    have hsound' : Sound { m' with nextProgressSlot := nextSlot m'.nextProgressSlot } := hsound
    split_ifs with hskip
    · exact ih hmoved hsound' processed
    · have heligible := Bool.eq_true_of_not_eq_false hskip
      have hdone := hmoved.progressSlot cfg host (i := m'.nextProgressSlot) heligible hsound'
      have hsound₁ := hsound'.progressSlot cfg host (i := m'.nextProgressSlot) heligible
      generalize Manager.progressSlot cfg host { m with nextProgressSlot := _ } _ = r at hdone ⊢
      generalize Manager.progressSlot cfg host { m' with nextProgressSlot := _ } _ = r'
        at hdone hsound₁ ⊢
      obtain ⟨m₁, status⟩ := r
      obtain ⟨m₁', status'⟩ := r'
      obtain ⟨rfl, hlike⟩ := hdone
      cases status with
      | ok => exact ih hlike hsound₁ (processed + 1)
      | _ => exact ⟨rfl, hlike⟩

theorem close : Like fresh (m.close cfg host) (m'.close cfg host) := by
  have hswept : Like fresh
      (Slots.sweep
        (fun m i => if (m.slots i).row.state ≠ .empty then m.clearSlot cfg host i else m)
        { m with closed := true })
      (Slots.sweep
        (fun m i => if (m.slots i).row.state ≠ .empty then m.clearSlot cfg host i else m)
        { m' with closed := true }) := by
    refine Slots.sweep_rel (Like fresh) ⟨h.slots, h.host, rfl, h.next⟩ ?_
    intro i m m' h
    rw [(h.slots i).state]
    split_ifs with hstate
    · exact h.clearSlot cfg host hstate
    · exact h
  unfold Manager.close
  rw [h.closed]
  split_ifs
  · exact h
  · exact ⟨hswept.slots, congrArg host.closeUpstream hswept.host, hswept.closed, hswept.next⟩

omit h

theorem answered {r r' : Manager σ Pg Ss n × Except AdapterStatus (Fin n)}
    (h : r.2 = r'.2 ∧ Like fresh r.1 r'.1) :
    (Manager.answered r).2 = (Manager.answered r').2 ∧
      Like fresh (Manager.answered r).1 (Manager.answered r').1 := by
  obtain ⟨m, result⟩ := r
  obtain ⟨m', result'⟩ := r'
  obtain ⟨rfl, hlike⟩ := h
  refine ⟨?_, hlike⟩
  cases result with
  | error status => rfl
  | ok i =>
    have hname : (m.slots i).row.dialogId = (m'.slots i).row.dialogId := (hlike.slots i).dialogId
    simp only [Manager.answered, Except.map, hname]

/-- **One operation** answers the same in both. -/
theorem call (h : Like fresh m m') (hsound : m'.Sound) (a : Action n)
    (hleaves : ∀ i, fresh i → m.leaves i a) :
    (m.call cfg host a).2 = (m'.call cfg host a).2 ∧
      Like fresh (m.call cfg host a).1 (m'.call cfg host a).1 := by
  cases a with
  | dialogPrepare source mediaType =>
    exact answered (h.prepareNewDialog cfg hleaves .prepare ⟨source, mediaType, []⟩)
  | dialogStart request => exact answered (h.prepareNewDialog cfg hleaves .directStart request)
  | preparedDialogStart request => exact answered (h.preparedDialogStart cfg request)
  | dialogTerminate request => exact answered (h.dialogTerminate request)
  | commit i => exact ⟨rfl, h.commit i⟩
  | discard i => exact ⟨rfl, h.discard cfg host hsound i⟩
  | runReady maxWork =>
    have hready : (m.runReady cfg host maxWork).2 = (m'.runReady cfg host maxWork).2 ∧
        Like fresh (m.runReady cfg host maxWork).1 (m'.runReady cfg host maxWork).1 := by
      unfold Manager.runReady
      rw [h.closed]
      split_ifs
      · exact ⟨rfl, h⟩
      · exact ⟨rfl, h⟩
      · exact h.runRows cfg host hsound maxWork n 0
    refine ⟨?_, hready.2⟩
    simp only [Manager.call, hready.1]
  | close => exact ⟨rfl, h.close cfg host⟩

/-- **Every list of operations** is seen the same. -/
theorem answers (h : Like fresh m m') (hsound : m'.Sound) {as : List (Action n)}
    (hleaves : Lockstep.Allowed (observe cfg host) (fun m a => ∀ i, fresh i → m.leaves i a) m as) :
    Lockstep.answers (observe cfg host) m as = Lockstep.answers (observe cfg host) m' as := by
  refine Lockstep.answers_guarded (R := fun m m' => Like fresh m m' ∧ m'.Sound) ?_ ⟨h, hsound⟩
    hleaves
  rintro m m' a ⟨h, hsound⟩ hleaves
  obtain ⟨hanswer, hnext⟩ := h.call cfg host hsound a hleaves
  refine ⟨?_, hnext, hsound.call cfg host a⟩
  simp only [observe, hanswer, hnext.host]

end Manager.Like

namespace Manager

variable {m m₁ : Manager σ Pg Ss n} {i j : Fin n} {a : Action n}

/-! ## The row of a live ticket -/

def keeps (i : Fin n) : Action n → Bool
  | .commit j | .discard j => j ≠ i
  | .close => false
  | _ => true

theorem prepareNewDialog_keeps (hstate : (m.slots i).row.state ≠ .empty) (kind : TicketKind)
    (request : StartRequest) :
    (m.prepareNewDialog cfg kind request).1.slots i = m.slots i := by
  unfold prepareNewDialog
  split_ifs
  · rfl
  · rfl
  cases hfind : m.findEmptyRow with
  | none => rfl
  | some j =>
    have hj : i ≠ j := by
      rintro rfl
      have hfound := (Fin.find?_eq_some_iff.mp hfind).1
      exact hstate (of_decide_eq_true hfound)
    dsimp only
    split_ifs
    · exact setSlot_of_ne m _ hj
    · exact setSlot_of_ne m _ hj

theorem preparedDialogStart_keeps (hstate : (m.slots i).row.state ≠ .prepared)
    (request : PreparedStartRequest) :
    (m.preparedDialogStart cfg request).1.slots i = m.slots i := by
  unfold preparedDialogStart
  split_ifs
  · rfl
  cases m.findDialog request.dialogId with
  | none => rfl
  | some j =>
    dsimp only
    split_ifs with hinvalid
    · rfl
    · have hprepared : (m.slots j).row.state = .prepared :=
        not_not.mp fun h => hinvalid (.inl h)
      exact setSlot_of_ne m _ fun hj => hstate (by rw [hj, hprepared])

theorem dialogTerminate_keeps (hlive : (m.slots i).ticket.live = true)
    (request : TerminateRequest) : (m.dialogTerminate request).1.slots i = m.slots i := by
  unfold dialogTerminate
  split_ifs
  · rfl
  · rfl
  cases m.findDialog request.dialogId with
  | none => rfl
  | some j =>
    dsimp only
    split_ifs with hinvalid
    · rfl
    · exact setSlot_of_ne m _ fun hj => hinvalid (.inl (by rw [← hj, hlive]))

theorem commit_keeps (hj : j ≠ i) : (m.commit j).slots i = m.slots i := by
  unfold commit
  dsimp only
  split_ifs
  · rfl
  cases (m.slots j).ticket.kind.moves with
  | none => exact setSlot_of_ne m _ hj.symm
  | some states =>
    dsimp only
    split_ifs
    · exact setSlot_of_ne m _ hj.symm
    · exact setSlot_of_ne m _ hj.symm

theorem discard_keeps (hj : j ≠ i) : (m.discard cfg host j).slots i = m.slots i := by
  unfold discard
  dsimp only
  split_ifs
  · rfl
  cases (m.slots j).ticket.kind <;> exact setSlot_of_ne m _ hj.symm

theorem progressSlot_keeps (hj : j ≠ i) : (m.progressSlot cfg host j).1.slots i = m.slots i := by
  unfold progressSlot
  exact setSlot_of_ne m _ hj.symm

theorem runRows_keeps (hsound : m.Sound) (hlive : (m.slots i).ticket.live = true)
    (maxWork rows processed : ℕ) :
    (runRows cfg host maxWork rows processed m).1.slots i = m.slots i := by
  induction rows generalizing processed m with
  | zero => rfl
  | succ rows ih =>
    unfold runRows
    split_ifs
    · rfl
    dsimp only
    have hmoved : Sound { m with nextProgressSlot := nextSlot m.nextProgressSlot } := hsound
    split_ifs with hskip
    · exact ih hmoved hlive processed
    · have heligible := Bool.eq_true_of_not_eq_false hskip
      have hne : m.nextProgressSlot ≠ i := by
        rintro rfl
        have hdead := not_live_of_eligible cfg (hsound _) heligible
        exact absurd (hlive.symm.trans hdead) (by decide)
      have hdone := hmoved.progressSlot cfg host (i := m.nextProgressSlot) heligible
      have hsame := progressSlot_keeps cfg host
        (m := { m with nextProgressSlot := nextSlot m.nextProgressSlot }) hne
      generalize progressSlot cfg host _ m.nextProgressSlot = result at hdone hsame ⊢
      obtain ⟨m', status⟩ := result
      cases status with
      | ok => exact (ih hdone (by rw [hsame]; exact hlive) (processed + 1)).trans hsame
      | _ => exact hsame

/-- **The row of a live ticket** waits for it. -/
theorem call_keeps (hsound : m.Sound) (hlive : (m.slots i).ticket.live = true)
    (ha : keeps i a = true) : (m.call cfg host a).1.slots i = m.slots i := by
  have hstate := (hsound i).live_ne_empty hlive
  cases a with
  | dialogPrepare source mediaType => exact prepareNewDialog_keeps cfg hstate .prepare _
  | dialogStart request => exact prepareNewDialog_keeps cfg hstate .directStart request
  | preparedDialogStart request =>
    exact preparedDialogStart_keeps cfg ((hsound i).live_ne_prepared hlive) request
  | dialogTerminate request => exact dialogTerminate_keeps hlive request
  | commit j => exact commit_keeps (of_decide_eq_true ha)
  | discard j => exact discard_keeps cfg host (of_decide_eq_true ha)
  | runReady maxWork =>
    change (m.runReady cfg host maxWork).1.slots i = m.slots i
    unfold runReady
    split_ifs
    · rfl
    · rfl
    · exact runRows_keeps cfg host hsound hlive maxWork n 0
  | close => cases ha

theorem runs_keeps (hsound : m.Sound) (hlive : (m.slots i).ticket.live = true)
    (hrun : Machine.Runs (Machine.guarded (fun _ a => keeps i a) (step cfg host)) m m₁) :
    m₁.Sound ∧ m₁.slots i = m.slots i := by
  refine Machine.Runs.invariant (P := fun m₁ => m₁.Sound ∧ m₁.slots i = m.slots i) ?_ hrun
    ⟨hsound, rfl⟩
  rintro s a s' ⟨hs, hslot⟩ hstep
  obtain ⟨hkeeps, hstep⟩ := Machine.guarded_eq_some hstep
  cases hstep
  have hlive' : (s.slots i).ticket.live = true := by rw [hslot]; exact hlive
  exact ⟨hs.call cfg host a, (call_keeps cfg host hs hlive' hkeeps).trans hslot⟩

/-! ## Accepted requests -/

def Accepted (m : Manager σ Pg Ss n) (a : Action n) (i : Fin n) : Prop :=
  ∃ dialogId, (m.call cfg host a).2 = .ticket (.ok (i, dialogId))

def isNew : Action n → Bool
  | .dialogPrepare _ _ | .dialogStart _ => true
  | _ => false

def keepsConnection (m : Manager σ Pg Ss n) (a : Action n) (i : Fin n) : Bool :=
  match a with
  | .preparedDialogStart request => request.connectionId == (m.slots i).row.connectionId
  | _ => true

theorem answered_ok {r : Manager σ Pg Ss n × Except AdapterStatus (Fin n)} {dialogId : Text}
    (h : (answered r).2 = .ticket (.ok (i, dialogId))) : r.2 = .ok i := by
  obtain ⟨m, result⟩ := r
  cases result with
  | error status => cases h
  | ok j =>
    cases h
    rfl

structure Fresh (slot : Slot Pg Ss) : Prop where
  live : slot.ticket.live = true
  kind : slot.ticket.kind = .prepare ∨ slot.ticket.kind = .directStart
  session : slot.row.session = none
  document : slot.row.documentRef = none

theorem prepareNewDialog_ok (hsound : m.Sound) {kind : TicketKind}
    (hkind : kind = .prepare ∨ kind = .directStart) {request : StartRequest}
    (h : (m.prepareNewDialog cfg kind request).2 = .ok i) :
    ∃ slot, Fresh slot ∧ (m.prepareNewDialog cfg kind request).1 = m.setSlot i slot ∧
      m.slots i = .cleared Pg Ss (m.slots i).row.generation := by
  unfold prepareNewDialog at h ⊢
  by_cases hclosed : m.closed
  · rw [if_pos hclosed] at h
    cases h
  rw [if_neg hclosed] at h ⊢
  by_cases hvalid : newDialogValid cfg request = false
  · rw [if_pos hvalid] at h
    cases h
  rw [if_neg hvalid] at h ⊢
  cases hfind : m.findEmptyRow with
  | none =>
    rw [hfind] at h
    cases h
  | some j =>
    rw [hfind] at h
    dsimp only at h ⊢
    by_cases hlong : cfg.maxDialogIdBytes < (newRow (m.slots j).row j kind request).dialogId.length
    · rw [if_pos hlong] at h
      cases h
    rw [if_neg hlong] at h ⊢
    cases h
    have hempty : (m.slots i).row.state = .empty :=
      of_decide_eq_true (Fin.find?_eq_some_iff.mp hfind).1
    have hcleared := (hsound i).empty hempty
    refine ⟨_, ⟨rfl, hkind, ?_, ?_⟩, rfl, hcleared⟩
    · change (m.slots i).row.session = none
      rw [hcleared]
      rfl
    · change (m.slots i).row.documentRef = none
      rw [hcleared]
      rfl

def Takes (slot slot' : Slot Pg Ss) (connectionId : Text) : Prop :=
  ∃ kind state, (kind = .preparedStart ∨ kind = .terminate) ∧
    slot' = reserve (connect slot connectionId) kind state

variable {connectionId : Text}

theorem Takes.live {slot slot' : Slot Pg Ss}
    (h : Takes slot slot' connectionId) : slot'.ticket.live = true := by
  obtain ⟨kind, state, -, rfl⟩ := h
  rfl

theorem preparedDialogStart_ok (hsound : m.Sound) {request : PreparedStartRequest}
    (h : (m.preparedDialogStart cfg request).2 = .ok i) :
    (m.slots i).row.state ≠ .empty ∧ (m.slots i).ticket.live = false ∧
      ∃ slot, Takes (m.slots i) slot request.connectionId ∧
        (m.preparedDialogStart cfg request).1 = m.setSlot i slot := by
  unfold preparedDialogStart at h ⊢
  by_cases hclosed : m.closed
  · rw [if_pos hclosed] at h
    cases h
  rw [if_neg hclosed] at h ⊢
  cases hfind : m.findDialog request.dialogId with
  | none =>
    rw [hfind] at h
    cases h
  | some j =>
    rw [hfind] at h
    dsimp only at h ⊢
    split_ifs at h ⊢ with hinvalid
    cases h
    have hprepared : (m.slots i).row.state = .prepared := not_not.mp fun h => hinvalid (.inl h)
    refine ⟨findDialog_eq_some hfind, ?_, _, ⟨_, _, .inl rfl, rfl⟩, rfl⟩
    by_contra hlive
    exact (hsound i).live_ne_prepared (Bool.eq_true_of_not_eq_false hlive) hprepared

theorem dialogTerminate_ok {request : TerminateRequest}
    (h : (m.dialogTerminate request).2 = .ok i) :
    (m.slots i).row.state ≠ .empty ∧ (m.slots i).ticket.live = false ∧
      ∃ slot, Takes (m.slots i) slot (m.slots i).row.connectionId ∧
        (m.dialogTerminate request).1 = m.setSlot i slot := by
  unfold dialogTerminate at h ⊢
  by_cases hclosed : m.closed
  · rw [if_pos hclosed] at h
    cases h
  rw [if_neg hclosed] at h ⊢
  by_cases himmediate : request.immediate
  · rw [if_pos himmediate] at h
    cases h
  rw [if_neg himmediate] at h ⊢
  cases hfind : m.findDialog request.dialogId with
  | none =>
    rw [hfind] at h
    cases h
  | some j =>
    rw [hfind] at h
    dsimp only at h ⊢
    split_ifs at h ⊢ with hinvalid
    cases h
    refine ⟨findDialog_eq_some hfind, ?_, _, ⟨_, _, .inr rfl, rfl⟩, rfl⟩
    exact Bool.eq_false_of_not_eq_true fun hlive => hinvalid (.inl hlive)

structure Reserves (m : Manager σ Pg Ss n) (a : Action n) (i : Fin n) (slot : Slot Pg Ss) :
    Prop where
  call : (m.call cfg host a).1 = m.setSlot i slot
  live : slot.ticket.live = true
  fresh : isNew a = true →
    Fresh slot ∧ m.slots i = .cleared Pg Ss (m.slots i).row.generation
  taken : isNew a = false →
    (m.slots i).row.state ≠ .empty ∧ (m.slots i).ticket.live = false ∧
      ∃ connectionId, Takes (m.slots i) slot connectionId ∧
        (connectionId = (m.slots i).row.connectionId ↔ keepsConnection m a i = true)

/-- **An accepted request** reserves the slot of its ticket. -/
theorem Accepted.reserves (hm : m.Sound) (h : Accepted cfg host m a i) :
    ∃ slot, Reserves cfg host m a i slot := by
  obtain ⟨dialogId, hanswer⟩ := h
  cases a with
  | dialogPrepare source mediaType =>
    obtain ⟨slot, hfresh, hcall, hcleared⟩ :=
      prepareNewDialog_ok cfg hm (.inl rfl) (answered_ok hanswer)
    exact ⟨slot, hcall, hfresh.live, fun _ => ⟨hfresh, hcleared⟩, fun h => by cases h⟩
  | dialogStart request =>
    obtain ⟨slot, hfresh, hcall, hcleared⟩ :=
      prepareNewDialog_ok cfg hm (.inr rfl) (answered_ok hanswer)
    exact ⟨slot, hcall, hfresh.live, fun _ => ⟨hfresh, hcleared⟩, fun h => by cases h⟩
  | preparedDialogStart request =>
    obtain ⟨hstate, hdead, slot, htakes, hcall⟩ :=
      preparedDialogStart_ok cfg hm (answered_ok hanswer)
    exact ⟨slot, hcall, htakes.live, fun h => (by cases h),
      fun _ => ⟨hstate, hdead, request.connectionId, htakes, beq_iff_eq.symm⟩⟩
  | dialogTerminate request =>
    obtain ⟨hstate, hdead, slot, htakes, hcall⟩ := dialogTerminate_ok (answered_ok hanswer)
    exact ⟨slot, hcall, htakes.live, fun h => (by cases h),
      fun _ => ⟨hstate, hdead, _, htakes, iff_of_true rfl rfl⟩⟩
  | commit j => cases hanswer
  | discard j => cases hanswer
  | runReady maxWork => cases hanswer
  | close => cases hanswer

/-! ## Discarded tickets -/

theorem clear_host (f : Frame σ Pg Ss) (hsession : f.row.session = none)
    (hdocument : f.row.documentRef = none) : (clear cfg host f).host = f.host := by
  have hquiesced : quiesceSession cfg host f = f := by simp only [quiesceSession, hsession]
  have hclosed : destroySession cfg host f = f := by
    simp only [destroySession, hquiesced, hsession]
  have hprogram : (destroyProgram f).host = f.host := by
    unfold destroyProgram
    cases f.row.program <;> rfl
  have hreleased : releaseDocument cfg host (destroyProgram f) = destroyProgram f := by
    unfold releaseDocument
    rw [(destroyProgram_spec f).1]
    dsimp only
    rw [hdocument]
  unfold clear destroyRuntime
  rw [hclosed, hreleased, hprogram]

theorem clearSlot_of_idle (hsession : (m.slots i).row.session = none)
    (hdocument : (m.slots i).row.documentRef = none) :
    m.clearSlot cfg host i = m.setSlot i (.cleared Pg Ss (m.slots i).row.generation) := by
  unfold clearSlot
  rw [clear_host cfg host (m.frame i) hsession hdocument]
  rfl

theorem discard_fresh (h : Fresh (m.slots i)) :
    (m.discard cfg host i).slots
        = update m.slots i (.cleared Pg Ss (m.slots i).row.generation) ∧
      (m.discard cfg host i).host = m.host ∧ (m.discard cfg host i).closed = m.closed ∧
      (m.discard cfg host i).nextProgressSlot = m.nextProgressSlot := by
  have hclear := clearSlot_of_idle cfg host
    (m := { m with discardedOperations := m.discardedOperations + 1 }) h.session h.document
  unfold discard
  dsimp only
  rw [if_neg (by rw [h.live]; decide)]
  rcases h.kind with hkind | hkind
  · rw [hkind]
    dsimp only
    rw [hclear]
    exact ⟨rfl, rfl, rfl, rfl⟩
  · rw [hkind]
    dsimp only
    rw [hclear]
    exact ⟨rfl, rfl, rfl, rfl⟩

variable {slot : Slot Pg Ss}

theorem discard_taken (h : Takes slot (m.slots i) connectionId) :
    (m.discard cfg host i).slots = update m.slots i
        ⟨{ slot.row with connectionId := connectionId },
          ⟨.none, false, slot.row.state, slot.row.eventKind⟩⟩ ∧
      (m.discard cfg host i).host = m.host ∧ (m.discard cfg host i).closed = m.closed ∧
      (m.discard cfg host i).nextProgressSlot = m.nextProgressSlot := by
  obtain ⟨kind, state, hkind, hslot⟩ := h
  unfold discard
  dsimp only
  rw [hslot]
  rcases hkind with rfl | rfl
  · exact ⟨rfl, rfl, rfl, rfl⟩
  · exact ⟨rfl, rfl, rfl, rfl⟩

/-- **Rolled back.** Discarding the ticket in `m₁` gives the answers and the host of `m₁` with the
old row. -/
structure Restored (m m₁ : Manager σ Pg Ss n) (a : Action n) (i : Fin n) : Prop where
  empty : isNew a = true →
    ∃ generation, (m₁.discard cfg host i).slots i = .cleared Pg Ss generation
  existing : isNew a = false →
    ((m₁.discard cfg host i).slots i).row.state = (m.slots i).row.state ∧
      ((m₁.discard cfg host i).slots i).row.eventKind = (m.slots i).row.eventKind ∧
      ((m₁.discard cfg host i).slots i).row.connectionId = (m.slots i).row.connectionId
  others : ∀ j, j ≠ i → (m₁.discard cfg host i).slots j = m₁.slots j
  sameHost : (m₁.discard cfg host i).host = m₁.host
  later : ∀ as,
    (isNew a = true →
      Lockstep.Allowed (observe cfg host) (leaves i) (m₁.discard cfg host i) as) →
    Lockstep.answers (observe cfg host) (m₁.discard cfg host i) as
      = Lockstep.answers (observe cfg host) (m₁.setSlot i (m.slots i)) as

theorem discard_like {m m₁ : Manager σ Pg Ss n} {fresh : Fin n → Prop}
    (h : (m₁.discard cfg host i).slots = update m₁.slots i slot ∧
      (m₁.discard cfg host i).host = m₁.host ∧ (m₁.discard cfg host i).closed = m₁.closed ∧
      (m₁.discard cfg host i).nextProgressSlot = m₁.nextProgressSlot)
    (hslot : slot.Like (fresh i) (m.slots i)) :
    Like fresh (m₁.discard cfg host i) (m₁.setSlot i (m.slots i)) := by
  obtain ⟨hslots, hhost, hclosed, hnext⟩ := h
  refine ⟨fun j => ?_, hhost, hclosed, hnext⟩
  rw [hslots]
  by_cases hj : j = i
  · subst hj
    rw [update_self, setSlot_self]
    exact hslot
  · rw [update_of_ne hj, setSlot_of_ne m₁ _ hj]
    exact .same _

theorem discard_others (h : (m.discard cfg host i).slots = update m.slots i slot) (hj : j ≠ i) :
    (m.discard cfg host i).slots j = m.slots j := by
  rw [h, update_of_ne hj]

theorem restored_of_fresh (hm : m.Sound) (hnew : isNew a = true) (hfresh : Fresh (m₁.slots i))
    (hcleared : m.slots i = .cleared Pg Ss (m.slots i).row.generation) (hm₁ : m₁.Sound) :
    Restored cfg host m m₁ a i := by
  have hdiscard := discard_fresh cfg host hfresh
  have hself : (m₁.discard cfg host i).slots i
      = .cleared Pg Ss (m₁.slots i).row.generation := by
    rw [hdiscard.1, update_self]
  refine ⟨fun _ => ⟨_, hself⟩, fun h => absurd (hnew.symm.trans h) (by decide),
    fun j => discard_others cfg host hdiscard.1, hdiscard.2.1, fun as hallowed => ?_⟩
  have hlike : Like (fun j => j = i) (m₁.discard cfg host i) (m₁.setSlot i (m.slots i)) := by
    refine discard_like cfg host hdiscard ?_
    rw [hcleared]
    exact .empty rfl _ _
  refine hlike.answers cfg host (hm₁.setSlot (hm i)) ((hallowed hnew).imp ?_)
  rintro s b hleaves j rfl
  exact hleaves

theorem restored_of_takes (hm : m.Sound) (hnew : isNew a = false)
    (hstate : (m.slots i).row.state ≠ .empty) (hlive : (m.slots i).ticket.live = false)
    (htakes : Takes (m.slots i) (m₁.slots i) connectionId) (hm₁ : m₁.Sound) :
    Restored cfg host m m₁ a i ↔ connectionId = (m.slots i).row.connectionId := by
  have hdiscard := discard_taken cfg host htakes
  have hself := congrFun hdiscard.1 i
  rw [update_self] at hself
  constructor
  · intro h
    have hconnection := (h.existing hnew).2.2
    rwa [hself] at hconnection
  · rintro rfl
    refine ⟨fun h => absurd (hnew.symm.trans h) (by decide), fun _ => ?_,
      fun j => discard_others cfg host hdiscard.1, hdiscard.2.1, fun as _ => ?_⟩
    · rw [hself]
      exact ⟨rfl, rfl, rfl⟩
    have hlike : Like (fun _ => False) (m₁.discard cfg host i) (m₁.setSlot i (m.slots i)) :=
      discard_like cfg host hdiscard (.settled hstate rfl hlive)
    refine hlike.answers cfg host (hm₁.setSlot (hm i)) (Lockstep.Allowed.of_forall ?_ _ as)
    exact fun _ _ _ hfalse => hfalse.elim

/-- **Main.** A live ticket that is discarded after any other operations restores the manager if and
only if its request does not start a prepared dialog on another connection. -/
theorem discarded_restores_iff {m m₁ : Manager σ Pg Ss n} {a : Action n} {i : Fin n}
    (hm : Reachable cfg host m) (haccepted : Accepted cfg host m a i)
    (hrun : Machine.Runs (Machine.guarded (fun _ b => keeps i b) (step cfg host))
      (m.call cfg host a).1 m₁) :
    Restored cfg host m m₁ a i ↔ keepsConnection m a i = true := by
  have hsound := hm.sound
  obtain ⟨slot, hslot⟩ := haccepted.reserves cfg host hsound
  -- The slot of the ticket waits until it is discarded.
  have hself : (m.call cfg host a).1.slots i = slot := by rw [hslot.call, setSlot_self]
  obtain ⟨hm₁, hkept⟩ := runs_keeps cfg host (hsound.call cfg host a)
    (by rw [hself]; exact hslot.live) hrun
  obtain rfl : m₁.slots i = slot := hkept.trans hself
  cases hnew : isNew a with
  | true =>
    obtain ⟨hfresh, hcleared⟩ := hslot.fresh hnew
    have hkeeps : keepsConnection m a i = true := by
      cases a with
      | preparedDialogStart request => cases hnew
      | _ => rfl
    exact iff_of_true (restored_of_fresh cfg host hsound hnew hfresh hcleared hm₁) hkeeps
  | false =>
    obtain ⟨hstate, hdead, connectionId, htakes, hkeeps⟩ := hslot.taken hnew
    exact (restored_of_takes cfg host hsound hnew hstate hdead htakes hm₁).trans hkeeps

/-! ## A discarded prepared start -/

def recordedConfig : Config where
  maxSourceBytes := 4
  maxMediaTypeBytes := 32
  maxConnectionIdBytes := 4
  maxDialogIdBytes := 32
  maxDocumentBytes := 4
  storeBacked := false
  navigationEnabled := false
  submitEnabled := false
  multipartSubmitEnabled := false
  multipartCapable := false
  timeoutCapable := false
  maxNavigationHops := 0
  maxSubmitResponseBytes := 0
  maxSubmitBodyBytes := 0
  maxSubmitParts := 0
  maxSubmitBoundaryBytes := 0
  maxSubmitHeaderBytes := 0
  maxSubmitSegments := 0
  runReady := false
  executeScript := false
  maxScriptSteps := 0

def recordingHost : Host (List DialogEvent) Unit Unit where
  openDocument := fun events _ _ => (events, .ok, .bytes [0])
  closeDocument := id
  compile := fun events _ => (events, ⟨.ok, .ok, some ()⟩)
  resolve := fun _ _ reference => .ok (reference, [])
  acquire := fun events _ _ => (events, .error (DocumentStore.failed .full .ok .ok))
  view := fun _ _ => none
  release := fun events _ => events
  fetchAudioBegin := fun events _ _ => (events, .ok false)
  fetchAudioFinish := id
  submitSetting := fun _ => ⟨[], 16, false, true⟩
  prepareMultipart := fun _ _ => .error .unsupportedEncoding
  execute := fun events _ => (events, some .providerError, ⟨false, .null 0, [], []⟩)
  executeV2 := fun events _ => (events, some .providerError, ⟨false, .null 0, [], []⟩)
  closeResponse := id
  initSession := fun events _ => (events, .ok ())
  bindDocument := fun events _ _ => (events, (), .ok)
  startSession := fun events _ _ => (events, (), .ok)
  sessionState := fun _ => .running
  sessionError := fun _ => .ok
  navigationRequest := fun _ => .error .invalidState
  submitTarget := fun _ => .error .invalidState
  raiseHangup := fun events _ => (events, (), .ok)
  runReady := fun events _ => (events, (), .ok)
  executeScript := fun events _ _ => (events, (), .ok)
  quiesce := fun events _ => (events, ())
  closeSession := fun events _ => events
  publish := fun events event => (events ++ [event], .accepted)
  closeUpstream := id

def unused : Manager (List DialogEvent) Unit Unit 1 where
  slots := fun _ => .cleared Unit Unit 0
  host := []
  nextProgressSlot := 0
  closed := false
  acceptedOperations := 0
  discardedOperations := 0
  rejectedFull := 0
  staleOperations := 0

def operate (m : Manager (List DialogEvent) Unit Unit 1) (as : List (Action 1)) :
    Manager (List DialogEvent) Unit Unit 1 :=
  as.foldl (fun m a => (m.call recordedConfig recordingHost a).1) m

def preparedManager : Manager (List DialogEvent) Unit Unit 1 :=
  operate unused [.dialogPrepare ['d'] responseType, .commit 0, .runReady 1]

def startPrepared (connectionId : Text) : Action 1 :=
  .preparedDialogStart ⟨"vxml-1-1".toList, connectionId⟩

theorem preparedManager_reachable : Reachable recordedConfig recordingHost preparedManager := by
  have hexec : Machine.exec (step recordedConfig recordingHost) unused
      [.dialogPrepare ['d'] responseType, .commit 0, .runReady 1] = some preparedManager := rfl
  exact ⟨unused, ⟨fun _ => rfl, rfl⟩, Machine.exec_runs hexec⟩

theorem preparedManager_restored :
    Restored recordedConfig recordingHost preparedManager
      (preparedManager.call recordedConfig recordingHost
        (.dialogTerminate ⟨"vxml-1-1".toList, false⟩)).1
      (.dialogTerminate ⟨"vxml-1-1".toList, false⟩) 0 :=
  (discarded_restores_iff recordedConfig recordingHost preparedManager_reachable
    ⟨"vxml-1-1".toList, by rfl⟩ (Machine.Runs.refl _)).mpr rfl

theorem preparedManager_connected :
    ¬∀ (m : Manager (List DialogEvent) Unit Unit 1) (a : Action 1) (i : Fin 1),
      Reachable recordedConfig recordingHost m → Accepted recordedConfig recordingHost m a i →
      Restored recordedConfig recordingHost m (m.call recordedConfig recordingHost a).1 a i := by
  intro h
  have hrestored := h preparedManager (startPrepared ['c']) 0 preparedManager_reachable
    ⟨"vxml-1-1".toList, by rfl⟩
  have hlater := hrestored.later
    [.dialogTerminate ⟨"vxml-1-1".toList, false⟩, .commit 0, .runReady 1] (fun h => by cases h)
  have hevents := congrArg (List.map fun answer => answer.2) hlater
  revert hevents
  decide +kernel

end Manager

end TurboScxml.Voice.Dialog
