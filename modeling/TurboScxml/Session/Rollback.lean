import TurboScxml.Session.SendInvariant

/-!
# Rolling the delayed sends back

What has become, when a transaction is discarded, of the rows that were in the registry when it
began.

* `restored`: the registry the transaction found, without the sends reported done since then;
* `Recancelled`: a cancel of a send was staged and another cancel of it asked the adapter;
* `discard_restores_iff`: discarding restores the registry iff no send is cancelled twice.
-/

namespace TurboScxml.Session

open Function Machine

variable {cfg : Config}

/-- Blocks, starts or forwards of a transaction run. -/
def Lane.working (lane : Lane cfg) : Bool := lane != .idle && !lane.settling

namespace System

/-- What the transaction found, without the sends reported done. -/
def restored (s : System cfg) (k : Fin cfg.delayedSendCapacity) : DelayedSend :=
  if SendEvent.done (s.entry k).id ∈ s.history then .free else s.entry k

/-- A cancel of the send is staged, and then another asks. -/
def Recancelled (history : List SendEvent) (id : Text) : Prop :=
  [SendEvent.cancelStaged id, SendEvent.cancelAsked id].Sublist history

instance (history : List SendEvent) (id : Text) : Decidable (Recancelled history id) :=
  inferInstanceAs (Decidable (List.Sublist _ _))

def Undone (s : System cfg) (k : Fin cfg.delayedSendCapacity) : Prop :=
  (s.entry k).state = .active ∧ SendEvent.done (s.entry k).id ∉ s.history

instance (s : System cfg) (k : Fin cfg.delayedSendCapacity) : Decidable (Undone s k) :=
  inferInstanceAs (Decidable (_ ∧ _))

/-! ## Histories -/

variable {event : SendEvent}

section History

variable {history : List SendEvent} {id : Text}

theorem Recancelled.append (h : Recancelled history id) (events : List SendEvent) :
    Recancelled (history ++ events) id :=
  h.trans (List.sublist_append_left _ _)

theorem Recancelled.staged (h : Recancelled history id) : SendEvent.cancelStaged id ∈ history :=
  h.subset (by simp)

theorem recancelled_append_iff (hne : event ≠ .cancelAsked id) :
    Recancelled (history ++ [event]) id ↔ Recancelled history id := by
  refine ⟨fun h => ?_, fun h => h.append _⟩
  obtain ⟨front, back, hsplit, hfront, hback⟩ := List.sublist_append_iff.mp h
  cases back with
  | nil =>
    rw [List.append_nil] at hsplit
    rwa [← hsplit] at hfront
  | cons x xs =>
    obtain ⟨rfl, rfl⟩ : x = event ∧ xs = [] := by
      have hlen := hback.length_le
      have hmem := hback.subset (List.mem_cons_self (a := x) (l := xs))
      simp only [List.length_cons, List.length_nil] at hlen
      exact ⟨by simpa using hmem, List.length_eq_zero_iff.mp (by omega)⟩
    have hlast := congrArg List.getLast? hsplit
    simp only [List.getLast?_append, List.getLast?_singleton, List.getLast?_cons_cons,
      Option.some_or, Option.some.injEq] at hlast
    exact absurd hlast.symm hne

theorem recancelled_asked_iff :
    Recancelled (history ++ [.cancelAsked id]) id ↔ SendEvent.cancelStaged id ∈ history := by
  refine ⟨fun h => ?_, fun h => ?_⟩
  · have hmem := h.staged
    simpa using hmem
  · exact (List.singleton_sublist.mpr h).append (List.Sublist.refl [SendEvent.cancelAsked id])

end History

/-! ## The fate of a row -/

/-- What the cancels of a transaction have made of row `k`. -/
inductive RowFate (s : System cfg) (k : Fin cfg.delayedSendCapacity) : Prop
  /-- The send of the row is as it was. -/
  | untouched (hundone : Undone s k) (honce : ¬Recancelled s.history (s.entry k).id)
      (hrow : s.sends.delayedSends k = s.entry k)
      (hstaged : s.lane.working = true → SendEvent.cancelStaged (s.entry k).id ∉ s.history)
  | marked (hundone : Undone s k) (honce : ¬Recancelled s.history (s.entry k).id)
      (hrow : s.sends.delayedSends k
        = { s.entry k with state := .cancelReserved, previousState := .active })
      (hstaged : SendEvent.cancelStaged (s.entry k).id ∈ s.history ↔
        ∀ e, s.asked ≠ some (e, .cancel (s.entry k).id))
  | lost (hundone : Undone s k) (htwice : Recancelled s.history (s.entry k).id)
      (hrow : ((s.sends.delayedSends k).id = (s.entry k).id ∧
          (s.sends.delayedSends k).state = .cancelReserved ∧
          ((s.sends.delayedSends k).previousState = .cancelReserved ∨
            ((s.sends.delayedSends k).previousState = .free ∧
              ∀ e, s.asked ≠ some (e, .cancel (s.entry k).id)))) ∨
        (s.sends.delayedSends k = .free ∧ s.lane.working = false))
  | transient (hdone : ¬Undone s k) (hstate : (s.sends.delayedSends k).state ≠ .active)
      (hprevious : (s.sends.delayedSends k).state = .cancelReserved →
        (s.sends.delayedSends k).previousState ≠ .active)

def Tracking (s : System cfg) : Prop :=
  s.lane ≠ .committing ∧ (s.lane = .idle → s.outcome = .discarded)

/-- What has become of the rows. -/
structure Tracked (s : System cfg) : Prop where
  settled : ∀ k, s.entry k = .free ∨
    ((s.entry k).state = .active ∧ (s.entry k).previousState = .free)
  distinct : ∀ j k, (s.entry j).state = .active → (s.entry k).state = .active →
    (s.entry j).id = (s.entry k).id → j = k
  fate : Tracking s → ∀ k, RowFate s k

variable {s s' : System cfg} {k : Fin cfg.delayedSendCapacity}

structure SameEvents (s s' : System cfg) (k : Fin cfg.delayedSendCapacity) : Prop where
  entry : s'.entry = s.entry
  done : SendEvent.done (s.entry k).id ∈ s'.history ↔ SendEvent.done (s.entry k).id ∈ s.history
  staged : SendEvent.cancelStaged (s.entry k).id ∈ s'.history ↔
    SendEvent.cancelStaged (s.entry k).id ∈ s.history
  recancelled : Recancelled s'.history (s.entry k).id ↔ Recancelled s.history (s.entry k).id

theorem SameEvents.refl (hentry : s'.entry = s.entry) (hhistory : s'.history = s.history) :
    SameEvents s s' k := by
  constructor <;> simp [hentry, hhistory]

theorem SameEvents.append (hentry : s'.entry = s.entry)
    (hhistory : s'.history = s.history ++ [event]) (hdone : event ≠ .done (s.entry k).id)
    (hstaged : event ≠ .cancelStaged (s.entry k).id)
    (hasked : event ≠ .cancelAsked (s.entry k).id) :
    SameEvents s s' k where
  entry := hentry
  done := by simp [hhistory, hdone.symm]
  staged := by simp [hhistory, hstaged.symm]
  recancelled := by rw [hhistory, recancelled_append_iff hasked]

theorem SameEvents.undone (h : SameEvents s s' k) : Undone s' k ↔ Undone s k := by
  simp only [Undone, h.entry, h.done]

theorem RowFate.keep (h : RowFate s k) (hevents : SameEvents s s' k)
    (hrow : s'.sends.delayedSends k = s.sends.delayedSends k)
    (hasked : ∀ e, s'.asked = some (e, .cancel (s.entry k).id) ↔
      s.asked = some (e, .cancel (s.entry k).id))
    (hworking : s'.lane.working = true → s.lane.working = true) : RowFate s' k := by
  cases h with
  | untouched hundone honce hrow' hstaged =>
    refine .untouched (hevents.undone.mpr hundone) ?_ ?_ fun hw => ?_
    · rw [hevents.entry, hevents.recancelled]
      exact honce
    · rw [hevents.entry, hrow, hrow']
    · rw [hevents.entry, hevents.staged]
      exact hstaged (hworking hw)
  | marked hundone honce hrow' hstaged =>
    refine .marked (hevents.undone.mpr hundone) ?_ ?_ ?_
    · rw [hevents.entry, hevents.recancelled]
      exact honce
    · rw [hevents.entry, hrow, hrow']
    · rw [hevents.entry, hevents.staged, hstaged]
      simp only [ne_eq, hasked]
  | lost hundone htwice hrow' =>
    refine .lost (hevents.undone.mpr hundone) ?_ ?_
    · rw [hevents.entry, hevents.recancelled]
      exact htwice
    · rw [hevents.entry, hrow]
      simp only [ne_eq, hasked]
      refine hrow'.imp_right fun ⟨hfree, hw⟩ => ⟨hfree, ?_⟩
      exact Bool.eq_false_iff.mpr fun hw' => by simp [hworking hw'] at hw
  | transient hdone hstate hprevious =>
    refine .transient (fun hu => hdone (hevents.undone.mp hu)) ?_ ?_
    · rwa [hrow]
    · rwa [hrow]

theorem RowFate.row_of_id (h : RowFate s k) (hundone : Undone s k)
    (hdistinct : s.sends.LiveDistinct) {j : Fin cfg.delayedSendCapacity}
    (hlive : (s.sends.delayedSends j).state ≠ .free)
    (hid : (s.sends.delayedSends j).id = (s.entry k).id) (hworking : s.lane.working = true) :
    j = k := by
  refine hdistinct j k hlive ?_ ?_
  · cases h with
    | untouched _ _ hrow => simp [hrow, hundone.1]
    | marked _ _ hrow => simp [hrow]
    | lost _ _ hrow =>
      obtain ⟨-, hstate, -⟩ | ⟨-, hw⟩ := hrow
      · simp [hstate]
      · simp [hworking] at hw
    | transient hdone => exact absurd hundone hdone
  · cases h with
    | untouched _ _ hrow => rw [hid, hrow]
    | marked _ _ hrow => rw [hid, hrow]
    | lost _ _ hrow =>
      obtain ⟨hid', -⟩ | ⟨-, hw⟩ := hrow
      · rw [hid, hid']
      · simp [hworking] at hw
    | transient hdone => exact absurd hundone hdone

theorem RowFate.keepTransient (h : RowFate s k) (hdone : ¬Undone s k)
    (hentry : s'.entry = s.entry) (events : List SendEvent)
    (hhistory : s'.history = s.history ++ events)
    (hrow : (s.sends.delayedSends k).state ≠ .active →
      ((s.sends.delayedSends k).state = .cancelReserved →
        (s.sends.delayedSends k).previousState ≠ .active) →
      (s'.sends.delayedSends k).state ≠ .active ∧
        ((s'.sends.delayedSends k).state = .cancelReserved →
          (s'.sends.delayedSends k).previousState ≠ .active)) : RowFate s' k := by
  have hdone' : ¬Undone s' k := by
    rintro ⟨hactive, hnot⟩
    rw [hentry] at hactive hnot
    exact hdone ⟨hactive, fun hmem => hnot (by rw [hhistory]; exact List.mem_append_left _ hmem)⟩
  cases h with
  | untouched hundone => exact absurd hundone hdone
  | marked hundone => exact absurd hundone hdone
  | lost hundone => exact absurd hundone hdone
  | transient _ hstate hprevious =>
    obtain ⟨hstate', hprevious'⟩ := hrow hstate hprevious
    exact .transient hdone' hstate' hprevious'

theorem rolledBack_transient {row : DelayedSend} (kind : PreparedKind) (hstate : row.state ≠ .active)
    (hprevious : row.state = .cancelReserved → row.previousState ≠ .active) :
    (row.rolledBack kind).state ≠ .active ∧
      ((row.rolledBack kind).state = .cancelReserved →
        (row.rolledBack kind).previousState ≠ .active) := by
  obtain ⟨id, state, previous⟩ := row
  cases kind <;> cases state <;> cases previous <;>
    simp_all [DelayedSend.rolledBack, DelayedSend.free]

theorem Lane.working_of_runsBlocks {lane : Lane cfg} (h : lane.runsBlocks = true) :
    lane.working = true := by
  obtain ⟨hidle, hopen⟩ := Lane.of_runsBlocks h
  simp [Lane.working, hidle, hopen]

variable {e : Fin cfg.effectCapacity}

theorem RowFate.rolledBackSend (h : RowFate s k) (hs : s.SendsSound)
    (hused : (s.sends.preparedEffects e).inUse = true)
    (hkind : (s.sends.preparedEffects e).kind = .delayedSend)
    (hk : (s.sends.preparedEffects e).registryIndex = some k) (hentry : s'.entry = s.entry)
    (hhistory : s'.history = s.history)
    (hrow : s'.sends.delayedSends k = (s.sends.delayedSends k).rolledBack .delayedSend)
    (hasked : ∀ e, s'.asked = some (e, .cancel (s.entry k).id) ↔
      s.asked = some (e, .cancel (s.entry k).id))
    (hworking : s'.lane.working = true → s.lane.working = true) : RowFate s' k := by
  obtain ⟨hstate, hprevious⟩ := hs.no_send hused hkind hk
  have hlost := h
  cases h with
  | untouched hundone _ hrow' => simp [hrow', hundone.1] at hstate
  | marked _ _ hrow' => simp [hrow'] at hprevious
  | lost _ _ hrow' =>
    refine hlost.keep (.refl hentry hhistory) ?_ hasked hworking
    rw [hrow]
    obtain ⟨-, hcr, hp | ⟨hp, -⟩⟩ | ⟨hfree, -⟩ := hrow'
    · simp [DelayedSend.rolledBack, hcr, hp]
    · simp [DelayedSend.rolledBack, hcr, hp]
    · simp [DelayedSend.rolledBack, hfree, DelayedSend.free]
  | transient hdone =>
    refine hlost.keepTransient hdone hentry [] (by simp [hhistory]) fun h h' => ?_
    rw [hrow]
    exact rolledBack_transient _ h h'

/-- One mark is taken back; the second of two loses the send. -/
theorem RowFate.rolledBackCancel (h : RowFate s k) (hsettled : s.entry k = .free ∨
      ((s.entry k).state = .active ∧ (s.entry k).previousState = .free))
    (hactive : (s.sends.delayedSends k).state ≠ .active)
    (hentry : s'.entry = s.entry) (hhistory : s'.history = s.history)
    (hrow : s'.sends.delayedSends k = (s.sends.delayedSends k).rolledBack .cancel)
    (hasked' : s'.asked = none)
    (hasked : s'.lane.working = true →
      ∃ e, s.asked = some (e, .cancel (s.sends.delayedSends k).id))
    (hworking : s'.lane.working = true → s.lane.working = true) : RowFate s' k := by
  have hevents : SameEvents s s' k := .refl hentry hhistory
  have hfate := h
  cases h with
  | untouched hundone _ hrow' => simp [hrow', hundone.1] at hactive
  | marked hundone honce hrow' hstaged =>
    have hprevious : (s.entry k).previousState = .free := by
      obtain hfree | ⟨-, hprevious⟩ := hsettled
      · simp [DelayedSend.free] at hfree
        simp [Undone, hfree] at hundone
      · exact hprevious
    refine .untouched (hevents.undone.mpr hundone) ?_ ?_ fun hw => ?_
    · rw [hentry, hhistory]
      exact honce
    · rw [hentry, hrow, hrow']
      simp only [DelayedSend.rolledBack, reduceCtorEq, if_true, if_false]
      rw [← hundone.1, ← hprevious]
    · obtain ⟨e, hask⟩ := hasked hw
      rw [hrow'] at hask
      rw [hentry, hhistory, hstaged]
      exact fun hall => hall e hask
  | lost hundone htwice hrow' =>
    refine .lost (hevents.undone.mpr hundone) ?_ ?_
    · rw [hentry, hhistory]
      exact htwice
    · rw [hrow, hentry]
      obtain ⟨hid, hcr, hp | ⟨hp, hnone⟩⟩ | ⟨hfree, hw⟩ := hrow'
      · exact .inl (by simp [DelayedSend.rolledBack, hcr, hp, hid, hasked'])
      · refine .inr ⟨by simp [DelayedSend.rolledBack, hcr, hp], Bool.eq_false_iff.mpr fun hw => ?_⟩
        obtain ⟨e, hask⟩ := hasked hw
        exact hnone e (hid ▸ hask)
      · refine .inr ⟨by simp [DelayedSend.rolledBack, hfree, DelayedSend.free], ?_⟩
        exact Bool.eq_false_iff.mpr fun hw' => by simp [hworking hw'] at hw
  | transient hdone =>
    refine hfate.keepTransient hdone hentry [] (by simp [hhistory]) fun h h' => ?_
    rw [hrow]
    exact rolledBack_transient _ h h'

variable {id : Text}

theorem RowFate.mark (h : RowFate s k) (hid : (s.sends.delayedSends k).id = id)
    (hasked : s.asked = none) (hasked' : s'.asked = some (e, .cancel id))
    (hentry : s'.entry = s.entry) (hhistory : s'.history = s.history ++ [.cancelAsked id])
    (hrow : s'.sends.delayedSends k = { s.sends.delayedSends k with
      state := .cancelReserved, previousState := (s.sends.delayedSends k).state })
    (hworking : s.lane.working = true) : RowFate s' k := by
  have hundone' : Undone s k → Undone s' k := by
    rintro ⟨hactive, hnot⟩
    refine ⟨hentry ▸ hactive, ?_⟩
    simpa [hentry, hhistory] using hnot
  have hfate := h
  cases h with
  | untouched hundone honce hrow' hstaged =>
    obtain rfl : (s.entry k).id = id := by rw [← hid, hrow']
    refine .marked (hundone' hundone) ?_ ?_ ?_
    · rw [hentry, hhistory, recancelled_asked_iff]
      exact hstaged hworking
    · rw [hentry, hrow, hrow', hundone.1]
    · rw [hentry, hhistory, hasked']
      simpa using hstaged hworking
  | marked hundone honce hrow' hstaged =>
    obtain rfl : (s.entry k).id = id := by rw [← hid, hrow']
    refine .lost (hundone' hundone) ?_ (.inl ?_)
    · rw [hentry, hhistory, recancelled_asked_iff, hstaged]
      simp [hasked]
    · simp [hentry, hrow, hrow']
  | lost hundone htwice hrow' =>
    refine .lost (hundone' hundone) ?_ (.inl ?_)
    · rw [hentry, hhistory]
      exact htwice.append _
    · obtain ⟨hid', hcr, -⟩ | ⟨-, hw⟩ := hrow'
      · simp [hentry, hrow, hid', hcr]
      · simp [hworking] at hw
  | transient hdone =>
    refine hfate.keepTransient hdone hentry _ hhistory fun h h' => ?_
    simpa [hrow] using h

theorem RowFate.stage (h : RowFate s k) (hstate : (s.sends.delayedSends k).state = .cancelReserved)
    (hid : (s.sends.delayedSends k).id = id) (hasked : s.asked = some (e, .cancel id))
    (hasked' : s'.asked = none) (hentry : s'.entry = s.entry)
    (hhistory : s'.history = s.history ++ [.cancelStaged id])
    (hrow : s'.sends.delayedSends k = s.sends.delayedSends k) : RowFate s' k := by
  have hundone' : Undone s k → Undone s' k := by
    rintro ⟨hactive, hnot⟩
    refine ⟨hentry ▸ hactive, ?_⟩
    simpa [hentry, hhistory] using hnot
  have hfate := h
  cases h with
  | untouched hundone _ hrow' => simp [hrow', hundone.1] at hstate
  | marked hundone honce hrow' hstaged =>
    obtain rfl : (s.entry k).id = id := by rw [← hid, hrow']
    refine .marked (hundone' hundone) ?_ ?_ ?_
    · rw [hentry, hhistory, recancelled_append_iff (by simp)]
      exact honce
    · rw [hentry, hrow, hrow']
    · simp [hentry, hhistory, hasked']
  | lost hundone htwice hrow' =>
    refine .lost (hundone' hundone) ?_ (.inl ?_)
    · rw [hentry, hhistory]
      exact htwice.append _
    · obtain ⟨hid', -, hp | ⟨-, hnone⟩⟩ | ⟨hfree, -⟩ := hrow'
      · simp [hentry, hrow, hid', hstate, hp]
      · exact absurd hasked (hnone e ∘ (hid'.symm.trans hid ▸ ·))
      · simp [hfree, DelayedSend.free] at hstate
  | transient hdone =>
    refine hfate.keepTransient hdone hentry _ hhistory fun h h' => ?_
    rw [hrow]
    exact ⟨h, h'⟩

theorem RowFate.report (h : RowFate s k) (hid : (s.sends.delayedSends k).id = id)
    (haccepted : (s.sends.delayedSends k).state = .active ∨
      ((s.sends.delayedSends k).state = .cancelReserved ∧
        (s.sends.delayedSends k).previousState = .active)) (hentry : s'.entry = s.entry)
    (hhistory : s'.history = s.history ++ [.done id])
    (hstate : (s'.sends.delayedSends k).state ≠ .active)
    (hprevious : (s'.sends.delayedSends k).previousState ≠ .active) :
    (s.entry k).state = .active ∧ (s.entry k).id = id ∧ RowFate s' k := by
  have hdone : (s.entry k).id = id → RowFate s' k := by
    intro heq
    refine .transient (fun hundone => hundone.2 ?_) hstate fun _ => hprevious
    simp [hentry, hhistory, heq]
  cases h with
  | untouched hundone _ hrow =>
    rw [hrow] at hid
    exact ⟨hundone.1, hid, hdone hid⟩
  | marked hundone _ hrow =>
    rw [hrow] at hid
    exact ⟨hundone.1, hid, hdone hid⟩
  | lost _ _ hrow =>
    obtain ⟨-, hcr, hp | ⟨hp, -⟩⟩ | ⟨hfree, -⟩ := hrow
    · simp [hcr, hp] at haccepted
    · simp [hcr, hp] at haccepted
    · simp [hfree, DelayedSend.free] at haccepted
  | transient _ hactive hmarked =>
    obtain hact | ⟨hcr, hp⟩ := haccepted
    · exact absurd hact hactive
    · exact absurd hp (hmarked hcr)

theorem tracking_of_runsBlocks (h : s.lane.runsBlocks = true) : Tracking s := by
  obtain ⟨hidle, hopen⟩ := Lane.of_runsBlocks h
  refine ⟨?_, fun h => absurd h hidle⟩
  rintro hcommitting
  simp [hcommitting, Lane.settling] at hopen

theorem Tracked.report (h : Tracked s) {id : Text} (hlane' : s'.lane = s.lane)
    (hasked : s'.asked = s.asked) (hsends : s'.sends = (s.sends.reportSendDone id).1)
    (hhistory : s'.history
      = if (s.sends.reportSendDone id).2 then s.history ++ [.done id] else s.history)
    (hentry : s'.entry = s.entry) (houtcome : s'.outcome = s.outcome) : Tracked s' := by
  refine ⟨hentry ▸ h.settled, hentry ▸ h.distinct, fun htrack => ?_⟩
  have htrack' : Tracking s := ⟨hlane' ▸ htrack.1, fun hidle => houtcome ▸ htrack.2
    (hlane'.trans hidle)⟩
  have hfate := h.fate htrack'
  have hkeep : ∀ k, SameEvents s s' k →
      s'.sends.delayedSends k = s.sends.delayedSends k → RowFate s' k := fun k hevents hrow =>
    (hfate k).keep hevents hrow (by simp [hasked]) (by simp [hlane'])
  obtain hsame | ⟨j, hfind, htaken⟩ := SendTable.reportSendDone_cases s.sends id
  · rw [hsame] at hsends hhistory
    exact fun k => hkeep k (.refl hentry (by simpa using hhistory)) (by rw [hsends])
  · obtain ⟨-, hid⟩ := SendTable.findDelayedSendLocked_some hfind
    obtain ⟨hrow, haccepted, hhistory, hothers⟩ : ((s'.sends.delayedSends j).state ≠ .active ∧
        (s'.sends.delayedSends j).previousState ≠ .active) ∧
        ((s.sends.delayedSends j).state = .active ∨ ((s.sends.delayedSends j).state
          = .cancelReserved ∧ (s.sends.delayedSends j).previousState = .active)) ∧
        s'.history = s.history ++ [.done id] ∧
        ∀ k, k ≠ j → s'.sends.delayedSends k = s.sends.delayedSends k := by
      obtain ⟨hactive, hset⟩ | ⟨hcr, hp, hset⟩ := htaken
      · rw [hset] at hsends hhistory
        refine ⟨?_, .inl hactive, by simpa using hhistory, fun k hk => ?_⟩
        · simp [hsends, DelayedSend.free]
        · simp [hsends, update_of_ne hk]
      · rw [hset] at hsends hhistory
        refine ⟨?_, .inr ⟨hcr, hp⟩, by simpa using hhistory, fun k hk => ?_⟩
        · simp [hsends, hcr]
        · simp [hsends, update_of_ne hk]
    obtain ⟨hactive, hidj, hfate'⟩ :=
      (hfate j).report hid haccepted hentry hhistory hrow.1 hrow.2
    intro k
    by_cases hk : k = j
    · exact hk ▸ hfate'
    · by_cases hundone : Undone s k
      · have hne : (s.entry k).id ≠ id := fun heq =>
          hk (h.distinct k j hundone.1 hactive (heq.trans hidj.symm))
        exact hkeep k (.append hentry hhistory (by simpa using hne.symm) (by simp) (by simp))
          (hothers k hk)
      · refine (hfate k).keepTransient hundone hentry _ hhistory fun h h' => ?_
        rw [hothers k hk]
        exact ⟨h, h'⟩

/-- **The fate of every row after a step.** -/
theorem Tracked.move (h : Tracked s) (hs : s.SendsSound) (hmove : SendsMove s s') : Tracked s' := by
  cases hmove with
  | quiet haside hlane =>
    refine ⟨haside.entry ▸ h.settled, haside.entry ▸ h.distinct, fun htrack k => ?_⟩
    have htrack' : Tracking s := by
      obtain hlane | ⟨hidle, hopen, -, -⟩ := hlane
      · exact ⟨hlane ▸ htrack.1, fun hidle => haside.outcome ▸ htrack.2 (hlane.trans hidle)⟩
      · refine ⟨?_, fun h => absurd h hidle⟩
        rintro hcommitting
        simp [hcommitting, Lane.settling] at hopen
    refine (h.fate htrack' k).keep (.refl haside.entry haside.history) (by rw [haside.sends])
      (by simp [haside.asked]) fun hw => ?_
    obtain hlane | ⟨hidle, hopen, -, -⟩ := hlane
    · rwa [hlane] at hw
    · simp [Lane.working, hidle, hopen]
  | begin hlane hlane' hsends hasked hstaged hhistory hentry =>
    rw [← hsends] at hentry
    refine ⟨?_, ?_, fun _ k => ?_⟩
    · rw [hentry, hsends]
      exact hs.settled hlane
    · rw [hentry, hsends]
      exact fun j k hj hk => hs.distinct j k (by simp [hj]) (by simp [hk])
    · obtain hfree | ⟨hactive, -⟩ := hs.settled hlane k
      · refine .transient (fun hundone => ?_) ?_ fun hcr => ?_
        · simp [Undone, hentry, hsends, hfree, DelayedSend.free] at hundone
        · simp [hsends, hfree, DelayedSend.free]
        · simp [hsends, hfree, DelayedSend.free]
      · refine .untouched ⟨by rw [hentry, hsends, hactive], by simp [hhistory]⟩ ?_
          (by rw [hentry]) (by simp [hhistory])
        simp [hhistory, Recancelled]
  | askSend request e hlane hlane' hasked hasked' hok hprepared hhistory hentry houtcome =>
    refine ⟨hentry ▸ h.settled, hentry ▸ h.distinct, fun _ k => ?_⟩
    have hfate := h.fate (tracking_of_runsBlocks hlane) k
    have hworking := Lane.working_of_runsBlocks hlane
    have hkeep : s'.sends.delayedSends k = s.sends.delayedSends k → RowFate s' k := fun hrow =>
      hfate.keep (.refl hentry hhistory) hrow (by simp [hasked, hasked']) (by simp [hlane'])
    obtain ⟨-, ⟨-, htable⟩ | ⟨-, j, -, hfree, -, htable⟩⟩ := SendTable.executeSendReserve_ok hok
    · exact hkeep (by rw [htable]; rfl)
    · by_cases hk : k = j
      · subst hk
        have hdone : ¬Undone s k := by
          intro hundone
          cases hfate with
          | untouched _ _ hrow => simp [hrow, hundone.1] at hfree
          | marked _ _ hrow => simp [hrow] at hfree
          | lost _ _ hrow =>
            obtain ⟨-, hcr, -⟩ | ⟨-, hw⟩ := hrow
            · simp [hfree] at hcr
            · simp [hworking] at hw
          | transient hdone => exact hdone hundone
        refine hfate.keepTransient hdone hentry [] (by simp [hhistory]) fun _ _ => ?_
        simp [htable]
      · exact hkeep (by simp [htable, update_of_ne hk])
  | askCancel id e hlane hlane' hasked hasked' hok hprepared hhistory hentry houtcome =>
    refine ⟨hentry ▸ h.settled, hentry ▸ h.distinct, fun _ k => ?_⟩
    have hfate := h.fate (tracking_of_runsBlocks hlane) k
    have hworking := Lane.working_of_runsBlocks hlane
    obtain ⟨-, j, hfind, htable⟩ := SendTable.executeCancelReserve_ok hok
    obtain ⟨hlive, hid⟩ := SendTable.findDelayedSendLocked_some hfind
    by_cases hk : k = j
    · subst hk
      exact hfate.mark hid hasked hasked' hentry hhistory (by simp [htable]) hworking
    · have hrow : s'.sends.delayedSends k = s.sends.delayedSends k := by
        simp [htable, update_of_ne hk]
      by_cases hundone : Undone s k
      · have hne : (s.entry k).id ≠ id := fun heq =>
          hk (hfate.row_of_id hundone hs.distinct hlive (hid.trans heq.symm) hworking).symm
        refine hfate.keep (.append hentry hhistory (by simp) (by simp) (by simpa using hne.symm))
          hrow ?_ (by simp [hlane'])
        simp [hasked, hasked', hne.symm]
      · refine hfate.keepTransient hundone hentry _ hhistory fun h h' => ?_
        rw [hrow]
        exact ⟨h, h'⟩
  | accept e op hlane' hasked hasked' hsends hprepared hhistory hentry houtcome =>
    have hlane := hs.askedLane (by simp [hasked])
    have hworking := Lane.working_of_runsBlocks hlane
    refine ⟨hentry ▸ h.settled, hentry ▸ h.distinct, fun _ k => ?_⟩
    have hfate := h.fate (tracking_of_runsBlocks hlane) k
    have hrow : s'.sends.delayedSends k = s.sends.delayedSends k := by rw [hsends]; rfl
    cases op with
    | send id delayed =>
      exact hfate.keep (.refl hentry (by simpa [stagedEvent] using hhistory)) hrow
        (by simp [hasked, hasked']) (by simp [hlane'])
    | cancel id =>
      obtain ⟨j, hj, hstate, hid⟩ := hs.asked_cancel_row hasked
      by_cases hk : k = j
      · subst hk
        exact hfate.stage hstate hid hasked hasked' hentry hhistory hrow
      · by_cases hundone : Undone s k
        · have hne : (s.entry k).id ≠ id := fun heq =>
            hk (hfate.row_of_id hundone hs.distinct (by simp [hstate]) (hid.trans heq.symm)
              hworking).symm
          refine hfate.keep (.append hentry hhistory (by simp) (by simpa using hne.symm) (by simp))
            hrow ?_ (by simp [hlane'])
          simp [hasked, hasked', hne.symm]
        · refine hfate.keepTransient hundone hentry _ hhistory fun h h' => ?_
          rw [hrow]
          exact ⟨h, h'⟩
  | refuse e op ticket hlane' hasked hasked' hsends hprepared hhistory hentry houtcome =>
    have hlane := hs.askedLane (by simp [hasked])
    have hworking := Lane.working_of_runsBlocks hlane
    have hb := hs.backs e op (by simp [heldSends, hasked])
    refine ⟨hentry ▸ h.settled, hentry ▸ h.distinct, fun _ k => ?_⟩
    have hfate := h.fate (tracking_of_runsBlocks hlane) k
    have hrow : s'.sends.delayedSends k = if (s.sends.preparedEffects e).registryIndex = some k
        then (s.sends.delayedSends k).rolledBack op.kind else s.sends.delayedSends k := by
      rw [hsends, SendTable.rollbackPreparedEffectLocked, SendTable.settleEffect_delayedSends]
      simp [hb.kind]
    cases op with
    | send id delayed =>
      by_cases hk : (s.sends.preparedEffects e).registryIndex = some k
      · have hreg := hb.registered
        simp only [hk, Option.isSome_some, SendOp.registered] at hreg
        subst hreg
        exact hfate.rolledBackSend hs hb.inUse hb.kind hk hentry hhistory
          (by simpa [hk, SendOp.kind] using hrow) (by simp [hasked, hasked']) (by simp [hworking])
      · exact hfate.keep (.refl hentry hhistory) (by simpa [hk] using hrow)
          (by simp [hasked, hasked']) (by simp [hworking])
    | cancel id =>
      obtain ⟨j, hj, hstate, hid⟩ := hs.asked_cancel_row hasked
      by_cases hk : (s.sends.preparedEffects e).registryIndex = some k
      · obtain rfl : j = k := by simpa [hj] using hk
        exact hfate.rolledBackCancel (h.settled j) (by simp [hstate]) hentry hhistory
          (by simpa [hj, SendOp.kind] using hrow) hasked' (fun _ => ⟨e, by rw [hid]; exact hasked⟩)
          (by simp [hworking])
      · have hrow' : s'.sends.delayedSends k = s.sends.delayedSends k := by simpa [hk] using hrow
        by_cases hundone : Undone s k
        · have hne : (s.entry k).id ≠ id := by
            intro heq
            have := hfate.row_of_id hundone hs.distinct (by simp [hstate]) (hid.trans heq.symm)
              hworking
            exact hk (this ▸ hj)
          exact hfate.keep (.refl hentry hhistory) hrow' (by simp [hasked, hasked', hne.symm])
            (by simp [hworking])
        · refine hfate.keepTransient hundone hentry [] (by simp [hhistory]) fun h h' => ?_
          rw [hrow']
          exact ⟨h, h'⟩
  | commit e op hlane hlane' hasked hsends hprepared hhistory hentry =>
    exact ⟨hentry ▸ h.settled, hentry ▸ h.distinct, fun htrack => absurd hlane' htrack.1⟩
  | discard e op before after hlane hlane' hasked hsends hprepared hprepared' hhistory hentry =>
    have hnone : s.asked = none := by
      by_contra hasked
      have := hs.askedLane hasked
      simp [hlane, Lane.runsBlocks] at this
    have hb := hs.backs e op (by simp [heldSends, hprepared])
    refine ⟨hentry ▸ h.settled, hentry ▸ h.distinct, fun _ k => ?_⟩
    have hfate := h.fate (by simp [Tracking, hlane]) k
    have hrow : s'.sends.delayedSends k = if (s.sends.preparedEffects e).registryIndex = some k
        then (s.sends.delayedSends k).rolledBack op.kind else s.sends.delayedSends k := by
      rw [hsends, SendTable.discardPreparedEffect, hb.inUse, if_pos rfl,
        SendTable.rollbackPreparedEffectLocked, SendTable.settleEffect_delayedSends, hb.kind]
    have hidle : ¬s'.lane.working = true := by simp [hlane', Lane.working, Lane.settling]
    by_cases hk : (s.sends.preparedEffects e).registryIndex = some k
    · rw [if_pos hk] at hrow
      have hreg := hb.registered
      rw [hk, Option.isSome_some] at hreg
      cases op with
      | send id delayed =>
        obtain rfl : delayed = true := hreg
        exact hfate.rolledBackSend hs hb.inUse hb.kind hk hentry hhistory hrow (by simp [hasked])
          fun hw => absurd hw hidle
      | cancel id =>
        exact hfate.rolledBackCancel (h.settled k) (hs.no_active hb.inUse hb.kind hk) hentry
          hhistory hrow (hasked.trans hnone) (fun hw => absurd hw hidle) fun hw => absurd hw hidle
    · rw [if_neg hk] at hrow
      exact hfate.keep (.refl hentry hhistory) hrow (by simp [hasked]) fun hw => absurd hw hidle
  | finish hlane hlane' hstaged hstaged' hsends hasked hhistory hentry houtcome =>
    refine ⟨hentry ▸ h.settled, hentry ▸ h.distinct, fun htrack k => ?_⟩
    have htrack' : Tracking s := by
      refine ⟨fun hcommitting => ?_, fun hidle => by simp [hidle, Lane.settling] at hlane⟩
      have hout := htrack.2 hlane'
      simp [houtcome, hcommitting] at hout
    exact (h.fate htrack' k).keep (.refl hentry hhistory) (by rw [hsends]) (by simp [hasked])
      (by simp [hlane', Lane.working])
  | report id hlane' hasked hprepared hsends hhistory hentry houtcome =>
    exact h.report hlane' hasked hsends hhistory hentry houtcome

theorem init_tracked : (init cfg).Tracked where
  settled := fun _ => .inl rfl
  distinct := fun j _ hj => absurd hj (by simp [init, DelayedSend.free])
  fate := fun htrack => absurd (htrack.2 rfl) (by simp [init])

theorem reachable_tracked (h : Reachable s) : Tracked s := by
  have hboth : s.SendsSound ∧ Tracked s :=
    h.invariant (P := fun s => s.SendsSound ∧ Tracked s)
      (fun s hinit => by rw [hinit]; exact ⟨init_sendsSound, init_tracked⟩)
      fun s a s' ⟨hs, ht⟩ hstep =>
        ⟨hs.step hstep, ht.move hs (step_moves hstep hs.askedUse).sends⟩
  exact hboth.2

/-! ## Discarded transactions -/

theorem RowFate.discarded (h : RowFate s k) (hs : s.SendsSound) (hidle : s.lane = .idle)
    (hsettled : s.entry k = .free ∨
      ((s.entry k).state = .active ∧ (s.entry k).previousState = .free)) :
    s.sends.delayedSends k = s.restored k ↔
      (Undone s k → ¬Recancelled s.history (s.entry k).id) := by
  have hnow := hs.settled hidle k
  cases h with
  | untouched hundone honce hrow =>
    simp [restored, hundone.2, hrow, honce]
  | marked _ _ hrow => simp [hrow, DelayedSend.free] at hnow
  | lost hundone htwice hrow =>
    have hfree : s.sends.delayedSends k = .free := by
      obtain ⟨-, hcr, -⟩ | ⟨hfree, -⟩ := hrow
      · simpa [hcr] using hnow
      · exact hfree
    have hne : DelayedSend.free ≠ s.entry k := by
      intro heq
      simp [Undone, ← heq, DelayedSend.free] at hundone
    simp [restored, hundone.2, hfree, hne, hundone, htwice]
  | transient hdone hstate =>
    have hfree : s.sends.delayedSends k = .free := by simpa [hstate] using hnow
    have hrestored : s.restored k = .free := by
      unfold restored
      split_ifs with hmem
      · rfl
      · obtain hentry | ⟨hactive, -⟩ := hsettled
        · exact hentry
        · exact absurd ⟨hactive, hmem⟩ hdone
    simp [hfree, hrestored, hdone]

/-- **Discarding** restores the registry exactly when no send was cancelled again while a cancel of
it was staged. -/
theorem discard_restores_iff (h : Reachable s) (hidle : s.lane = .idle)
    (hdiscarded : s.outcome = .discarded) :
    s.sends.delayedSends = s.restored ↔
      ∀ k, Undone s k → ¬Recancelled s.history (s.entry k).id := by
  have hs := reachable_sendsSound h
  have ht := reachable_tracked h
  have htrack : Tracking s := ⟨by simp [hidle], fun _ => hdiscarded⟩
  rw [funext_iff]
  exact forall_congr' fun k => (ht.fate htrack k).discarded hs hidle (ht.settled k)

def sendRun : List (Action smallConfig) :=
  [.begin, .send ⟨['x'], 5, false⟩ true, .answer acceptedAnswer true true, .succeed,
    .commitNext acceptedAnswer true, .finish]

def cancelRun : List (Action smallConfig) :=
  [.begin, .cancel ['x'] true, .answer acceptedAnswer true true, .fail, .discardAt 0, .finish]

def recancelRun : List (Action smallConfig) :=
  [.begin, .cancel ['x'] true, .answer acceptedAnswer true true, .cancel ['x'] true,
    .answer acceptedAnswer true true, .fail, .discardAt 0, .discardAt 0, .finish]

theorem cancelRun_isSome : (exec step (init smallConfig) (sendRun ++ cancelRun)).isSome = true := by
  decide

theorem recancelRun_isSome :
    (exec step (init smallConfig) (sendRun ++ recancelRun)).isSome = true := by
  decide

def cancelState : System smallConfig :=
  (exec step (init smallConfig) (sendRun ++ cancelRun)).get cancelRun_isSome

/-- Two cancels of the active send are taken back. -/
def recancelState : System smallConfig :=
  (exec step (init smallConfig) (sendRun ++ recancelRun)).get recancelRun_isSome

theorem cancelState_reachable : cancelState.Reachable :=
  Reachable.runs (.of_init rfl) (exec_runs (Option.some_get cancelRun_isSome).symm)

theorem recancelState_reachable : recancelState.Reachable :=
  Reachable.runs (.of_init rfl) (exec_runs (Option.some_get recancelRun_isSome).symm)

theorem cancelState_restored :
    (cancelState.sends.delayedSends ⟨0, by decide⟩).state = .active ∧
      cancelState.sends.delayedSends = cancelState.restored :=
  ⟨by decide, (discard_restores_iff cancelState_reachable (by decide) (by decide)).mpr (by decide)⟩

/-- **A send is lost** by two discarded cancels. -/
theorem recancel_loses_send : ∃ s : System smallConfig, s.Reachable ∧ s.lane = .idle ∧
    s.outcome = .discarded ∧ (s.entry ⟨0, by decide⟩).state = .active ∧
    (∀ id, SendEvent.done id ∉ s.history) ∧
    (s.sends.delayedSends ⟨0, by decide⟩).state = .free ∧ s.sends.delayedSends ≠ s.restored :=
  ⟨recancelState, recancelState_reachable, by decide, by decide, by decide, by
    intro id
    rw [show recancelState.history = [.cancelAsked ['x'], .cancelStaged ['x'],
      .cancelAsked ['x'], .cancelStaged ['x']] by decide]
    simp, by decide, fun heq => absurd (congrFun heq ⟨0, by decide⟩) (by decide)⟩

end System

end TurboScxml.Session
