import TurboScxml.Session.Sends

/-!
# Rows and prepared effects

What the operations of the send table do, and how the state of a registry row follows the prepared
effects that are in use for it.

* `effectsOn`: how many prepared effects of a kind are in use for a row;
* `DelayedSend.Shape`: the states a row can be in, with these numbers; the moves of a row keep it;
* `SendTable.Sound`: every row has its shape and the ids of the live rows are distinct.
-/

namespace TurboScxml.Session

open Function Slots

/-- The effect is in use, of this kind and for this row. -/
def PreparedEffect.onRow {n : ℕ} (kind : PreparedKind) (k : Fin n) (x : PreparedEffect n) : Bool :=
  x.inUse && x.kind == kind && x.registryIndex == some k

namespace SendTable

variable {cfg : Config} {t t' : SendTable cfg} {e : Fin cfg.effectCapacity}
  {k : Fin cfg.delayedSendCapacity}

/-! ## Updates -/

@[simp] theorem setEffect_delayedSends (x : PreparedEffect cfg.delayedSendCapacity) :
    (t.setEffect e x).delayedSends = t.delayedSends := rfl

@[simp] theorem setEffect_preparedEffects (x : PreparedEffect cfg.delayedSendCapacity) :
    (t.setEffect e x).preparedEffects = update t.preparedEffects e x := rfl

@[simp] theorem setRow_delayedSends (row : DelayedSend) :
    (t.setRow k row).delayedSends = update t.delayedSends k row := rfl

@[simp] theorem setRow_preparedEffects (row : DelayedSend) :
    (t.setRow k row).preparedEffects = t.preparedEffects := rfl

variable (f : DelayedSend → PreparedKind → DelayedSend)

@[simp] theorem changeRow_preparedEffects (x : PreparedEffect cfg.delayedSendCapacity) :
    (t.changeRow f x).preparedEffects = t.preparedEffects := by
  unfold changeRow
  split <;> rfl

theorem changeRow_delayedSends
    (x : PreparedEffect cfg.delayedSendCapacity) (j : Fin cfg.delayedSendCapacity) :
    (t.changeRow f x).delayedSends j
      = if x.registryIndex = some j then f (t.delayedSends j) x.kind else t.delayedSends j := by
  unfold changeRow
  cases hk : x.registryIndex with
  | none => simp
  | some k =>
    by_cases hj : k = j
    · subst hj
      simp
    · simp [hj, update_of_ne (Ne.symm hj)]

@[simp] theorem settleEffect_preparedEffects : (t.settleEffect f e).preparedEffects
      = update t.preparedEffects e { t.preparedEffects e with inUse := false } := by
  simp [settleEffect]

/-- A settled effect changes its own row only. -/
theorem settleEffect_delayedSends (j : Fin cfg.delayedSendCapacity) :
    (t.settleEffect f e).delayedSends j
      = if (t.preparedEffects e).registryIndex = some j
        then f (t.delayedSends j) (t.preparedEffects e).kind else t.delayedSends j := by
  simp [settleEffect, changeRow_delayedSends]

/-! ## What the operations do -/

theorem vacantEffect_inUse (h : t.vacantEffect = some e) : (t.preparedEffects e).inUse = false := by
  simpa using (Fin.find?_eq_some_iff.mp h).1

variable {id : Text}

theorem findDelayedSendLocked_some (h : t.findDelayedSendLocked id = some k) :
    (t.delayedSends k).state ≠ .free ∧ (t.delayedSends k).id = id := by
  simpa [DelayedSend.sameSendId] using (Fin.find?_eq_some_iff.mp h).1

theorem findDelayedSendLocked_none (h : t.findDelayedSendLocked id = none)
    (hlive : (t.delayedSends k).state ≠ .free) : (t.delayedSends k).id ≠ id := by
  have := Fin.find?_eq_none_iff.mp h k
  simpa [DelayedSend.sameSendId, hlive] using this

/-- A row is reserved if it is free and no live row has the id. -/
theorem reserveDelayedSendLocked_ok {copied : Bool}
    (h : t.reserveDelayedSendLocked id copied = .ok k) :
    t.findDelayedSendLocked id = none ∧ (t.delayedSends k).state = .free ∧ id ≠ [] := by
  unfold reserveDelayedSendLocked at h
  split at h
  · cases h
  · split at h
    · cases h
    · rename_i hnone _ j hj
      split at h
      · cases h
      · rename_i hid
        cases h
        exact ⟨hnone, by simpa using (Fin.find?_eq_some_iff.mp hj).1, fun h0 => hid (.inl h0)⟩

/-- A send takes a vacant effect, and a row if it is delayed. -/
theorem executeSendReserve_ok {request : SendRequest}
    (h : t.executeSendReserve request = .ok (t', e)) :
    (t.preparedEffects e).inUse = false ∧
      ((request.delayMs = 0 ∧ t' = t.setEffect e (prepared .send none)) ∨
        (request.delayMs ≠ 0 ∧ ∃ k, t.findDelayedSendLocked request.id = none ∧
          (t.delayedSends k).state = .free ∧ request.id ≠ [] ∧
          t' = (t.setRow k ⟨request.id, .reserved, .free⟩).setEffect e
            (prepared .delayedSend (some k)))) := by
  unfold executeSendReserve at h
  cases hv : t.vacantEffect with
  | none => simp [hv] at h
  | some e' =>
    simp only [hv] at h
    split_ifs at h with hd
    · cases h
      exact ⟨vacantEffect_inUse hv, .inl ⟨hd, rfl⟩⟩
    · cases hr : t.reserveDelayedSendLocked request.id request.copyGeneratedId with
      | error duplicate =>
        cases duplicate <;> simp [hr] at h
      | ok k =>
        simp only [hr, Except.ok.injEq, Prod.mk.injEq] at h
        obtain ⟨rfl, rfl⟩ := h
        obtain ⟨hnew, hfree, hid⟩ := reserveDelayedSendLocked_ok hr
        exact ⟨vacantEffect_inUse hv, .inr ⟨hd, k, hnew, hfree, hid, rfl⟩⟩

/-- A cancel takes a vacant effect, and keeps the state of its row. -/
theorem executeCancelReserve_ok (h : t.executeCancelReserve id = .ok (some (t', e))) :
    (t.preparedEffects e).inUse = false ∧ ∃ k, t.findDelayedSendLocked id = some k ∧
      t' = (t.setRow k { t.delayedSends k with
        state := .cancelReserved, previousState := (t.delayedSends k).state }).setEffect e
          (prepared .cancel (some k)) := by
  unfold executeCancelReserve at h
  cases hf : t.findDelayedSendLocked id with
  | none => simp [hf] at h
  | some k =>
    simp only [hf] at h
    cases hv : t.vacantEffect with
    | none => simp [hv] at h
    | some e' =>
      simp only [hv, Except.ok.injEq, Option.some.injEq, Prod.mk.injEq] at h
      obtain ⟨rfl, rfl⟩ := h
      exact ⟨vacantEffect_inUse hv, k, rfl, rfl⟩

/-- A report frees an active row, or what a cancel would restore. -/
theorem reportSendDone_cases (t : SendTable cfg) (id : Text) :
    t.reportSendDone id = (t, false) ∨
      ∃ k, t.findDelayedSendLocked id = some k ∧
        (((t.delayedSends k).state = .active ∧ t.reportSendDone id = (t.setRow k .free, true)) ∨
          ((t.delayedSends k).state = .cancelReserved ∧
            (t.delayedSends k).previousState = .active ∧
            t.reportSendDone id
              = (t.setRow k { t.delayedSends k with previousState := .free }, true))) := by
  by_cases hid : id = []
  · exact .inl (by simp [reportSendDone, hid])
  cases hf : t.findDelayedSendLocked id with
  | none => exact .inl (by simp [reportSendDone, hid, hf])
  | some k =>
    by_cases ha : (t.delayedSends k).state = .active
    · exact .inr ⟨k, rfl, .inl ⟨ha, by simp [reportSendDone, hid, hf, ha]⟩⟩
    · by_cases hc : (t.delayedSends k).state = .cancelReserved ∧
          (t.delayedSends k).previousState = .active
      · exact .inr ⟨k, rfl, .inr ⟨hc.1, hc.2, by simp [reportSendDone, hid, hf, hc]⟩⟩
      · exact .inl (by simp [reportSendDone, hid, hf, ha, hc])

@[simp] theorem reportSendDone_preparedEffects (t : SendTable cfg) (id : Text) :
    (t.reportSendDone id).1.preparedEffects = t.preparedEffects := by
  obtain h | ⟨k, -, ⟨-, h⟩ | ⟨-, -, h⟩⟩ := reportSendDone_cases t id <;> simp [h]

/-! ## Counting effects -/

/-- How many effects of a kind are in use for a row. -/
def effectsOn (t : SendTable cfg) (kind : PreparedKind) (k : Fin cfg.delayedSendCapacity) : ℕ :=
  tally (PreparedEffect.onRow kind k) t.preparedEffects

theorem effectsOn_congr (h : t'.preparedEffects = t.preparedEffects) (kind : PreparedKind)
    (k : Fin cfg.delayedSendCapacity) : t'.effectsOn kind k = t.effectsOn kind k := by
  simp only [effectsOn, h]

theorem effectsOn_update {x : PreparedEffect cfg.delayedSendCapacity}
    (h : t'.preparedEffects = update t.preparedEffects e x) (kind : PreparedKind)
    (k : Fin cfg.delayedSendCapacity) :
    t'.effectsOn kind k + ((t.preparedEffects e).onRow kind k).toNat
      = t.effectsOn kind k + (x.onRow kind k).toNat := by
  simp only [effectsOn, h]
  exact tally_update _ _ _ _

theorem effectsOn_eq_zero (h : ∀ e, (t.preparedEffects e).inUse = false) (kind : PreparedKind)
    (k : Fin cfg.delayedSendCapacity) : t.effectsOn kind k = 0 :=
  tally_eq_zero fun e => by simp [PreparedEffect.onRow, h e]

theorem effectsOn_pos {kind : PreparedKind} (hu : (t.preparedEffects e).inUse = true)
    (hkind : (t.preparedEffects e).kind = kind)
    (hk : (t.preparedEffects e).registryIndex = some k) : 0 < t.effectsOn kind k :=
  tally_pos (i := e) (by simp [PreparedEffect.onRow, hu, hkind, hk])

end SendTable

/-! ## The shape of a row -/

/-- The row fits the numbers of its sends and cancels; `opened`: nothing was settled yet. -/
def DelayedSend.Shape (row : DelayedSend) (opened : Bool) (sends cancels : ℕ) : Prop :=
  match row.state with
  | .free => row = .free ∧ (opened = true → sends = 0 ∧ cancels = 0)
  | .reserved => row.id ≠ [] ∧ row.previousState = .free ∧ sends = 1 ∧ cancels = 0
  | .active => row.id ≠ [] ∧ row.previousState = .free ∧ sends = 0 ∧ cancels = 0
  | .cancelReserved => row.id ≠ [] ∧
    match row.previousState with
    | .free => sends ≤ 1 ∧ 1 ≤ cancels
    | .reserved => sends = 1 ∧ cancels = 1
    | .active => sends = 0 ∧ cancels = 1
    | .cancelReserved => sends ≤ 1 ∧ 2 ≤ cancels

namespace DelayedSend.Shape

variable {row : DelayedSend} {opened : Bool} {sends cancels : ℕ}

theorem mono {opened' : Bool} (h : row.Shape opened sends cancels)
    (hle : opened' = true → opened = true) : row.Shape opened' sends cancels := by
  obtain ⟨id, state, previous⟩ := row
  cases state <;> cases previous <;> simp_all [Shape]

theorem of_zero {opened' : Bool} (h : row.Shape opened 0 0) : row.Shape opened' 0 0 := by
  obtain ⟨id, state, previous⟩ := row
  cases state <;> cases previous <;> simp_all [Shape]

theorem reserve {id : Text} (hid : id ≠ []) : Shape ⟨id, .reserved, .free⟩ opened 1 0 :=
  ⟨hid, rfl, rfl, rfl⟩

/-- A cancel is prepared. -/
theorem mark (h : row.Shape opened sends cancels) (hlive : row.state ≠ .free) :
    Shape { row with state := .cancelReserved, previousState := row.state } opened sends
      (cancels + 1) := by
  obtain ⟨id, state, previous⟩ := row
  cases state <;> cases previous <;> simp_all [Shape]
  omega

/-- A delayed send is discarded. -/
theorem rolledBack_send (h : row.Shape opened (sends + 1) cancels) :
    (row.rolledBack .delayedSend).Shape opened sends cancels := by
  obtain ⟨id, state, previous⟩ := row
  cases state <;> cases previous <;> simp_all [Shape, rolledBack, DelayedSend.free]

/-- A cancel is discarded. -/
theorem rolledBack_cancel (h : row.Shape opened sends (cancels + 1))
    (hlast : opened = true → row.state = .cancelReserved → row.previousState = .free →
      sends = 0 ∧ cancels = 0) :
    (row.rolledBack .cancel).Shape opened sends cancels := by
  obtain ⟨id, state, previous⟩ := row
  cases state <;> cases previous <;> simp_all [Shape, rolledBack, DelayedSend.free]

/-- A delayed send is committed. -/
theorem committed_send (h : row.Shape false (sends + 1) cancels) :
    (row.committed .delayedSend).Shape false sends cancels := by
  obtain ⟨id, state, previous⟩ := row
  cases state <;> cases previous <;> simp_all [Shape, committed, DelayedSend.free]

/-- A cancel is committed. -/
theorem committed_cancel (h : row.Shape false sends (cancels + 1)) :
    (row.committed .cancel).Shape false sends cancels := by
  obtain ⟨id, state, previous⟩ := row
  cases state <;> cases previous <;> simp_all [Shape, committed, DelayedSend.free]

/-- A row without effects is free or active. -/
theorem settled (h : row.Shape opened 0 0) :
    row = .free ∨ (row.state = .active ∧ row.previousState = .free) := by
  obtain ⟨id, state, previous⟩ := row
  cases state <;> cases previous <;> simp_all [Shape]

end DelayedSend.Shape

end TurboScxml.Session
