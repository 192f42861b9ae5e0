import TurboScxml.Session.LifecycleMoves

/-!
# The invariant of the delayed sends

The prepared effects in use are the asked one and the staged ones, and every registry row has the
shape that these effects give it.

* `Backs`: a prepared effect stands for a `<send>` or `<cancel>`;
* `SendsSound`: the invariant; `SendsSound.move` keeps it along every step.
-/

namespace TurboScxml.Session

open Function Slots

variable {cfg : Config}

namespace SendOp

def id : SendOp → Text
  | .send id _ => id
  | .cancel id => id

def kind : SendOp → PreparedKind
  | .send _ true => .delayedSend
  | .send _ false => .send
  | .cancel _ => .cancel

def registered : SendOp → Bool
  | .send _ delayed => delayed
  | .cancel _ => true

end SendOp

structure Backs (t : SendTable cfg) (e : Fin cfg.effectCapacity) (op : SendOp) : Prop where
  inUse : (t.preparedEffects e).inUse = true
  kind : (t.preparedEffects e).kind = op.kind
  registered : op.registered = (t.preparedEffects e).registryIndex.isSome
  id : ∀ k, (t.preparedEffects e).registryIndex = some k → (t.delayedSends k).state ≠ .free →
    (t.delayedSends k).id = op.id

variable {op : SendOp}

theorem Backs.withTicket {t : SendTable cfg} {e e' : Fin cfg.effectCapacity} (hb : Backs t e' op)
    (ticket : Option AdapterTicket) :
    Backs (t.setEffect e { t.preparedEffects e with adapterTicket := ticket }) e' op := by
  obtain ⟨hu, hkind, hreg, hid⟩ := hb
  by_cases he : e' = e
  · subst he
    exact ⟨by simpa using hu, by simpa using hkind, by simpa using hreg, by simpa using hid⟩
  · exact ⟨by simpa [update_of_ne he] using hu, by simpa [update_of_ne he] using hkind,
      by simpa [update_of_ne he] using hreg, by simpa [update_of_ne he] using hid⟩

variable {f : DelayedSend → PreparedKind → DelayedSend} {k : Fin cfg.delayedSendCapacity}

namespace SendTable

variable {t t' : SendTable cfg} {e : Fin cfg.effectCapacity}

def LiveDistinct (t : SendTable cfg) : Prop :=
  ∀ j k, (t.delayedSends j).state ≠ .free → (t.delayedSends k).state ≠ .free →
    (t.delayedSends j).id = (t.delayedSends k).id → j = k

def Shaped (t : SendTable cfg) (opened : Bool) : Prop :=
  ∀ k, (t.delayedSends k).Shape opened (t.effectsOn .delayedSend k) (t.effectsOn .cancel k)

def Shrinks (t t' : SendTable cfg) : Prop :=
  ∀ k, (t'.delayedSends k).state ≠ .free →
    (t.delayedSends k).state ≠ .free ∧ (t'.delayedSends k).id = (t.delayedSends k).id

theorem LiveDistinct.shrinks (h : t.LiveDistinct) (hshrinks : t.Shrinks t') : t'.LiveDistinct := by
  intro j k hj hk hid
  obtain ⟨hj', hidj⟩ := hshrinks j hj
  obtain ⟨hk', hidk⟩ := hshrinks k hk
  exact h j k hj' hk' (hidj.symm.trans (hid.trans hidk))

theorem Shrinks.backs {e' : Fin cfg.effectCapacity} (h : t.Shrinks t')
    (hkeep : t'.preparedEffects e' = t.preparedEffects e') (hb : Backs t e' op) :
    Backs t' e' op := by
  refine ⟨hkeep ▸ hb.inUse, hkeep ▸ hb.kind, hkeep ▸ hb.registered, fun k hk hlive => ?_⟩
  obtain ⟨hlive', hid⟩ := h k hlive
  rw [hid]
  exact hb.id k (hkeep ▸ hk) hlive'

theorem rolledBack_shrinks (row : DelayedSend) (kind : PreparedKind)
    (h : (row.rolledBack kind).state ≠ .free) :
    row.state ≠ .free ∧ (row.rolledBack kind).id = row.id := by
  obtain ⟨id, state, previous⟩ := row
  cases kind <;> cases state <;> cases previous <;> simp_all [DelayedSend.rolledBack,
    DelayedSend.free]

theorem committed_shrinks (row : DelayedSend) (kind : PreparedKind)
    (h : (row.committed kind).state ≠ .free) :
    row.state ≠ .free ∧ (row.committed kind).id = row.id := by
  obtain ⟨id, state, previous⟩ := row
  cases kind <;> cases state <;> cases previous <;> simp_all [DelayedSend.committed,
    DelayedSend.free]

theorem settleEffect_shrinks
    (hf : ∀ row kind, (f row kind).state ≠ .free → row.state ≠ .free ∧ (f row kind).id = row.id) :
    t.Shrinks (t.settleEffect f e) := by
  intro k hlive
  rw [settleEffect_delayedSends] at hlive ⊢
  split_ifs at hlive ⊢
  · exact hf _ _ hlive
  · exact ⟨hlive, rfl⟩

theorem reportSendDone_shrinks (t : SendTable cfg) (id : Text) :
    t.Shrinks (t.reportSendDone id).1 := by
  intro j hlive
  obtain h | ⟨k, -, ⟨hstate, h⟩ | ⟨hstate, -, h⟩⟩ := reportSendDone_cases t id
  · rw [h] at hlive ⊢
    exact ⟨hlive, rfl⟩
  all_goals
    rw [h] at hlive ⊢
    by_cases hj : j = k
    · subst hj
      simp_all [DelayedSend.free]
    · simpa only [setRow_delayedSends, update_of_ne hj, and_true] using hlive

theorem Shaped.live {kind : PreparedKind} (h : t.Shaped true)
    (hkind : kind = .delayedSend ∨ kind = .cancel) (hpos : 0 < t.effectsOn kind k) :
    (t.delayedSends k).state ≠ .free := by
  intro hfree
  have hshape := h k
  simp only [DelayedSend.Shape, hfree] at hshape
  obtain ⟨-, hzero⟩ := hshape
  have := hzero trivial
  rcases hkind with rfl | rfl <;> omega

theorem effectsOn_settleEffect (f : DelayedSend → PreparedKind → DelayedSend) (hb : Backs t e op)
    (kind : PreparedKind) (k : Fin cfg.delayedSendCapacity) :
    (t.settleEffect f e).effectsOn kind k
      + (if op.kind = kind ∧ (t.preparedEffects e).registryIndex = some k then 1 else 0)
      = t.effectsOn kind k := by
  have hcount := effectsOn_update (t := t) (settleEffect_preparedEffects (e := e) f) kind k
  have hleft : ((t.preparedEffects e).onRow kind k).toNat
      = if op.kind = kind ∧ (t.preparedEffects e).registryIndex = some k then 1 else 0 := by
    rw [PreparedEffect.onRow, hb.inUse, hb.kind]
    split_ifs with hon
    · simp [hon]
    · by_cases hkind : op.kind = kind
      · simpa [hkind] using fun hk => hon ⟨hkind, hk⟩
      · simp [hkind]
  rw [← hleft, hcount]
  simp [PreparedEffect.onRow]

theorem Shaped.live_of_backs (h : t.Shaped true) (hb : Backs t e op)
    (hk : (t.preparedEffects e).registryIndex = some k) :
    (t.delayedSends k).state ≠ .free := by
  have hreg := hb.registered
  rw [hk, Option.isSome_some] at hreg
  refine h.live ?_ (effectsOn_pos hb.inUse hb.kind hk)
  cases op with
  | send id delayed =>
    obtain rfl : delayed = true := hreg
    exact .inl rfl
  | cancel id => exact .inr rfl

variable {opened : Bool}

/-- **One effect leaves the pool.** -/
theorem Shaped.settle {opened' : Bool} (h : t.Shaped opened) (hb : Backs t e op)
    (hle : opened' = true → opened = true) (hsend : ∀ k sends cancels, op.kind = .delayedSend →
      (t.preparedEffects e).registryIndex = some k →
      (t.delayedSends k).Shape opened (sends + 1) cancels →
      (f (t.delayedSends k) .delayedSend).Shape opened' sends cancels)
    (hcancel : ∀ k sends cancels, op.kind = .cancel →
      (t.preparedEffects e).registryIndex = some k →
      t.effectsOn .delayedSend k = sends → t.effectsOn .cancel k = cancels + 1 →
      (t.delayedSends k).Shape opened sends (cancels + 1) →
      (f (t.delayedSends k) .cancel).Shape opened' sends cancels) :
    (t.settleEffect f e).Shaped opened' := by
  intro k
  have hsends := effectsOn_settleEffect f hb .delayedSend k
  have hcancels := effectsOn_settleEffect f hb .cancel k
  have hshape := h k
  rw [settleEffect_delayedSends, hb.kind]
  by_cases hk : (t.preparedEffects e).registryIndex = some k
  · rw [if_pos hk]
    simp only [hk, and_true] at hsends hcancels
    cases hop : op.kind with
    | delayedSend =>
      simp only [hop, if_true, reduceCtorEq, if_false, Nat.add_zero] at hsends hcancels
      rw [hcancels]
      exact hsend k _ _ hop hk (by rw [hsends]; exact hshape)
    | cancel =>
      simp only [hop, if_true, reduceCtorEq, if_false, Nat.add_zero] at hsends hcancels
      rw [hsends]
      exact hcancel k _ _ hop hk rfl hcancels.symm (by rw [hcancels]; exact hshape)
    | send | unset =>
      have hreg := hb.registered
      cases op with
      | send id delayed => cases delayed <;> simp_all [SendOp.kind, SendOp.registered]
      | cancel id => simp [SendOp.kind] at hop
  · rw [if_neg hk]
    simp only [hk, and_false, if_false, Nat.add_zero] at hsends hcancels
    rw [hsends, hcancels]
    exact hshape.mono hle

theorem effectsOn_setEffect (x : PreparedEffect cfg.delayedSendCapacity)
    (hfree : (t.preparedEffects e).inUse = false) (kind : PreparedKind)
    (k : Fin cfg.delayedSendCapacity) :
    (t.setEffect e x).effectsOn kind k = t.effectsOn kind k + (x.onRow kind k).toNat := by
  have hcount := effectsOn_update (t := t) (setEffect_preparedEffects (e := e) x) kind k
  simpa [PreparedEffect.onRow, hfree] using hcount

theorem effectsOn_setRow_setEffect (k : Fin cfg.delayedSendCapacity) (row : DelayedSend)
    (x : PreparedEffect cfg.delayedSendCapacity) (hfree : (t.preparedEffects e).inUse = false)
    (kind : PreparedKind) (j : Fin cfg.delayedSendCapacity) :
    ((t.setRow k row).setEffect e x).effectsOn kind j
      = t.effectsOn kind j + (x.onRow kind j).toNat :=
  effectsOn_setEffect (t := t.setRow k row) x hfree kind j

theorem onRow_prepared (kind kind' : PreparedKind) (index : Option (Fin cfg.delayedSendCapacity))
    (k : Fin cfg.delayedSendCapacity) :
    (prepared kind' index).onRow kind k = decide (kind' = kind ∧ index = some k) := by
  rw [Bool.eq_iff_iff]
  simp [prepared, PreparedEffect.onRow]

variable {request : SendRequest}

theorem Shaped.askSend (h : t.Shaped true)
    (hok : t.executeSendReserve request = .ok (t', e)) : t'.Shaped true := by
  obtain ⟨hfree, ⟨-, rfl⟩ | ⟨-, k, -, hrow, hid, rfl⟩⟩ := executeSendReserve_ok hok
  · intro j
    simpa [effectsOn_setEffect _ hfree, onRow_prepared] using h j
  · have hzero : t.effectsOn .delayedSend k = 0 ∧ t.effectsOn .cancel k = 0 := by
      have hshape := h k
      simp only [DelayedSend.Shape, hrow] at hshape
      exact hshape.2 trivial
    intro j
    rw [effectsOn_setRow_setEffect _ _ _ hfree, effectsOn_setRow_setEffect _ _ _ hfree]
    by_cases hj : j = k
    · subst hj
      simpa [onRow_prepared, hzero] using DelayedSend.Shape.reserve hid
    · simpa [onRow_prepared, update_of_ne hj, Ne.symm hj] using h j

variable {id : Text}

theorem Shaped.askCancel (h : t.Shaped true)
    (hok : t.executeCancelReserve id = .ok (some (t', e))) : t'.Shaped true := by
  obtain ⟨hfree, k, hfind, rfl⟩ := executeCancelReserve_ok hok
  intro j
  rw [effectsOn_setRow_setEffect _ _ _ hfree, effectsOn_setRow_setEffect _ _ _ hfree]
  by_cases hj : j = k
  · subst hj
    simpa [onRow_prepared] using (h j).mark (findDelayedSendLocked_some hfind).1
  · simpa [onRow_prepared, update_of_ne hj, Ne.symm hj] using h j

theorem Shaped.report (h : t.Shaped opened) (id : Text) :
    (t.reportSendDone id).1.Shaped opened := by
  intro j
  have hcount := fun kind => effectsOn_congr (reportSendDone_preparedEffects t id) kind j
  rw [hcount, hcount]
  obtain hsame | ⟨k, -, ⟨hstate, hset⟩ | ⟨hstate, hprevious, hset⟩⟩ := reportSendDone_cases t id
  · rw [hsame]
    exact h j
  · rw [hset]
    by_cases hj : j = k
    · subst hj
      have hshape := h j
      simp only [DelayedSend.Shape, hstate] at hshape
      simp [DelayedSend.Shape, DelayedSend.free, hshape]
    · simpa [update_of_ne hj] using h j
  · rw [hset]
    by_cases hj : j = k
    · subst hj
      have hshape := h j
      simp only [DelayedSend.Shape, hstate, hprevious] at hshape
      simp [DelayedSend.Shape, hstate, hshape]
    · simpa [update_of_ne hj] using h j

theorem effectsOn_withTicket (ticket : Option AdapterTicket) (kind : PreparedKind)
    (k : Fin cfg.delayedSendCapacity) :
    (t.setEffect e { t.preparedEffects e with adapterTicket := ticket }).effectsOn kind k
      = t.effectsOn kind k := by
  refine tally_congr fun e' => ?_
  by_cases he : e' = e
  · subst he
    simp [PreparedEffect.onRow]
  · simp [update_of_ne he]

theorem Shaped.withTicket (h : t.Shaped opened) (ticket : Option AdapterTicket) :
    (t.setEffect e { t.preparedEffects e with adapterTicket := ticket }).Shaped opened := by
  intro k
  rw [effectsOn_withTicket, effectsOn_withTicket]
  exact h k

theorem LiveDistinct.reserve (h : t.LiveDistinct)
    (hnew : t.findDelayedSendLocked id = none) (state previous : DelayedState) :
    (t.setRow k ⟨id, state, previous⟩).LiveDistinct := by
  intro i j hi hj hid
  by_cases hik : i = k <;> by_cases hjk : j = k
  · exact hik.trans hjk.symm
  · subst hik
    simp only [setRow_delayedSends, update_self, update_of_ne hjk] at hi hj hid
    exact absurd hid.symm (findDelayedSendLocked_none hnew hj)
  · subst hjk
    simp only [setRow_delayedSends, update_self, update_of_ne hik] at hi hj hid
    exact absurd hid (findDelayedSendLocked_none hnew hi)
  · simp only [setRow_delayedSends, update_of_ne hik, update_of_ne hjk] at hi hj hid
    exact h i j hi hj hid

theorem executeSendReserve_distinct (h : t.LiveDistinct)
    (hok : t.executeSendReserve request = .ok (t', e)) : t'.LiveDistinct := by
  obtain ⟨-, ⟨-, rfl⟩ | ⟨-, k, hnew, -, -, rfl⟩⟩ := executeSendReserve_ok hok
  · exact h
  · exact h.reserve hnew _ _

theorem executeCancelReserve_shrinks
    (hok : t.executeCancelReserve id = .ok (some (t', e))) : t.Shrinks t' := by
  obtain ⟨-, k, hfind, rfl⟩ := executeCancelReserve_ok hok
  intro j hlive
  by_cases hj : j = k
  · subst hj
    exact ⟨(findDelayedSendLocked_some hfind).1, by simp⟩
  · simpa [update_of_ne hj] using hlive

end SendTable

namespace System

def heldSends (s : System cfg) : List (Fin cfg.effectCapacity × SendOp) :=
  s.asked.toList ++ s.preparedStaged

/-- **The invariant of the delayed sends.** -/
structure SendsSound (s : System cfg) : Prop where
  shaped : s.sends.Shaped (!s.lane.settling)
  distinct : s.sends.LiveDistinct
  nodup : (s.heldSends.map Prod.fst).Nodup
  backs : ∀ e op, (e, op) ∈ s.heldSends → Backs s.sends e op
  held : ∀ e, (s.sends.preparedEffects e).inUse = true → ∃ op, (e, op) ∈ s.heldSends
  askedLane : s.asked ≠ none → s.lane.runsBlocks = true
  askedCancel : ∀ e id, s.asked = some (e, .cancel id) → ∀ k,
    (s.sends.preparedEffects e).registryIndex = some k →
    (s.sends.delayedSends k).state = .cancelReserved ∧
      ((s.sends.delayedSends k).previousState = .free →
        s.sends.effectsOn .delayedSend k = 0 ∧ s.sends.effectsOn .cancel k = 1)
  idle : s.lane = .idle → s.preparedStaged = []

variable {s s' : System cfg}

theorem init_sendsSound : (init cfg).SendsSound where
  shaped := fun k => ⟨rfl, fun _ => ⟨SendTable.effectsOn_eq_zero (fun _ => rfl) _ _,
    SendTable.effectsOn_eq_zero (fun _ => rfl) _ _⟩⟩
  distinct := fun j k hj => absurd rfl hj
  nodup := List.nodup_nil
  backs := by simp [heldSends, init, preparedStaged]
  held := by simp [init, SendTable.init, PreparedEffect.free]
  askedLane := by simp [init]
  askedCancel := by simp [init]
  idle := fun _ => rfl

theorem SendsSound.askedUse (h : s.SendsSound) (e : Fin cfg.effectCapacity) (op : SendOp)
    (hasked : s.asked = some (e, op)) :
    (s.sends.preparedEffects e).inUse = true ∧ s.lane.runsBlocks = true :=
  ⟨(h.backs e op (by simp [heldSends, hasked])).inUse, h.askedLane (by simp [hasked])⟩

theorem LaneMove.opens (h : LaneMove s s') :
    (!s'.lane.settling) = true → (!s.lane.settling) = true := by
  obtain h | ⟨-, h, -, -⟩ := h <;> simp [h]

theorem SendsSound.keep (h : s.SendsSound) (hsends : s'.sends = s.sends)
    (hasked : s'.asked = s.asked) (hprepared : s'.preparedStaged = s.preparedStaged)
    (hshaped : s'.sends.Shaped (!s'.lane.settling))
    (hlane : s'.asked ≠ none → s'.lane.runsBlocks = true)
    (hidle : s'.lane = .idle → s'.preparedStaged = []) : s'.SendsSound := by
  have hheld : s'.heldSends = s.heldSends := by rw [heldSends, heldSends, hasked, hprepared]
  refine ⟨hshaped, hsends ▸ h.distinct, hheld ▸ h.nodup, ?_, ?_, hlane, ?_, hidle⟩
  · rw [hheld, hsends]
    exact h.backs
  · rw [hheld, hsends]
    exact h.held
  · rw [hasked, hsends]
    exact h.askedCancel

variable {e : Fin cfg.effectCapacity}

theorem SendsSound.ask (h : s.SendsSound)
    (hlane : s.lane.runsBlocks = true) (hlane' : s'.lane = s.lane) (hasked : s.asked = none)
    (hasked' : s'.asked = some (e, op)) (hprepared : s'.preparedStaged = s.preparedStaged)
    (hfree : (s.sends.preparedEffects e).inUse = false)
    (hothers : ∀ e', e' ≠ e → s'.sends.preparedEffects e' = s.sends.preparedEffects e')
    (hshaped : s'.sends.Shaped true) (hdistinct : s'.sends.LiveDistinct)
    (hbacks : Backs s'.sends e op)
    (hkeep : ∀ e' op', e' ≠ e → Backs s.sends e' op' → Backs s'.sends e' op')
    (hcancel : ∀ id, op = .cancel id → ∀ k,
      (s'.sends.preparedEffects e).registryIndex = some k →
      (s'.sends.delayedSends k).state = .cancelReserved ∧
        (s'.sends.delayedSends k).previousState ≠ .free) : s'.SendsSound := by
  have hheld : s.heldSends = s.preparedStaged := by simp [heldSends, hasked]
  have hheld' : s'.heldSends = (e, op) :: s.preparedStaged := by
    simp [heldSends, hasked', hprepared]
  have hnew : ∀ op', (e, op') ∉ s.preparedStaged := by
    intro op' hmem
    rw [← hheld] at hmem
    exact absurd (h.backs e op' hmem).inUse (by simp [hfree])
  obtain ⟨hidle, hopen⟩ := Lane.of_runsBlocks hlane
  refine ⟨?_, hdistinct, ?_, ?_, ?_, ?_, ?_, ?_⟩
  · rw [hlane', hopen]
    exact hshaped
  · rw [hheld', List.map_cons, List.nodup_cons]
    refine ⟨fun hmem => ?_, hheld ▸ h.nodup⟩
    obtain ⟨⟨e', op'⟩, hmem', rfl⟩ := List.mem_map.mp hmem
    exact hnew op' hmem'
  · intro e' op' hmem
    rw [hheld', List.mem_cons] at hmem
    obtain heq | hmem := hmem
    · obtain ⟨rfl, rfl⟩ := Prod.mk.inj heq
      exact hbacks
    · refine hkeep e' op' ?_ (h.backs e' op' (hheld ▸ hmem))
      rintro rfl
      exact hnew op' hmem
  · intro e' hused
    rw [hheld']
    by_cases he : e' = e
    · exact ⟨op, by simp [he]⟩
    · rw [hothers e' he] at hused
      obtain ⟨op', hmem⟩ := h.held e' hused
      exact ⟨op', List.mem_cons_of_mem _ (hheld ▸ hmem)⟩
  · intro _
    rw [hlane']
    exact hlane
  · intro e' id hask k hk
    obtain ⟨rfl, rfl⟩ := Prod.mk.inj (Option.some.inj (hasked'.symm.trans hask))
    obtain ⟨hstate, hprevious⟩ := hcancel id rfl k hk
    exact ⟨hstate, fun hp => absurd hp hprevious⟩
  · intro hidle'
    exact absurd (hlane' ▸ hidle') hidle

theorem SendsSound.release (h : s.SendsSound) (op : SendOp) {t : SendTable cfg}
    (hf : ∀ row kind, (f row kind).state ≠ .free → row.state ≠ .free ∧ (f row kind).id = row.id)
    (hheld : s.heldSends.Perm ((e, op) :: s'.heldSends))
    (hrows : t.delayedSends = s.sends.delayedSends)
    (heffects : ∀ e', e' ≠ e → t.preparedEffects e' = s.sends.preparedEffects e')
    (hsends : s'.sends = t.settleEffect f e) (hasked' : s'.asked = none)
    (hidle : s'.lane = .idle → s'.preparedStaged = [])
    (hshaped : s'.sends.Shaped (!s'.lane.settling)) : s'.SendsSound := by
  have hshrinks : s.sends.Shrinks s'.sends := by
    intro k hlive
    rw [hsends] at hlive ⊢
    rw [← hrows]
    exact SendTable.settleEffect_shrinks hf k hlive
  have hnodup := (hheld.map Prod.fst).nodup_iff.mp h.nodup
  rw [List.map_cons, List.nodup_cons] at hnodup
  have hother : ∀ e' op', (e', op') ∈ s'.heldSends → e' ≠ e := by
    intro e' op' hmem he
    exact hnodup.1 (List.mem_map.mpr ⟨(e', op'), hmem, he⟩)
  have hkeep : ∀ e', e' ≠ e → s'.sends.preparedEffects e' = s.sends.preparedEffects e' := by
    intro e' he
    rw [hsends, SendTable.settleEffect_preparedEffects, update_of_ne he, heffects e' he]
  refine ⟨hshaped, h.distinct.shrinks hshrinks, hnodup.2, ?_, ?_, ?_, ?_, hidle⟩
  · intro e' op' hmem
    have hmem' : (e', op') ∈ s.heldSends := hheld.mem_iff.mpr (List.mem_cons_of_mem _ hmem)
    exact hshrinks.backs (hkeep e' (hother e' op' hmem)) (h.backs e' op' hmem')
  · intro e' hused
    by_cases he : e' = e
    · rw [hsends, he, SendTable.settleEffect_preparedEffects, update_self] at hused
      exact absurd hused (by simp)
    · rw [hkeep e' he] at hused
      obtain ⟨op', hmem⟩ := h.held e' hused
      obtain heq | hmem' := List.mem_cons.mp (hheld.mem_iff.mp hmem)
      · exact absurd (Prod.mk.inj heq).1 he
      · exact ⟨op', hmem'⟩
  · simp [hasked']
  · simp [hasked']

theorem SendsSound.askSend (h : s.SendsSound) {request : SendRequest}
    (hlane : s.lane.runsBlocks = true) (hlane' : s'.lane = s.lane) (hasked : s.asked = none)
    (hasked' : s'.asked = some (e, .send request.id (request.delayMs != 0)))
    (hok : s.sends.executeSendReserve request = .ok (s'.sends, e))
    (hprepared : s'.preparedStaged = s.preparedStaged) : s'.SendsSound := by
  have hopen : s.sends.Shaped true := by
    simpa [Lane.of_runsBlocks hlane] using h.shaped
  have hshaped := hopen.askSend hok
  have hdistinct := SendTable.executeSendReserve_distinct h.distinct hok
  obtain ⟨hfree, ⟨hdelay, htable⟩ | ⟨hdelay, k, hnew, hrow, hid, htable⟩⟩ :=
    SendTable.executeSendReserve_ok hok
  · refine h.ask hlane hlane' hasked hasked' hprepared hfree ?_ hshaped hdistinct ?_ ?_ (by simp)
    · intro e' he
      simp [htable, update_of_ne he]
    · rw [htable]
      constructor <;> simp [SendTable.prepared, SendOp.kind, SendOp.registered, hdelay]
    · intro e' op' he hb
      refine SendTable.Shrinks.backs (fun k hlive => ?_) ?_ hb
      · rw [htable] at hlive ⊢
        exact ⟨hlive, rfl⟩
      · simp [htable, update_of_ne he]
  · refine h.ask hlane hlane' hasked hasked' hprepared hfree ?_ hshaped hdistinct ?_ ?_ (by simp)
    · intro e' he
      simp [htable, update_of_ne he]
    · rw [htable]
      have hdelay' : (request.delayMs != 0) = true := by simpa using hdelay
      refine ⟨by simp [SendTable.prepared], ?_, ?_, ?_⟩
      · rw [hdelay']
        simp [SendTable.prepared, SendOp.kind]
      · rw [hdelay']
        simp [SendTable.prepared, SendOp.registered]
      · intro j hj _
        obtain rfl : k = j := by simpa [SendTable.prepared] using hj
        simp [SendOp.id]
    · intro e' op' he hb
      have heff : s'.sends.preparedEffects e' = s.sends.preparedEffects e' := by
        simp [htable, update_of_ne he]
      refine ⟨heff ▸ hb.inUse, heff ▸ hb.kind, heff ▸ hb.registered, fun j hj hlive => ?_⟩
      rw [heff] at hj
      by_cases hjk : j = k
      · subst hjk
        exact absurd hrow (hopen.live_of_backs hb hj)
      · rw [htable] at hlive ⊢
        simp only [SendTable.setEffect_delayedSends, SendTable.setRow_delayedSends,
          update_of_ne hjk] at hlive ⊢
        exact hb.id j hj hlive

theorem SendsSound.report (h : s.SendsSound) (id : Text) (hlane' : s'.lane = s.lane)
    (hasked : s'.asked = s.asked) (hprepared : s'.preparedStaged = s.preparedStaged)
    (hsends : s'.sends = (s.sends.reportSendDone id).1) : s'.SendsSound := by
  have hheld : s'.heldSends = s.heldSends := by rw [heldSends, heldSends, hasked, hprepared]
  have heffects : s'.sends.preparedEffects = s.sends.preparedEffects := by
    rw [hsends, SendTable.reportSendDone_preparedEffects]
  have hshrinks : s.sends.Shrinks s'.sends := by
    rw [hsends]
    exact SendTable.reportSendDone_shrinks _ id
  refine ⟨?_, h.distinct.shrinks hshrinks, hheld ▸ h.nodup, ?_, ?_, ?_, ?_, ?_⟩
  · rw [hsends, hlane']
    exact h.shaped.report id
  · intro e op hmem
    exact hshrinks.backs (by rw [heffects]) (h.backs e op (hheld ▸ hmem))
  · intro e hused
    rw [hheld]
    exact h.held e (by rwa [heffects] at hused)
  · rw [hasked, hlane']
    exact h.askedLane
  · intro e id' hask k hk
    rw [hasked] at hask
    rw [heffects] at hk
    obtain ⟨hstate, hlast⟩ := h.askedCancel e id' hask k hk
    have hcount := fun kind => SendTable.effectsOn_congr heffects kind k
    rw [hcount, hcount]
    obtain hsame | ⟨j, -, ⟨hactive, hset⟩ | ⟨-, hprevious, hset⟩⟩ :=
      SendTable.reportSendDone_cases s.sends id
    · rw [hsends, hsame]
      exact ⟨hstate, hlast⟩
    · rw [hsends, hset]
      have hjk : k ≠ j := by
        rintro rfl
        simp [hstate] at hactive
      simpa [update_of_ne hjk] using And.intro hstate hlast
    · rw [hsends, hset]
      by_cases hjk : k = j
      · subst hjk
        have hshape := h.shaped k
        simp only [DelayedSend.Shape, hstate, hprevious] at hshape
        simpa [hstate] using hshape.2
      · simpa [update_of_ne hjk] using And.intro hstate hlast
  · rw [hlane', hprepared]
    exact h.idle

/-- **The invariant holds after every step.** -/
theorem SendsSound.move (h : s.SendsSound) (hmove : SendsMove s s') : s'.SendsSound := by
  have hnone : s.lane.settling = true → s.asked = none := by
    intro hsettling
    by_contra hasked
    simp [Lane.of_runsBlocks (h.askedLane hasked)] at hsettling
  cases hmove with
  | quiet haside hlane =>
    refine h.keep haside.sends haside.asked haside.prepared ?_ ?_ ?_
    · intro k
      rw [haside.sends]
      exact (h.shaped k).mono hlane.opens
    · rw [haside.asked]
      intro hasked
      obtain hlane | ⟨-, -, hnone, -⟩ := hlane
      · rw [hlane]
        exact h.askedLane hasked
      · exact absurd hnone hasked
    · intro hidle
      rw [haside.prepared]
      obtain hlane | ⟨-, -, -, hidle'⟩ := hlane
      · exact h.idle (hlane ▸ hidle)
      · exact absurd hidle hidle'
  | begin hlane hlane' hsends hasked hstaged hhistory hentry =>
    refine h.keep hsends hasked (by rw [preparedStaged, hstaged, preparedStaged]) ?_ ?_ ?_
    · intro k
      rw [hsends, hlane']
      simpa [hlane, Lane.settling] using h.shaped k
    · intro _
      simp [hlane', Lane.runsBlocks]
    · simp [hlane']
  | askSend request e hlane hlane' hasked hasked' hok hprepared =>
    exact h.askSend hlane hlane' hasked hasked' hok hprepared
  | askCancel id e hlane hlane' hasked hasked' hok hprepared hhistory hentry houtcome =>
    have hopen : s.sends.Shaped true := by
      simpa [Lane.of_runsBlocks hlane] using h.shaped
    have hshrinks := SendTable.executeCancelReserve_shrinks hok
    obtain ⟨hfree, k, hfind, htable⟩ := SendTable.executeCancelReserve_ok hok
    obtain ⟨hlive, hid⟩ := SendTable.findDelayedSendLocked_some hfind
    have hothers : ∀ e', e' ≠ e →
        s'.sends.preparedEffects e' = s.sends.preparedEffects e' := by
      intro e' he
      simp [htable, update_of_ne he]
    refine h.ask hlane hlane' hasked hasked' hprepared hfree hothers (hopen.askCancel hok)
      (h.distinct.shrinks hshrinks) ?_ (fun e' op' he hb => hshrinks.backs (hothers e' he) hb) ?_
    · rw [htable]
      refine ⟨by simp [SendTable.prepared], by simp [SendTable.prepared, SendOp.kind],
        by simp [SendTable.prepared, SendOp.registered], fun j hj _ => ?_⟩
      obtain rfl : k = j := by simpa [SendTable.prepared] using hj
      simpa [SendOp.id] using hid
    · intro id' hop j hj
      obtain rfl : k = j := by simpa [htable, SendTable.prepared] using hj
      simp [htable, hlive]
  | accept e op hlane' hasked hasked' hsends hprepared hhistory hentry houtcome =>
    have hheld : s'.heldSends.Perm s.heldSends := by
      simp [heldSends, hasked, hasked', hprepared]
    rw [SendTable.storeTicket] at hsends
    refine ⟨?_, ?_, (hheld.map _).nodup_iff.mpr h.nodup, ?_, ?_, by simp [hasked'],
      by simp [hasked'], ?_⟩
    · rw [hsends, hlane']
      exact h.shaped.withTicket _
    · rw [hsends]
      exact h.distinct
    · intro e' op' hmem
      rw [hsends]
      exact (h.backs e' op' (hheld.mem_iff.mp hmem)).withTicket _
    · intro e' hused
      have hused' : (s.sends.preparedEffects e').inUse = true := by
        by_cases he : e' = e
        · simpa [hsends, he] using hused
        · simpa [hsends, update_of_ne he] using hused
      obtain ⟨op', hmem⟩ := h.held e' hused'
      exact ⟨op', hheld.mem_iff.mpr hmem⟩
    · intro hidle
      exact absurd (hlane' ▸ hidle)
        (Lane.of_runsBlocks (h.askedLane (by simp [hasked]))).1
  | refuse e op ticket hlane' hasked hasked' hsends hprepared hhistory hentry houtcome =>
    have hlane := Lane.of_runsBlocks (h.askedLane (by simp [hasked]))
    have hb := h.backs e op (by simp [heldSends, hasked])
    have hle : (!s'.lane.settling) = true → (!s.lane.settling) = true := by simp [hlane.2]
    refine h.release op (f := DelayedSend.rolledBack) SendTable.rolledBack_shrinks
      (by simp [heldSends, hasked, hasked', hprepared]) (SendTable.setEffect_delayedSends _)
      (fun e' he => by simp [update_of_ne he]) hsends hasked' ?_ ?_
    · intro hidle
      obtain hlane' | hlane' := hlane'
      · exact absurd (hlane' ▸ hidle) hlane.1
      · simp [hlane'] at hidle
    · rw [hsends]
      refine (h.shaped.withTicket ticket).settle (hb.withTicket ticket) hle ?_ ?_
      · intro k sends cancels _ _ hshape
        exact hshape.rolledBack_send.mono hle
      · intro k sends cancels hop hk hsends' hcancels hshape
        refine DelayedSend.Shape.mono (hshape.rolledBack_cancel fun _ _ hprevious => ?_) hle
        rw [SendTable.effectsOn_withTicket] at hsends' hcancels
        cases op with
        | send id delayed => cases delayed <;> simp [SendOp.kind] at hop
        | cancel id =>
          obtain ⟨-, hlast⟩ := h.askedCancel e id hasked k (by simpa using hk)
          have := hlast hprevious
          omega
  | commit e op hlane hlane' hasked hsends hprepared hhistory hentry =>
    have hnone := hnone (by simp [hlane, Lane.settling])
    have hb := h.backs e op (by simp [heldSends, hprepared])
    have hclosed : s.sends.Shaped false := by simpa [hlane, Lane.settling] using h.shaped
    simp only [SendTable.commitPreparedEffect, hb.inUse, if_true] at hsends
    refine h.release op (t := s.sends) SendTable.committed_shrinks
      (by simp [heldSends, hasked, hnone, hprepared]) rfl (fun _ _ => rfl) hsends
      (hasked.trans hnone) (by simp [hlane']) ?_
    rw [hsends, hlane']
    exact hclosed.settle hb (fun h => h) (fun _ _ _ _ _ hshape => hshape.committed_send)
      fun _ _ _ _ _ _ _ hshape => hshape.committed_cancel
  | discard e op before after hlane hlane' hasked hsends hprepared hprepared' hhistory hentry =>
    have hnone := hnone (by simp [hlane, Lane.settling])
    have hb := h.backs e op (by simp [heldSends, hprepared])
    have hclosed : s.sends.Shaped false := by simpa [hlane, Lane.settling] using h.shaped
    simp only [SendTable.discardPreparedEffect, hb.inUse, if_true,
      SendTable.rollbackPreparedEffectLocked] at hsends
    refine h.release op (t := s.sends) SendTable.rolledBack_shrinks
      (by simp [heldSends, hasked, hnone, hprepared, hprepared']) rfl (fun _ _ => rfl) hsends
      (hasked.trans hnone) (by simp [hlane']) ?_
    rw [hsends, hlane']
    exact hclosed.settle hb (fun h => h) (fun _ _ _ _ _ hshape => hshape.rolledBack_send)
      fun _ _ _ _ _ _ _ hshape => hshape.rolledBack_cancel (by simp)
  | finish hlane hlane' hstaged hstaged' hsends hasked hhistory hentry houtcome =>
    have hnone := hnone hlane
    have hheld : s.heldSends = [] := by simp [heldSends, hnone, preparedStaged, hstaged]
    refine h.keep hsends hasked (by simp [preparedStaged, hstaged, hstaged']) ?_ ?_ ?_
    · intro k
      have hunused : ∀ e, (s.sends.preparedEffects e).inUse = false := by
        intro e
        by_contra hused
        obtain ⟨op, hmem⟩ := h.held e (by simpa using hused)
        simp [hheld] at hmem
      have hshape := h.shaped k
      rw [hsends]
      rw [SendTable.effectsOn_eq_zero hunused, SendTable.effectsOn_eq_zero hunused] at hshape ⊢
      exact hshape.of_zero
    · rw [hasked]
      exact fun hne => absurd hnone hne
    · simp [preparedStaged, hstaged']
  | report id hlane' hasked hprepared hsends =>
    exact h.report id hlane' hasked hprepared hsends

theorem SendsSound.step {a : Action cfg} (h : s.SendsSound) (hstep : s.step a = some s') :
    s'.SendsSound :=
  h.move (step_moves hstep h.askedUse).sends

theorem reachable_sendsSound (h : Reachable s) : s.SendsSound :=
  h.invariant (fun _ hinit => hinit ▸ init_sendsSound) fun _ _ _ hs hstep => hs.step hstep

variable (h : s.SendsSound)
include h

theorem SendsSound.unused (hidle : s.lane = .idle) (e : Fin cfg.effectCapacity) :
    (s.sends.preparedEffects e).inUse = false := by
  have hnone : s.asked = none := by
    by_contra hasked
    exact (Lane.of_runsBlocks (h.askedLane hasked)).1 hidle
  by_contra hused
  obtain ⟨op, hmem⟩ := h.held e (by simpa using hused)
  simp [heldSends, hnone, h.idle hidle] at hmem

theorem SendsSound.settled (hidle : s.lane = .idle) (k : Fin cfg.delayedSendCapacity) :
    s.sends.delayedSends k = .free ∨ ((s.sends.delayedSends k).state = .active ∧
      (s.sends.delayedSends k).previousState = .free) := by
  have hshape := h.shaped k
  rw [SendTable.effectsOn_eq_zero (h.unused hidle), SendTable.effectsOn_eq_zero (h.unused hidle)]
    at hshape
  exact hshape.settled

theorem SendsSound.no_send (hused : (s.sends.preparedEffects e).inUse = true)
    (hkind : (s.sends.preparedEffects e).kind = .delayedSend)
    (hk : (s.sends.preparedEffects e).registryIndex = some k) :
    (s.sends.delayedSends k).state ≠ .active ∧
      ((s.sends.delayedSends k).state = .cancelReserved →
        (s.sends.delayedSends k).previousState ≠ .active) := by
  have hpos := SendTable.effectsOn_pos hused hkind hk
  have hshape := h.shaped k
  refine ⟨fun hstate => ?_, fun hstate hprevious => ?_⟩
  · simp only [DelayedSend.Shape, hstate] at hshape
    omega
  · simp only [DelayedSend.Shape, hstate, hprevious] at hshape
    omega

theorem SendsSound.no_active (hused : (s.sends.preparedEffects e).inUse = true)
    (hkind : (s.sends.preparedEffects e).kind = .cancel)
    (hk : (s.sends.preparedEffects e).registryIndex = some k) :
    (s.sends.delayedSends k).state ≠ .active := by
  have hpos := SendTable.effectsOn_pos hused hkind hk
  have hshape := h.shaped k
  intro hstate
  simp only [DelayedSend.Shape, hstate] at hshape
  omega

theorem SendsSound.asked_cancel_row {id : Text} (hasked : s.asked = some (e, .cancel id)) :
    ∃ k, (s.sends.preparedEffects e).registryIndex = some k ∧
      (s.sends.delayedSends k).state = .cancelReserved ∧ (s.sends.delayedSends k).id = id := by
  have hb := h.backs e (.cancel id) (by simp [heldSends, hasked])
  obtain ⟨k, hk⟩ := Option.isSome_iff_exists.mp hb.registered.symm
  obtain ⟨hstate, -⟩ := h.askedCancel e id hasked k hk
  exact ⟨k, hk, hstate, hb.id k hk (by simp [hstate])⟩

end System

end TurboScxml.Session
