import TurboScxml.Session.SendInvariant
import Mathlib.Data.Set.Insert

/-!
# A committed transaction replays its sends and cancels

The registry of delayed sends is, for its users, a set of ids. Committing the staged effects leaves
the set that the committed sends and cancels and the reports of the host give one after the other.

* `SendEvent.apply`, `replay`: the abstract registry;
* `Replayed`: the invariant; `reachable_replayed`.
-/

namespace TurboScxml.Session

open Function Slots

variable {cfg : Config}

def SendEvent.apply (live : Set Text) : SendEvent → Set Text
  | .committed (.send id true) => insert id live
  | .committed (.cancel id) | .done id => live \ {id}
  | _ => live

def activeIds {n : ℕ} (rows : Fin n → DelayedSend) : Set Text :=
  {id | ∃ k, (rows k).state = .active ∧ (rows k).id = id}

def DelayedSend.standing (row : DelayedSend) : DelayedState :=
  if row.state = .cancelReserved then row.previousState else row.state

theorem DelayedSend.standing_free : DelayedSend.free.standing = .free := rfl

variable {e : Fin cfg.effectCapacity} {id : Text}

namespace SendTable

variable {t t' : SendTable cfg} {live live' : Set Text} {k : Fin cfg.delayedSendCapacity}
  {row : DelayedSend}

structure Mirrors (t : SendTable cfg) (live : Set Text) : Prop where
  active : ∀ k, (t.delayedSends k).standing = .active → (t.delayedSends k).id ∈ live
  reserved : ∀ k, (t.delayedSends k).standing = .reserved → (t.delayedSends k).id ∉ live
  cover : ∀ id ∈ live, ∃ k, (t.delayedSends k).state ≠ .free ∧ (t.delayedSends k).id = id

theorem Mirrors.congr (h : t.Mirrors live) (hrows : t'.delayedSends = t.delayedSends) :
    t'.Mirrors live := by
  refine ⟨?_, ?_, ?_⟩ <;> rw [hrows]
  · exact h.active
  · exact h.reserved
  · exact h.cover

/-- **One row changes.** -/
theorem Mirrors.change (h : t.Mirrors live) (hrows : t'.delayedSends = update t.delayedSends k row)
    (hactive : row.standing = .active → row.id ∈ live')
    (hreserved : row.standing = .reserved → row.id ∉ live')
    (hothers : ∀ j, j ≠ k → (t.delayedSends j).state ≠ .free →
      ((t.delayedSends j).id ∈ live' ↔ (t.delayedSends j).id ∈ live))
    (hcover : ∀ id ∈ live', (row.state ≠ .free ∧ row.id = id) ∨
      (id ∈ live ∧ ((t.delayedSends k).state ≠ .free → (t.delayedSends k).id ≠ id))) :
    t'.Mirrors live' := by
  have hlive : ∀ j, (t.delayedSends j).standing ≠ .free → (t.delayedSends j).state ≠ .free := by
    intro j hstanding hfree
    exact hstanding (by simp [DelayedSend.standing, hfree])
  refine ⟨fun j => ?_, fun j => ?_, fun id hid => ?_⟩
  · rw [hrows]
    by_cases hj : j = k
    · subst hj
      simpa using hactive
    · rw [update_of_ne hj]
      intro hstanding
      exact (hothers j hj (hlive j (by simp [hstanding]))).mpr (h.active j hstanding)
  · rw [hrows]
    by_cases hj : j = k
    · subst hj
      simpa using hreserved
    · rw [update_of_ne hj]
      intro hstanding
      rw [hothers j hj (hlive j (by simp [hstanding]))]
      exact h.reserved j hstanding
  · rw [hrows]
    obtain ⟨hrow, hrowid⟩ | ⟨hold, hne⟩ := hcover id hid
    · exact ⟨k, by rwa [update_self], by rwa [update_self]⟩
    · obtain ⟨j, hj, hjid⟩ := h.cover id hold
      have hjk : j ≠ k := by
        rintro rfl
        exact hne hj hjid
      exact ⟨j, by rwa [update_of_ne hjk], by rwa [update_of_ne hjk]⟩

theorem Mirrors.changeRow (h : t.Mirrors live)
    (hrows : t'.delayedSends = update t.delayedSends k row)
    (hactive : row.standing = .active → row.id ∈ live)
    (hreserved : row.standing = .reserved → row.id ∉ live)
    (hcover : (t.delayedSends k).state ≠ .free → (t.delayedSends k).id ∈ live →
      row.state ≠ .free ∧ row.id = (t.delayedSends k).id) : t'.Mirrors live := by
  refine h.change hrows hactive hreserved (fun _ _ _ => Iff.rfl) fun id hid => ?_
  by_cases hk : (t.delayedSends k).state ≠ .free ∧ (t.delayedSends k).id = id
  · obtain ⟨hlive, rfl⟩ := hk
    exact .inl (hcover hlive hid)
  · exact .inr ⟨hid, fun hlive heq => hk ⟨hlive, heq⟩⟩

variable (f : DelayedSend → PreparedKind → DelayedSend)

theorem settleEffect_rows_none (hk : (t.preparedEffects e).registryIndex = none) :
    (t.settleEffect f e).delayedSends = t.delayedSends := by
  funext j
  rw [settleEffect_delayedSends, if_neg (by simp [hk])]

theorem settleEffect_rows_some (hk : (t.preparedEffects e).registryIndex = some k) :
    (t.settleEffect f e).delayedSends
      = update t.delayedSends k (f (t.delayedSends k) (t.preparedEffects e).kind) := by
  funext j
  rw [settleEffect_delayedSends]
  by_cases hj : j = k
  · subst hj
    rw [if_pos hk, update_self]
  · rw [update_of_ne hj, if_neg (by simp [hk, Ne.symm hj])]

variable (h : t.Mirrors live)
include h

theorem Mirrors.reserve (hrows : t'.delayedSends = update t.delayedSends k ⟨id, .reserved, .free⟩)
    (hfree : (t.delayedSends k).state = .free) (hnew : t.findDelayedSendLocked id = none) :
    t'.Mirrors live := by
  refine h.changeRow hrows (by simp [DelayedSend.standing]) ?_ (fun hlive => absurd hfree hlive)
  intro _ hmem
  obtain ⟨j, hj, hjid⟩ := h.cover id hmem
  exact findDelayedSendLocked_none hnew hj hjid

theorem Mirrors.mark (hrows : t'.delayedSends = update t.delayedSends k { t.delayedSends k with
        state := .cancelReserved, previousState := (t.delayedSends k).state }) :
    t'.Mirrors live := by
  refine h.changeRow hrows (fun hactive => ?_) (fun hreserved => ?_) fun _ _ => by simp
  · have hstate : (t.delayedSends k).state = .active := by
      simpa [DelayedSend.standing] using hactive
    exact h.active k (by simp [DelayedSend.standing, hstate])
  · have hstate : (t.delayedSends k).state = .reserved := by
      simpa [DelayedSend.standing] using hreserved
    exact h.reserved k (by simp [DelayedSend.standing, hstate])

theorem Mirrors.rollBackSend (hrows : t'.delayedSends = update t.delayedSends k
      ((t.delayedSends k).rolledBack .delayedSend))
    (hstate : (t.delayedSends k).state = .reserved) : t'.Mirrors live := by
  have hfree : (t.delayedSends k).rolledBack .delayedSend = .free := by
    simp [DelayedSend.rolledBack, hstate]
  rw [hfree] at hrows
  refine h.changeRow hrows (by simp [DelayedSend.standing_free])
    (by simp [DelayedSend.standing_free]) fun _ hid => ?_
  exact absurd hid (h.reserved k (by simp [DelayedSend.standing, hstate]))

theorem Mirrors.rollBackCancel
    (hrows : t'.delayedSends = update t.delayedSends k ((t.delayedSends k).rolledBack .cancel))
    (hstate : (t.delayedSends k).state = .cancelReserved)
    (hdone : (t.delayedSends k).previousState = .free → (t.delayedSends k).id ∉ live) :
    t'.Mirrors live := by
  have hstanding : (t.delayedSends k).standing = (t.delayedSends k).previousState := by
    simp [DelayedSend.standing, hstate]
  cases hprevious : (t.delayedSends k).previousState with
  | free =>
    have hfree : (t.delayedSends k).rolledBack .cancel = .free := by
      simp [DelayedSend.rolledBack, hstate, hprevious]
    rw [hfree] at hrows
    exact h.changeRow hrows (by simp [DelayedSend.standing_free])
      (by simp [DelayedSend.standing_free]) fun _ hid => absurd hid (hdone hprevious)
  | reserved | active | cancelReserved =>
    have hback : (t.delayedSends k).rolledBack .cancel
        = { t.delayedSends k with
            state := (t.delayedSends k).previousState, previousState := .free } := by
      simp [DelayedSend.rolledBack, hstate, hprevious]
    have hkept : ∀ state, state ≠ DelayedState.free →
        DelayedSend.standing { t.delayedSends k with
          state := (t.delayedSends k).previousState, previousState := .free } = state →
        (t.delayedSends k).standing = state := by
      intro state hne hnew
      by_cases hmarked : (t.delayedSends k).previousState = .cancelReserved
      · simp only [DelayedSend.standing, hmarked, if_true] at hnew
        exact absurd hnew.symm hne
      · simp only [DelayedSend.standing, hmarked, if_false] at hnew
        exact hstanding.trans hnew
    rw [hback] at hrows
    exact h.changeRow hrows (fun hactive => h.active k (hkept .active (by simp) hactive))
      (fun hreserved => h.reserved k (hkept .reserved (by simp) hreserved))
      fun _ _ => by simp [hprevious]

theorem Mirrors.commitSend (hdistinct : t.LiveDistinct)
    (hrows : t'.delayedSends = update t.delayedSends k ((t.delayedSends k).committed .delayedSend))
    (hlive : (t.delayedSends k).state ≠ .free) :
    t'.Mirrors (insert (t.delayedSends k).id live) := by
  have hcommitted : ((t.delayedSends k).committed .delayedSend).state ≠ .free ∧
      ((t.delayedSends k).committed .delayedSend).id = (t.delayedSends k).id ∧
      ((t.delayedSends k).committed .delayedSend).standing ≠ .reserved := by
    unfold DelayedSend.committed DelayedSend.standing
    split_ifs <;> simp_all
  obtain ⟨hstate, hid, hstanding⟩ := hcommitted
  refine h.change hrows (fun _ => ?_) (fun hreserved => absurd hreserved hstanding) ?_ ?_
  · rw [hid]
    exact Set.mem_insert _ _
  · intro j hj hjlive
    rw [Set.mem_insert_iff, or_iff_right]
    exact fun heq => hj (hdistinct j k hjlive hlive heq)
  · intro id' hmem
    by_cases heq : (t.delayedSends k).id = id'
    · exact .inl ⟨hstate, hid.trans heq⟩
    · obtain rfl | hold := Set.mem_insert_iff.mp hmem
      · exact absurd rfl heq
      · exact .inr ⟨hold, fun _ => heq⟩

theorem Mirrors.finish (hrows : t'.delayedSends = update t.delayedSends k row)
    (hrow : row.standing = .free)
    (hid : (t.delayedSends k).state ≠ .free → (t.delayedSends k).id = id)
    (hothers : ∀ j, j ≠ k → (t.delayedSends j).state ≠ .free → (t.delayedSends j).id ≠ id) :
    t'.Mirrors (live \ {id}) := by
  refine h.change hrows (by simp [hrow]) (by simp [hrow]) ?_ ?_
  · intro j hj hjlive
    rw [Set.mem_sdiff, Set.mem_singleton_iff, and_iff_left (hothers j hj hjlive)]
  · intro id' hmem
    refine .inr ⟨hmem.1, fun hlive heq => ?_⟩
    exact hmem.2 (heq.symm.trans (hid hlive))

omit h

end SendTable

namespace System

variable {s s' : System cfg}

def replay (s : System cfg) : Set Text := s.history.foldl SendEvent.apply (activeIds s.entry)

theorem replay_append {events : List SendEvent} (hentry : s'.entry = s.entry)
    (hhistory : s'.history = s.history ++ events) :
    s'.replay = events.foldl SendEvent.apply s.replay := by
  rw [replay, hentry, hhistory, List.foldl_append, replay]

def Precedes (a b : Fin cfg.effectCapacity × SendOp) : Prop :=
  ∀ id, a.2 = .cancel id → b.2 ≠ .send id true

/-- **The invariant of a transaction that may commit.** -/
structure Replayed (s : System cfg) : Prop where
  mirrors : s.sends.Mirrors s.replay
  sends : ∀ e id, (e, .send id true) ∈ s.preparedStaged → ∀ k,
    (s.sends.preparedEffects e).registryIndex = some k → (s.sends.delayedSends k).state ≠ .free
  single : ∀ e op, (e, op) ∈ s.heldSends → ∀ k,
    (s.sends.preparedEffects e).registryIndex = some k → ∀ j,
      (s.sends.delayedSends j).state ≠ .free → (s.sends.delayedSends j).id = op.id → j = k
  ordered : s.preparedStaged.Pairwise Precedes
  askedSend : ∀ e id, s.asked = some (e, .send id true) → ∀ k,
    (s.sends.preparedEffects e).registryIndex = some k →
      (s.sends.delayedSends k).state = .reserved
  askedCancel : ∀ e id, s.asked = some (e, .cancel id) → ∀ k,
    (s.sends.preparedEffects e).registryIndex = some k →
      (s.sends.delayedSends k).previousState = .free → id ∉ s.replay

def Replaying (s : System cfg) : Prop :=
  s.lane ≠ .discarding ∧ (s.lane = .idle → s.outcome = .committed)

variable {op : SendOp}

theorem SendsSound.row_live (hs : s.SendsSound) (hopen : s.lane.settling = false)
    (hmem : (e, op) ∈ s.heldSends) {k : Fin cfg.delayedSendCapacity}
    (hk : (s.sends.preparedEffects e).registryIndex = some k) :
    (s.sends.delayedSends k).state ≠ .free := by
  have hshaped : s.sends.Shaped true := by simpa [hopen] using hs.shaped
  exact hshaped.live_of_backs (hs.backs e op hmem) hk

theorem SendsSound.row_single (hs : s.SendsSound) (hopen : s.lane.settling = false)
    (hmem : (e, op) ∈ s.heldSends) {k j : Fin cfg.delayedSendCapacity}
    (hk : (s.sends.preparedEffects e).registryIndex = some k)
    (hj : (s.sends.delayedSends j).state ≠ .free) (hid : (s.sends.delayedSends j).id = op.id) :
    j = k := by
  have hlive := hs.row_live hopen hmem hk
  exact hs.distinct j k hj hlive (hid.trans ((hs.backs e op hmem).id k hk hlive).symm)

theorem Replayed.single_shrinks (h : s.Replayed) (hshrinks : s.sends.Shrinks s'.sends)
    (hheld : ∀ e op, (e, op) ∈ s'.heldSends → (e, op) ∈ s.heldSends ∧
      (s'.sends.preparedEffects e).registryIndex = (s.sends.preparedEffects e).registryIndex)
    (e : Fin cfg.effectCapacity) (op : SendOp) (hmem : (e, op) ∈ s'.heldSends)
    (k : Fin cfg.delayedSendCapacity)
    (hk : (s'.sends.preparedEffects e).registryIndex = some k) (j : Fin cfg.delayedSendCapacity)
    (hj : (s'.sends.delayedSends j).state ≠ .free)
    (hid : (s'.sends.delayedSends j).id = op.id) : j = k := by
  obtain ⟨hmem', hindex⟩ := hheld e op hmem
  obtain ⟨hj', hjid⟩ := hshrinks j hj
  exact h.single e op hmem' k (hindex ▸ hk) j hj' (hjid.symm.trans hid)

theorem Replayed.keep (h : s.Replayed) (hsends : s'.sends = s.sends) (hasked : s'.asked = s.asked)
    (hprepared : s'.preparedStaged = s.preparedStaged) (hreplay : s'.replay = s.replay) :
    s'.Replayed := by
  have hheld : s'.heldSends = s.heldSends := by rw [heldSends, hasked, hprepared, heldSends]
  refine ⟨?_, ?_, ?_, ?_, ?_, ?_⟩
  · rw [hsends, hreplay]
    exact h.mirrors
  · rw [hprepared, hsends]
    exact h.sends
  · rw [hheld, hsends]
    exact h.single
  · rw [hprepared]
    exact h.ordered
  · rw [hasked, hsends]
    exact h.askedSend
  · rw [hasked, hsends, hreplay]
    exact h.askedCancel

theorem Replayed.of_open (hs : s.SendsSound) (hopen : s.lane.settling = false)
    (hmirrors : s.sends.Mirrors s.replay) (hordered : s.preparedStaged.Pairwise Precedes)
    (haskedSend : ∀ e id, s.asked = some (e, .send id true) → ∀ k,
      (s.sends.preparedEffects e).registryIndex = some k →
        (s.sends.delayedSends k).state = .reserved)
    (haskedCancel : ∀ e id, s.asked = some (e, .cancel id) → ∀ k,
      (s.sends.preparedEffects e).registryIndex = some k →
        (s.sends.delayedSends k).previousState = .free → id ∉ s.replay) : s.Replayed where
  mirrors := hmirrors
  sends _ _ hmem _ hk := hs.row_live hopen (List.mem_append_right _ hmem) hk
  single _ _ hmem _ hk _ hj hid := hs.row_single hopen hmem hk hj hid
  ordered := hordered
  askedSend := haskedSend
  askedCancel := haskedCancel

theorem Replayed.begin (hs : s.SendsSound) (hs' : s'.SendsSound) (hlane : s.lane = .idle)
    (hlane' : s'.lane = .running) (hsends : s'.sends = s.sends) (hasked : s'.asked = s.asked)
    (hstaged : s'.staged = s.staged) (hhistory : s'.history = [])
    (hentry : s'.entry = s.sends.delayedSends) : s'.Replayed := by
  have hnone : s'.asked = none := by
    rw [hasked]
    by_contra hne
    exact (Lane.of_runsBlocks (hs.askedLane hne)).1 hlane
  have hprepared : s'.preparedStaged = [] := by
    rw [preparedStaged, hstaged]
    exact hs.idle hlane
  have hreplay : s'.replay = activeIds s.sends.delayedSends := by
    rw [replay, hhistory, hentry, List.foldl_nil]
  refine .of_open hs' (by rw [hlane']; rfl) ?_ (by rw [hprepared]; exact List.Pairwise.nil)
    (by simp [hnone]) (by simp [hnone])
  rw [hreplay, hsends]
  refine ⟨fun k hactive => ?_, fun k hreserved => ?_, fun id hid => ?_⟩
  · obtain hfree | ⟨hstate, -⟩ := hs.settled hlane k
    · rw [hfree, DelayedSend.standing_free] at hactive
      cases hactive
    · exact ⟨k, hstate, rfl⟩
  · obtain hfree | ⟨hstate, -⟩ := hs.settled hlane k
    · rw [hfree, DelayedSend.standing_free] at hreserved
      cases hreserved
    · simp [DelayedSend.standing, hstate] at hreserved
  · obtain ⟨k, hstate, rfl⟩ := hid
    exact ⟨k, by simp [hstate], rfl⟩

/-- **Accepting.** -/
theorem Replayed.precedes_asked (h : s.Replayed) (hs : s.SendsSound)
    (hasked : s.asked = some (e, op)) (a : Fin cfg.effectCapacity × SendOp)
    (hmem : a ∈ s.preparedStaged) : Precedes a (e, op) := by
  obtain ⟨e', op'⟩ := a
  rintro id rfl rfl
  have hopen := (Lane.of_runsBlocks (hs.askedLane (by simp [hasked]))).2
  have hheld : (e, SendOp.send id true) ∈ s.heldSends := by simp [heldSends, hasked]
  have hheld' : (e', SendOp.cancel id) ∈ s.heldSends := List.mem_append_right _ hmem
  obtain ⟨k, hk⟩ := Option.isSome_iff_exists.mp (hs.backs _ _ hheld).registered.symm
  obtain ⟨k', hk'⟩ := Option.isSome_iff_exists.mp (hs.backs _ _ hheld').registered.symm
  have hlive := hs.row_live hopen hheld hk
  obtain rfl : k = k' := hs.row_single hopen hheld' hk' hlive ((hs.backs _ _ hheld).id k hk hlive)
  have hpos := SendTable.effectsOn_pos (hs.backs _ _ hheld').inUse (hs.backs _ _ hheld').kind hk'
  have hshape := hs.shaped k
  simp only [DelayedSend.Shape, h.askedSend e id hasked k hk] at hshape
  change 0 < s.sends.effectsOn .cancel k at hpos
  omega

theorem Replayed.accept (h : s.Replayed) (hs : s.SendsSound) (hs' : s'.SendsSound)
    (hlane' : s'.lane = s.lane) (hasked : s.asked = some (e, op)) (hasked' : s'.asked = none)
    (hsends : s'.sends = s.sends.storeTicket e s.nextTicket)
    (hprepared : s'.preparedStaged = s.preparedStaged ++ [(e, op)])
    (hhistory : s'.history = s.history ++ stagedEvent op) (hentry : s'.entry = s.entry) :
    s'.Replayed := by
  have hopen := (Lane.of_runsBlocks (hs.askedLane (by simp [hasked]))).2
  have hreplay : s'.replay = s.replay := by
    rw [replay_append hentry hhistory]
    cases op <;> rfl
  refine .of_open hs' (hlane' ▸ hopen) ?_ ?_ (by simp [hasked']) (by simp [hasked'])
  · rw [hreplay, hsends]
    exact h.mirrors.congr rfl
  · rw [hprepared, List.pairwise_append]
    refine ⟨h.ordered, List.pairwise_singleton _ _, fun a hmem b hb => ?_⟩
    obtain rfl := List.mem_singleton.mp hb
    exact h.precedes_asked hs hasked a hmem

theorem Replayed.refuse (h : s.Replayed) (hs : s.SendsSound) (hs' : s'.SendsSound)
    {ticket : Option AdapterTicket} (hlane' : s'.lane = s.lane) (hasked : s.asked = some (e, op))
    (hasked' : s'.asked = none) (hsends : s'.sends = (s.sends.setEffect e
      { s.sends.preparedEffects e with adapterTicket := ticket }).rollbackPreparedEffectLocked e)
    (hprepared : s'.preparedStaged = s.preparedStaged) (hhistory : s'.history = s.history)
    (hentry : s'.entry = s.entry) : s'.Replayed := by
  have hopen := (Lane.of_runsBlocks (hs.askedLane (by simp [hasked]))).2
  have hreplay : s'.replay = s.replay := by rw [replay, hentry, hhistory, replay]
  have hb := hs.backs e op (by simp [heldSends, hasked])
  refine .of_open hs' (hlane' ▸ hopen) ?_ (by rw [hprepared]; exact h.ordered) (by simp [hasked'])
    (by simp [hasked'])
  rw [hreplay, hsends, SendTable.rollbackPreparedEffectLocked]
  cases hk : (s.sends.preparedEffects e).registryIndex with
  | none => exact h.mirrors.congr (SendTable.settleEffect_rows_none _ (by simp [hk]))
  | some k =>
    have hrows : ((s.sends.setEffect e { s.sends.preparedEffects e with
        adapterTicket := ticket }).settleEffect DelayedSend.rolledBack e).delayedSends
          = update s.sends.delayedSends k ((s.sends.delayedSends k).rolledBack op.kind) := by
      rw [SendTable.settleEffect_rows_some (k := k) _ (by simp [hk])]
      simp [hb.kind]
    have hreg := hb.registered
    rw [hk, Option.isSome_some] at hreg
    cases op with
    | send id delayed =>
      obtain rfl : delayed = true := hreg
      exact h.mirrors.rollBackSend hrows (h.askedSend e id hasked k hk)
    | cancel id =>
      obtain ⟨hstate, -⟩ := hs.askedCancel e id hasked k hk
      refine h.mirrors.rollBackCancel hrows hstate fun hprevious => ?_
      rw [show (s.sends.delayedSends k).id = id from hb.id k hk (by simp [hstate])]
      exact h.askedCancel e id hasked k hk hprevious

theorem SendsSound.heldSends_settling (hs : s.SendsSound) (hsettling : s.lane.settling = true) :
    s.asked = none ∧ s.heldSends = s.preparedStaged := by
  have hnone : s.asked = none := by
    by_contra hne
    simp [(Lane.of_runsBlocks (hs.askedLane hne)).2] at hsettling
  exact ⟨hnone, by simp [heldSends, hnone]⟩

/-- **Committing** the first of the staged effects. -/
theorem Replayed.commit (h : s.Replayed) (hs : s.SendsSound) (hlane : s.lane = .committing)
    (hasked : s'.asked = s.asked) (hsends : s'.sends = (s.sends.commitPreparedEffect e).1)
    (hprepared : s.preparedStaged = (e, op) :: s'.preparedStaged)
    (hhistory : s'.history = s.history ++ [.committed op]) (hentry : s'.entry = s.entry) :
    s'.Replayed := by
  obtain ⟨hnone, hheld⟩ := hs.heldSends_settling (by rw [hlane]; rfl)
  have hmem : (e, op) ∈ s.heldSends := by simp [hheld, hprepared]
  have hb := hs.backs e op hmem
  have hordered := List.pairwise_cons.mp (hprepared ▸ h.ordered)
  have hnodup := hs.nodup
  rw [hheld, hprepared, List.map_cons, List.nodup_cons] at hnodup
  have hsub : ∀ e' op', (e', op') ∈ s'.heldSends → (e', op') ∈ s.heldSends ∧ e' ≠ e := by
    intro e' op' hmem'
    have hmem'' : (e', op') ∈ s'.preparedStaged := by
      simpa [heldSends, hasked, hnone] using hmem'
    refine ⟨by rw [hheld, hprepared]; exact List.mem_cons_of_mem _ hmem'', ?_⟩
    rintro rfl
    exact hnodup.1 (List.mem_map.mpr ⟨_, hmem'', rfl⟩)
  simp only [SendTable.commitPreparedEffect, hb.inUse, if_true] at hsends
  have heffects : ∀ e', e' ≠ e → s'.sends.preparedEffects e' = s.sends.preparedEffects e' := by
    intro e' he
    rw [hsends, SendTable.settleEffect_preparedEffects, update_of_ne he]
  have hshrinks : s.sends.Shrinks s'.sends := by
    rw [hsends]
    exact SendTable.settleEffect_shrinks SendTable.committed_shrinks
  have hrows : ∀ k, (s.sends.preparedEffects e).registryIndex = some k → s'.sends.delayedSends
      = update s.sends.delayedSends k ((s.sends.delayedSends k).committed op.kind) := by
    intro k hk
    rw [hsends, SendTable.settleEffect_rows_some _ hk, hb.kind]
  have hreplay := replay_append hentry hhistory
  refine ⟨?_, fun e' id' hmem' k' hk' => ?_, ?_, hordered.2, by simp [hasked, hnone],
    by simp [hasked, hnone]⟩
  · rw [hreplay, List.foldl_cons, List.foldl_nil]
    cases hk : (s.sends.preparedEffects e).registryIndex with
    | none =>
      have hreg := hb.registered
      rw [hk, Option.isSome_none] at hreg
      cases op with
      | send id delayed =>
        obtain rfl : delayed = false := hreg
        exact h.mirrors.congr (by rw [hsends, SendTable.settleEffect_rows_none _ hk])
      | cancel id => cases hreg
    | some k =>
      have hreg := hb.registered
      rw [hk, Option.isSome_some] at hreg
      cases op with
      | send id delayed =>
        obtain rfl : delayed = true := hreg
        have hlive := h.sends e id (by simp [hprepared]) k hk
        have hmirrors := h.mirrors.commitSend hs.distinct (hrows k hk) hlive
        rwa [show (s.sends.delayedSends k).id = id from hb.id k hk hlive] at hmirrors
      | cancel id =>
        refine h.mirrors.finish (hrows k hk) ?_ (hb.id k hk) fun j hj hlive hid => ?_
        · -- the row still waits for the cancel, or was freed by an earlier one
          have hpos := SendTable.effectsOn_pos hb.inUse hb.kind hk
          have hshape := hs.shaped k
          change 0 < s.sends.effectsOn .cancel k at hpos
          cases hstate : (s.sends.delayedSends k).state with
          | free =>
            simp [SendOp.kind, DelayedSend.committed, DelayedSend.standing, hstate]
          | cancelReserved =>
            simp [SendOp.kind, DelayedSend.committed, hstate, DelayedSend.standing_free]
          | reserved | active =>
            simp only [DelayedSend.Shape, hstate] at hshape
            omega
        · exact hj (h.single e _ hmem k hk j hlive hid)
  · obtain ⟨hmem'', he⟩ := hsub e' _ (List.mem_append_right _ hmem')
    rw [heffects e' he] at hk'
    have hstaged : (e', SendOp.send id' true) ∈ s.preparedStaged := by
      rw [hprepared]
      exact List.mem_cons_of_mem _ hmem'
    have hlive := h.sends e' id' hstaged k' hk'
    by_cases hk : (s.sends.preparedEffects e).registryIndex = some k'
    · cases op with
      | send id delayed =>
        have hreg := hb.registered
        rw [hk, Option.isSome_some] at hreg
        obtain rfl : delayed = true := hreg
        rw [hrows k' hk, update_self]
        simp only [SendOp.kind, DelayedSend.committed]
        split_ifs <;> simp_all
      | cancel id =>
        -- a cancel of the send would be staged after it
        have hid : id = id' :=
          (hb.id k' hk hlive).symm.trans ((hs.backs e' _ hmem'').id k' hk' hlive)
        subst hid
        exact absurd rfl (hordered.1 _ hmem' id rfl)
    · rw [hsends, SendTable.settleEffect_delayedSends, if_neg hk]
      exact hlive
  · exact h.single_shrinks hshrinks fun e' op' hmem' => by
      obtain ⟨hmem'', he⟩ := hsub e' op' hmem'
      exact ⟨hmem'', by rw [heffects e' he]⟩

/-- **A report** of the host that a send is over. -/
theorem Replayed.report (h : s.Replayed) (hs : s.SendsSound) (hasked : s'.asked = s.asked)
    (hprepared : s'.preparedStaged = s.preparedStaged)
    (hsends : s'.sends = (s.sends.reportSendDone id).1) (hhistory : s'.history
      = if (s.sends.reportSendDone id).2 then s.history ++ [.done id] else s.history)
    (hentry : s'.entry = s.entry) : s'.Replayed := by
  have hheld : s'.heldSends = s.heldSends := by rw [heldSends, hasked, hprepared, heldSends]
  have heffects : s'.sends.preparedEffects = s.sends.preparedEffects := by
    rw [hsends, SendTable.reportSendDone_preparedEffects]
  obtain hsame | ⟨k, hfind, hcases⟩ := SendTable.reportSendDone_cases s.sends id
  · rw [hsame] at hsends hhistory
    exact h.keep hsends hasked hprepared (by rw [replay, hentry, hhistory]; rfl)
  obtain ⟨hklive, hkid⟩ := SendTable.findDelayedSendLocked_some hfind
  -- the row is freed, or nothing is left for its cancels to take back
  have hreport : ∃ row, s'.sends.delayedSends = update s.sends.delayedSends k row ∧
      row.standing = .free ∧ s'.history = s.history ++ [.done id] ∧
      ((s.sends.delayedSends k).state = .active ∨
        (s.sends.delayedSends k).state = .cancelReserved ∧ row.state = .cancelReserved) := by
    obtain ⟨hstate, hset⟩ | ⟨hstate, -, hset⟩ := hcases
    · rw [hset] at hsends hhistory
      exact ⟨.free, by rw [hsends]; rfl, rfl, hhistory, .inl hstate⟩
    · rw [hset] at hsends hhistory
      refine ⟨_, by rw [hsends]; rfl, ?_, hhistory, .inr ⟨hstate, ?_⟩⟩ <;>
        simp [DelayedSend.standing, hstate]
  obtain ⟨row, hrows, hstanding, hhistory', hstate⟩ := hreport
  have hreplay : s'.replay = s.replay \ {id} := replay_append hentry hhistory'
  have hshrinks : s.sends.Shrinks s'.sends := by
    rw [hsends]
    exact SendTable.reportSendDone_shrinks _ id
  refine ⟨?_, fun e' id' hmem k' hk' => ?_, ?_, by rw [hprepared]; exact h.ordered,
    fun e' id' hask k' hk' => ?_, fun e' id' hask k' hk' hprevious => ?_⟩
  · rw [hreplay]
    refine h.mirrors.finish hrows hstanding (fun _ => hkid) fun j hj hlive hid => ?_
    exact hj (hs.distinct j k hlive hklive (hid.trans hkid.symm))
  · rw [hprepared] at hmem
    rw [heffects] at hk'
    have hb := hs.backs e' _ (List.mem_append_right _ hmem)
    have hlive := h.sends e' id' hmem k' hk'
    by_cases hkk : k' = k
    · subst hkk
      obtain hactive | ⟨-, hrow⟩ := hstate
      · exact absurd hactive (hs.no_send hb.inUse hb.kind hk').1
      · rw [hrows, update_self, hrow]
        simp
    · rwa [hrows, update_of_ne hkk]
  · exact h.single_shrinks hshrinks fun e' op' hmem => ⟨hheld ▸ hmem, by rw [heffects]⟩
  · rw [hasked] at hask
    rw [heffects] at hk'
    have hreserved := h.askedSend e' id' hask k' hk'
    have hkk : k' ≠ k := by
      rintro rfl
      obtain hactive | ⟨hcancel, -⟩ := hstate
      · simp [hreserved] at hactive
      · simp [hreserved] at hcancel
    rwa [hrows, update_of_ne hkk]
  · rw [hasked] at hask
    rw [heffects] at hk'
    rw [hreplay]
    by_cases hkk : k' = k
    · subst hkk
      have hb := hs.backs e' _ (by simp [heldSends, hask] : (e', SendOp.cancel id') ∈ s.heldSends)
      have hid : id' = id := (hb.id k' hk' hklive).symm.trans hkid
      rw [hid]
      exact fun hmem => hmem.2 rfl
    · rw [hrows, update_of_ne hkk] at hprevious
      exact fun hmem => h.askedCancel e' id' hask k' hk' hprevious hmem.1

/-- **The invariant holds after every step.** -/
theorem Replayed.move (h : s.Replaying → s.Replayed) (hs : s.SendsSound) (hs' : s'.SendsSound)
    (hmove : SendsMove s s') (hreplaying : s'.Replaying) : s'.Replayed := by
  have hblocks : s.lane.runsBlocks = true → s.Replaying := by
    intro hlane
    obtain ⟨hidle, hopen⟩ := Lane.of_runsBlocks hlane
    refine ⟨?_, fun h => absurd h hidle⟩
    rintro hdiscarding
    simp [hdiscarding, Lane.settling] at hopen
  cases hmove with
  | quiet haside hlane =>
    have hbefore : s.Replaying := by
      obtain hlane | ⟨hidle, hopen, -, -⟩ := hlane
      · exact ⟨hlane ▸ hreplaying.1, fun hidle =>
          haside.outcome.symm.trans (hreplaying.2 (hlane.trans hidle))⟩
      · refine ⟨?_, fun h => absurd h hidle⟩
        rintro hdiscarding
        simp [hdiscarding, Lane.settling] at hopen
    exact (h hbefore).keep haside.sends haside.asked haside.prepared
      (by rw [replay, haside.entry, haside.history, replay])
  | begin hlane hlane' hsends hasked hstaged hhistory hentry =>
    exact .begin hs hs' hlane hlane' hsends hasked hstaged hhistory hentry
  | askSend request e hlane hlane' hasked hasked' hok hprepared hhistory hentry houtcome =>
    have hbefore := h (hblocks hlane)
    have hopen : s'.lane.settling = false := hlane' ▸ (Lane.of_runsBlocks hlane).2
    have hreplay : s'.replay = s.replay := by rw [replay, hentry, hhistory, replay]
    refine .of_open hs' hopen ?_ (by rw [hprepared]; exact hbefore.ordered) ?_ (by simp [hasked'])
    · rw [hreplay]
      obtain ⟨-, ⟨-, htable⟩ | ⟨-, k, hnew, hfree, -, htable⟩⟩ :=
        SendTable.executeSendReserve_ok hok
      · exact hbefore.mirrors.congr (by rw [htable]; rfl)
      · exact hbefore.mirrors.reserve (by rw [htable]; rfl) hfree hnew
    · intro e' id' hask k hk
      obtain ⟨rfl, hop⟩ := Prod.mk.inj (Option.some.inj (hasked'.symm.trans hask))
      obtain ⟨-, ⟨hdelay, -⟩ | ⟨-, j, -, -, -, htable⟩⟩ := SendTable.executeSendReserve_ok hok
      · simp [hdelay] at hop
      · obtain rfl : j = k := by simpa [htable, SendTable.prepared] using hk
        simp [htable]
  | askCancel id e hlane hlane' hasked hasked' hok hprepared hhistory hentry houtcome =>
    have hbefore := h (hblocks hlane)
    have hopen : s'.lane.settling = false := hlane' ▸ (Lane.of_runsBlocks hlane).2
    have hreplay : s'.replay = s.replay := replay_append hentry hhistory
    obtain ⟨-, k, hfind, htable⟩ := SendTable.executeCancelReserve_ok hok
    obtain ⟨hlive, -⟩ := SendTable.findDelayedSendLocked_some hfind
    refine .of_open hs' hopen ?_ (by rw [hprepared]; exact hbefore.ordered) (by simp [hasked']) ?_
    · rw [hreplay]
      exact hbefore.mirrors.mark (by rw [htable]; rfl)
    · intro e' id' hask j hj hprevious
      obtain ⟨rfl, -⟩ := Prod.mk.inj (Option.some.inj (hasked'.symm.trans hask))
      obtain rfl : k = j := by simpa [htable, SendTable.prepared] using hj
      exact absurd (by simpa [htable] using hprevious) hlive
  | accept e op hlane' hasked hasked' hsends hprepared hhistory hentry houtcome =>
    have hbefore := h (hblocks (hs.askedLane (by simp [hasked])))
    exact hbefore.accept hs hs' hlane' hasked hasked' hsends hprepared hhistory hentry
  | refuse e op ticket hlane' hasked hasked' hsends hprepared hhistory hentry houtcome =>
    have hbefore := h (hblocks (hs.askedLane (by simp [hasked])))
    exact hbefore.refuse hs hs' (hlane'.resolve_right hreplaying.1) hasked hasked' hsends hprepared
      hhistory hentry
  | commit e op hlane hlane' hasked hsends hprepared hhistory hentry =>
    have hbefore : s.Replaying := ⟨by simp [hlane], by simp [hlane]⟩
    exact (h hbefore).commit hs hlane hasked hsends hprepared hhistory hentry
  | discard e op before after hlane hlane' => exact absurd hlane' hreplaying.1
  | finish hlane hlane' hstaged hstaged' hsends hasked hhistory hentry houtcome =>
    have hcommitting : s.lane = .committing := by
      by_contra hne
      rw [if_neg hne] at houtcome
      exact absurd (houtcome.symm.trans (hreplaying.2 hlane')) (by simp)
    have hbefore : s.Replaying := ⟨by simp [hcommitting], by simp [hcommitting]⟩
    exact (h hbefore).keep hsends hasked
      (by rw [preparedStaged, hstaged', preparedStaged, hstaged])
      (by rw [replay, hentry, hhistory, replay])
  | report id hlane' hasked hprepared hsends hhistory hentry houtcome =>
    have hbefore : s.Replaying := by
      rw [Replaying, hlane', houtcome] at hreplaying
      exact hreplaying
    exact (h hbefore).report hs hasked hprepared hsends hhistory hentry

theorem init_replayed : (init cfg).Replayed where
  mirrors := by
    refine ⟨fun k hactive => ?_, fun k hreserved => ?_, ?_⟩
    · cases hactive
    · cases hreserved
    · rintro id ⟨k, hstate, -⟩
      cases hstate
  sends e id hmem := by cases hmem
  single e op hmem := by cases hmem
  ordered := List.Pairwise.nil
  askedSend e id hasked := by cases hasked
  askedCancel e id hasked := by cases hasked

theorem reachable_replayed (h : Reachable s) (hreplaying : s.Replaying) : s.Replayed := by
  have hall : s.SendsSound ∧ (s.Replaying → s.Replayed) := by
    refine h.invariant (P := fun s => s.SendsSound ∧ (s.Replaying → s.Replayed)) ?_ ?_
    · rintro s rfl
      exact ⟨init_sendsSound, fun _ => init_replayed⟩
    · rintro s a s' ⟨hs, hr⟩ hstep
      have hs' := hs.step hstep
      exact ⟨hs', Replayed.move hr hs hs' (step_moves hstep hs.askedUse).sends⟩
  exact hall.2 hreplaying

theorem Replayed.activeIds_eq (h : s.Replayed) (hs : s.SendsSound) (hidle : s.lane = .idle) :
    activeIds s.sends.delayedSends = s.replay := by
  ext id
  constructor
  · rintro ⟨k, hstate, rfl⟩
    exact h.mirrors.active k (by simp [DelayedSend.standing, hstate])
  · intro hid
    obtain ⟨k, hlive, hkid⟩ := h.mirrors.cover id hid
    obtain hfree | ⟨hstate, -⟩ := hs.settled hidle k
    · exact absurd (by rw [hfree]; rfl) hlive
    · exact ⟨k, hstate, hkid⟩

end System

end TurboScxml.Session
