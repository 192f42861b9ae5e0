import TurboScxml.Router.Invariant
import TurboScxml.Router.Publishing

/-!
# The steps of the router, by what they touch

* `WorkStep`: what an action does to rows, intents and tickets;
* `StepSpec`: all that one action says of the state after it; **`step_spec`** shows it of every
  action in one case analysis;
* **`reachable_accounted`**: in every reachable state the counters are right and no invariant
  failure was recorded.
-/

namespace TurboScxml.Router

open Function Slots Machine

variable {cfg : Config} {σ : Type}

def Action.onDirectory : Action cfg σ → Bool
  | .reserve | .activate .. | .attach .. | .detach .. | .setParent .. | .setExternalAccess ..
  | .bindInvoke .. | .unbindInvoke .. | .resolve .. => true
  | _ => false

inductive WorkStep (s s' : System cfg σ) : Prop
  | quiet (own : Option (Fin cfg.eventCapacity)) (hstep : RowsStep own s.router s'.router)
      (hown : ∀ i, own = some i → (s.router.rows i).state = .firing ∨
        (s.router.rows i).state = .inflight)
      (hcancel : s'.router.cancelRows = s.router.cancelRows) (htickets : s'.tickets = s.tickets)
      (hserial : s'.nextSerial = s.nextSerial)
      (hdelivered : s'.deliveredIdentities = s.deliveredIdentities ∨
        ∃ j, (s.router.rows j).state = .inflight ∧ s'.router.rows j = .free ∧
          s'.deliveredIdentities = s.deliveredIdentities ++ [(s.router.rows j).identity])
  | acceptSend (i : Fin cfg.eventCapacity) (row : Row) (hfree : s.router.rows i = .free)
      (hrow : Reserves s.router row)
      (hs' : s' = { s with
        router := s.router.accepted i row
        tickets := s.tickets ++ [⟨s.nextSerial, row.source, .send i row.identity⟩]
        nextSerial := s.nextSerial + 1 })
  | acceptCancel (i : Fin cfg.eventCapacity) (k : Fin cfg.cancelCapacity) (source : SessionRef)
      (sendId : Text)
      (hi : (Fin.find? fun i => (s.router.rows i).delayedSend source sendId) = some i)
      (hk : (s.router.cancelRows k).inUse = false) (hsource : s.router.locate source ≠ none)
      (hcancel : s'.router.cancelRows =
        update s.router.cancelRows k ⟨some i, source, (s.router.rows i).identity, true⟩)
      (htable : s'.router.rowTable = s.router.rowTable)
      (htickets : s'.tickets =
        s.tickets ++ [⟨s.nextSerial, source, .cancel k (s.router.rows i).identity⟩])
      (hserial : s'.nextSerial = s.nextSerial + 1)
      (hdelivered : s'.deliveredIdentities = s.deliveredIdentities)
  | settle (t : Ticket cfg) (ht : s.settleable t = true) (own : Option (Fin cfg.eventCapacity))
      (hstep : RowsStep own s.router s'.router)
      (hown : ∀ i, own = some i → ∃ d, t.effect = .send i d)
      (hcancel : ∀ k, (s'.router.cancelRows k).inUse = true →
        s'.router.cancelRows k = s.router.cancelRows k)
      (htickets : s'.tickets = s.tickets.erase t) (hserial : s'.nextSerial = s.nextSerial)
      (hdelivered : s'.deliveredIdentities = s.deliveredIdentities)

/-- **What one action says** of the state it leads to: the invariant, and what it left alone. -/
structure StepSpec (s s' : System cfg σ) (a : Action cfg σ) : Prop where
  sound : Sound s'
  work : WorkStep s s'
  kept : a.onDirectory = false →
    s'.router.directory = s.router.directory ∧ s'.issued = s.issued
  aloof : a.onDrain = false →
    Aloof s.router s'.router ∧ s'.drain = s.drain ∧
      s'.deliveredIdentities = s.deliveredIdentities

section Step

variable {s s' : System cfg σ} {a : Action cfg σ} {r r' : Router cfg σ}

theorem inUse_of_update {k : Fin cfg.cancelCapacity}
    (h : r'.cancelRows = update r.cancelRows k .free) (l : Fin cfg.cancelCapacity)
    (hl : (r'.cancelRows l).inUse = true) : r'.cancelRows l = r.cancelRows l := by
  rw [h] at hl ⊢
  by_cases hlk : l = k
  · rw [hlk, update_self] at hl
    cases hl
  · rw [update_of_ne hlk]

theorem drainSettle_delivers (h : Accounted r) {j : Fin cfg.eventCapacity}
    (hj : (r.rows j).state = .inflight) (count maxEvents : ℕ) :
    (r.drainSettle .ok j count maxEvents).1.rows j = .free := by
  unfold drainSettle
  dsimp only
  rw [if_neg (by simp [hj]), if_pos rfl, releaseLocked_eq h.toRowsCounted (by simp [hj])]
  simp [freed]

theorem directory_of_aside (h : r'.aside = r.aside) : r'.directory = r.directory :=
  congrArg (fun x => (x.1, x.2.1)) h

variable (r)

theorem cancelCommit_directory (k : Fin cfg.cancelCapacity) :
    (r.cancelCommit k).directory = r.directory := by
  unfold cancelCommit
  dsimp only
  split_ifs
  · rfl
  · rw [cancelReleaseLocked_directory]
    exact directory_of_aside (r.cancelRow_aside (r.cancelRows k))

theorem cancelDiscard_directory (k : Fin cfg.cancelCapacity) :
    (r.cancelDiscard k).directory = r.directory := by
  unfold cancelDiscard
  split_ifs
  · rfl
  · rw [cancelReleaseLocked_directory]
    rfl

variable {r}

theorem runDueBegin_aside (maxFires : ℕ) : (r.runDueBegin maxFires).1.aside = r.aside := by
  unfold runDueBegin
  split_ifs <;> rfl

theorem drainBegin_aside (maxEvents : ℕ) : (r.drainBegin maxEvents).1.aside = r.aside := by
  unfold drainBegin
  split_ifs <;> rfl

theorem drainBegin_rowTable (maxEvents : ℕ) :
    (r.drainBegin maxEvents).1.rowTable = r.rowTable := by
  unfold drainBegin
  split_ifs <;> rfl

theorem drainClaim_aside (count maxEvents : ℕ) (result : MailboxStatus) :
    (r.drainClaim count maxEvents result).1.aside = r.aside := by
  unfold drainClaim
  dsimp only
  (repeat' split) <;> rfl

/-! ## The kinds of step -/

namespace StepSpec

variable (h : Sound s)
include h

theorem onDirectory (ha : a.onDirectory = true) {issued : List SessionRef}
    (hwork : r'.work = s.router.work) (haccounted : Accounted r') :
    StepSpec s { s with router := r', issued } a where
  sound := h.idle hwork haccounted rfl rfl rfl rfl
  work := .quiet none (.of_work hwork) (by simp) (congrArg (·.2.2.1) hwork) rfl rfl (.inl rfl)
  kept hb := by simp [ha] at hb
  aloof _ := ⟨.of_work hwork, rfl, rfl⟩

/-- A section outside the directory that keeps tickets and lanes. -/
theorem beside (hstep : RowsStep none s.router r') (hcancel : r'.cancelRows = s.router.cancelRows)
    (hdirectory : r'.directory = s.router.directory) (haloof : Aloof s.router r')
    (haccounted : Accounted r') : StepSpec s { s with router := r' } a where
  sound := h.quiet hstep hcancel haccounted rfl rfl rfl rfl
  work := .quiet none hstep (by simp) hcancel rfl rfl (.inl rfl)
  kept _ := ⟨hdirectory, rfl⟩
  aloof _ := ⟨haloof, rfl, rfl⟩

theorem quiet (hstep : RowsStep none s.router r')
    (haside : r'.aside = s.router.aside) (haloof : Aloof s.router r')
    (haccounted : Accounted r') : StepSpec s { s with router := r' } a :=
  .beside h hstep (cancelRows_of_aside haside) (directory_of_aside haside) haloof haccounted

theorem refused (href : Refused s.router r') : StepSpec s { s with router := r' } a :=
  .quiet h (.of_work href.work) href.aside href.aloof (href.accounted h.accounted)

theorem acceptSend {i : Fin cfg.eventCapacity}
    {row : Row} (hfree : s.router.rows i = .free) (hrow : Reserves s.router row) :
    StepSpec s (s.accept row.source System.sendEffect (s.router.accepted i row, .ok i)) a where
  sound := h.acceptSend hfree hrow
  work := .acceptSend i row hfree hrow (by simp [System.accept, System.sendEffect, accepted])
  kept _ := ⟨rfl, rfl⟩
  aloof _ := ⟨accepted_aloof hrow, rfl, rfl⟩

/-- A section of the timer lane. -/
theorem timer (own : Option (Fin cfg.eventCapacity))
    {lane : TimerLane cfg} (hstep : RowsStep own s.router r')
    (hown : ∀ i, own = some i → (s.router.rows i).state = .firing)
    (haside : r'.aside = s.router.aside) (haloof : Aloof s.router r') (haccounted : Accounted r')
    (hlane : ∀ i count maxFires, lane = .reporting i count maxFires →
      (r'.rows i).state = .firing) : StepSpec s { s with router := r', timer := lane } a where
  sound := h.timerStep own hstep hown (cancelRows_of_aside haside) haccounted hlane
  work := .quiet own hstep (fun i hi => .inl (hown i hi)) (cancelRows_of_aside haside) rfl rfl
    (.inl rfl)
  kept _ := ⟨directory_of_aside haside, rfl⟩
  aloof _ := ⟨haloof, rfl, rfl⟩

/-- A section of the drain lane. -/
theorem drain (ha : a.onDrain = true) (own : Option (Fin cfg.eventCapacity))
    {lane : DrainLane cfg σ} {delivered : List ℕ} (hstep : RowsStep own s.router r')
    (hown : ∀ i, own = some i → (s.router.rows i).state = .inflight)
    (haside : r'.aside = s.router.aside) (haccounted : Accounted r')
    (hlane : ∀ j event count maxEvents, lane = .delivering j event count maxEvents →
      (r'.rows j).state = .inflight)
    (hdelivered : delivered = s.deliveredIdentities ∨
      ∃ j, (s.router.rows j).state = .inflight ∧ r'.rows j = .free ∧
        delivered = s.deliveredIdentities ++ [(s.router.rows j).identity]) :
    StepSpec s { s with router := r', drain := lane, deliveredIdentities := delivered } a where
  sound := h.drainStep own hstep hown (cancelRows_of_aside haside) haccounted hlane
  work := .quiet own hstep (fun i hi => .inr (hown i hi)) (cancelRows_of_aside haside) rfl rfl
    hdelivered
  kept _ := ⟨directory_of_aside haside, rfl⟩
  aloof hb := by simp [ha] at hb

end StepSpec

variable {t : Ticket cfg}

theorem mem_of_settleable (ht : s.settleable t = true) : t ∈ s.tickets := by
  simp only [System.settleable, Bool.and_eq_true, List.contains_iff_mem] at ht
  exact ht.1

namespace StepSpec

variable {d : ℕ}

theorem settleSend (h : Sound s) (ht : s.settleable t = true) {i : Fin cfg.eventCapacity}
    (hd : t.effect = .send i d) (hstep : RowsStep (some i) s.router r')
    (haside : r'.aside = s.router.aside) (hsettles : (r'.rows i).state ≠ .reserved)
    (haloof : Aloof s.router r') (haccounted : Accounted r') :
    StepSpec s (s.settle t r') a where
  sound :=
    { rows := h.rows.rowsStep hstep
      tickets := h.tickets.settleSend (mem_of_settleable ht) hd hstep hsettles
        (cancelRows_of_aside haside)
      lanes := h.lanes.keep hstep (fun j hj => by
        cases hj
        exact (h.tickets.send t (mem_of_settleable ht) i d hd).1) rfl rfl
      accounted := haccounted }
  work := .settle t ht (some i) hstep (fun j hj => by cases hj; exact ⟨d, hd⟩)
    (fun k _ => congrFun (cancelRows_of_aside haside) k) rfl rfl rfl
  kept _ := ⟨directory_of_aside haside, rfl⟩
  aloof _ := ⟨haloof, rfl, rfl⟩

theorem settleCancel (h : Sound s) (ht : s.settleable t = true) {k : Fin cfg.cancelCapacity}
    (hd : t.effect = .cancel k d) (hstep : RowsStep none s.router r')
    (hcancel : r'.cancelRows = update s.router.cancelRows k .free)
    (hdirectory : r'.directory = s.router.directory) (haloof : Aloof s.router r')
    (haccounted : Accounted r') : StepSpec s (s.settle t r') a where
  sound := ⟨h.rows.rowsStep hstep,
    h.tickets.settleCancel (mem_of_settleable ht) hd hstep hcancel,
    h.lanes.keep hstep (by simp) rfl rfl, haccounted⟩
  work := .settle t ht none hstep (by simp) (inUse_of_update hcancel) rfl rfl rfl
  kept _ := ⟨hdirectory, rfl⟩
  aloof _ := ⟨haloof, rfl, rfl⟩

end StepSpec

theorem commit_spec (h : Sound s) (ht : s.settleable t = true) (now : ℕ) :
    StepSpec s (s.settle t (System.commitTicket s.router now t.effect)) a := by
  cases hd : t.effect with
  | send i d =>
    have hstate := (h.tickets.send t (mem_of_settleable ht) i d hd).1
    exact .settleSend h ht hd (s.router.ticketCommit_rowsStep now i)
      (s.router.ticketCommit_aside now i) (ticketCommit_settles h.accounted hstate now)
      (s.router.ticketCommit_aloof now i) (ticketCommit_accounted h.accounted hstate now)
  | cancel k d =>
    have hk := (h.tickets.cancel t (mem_of_settleable ht) k d hd).1
    exact .settleCancel h ht hd
      (cancelCommit_rowsStep fun i hi => h.tickets.intentRow_settleable ht hd hi)
      (cancelCommit_cancelRows h.accounted hk) (s.router.cancelCommit_directory k)
      (s.router.cancelCommit_aloof k) (cancelCommit_accounted h.accounted hk)

theorem discard_spec (h : Sound s) (ht : s.settleable t = true) :
    StepSpec s (s.settle t (System.discardTicket s.router t.effect)) a := by
  cases hd : t.effect with
  | send i d =>
    have hstate := (h.tickets.send t (mem_of_settleable ht) i d hd).1
    exact .settleSend h ht hd (s.router.ticketDiscard_rowsStep i) (s.router.ticketDiscard_aside i)
      (ticketDiscard_settles h.accounted hstate) (s.router.ticketDiscard_aloof i)
      (ticketDiscard_accounted h.accounted hstate)
  | cancel k d =>
    have hk := (h.tickets.cancel t (mem_of_settleable ht) k d hd).1
    exact .settleCancel h ht hd (.of_rowTable (s.router.cancelDiscard_rowTable k))
      (cancelDiscard_cancelRows h.accounted hk) (s.router.cancelDiscard_directory k)
      (s.router.cancelDiscard_aloof k) (cancelDiscard_accounted h.accounted hk)

theorem prepareCancel_spec (h : Sound s) (source : SessionRef)
    (sendId : Text) :
    StepSpec s (s.accept source System.cancelEffect (s.router.prepareCancel source sendId)) a := by
  have haccounted := prepareCancel_accounted h.accounted source sendId
  have htable := s.router.prepareCancel_rowTable source sendId
  have haloof := Aloof.same (congrArg Prod.fst htable) (prepareCancel_pace source sendId)
  rcases s.router.prepareCancel_cases source sendId with
    ⟨e, r', hr, hr'⟩ | ⟨i, k, hi, hk, hsource, hr⟩
  · rw [hr] at haccounted htable haloof ⊢
    refine .quiet h (.of_rowTable htable) ?_ haloof haccounted
    rcases hr' with rfl | rfl | rfl | ⟨rfl, -⟩ <;> rfl
  · rw [hr] at haccounted htable haloof ⊢
    have hstep : RowsStep none s.router _ := .of_rowTable htable
    refine ⟨⟨h.rows.rowsStep hstep, ?_, h.lanes.keep hstep (by simp) rfl rfl, haccounted⟩,
      ?_, fun _ => ⟨rfl, rfl⟩, fun _ => ⟨haloof, rfl, rfl⟩⟩
    · refine h.tickets.acceptCancel h.rows (Fin.eq_true_of_find?_eq_some hi) hk rfl htable ?_
      simp [System.accept, System.cancelEffect, setCancelRow]
    · refine .acceptCancel i k source sendId hi hk hsource rfl htable ?_ rfl rfl
      simp [System.accept, System.cancelEffect, setCancelRow]

/-! ## Every action -/

/-- **One step** keeps the invariant and what it does not write. -/
theorem step_spec [DecidableEq σ] (h : Sound s) (hs : s.step a = some s') : StepSpec s s' a := by
  have hacc := h.accounted
  have hformed := h.rows.formed
  cases a <;> simp only [System.step, Option.some.injEq] at hs
  case reserve =>
    subst hs
    exact .onDirectory h rfl s.router.reserve_work (reserve_accounted hacc)
  case activate ref session location =>
    subst hs
    exact .onDirectory h rfl (s.router.activate_work ref session location)
      (activate_accounted hacc ref session location)
  case attach session location =>
    subst hs
    exact .onDirectory h rfl (s.router.attach_work session location)
      (attach_accounted hacc session location)
  case abort ref =>
    subst hs
    exact .quiet h (s.router.abort_rowsStep ref) (s.router.abort_aside ref)
      (s.router.abort_aloof ref) (abort_accounted hacc ref)
  case detach target =>
    subst hs
    exact .onDirectory h rfl (s.router.detach_work target) (detach_accounted hacc target)
  case setParent child parent =>
    subst hs
    exact .onDirectory h rfl (s.router.setParent_work child parent)
      (setParent_accounted hacc child parent)
  case setExternalAccess ref enabled =>
    subst hs
    exact .onDirectory h rfl (s.router.setExternalAccess_work ref enabled)
      (setExternalAccess_accounted hacc ref enabled)
  case bindInvoke source invokeId target =>
    subst hs
    exact .onDirectory h rfl (s.router.bindInvoke_work source invokeId target)
      (bindInvoke_accounted hacc source invokeId target)
  case unbindInvoke source invokeId =>
    subst hs
    exact .onDirectory h rfl (s.router.unbindInvoke_work source invokeId)
      (unbindInvoke_accounted hacc source invokeId)
  case resolve source target =>
    subst hs
    exact .onDirectory h rfl (s.router.resolve_work source target)
      (resolve_accounted hacc source target)
  case prepareTarget source target name sendId content delayMs =>
    subst hs
    rcases prepareTarget_cases hformed source target name sendId content delayMs with
      ⟨e, r', hr, href⟩ | ⟨i, row, hfree, hrow, rfl, -, -, hr⟩
    · rw [hr]
      exact .refused h href
    · rw [hr]
      exact .acceptSend h hfree hrow
  case prepare target name text =>
    subst hs
    rcases prepare_cases hformed target name text with
      ⟨e, r', hr, href⟩ | ⟨i, row, hfree, hrow, hsource, -, hr⟩
    · rw [hr]
      exact .refused h href
    · rw [hr, ← hsource]
      exact .acceptSend h hfree hrow
  case enqueue now target name text =>
    subst hs
    have haccounted := enqueue_accounted hacc hformed now target name text
    rcases enqueue_cases hformed now target name text with
      href | ⟨i, row, hfree, hrow, hsource, hdelay, hr⟩
    · exact .refused h href
    · refine .beside h
        (.post i row (s.router.nextSequence + 1) hfree hrow ⟨hsource, hdelay⟩ ?_ ?_) ?_ ?_ ?_
        haccounted
      case refine_5 =>
        have hready : ({ row with
            state := .ready
            sequence := s.router.nextSequence + 1 } : Row).state =
              if row.delayMs ≠ 0 then .delayed else .ready := by simp [hdelay]
        simp only [hr]
        exact .of_update rfl (.committed (.inl (by rw [hfree]; rfl)) hready rfl rfl) rfl
          (Nat.le_succ _)
      all_goals simp only [hr, accepted, directory]
  case prepareCancel source sendId =>
    subst hs
    exact prepareCancel_spec h source sendId
  case commit now t =>
    split_ifs at hs with ht
    cases hs
    exact commit_spec h ht now
  case discard t =>
    split_ifs at hs with ht
    cases hs
    exact discard_spec h ht
  case cancel target =>
    subst hs
    exact .quiet h (s.router.cancel_rowsStep target) (s.router.cancel_aside target)
      (s.router.cancel_aloof target) (cancel_accounted hacc target)
  case cancelSource source =>
    subst hs
    exact .quiet h (s.router.cancelSource_rowsStep source) (s.router.cancelSource_aside source)
      (s.router.cancelSource_aloof source) (cancelSource_accounted hacc source)
  case close =>
    subst hs
    exact .beside h s.router.close_rowsStep s.router.close_cancelRows s.router.close_directory
      s.router.close_aloof (close_accounted hacc)
  case runDueBegin maxFires =>
    have hwork := s.router.runDueBegin_work maxFires
    have haside := runDueBegin_aside (r := s.router) maxFires
    have haccounted := runDueBegin_accounted hacc maxFires
    split at hs <;> rename_i hr <;> cases hs <;> rw [hr] at hwork haside haccounted
    · refine .timer h none (.of_work hwork) (by simp) haside (.of_work hwork) haccounted
        fun i c m hi => ?_
      rw [runDueBegin_lane hr] at hi
      cases hi
    · exact .quiet h (.of_work hwork) haside (.of_work hwork) haccounted
  case runDueClaim now =>
    split at hs <;> [skip; cases hs]
    cases hs
    exact .timer h none (s.router.runDueClaim_rowsStep now _ _) (by simp)
      (s.router.runDueClaim_aside now _ _) (s.router.runDueClaim_aloof now _ _)
      (runDueClaim_accounted hacc now _ _)
      fun i c m hi => s.router.runDueClaim_lane now _ _ hi
  case runDueSettle settled =>
    split at hs <;> [skip; cases hs]
    rename_i i count maxFires hlane
    cases hs
    have hstate := h.lanes.timer i count maxFires hlane
    exact .timer h (some i) (s.router.runDueSettle_rowsStep settled i count maxFires)
      (fun j hj => by cases hj; exact hstate)
      (s.router.runDueSettle_aside settled i count maxFires)
      (s.router.runDueSettle_aloof settled i count maxFires)
      (runDueSettle_accounted hacc hstate ((hformed i).delay (.inr hstate)) settled count maxFires)
      fun j c m hj => absurd hj (s.router.runDueSettle_lane settled i count maxFires)
  case runDueFinish =>
    split at hs <;> [skip; cases hs]
    cases hs
    exact .timer h none (.of_work rfl) (by simp) rfl (.same rfl rfl) { hacc with } (by simp)
  case drainBegin maxEvents =>
    have htable := drainBegin_rowTable (r := s.router) maxEvents
    have haside := drainBegin_aside (r := s.router) maxEvents
    have haccounted := drainBegin_accounted hacc maxEvents
    split at hs <;> rename_i hr <;> cases hs <;> rw [hr] at htable haside haccounted
    · refine .drain h rfl none (.of_rowTable htable) (by simp) haside haccounted
        (fun j event c m hj => ?_) (.inl rfl)
      rw [drainBegin_lane hr] at hj
      cases hj
    · refine .quiet h (.of_rowTable htable) haside ?_ haccounted
      unfold drainBegin at hr
      split_ifs at hr <;> cases hr <;> exact .same rfl rfl
  case drainClaim =>
    split at hs <;> [skip; cases hs]
    cases hs
    exact .drain h rfl none (s.router.drainClaim_rowsStep _ _ _) (by simp)
      (drainClaim_aside _ _ _) (drainClaim_accounted hacc _ _ _)
      (fun j event c m hj => s.router.drainClaim_lane _ _ _ hj) (.inl rfl)
  case drainSettle status =>
    split at hs <;> [skip; cases hs]
    rename_i j event count maxEvents hlane
    cases hs
    have hstate := h.lanes.drain j event count maxEvents hlane
    refine .drain h rfl (some j) (s.router.drainSettle_rowsStep status j count maxEvents)
      (fun i hi => by cases hi; exact hstate)
      (s.router.drainSettle_aside status j count maxEvents)
      (drainSettle_accounted hacc hstate status count maxEvents)
      (fun i event c m hi => absurd hi (s.router.drainSettle_lane status j count maxEvents)) ?_
    by_cases hok : status = .ok
    · subst hok
      exact .inr ⟨j, hstate, drainSettle_delivers h.accounted hstate count maxEvents, by simp⟩
    · exact .inl (by simp [hok])
  case drainFinish =>
    split at hs <;> [skip; cases hs]
    cases hs
    exact .drain h rfl none (.same rfl rfl) (by simp) rfl { hacc with } (by simp) (.inl rfl)

theorem reachable_sound [DecidableEq σ] (h : s.Reachable) : Sound s := by
  refine Machine.Reachable.invariant (fun s hs => ?_) (fun s a s' hs h => (step_spec hs h).sound) h
  rw [hs.2]
  exact init_sound

/-- **The accounting of the router.** In every run the counters are the tallies of the tables, no
failure is recorded, and every prepared row is pending or was settled once. -/
theorem reachable_accounted [DecidableEq σ] (h : s.Reachable) : Accounted s.router :=
  (reachable_sound h).accounted

end Step

def delayedSendRun : List (Action smallConfig Unit) :=
  [.attach () (some ['a']), .prepareTarget ⟨0, 1⟩ [] ['e'] ['x'] none 1,
    .commit 0 ⟨0, ⟨0, 1⟩, .send ⟨0, by decide⟩ 1⟩]

theorem delayedSendRun_isSome :
    (exec System.step (System.init smallConfig Unit) delayedSendRun).isSome = true := by
  decide

def delayedSendState : System smallConfig Unit :=
  (exec System.step (System.init smallConfig Unit) delayedSendRun).get delayedSendRun_isSome

theorem delayedSendState_reachable : delayedSendState.Reachable :=
  Reachable.runs (.of_init ⟨by decide, rfl⟩)
    (exec_runs (Option.some_get delayedSendRun_isSome).symm)

theorem delayedSendState_accounted :
    delayedSendState.router.timerPending = 1 ∧ Accounted delayedSendState.router :=
  ⟨by decide, reachable_accounted delayedSendState_reachable⟩

end TurboScxml.Router
