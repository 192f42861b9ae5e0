import TurboScxml.Router.Accounting
import TurboScxml.Router.Tickets

/-!
# The invariant of the router

* `Sound`: rows, tickets and lanes agree and the counters are the tallies of the tables;
* `Sound.quiet`, `Sound.acceptSend`, `Sound.timerStep`, `Sound.drainStep`: the ways a section of
  the router keeps it.
-/

namespace TurboScxml.Router

open Function Slots Machine

variable {cfg : Config} {σ : Type}

structure Sound (s : System cfg σ) : Prop where
  rows : RowsSound s.router
  tickets : TicketsSound s
  lanes : LanesSound s
  accounted : Accounted s.router

theorem init_sound : Sound (System.init cfg σ) where
  rows := ⟨fun _ => Row.formed_free, fun _ h => absurd rfl h, fun _ _ h => absurd rfl h⟩
  tickets :=
    { serial := by simp [System.init]
      ordered := .nil
      send := by simp [System.init]
      reserved := by simp [System.init, Router.init, Row.free]
      sendUnique := by simp [System.init]
      cancel := by simp [System.init]
      inUse := by simp [System.init, Router.init, CancelRow.free]
      cancelUnique := by simp [System.init]
      target := by simp [System.init, Router.init, CancelRow.free]
      order := by simp [System.init] }
  lanes := ⟨by simp [System.init], by simp [System.init]⟩
  accounted :=
    { pending := (tally_eq_zero fun _ => rfl).symm
      reserved := (tally_eq_zero fun _ => rfl).symm
      timerPending := (tally_eq_zero fun _ => rfl).symm
      cancelPending := (tally_eq_zero fun _ => rfl).symm
      endpointCount := (tally_eq_zero fun _ => rfl).symm
      invokeCount := (tally_eq_zero fun _ => rfl).symm
      invariantFailures := rfl
      prepared := rfl }

section Step

variable {s s' : System cfg σ} {r' : Router cfg σ}

theorem Sound.quiet (h : Sound s) (hstep : RowsStep none s.router s'.router)
    (hcancel : s'.router.cancelRows = s.router.cancelRows) (haccounted : Accounted s'.router)
    (htickets : s'.tickets = s.tickets) (hserial : s'.nextSerial = s.nextSerial)
    (htimer : s'.timer = s.timer) (hdrain : s'.drain = s.drain) : Sound s' where
  rows := h.rows.rowsStep hstep
  tickets := h.tickets.keep hstep (by simp) hcancel htickets hserial
  lanes := h.lanes.keep hstep (by simp) htimer hdrain
  accounted := haccounted

theorem Sound.idle (h : Sound s) (hwork : s'.router.work = s.router.work)
    (haccounted : Accounted s'.router) (htickets : s'.tickets = s.tickets)
    (hserial : s'.nextSerial = s.nextSerial) (htimer : s'.timer = s.timer)
    (hdrain : s'.drain = s.drain) : Sound s' :=
  h.quiet (.of_work hwork) (congrArg (·.2.2.1) hwork) haccounted htickets hserial htimer hdrain

variable {r : Router cfg σ}

theorem cancelRows_of_aside (h : r'.aside = r.aside) : r'.cancelRows = r.cancelRows :=
  congrArg (·.2.2.1) h

variable {i : Fin cfg.eventCapacity}

theorem Sound.acceptSend (h : Sound s) {row : Row}
    (hfree : s.router.rows i = .free) (hrow : Reserves s.router row) :
    Sound (s.accept row.source System.sendEffect (s.router.accepted i row, .ok i)) := by
  have hself : (s.router.accepted i row).rows i = row := update_self ..
  refine ⟨h.rows.accepted hrow, h.tickets.acceptSend hfree hrow rfl ?_,
    h.lanes.accepted hfree rfl rfl rfl, h.accounted.accepted hfree hrow.state⟩
  simp only [System.accept, System.sendEffect, hself]

variable {k : Fin cfg.cancelCapacity}

theorem cancelReleaseLocked_cancelRows (h : Accounted r) (hk : (r.cancelRows k).inUse = true) :
    (r.cancelReleaseLocked k).cancelRows = update r.cancelRows k .free := by
  have hpos : 0 < r.cancelPending := by
    rw [h.cancelPending]
    exact tally_pos (i := k) hk
  unfold cancelReleaseLocked
  rw [if_neg (by simp [hk, hpos.ne'])]
  rfl

theorem cancelCommit_cancelRows (h : Accounted r) (hk : (r.cancelRows k).inUse = true) :
    (r.cancelCommit k).cancelRows = update r.cancelRows k .free := by
  have haside := cancelRows_of_aside (r.cancelRow_aside (r.cancelRows k))
  unfold cancelCommit
  dsimp only
  rw [if_neg (by simp [hk])]
  rw [cancelReleaseLocked_cancelRows (r := { r.cancelRow (r.cancelRows k) with
    cancelCommitted := (r.cancelRow (r.cancelRows k)).cancelCommitted + 1 })
    { cancelRow_accounted h (r.cancelRows k) with } (by simp [haside, hk])]
  simp only [haside]

theorem cancelDiscard_cancelRows (h : Accounted r) (hk : (r.cancelRows k).inUse = true) :
    (r.cancelDiscard k).cancelRows = update r.cancelRows k .free := by
  unfold cancelDiscard
  rw [if_neg (by simp [hk])]
  exact cancelReleaseLocked_cancelRows (r := { r with cancelDiscarded := r.cancelDiscarded + 1 })
    { h with } hk

/-! ## The lanes -/

theorem Sound.timerStep (h : Sound s) (own : Option (Fin cfg.eventCapacity)) {lane : TimerLane cfg}
    (hstep : RowsStep own s.router r')
    (hown : ∀ i, own = some i → (s.router.rows i).state = .firing)
    (haside : r'.cancelRows = s.router.cancelRows) (haccounted : Accounted r')
    (hlane : ∀ i count maxFires, lane = .reporting i count maxFires →
      (r'.rows i).state = .firing) : Sound { s with router := r', timer := lane } where
  rows := h.rows.rowsStep hstep
  tickets := h.tickets.keep hstep (fun i hi => by simp [hown i hi]) haside rfl rfl
  lanes := by
    refine ⟨hlane, fun j event count maxEvents hj => ?_⟩
    have hstate := h.lanes.drain j event count maxEvents hj
    rw [← hstate]
    refine (hstep.held (by simp [Row.held, hstate]) fun heq => ?_).1
    rw [hown j heq] at hstate
    cases hstate
  accounted := haccounted

variable {lane : DrainLane cfg σ}

theorem Sound.drainStep (h : Sound s) (own : Option (Fin cfg.eventCapacity))
    {delivered : List ℕ} (hstep : RowsStep own s.router r')
    (hown : ∀ i, own = some i → (s.router.rows i).state = .inflight)
    (haside : r'.cancelRows = s.router.cancelRows) (haccounted : Accounted r')
    (hlane : ∀ j event count maxEvents, lane = .delivering j event count maxEvents →
      (r'.rows j).state = .inflight) :
    Sound { s with router := r', drain := lane, deliveredIdentities := delivered } where
  rows := h.rows.rowsStep hstep
  tickets := h.tickets.keep hstep (fun i hi => by simp [hown i hi]) haside rfl rfl
  lanes := by
    refine ⟨fun i count maxFires hi => ?_, hlane⟩
    have hstate := h.lanes.timer i count maxFires hi
    rw [← hstate]
    refine (hstep.held (by simp [Row.held, hstate]) fun heq => ?_).1
    rw [hown i heq] at hstate
    cases hstate
  accounted := haccounted

theorem runDueBegin_lane {maxFires : ℕ} {lane : TimerLane cfg}
    (h : r.runDueBegin maxFires = (r', .ok lane)) : lane = .scanning 0 maxFires := by
  unfold runDueBegin at h
  split_ifs at h <;> cases h
  rfl

theorem drainBegin_lane {maxEvents : ℕ}
    (h : r.drainBegin maxEvents = (r', .ok lane)) : lane = .scanning 0 maxEvents .empty := by
  unfold drainBegin at h
  split_ifs at h <;> cases h
  rfl

variable {c m : ℕ} (r)

theorem runDueClaim_lane (now count maxFires : ℕ)
    (h : (r.runDueClaim now count maxFires).2 = .reporting i c m) :
    ((r.runDueClaim now count maxFires).1.rows i).state = .firing := by
  unfold runDueClaim at h ⊢
  split at h <;> rename_i h1
  · cases h
  split at h <;> rename_i h2
  · cases h
  rw [if_neg h1, if_neg h2]
  split at h
  · cases h
  · cases h
    simp [setRow]

variable {j : Fin cfg.eventCapacity}

theorem runDueSettle_lane (settled : Bool) (i : Fin cfg.eventCapacity) (count maxFires : ℕ) :
    (r.runDueSettle settled i count maxFires).2 ≠ .reporting j c m := by
  unfold runDueSettle
  dsimp only
  split_ifs <;> simp

theorem drainClaim_lane (count maxEvents : ℕ) (result : MailboxStatus)
    {event : Delivery σ} (h : (r.drainClaim count maxEvents result).2 = .delivering j event c m) :
    ((r.drainClaim count maxEvents result).1.rows j).state = .inflight := by
  rcases r.drainClaim_cases count maxEvents result with ⟨-, result', h'⟩ | ⟨k, event', -, h'⟩
  · rw [h'] at h
    cases h
  · rw [h'] at h ⊢
    cases h
    simp [setRow]

theorem drainSettle_lane (status : MailboxStatus) (i : Fin cfg.eventCapacity)
    (count maxEvents : ℕ) {event : Delivery σ} :
    (r.drainSettle status i count maxEvents).2 ≠ .delivering j event c m := by
  unfold drainSettle
  dsimp only
  split_ifs <;> simp

end Step

end TurboScxml.Router
