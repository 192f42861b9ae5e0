import TurboScxml.Router.Rows

/-!
# The counters of the Host router

The counters of `scxml_host_router_impl` against the tables they count.

* `Accounted`: every counter is the tally of its table, no invariant failure was recorded, and
  every prepared row is pending, delivered, cancelled or discarded;
* each section of the router keeps `Accounted`, given that its ticket or lane holds the row it
  claims to hold.
-/

namespace TurboScxml.Router

open Function Slots

variable {cfg : Config} {σ : Type}

/-! ## The row counters -/

def Row.used (row : Row) : Bool := row.state != .free

def Row.ticketed (row : Row) : Bool := row.state == .reserved

variable {row : Row}

@[simp] theorem Row.used_free : Row.free.used = false := rfl

@[simp] theorem Row.ticketed_free : Row.free.ticketed = false := rfl

@[simp] theorem Row.timed_free : Row.free.timed = false := rfl

theorem Row.used_eq_true (h : row.state ≠ .free) : row.used = true := by
  simpa [Row.used] using h

theorem Row.ticketed_eq_true (h : row.state = .reserved) : row.ticketed = true := by
  simp [Row.ticketed, h]

theorem Row.timed_eq (h : row.state = .reserved ∨ row.state = .delayed ∨
    row.state = .firing) : row.timed = (row.delayMs != 0) := by
  rcases h with h | h | h <;> simp [Row.timed, h]

theorem Row.timed_eq_false (h : row.state = .ready ∨ row.state = .inflight) :
    row.timed = false := by
  rcases h with h | h <;> simp [Row.timed, h]

theorem Row.ticketed_eq_false (h : row.state ≠ .reserved) : row.ticketed = false := by
  simpa [Row.ticketed] using h

/-- The counters are the numbers of the rows in use, reserved and timed. -/
structure RowsCounted {n : ℕ} (rows : Fin n → Row) (pending reserved timerPending : ℕ) :
    Prop where
  pending : pending = tally Row.used rows
  reserved : reserved = tally Row.ticketed rows
  timerPending : timerPending = tally Row.timed rows

/-- **The accounting of the router.** -/
structure Accounted (r : Router cfg σ) : Prop
    extends RowsCounted r.rows r.pending r.reserved r.timerPending where
  cancelPending : r.cancelPending = tally CancelRow.inUse r.cancelRows
  endpointCount : r.endpointCount = tally Endpoint.live r.endpoints
  invokeCount : r.invokeCount = tally InvokeRoute.live r.invokeRoutes
  invariantFailures : r.invariantFailures = 0
  prepared : r.prepared = r.pending + r.delivered + r.cancelled + r.discarded

section RowsCounted

variable {n : ℕ} {rows : Fin n → Row} {p q t : ℕ} (h : RowsCounted rows p q t)
include h

/-- A row that is written moves the counters by what it was and is. -/
theorem RowsCounted.write (i : Fin n) (row : Row) {p' q' t' : ℕ}
    (hp : p' + (rows i).used.toNat = p + row.used.toNat)
    (hq : q' + (rows i).ticketed.toNat = q + row.ticketed.toNat)
    (ht : t' + (rows i).timed.toNat = t + row.timed.toNat) :
    RowsCounted (update rows i row) p' q' t' := by
  have hpending := tally_update Row.used rows i row
  have hreserved := tally_update Row.ticketed rows i row
  have htimer := tally_update Row.timed rows i row
  have := h.pending
  have := h.reserved
  have := h.timerPending
  exact ⟨by omega, by omega, by omega⟩

theorem RowsCounted.rewrite (i : Fin n) (row : Row)
    (hp : row.used = (rows i).used) (hq : row.ticketed = (rows i).ticketed)
    (ht : row.timed = (rows i).timed) : RowsCounted (update rows i row) p q t :=
  h.write i row (by rw [hp]) (by rw [hq]) (by rw [ht])

variable {i : Fin n}

theorem RowsCounted.pending_pos (hi : (rows i).state ≠ .free) : 0 < p := by
  rw [h.pending]
  exact tally_pos (i := i) (Row.used_eq_true hi)

theorem RowsCounted.reserved_pos (hi : (rows i).state = .reserved) : 0 < q := by
  rw [h.reserved]
  exact tally_pos (i := i) (by simp [Row.ticketed, hi])

theorem RowsCounted.timerPending_pos (hi : (rows i).timed = true) : 0 < t := by
  rw [h.timerPending]
  exact tally_pos (i := i) hi

omit h

end RowsCounted

/-! ## Releasing a row -/

def freed (r : Router cfg σ) (i : Fin cfg.eventCapacity) : Router cfg σ :=
  { r with
    rows := update r.rows i .free
    pending := r.pending - 1
    reserved := r.reserved - (r.rows i).ticketed.toNat
    timerPending := r.timerPending - (r.rows i).timed.toNat }

variable {r : Router cfg σ} {i : Fin cfg.eventCapacity}

/-- `release_locked` frees a row in use and counts it out. -/
theorem releaseLocked_eq (h : RowsCounted r.rows r.pending r.reserved r.timerPending)
    (hi : (r.rows i).state ≠ .free) : r.releaseLocked i = r.freed i := by
  have hp : r.pending ≠ 0 := (h.pending_pos hi).ne'
  rw [releaseLocked, if_neg (by tauto)]
  by_cases hq : (r.rows i).state = .reserved
  · have hq0 : r.reserved ≠ 0 := (h.reserved_pos hq).ne'
    by_cases ht : (r.rows i).timed = true
    · have ht0 : r.timerPending ≠ 0 := (h.timerPending_pos ht).ne'
      simp [dropReserved, dropTimer, hq, ht, hq0, ht0, freed, setRow, Row.ticketed]
    · simp [dropReserved, hq, ht, hq0, freed, setRow, Row.ticketed]
  · have hqf := Row.ticketed_eq_false hq
    by_cases ht : (r.rows i).timed = true
    · have ht0 : r.timerPending ≠ 0 := (h.timerPending_pos ht).ne'
      simp [dropTimer, hq, ht, ht0, freed, setRow, hqf]
    · simp [hq, ht, freed, setRow, hqf]

theorem RowsCounted.freed (h : RowsCounted r.rows r.pending r.reserved r.timerPending)
    (hi : (r.rows i).state ≠ .free) :
    RowsCounted (r.freed i).rows (r.freed i).pending (r.freed i).reserved
      (r.freed i).timerPending := by
  have hp := h.pending_pos hi
  have hq : (r.rows i).ticketed.toNat ≤ r.reserved := by
    cases hb : (r.rows i).ticketed
    · exact Nat.zero_le _
    · exact h.reserved_pos (by simpa [Row.ticketed] using hb)
  have ht : (r.rows i).timed.toNat ≤ r.timerPending := by
    cases hb : (r.rows i).timed
    · exact Nat.zero_le _
    · exact h.timerPending_pos hb
  refine h.write i .free ?_ ?_ ?_
  · rw [Row.used_eq_true hi, Row.used_free, Bool.toNat_true, Bool.toNat_false]
    exact Nat.sub_add_cancel hp
  · rw [Row.ticketed_free, Bool.toNat_false]
    exact Nat.sub_add_cancel hq
  · rw [Row.timed_free, Bool.toNat_false]
    exact Nat.sub_add_cancel ht

variable (h : Accounted r)
include h

/-- A row that is freed is counted as delivered, cancelled or discarded. -/
theorem Accounted.freed (hi : (r.rows i).state ≠ .free) {d c x : ℕ}
    (hsum : d + c + x = r.delivered + r.cancelled + r.discarded + 1) :
    Accounted { r.freed i with delivered := d, cancelled := c, discarded := x } :=
  { h with
    toRowsCounted := h.toRowsCounted.freed hi
    prepared := by
      have := h.toRowsCounted.pending_pos hi
      have := h.prepared
      simp only [Router.freed]
      omega }

/-- A row in use that is written anew keeps the accounting. -/
theorem Accounted.rewrite (i : Fin cfg.eventCapacity) (row : Row)
    (hp : row.used = (r.rows i).used) (hq : row.ticketed = (r.rows i).ticketed)
    (ht : row.timed = (r.rows i).timed) : Accounted (r.setRow i row) :=
  { h with toRowsCounted := h.toRowsCounted.rewrite i row hp hq ht }

theorem Accounted.cancelled (hi : (r.rows i).state ≠ .free) :
    Accounted (releaseLocked { r with cancelled := r.cancelled + 1 } i) := by
  rw [releaseLocked_eq (r := { r with cancelled := r.cancelled + 1 }) h.toRowsCounted hi]
  exact h.freed (c := r.cancelled + 1) (d := r.delivered) (x := r.discarded) hi (by omega)

theorem Accounted.discarded (hi : (r.rows i).state ≠ .free) :
    Accounted (releaseLocked { r with discarded := r.discarded + 1 } i) := by
  rw [releaseLocked_eq (r := { r with discarded := r.discarded + 1 }) h.toRowsCounted hi]
  exact h.freed (c := r.cancelled) (d := r.delivered) (x := r.discarded + 1) hi (by omega)

theorem Accounted.delivered (hi : (r.rows i).state ≠ .free) :
    Accounted { r.releaseLocked i with delivered := (r.releaseLocked i).delivered + 1 } := by
  rw [releaseLocked_eq h.toRowsCounted hi]
  exact h.freed (c := r.cancelled) (d := r.delivered + 1) (x := r.discarded) hi (by omega)

/-! ## Endpoints and aliases -/

omit h

variable {j : Fin cfg.endpointCapacity}

theorem vacant_live (h : r.vacant = some j) : (r.endpoints j).live = false := by
  have := Fin.eq_true_of_find?_eq_some h
  simp only [Bool.and_eq_true, Bool.not_eq_true'] at this
  exact this.1

theorem locate_some {ref : SessionRef} (h : r.locate ref = some j) :
    ref.slot = j ∧ ref.generation ≠ 0 ∧ (r.endpoints j).live = true ∧
      (r.endpoints j).generation = ref.generation := by
  unfold locate at h
  split_ifs at h with hslot hlive
  obtain rfl := Option.some.inj h
  exact ⟨rfl, hlive⟩

variable {count : ℕ} (h : Accounted r)
include h

theorem Accounted.writeEndpoint (j : Fin cfg.endpointCapacity) (p : Endpoint σ)
    (hcount : count + (r.endpoints j).live.toNat = r.endpointCount + p.live.toNat) :
    Accounted { r.setEndpoint j p with endpointCount := count } :=
  { h with
    endpointCount := by
      have := tally_update Endpoint.live r.endpoints j p
      have := h.endpointCount
      simp only [setEndpoint]
      omega }

theorem Accounted.writeRoute (j : Fin cfg.invokeCapacity) (route : InvokeRoute)
    (hcount : count + (r.invokeRoutes j).live.toNat = r.invokeCount + route.live.toNat) :
    Accounted { r.setRoute j route with invokeCount := count } :=
  { h with
    invokeCount := by
      have := tally_update InvokeRoute.live r.invokeRoutes j route
      have := h.invokeCount
      simp only [setRoute]
      omega }

theorem Accounted.writeCancelRow (k : Fin cfg.cancelCapacity) (intent : CancelRow cfg.eventCapacity)
    (hcount : count + (r.cancelRows k).inUse.toNat = r.cancelPending + intent.inUse.toNat) :
    Accounted { r.setCancelRow k intent with cancelPending := count } :=
  { h with
    cancelPending := by
      have := tally_update CancelRow.inUse r.cancelRows k intent
      have := h.cancelPending
      simp only [setCancelRow]
      omega }

theorem Accounted.stale : Accounted r.stale := { h with }

theorem Accounted.full : Accounted r.full := { h with }

theorem reserve_accounted : Accounted r.reserve.1 := by
  unfold reserve
  split
  · exact h
  split
  · exact h
  · rename_i j hj
    exact h.writeEndpoint j _ (by simp [vacant_live hj, setEndpoint])

omit h

section Sessions

variable [DecidableEq σ]

theorem activate_accounted (h : Accounted r) (ref : SessionRef) (session : σ)
    (location : Option Text) : Accounted (r.activate ref session location).1 := by
  unfold activate
  split
  · exact h
  split
  · exact h
  split
  · exact h.stale
  dsimp only
  split_ifs
  · exact h
  · exact h
  · exact h.writeEndpoint _ _ rfl

theorem attach_accounted (h : Accounted r) (session : σ) (location : Option Text) :
    Accounted (r.attach session location).1 := by
  unfold attach
  split
  · exact h
  split
  · exact h
  split
  · exact h
  split
  · exact h
  · rename_i j hj
    exact h.writeEndpoint j _ (by simp [vacant_live hj, setEndpoint])

end Sessions

theorem detach_accounted (h : Accounted r) (target : SessionRef) :
    Accounted (r.detach target).1 := by
  unfold detach
  split
  · exact h.stale
  rename_i j hj
  split_ifs
  iterate 4 exact h
  have hlive := (locate_some hj).2.2.1
  have hpos : 0 < r.endpointCount := by
    rw [h.endpointCount]
    exact tally_pos (i := j) hlive
  refine h.writeEndpoint j _ ?_
  simp only [hlive, Endpoint.retired, setEndpoint, Bool.toNat_true, Bool.toNat_false]
  omega

theorem setParent_accounted (h : Accounted r) (child parent : SessionRef) :
    Accounted (r.setParent child parent).1 := by
  unfold setParent
  split
  · exact h
  split
  · exact h
  split
  · exact h.stale
  rename_i j hj
  have hlinked : Accounted (r.setEndpoint j { r.endpoints j with parent }) :=
    h.writeEndpoint j _ rfl
  split
  · exact hlinked
  split
  · exact h.stale
  split
  · exact hlinked
  · exact h
  · exact h.stale
  · exact h

theorem setExternalAccess_accounted (h : Accounted r) (ref : SessionRef) (enabled : Bool) :
    Accounted (r.setExternalAccess ref enabled).1 := by
  unfold setExternalAccess
  split
  · exact h
  split
  · exact h.stale
  · exact h.writeEndpoint _ _ rfl

theorem route_some {owner : SessionRef} {id : Text} {j : Fin cfg.invokeCapacity}
    (h : r.route owner id = some j) : (r.invokeRoutes j).live = true ∧
      refsEqual (r.invokeRoutes j).owner owner = true ∧ (r.invokeRoutes j).id = id := by
  have := Fin.eq_true_of_find?_eq_some h
  simpa [and_assoc] using this

theorem bindInvoke_accounted (h : Accounted r) (source : SessionRef) (invokeId : Text)
    (target : SessionRef) : Accounted (r.bindInvoke source invokeId target).1 := by
  unfold bindInvoke
  split
  · exact h
  split
  · exact h
  split
  · exact h.stale
  split
  · exact h
  split
  · exact h
  · rename_i j hj
    have hfree : (r.invokeRoutes j).live = false := by
      simpa using Fin.eq_true_of_find?_eq_some hj
    exact h.writeRoute j _ (by simp [hfree, setRoute])

theorem unbindInvoke_accounted (h : Accounted r) (source : SessionRef) (invokeId : Text) :
    Accounted (r.unbindInvoke source invokeId).1 := by
  unfold unbindInvoke
  split
  · exact h
  split
  · exact h.stale
  split
  · exact h
  · rename_i j hj
    have hlive := (route_some hj).1
    have hpos : 0 < r.invokeCount := by
      rw [h.invokeCount]
      exact tally_pos (i := j) hlive
    refine h.writeRoute j _ ?_
    simp only [hlive, InvokeRoute.free, setRoute, Bool.toNat_true, Bool.toNat_false]
    omega

theorem resolve_accounted (h : Accounted r) (source : SessionRef) (target : Text) :
    Accounted (r.resolve source target).1 := by
  unfold resolve
  split
  · exact h
  split
  · exact h
  · split_ifs
    · exact h.stale
    · exact h

/-! ## Sends -/

/-- A refused call moves no counter of the rows. -/
theorem Refused.accounted {r' : Router cfg σ} (hr : Refused r r') (h : Accounted r) :
    Accounted r' := by
  cases hr with
  | same => exact h
  | stale => exact h.stale
  | full => exact h.full
  | violated hnone hcap =>
    have hle := tally_le Row.used r.rows
    have hlt : tally Row.used r.rows < cfg.eventCapacity := by
      have := h.pending
      omega
    obtain ⟨i, hi⟩ := exists_of_tally_lt hlt
    rw [Row.used_eq_true (hnone i)] at hi
    cases hi

/-- A free row that is filled is counted as accepted. -/
theorem Accounted.accepted (h : Accounted r) (hfree : r.rows i = .free)
    (hstate : row.state = .reserved) : Accounted (r.accepted i row) :=
  { h with
    toRowsCounted := by
      refine h.toRowsCounted.write i row ?_ ?_ ?_
      · rw [hfree, Row.used_free, Row.used_eq_true (by simp [hstate])]
        rfl
      · rw [hfree, Row.ticketed_free, Row.ticketed_eq_true hstate]
        rfl
      · rw [hfree, Row.timed_free, Row.timed_eq (.inl hstate)]
        cases hdelay : row.delayMs <;> simp [hdelay, Router.accepted]
    prepared := by
      have := h.prepared
      simp only [Router.accepted]
      omega }

/-- **An enqueue** is refused or takes a free row. -/
theorem enqueue_accounted (h : Accounted r) (hformed : ∀ i, (r.rows i).Formed) (now : ℕ)
    (target : SessionRef) (name : Text) (text : Option Text) :
    Accounted (r.enqueue now target name text).1 := by
  rcases enqueue_cases hformed now target name text with
    href | ⟨i, row, hfree, hrow, hsource, hdelay, hr⟩
  · exact href.accounted h
  · rw [hr]
    exact { h with
      toRowsCounted := by
        refine h.toRowsCounted.write i _ ?_ ?_ ?_
        · rw [hfree, Row.used_free, Row.used_eq_true (by simp)]
          rfl
        · rw [hfree, Row.ticketed_free, Row.ticketed_eq_false (by simp)]
        · rw [hfree, Row.timed_free, Row.timed_eq_false (.inl rfl)]
          simp [Router.accepted, hdelay]
      prepared := by
        have := h.prepared
        simp only [Router.accepted]
        omega }

variable (r)

theorem committedRow_state (now : ℕ) (row : Row) :
    (r.committedRow now row).state = if row.delayMs ≠ 0 then .delayed else .ready := by
  simp only [committedRow]
  split_ifs <;> rfl

theorem committedRow_used (now : ℕ) (row : Row) : (r.committedRow now row).state ≠ .free := by
  rw [committedRow_state]
  split_ifs <;> simp

theorem committedRow_settled (now : ℕ) (row : Row) :
    (r.committedRow now row).state ≠ .reserved := by
  rw [committedRow_state]
  split_ifs <;> simp

theorem committedRow_timed (now : ℕ) (row : Row) :
    (r.committedRow now row).timed = (row.delayMs != 0) := by
  simp only [committedRow]
  split_ifs with hdelay
  · exact Row.timed_eq (.inr (.inl rfl))
  · rw [Row.timed_eq_false (.inl rfl)]
    simpa using hdelay

variable {r}

variable (h : Accounted r)
include h

/-- **A commit** makes a reserved row ready or delayed. -/
theorem ticketCommit_accounted (hi : (r.rows i).state = .reserved) (now : ℕ) :
    Accounted (r.ticketCommit now i) := by
  simp only [ticketCommit, commitLocked]
  rw [if_neg (by simp [hi])]
  split_ifs
  · exact h.cancelled (by simp [hi])
  · have hpos := h.toRowsCounted.reserved_pos hi
    exact { h with
      toRowsCounted := by
        refine h.toRowsCounted.write i _ ?_ ?_ ?_
        · rw [Row.used_eq_true (by simp [hi]), Row.used_eq_true (committedRow_used r now _)]
          rfl
        · rw [Row.ticketed_eq_true hi, Row.ticketed_eq_false (committedRow_settled r now _)]
          exact Nat.sub_add_cancel hpos
        · rw [Row.timed_eq (.inl hi), committedRow_timed]
          rfl }

theorem ticketCommit_settles (hi : (r.rows i).state = .reserved) (now : ℕ) :
    ((r.ticketCommit now i).rows i).state ≠ .reserved := by
  simp only [ticketCommit, commitLocked]
  rw [if_neg (by simp [hi])]
  split_ifs
  · rw [releaseLocked_eq (r := { r with cancelled := r.cancelled + 1 }) h.toRowsCounted
      (by simp [hi])]
    simp [Router.freed, Row.free]
  · simpa [setRow] using committedRow_settled r now (r.rows i)

theorem ticketDiscard_settles (hi : (r.rows i).state = .reserved) :
    ((r.ticketDiscard i).rows i).state ≠ .reserved := by
  unfold ticketDiscard
  rw [if_neg (by simp [hi]), releaseLocked_eq (r := { r with discarded := r.discarded + 1 })
    h.toRowsCounted (by simp [hi])]
  simp [Router.freed, Row.free]

/-- **A discard** frees a reserved row. -/
theorem ticketDiscard_accounted (hi : (r.rows i).state = .reserved) :
    Accounted (r.ticketDiscard i) := by
  unfold ticketDiscard
  rw [if_neg (by simp [hi])]
  exact h.discarded (by simp [hi])

/-! ## Cancels -/

theorem dropRow_accounted (hi : (r.rows i).state ≠ .free) : Accounted (r.dropRow i) := by
  simp only [dropRow]
  split_ifs
  · rw [releaseLocked_eq (r := { r with timerCancelled := r.timerCancelled + 1 }) h.toRowsCounted
      hi]
    exact { h.freed (c := r.cancelled + 1) (d := r.delivered) (x := r.discarded) hi (by omega) with }
  · rw [releaseLocked_eq h.toRowsCounted hi]
    exact h.freed (c := r.cancelled + 1) (d := r.delivered) (x := r.discarded) hi (by omega)

omit h

/-- Any rows in use may be dropped. -/
theorem dropRows_accounted {p : Row → Bool} (hp : ∀ row, p row = true → row.state ≠ .free)
    (h : Accounted r) : Accounted (r.dropRows p).1 := by
  refine sweep_induction (fun _ (s : Router cfg σ × ℕ) => Accounted s.1) h fun i s ih => ?_
  split
  · rename_i hi
    exact dropRow_accounted ih (hp _ hi)
  · exact ih

variable (h : Accounted r)
include h

theorem abort_accounted (ref : SessionRef) : Accounted (r.abort ref).1 := by
  unfold abort
  split
  · exact h.stale
  · split_ifs
    · exact h
    · exact h
    · refine dropRows_accounted (fun row hrow hfree => ?_) h
      simp [Row.droppable, hfree] at hrow

theorem cancel_accounted (target : SessionRef) : Accounted (r.cancel target).1 := by
  unfold cancel
  split
  · exact h.stale
  · refine dropRows_accounted (fun row hrow hfree => ?_) h
    simp [hfree] at hrow

theorem cancelSource_accounted (source : SessionRef) : Accounted (r.cancelSource source).1 := by
  unfold cancelSource
  split
  · exact h.stale
  · refine dropRows_accounted (fun row hrow hfree => ?_) h
    simp [hfree] at hrow

theorem close_accounted : Accounted r.close.1 := by
  unfold close
  split_ifs
  · exact h
  · refine dropRows_accounted (r := { r with closed := true }) (fun row hrow hfree => ?_) { h with }
    simp [hfree] at hrow

theorem prepareCancel_accounted (source : SessionRef) (sendId : Text) :
    Accounted (r.prepareCancel source sendId).1 := by
  rcases r.prepareCancel_cases source sendId with
    ⟨e, r', hr, hr'⟩ | ⟨i, k, -, hk, -, hr⟩
  · rw [hr]
    rcases hr' with rfl | rfl | rfl | ⟨-, hlt, hall⟩
    · exact h
    · exact h.stale
    · exact h.full
    · rw [h.cancelPending] at hlt
      obtain ⟨k, hk⟩ := exists_of_tally_lt hlt
      simp [hall k] at hk
  · rw [hr]
    have htaken : Accounted { r.setCancelRow k ⟨some i, source, (r.rows i).identity, true⟩ with
        cancelPending := r.cancelPending + 1 } :=
      h.writeCancelRow k _ (by simp [hk])
    exact { htaken with }

variable {k : Fin cfg.cancelCapacity}

theorem cancelReleaseLocked_accounted (hk : (r.cancelRows k).inUse = true) :
    Accounted (r.cancelReleaseLocked k) := by
  have hpos : 0 < r.cancelPending := by
    rw [h.cancelPending]
    exact tally_pos (i := k) hk
  unfold cancelReleaseLocked
  rw [if_neg (by simp [hk, hpos.ne'])]
  refine h.writeCancelRow k .free ?_
  simp only [hk, CancelRow.free, Bool.toNat_true, Bool.toNat_false]
  omega

theorem cancelDiscard_accounted (hk : (r.cancelRows k).inUse = true) :
    Accounted (r.cancelDiscard k) := by
  unfold cancelDiscard
  rw [if_neg (by simp [hk])]
  exact cancelReleaseLocked_accounted (r := { r with cancelDiscarded := r.cancelDiscarded + 1 })
    { h with } hk

theorem cancelRow_accounted (intent : CancelRow cfg.eventCapacity) :
    Accounted (r.cancelRow intent) := by
  unfold cancelRow
  split
  · exact { h with }
  rename_i i hi
  split_ifs with hdrop hfiring
  · exact Accounted.cancelled (r := { r with timerCancelled := r.timerCancelled + 1 }) { h with }
      (by rcases hdrop.2 with hs | hs <;> simp [hs])
  · exact { h.rewrite i { r.rows i with fireWonCancel := true } rfl rfl rfl with }
  · exact { h with }

/-- **A cancel** that is committed drops the row of its intent. -/
theorem cancelCommit_accounted (hk : (r.cancelRows k).inUse = true) :
    Accounted (r.cancelCommit k) := by
  unfold cancelCommit
  rw [if_neg (by simp [hk])]
  have hrow := cancelRow_accounted h (r.cancelRows k)
  have haside := congrArg (fun x => x.2.2.1) (r.cancelRow_aside (r.cancelRows k))
  refine cancelReleaseLocked_accounted (r := { r.cancelRow (r.cancelRows k) with
    cancelCommitted := (r.cancelRow (r.cancelRows k)).cancelCommitted + 1 }) { hrow with } ?_
  change (r.cancelRow (r.cancelRows k)).cancelRows = r.cancelRows at haside
  simp [haside, hk]

/-! ## The lanes -/

theorem runDueBegin_accounted (maxFires : ℕ) : Accounted (r.runDueBegin maxFires).1 := by
  unfold runDueBegin
  split_ifs <;> exact { h with }

theorem runDueClaim_accounted (now count maxFires : ℕ) :
    Accounted (r.runDueClaim now count maxFires).1 := by
  unfold runDueClaim
  split_ifs
  · exact h
  · exact h
  · split
    · exact h
    · rename_i i hi
      have hstate : (r.rows i).state = .delayed := by
        have := bestSlot_eligible hi
        simp only [Bool.and_eq_true, beq_iff_eq] at this
        exact this.1.1
      exact h.rewrite i _ (by simp only [Row.used, hstate]; rfl) (by simp [Row.ticketed, hstate])
        (by rw [Row.timed_eq (.inr (.inr rfl)), Row.timed_eq (.inr (.inl hstate))])

/-- **A row that fires** is settled. -/
theorem runDueSettle_accounted (hi : (r.rows i).state = .firing)
    (hdelay : (r.rows i).delayMs ≠ 0) (settled : Bool) (count maxFires : ℕ) :
    Accounted (r.runDueSettle settled i count maxFires).1 := by
  have htimed : (r.rows i).timed = true := by
    rw [Row.timed_eq (.inr (.inr hi))]
    simpa using hdelay
  have hpos := h.toRowsCounted.timerPending_pos htimed
  unfold runDueSettle
  dsimp only
  rw [if_neg (by simp [hi])]
  split_ifs with hdrop hmissing hzero
  · exact Accounted.cancelled (r := { r with
      timerDoneFailed := r.timerDoneFailed + 1, timerCancelled := r.timerCancelled + 1 })
      { h with } (by simp [hi])
  · exact Accounted.cancelled (r := { r with timerCancelled := r.timerCancelled + 1 })
      { h with } (by simp [hi])
  · omega
  · exact { h with
      toRowsCounted := by
        refine h.toRowsCounted.write i _ ?_ ?_ ?_
        · rw [Row.used_eq_true (by simp [hi]), Row.used_eq_true (by simp)]
          rfl
        · rw [Row.ticketed_eq_false (by simp [hi]), Row.ticketed_eq_false (by simp)]
          rfl
        · rw [htimed, Row.timed_eq_false (.inl rfl)]
          exact Nat.sub_add_cancel hpos }

theorem drainBegin_accounted (maxEvents : ℕ) : Accounted (r.drainBegin maxEvents).1 := by
  unfold drainBegin
  split_ifs <;> exact { h with }

theorem drainClaim_accounted (count maxEvents : ℕ) (result : MailboxStatus) :
    Accounted (r.drainClaim count maxEvents result).1 := by
  have hclaim : ∀ j, (r.rows j).state = .ready →
      Accounted (r.setRow j { r.rows j with state := .inflight }) := fun j hj =>
    h.rewrite j _ (by simp only [Row.used, hj]; rfl) (by simp [Row.ticketed, hj])
      (by rw [Row.timed_eq_false (.inr rfl), Row.timed_eq_false (.inl hj)])
  rcases r.drainClaim_cases count maxEvents result with
    ⟨⟨_, _, heq⟩, -⟩ | ⟨j, event, hj, heq⟩
  · rw [heq]
    exact { h with }
  · rw [heq]
    exact hclaim j (oldestReady_ready hj)

/-- **A row in flight** is settled. -/
theorem drainSettle_accounted (hi : (r.rows i).state = .inflight)
    (status : MailboxStatus) (count maxEvents : ℕ) :
    Accounted (r.drainSettle status i count maxEvents).1 := by
  have hready : Accounted (r.setRow i { r.rows i with state := .ready }) :=
    h.rewrite i _ (by simp only [Row.used, hi]; rfl) (by simp [Row.ticketed, hi])
      (by rw [Row.timed_eq_false (.inl rfl), Row.timed_eq_false (.inr hi)])
  unfold drainSettle
  rw [if_neg (by simp [hi])]
  split_ifs
  · exact h.delivered (by simp [hi])
  · exact h.cancelled (by simp [hi])
  · exact { hready with }
  · exact hready

omit h

end TurboScxml.Router
