import TurboScxml.Router.Operations

/-!
# What a section does to the row table

A row runs through FREE, RESERVED, then DELAYED and FIRING when it has a delay, READY and INFLIGHT,
and back to FREE. RESERVED, FIRING and INFLIGHT rows are held by a ticket or a lane, and only their
holder moves them.

* `Row.Formed`: a FREE row is zeroed and only a delayed send waits for the clock;
* `RowsStep own`: everything a section can do to the rows, where `own` is the held row whose holder
  runs the section; the exceptions are the two sections that give out a send ticket, which take the
  router to `accepted`.
-/

namespace TurboScxml.Router

open Function Slots

variable {cfg : Config} {σ : Type}

theorem refsEqual_iff {a b : SessionRef} : refsEqual a b = true ↔ a.generation ≠ 0 ∧ a = b := by
  cases a
  cases b
  simp [refsEqual, and_assoc]

theorem refsEqual_symm {a b : SessionRef} (h : refsEqual a b = true) : refsEqual b a = true := by
  obtain ⟨hgen, rfl⟩ := refsEqual_iff.mp h
  exact h

def Row.held (row : Row) : Bool :=
  row.state == .reserved || row.state == .firing || row.state == .inflight

/-- FREE rows are zeroed, and only delayed rows wait. -/
structure Row.Formed (row : Row) : Prop where
  free : row.state = .free → row = .free
  delay : row.state = .delayed ∨ row.state = .firing → row.delayMs ≠ 0

structure Reserves (r : Router cfg σ) (row : Row) : Prop where
  state : row.state = .reserved
  identity : row.identity = r.nextRowIdentity + 1
  target : r.locate row.target ≠ none
  source : row.source = .absent ∧ row.delayMs = 0 ∨ r.locate row.source ≠ none
  unique : row.delayMs ≠ 0 → ∀ j, (r.rows j).pendingSend row.source row.sendId = false

inductive Follows (delayMs : ℕ) : RowState → RowState → Prop
  | delay : delayMs ≠ 0 → Follows delayMs .reserved .delayed
  | publish : delayMs = 0 → Follows delayMs .reserved .ready
  | fire : Follows delayMs .delayed .firing
  | witness : Follows delayMs .firing .firing
  | fired : Follows delayMs .firing .ready
  | claim : Follows delayMs .ready .inflight
  | restore : Follows delayMs .inflight .ready

structure Advances (row row' : Row) : Prop where
  data : row' = { row with
    state := row'.state
    sequence := row'.sequence
    deadlineNs := row'.deadlineNs
    fireWonCancel := row'.fireWonCancel }
  follows : Follows row.delayMs row.state row'.state

/-- **One section on the row table**; `own` is the row of its holder. -/
inductive RowsStep (own : Option (Fin cfg.eventCapacity)) (r r' : Router cfg σ) : Prop
  | drop (hrows : ∀ i, r'.rows i = r.rows i ∨ r'.rows i = .free ∧ (r.rows i).state ≠ .free ∧
      ((r.rows i).held = true → own = some i))
      (hid : r'.nextRowIdentity = r.nextRowIdentity)
  | post (i : Fin cfg.eventCapacity) (row : Row) (sequence : ℕ) (hfree : r.rows i = .free)
      (hrow : Reserves r row) (hsource : row.source = .absent ∧ row.delayMs = 0)
      (hrows : r'.rows = update r.rows i { row with state := .ready, sequence })
      (hid : r'.nextRowIdentity = r.nextRowIdentity + 1)
  | advance (i : Fin cfg.eventCapacity) (row : Row) (hrow : Advances (r.rows i) row)
      (hown : (r.rows i).held = true → own = some i ∨ row.state = (r.rows i).state)
      (hrows : r'.rows = update r.rows i row) (hid : r'.nextRowIdentity = r.nextRowIdentity)

variable {own : Option (Fin cfg.eventCapacity)} {r r' : Router cfg σ}

theorem RowsStep.same (hrows : r'.rows = r.rows) (hid : r'.nextRowIdentity = r.nextRowIdentity) :
    RowsStep own r r' :=
  .drop (fun i => .inl (by rw [hrows])) hid

/-! ## Sections that leave the rows alone -/

def directory (r : Router cfg σ) :
    (Fin cfg.endpointCapacity → Endpoint σ) × (Fin cfg.invokeCapacity → InvokeRoute) :=
  (r.endpoints, r.invokeRoutes)

def work (r : Router cfg σ) : (Fin cfg.eventCapacity → Row) × ℕ ×
    (Fin cfg.cancelCapacity → CancelRow cfg.eventCapacity) × Bool × ℕ :=
  (r.rows, r.nextRowIdentity, r.cancelRows, r.draining, r.nextSequence)

theorem RowsStep.of_work (h : r'.work = r.work) : RowsStep own r r' :=
  .same (congrArg (·.1) h) (congrArg (·.2.1) h)

variable (r)

theorem reserve_work : r.reserve.1.work = r.work := by
  unfold reserve; dsimp only; (repeat' split) <;> rfl

section Sessions

variable [DecidableEq σ]

theorem activate_work (ref : SessionRef) (session : σ) (location : Option Text) :
    (r.activate ref session location).1.work = r.work := by
  unfold activate; dsimp only; (repeat' split) <;> rfl

theorem attach_work (session : σ) (location : Option Text) :
    (r.attach session location).1.work = r.work := by
  unfold attach; dsimp only; (repeat' split) <;> rfl

end Sessions

theorem detach_work (target : SessionRef) : (r.detach target).1.work = r.work := by
  unfold detach; dsimp only; (repeat' split) <;> rfl

theorem setParent_work (child parent : SessionRef) :
    (r.setParent child parent).1.work = r.work := by
  unfold setParent; dsimp only; (repeat' split) <;> rfl

theorem setExternalAccess_work (ref : SessionRef) (enabled : Bool) :
    (r.setExternalAccess ref enabled).1.work = r.work := by
  unfold setExternalAccess; (repeat' split) <;> rfl

theorem bindInvoke_work (source : SessionRef) (invokeId : Text) (target : SessionRef) :
    (r.bindInvoke source invokeId target).1.work = r.work := by
  unfold bindInvoke; dsimp only; (repeat' split) <;> rfl

theorem unbindInvoke_work (source : SessionRef) (invokeId : Text) :
    (r.unbindInvoke source invokeId).1.work = r.work := by
  unfold unbindInvoke; dsimp only; (repeat' split) <;> rfl

theorem resolve_work (source : SessionRef) (target : Text) :
    (r.resolve source target).1.work = r.work := by
  unfold resolve; (repeat' split) <;> rfl

theorem runDueBegin_work (maxFires : ℕ) : (r.runDueBegin maxFires).1.work = r.work := by
  unfold runDueBegin; split_ifs <;> rfl

/-! ## Sections that only move rows -/

def aside (r : Router cfg σ) : (Fin cfg.endpointCapacity → Endpoint σ) ×
    (Fin cfg.invokeCapacity → InvokeRoute) ×
    (Fin cfg.cancelCapacity → CancelRow cfg.eventCapacity) × Bool :=
  (r.endpoints, r.invokeRoutes, r.cancelRows, r.closed)

variable (i : Fin cfg.eventCapacity)

theorem releaseLocked_aside : (r.releaseLocked i).aside = r.aside := by
  simp only [releaseLocked, dropReserved, dropTimer, setRow, violated]
  split_ifs <;> rfl

theorem releaseLocked_nextRowIdentity :
    (r.releaseLocked i).nextRowIdentity = r.nextRowIdentity := by
  simp only [releaseLocked, dropReserved, dropTimer, setRow, violated]
  split_ifs <;> rfl

theorem releaseLocked_rows : (r.releaseLocked i).rows = r.rows ∨
      (r.rows i).state ≠ .free ∧ (r.releaseLocked i).rows = update r.rows i .free := by
  simp only [releaseLocked, dropReserved, dropTimer, setRow, violated]
  split_ifs with h <;> first | exact .inl rfl | exact .inr ⟨fun hi => h (.inl hi), rfl⟩

variable {r}

theorem releaseLocked_rowsStep {r₁ : Router cfg σ} {i : Fin cfg.eventCapacity}
    (hrows : r₁.rows = r.rows) (hid : r₁.nextRowIdentity = r.nextRowIdentity)
    (hown : (r.rows i).held = true → own = some i) : RowsStep own r (r₁.releaseLocked i) := by
  refine .drop (fun j => ?_) ((r₁.releaseLocked_nextRowIdentity i).trans hid)
  rcases r₁.releaseLocked_rows i with h | ⟨hi, h⟩
  · exact .inl (by rw [h, hrows])
  · rw [h, hrows]
    by_cases hj : j = i
    · subst hj
      exact .inr ⟨by rw [update_self], by rwa [hrows] at hi, hown⟩
    · exact .inl (by rw [update_of_ne hj])

theorem RowsStep.congr {r'' : Router cfg σ} (h : RowsStep own r r') (hrows : r''.rows = r'.rows)
    (hid : r''.nextRowIdentity = r'.nextRowIdentity) : RowsStep own r r'' := by
  cases h with
  | drop h h' => exact .drop (by rwa [hrows]) (hid.trans h')
  | post i row n hfree hrow hs h h' =>
    exact .post i row n hfree hrow hs (hrows.trans h) (hid.trans h')
  | advance i row hrow hown h h' => exact .advance i row hrow hown (hrows.trans h) (hid.trans h')

/-! ### Reserving and committing -/

theorem locate_congr (h : r'.endpoints = r.endpoints) (ref : SessionRef) :
    r'.locate ref = r.locate ref := by
  simp only [locate, h]

variable (r)

theorem reserveLocked_cases (target : SessionRef) (name : Text) (text : Option Text) :
    r.reserveLocked target name text = (r.full, none) ∨
      r.reserveLocked target name text = (r.violated, none) ∧
        (∀ i, (r.rows i).state ≠ .free) ∧ r.pending ≠ cfg.eventCapacity ∨
      ∃ i, (r.rows i).state = .free ∧
        r.reserveLocked target name text = (r.reserveAt i target name text, some i) := by
  unfold reserveLocked
  split_ifs with h
  · exact .inl rfl
  · push Not at h
    split
    · rename_i hnone
      exact .inr (.inl ⟨rfl, by simpa using hnone, h.1⟩)
    · rename_i i hi
      exact .inr (.inr ⟨i, by simpa using Fin.eq_true_of_find?_eq_some hi, rfl⟩)

theorem ticketCommit_rowsStep (now : ℕ) (i : Fin cfg.eventCapacity) :
    RowsStep (some i) r (r.ticketCommit now i) := by
  simp only [ticketCommit, commitLocked]
  split_ifs with hstate hlost
  · exact .same rfl rfl
  · exact releaseLocked_rowsStep rfl rfl fun _ => rfl
  · push Not at hstate
    refine .advance i (r.committedRow now (r.rows i)) ⟨?_, ?_⟩ (fun _ => .inl rfl) rfl rfl
    · simp only [committedRow]
      split_ifs <;> rfl
    · rw [hstate]
      simp only [committedRow]
      split_ifs with hdelay
      · exact .delay hdelay
      · exact .publish (by simpa using hdelay)

theorem ticketDiscard_rowsStep (i : Fin cfg.eventCapacity) :
    RowsStep (some i) r (r.ticketDiscard i) := by
  unfold ticketDiscard
  split_ifs
  · exact .same rfl rfl
  · exact releaseLocked_rowsStep rfl rfl fun _ => rfl

theorem ticketCommit_aside (now : ℕ) (i : Fin cfg.eventCapacity) :
    (r.ticketCommit now i).aside = r.aside := by
  simp only [ticketCommit, commitLocked]
  split_ifs <;> first | rfl | (rw [releaseLocked_aside]; rfl)

theorem ticketDiscard_aside (i : Fin cfg.eventCapacity) : (r.ticketDiscard i).aside = r.aside := by
  unfold ticketDiscard
  split_ifs <;> first | rfl | (rw [releaseLocked_aside]; rfl)

variable {r}

/-! ### Accepting a send -/

inductive Refused (r : Router cfg σ) : Router cfg σ → Prop
  | same : Refused r r
  | stale : Refused r r.stale
  | full : Refused r r.full
  | violated : (∀ i, (r.rows i).state ≠ .free) → r.pending ≠ cfg.eventCapacity →
      Refused r r.violated

def accepted (r : Router cfg σ) (i : Fin cfg.eventCapacity) (row : Row) : Router cfg σ :=
  { r with
    rows := update r.rows i row
    nextRowIdentity := r.nextRowIdentity + 1
    pending := r.pending + 1
    reserved := r.reserved + 1
    highWater := max r.highWater (r.pending + 1)
    timerPending := if row.delayMs ≠ 0 then r.timerPending + 1 else r.timerPending
    prepared := r.prepared + 1 }

theorem resolveLocked_ok {source : SessionRef} {target : Text} {resolved : SessionRef}
    (h : r.resolveLocked source target = .ok resolved) :
    r.locate source ≠ none ∧ r.locate resolved ≠ none := by
  unfold resolveLocked at h
  cases hi : r.locate source with
  | none => simp [hi] at h
  | some i =>
    simp only [hi] at h
    rw [ite_eq_iff] at h
    rcases h with ⟨-, h⟩ | ⟨hlive, h⟩
    · cases h
    · cases h
      exact ⟨by simp, hlive⟩

theorem prepareTarget_cases (hformed : ∀ i, (r.rows i).Formed) (source : SessionRef)
    (target name sendId : Text) (content : Option Content) (delayMs : ℕ) :
    (∃ e r', r.prepareTarget source target name sendId content delayMs = (r', .error e) ∧
      Refused r r') ∨
    ∃ i row, r.rows i = .free ∧ Reserves r row ∧ row.source = source ∧ row.sendId = sendId ∧
      row.delayMs = delayMs ∧
      r.prepareTarget source target name sendId content delayMs = (r.accepted i row, .ok i) := by
  unfold prepareTarget
  split
  · exact .inl ⟨_, _, rfl, .same⟩
  split
  · exact .inl ⟨_, _, rfl, .same⟩
  split
  · split
    · exact .inl ⟨_, _, rfl, .stale⟩
    · exact .inl ⟨_, _, rfl, .same⟩
  rename_i resolved hresolved
  obtain ⟨hsource, htarget⟩ := resolveLocked_ok hresolved
  split
  · exact .inl ⟨_, _, rfl, .full⟩
  split
  · exact .inl ⟨_, _, rfl, .same⟩
  rename_i hbusy
  rcases reserveLocked_cases r resolved name (content.map Content.bytes) with
    hr | ⟨hr, hnone, hcap⟩ | ⟨i, hi, hr⟩
  · exact .inl ⟨_, _, by rw [hr], .full⟩
  · exact .inl ⟨_, _, by rw [hr], .violated hnone hcap⟩
  have hfree := (hformed i).free hi
  refine .inr ⟨i, sendRow (r.reservedRow i resolved name (content.map Content.bytes)) source sendId
    content delayMs, hfree, ⟨rfl, rfl, htarget, .inr hsource, fun hdelay => ?_⟩, rfl, rfl, rfl, ?_⟩
  · have hdelay : delayMs ≠ 0 := hdelay
    simpa [hdelay, sendRow] using hbusy
  · rw [hr]
    simp only [reserveAt, setRow, accepted, sendRow, update_self, update_idem]
    rfl

theorem reservedRow_reserves {i : Fin cfg.eventCapacity} {target : SessionRef}
    (hfree : r.rows i = .free) (htarget : r.locate target ≠ none) (name : Text)
    (text : Option Text) :
    Reserves r (r.reservedRow i target name text) ∧
      (r.reservedRow i target name text).source = .absent ∧
      (r.reservedRow i target name text).delayMs = 0 := by
  have hsource : (r.reservedRow i target name text).source = .absent := by
    simp [reservedRow, hfree, Row.free]
  have hdelay : (r.reservedRow i target name text).delayMs = 0 := by
    simp [reservedRow, hfree, Row.free]
  exact ⟨⟨rfl, rfl, htarget, .inl ⟨hsource, hdelay⟩, fun h => absurd hdelay h⟩, hsource, hdelay⟩

theorem prepare_cases (hformed : ∀ i, (r.rows i).Formed) (target : SessionRef) (name : Text)
    (text : Option Text) :
    (∃ e r', r.prepare target name text = (r', .error e) ∧ Refused r r') ∨
    ∃ i row, r.rows i = .free ∧ Reserves r row ∧ row.source = .absent ∧ row.delayMs = 0 ∧
      r.prepare target name text = (r.accepted i row, .ok i) := by
  unfold prepare
  split_ifs with h1 h2 htarget
  · exact .inl ⟨_, _, rfl, .same⟩
  · exact .inl ⟨_, _, rfl, .same⟩
  · exact .inl ⟨_, _, rfl, .stale⟩
  rcases reserveLocked_cases r target name text with hr | ⟨hr, hnone, hcap⟩ | ⟨i, hi, hr⟩
  · exact .inl ⟨_, _, by rw [hr], .full⟩
  · exact .inl ⟨_, _, by rw [hr], .violated hnone hcap⟩
  have hfree := (hformed i).free hi
  obtain ⟨hreserves, hsource, hdelay⟩ := reservedRow_reserves hfree htarget name text
  refine .inr ⟨i, r.reservedRow i target name text, hfree, hreserves, hsource, hdelay, ?_⟩
  rw [hr]
  simp [reserveAt, setRow, accepted, reservedRow, hfree, Row.free]

theorem enqueue_cases (hformed : ∀ i, (r.rows i).Formed) (now : ℕ) (target : SessionRef)
    (name : Text) (text : Option Text) :
    Refused r (r.enqueue now target name text).1 ∨
    ∃ i row, r.rows i = .free ∧ Reserves r row ∧ row.source = .absent ∧ row.delayMs = 0 ∧
      (r.enqueue now target name text).1 = { r.accepted i row with
        rows := update r.rows i { row with state := .ready, sequence := r.nextSequence + 1 }
        reserved := r.reserved
        nextSequence := r.nextSequence + 1
        committed := r.committed + 1 } := by
  unfold enqueue
  split_ifs with h1 hclosed htarget hrange
  · exact .inl .same
  · exact .inl .same
  · exact .inl .stale
  · exact .inl .same
  rcases reserveLocked_cases r target name text with hr | ⟨hr, hnone, hcap⟩ | ⟨i, hi, hr⟩
  · exact .inl (by rw [hr]; exact .full)
  · exact .inl (by rw [hr]; exact .violated hnone hcap)
  have hfree := (hformed i).free hi
  obtain ⟨hreserves, hsource, hdelay⟩ := reservedRow_reserves hfree htarget name text
  refine .inr ⟨i, r.reservedRow i target name text, hfree, hreserves, hsource, hdelay, ?_⟩
  have hlive : locate { r.reserveAt i target name text with
      prepared := (r.reserveAt i target name text).prepared + 1 } target ≠ none := by
    rwa [locate_congr (r := r) (by rfl)]
  have hstate : ((r.reserveAt i target name text).rows i).state = .reserved := by
    simp [reserveAt, setRow, reservedRow]
  have htgt : ((r.reserveAt i target name text).rows i).target = target := by
    simp [reserveAt, setRow, reservedRow]
  simp only [hr, commitLocked]
  rw [if_neg (by simpa using hstate), if_neg ?_]
  swap
  · rw [htgt]
    push Not
    exact ⟨by simp [reserveAt, setRow, hclosed], hlive, hrange⟩
  simp [reserveAt, setRow, accepted, reservedRow, committedRow, hfree, Row.free]

theorem Refused.work {r' : Router cfg σ} (h : Refused r r') : r'.work = r.work := by
  cases h <;> rfl

theorem Refused.aside {r' : Router cfg σ} (h : Refused r r') : r'.aside = r.aside := by
  cases h <;> rfl

/-! ### Dropping rows -/

theorem dropRow_rows (r : Router cfg σ) (i : Fin cfg.eventCapacity) :
    (r.dropRow i).rows = r.rows ∨
      (r.rows i).state ≠ .free ∧ (r.dropRow i).rows = update r.rows i .free := by
  unfold dropRow
  split
  · exact releaseLocked_rows { r with timerCancelled := r.timerCancelled + 1 } i
  · exact releaseLocked_rows r i

theorem dropRow_aside (r : Router cfg σ) (i : Fin cfg.eventCapacity) :
    (r.dropRow i).aside = r.aside := by
  unfold dropRow
  split
  · exact releaseLocked_aside { r with timerCancelled := r.timerCancelled + 1 } i
  · exact releaseLocked_aside r i

theorem dropRow_nextRowIdentity (r : Router cfg σ) (i : Fin cfg.eventCapacity) :
    (r.dropRow i).nextRowIdentity = r.nextRowIdentity := by
  unfold dropRow
  split
  · exact releaseLocked_nextRowIdentity { r with timerCancelled := r.timerCancelled + 1 } i
  · exact releaseLocked_nextRowIdentity r i

theorem dropRows_aside (p : Row → Bool) (r : Router cfg σ) : (r.dropRows p).1.aside = r.aside :=
  sweep_induction (fun _ (s : Router cfg σ × ℕ) => s.1.aside = r.aside) rfl fun i s ih => by
    split
    · exact (s.1.dropRow_aside i).trans ih
    · exact ih

theorem dropRows_rows (p : Row → Bool) (r : Router cfg σ) :
    (∀ i, (r.dropRows p).1.rows i = r.rows i ∨ (r.dropRows p).1.rows i = .free ∧
      (r.rows i).state ≠ .free ∧ p (r.rows i) = true) ∧
    (r.dropRows p).1.nextRowIdentity = r.nextRowIdentity := by
  refine sweep_induction (fun _ (s : Router cfg σ × ℕ) =>
    (∀ i, s.1.rows i = r.rows i ∨ s.1.rows i = .free ∧ (r.rows i).state ≠ .free ∧
      p (r.rows i) = true) ∧ s.1.nextRowIdentity = r.nextRowIdentity)
    ⟨fun _ => .inl rfl, rfl⟩ fun k s ih => ?_
  obtain ⟨hrows, hid⟩ := ih
  split
  · rename_i hp
    refine ⟨fun i => ?_, (s.1.dropRow_nextRowIdentity k).trans hid⟩
    rcases s.1.dropRow_rows k with h | ⟨hk, h⟩
    · rw [h]
      exact hrows i
    · rw [h]
      by_cases hi : i = k
      · subst hi
        rcases hrows i with hsame | ⟨hfree, -⟩
        · exact .inr ⟨by rw [update_self], by rwa [hsame] at hk, by rwa [hsame] at hp⟩
        · rw [hfree] at hk
          exact absurd rfl hk
      · rw [update_of_ne hi]
        exact hrows i
  · exact ⟨hrows, hid⟩

theorem dropRows_rowsStep {p : Row → Bool} (hp : ∀ row, p row = true → row.held = false)
    (r : Router cfg σ) : RowsStep own r (r.dropRows p).1 := by
  obtain ⟨hrows, hid⟩ := dropRows_rows p r
  refine .drop (fun i => ?_) hid
  rcases hrows i with h | ⟨h, hused, hi⟩
  · exact .inl h
  · exact .inr ⟨h, hused, fun hheld => by rw [hp _ hi] at hheld; cases hheld⟩

variable (r)

theorem abort_rowsStep (ref : SessionRef) : RowsStep own r (r.abort ref).1 := by
  unfold abort
  split
  · exact .same rfl rfl
  · split_ifs
    · exact .same rfl rfl
    · exact .same rfl rfl
    · refine dropRows_rowsStep (fun row hrow => ?_) r
      simp only [Row.droppable, Bool.and_eq_true, Bool.or_eq_true, beq_iff_eq] at hrow
      rcases hrow.1 with h | h <;> simp [Row.held, h]

theorem abort_aside (ref : SessionRef) : (r.abort ref).1.aside = r.aside := by
  unfold abort
  split
  · rfl
  · split_ifs <;> [rfl; rfl; exact dropRows_aside _ r]

theorem cancel_rowsStep (target : SessionRef) : RowsStep own r (r.cancel target).1 := by
  unfold cancel
  split
  · exact .same rfl rfl
  · refine dropRows_rowsStep (fun row hrow => ?_) r
    simp only [Bool.and_eq_true, beq_iff_eq] at hrow
    simp [Row.held, hrow.1]

theorem cancel_aside (target : SessionRef) : (r.cancel target).1.aside = r.aside := by
  unfold cancel
  split <;> [rfl; exact dropRows_aside _ r]

theorem cancelSource_rowsStep (source : SessionRef) : RowsStep own r (r.cancelSource source).1 := by
  unfold cancelSource
  split
  · exact .same rfl rfl
  · refine dropRows_rowsStep (fun row hrow => ?_) r
    simp only [Bool.and_eq_true, Bool.or_eq_true, beq_iff_eq] at hrow
    rcases hrow.1 with h | h <;> simp [Row.held, h]

theorem cancelSource_aside (source : SessionRef) : (r.cancelSource source).1.aside = r.aside := by
  unfold cancelSource
  split <;> [rfl; exact dropRows_aside _ r]

theorem close_rowsStep : RowsStep own r r.close.1 := by
  unfold close
  split_ifs
  · exact .same rfl rfl
  · obtain ⟨hrows, hid⟩ := dropRows_rows (fun row => row.state == .ready || row.state == .delayed)
      { r with closed := true }
    refine .drop (fun i => ?_) hid
    rcases hrows i with h | ⟨h, hused, hi⟩
    · exact .inl h
    · refine .inr ⟨h, hused, fun hheld => ?_⟩
      simp only [Bool.or_eq_true, beq_iff_eq] at hi
      rcases hi with hs | hs <;> simp [Row.held, hs] at hheld

theorem close_directory : r.close.1.directory = r.directory := by
  unfold close
  split_ifs
  · rfl
  · have h := dropRows_aside (fun row => row.state == .ready || row.state == .delayed)
      { r with closed := true }
    exact congrArg (fun x => (x.1, x.2.1)) h

theorem close_cancelRows : r.close.1.cancelRows = r.cancelRows := by
  unfold close
  split_ifs
  · rfl
  · have h := dropRows_aside (fun row => row.state == .ready || row.state == .delayed)
      { r with closed := true }
    exact congrArg (fun x => x.2.2.1) h

/-! ### The lanes -/

theorem runDueClaim_rowsStep (now count maxFires : ℕ) :
    RowsStep own r (r.runDueClaim now count maxFires).1 := by
  unfold runDueClaim
  split_ifs
  · exact .same rfl rfl
  · exact .same rfl rfl
  · split
    · exact .same rfl rfl
    · rename_i i hi
      have hstate : (r.rows i).state = .delayed := by
        have := bestSlot_eligible hi
        simp only [Bool.and_eq_true, beq_iff_eq] at this
        exact this.1.1
      refine .advance i { r.rows i with state := .firing } ⟨rfl, ?_⟩ ?_ rfl rfl
      · rw [hstate]
        exact .fire
      · simp [Row.held, hstate]

theorem runDueSettle_rowsStep (settled : Bool) (i : Fin cfg.eventCapacity)
    (count maxFires : ℕ) : RowsStep (some i) r (r.runDueSettle settled i count maxFires).1 := by
  unfold runDueSettle
  dsimp only
  split_ifs with hstate
  · exact .same rfl rfl
  · exact releaseLocked_rowsStep rfl rfl fun _ => rfl
  · exact releaseLocked_rowsStep rfl rfl fun _ => rfl
  · exact releaseLocked_rowsStep rfl rfl fun _ => rfl
  · push Not at hstate
    refine .advance i { r.rows i with state := .ready } ⟨rfl, ?_⟩ (fun _ => .inl rfl) rfl rfl
    rw [hstate]
    exact .fired

theorem runDueSettle_aside (settled : Bool) (i : Fin cfg.eventCapacity)
    (count maxFires : ℕ) : (r.runDueSettle settled i count maxFires).1.aside = r.aside := by
  unfold runDueSettle
  dsimp only
  split_ifs <;> first | rfl | (rw [releaseLocked_aside]; rfl)

theorem runDueClaim_aside (now count maxFires : ℕ) :
    (r.runDueClaim now count maxFires).1.aside = r.aside := by
  unfold runDueClaim
  split_ifs <;> [rfl; rfl; split <;> rfl]

/-- A section of the drain leaves the work of the router, or claims the oldest row. -/
theorem drainClaim_cases (count maxEvents : ℕ) (result : MailboxStatus) :
    (∃ staleRefs deliveryErrors, (r.drainClaim count maxEvents result).1
        = { r with staleRefs, deliveryErrors }) ∧
      (∃ result', (r.drainClaim count maxEvents result).2 = .leaving count result') ∨
    ∃ j event, r.oldestReady = some j ∧ r.drainClaim count maxEvents result =
      (r.setRow j { r.rows j with state := .inflight },
        .delivering j event count maxEvents) := by
  unfold drainClaim
  dsimp only
  split
  · exact .inl ⟨⟨_, _, rfl⟩, _, rfl⟩
  split
  · exact .inl ⟨⟨_, _, rfl⟩, _, rfl⟩
  split
  · exact .inl ⟨⟨_, _, rfl⟩, _, rfl⟩
  rename_i j hj
  split
  · exact .inl ⟨⟨_, _, rfl⟩, _, rfl⟩
  split
  · exact .inl ⟨⟨_, _, rfl⟩, _, rfl⟩
  split
  · exact .inr ⟨j, _, hj, rfl⟩
  split
  · exact .inl ⟨⟨_, _, rfl⟩, _, rfl⟩
  split
  · exact .inl ⟨⟨_, _, rfl⟩, _, rfl⟩
  · exact .inr ⟨j, _, hj, rfl⟩

variable {r} in
theorem oldestReady_ready {j : Fin cfg.eventCapacity} (hj : r.oldestReady = some j) :
    (r.rows j).state = .ready := by
  simpa using bestSlot_eligible hj

theorem drainClaim_work (count maxEvents : ℕ) (result : MailboxStatus) :
    (r.drainClaim count maxEvents result).1.work = r.work ∨ ∃ j, (r.rows j).state = .ready ∧
      (r.drainClaim count maxEvents result).1
        = r.setRow j { r.rows j with state := .inflight } := by
  rcases r.drainClaim_cases count maxEvents result with ⟨⟨_, _, h⟩, -⟩ | ⟨j, event, hj, h⟩
  · exact .inl (by rw [h]; rfl)
  · exact .inr ⟨j, oldestReady_ready hj, congrArg Prod.fst h⟩

theorem drainClaim_rowsStep (count maxEvents : ℕ) (result : MailboxStatus) :
    RowsStep own r (r.drainClaim count maxEvents result).1 := by
  rcases r.drainClaim_work count maxEvents result with h | ⟨j, hstate, h⟩
  · exact .of_work h
  · rw [h]
    refine .advance j { r.rows j with state := .inflight } ⟨rfl, ?_⟩ ?_ rfl rfl
    · rw [hstate]
      exact .claim
    · simp [Row.held, hstate]

theorem drainSettle_rowsStep (status : MailboxStatus)
    (j : Fin cfg.eventCapacity) (count maxEvents : ℕ) :
    RowsStep (some j) r (r.drainSettle status j count maxEvents).1 := by
  unfold drainSettle
  split_ifs with hstate
  · exact .same rfl rfl
  · exact (releaseLocked_rowsStep (r := r) rfl rfl fun _ => rfl).congr rfl rfl
  · exact releaseLocked_rowsStep rfl rfl fun _ => rfl
  all_goals
    push Not at hstate
    refine .advance j { r.rows j with state := .ready } ⟨rfl, ?_⟩ (fun _ => .inl rfl) rfl rfl
    rw [hstate]
    exact .restore

theorem drainSettle_aside (status : MailboxStatus)
    (j : Fin cfg.eventCapacity) (count maxEvents : ℕ) :
    (r.drainSettle status j count maxEvents).1.aside = r.aside := by
  unfold drainSettle
  split_ifs
  · rfl
  · exact releaseLocked_aside r j
  · exact releaseLocked_aside { r with cancelled := r.cancelled + 1 } j
  · rfl
  · rfl

/-! ### Cancel tickets -/

def rowTable : (Fin cfg.eventCapacity → Row) × ℕ := (r.rows, r.nextRowIdentity)

variable {r}

theorem RowsStep.of_rowTable (h : r'.rowTable = r.rowTable) : RowsStep own r r' :=
  .same (congrArg Prod.fst h) (congrArg Prod.snd h)

variable (r)

theorem prepareCancel_cases (source : SessionRef) (sendId : Text) :
    (∃ e r', r.prepareCancel source sendId = (r', .error e) ∧ (r' = r ∨ r' = r.stale ∨
      r' = r.full ∨ r' = r.violated ∧ r.cancelPending < cfg.cancelCapacity ∧
        ∀ k, (r.cancelRows k).inUse = true)) ∨
    ∃ i k, (Fin.find? fun i => (r.rows i).delayedSend source sendId) = some i ∧
      (r.cancelRows k).inUse = false ∧ r.locate source ≠ none ∧
      r.prepareCancel source sendId =
        ({ r.setCancelRow k ⟨some i, source, (r.rows i).identity, true⟩ with
          cancelPending := r.cancelPending + 1
          cancelPrepared := r.cancelPrepared + 1 }, .ok k) := by
  unfold prepareCancel
  split
  · exact .inl ⟨_, _, rfl, .inl rfl⟩
  split
  · exact .inl ⟨_, _, rfl, .inl rfl⟩
  split
  · exact .inl ⟨_, _, rfl, .inr (.inl rfl)⟩
  rename_i hsource
  split
  · exact .inl ⟨_, _, rfl, .inl rfl⟩
  rename_i i hi
  split
  · exact .inl ⟨_, _, rfl, .inr (.inr (.inl rfl))⟩
  split
  · rename_i hk
    exact .inl ⟨_, _, rfl, .inr (.inr (.inr ⟨rfl, by omega, by simpa using hk⟩))⟩
  · rename_i k hk
    exact .inr ⟨i, k, hi, by simpa using Fin.eq_true_of_find?_eq_some hk, hsource, rfl⟩

theorem prepareCancel_rowTable (source : SessionRef) (sendId : Text) :
    (r.prepareCancel source sendId).1.rowTable = r.rowTable := by
  unfold prepareCancel; dsimp only; (repeat' split) <;> rfl

variable (k : Fin cfg.cancelCapacity)

theorem cancelReleaseLocked_rowTable : (r.cancelReleaseLocked k).rowTable = r.rowTable := by
  unfold cancelReleaseLocked
  split_ifs <;> rfl

theorem cancelReleaseLocked_directory : (r.cancelReleaseLocked k).directory = r.directory := by
  unfold cancelReleaseLocked
  split_ifs <;> rfl

theorem cancelDiscard_rowTable : (r.cancelDiscard k).rowTable = r.rowTable := by
  unfold cancelDiscard
  split_ifs
  · rfl
  · rw [cancelReleaseLocked_rowTable]; rfl

theorem cancelRow_aside (intent : CancelRow cfg.eventCapacity) :
    (r.cancelRow intent).aside = r.aside := by
  unfold cancelRow
  split
  · rfl
  · split_ifs
    · rw [releaseLocked_aside]; rfl
    · rfl
    · rfl

variable {r}

theorem cancelRow_rowsStep {intent : CancelRow cfg.eventCapacity}
    (hk : ∀ i, r.intentRow intent = some i → (r.rows i).state ≠ .reserved) :
    RowsStep own r (r.cancelRow intent) := by
  unfold cancelRow
  split
  · exact .same rfl rfl
  rename_i i hi
  split_ifs with hdrop hfiring
  · refine releaseLocked_rowsStep rfl rfl fun hheld => ?_
    have := hdrop.2.resolve_left (hk i hi)
    simp [Row.held, this] at hheld
  · refine .advance i { r.rows i with fireWonCancel := true } ⟨rfl, ?_⟩ (fun _ => .inr rfl) rfl rfl
    simp only [hfiring]
    exact .witness
  · exact .same rfl rfl

theorem cancelCommit_rowsStep {k : Fin cfg.cancelCapacity}
    (hk : ∀ i, r.intentRow (r.cancelRows k) = some i → (r.rows i).state ≠ .reserved) :
    RowsStep own r (r.cancelCommit k) := by
  unfold cancelCommit
  dsimp only
  split_ifs
  · exact .same rfl rfl
  · have h := cancelReleaseLocked_rowTable
      { r.cancelRow (r.cancelRows k) with
        cancelCommitted := (r.cancelRow (r.cancelRows k)).cancelCommitted + 1 } k
    exact (cancelRow_rowsStep hk).congr (congrArg Prod.fst h) (congrArg Prod.snd h)

end TurboScxml.Router
