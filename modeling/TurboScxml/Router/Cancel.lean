import TurboScxml.Router.Steps

/-!
# Cancelling a delayed send

`prepare_cancel` takes the first delayed row of the pair (source, send id) in table order, fired or
not; `cancel_commit` later drops that row if its due claim has not begun.

* `reachable_pendingUnique`: at most one delayed send of a pair has not fired;
* **`cancel_removes_iff`**: the commit removes the row of the pair that has not fired exactly when
  the clock lane has not claimed it and, when the cancel was prepared, no row before it in the
  table had fired (`cancel_misses`: a run where one had).
-/

namespace TurboScxml.Router

open Function Slots Machine

variable {cfg : Config} {σ : Type}

/-! ## One pending send for each pair -/

def Row.fired (row : Row) : Bool := row.state == .ready || row.state == .inflight

/-- At most one delayed send of a pair has not fired. -/
def PendingUnique (r : Router cfg σ) : Prop :=
  ∀ i j source sendId, (r.rows i).pendingSend source sendId = true →
    (r.rows j).pendingSend source sendId = true → i = j

variable {row : Row}

section Rows

variable {own : Option (Fin cfg.eventCapacity)} {r r' : Router cfg σ} {delayMs : ℕ} {b : RowState}

theorem Follows.timed {a : RowState} (h : Follows delayMs a b)
    (hb : b = .reserved ∨ b = .delayed ∨ b = .firing) :
    a = .reserved ∨ a = .delayed ∨ a = .firing := by
  cases h <;> simp_all

theorem Follows.keeps_fired {a : RowState} (h : Follows delayMs a b)
    (ha : a = .ready ∨ a = .inflight) : b = .ready ∨ b = .inflight := by
  cases h <;> simp_all

variable {source : SessionRef} {sendId : Text}

theorem Row.pendingSend_iff : row.pendingSend source sendId = true ↔ row.delayMs ≠ 0 ∧
      (row.state = .reserved ∨ row.state = .delayed ∨ row.state = .firing) ∧
      refsEqual row.source source = true ∧ row.sendId = sendId := by
  simp [Row.pendingSend, Row.timed, and_assoc, or_assoc]

theorem Row.delayedSend_iff :
    row.delayedSend source sendId = true ↔ row.delayMs ≠ 0 ∧ row.state ≠ .free ∧
      refsEqual row.source source = true ∧ row.sendId = sendId := by
  simp [Row.delayedSend, and_assoc]

/-- Where the rows after a section come from. -/
theorem RowsStep.origin (hstep : RowsStep own r r') (i : Fin cfg.eventCapacity)
    (hi : (r'.rows i).state ≠ .free) :
    (r'.rows i).identity = r.nextRowIdentity + 1 ∧ (r'.rows i).source = .absent ∧
        (r'.rows i).delayMs = 0 ∨
      (r.rows i).state ≠ .free ∧ (r'.rows i).identity = (r.rows i).identity ∧
        (r'.rows i).source = (r.rows i).source ∧ (r'.rows i).sendId = (r.rows i).sendId ∧
        (r'.rows i).delayMs = (r.rows i).delayMs ∧
        ((r.rows i).fired = true → (r'.rows i).fired = true) ∧
        ((r'.rows i).timed = true → (r.rows i).timed = true) := by
  cases hstep with
  | drop hrows hid =>
    rcases hrows i with heq | ⟨heq, -⟩
    · rw [heq] at hi ⊢
      exact .inr ⟨hi, rfl, rfl, rfl, rfl, id, id⟩
    · rw [heq] at hi
      exact absurd rfl hi
  | post j row sequence hfree hrow hsource hrows hid =>
    by_cases hij : i = j
    · rw [hrows, hij, update_self]
      exact .inl ⟨hrow.identity, hsource⟩
    · rw [hrows, update_of_ne hij] at hi ⊢
      exact .inr ⟨hi, rfl, rfl, rfl, rfl, id, id⟩
  | advance j row hrow hown hrows hid =>
    by_cases hij : i = j
    · subst hij
      rw [hrows, update_self]
      refine .inr ⟨hrow.follows.used.1, hrow.identity, hrow.source, hrow.sendId, hrow.delayMs,
        ?_, ?_⟩
      · simpa [Row.fired] using hrow.follows.keeps_fired
      · simp only [Row.timed, hrow.delayMs, Bool.and_eq_true, Bool.or_eq_true, beq_iff_eq, or_assoc]
        rintro ⟨hdelay, hstate⟩
        exact ⟨hdelay, hrow.follows.timed hstate⟩
    · rw [hrows, update_of_ne hij] at hi ⊢
      exact .inr ⟨hi, rfl, rfl, rfl, rfl, id, id⟩

variable {i : Fin cfg.eventCapacity}

theorem RowsStep.pendingSend (hstep : RowsStep own r r')
    (hi : (r'.rows i).pendingSend source sendId = true) :
    (r.rows i).pendingSend source sendId = true := by
  obtain ⟨hdelay, hstate, hsource, hid⟩ := Row.pendingSend_iff.mp hi
  have hused : (r'.rows i).state ≠ .free := by
    rcases hstate with h | h | h <;> simp [h]
  rcases hstep.origin i hused with ⟨-, -, hzero⟩ | ⟨-, -, hsource', hid', -, -, htimed⟩
  · exact absurd hzero hdelay
  · simp only [Row.pendingSend, Bool.and_eq_true, beq_iff_eq] at hi ⊢
    rw [← hsource', ← hid']
    exact ⟨⟨htimed hi.1.1, hi.1.2⟩, hi.2⟩

theorem PendingUnique.rowsStep (h : PendingUnique r) (hstep : RowsStep own r r') :
    PendingUnique r' :=
  fun i j source sendId hi hj => h i j source sendId (hstep.pendingSend hi) (hstep.pendingSend hj)

theorem PendingUnique.accepted (h : PendingUnique r)
    (hrow : Reserves r row) : PendingUnique (r.accepted i row) := by
  have hself : (r.accepted i row).rows i = row := update_self ..
  have hother : ∀ j, j ≠ i → (r.accepted i row).rows j = r.rows j := fun j hj =>
    update_of_ne hj _ _
  have hclash : ∀ j source sendId, row.pendingSend source sendId = true →
      (r.rows j).pendingSend source sendId = false := fun j source sendId hnew => by
    obtain ⟨hdelay, -, hsource, hid⟩ := Row.pendingSend_iff.mp hnew
    have := hrow.unique hdelay j
    rw [hid] at this
    by_contra hj
    rw [(refsEqual_iff.mp hsource).2] at this
    exact hj this
  intro j k source sendId hj hk
  by_cases hji : j = i <;> by_cases hki : k = i
  · exact hji.trans hki.symm
  · rw [hji, hself] at hj
    rw [hother k hki, hclash k source sendId hj] at hk
    cases hk
  · rw [hki, hself] at hk
    rw [hother j hji, hclash j source sendId hk] at hj
    cases hj
  · rw [hother j hji] at hj
    rw [hother k hki] at hk
    exact h j k source sendId hj hk

end Rows

/-! ## Delivered identities -/

/-- No row carries a delivered identity. -/
def HistorySound (s : System cfg σ) : Prop :=
  ∀ e ∈ s.deliveredIdentities, e ≤ s.router.nextRowIdentity ∧
    ∀ i, (s.router.rows i).state ≠ .free → (s.router.rows i).identity ≠ e

def Gone (e : ℕ) (s : System cfg σ) : Prop :=
  e ≤ s.router.nextRowIdentity ∧
    (∀ i, (s.router.rows i).state ≠ .free → (s.router.rows i).identity ≠ e) ∧
    e ∉ s.deliveredIdentities

section System

variable {s s' : System cfg σ} {own : Option (Fin cfg.eventCapacity)} {e : ℕ}

theorem RowsStep.absent {r r' : Router cfg σ} (hstep : RowsStep own r r')
    (hle : e ≤ r.nextRowIdentity) (h : ∀ i, (r.rows i).state ≠ .free → (r.rows i).identity ≠ e)
    (i : Fin cfg.eventCapacity) (hi : (r'.rows i).state ≠ .free) : (r'.rows i).identity ≠ e := by
  rcases hstep.origin i hi with ⟨hnew, -⟩ | ⟨hused, heq, -⟩
  · omega
  · rw [heq]
    exact h i hused

theorem accepted_absent {r : Router cfg σ} {i : Fin cfg.eventCapacity} (hrow : Reserves r row)
    (hle : e ≤ r.nextRowIdentity) (h : ∀ i, (r.rows i).state ≠ .free → (r.rows i).identity ≠ e)
    (j : Fin cfg.eventCapacity) (hj : ((r.accepted i row).rows j).state ≠ .free) :
    ((r.accepted i row).rows j).identity ≠ e := by
  by_cases hji : j = i
  · rw [hji, show (r.accepted i row).rows i = row from update_self .., hrow.identity]
    omega
  · rw [show (r.accepted i row).rows j = r.rows j from update_of_ne hji _ _] at hj ⊢
    exact h j hj

theorem WorkStep.absent (hstep : WorkStep s s') (hle : e ≤ s.router.nextRowIdentity)
    (h : ∀ i, (s.router.rows i).state ≠ .free → (s.router.rows i).identity ≠ e) :
    e ≤ s'.router.nextRowIdentity ∧
      ∀ i, (s'.router.rows i).state ≠ .free → (s'.router.rows i).identity ≠ e := by
  cases hstep with
  | quiet own hrows => exact ⟨hle.trans hrows.nextRowIdentity_le, hrows.absent hle h⟩
  | acceptSend i row hfree hrow hs' =>
    subst hs'
    exact ⟨hle.trans (Nat.le_succ _), accepted_absent hrow hle h⟩
  | acceptCancel i k source sendId hi hk hsource hcancel htable =>
    have hrows : s'.router.rows = s.router.rows := congrArg Prod.fst htable
    have hid : s'.router.nextRowIdentity = s.router.nextRowIdentity := congrArg Prod.snd htable
    exact ⟨by rw [hid]; exact hle, by rw [hrows]; exact h⟩
  | settle t ht own hrows => exact ⟨hle.trans hrows.nextRowIdentity_le, hrows.absent hle h⟩

theorem WorkStep.history (hsound : RowsSound s.router) (hstep : WorkStep s s')
    (he : e ∈ s'.deliveredIdentities) : e ∈ s.deliveredIdentities ∨
      e ≤ s.router.nextRowIdentity ∧ (∃ i, (s.router.rows i).state ≠ .free ∧
        (s.router.rows i).identity = e) ∧
        ∀ i, (s'.router.rows i).state ≠ .free → (s'.router.rows i).identity ≠ e := by
  cases hstep with
  | quiet own hrows hown hcancel htickets hserial hdelivered =>
    rcases hdelivered with heq | ⟨j, hj, hfree, heq⟩
    · rw [heq] at he
      exact .inl he
    · rw [heq] at he
      rcases List.mem_append.mp he with hold | hnew
      · exact .inl hold
      · obtain rfl := List.mem_singleton.mp hnew
        have hused : (s.router.rows j).state ≠ .free := by simp [hj]
        have hle := hsound.identity j hused
        refine .inr ⟨hle, ⟨j, hused, rfl⟩, fun i hi heq' => ?_⟩
        rcases hrows.origin i hi with ⟨hid, -⟩ | ⟨hused', hid, -⟩
        · omega
        · obtain rfl := hsound.distinct i j hused' hused (hid.symm.trans heq')
          rw [hfree] at hi
          exact hi rfl
  | acceptSend i row hfree hrow hs' =>
    subst hs'
    exact .inl he
  | acceptCancel i k source sendId hi hk hsource hcancel htable htickets hserial hdelivered =>
    rw [hdelivered] at he
    exact .inl he
  | settle t ht own hrows hown hcancel htickets hserial hdelivered =>
    rw [hdelivered] at he
    exact .inl he

variable [DecidableEq σ] {a : Action cfg σ}

theorem HistorySound.step (h : HistorySound s) (hsound : Sound s) (hs : s.step a = some s') :
    HistorySound s' := by
  have hstep := (step_spec hsound hs).work
  intro e he
  rcases hstep.history hsound.rows he with hold | ⟨hle, -, habsent⟩
  · exact hstep.absent (h e hold).1 (h e hold).2
  · refine ⟨hle.trans ?_, habsent⟩
    cases hstep with
    | quiet own hrows => exact hrows.nextRowIdentity_le
    | acceptSend i row hfree hrow hs' =>
      subst hs'
      exact Nat.le_succ _
    | acceptCancel i k source sendId hi hk hsource hcancel htable =>
      exact (congrArg Prod.snd htable).ge
    | settle t ht own hrows => exact hrows.nextRowIdentity_le

theorem Gone.step (h : Gone e s) (hsound : Sound s) (hs : s.step a = some s') : Gone e s' := by
  obtain ⟨hle, habsent, hnever⟩ := h
  have hstep := (step_spec hsound hs).work
  obtain ⟨hle', habsent'⟩ := hstep.absent hle habsent
  refine ⟨hle', habsent', fun he => ?_⟩
  rcases hstep.history hsound.rows he with hold | ⟨-, ⟨i, hused, heq⟩, -⟩
  · exact hnever hold
  · exact habsent i hused heq

theorem Gone.runs (h : Gone e s) (hsound : Sound s) (hrun : Runs System.step s s') : Gone e s' :=
  (hrun.invariant (P := fun s => Sound s ∧ Gone e s)
    (fun _ _ _ h hs => ⟨(step_spec h.1 hs).sound, h.2.step h.1 hs⟩) ⟨hsound, h⟩).2

theorem PendingUnique.step (h : PendingUnique s.router) (hsound : Sound s)
    (hs : s.step a = some s') : PendingUnique s'.router := by
  cases (step_spec hsound hs).work with
  | quiet own hrows => exact h.rowsStep hrows
  | acceptSend i row hfree hrow hs' =>
    subst hs'
    exact h.accepted hrow
  | acceptCancel i k source sendId hi hk hsource hcancel htable =>
    have hrows : s'.router.rows = s.router.rows := congrArg Prod.fst htable
    rw [PendingUnique, hrows]
    exact h
  | settle t ht own hrows => exact h.rowsStep hrows

theorem reachable_history (h : s.Reachable) :
    Sound s ∧ PendingUnique s.router ∧ HistorySound s := by
  refine Machine.Reachable.invariant
    (P := fun s => Sound s ∧ PendingUnique s.router ∧ HistorySound s) (fun s hs => ?_)
    (fun s a s' hs hstep => ?_) h
  · rw [hs.2]
    refine ⟨init_sound, fun i j source sendId hi => ?_, by simp [HistorySound, System.init]⟩
    exact absurd (Row.pendingSend_iff.mp hi).1 (by simp [System.init, Router.init, Row.free])
  · obtain ⟨hsound, hunique, hhistory⟩ := hs
    exact ⟨(step_spec hsound hstep).sound, hunique.step hsound hstep, hhistory.step hsound hstep⟩

end System

/-! ## While a cancel is outstanding -/

/-- The rows keep what was sent, and later sends of the source wait for `t`. -/
structure Tracks (s₀ : System cfg σ) (t : Ticket cfg) (k : Fin cfg.cancelCapacity)
    (j : Fin cfg.eventCapacity) (s : System cfg σ) : Prop where
  serial : t.serial < s.nextSerial
  identity : s₀.router.nextRowIdentity ≤ s.router.nextRowIdentity
  intent : t ∈ s.tickets →
    s.router.cancelRows k = ⟨some j, t.source, (s₀.router.rows j).identity, true⟩
  old : ∀ i, (s.router.rows i).state ≠ .free →
    (s.router.rows i).identity ≤ s₀.router.nextRowIdentity →
    (s₀.router.rows i).state ≠ .free ∧
      (s.router.rows i).identity = (s₀.router.rows i).identity ∧
      (s.router.rows i).source = (s₀.router.rows i).source ∧
      (s.router.rows i).sendId = (s₀.router.rows i).sendId ∧
      (s.router.rows i).delayMs = (s₀.router.rows i).delayMs ∧
      ((s₀.router.rows i).fired = true → (s.router.rows i).fired = true)
  new : t ∈ s.tickets → ∀ i, (s.router.rows i).state ≠ .free →
    s₀.router.nextRowIdentity < (s.router.rows i).identity →
    refsEqual (s.router.rows i).source t.source = true → (s.router.rows i).state = .reserved
  younger : ∀ u ∈ s.tickets, ∀ i e, u.effect = .send i e → s₀.router.nextRowIdentity < e →
    t.serial < u.serial

section Tracks

variable {s₀ s s' : System cfg σ} {t : Ticket cfg} {k : Fin cfg.cancelCapacity}
  {j : Fin cfg.eventCapacity} {d : ℕ} (h : Tracks s₀ t k j s)
include h

variable {own : Option (Fin cfg.eventCapacity)}

theorem Tracks.old_rowsStep (hrows : RowsStep own s.router s'.router) (i : Fin cfg.eventCapacity)
    (hi : (s'.router.rows i).state ≠ .free)
    (hle : (s'.router.rows i).identity ≤ s₀.router.nextRowIdentity) :
    (s₀.router.rows i).state ≠ .free ∧
      (s'.router.rows i).identity = (s₀.router.rows i).identity ∧
      (s'.router.rows i).source = (s₀.router.rows i).source ∧
      (s'.router.rows i).sendId = (s₀.router.rows i).sendId ∧
      (s'.router.rows i).delayMs = (s₀.router.rows i).delayMs ∧
      ((s₀.router.rows i).fired = true → (s'.router.rows i).fired = true) := by
  rcases hrows.origin i hi with ⟨hnew, -⟩ | ⟨hused, hid, hsource, hsend, hdelay, hfired, -⟩
  · have := h.identity
    omega
  · rw [hid] at hle ⊢
    obtain ⟨hused₀, hid₀, hsource₀, hsend₀, hdelay₀, hfired₀⟩ := h.old i hused hle
    exact ⟨hused₀, hid₀, hsource.trans hsource₀, hsend.trans hsend₀, hdelay.trans hdelay₀,
      fun hf => hfired (hfired₀ hf)⟩

theorem Tracks.new_rowsStep (hrows : RowsStep own s.router s'.router) (ht : t ∈ s.tickets)
    (hown : ∀ i, own = some i → (s.router.rows i).state = .reserved →
      s₀.router.nextRowIdentity < (s.router.rows i).identity →
      refsEqual (s.router.rows i).source t.source = false)
    (i : Fin cfg.eventCapacity) (hi : (s'.router.rows i).state ≠ .free)
    (hlt : s₀.router.nextRowIdentity < (s'.router.rows i).identity)
    (hsource : refsEqual (s'.router.rows i).source t.source = true) :
    (s'.router.rows i).state = .reserved := by
  rcases hrows.origin i hi with ⟨-, habsent, -⟩ | ⟨hused, hid, hsource', -⟩
  · rw [habsent] at hsource
    cases hsource
  · rw [hid] at hlt
    rw [hsource'] at hsource
    have hstate := h.new ht i hused hlt hsource
    rw [← hstate]
    refine (hrows.held (by simp [Row.held, hstate]) fun heq => ?_).1
    rw [hown i heq hstate hlt] at hsource
    cases hsource

theorem Tracks.work (hd : t.effect = .cancel k d) (hsound : Sound s)
    (hsound' : Sound s') (hstep : WorkStep s s') : Tracks s₀ t k j s' := by
  cases hstep with
  | quiet own hrows hown hcancel htickets hserial =>
    refine ⟨by rw [hserial]; exact h.serial, h.identity.trans hrows.nextRowIdentity_le, ?_,
      h.old_rowsStep hrows, ?_, by rw [htickets]; exact h.younger⟩
    · rw [htickets, hcancel]
      exact h.intent
    · rw [htickets]
      refine fun ht => h.new_rowsStep hrows ht fun i hi hstate => ?_
      rcases hown i hi with hs | hs <;> rw [hs] at hstate <;> cases hstate
  | acceptSend i row hfree hrow hs' =>
    subst hs'
    have hother : ∀ l, l ≠ i → (s.router.accepted i row).rows l = s.router.rows l := fun l hl =>
      update_of_ne hl _ _
    have hself : (s.router.accepted i row).rows i = row := update_self ..
    have hmem : t ∈ s.tickets ++ [⟨s.nextSerial, row.source, .send i row.identity⟩] →
        t ∈ s.tickets := fun ht => by
      rcases List.mem_append.mp ht with hold | hnew
      · exact hold
      · rw [List.mem_singleton.mp hnew] at hd
        cases hd
    refine ⟨h.serial.trans (Nat.lt_succ_self _), h.identity.trans (Nat.le_succ _),
      fun ht => h.intent (hmem ht), fun l hl hle => ?_, fun ht l hl hlt hsource => ?_,
      fun u hu l e he hlt => ?_⟩
    · change ((s.router.accepted i row).rows l).state ≠ _ at hl
      change ((s.router.accepted i row).rows l).identity ≤ _ at hle
      have hli : l ≠ i := by
        rintro rfl
        rw [hself, hrow.identity] at hle
        have := h.identity
        omega
      have heq := hother l hli
      rw [heq] at hl hle
      have := h.old l hl hle
      rwa [← heq] at this
    · change ((s.router.accepted i row).rows l).state ≠ _ at hl
      change ((s.router.accepted i row).rows l).state = _
      change _ < ((s.router.accepted i row).rows l).identity at hlt
      change refsEqual ((s.router.accepted i row).rows l).source _ = _ at hsource
      by_cases hli : l = i
      · rw [hli, hself]
        exact hrow.state
      · rw [hother l hli] at hl hlt hsource ⊢
        exact h.new (hmem ht) l hl hlt hsource
    · rcases List.mem_append.mp hu with hold | hnew
      · exact h.younger u hold l e he hlt
      · rw [List.mem_singleton.mp hnew]
        exact h.serial
  | acceptCancel i l source sendId hi hl hsource hcancel htable htickets hserial =>
    have hrowsEq : s'.router.rows = s.router.rows := congrArg Prod.fst htable
    have hidEq : s'.router.nextRowIdentity = s.router.nextRowIdentity := congrArg Prod.snd htable
    have hmem : t ∈ s'.tickets → t ∈ s.tickets := fun ht => by
      rw [htickets] at ht
      rcases List.mem_append.mp ht with hold | hnew
      · exact hold
      · have := h.serial
        rw [List.mem_singleton.mp hnew] at this
        exact absurd this (lt_irrefl _)
    refine ⟨by rw [hserial]; exact h.serial.trans (Nat.lt_succ_self _),
      by rw [hidEq]; exact h.identity, fun ht => ?_, by rw [hrowsEq]; exact h.old,
      fun ht => by rw [hrowsEq]; exact h.new (hmem ht), fun u hu m e he hlt => ?_⟩
    · have hintent := h.intent (hmem ht)
      have hkl : k ≠ l := by
        rintro rfl
        rw [hintent] at hl
        cases hl
      rw [hcancel, update_of_ne hkl]
      exact hintent
    · rw [htickets] at hu
      rcases List.mem_append.mp hu with hold | hnew
      · exact h.younger u hold m e he hlt
      · rw [List.mem_singleton.mp hnew] at he
        cases he
  | settle u hu own hrows hown hcancel htickets hserial =>
    have hsub : ∀ v ∈ s'.tickets, v ∈ s.tickets := fun v hv => by
      rw [htickets] at hv
      exact List.mem_of_mem_erase hv
    refine ⟨by rw [hserial]; exact h.serial, h.identity.trans hrows.nextRowIdentity_le,
      fun ht => ?_, h.old_rowsStep hrows, fun ht => ?_,
      fun v hv => h.younger v (hsub v hv)⟩
    · rw [hcancel k (hsound'.tickets.cancel t ht k d hd).1]
      exact h.intent (hsub t ht)
    · refine h.new_rowsStep hrows (hsub t ht) fun i hi hstate hlt => ?_
      -- the settled send is younger than `t`, so `t` is not of its source
      by_contra hsource
      simp only [System.settleable, Bool.and_eq_true, List.contains_iff_mem, List.all_eq_true]
        at hu
      obtain ⟨hmem, hfirst⟩ := hu
      obtain ⟨e, he⟩ := hown i hi
      obtain ⟨-, hid, hsrc⟩ := hsound.tickets.send u hmem i e he
      have hyoung := h.younger u hmem i e he (by omega)
      have hold := hfirst t (hsub t ht)
      rw [hsrc, Bool.not_eq_false] at hsource
      rw [refsEqual_symm hsource] at hold
      simp only [Bool.not_true, Bool.false_or, decide_eq_true_eq] at hold
      omega

variable [DecidableEq σ] {a : Action cfg σ}

theorem Tracks.step (hd : t.effect = .cancel k d) (hsound : Sound s)
    (hs : s.step a = some s') : Tracks s₀ t k j s' :=
  have hspec := step_spec hsound hs
  h.work hd hsound hspec.sound hspec.work

theorem Tracks.runs (hd : t.effect = .cancel k d) (hsound : Sound s)
    (hrun : Runs System.step s s') : Tracks s₀ t k j s' :=
  (hrun.invariant (P := fun s => Sound s ∧ Tracks s₀ t k j s)
    (fun _ _ _ h hs => ⟨(step_spec h.1 hs).sound, h.2.step hd h.1 hs⟩) ⟨hsound, h⟩).2

omit h

theorem prepareCancel_tracks {s₁ : System cfg σ} {source : SessionRef} {sendId : Text}
    (h₀ : Sound s₀) (hprepare : s₀.step (.prepareCancel source sendId) = some s₁)
    (haccepted : s₁.tickets = s₀.tickets ++ [t]) :
    ∃ k j d, t.effect = .cancel k d ∧ t.source = source ∧
      (Fin.find? fun i => (s₀.router.rows i).delayedSend source sendId) = some j ∧
      Tracks s₀ t k j s₁ := by
  simp only [System.step, Option.some.injEq] at hprepare
  subst hprepare
  have htable := s₀.router.prepareCancel_rowTable source sendId
  rcases s₀.router.prepareCancel_cases source sendId with
    ⟨e, r', hr, -⟩ | ⟨j, k, hj, -, -, hr⟩
  · rw [hr] at haccepted
    simp [System.accept] at haccepted
  rw [hr] at haccepted htable ⊢
  simp only [System.accept, System.cancelEffect, setCancelRow, update_self,
    List.append_cancel_left_eq, List.cons.injEq, and_true] at haccepted
  subst haccepted
  refine ⟨k, j, _, rfl, rfl, hj, Nat.lt_succ_self _, le_rfl, fun _ => ?_, fun i hi _ => ?_,
    fun _ i hi hlt => ?_, fun u hu i e he hlt => ?_⟩
  · exact update_self ..
  · exact ⟨hi, rfl, rfl, rfl, rfl, id⟩
  · have hle := h₀.rows.identity i hi
    have hlt : s₀.router.nextRowIdentity < (s₀.router.rows i).identity := hlt
    omega
  · rcases List.mem_append.mp hu with hold | hnew
    · obtain ⟨hstate, hid, -⟩ := h₀.tickets.send u hold i e he
      have := h₀.rows.identity i (by simp [hstate])
      omega
    · rw [List.mem_singleton.mp hnew] at he
      cases he

end Tracks

/-! ## Committing the cancel -/

/-- The step takes row `i` out of the table as cancelled. -/
def Removed [DecidableEq σ] (s s' : System cfg σ) (i : Fin cfg.eventCapacity) : Prop :=
  (s'.router.rows i).state = .free ∧ s'.router.cancelled = s.router.cancelled + 1 ∧
    ∀ s'', Runs System.step s' s'' → (s.router.rows i).identity ∉ s''.deliveredIdentities

section Commit

variable {r : Router cfg σ} {i j : Fin cfg.eventCapacity} {k : Fin cfg.cancelCapacity}
  {source : SessionRef}

theorem cancelReleaseLocked_cancelled (r : Router cfg σ) (k : Fin cfg.cancelCapacity) :
    (r.cancelReleaseLocked k).cancelled = r.cancelled := by
  unfold cancelReleaseLocked
  split_ifs <;> rfl

theorem cancelCommit_eq (hk : (r.cancelRows k).inUse = true) :
    (r.cancelCommit k).rows = (r.cancelRow (r.cancelRows k)).rows ∧
      (r.cancelCommit k).cancelled = (r.cancelRow (r.cancelRows k)).cancelled := by
  unfold cancelCommit
  rw [if_neg (by simp [hk])]
  refine ⟨?_, cancelReleaseLocked_cancelled ..⟩
  exact congrArg Prod.fst (cancelReleaseLocked_rowTable
    { r.cancelRow (r.cancelRows k) with
      cancelCommitted := (r.cancelRow (r.cancelRows k)).cancelCommitted + 1 } k)

theorem cancelCommit_drops (h : Accounted r)
    (hk : r.cancelRows k = ⟨some i, source, (r.rows i).identity, true⟩)
    (hi : (r.rows i).state = .delayed) (hsource : refsEqual (r.rows i).source source = true) :
    (r.cancelCommit k).rows = update r.rows i .free ∧
      (r.cancelCommit k).cancelled = r.cancelled + 1 := by
  obtain ⟨hrows, hcancelled⟩ := cancelCommit_eq (r := r) (k := k) (by rw [hk])
  have hintent : r.intentRow (r.cancelRows k) = some i := by
    rw [hk]
    simp [intentRow, Option.filter]
  have hrow : r.cancelRow (r.cancelRows k) = releaseLocked { r with
      timerCancelled := r.timerCancelled + 1, cancelled := r.cancelled + 1 } i := by
    unfold cancelRow
    rw [hintent]
    dsimp only
    rw [if_pos ⟨by rw [hk]; exact hsource, .inr hi⟩]
  rw [hrows, hcancelled, hrow, releaseLocked_eq (r := { r with
    timerCancelled := r.timerCancelled + 1, cancelled := r.cancelled + 1 }) h.toRowsCounted
    (by simp [hi])]
  exact ⟨rfl, rfl⟩

theorem cancelCommit_spares (hk : (r.cancelRows k).inUse = true)
    (hi : (r.cancelRows k).target ≠ some i) : (r.cancelCommit k).rows i = r.rows i := by
  rw [(cancelCommit_eq hk).1]
  unfold cancelRow
  split
  · rfl
  rename_i l hl
  have hli : i ≠ l := by
    rintro rfl
    simp only [intentRow, Option.filter_eq_some_iff] at hl
    exact hi hl.1
  split_ifs
  · rcases releaseLocked_rows { r with
      timerCancelled := r.timerCancelled + 1, cancelled := r.cancelled + 1 } l with h | ⟨-, h⟩
    · rw [h]
    · rw [h, update_of_ne hli]
  · exact update_of_ne hli _ _
  · rfl

end Commit

theorem Row.pendingSend_of_delayedSend {source : SessionRef} {sendId : Text}
    (h : row.delayedSend source sendId = true) (hfired : row.fired = false) :
    row.pendingSend source sendId = true := by
  obtain ⟨hdelay, hused, hsource, hid⟩ := Row.delayedSend_iff.mp h
  refine Row.pendingSend_iff.mpr ⟨hdelay, ?_, hsource, hid⟩
  cases hstate : row.state <;> simp_all [Row.fired]

section Theorem

variable [DecidableEq σ] {s₀ s₁ s₂ s₃ : System cfg σ} {t : Ticket cfg} {source : SessionRef}
  {sendId : Text} {now : ℕ} {i : Fin cfg.eventCapacity}

/-- **What a cancel removes.** Prepared in `s₀` and committed in `s₂`, it removes the delayed send
of the pair exactly if the clock lane has not claimed it and no row of the pair before it had fired
in `s₀`. -/
theorem cancel_removes_iff (h₀ : s₀.Reachable)
    (hprepare : s₀.step (.prepareCancel source sendId) = some s₁)
    (haccepted : s₁.tickets = s₀.tickets ++ [t]) (hrun : Runs System.step s₁ s₂)
    (hcommit : s₂.step (.commit now t) = some s₃)
    (hi : (s₂.router.rows i).pendingSend source sendId = true) :
    (∀ j, (s₂.router.rows j).pendingSend source sendId = true → j = i) ∧
    (Removed s₂ s₃ i ↔ (s₂.router.rows i).state = .delayed ∧
      ∀ j < i, (s₀.router.rows j).delayedSend source sendId = true →
        (s₀.router.rows j).fired = false) := by
  obtain ⟨hsound₀, hunique₀, -⟩ := reachable_history h₀
  have h₁ : s₁.Reachable := h₀.next hprepare
  obtain ⟨hsound₂, hunique₂, hhistory₂⟩ := reachable_history (h₁.runs hrun)
  obtain ⟨k, j, d, hd, rfl, hj, htracks⟩ := prepareCancel_tracks hsound₀ hprepare haccepted
  have htracks₂ := htracks.runs hd (step_spec hsound₀ hprepare).sound hrun
  have hsound₃ := (step_spec hsound₂ hcommit).sound
  refine ⟨fun l hl => hunique₂ l i _ _ hl hi, ?_⟩
  simp only [System.step] at hcommit
  split_ifs at hcommit with hsettle
  cases hcommit
  have hmem : t ∈ s₂.tickets := by
    simp only [System.settleable, Bool.and_eq_true, List.contains_iff_mem] at hsettle
    exact hsettle.1
  have hintent := htracks₂.intent hmem
  have hinUse : (s₂.router.cancelRows k).inUse = true := by rw [hintent]
  have hrouter : (s₂.settle t (System.commitTicket s₂.router now t.effect)).router =
      s₂.router.cancelCommit k := by
    rw [hd]
    rfl
  obtain ⟨hdelay, hstates, hsource, hsend⟩ := Row.pendingSend_iff.mp hi
  by_cases hstate : (s₂.router.rows i).state = .delayed
  swap
  · -- a RESERVED or FIRING row is held, and this commit is not its holder's
    refine iff_of_false (fun hremoved => ?_) fun h => hstate h.1
    have hheld : (s₂.router.rows i).held = true := by
      rcases hstates with h | h | h
      · simp [Row.held, h]
      · exact absurd h hstate
      · simp [Row.held, h]
    have hstep : RowsStep none s₂.router (s₂.router.cancelCommit k) :=
      cancelCommit_rowsStep fun l hl => hsound₂.tickets.intentRow_settleable hsettle hd hl
    have hfree := hremoved.1
    rw [hrouter, (hstep.held hheld (by simp)).1] at hfree
    simp [Row.held, hfree] at hheld
  have hused : (s₂.router.rows i).state ≠ .free := by simp [hstate]
  have hidle : (s₂.router.rows i).identity ≤ s₀.router.nextRowIdentity := by
    by_contra hlt
    have := htracks₂.new hmem i hused (by omega) hsource
    rw [hstate] at this
    cases this
  obtain ⟨hused₀, hid₀, hsource₀, hsend₀, hdelay₀, hfired₀⟩ := htracks₂.old i hused hidle
  have hnotFired : (s₀.router.rows i).fired = false := by
    by_contra h
    have := hfired₀ (Bool.eq_true_of_not_eq_false h)
    simp [Row.fired, hstate] at this
  have hdelayed₀ : (s₀.router.rows i).delayedSend t.source sendId = true := by
    refine Row.delayedSend_iff.mpr ⟨?_, hused₀, ?_, ?_⟩
    · rwa [← hdelay₀]
    · rwa [← hsource₀]
    · rwa [← hsend₀]
  obtain ⟨hj', hfirst⟩ := Fin.find?_eq_some_iff.mp hj
  by_cases hji : j = i
  · subst hji
    refine iff_of_true ?_ ⟨hstate, fun l hl hdelayed => ?_⟩
    · obtain ⟨hrows, hcancelled⟩ := cancelCommit_drops hsound₂.accounted
        (by rw [hintent, hid₀]) hstate hsource
      have hgone : Gone (s₂.router.rows j).identity
          (s₂.settle t (System.commitTicket s₂.router now t.effect)) := by
        have hold := hsound₂.rows.identity j hused
        refine ⟨?_, fun l hl => ?_, fun he => (hhistory₂ _ he).2 j hused rfl⟩
        · rw [hrouter]
          have hstep : RowsStep none s₂.router (s₂.router.cancelCommit k) :=
            cancelCommit_rowsStep fun l hl => hsound₂.tickets.intentRow_settleable hsettle hd hl
          exact hold.trans hstep.nextRowIdentity_le
        · rw [hrouter, hrows] at hl ⊢
          by_cases hlj : l = j
          · rw [hlj, update_self] at hl
            exact absurd rfl hl
          · rw [update_of_ne hlj] at hl ⊢
            exact fun heq => hlj (hsound₂.rows.distinct l j hl hused heq)
      refine ⟨?_, ?_, fun s₄ hrun₄ => (hgone.runs hsound₃ hrun₄).2.2⟩
      · rw [hrouter, hrows, update_self]
        rfl
      · rw [hrouter, hcancelled]
    · rw [hfirst l hl] at hdelayed
      cases hdelayed
  · -- the intent points to a fired row before row `i`
    have hlt : j < i := by
      rcases lt_trichotomy j i with h | h | h
      · exact h
      · exact absurd h hji
      · rw [hfirst i h] at hdelayed₀
        cases hdelayed₀
    refine iff_of_false (fun hremoved => ?_) fun h => ?_
    · have hfree := hremoved.1
      rw [hrouter, cancelCommit_spares hinUse (by rw [hintent]; simpa using hji), hstate] at hfree
      cases hfree
    · refine hji (hunique₀ j i _ _ (Row.pendingSend_of_delayedSend hj' (h.2 j hlt hj')) ?_)
      exact Row.pendingSend_of_delayedSend hdelayed₀ hnotFired

end Theorem

/-! ## A cancel that finds its row, and one that misses -/

def cancelLone (s : System smallConfig Unit) : Option (System smallConfig Unit) :=
  s.step (.prepareCancel ⟨0, 1⟩ ['x'])

def cancelTicket (serial identity : ℕ) : Ticket smallConfig :=
  ⟨serial, ⟨0, 1⟩, .cancel ⟨0, by decide⟩ identity⟩

theorem delayedSendState_prepares : (cancelLone delayedSendState).isSome = true := by decide

theorem delayedSendState_commits : (((cancelLone delayedSendState).get
    delayedSendState_prepares).step (.commit 0 (cancelTicket 1 1))).isSome = true := by
  decide

theorem delayedSendState_removed :
    Removed ((cancelLone delayedSendState).get delayedSendState_prepares)
      ((((cancelLone delayedSendState).get delayedSendState_prepares).step
        (.commit 0 (cancelTicket 1 1))).get delayedSendState_commits) ⟨0, by decide⟩ :=
  (cancel_removes_iff (t := cancelTicket 1 1) delayedSendState_reachable
    (Option.some_get delayedSendState_prepares).symm (by decide) (Runs.refl _)
    (Option.some_get delayedSendState_commits).symm (by decide)).2.mpr ⟨by decide, by decide⟩

def resendRun : List (Action smallConfig Unit) :=
  [.runDueBegin 1, .runDueClaim 1000000, .runDueSettle true, .runDueClaim 1000000, .runDueFinish,
    .prepareTarget ⟨0, 1⟩ [] ['e'] ['x'] none 1, .commit 0 ⟨1, ⟨0, 1⟩, .send ⟨1, by decide⟩ 2⟩]

theorem resendRun_isSome : (exec System.step delayedSendState resendRun).isSome = true := by decide

def resendState : System smallConfig Unit :=
  (exec System.step delayedSendState resendRun).get resendRun_isSome

theorem resendState_reachable : resendState.Reachable :=
  delayedSendState_reachable.runs (exec_runs (Option.some_get resendRun_isSome).symm)

theorem resendState_prepares : (cancelLone resendState).isSome = true := by decide

theorem resendState_commits : (((cancelLone resendState).get resendState_prepares).step
    (.commit 0 (cancelTicket 2 1))).isSome = true := by
  decide

/-- **A cancel that misses.** The delayed row of the pair stays in the table. -/
theorem cancel_misses : ∃ s₀ s₁ s₂ : System smallConfig Unit, ∃ i, s₀.Reachable ∧
    s₀.step (.prepareCancel ⟨0, 1⟩ ['x']) = some s₁ ∧
    s₁.tickets = s₀.tickets ++ [cancelTicket 2 1] ∧
    s₁.step (.commit 0 (cancelTicket 2 1)) = some s₂ ∧
    (s₁.router.rows i).pendingSend ⟨0, 1⟩ ['x'] = true ∧
    (s₁.router.rows i).state = .delayed ∧ (s₂.router.rows i).state = .delayed ∧
    s₂.router.cancelled = s₁.router.cancelled ∧ ¬ Removed s₁ s₂ i :=
  ⟨resendState, _, _, ⟨1, by decide⟩, resendState_reachable,
    (Option.some_get resendState_prepares).symm, by decide,
    (Option.some_get resendState_commits).symm, by decide, by decide, by decide, by decide,
    fun hremoved => absurd hremoved.1 (by decide)⟩

end TurboScxml.Router
