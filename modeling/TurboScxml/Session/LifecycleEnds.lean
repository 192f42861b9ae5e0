import TurboScxml.Session.LifecycleMoves

/-!
# The ends of a lifecycle effect

* `Proper`: what an effect looks like while it is in use;
* `Ended`: what the commit of an effect does to its row and to the counters (`commit_ended`);
* `GivenBack`: what the discard of an effect does to its row (`discard_givenBack`).
-/

namespace TurboScxml.Session

open Function

variable {cfg : Config}

/-- What an effect in use looks like. -/
structure InvocationEffect.Proper {n : ℕ} (x : InvocationEffect n) : Prop where
  inUse : x.inUse = true
  invocation : x.invocation.isSome = true
  kind : x.kind ≠ .unset
  ticket : x.adapterTicket.isSome = (x.kind == .start || x.kind == .forward)

namespace InvocationTable

variable {t : InvocationTable cfg} {e : Fin (cfg.effectCapacity + 1)}
  {i : Fin cfg.invocationCount} {x : InvocationEffect cfg.invocationCount}

def Reserves (x : InvocationEffect cfg.invocationCount) (i : Fin cfg.invocationCount) : Prop :=
  x.invocation = some i ∧ (x.kind = .start ∨ x.kind = .fail)

def ReservedFor (row : InvocationRow) (x : InvocationEffect cfg.invocationCount) : Prop :=
  reservedState x.kind = some row.state ∧ row.token = x.token

theorem not_reservedFor {row : InvocationRow} {x : InvocationEffect cfg.invocationCount}
    {state : InvocationState} (hstate : reservedState x.kind = some state)
    (hr : ¬(row.state = state ∧ row.token = x.token)) : ¬ReservedFor row x := by
  rintro ⟨hrow, htok⟩
  rw [hstate, Option.some.injEq] at hrow
  exact hr ⟨hrow.symm, htok⟩

inductive Ended (x : InvocationEffect cfg.invocationCount) (row : InvocationRow) (a : InvokeStats) :
    InvocationRow → InvokeStats → List ℕ → Prop
  | kept (b : InvokeStats) (hcore : CoreSame a b) (henter : x.kind ≠ .enter)
      (hexit : x.kind ≠ .exit) (hreserved : ¬ReservedFor row x) : Ended x row a row b []
  | entered (b : InvokeStats) (hcore : CoreSame a b) (hkind : x.kind = .enter) :
      Ended x row a (.blank .pending) b []
  | left (b : InvokeStats) (hcore : CoreSame a b) (hkind : x.kind = .exit)
      (hstate : row.state ≠ .active) : Ended x row a (.blank .inactive) b []
  | cancelled (b : InvokeStats) (hkind : x.kind = .exit) (hstate : row.state = .active)
      (hstarted : b.started = a.started) (hactive : b.active = a.active - 1)
      (hcompleted : b.completed = a.completed)
      (hcancelled : b.cancelled = incrementU64 a.cancelled ∧ b.cancelFailed = a.cancelFailed ∨
        b.cancelled = a.cancelled ∧ b.cancelFailed = incrementU64 a.cancelFailed) :
      Ended x row a (.blank .inactive) b []
  | started (b : InvokeStats) (hkind : x.kind = .start) (hstate : row.state = .startReserved)
      (htoken : row.token = x.token) (hstarted : b.started = incrementU64 a.started)
      (hactive : b.active = a.active + 1) (hcompleted : b.completed = a.completed)
      (hcancelled : b.cancelled = a.cancelled) (hfailed : b.cancelFailed = a.cancelFailed) :
      Ended x row a { row with state := .active } b []
  | failed (b : InvokeStats) (hcore : CoreSame a b) (hkind : x.kind = .fail)
      (hstate : row.state = .failReserved) (htoken : row.token = x.token) :
      Ended x row a { row with state := .failed } b []
  | completed (b : InvokeStats) (hkind : x.kind = .complete) (hstate : row.state = .active)
      (htoken : row.token = x.token) (hstarted : b.started = a.started)
      (hactive : b.active = a.active - 1) (hcompleted : b.completed = incrementU64 a.completed)
      (hcancelled : b.cancelled = a.cancelled) (hfailed : b.cancelFailed = a.cancelFailed) :
      Ended x row a (.blank .inactive) b [x.token]

/-! ## Commit -/

theorem cancelInvocation_frame (t : InvocationTable cfg) (answer : Answer) (admitted : Bool) :
    (t.cancelInvocation answer admitted).rows = t.rows ∧
      (t.cancelInvocation answer admitted).effects = t.effects ∧
      (t.cancelInvocation answer admitted).nextToken = t.nextToken := by
  unfold cancelInvocation
  dsimp only
  split_ifs <;> exact ⟨rfl, rfl, rfl⟩

theorem commitLocked_eq (hx : t.effects e = x) (huse : x.inUse = true)
    (hi : x.invocation = some i) :
    t.commitLocked e =
      (((t.setRow i (committedRow (t.rows i) t.stats x).1).setStats
          (committedRow (t.rows i) t.stats x).2.1).setEffect e { x with inUse := false },
        commitEnding x (committedRow (t.rows i) t.stats x).2.2.1
          (committedRow (t.rows i) t.stats x).2.2.2) := by
  simp [commitLocked, hx, huse, hi]

theorem committedTable_frame (hx : t.effects e = x) (huse : x.inUse = true)
    (hi : x.invocation = some i) (answer : Answer) (admitted : Bool) :
    (System.committedTable t e answer admitted).rows
        = update t.rows i (committedRow (t.rows i) t.stats x).1 ∧
      (System.committedTable t e answer admitted).effects
        = update t.effects e { x with inUse := false } ∧
      (System.committedTable t e answer admitted).nextToken = t.nextToken := by
  unfold System.committedTable
  rw [commitLocked_eq hx huse hi]
  split
  · obtain ⟨hrows, heffects, hnext⟩ := cancelInvocation_frame
      (((t.setRow i (committedRow (t.rows i) t.stats x).1).setStats
        (committedRow (t.rows i) t.stats x).2.1).setEffect e { x with inUse := false })
      answer admitted
    rw [hrows, heffects, hnext]
    exact ⟨rfl, rfl, rfl⟩
  · exact ⟨rfl, rfl, rfl⟩

theorem cancelInvocation_stats (t : InvocationTable cfg) (answer : Answer) (admitted : Bool) :
    (t.cancelInvocation answer admitted).stats.started = t.stats.started ∧
      (t.cancelInvocation answer admitted).stats.active = t.stats.active ∧
      (t.cancelInvocation answer admitted).stats.completed = t.stats.completed ∧
      ((t.cancelInvocation answer admitted).stats.cancelled = incrementU64 t.stats.cancelled ∧
          (t.cancelInvocation answer admitted).stats.cancelFailed = t.stats.cancelFailed ∨
        (t.cancelInvocation answer admitted).stats.cancelled = t.stats.cancelled ∧
          (t.cancelInvocation answer admitted).stats.cancelFailed
            = incrementU64 t.stats.cancelFailed) := by
  unfold cancelInvocation
  dsimp only
  split_ifs
  · exact ⟨rfl, rfl, rfl, .inl ⟨rfl, rfl⟩⟩
  · exact ⟨rfl, rfl, rfl, .inr ⟨rfl, rfl⟩⟩
  · exact ⟨rfl, rfl, rfl, .inr ⟨rfl, rfl⟩⟩

theorem committedTable_stats (hx : t.effects e = x) (huse : x.inUse = true)
    (hi : x.invocation = some i) (answer : Answer) (admitted : Bool)
    (hnone : (committedRow (t.rows i) t.stats x).2.2.2 = none) :
    (System.committedTable t e answer admitted).stats
      = (committedRow (t.rows i) t.stats x).2.1 := by
  unfold System.committedTable
  have hending : ∀ token id, (t.commitLocked e).2 ≠ .cancel token id := by
    intro token id
    rw [commitLocked_eq hx huse hi, hnone]
    unfold commitEnding
    dsimp only
    (repeat' split) <;> simp_all
  split
  · rename_i token id hcancel
    exact absurd hcancel (hending token id)
  · rw [commitLocked_eq hx huse hi]
    rfl

/-- **What a commit does.** -/
theorem commit_ended (hx : t.effects e = x) (hproper : x.Proper) (hi : x.invocation = some i)
    (htoken : (t.rows i).state = .active → (t.rows i).token ≠ 0) (answer : Answer)
    (admitted : Bool) :
    ∃ row, (System.committedTable t e answer admitted).rows = update t.rows i row ∧
      Ended x (t.rows i) t.stats row (System.committedTable t e answer admitted).stats
        (System.completedBy t x) := by
  obtain ⟨hrows, -, -⟩ := committedTable_frame hx hproper.inUse hi answer admitted
  refine ⟨_, hrows, ?_⟩
  have hstats := committedTable_stats hx hproper.inUse hi answer admitted
  have hticket := hproper.ticket
  cases hkind : x.kind with
  | unset => exact absurd hkind hproper.kind
  | enter =>
    rw [hstats (by simp [committedRow, hkind])]
    simpa [committedRow, hkind, System.completedBy] using Ended.entered _ (.refl _) hkind
  | exit =>
    by_cases hactive : (t.rows i).state = .active
    · -- the row is active: the adapter is asked to cancel the invocation
      have hnone : x.adapterTicket = none :=
        Option.not_isSome_iff_eq_none.mp (by rw [hticket, hkind]; decide)
      have hending : (t.commitLocked e).2 = .cancel (t.rows i).token (t.rows i).id := by
        rw [commitLocked_eq hx hproper.inUse hi]
        simp [committedRow, commitEnding, hkind, hactive, hnone, htoken hactive]
      have htable : System.committedTable t e answer admitted
          = (t.commitLocked e).1.cancelInvocation answer admitted := by
        simp only [System.committedTable, hending]
      obtain ⟨hstarted, hact, hcompleted, hcancelled⟩ :=
        cancelInvocation_stats (t.commitLocked e).1 answer admitted
      have hlocked : (t.commitLocked e).1.stats
          = { t.stats with active := t.stats.active - 1 } := by
        rw [commitLocked_eq hx hproper.inUse hi]
        simp [committedRow, hkind, hactive, setEffect, setStats]
      rw [htable]
      rw [hlocked] at hstarted hact hcompleted hcancelled
      simpa [committedRow, hkind, hactive, System.completedBy] using
        Ended.cancelled (a := t.stats) _ hkind hactive hstarted hact hcompleted hcancelled
    · rw [hstats (by simp [committedRow, hkind, hactive])]
      simpa [committedRow, hkind, hactive, System.completedBy] using
        Ended.left _ (.refl _) hkind hactive
  | start =>
    rw [hstats (by simp only [committedRow, hkind]; split_ifs <;> rfl)]
    by_cases hr : (t.rows i).state = .startReserved ∧ (t.rows i).token = x.token
    · simpa [committedRow, hkind, hr, System.completedBy] using
        Ended.started (a := t.stats) { t.stats with
          started := incrementU64 t.stats.started, active := t.stats.active + 1 }
          hkind hr.1 hr.2 rfl rfl rfl rfl rfl
    · have hnot := not_reservedFor (congrArg reservedState hkind) hr
      simpa [committedRow, hkind, hr, System.completedBy] using
        Ended.kept _ (.refl _) (by simp [hkind]) (by simp [hkind]) hnot
  | fail =>
    rw [hstats (by simp only [committedRow, hkind]; split_ifs <;> rfl)]
    by_cases hr : (t.rows i).state = .failReserved ∧ (t.rows i).token = x.token
    · simpa [committedRow, hkind, hr, System.completedBy] using
        Ended.failed (a := t.stats) { t.stats with startFailed := incrementU64 t.stats.startFailed }
          ⟨rfl, rfl, rfl, rfl, rfl⟩ hkind hr.1 hr.2
    · have hnot := not_reservedFor (congrArg reservedState hkind) hr
      simpa [committedRow, hkind, hr, System.completedBy] using
        Ended.kept _ (.refl _) (by simp [hkind]) (by simp [hkind]) hnot
  | complete =>
    rw [hstats (by simp only [committedRow, hkind]; split_ifs <;> rfl)]
    by_cases hr : (t.rows i).state = .active ∧ (t.rows i).token = x.token
    · simpa [committedRow, hkind, hr, hi, System.completedBy] using
        Ended.completed (a := t.stats) { t.stats with
          active := t.stats.active - 1, completed := incrementU64 t.stats.completed }
          hkind hr.1 hr.2 rfl rfl rfl rfl rfl
    · simpa [committedRow, hkind, hr, hi, System.completedBy] using
        Ended.kept _ (.refl _) (by simp [hkind]) (by simp [hkind])
          (by simp [ReservedFor, reservedState, hkind])
  | forward =>
    rw [hstats (by simp [committedRow, hkind])]
    simpa [committedRow, hkind, System.completedBy] using
      Ended.kept (a := t.stats) { t.stats with forwarded := incrementU64 t.stats.forwarded }
        ⟨rfl, rfl, rfl, rfl, rfl⟩ (by simp [hkind]) (by simp [hkind])
        (by simp [ReservedFor, reservedState, hkind])

/-! ## Discard -/

inductive GivenBack (x : InvocationEffect cfg.invocationCount) (row : InvocationRow) :
    InvocationRow → Prop
  | kept (hreserved : ¬ReservedFor row x) : GivenBack x row row
  | pending (hreserved : ReservedFor row x) : GivenBack x row (.blank .pending)

/-- **What a discard does.** -/
theorem discard_givenBack (hx : t.effects e = x) (huse : x.inUse = true)
    (hi : x.invocation = some i) :
    (∃ row, (t.discardInvocationLifecycle e).1.rows = update t.rows i row ∧
        GivenBack x (t.rows i) row) ∧
      (t.discardInvocationLifecycle e).1.effects = update t.effects e { x with inUse := false } ∧
      (t.discardInvocationLifecycle e).1.nextToken = t.nextToken ∧
      (t.discardInvocationLifecycle e).1.stats = t.stats := by
  unfold discardInvocationLifecycle
  simp only [hx, huse, hi, Bool.not_true, Bool.false_eq_true, if_false]
  cases hreserved : reservedState x.kind with
  | none =>
    refine ⟨⟨t.rows i, by simp [setEffect], .kept ?_⟩, rfl, rfl, rfl⟩
    simp [ReservedFor, hreserved]
  | some state =>
    dsimp only
    split_ifs with hr
    · exact ⟨⟨_, rfl, .pending ⟨by rw [hreserved, hr.1], hr.2⟩⟩, rfl, rfl, rfl⟩
    · refine ⟨⟨t.rows i, by simp [setEffect], .kept ?_⟩, rfl, rfl, rfl⟩
      exact not_reservedFor hreserved hr

end InvocationTable

end TurboScxml.Session
