import TurboScxml.Router.Accounting
import TurboScxml.Router.System

/-!
# When rows become READY, and what the drain takes

* `Aloof`: a section outside the drain leaves the drain flag alone and drops rows, or moves one as
  `Moved` says; one lemma for each section;
* `dueRow_least`, `oldestReady_least`: what the two lanes choose.
-/

namespace TurboScxml.Router

open Function Slots Machine

variable {cfg : Config} {σ : Type}

/-! ## What the lanes choose -/

variable {i j : Fin cfg.eventCapacity}

section Choice

variable {r : Router cfg σ}

/-- The clock claims the due row with the least deadline that was committed first. -/
theorem dueRow_least {now : ℕ} (h : r.dueRow now = some i) :
    (r.rows i).state = .delayed ∧ (r.rows i).deadlineNs ≤ now ∧
      ∀ j, (r.rows j).state = .delayed → (r.rows j).deadlineNs ≤ now →
        r.activeAt (r.rows j).source = true →
        (r.rows i).deadlineNs < (r.rows j).deadlineNs ∨
          (r.rows i).deadlineNs = (r.rows j).deadlineNs ∧
            (r.rows i).sequence ≤ (r.rows j).sequence := by
  have hel := bestSlot_eligible h
  simp only [Bool.and_eq_true, beq_iff_eq, decide_eq_true_eq] at hel
  refine ⟨hel.1.1, hel.1.2, fun j hstate hdue hactive => ?_⟩
  have hbest := bestSlot_best (fun i => by simp) (fun i j k => by
    simp only [Bool.or_eq_true, Bool.and_eq_true, beq_iff_eq, decide_eq_true_eq]
    omega) h j (by simp [hstate, hdue, hactive])
  simp only [Bool.or_eq_false_iff, Bool.and_eq_false_iff, beq_eq_false_iff_ne,
    decide_eq_false_iff_not] at hbest
  omega

theorem oldestReady_least (h : r.oldestReady = some j) :
    (r.rows j).state = .ready ∧
      ∀ i, (r.rows i).state = .ready → (r.rows j).sequence ≤ (r.rows i).sequence := by
  refine ⟨by simpa using bestSlot_eligible h, fun i hi => ?_⟩
  have hbest := bestSlot_best (fun i => by simp) (fun i j k => by
    simp only [decide_eq_true_eq]
    omega) h i (by simp [hi])
  simpa using hbest

end Choice

/-! ## Sections outside the drain -/

inductive Moved (n n' : ℕ) (row row' : Row) : Prop
  | reserved (h : row'.state = .reserved)
  | committed (hold : row.state = .free ∨ row.state = .reserved)
      (hstate : row'.state = if row'.delayMs ≠ 0 then .delayed else .ready)
      (hseq : row'.sequence = n + 1) (hnext : n' = n + 1)
  | fired (hold : row.state = .delayed ∧ row'.state = .firing ∨
        row.state = .firing ∧ (row'.state = .firing ∨ row'.state = .ready))
      (hseq : row'.sequence = row.sequence) (hdelay : row'.delayMs = row.delayMs)

def pace (r : Router cfg σ) : Bool × ℕ := (r.draining, r.nextSequence)

/-- A section outside the drain drops rows, or moves one. -/
structure Aloof (r r' : Router cfg σ) : Prop where
  moves : (∀ i, r'.rows i = r.rows i ∨ r'.rows i = .free) ∨
    ∃ i, Moved r.nextSequence r'.nextSequence (r.rows i) (r'.rows i) ∧
      ∀ j, j ≠ i → r'.rows j = r.rows j
  draining : r'.draining = r.draining
  sequence : r.nextSequence ≤ r'.nextSequence

section Aloof

variable {r r' : Router cfg σ}

theorem Aloof.of_drop (h : ∀ i, r'.rows i = r.rows i ∨ r'.rows i = .free)
    (hp : r'.pace = r.pace) : Aloof r r' :=
  ⟨.inl h, congrArg Prod.fst hp, (congrArg Prod.snd hp).ge⟩

theorem Aloof.of_update {row : Row} (h : r'.rows = update r.rows i row)
    (hrow : Moved r.nextSequence r'.nextSequence (r.rows i) row) (hd : r'.draining = r.draining)
    (hseq : r.nextSequence ≤ r'.nextSequence) : Aloof r r' := by
  refine ⟨.inr ⟨i, ?_, fun j hj => ?_⟩, hd, hseq⟩
  · rw [h, update_self]
    exact hrow
  · rw [h, update_of_ne hj]

theorem Aloof.same (h : r'.rows = r.rows) (hp : r'.pace = r.pace) : Aloof r r' :=
  .of_drop (fun i => .inl (by rw [h])) hp

theorem Aloof.congr {r'' : Router cfg σ} (h : Aloof r r') (hrows : r''.rows = r'.rows)
    (hp : r''.pace = r'.pace) : Aloof r r'' := by
  have hseq : r''.nextSequence = r'.nextSequence := congrArg Prod.snd hp
  refine ⟨?_, (congrArg Prod.fst hp).trans h.draining, hseq ▸ h.sequence⟩
  rw [hrows, hseq]
  exact h.moves

theorem Aloof.of_work (h : r'.work = r.work) : Aloof r r' :=
  .same (congrArg (·.1) h) (congrArg (·.2.2.2) h)

theorem Refused.aloof (h : Refused r r') : Aloof r r' := by
  cases h <;> exact .same rfl rfl

theorem accepted_aloof {row : Row} (hrow : Reserves r row) : Aloof r (r.accepted i row) :=
  .of_update rfl (.reserved hrow.state) rfl le_rfl

variable (r)

theorem releaseLocked_pace (i : Fin cfg.eventCapacity) : (r.releaseLocked i).pace = r.pace := by
  simp only [releaseLocked, dropReserved, dropTimer, setRow, violated]
  split_ifs <;> rfl

theorem releaseLocked_drops (i j : Fin cfg.eventCapacity) :
    (r.releaseLocked i).rows j = r.rows j ∨ (r.releaseLocked i).rows j = .free := by
  rcases r.releaseLocked_rows i with h | ⟨-, h⟩
  · exact .inl (by rw [h])
  · rw [h]
    by_cases hj : j = i
    · exact .inr (by rw [hj, update_self])
    · exact .inl (by rw [update_of_ne hj])

variable {r}

theorem releaseLocked_aloof {r₁ : Router cfg σ} (hrows : r₁.rows = r.rows)
    (hp : r₁.pace = r.pace) (i : Fin cfg.eventCapacity) : Aloof r (r₁.releaseLocked i) := by
  refine .of_drop (fun j => ?_) ((r₁.releaseLocked_pace i).trans hp)
  rw [← hrows]
  exact r₁.releaseLocked_drops i j

theorem dropRow_pace (i : Fin cfg.eventCapacity) : (r.dropRow i).pace = r.pace := by
  refine (releaseLocked_pace _ i).trans ?_
  split <;> rfl

theorem dropRows_pace (p : Row → Bool) : (r.dropRows p).1.pace = r.pace :=
  sweep_induction (fun _ (s : Router cfg σ × ℕ) => s.1.pace = r.pace) rfl fun i s ih => by
    split
    · exact (dropRow_pace i).trans ih
    · exact ih

theorem dropRows_aloof (p : Row → Bool) : Aloof r (r.dropRows p).1 := by
  refine .of_drop (fun i => ?_) (dropRows_pace p)
  rcases (dropRows_rows p r).1 i with h | ⟨h, -⟩
  · exact .inl h
  · exact .inr h

variable (r)

theorem abort_aloof (ref : SessionRef) : Aloof r (r.abort ref).1 := by
  unfold abort
  split
  · exact .same rfl rfl
  split
  · exact .same rfl rfl
  split
  · exact .same rfl rfl
  · exact dropRows_aloof _

theorem cancel_aloof (target : SessionRef) : Aloof r (r.cancel target).1 := by
  unfold cancel
  split
  · exact .same rfl rfl
  · exact dropRows_aloof _

theorem cancelSource_aloof (source : SessionRef) : Aloof r (r.cancelSource source).1 := by
  unfold cancelSource
  split
  · exact .same rfl rfl
  · exact dropRows_aloof _

theorem close_aloof : Aloof r r.close.1 := by
  unfold close
  split
  · exact .same rfl rfl
  · have h := dropRows_aloof (r := { r with closed := true })
      fun row => row.state == .ready || row.state == .delayed
    exact ⟨h.moves, h.draining, h.sequence⟩

theorem ticketCommit_aloof (now : ℕ) (i : Fin cfg.eventCapacity) :
    Aloof r (r.ticketCommit now i) := by
  unfold ticketCommit commitLocked
  dsimp only
  split
  · exact .same rfl rfl
  · rename_i hstate
    have hreserved : (r.rows i).state = .reserved := by simpa using hstate
    split
    · refine releaseLocked_aloof ?_ ?_ i <;> rfl
    · refine .of_update rfl (.committed (.inr hreserved) ?_ ?_ rfl) rfl (Nat.le_succ _)
      · simp only [committedRow]
        split <;> simp_all
      · simp only [committedRow]
        split <;> rfl

theorem ticketDiscard_aloof (i : Fin cfg.eventCapacity) : Aloof r (r.ticketDiscard i) := by
  unfold ticketDiscard
  split
  · exact .same rfl rfl
  · refine releaseLocked_aloof ?_ ?_ i <;> rfl

variable (k : Fin cfg.cancelCapacity)

theorem cancelReleaseLocked_pace : (r.cancelReleaseLocked k).pace = r.pace := by
  unfold cancelReleaseLocked
  split <;> rfl

theorem cancelRow_aloof (intent : CancelRow cfg.eventCapacity) : Aloof r (r.cancelRow intent) := by
  unfold cancelRow
  split
  · exact .same rfl rfl
  split
  · refine releaseLocked_aloof ?_ ?_ _ <;> rfl
  split
  · rename_i i _ _ hfiring
    exact .of_update (i := i) rfl (.fired (.inr ⟨hfiring, .inl hfiring⟩) rfl rfl) rfl le_rfl
  · exact .same rfl rfl

theorem cancelCommit_aloof : Aloof r (r.cancelCommit k) := by
  unfold cancelCommit
  dsimp only
  split
  · exact .same rfl rfl
  · have hrow := r.cancelRow_aloof (r.cancelRows k)
    generalize r.cancelRow (r.cancelRows k) = r₁ at hrow
    exact hrow.congr (congrArg Prod.fst (cancelReleaseLocked_rowTable
      { r₁ with cancelCommitted := r₁.cancelCommitted + 1 } k)) (cancelReleaseLocked_pace _ k)

theorem cancelDiscard_aloof : Aloof r (r.cancelDiscard k) := by
  unfold cancelDiscard
  split
  · exact .same rfl rfl
  · exact .same (congrArg Prod.fst (cancelReleaseLocked_rowTable
      { r with cancelDiscarded := r.cancelDiscarded + 1 } k)) (cancelReleaseLocked_pace _ k)

theorem runDueClaim_aloof (now count maxFires : ℕ) :
    Aloof r (r.runDueClaim now count maxFires).1 := by
  unfold runDueClaim
  split
  · exact .same rfl rfl
  split
  · exact .same rfl rfl
  split
  · exact .same rfl rfl
  · rename_i i hi
    have hdelayed : (r.rows i).state = .delayed := (dueRow_least hi).1
    exact .of_update rfl (.fired (.inl ⟨hdelayed, rfl⟩) rfl rfl) rfl le_rfl

theorem runDueSettle_aloof (settled : Bool) (i : Fin cfg.eventCapacity) (count maxFires : ℕ) :
    Aloof r (r.runDueSettle settled i count maxFires).1 := by
  unfold runDueSettle
  dsimp only
  split
  · exact .same rfl rfl
  · rename_i hstate
    have hfiring : (r.rows i).state = .firing := by simpa using hstate
    split
    · split
      · refine releaseLocked_aloof ?_ ?_ i <;> rfl
      · refine releaseLocked_aloof ?_ ?_ i <;> rfl
    split
    · refine releaseLocked_aloof ?_ ?_ i <;> rfl
    · exact .of_update rfl (.fired (.inr ⟨hfiring, .inr rfl⟩) rfl rfl) rfl le_rfl

end Aloof

def Action.onDrain : Action cfg σ → Bool
  | .drainBegin _ | .drainClaim | .drainSettle _ | .drainFinish => true
  | _ => false

variable {r : Router cfg σ}

theorem prepareCancel_pace (source : SessionRef) (sendId : Text) :
    (r.prepareCancel source sendId).1.pace = r.pace := by
  unfold prepareCancel; dsimp only; (repeat' split) <;> rfl

/-! ## The sections of the drain -/

section Drain

variable {r : Router cfg σ}

theorem drainSettle_pace (status : MailboxStatus) (j : Fin cfg.eventCapacity)
    (count maxEvents : ℕ) :
    (r.drainSettle status j count maxEvents).1.pace = r.pace := by
  unfold drainSettle
  split
  · rfl
  split
  · exact r.releaseLocked_pace j
  split
  · exact releaseLocked_pace { r with cancelled := r.cancelled + 1 } j
  · split <;> rfl

theorem drainSettle_rows (hj : (r.rows j).state = .inflight) (status : MailboxStatus)
    (count maxEvents : ℕ) :
    (∀ i, (r.drainSettle status j count maxEvents).1.rows i = r.rows i ∨
      (r.drainSettle status j count maxEvents).1.rows i = .free) ∨
    status ≠ .ok ∧ (r.drainSettle status j count maxEvents).1.rows =
      update r.rows j { r.rows j with state := .ready } := by
  unfold drainSettle
  rw [if_neg (by simp [hj])]
  split
  · exact .inl (r.releaseLocked_drops j)
  · rename_i hok
    split
    · exact .inl (releaseLocked_drops { r with cancelled := r.cancelled + 1 } j)
    · right
      split <;> exact ⟨hok, rfl⟩

theorem drainSettle_settles (h : Accounted r) (hj : (r.rows j).state = .inflight)
    (status : MailboxStatus) (count maxEvents : ℕ) :
    ((r.drainSettle status j count maxEvents).1.rows j).state ≠ .inflight := by
  have hused : (r.rows j).state ≠ .free := by simp [hj]
  unfold drainSettle
  rw [if_neg (by simp [hj])]
  split
  · simp [releaseLocked_eq h.toRowsCounted hused, freed, Row.free]
  split
  · simp [releaseLocked_eq (r := { r with cancelled := r.cancelled + 1 }) h.toRowsCounted hused,
      freed, Row.free]
  · split <;> simp [setRow]

end Drain

end TurboScxml.Router
