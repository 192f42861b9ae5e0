import TurboScxml.Chttp.EgressSteps

/-!
# The BasicHTTP egress table releases its rows

* `Released`: the counters are right, and a settled closed binding has no rows left;
* **`rows_released_iff_regular`**: the counters are right in every run, the rows are released in
  every run of regular sections, and after every other section a run goes on to a state that keeps a
  row;
* `enobufs_leaks_row`: a run that leaks a row.
-/

namespace TurboScxml.Chttp

open Function Slots Machine Processor

variable {n : ℕ} {β : Type}

section Step

variable [DecidableEq β] {s s' : System n β} {i : Fin n}

theorem reachable_sound (h : System.Reachable s) : Sound s :=
  h.invariant (fun _ hs => hs ▸ init_sound) fun _ _ _ hs hstep => (step_spec hs hstep).sound

abbrev RegularlyReachable (s : System n β) : Prop :=
  Machine.Reachable (guarded regular System.step) System.Initial s

theorem regularlyReachable_cleared (h : RegularlyReachable s) : s.processor.Cleared := by
  have hboth : Sound s ∧ s.processor.Cleared := by
    refine Reachable.invariant (P := fun s => Sound s ∧ s.processor.Cleared) (fun s hs => ?_)
      (fun s a s' hs hstep => ?_) h
    · refine hs ▸ ⟨init_sound, fun i hi => ?_⟩
      cases hi
    · have hguard := guarded_eq_some hstep
      have hspec := step_spec hs.1 hguard.2
      exact ⟨hspec.sound, hspec.cleared hs.2 hguard.1⟩
  exact hboth.2

/-! ## The rows of a closed binding -/

def Worker.row : Worker n → Option (Fin n)
  | .submitting i => some i
  | .completing i _ => some i
  | .reporting i => some i
  | _ => none

/-- Nothing of the binding is outstanding. -/
structure Settled (s : System n β) (b : β) : Prop where
  tickets : ∀ i ∈ s.preparing ++ s.tickets, (s.processor.rows i).binding ≠ some b
  cancels : ∀ k ∈ s.cancels, ∀ i, (s.processor.cancelTickets k).target = some i →
    (s.processor.rows i).binding ≠ some b
  accepted : ∀ e ∈ s.accepted, (s.processor.rows e.2).binding ≠ some b
  worker : ∀ i, s.worker.row = some i ∨ s.callback = some i →
    (s.processor.rows i).binding ≠ some b

/-- The counters are right, and a settled closed binding has no rows left. -/
structure Released (s : System n β) : Prop where
  queued : s.processor.queuedEgress = tally Row.queued s.processor.rows
  inFlight : s.processor.inFlightEgress = tally Row.inFlight s.processor.rows
  references : ∀ b, (s.processor.bindings b).outboundReferences =
    tally (Row.boundTo b) s.processor.rows
  failures : s.processor.invariantFailures = 0
  closed : ∀ b, (s.processor.bindings b).isOpen = false → Settled s b →
    (∀ i, (s.processor.rows i).binding = some b → s.processor.states i = .free) ∧
      (s.processor.compositeIsQuiescent b true 0).2 = true

theorem Sound.row_free (h : Sound s) (hc : s.processor.Cleared) {b : β}
    (hclosed : (s.processor.bindings b).isOpen = false) (hsettled : Settled s b)
    (hi : (s.processor.rows i).binding = some b) : s.processor.states i = .free := by
  cases hstate : s.processor.states i with
  | free => rfl
  | reserved =>
    have hheld := (h.held i .reserved ⟨RowState.noConfusion, RowState.noConfusion⟩).mpr hstate
    exact absurd hi (hsettled.tickets i hheld)
  | ready =>
    have hopen := hc i hstate
    simp only [rowOpen, hi, hclosed] at hopen
    cases hopen
  | submitting =>
    have hheld := (h.held i .submitting ⟨RowState.noConfusion, RowState.noConfusion⟩).mpr hstate
    refine absurd hi (hsettled.worker i (.inl ?_))
    have hw : s.worker.submits = some i := hheld
    revert hw
    cases s.worker <;> simp [Worker.submits, Worker.row]
  | submitted =>
    have hheld := (h.held i .submitted ⟨RowState.noConfusion, RowState.noConfusion⟩).mpr hstate
    obtain ⟨e, he, rfl⟩ := List.mem_map.mp hheld
    exact absurd hi (hsettled.accepted e he)
  | completing =>
    have hheld := (h.held i .completing ⟨RowState.noConfusion, RowState.noConfusion⟩).mpr hstate
    refine absurd hi (hsettled.worker i ?_)
    rcases hheld with hw | hw
    · exact .inl (by rw [hw]; rfl)
    · exact .inr hw

theorem released_of_cleared (h : Sound s) (hc : s.processor.Cleared) : Released s := by
  refine ⟨h.counted.queued, h.counted.inFlight, h.counted.references, h.counted.failures,
    fun b hclosed hsettled => ⟨fun i hi => h.row_free hc hclosed hsettled hi, ?_⟩⟩
  have hnone : (s.processor.bindings b).outboundReferences = 0 := by
    rw [h.counted.references b]
    refine tally_eq_zero fun i => ?_
    by_contra hi
    have hbound : (s.processor.rows i).state ≠ .free ∧ (s.processor.rows i).binding = some b := by
      simpa [Row.boundTo] using hi
    exact hbound.1 (h.row_free hc hclosed hsettled hbound.2)
  unfold compositeIsQuiescent
  split
  · rfl
  · simp [hnone]
  · rename_i hquiescent hclosing
    revert hclosed hquiescent hclosing
    cases hstate : (s.processor.bindings b).state <;> simp [Binding.isOpen, hstate]

/-! ## A row that is left behind -/

/-- Row `i` waits for a closed binding. -/
structure Stuck (s : System n β) (i : Fin n) (b : β) : Prop where
  ready : s.processor.states i = .ready
  binding : (s.processor.rows i).binding = some b
  closed : (s.processor.bindings b).isOpen = false

theorem Stuck.settles (h : Stuck s i b) {j : Fin n} {state : RowState}
    (hset : Settles s.processor s'.processor j state) (hj : s.processor.states j ≠ .ready) :
    Stuck s' i b := by
  have hne : i ≠ j := by
    rintro rfl
    exact hj h.ready
  refine ⟨?_, ?_, (isOpen_of_frame hset.frame b).trans h.closed⟩
  · rw [hset.states, update_of_ne hne]
    exact h.ready
  · rw [hset.others i hne]
    exact h.binding

theorem Stuck.drained {b : β} (h : Sound s) (hw : s.worker = .idle) (hcallback : s.callback = none)
    (hstuck : Stuck s i b) : ∃ s', Runs System.step s s' ∧ s'.worker = .idle ∧
      s'.callback = none ∧ s'.accepted = [] ∧ s'.preparing = [] ∧ s'.tickets = [] ∧
      s'.cancels = [] ∧ Stuck s' i b := by
  induction hm : s.accepted.length + s.preparing.length + s.tickets.length + s.cancels.length
    using Nat.strong_induction_on generalizing s with
  | _ m ih =>
  subst hm
  have hnext : ∀ {t : System n β}, Runs System.step s t → Sound t → t.worker = .idle →
      t.callback = none → Stuck t i b →
      t.accepted.length + t.preparing.length + t.tickets.length + t.cancels.length <
        s.accepted.length + s.preparing.length + s.tickets.length + s.cancels.length →
      ∃ s', Runs System.step s s' ∧ s'.worker = .idle ∧ s'.callback = none ∧ s'.accepted = [] ∧
        s'.preparing = [] ∧ s'.tickets = [] ∧ s'.cancels = [] ∧ Stuck s' i b := by
    intro t hrun ht htw htc hts hlt
    obtain ⟨s', hrun', hrest⟩ := ih _ hlt ht htw htc hts rfl
    exact ⟨s', hrun.trans hrun', hrest⟩
  have hreserved : ∀ j ∈ s.preparing ++ s.tickets, s.processor.states j = .reserved :=
    fun j hj => h.reserved hj
  cases haccepted : s.accepted with
  | cons e rest =>
    obtain ⟨request, j⟩ := e
    have hj : (request, j) ∈ s.accepted := by simp [haccepted]
    have hsubmitted := h.submitted hj
    obtain ⟨q, report, heq, hset⟩ := completeBegin_settles h.counted (.inr hsubmitted) .completed
    let t : System n β := { s with
      processor := q
      callback := some j
      accepted := s.accepted.erase (request, j) }
    have hfirst : s.step (.requestComplete request j .completed) = some t := by
      have hguard : s.polling = true ∧ (request, j) ∈ s.accepted :=
        ⟨System.polling_iff.mpr ⟨hcallback, by rw [hw]; rfl⟩, hj⟩
      simp only [System.step, if_pos hguard, heq]
      rfl
    have ht := (step_spec h hfirst).sound
    have hend := completeEnd_settles ht.counted (ht.completing (i := j) (.inr rfl))
    have hsecond : t.step .requestCompleted = some { t with
        processor := t.processor.completeEnd j, callback := none } := rfl
    have hstuck' : Stuck t i b :=
      hstuck.settles hset (by rw [hsubmitted]; exact RowState.noConfusion)
    refine hnext ((Runs.single hfirst).trans (Runs.single hsecond))
      (step_spec ht hsecond).sound hw rfl
      (hstuck'.settles hend ?_) ?_
    · rw [ht.completing (i := j) (.inr rfl)]
      exact RowState.noConfusion
    · have hlength := List.length_erase_of_mem hj
      have hpos := List.length_pos_of_mem hj
      show (s.accepted.erase (request, j)).length + s.preparing.length + s.tickets.length +
        s.cancels.length < _
      omega
  | nil =>
  cases hpreparing : s.preparing with
  | cons j rest =>
    have hj : j ∈ s.preparing := by simp [hpreparing]
    have hstate := hreserved j (List.mem_append_left _ hj)
    have hset := dropReserved_settles h.counted hstate
    have hstep : s.step (.abortReserved j) = some { s with
        processor := s.processor.abortReserved j
        preparing := s.preparing.erase j } := by simp only [System.step, if_pos hj]
    refine hnext (Runs.single hstep) (step_spec h hstep).sound hw hcallback
      (hstuck.settles hset (by rw [hstate]; exact RowState.noConfusion)) ?_
    have hlength := List.length_erase_of_mem hj
    have hpos := List.length_pos_of_mem hj
    dsimp only
    omega
  | nil =>
  cases htickets : s.tickets with
  | cons j rest =>
    have hj : j ∈ s.tickets := by simp [htickets]
    have hstate := hreserved j (List.mem_append_right _ hj)
    have hset := dropReserved_settles h.counted hstate
    have hstep : s.step (.discard j) = some { s with
        processor := s.processor.egressDiscard j
        tickets := s.tickets.erase j } := by simp only [System.step, if_pos hj]
    refine hnext (Runs.single hstep) (step_spec h hstep).sound hw hcallback
      (hstuck.settles hset (by rw [hstate]; exact RowState.noConfusion)) ?_
    have hlength := List.length_erase_of_mem hj
    have hpos := List.length_pos_of_mem hj
    dsimp only
    omega
  | nil =>
  cases hcancels : s.cancels with
  | cons k rest =>
    have hk : k ∈ s.cancels := by simp [hcancels]
    have hstep : s.step (.cancelDiscard k) = some { s with
        processor := s.processor.cancelDiscard k
        cancels := s.cancels.erase k } := by simp only [System.step, if_pos hk]
    have heq : s.processor.cancelDiscard k = s.processor.releaseCancel k :=
      if_pos ((h.cancels k).mp hk)
    refine hnext (Runs.single hstep) (step_spec h hstep).sound hw hcallback ?_ ?_
    · rw [heq]
      exact ⟨hstuck.ready, hstuck.binding, hstuck.closed⟩
    · have hlength := List.length_erase_of_mem hk
      have hpos := List.length_pos_of_mem hk
      dsimp only
      omega
  | nil => exact ⟨s, .refl s, hw, hcallback, haccepted, hpreparing, htickets, hcancels, hstuck⟩

theorem Stuck.not_released {b : β} (h : Stuck s i b) (hw : s.worker = .idle)
    (hcallback : s.callback = none) (haccepted : s.accepted = []) (hpreparing : s.preparing = [])
    (htickets : s.tickets = []) (hcancels : s.cancels = []) : ¬ Released s := by
  intro hreleased
  have hsettled : Settled s b := by
    refine ⟨?_, ?_, ?_, ?_⟩
    · simp [hpreparing, htickets]
    · simp [hcancels]
    · simp [haccepted]
    · simp [hw, hcallback, Worker.row]
  have hfree := (hreleased.closed b h.closed hsettled).1 i h.binding
  rw [h.ready] at hfree
  cases hfree

/-- **What an irregular section leads to.** -/
theorem leak_of_irregular {a : Action n β} (h : Sound s) (hstep : s.step a = some s')
    (hirregular : regular s a = false) :
    ∃ s'', Runs System.step s' s'' ∧ ¬ Released s'' := by
  unfold regular at hirregular
  split at hirregular
  · split at hirregular
    · rename_i i hw
      have hi := h.submitting (i := i) (by rw [hw]; rfl)
      obtain ⟨-, ⟨hset, hidle⟩, -⟩ := submitAnswer_settles h.counted hi
      obtain ⟨b, hb⟩ := Option.ne_none_iff_exists'.mp
        (h.counted.bound i (by rw [hi]; exact RowState.noConfusion))
      have hsound := (step_spec h hstep).sound
      simp only [System.step, hw, Option.some.injEq] at hstep
      subst hstep
      have hcore := hset.core (by rw [hi]; exact RowState.noConfusion)
        (.inl (by rw [hi]; exact RowState.noConfusion)) RowState.noConfusion
      have hstuck : Stuck (s.worked (s.processor.submitAnswer i .enobufs)) i b := by
        refine ⟨?_, (congrArg Prod.fst hcore).trans hb,
          (isOpen_of_frame hset.frame b).trans (by simpa [rowOpen, hb] using hirregular)⟩
        show (s.processor.submitAnswer i .enobufs).1.states i = .ready
        rw [hset.states, update_self]
      obtain ⟨s'', hrun, hw', hcb, ha, hp, ht, hc, hleft⟩ := hstuck.drained hsound hidle
        (h.callback_none (by rw [hw]; rfl))
      exact ⟨s'', hrun, hleft.not_released hw' hcb ha hp ht hc⟩
    · cases hirregular
  · cases hirregular

/-- **Main.** The counters are right in every run. Regular runs release the rows, and every
irregular section can leave one for ever. -/
theorem rows_released_iff_regular :
    (∀ s : System n β, System.Reachable s → Counted s.processor) ∧
      (∀ s : System n β, RegularlyReachable s → Released s) ∧
      ∀ (s s' : System n β) (a : Action n β), System.Reachable s → s.step a = some s' →
        regular s a = false → ∃ s'', Runs System.step s' s'' ∧ ¬ Released s'' :=
  ⟨fun _ h => (reachable_sound h).counted,
    fun _ h => released_of_cleared (reachable_sound h.of_guarded) (regularlyReachable_cleared h),
    fun _ _ _ h hstep hirregular => leak_of_irregular (reachable_sound h) hstep hirregular⟩

end Step

/-! ## A run that leaks -/

def submittingRun : List (Action 2 Unit) :=
  [.activate (), .prepareSend () ['x'] 0, .finishSend 0, .commit 5 0, .submitSelect 5]

def completedRun : List (Action 2 Unit) :=
  submittingRun ++ [.submitAnswer (.ok 7), .close (), .cancelSelect, .cancelAnswer .ok,
    .requestComplete 7 0 .cancelled, .requestCompleted, .isQuiescent () true 0]

theorem completedRun_isSome :
    (exec (guarded regular System.step) (System.init 2 Unit) completedRun).isSome = true := by
  decide

def completedState : System 2 Unit :=
  (exec (guarded regular System.step) (System.init 2 Unit) completedRun).get completedRun_isSome

def closedRun : List (Action 2 Unit) := submittingRun ++ [.close ()]

theorem closedRun_isSome :
    (exec System.step (System.init 2 Unit) closedRun).isSome = true := by decide

def closedState : System 2 Unit :=
  (exec System.step (System.init 2 Unit) closedRun).get closedRun_isSome

theorem closedState_answers : (closedState.step (.submitAnswer .enobufs)).isSome = true := by decide

theorem completedState_rows_released : Counted closedState.processor ∧ Released completedState ∧
    ∃ s'', Runs System.step ((closedState.step (.submitAnswer .enobufs)).get closedState_answers)
      s'' ∧ ¬ Released s'' :=
  ⟨rows_released_iff_regular.1 closedState
    (.runs (.of_init rfl) (exec_runs (Option.some_get closedRun_isSome).symm)),
    rows_released_iff_regular.2.1 completedState
      (.runs (.of_init rfl) (exec_runs (Option.some_get completedRun_isSome).symm)),
    rows_released_iff_regular.2.2 closedState _ (.submitAnswer .enobufs)
      (.runs (.of_init rfl) (exec_runs (Option.some_get closedRun_isSome).symm))
      (Option.some_get closedState_answers).symm (by decide)⟩

def leakingRun : List (Action 2 Unit) := closedRun ++ [.submitAnswer .enobufs]

theorem leakingRun_isSome :
    (exec System.step (System.init 2 Unit) leakingRun).isSome = true := by decide

def leakingState : System 2 Unit :=
  (exec System.step (System.init 2 Unit) leakingRun).get leakingRun_isSome

theorem enobufs_leaks_row : ¬ ∀ s : System 2 Unit, System.Reachable s → Released s := by
  intro hall
  have hreach : System.Reachable leakingState :=
    .runs (.of_init rfl) (exec_runs (Option.some_get leakingRun_isSome).symm)
  have hsettled : Settled leakingState () :=
    ⟨by decide, by decide, by decide, by decide⟩
  have hquiescent := ((hall leakingState hreach).closed () (by decide) hsettled).2
  revert hquiescent
  decide

end TurboScxml.Chttp
