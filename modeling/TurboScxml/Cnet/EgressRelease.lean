import TurboScxml.Cnet.EgressInvariant

/-!
# The CNet egress adapter releases its rows

* `regular`: the section is not one of the two of the pump that ignore the end of the connection;
* **`released_iff_regular`**: the rows are released in every run of regular sections, and after
  every other section a run goes on to a state that keeps a row;
* `terminal_leaks_row`: a run that leaks a row.
-/

namespace TurboScxml.Cnet

open Function Slots Machine

namespace Egress

variable {cfg : Config}

section Step

variable {s s' : System cfg}

/-- No row is left to an ended connection, unless the adapter is closed. -/
def regular (s : System cfg) : Action cfg → Bool
  | .pumpBuffer given => given || s.egress.closed || !s.egress.terminal
  | .pumpSettle status => status != .ok || !s.egress.terminal
  | _ => true

/-- **One step.** -/
theorem step_sound (h : Sound s) {a : Action cfg} (hstep : s.step a = some s') :
    Sound s' ∧ (Cleared s → regular s a = true → Cleared s') := by
  cases a with
  | bind connection =>
    cases hstep
    exact ⟨(bind_sound h connection).1, fun hc _ => (bind_sound h connection).2 hc⟩
  | prepareSend request =>
    rcases prepareSend_cases s.egress request with
      ⟨refusal, e, heq, hstates, hface, hcounted⟩ | ⟨i, bytes, heq, hi, hopen⟩
    · simp only [System.step, heq, Option.some.injEq] at hstep
      cases hstep
      exact ⟨h.count hstates (hcounted h.counted) hface,
        fun hc _ => hc.keep hstates (congrArg (·.2.1) hface)⟩
    · simp only [System.step, heq, Option.some.injEq] at hstep
      cases hstep
      exact ⟨(reserve_sound h hi hopen).1, fun hc _ => (reserve_sound h hi hopen).2 hc⟩
  | commit i =>
    simp only [System.step] at hstep
    split at hstep
    · rename_i hi
      cases hstep
      exact ⟨(commit_sound h hi).1, fun hc _ => (commit_sound h hi).2 hc⟩
    · cases hstep
  | discard i =>
    simp only [System.step] at hstep
    split at hstep
    · rename_i hi
      cases hstep
      exact ⟨(discard_sound h hi).1, fun hc _ => (discard_sound h hi).2 hc⟩
    · cases hstep
  | observeState connection state =>
    cases hstep
    have hkeep := observeState_sound h connection state
    exact ⟨hkeep.1, fun hc _ => hkeep.2 hc⟩
  | observeSend connection size =>
    cases hstep
    have hkeep := observeSend_sound h connection size
    exact ⟨hkeep.1, fun hc _ => hkeep.2 hc⟩
  | close =>
    cases hstep
    exact ⟨(close_sound h).1, fun hc _ => (close_sound h).2 hc⟩
  | pumpBegin maxWrites =>
    simp only [System.step] at hstep
    split at hstep
    · rename_i e lane hbegin
      cases hstep
      exact ⟨(pumpBegin_sound h hbegin).1, fun hc _ => (pumpBegin_sound h hbegin).2 hc⟩
    · rename_i e status hbegin
      cases hstep
      obtain rfl := pumpBegin_error hbegin
      exact ⟨h, fun hc _ => hc⟩
  | pumpClaim =>
    simp only [System.step] at hstep
    split at hstep
    · rename_i hlane
      cases hstep
      exact ⟨(pumpClaim_sound h hlane).1, fun hc _ => (pumpClaim_sound h hlane).2 hc⟩
    · cases hstep
  | pumpBuffer given =>
    simp only [System.step] at hstep
    split at hstep
    · rename_i hlane
      cases hstep
      exact pumpBuffer_sound h given hlane
    · cases hstep
  | pumpSettle status =>
    simp only [System.step] at hstep
    split at hstep
    · rename_i hlane
      cases hstep
      exact pumpSettle_sound h status hlane
    · cases hstep
  | pumpFinish =>
    simp only [System.step] at hstep
    split at hstep
    · rename_i hlane
      cases hstep
      exact ⟨pumpFinish_sound h (by rw [hlane]; rfl), fun hc _ => hc.keep rfl rfl⟩
    · cases hstep

theorem reachable_sound (h : System.Reachable s) : Sound s :=
  h.invariant (fun _ hs => hs.2 ▸ init_sound) fun _ _ _ hs hstep => (step_sound hs hstep).1

abbrev RegularlyReachable (s : System cfg) : Prop :=
  Machine.Reachable (guarded regular System.step) System.Initial s

theorem regularlyReachable_cleared (h : RegularlyReachable s) : Cleared s := by
  have hboth : Sound s ∧ Cleared s := by
    refine Reachable.invariant (P := fun s => Sound s ∧ Cleared s) (fun s hs => ?_)
      (fun s a s' hs hstep => ?_) h
    · refine hs.2 ▸ ⟨init_sound, fun hc => ?_⟩
      cases hc
    · have hguard := guarded_eq_some hstep
      have hkeep := step_sound hs.1 hguard.2
      exact ⟨hkeep.1, hkeep.2 hs.2 hguard.1⟩
  exact hboth.2

end Step

/-- An ended connection leaves the rows of live tickets only. -/
structure Released (s : System cfg) : Prop where
  pending : s.egress.pending = tally Row.used s.egress.rows
  terminal : s.egress.terminal = true → s.egress.pumping = false →
    ∀ i, (s.egress.rows i).state ≠ .free → (s.egress.rows i).state = .reserved
  quiescent : s.egress.closed = true → (s.egress.bound = true → s.egress.terminal = true) →
    s.egress.pumping = false → s.tickets = [] → s.egress.adapterQuiescent = true

variable {s : System cfg}

theorem released_of_cleared (h : Sound s) (hc : Cleared s) : Released s := by
  have hidle : s.egress.pumping = false → s.pump = .idle := by
    intro hp
    by_contra hl
    rw [h.pumping.mpr hl] at hp
    cases hp
  have hsubmitting : s.egress.pumping = false → ∀ i, s.egress.states i ≠ .submitting := by
    intro hp i hi
    have := (h.submitting i).mpr hi
    rw [hidle hp] at this
    cases this
  refine ⟨h.counted, fun ht hp i hused => ?_, fun hclosed hbound hp htickets => ?_⟩
  · have hterminated := hc ht i
    have hnot := hsubmitting hp i
    have hused' : s.egress.states i ≠ .free := hused
    show s.egress.states i = .reserved
    revert hterminated hnot hused'
    cases s.egress.states i <;> simp [RowState.terminated]
  · have hfree : ∀ i, (s.egress.rows i).used = false := by
      intro i
      have hready := h.closed hclosed i
      have hnot := hsubmitting hp i
      have hreserved : s.egress.states i ≠ .reserved := by
        intro hr
        have := (h.reserved i).mpr hr
        rw [htickets] at this
        cases this
      have hsubmitted : s.egress.states i ≠ .submitted := by
        intro hs
        have hterminated := hc (hbound (h.bound i hs)) i
        rw [hs] at hterminated
        cases hterminated
      have hstate : s.egress.states i = .free := by
        revert hready hnot hreserved hsubmitted
        cases s.egress.states i <;> simp
      have hrow : (s.egress.rows i).state = .free := hstate
      simp [Row.used, hrow]
    have hpending : s.egress.pending = 0 := by
      rw [h.counted]
      exact tally_eq_zero hfree
    have hend : (!s.egress.bound || s.egress.terminal) = true := by
      cases hb : s.egress.bound with
      | false => rfl
      | true => simp [hbound hb]
    simp [adapterQuiescent, hclosed, hp, hpending, hend]

theorem not_released {i : Fin cfg.capacity} (hterminal : s.egress.terminal = true)
    (hrow : s.egress.states i = .ready ∨ s.egress.states i = .submitted) :
    ¬ Released { s with egress := s.egress.pumpFinish, pump := .idle } := by
  intro hc
  have hstate : (s.egress.rows i).state = .ready ∨ (s.egress.rows i).state = .submitted := hrow
  have hreserved := hc.terminal hterminal rfl i
    (by rcases hstate with hstate | hstate <;> simp [pumpFinish, hstate])
  have hsame : (s.egress.rows i).state = .reserved := hreserved
  rcases hstate with hstate | hstate <;> simp [hstate] at hsame

theorem runs_finish {completed : ℕ} {result : Status} (hlane : s.pump = .leaving completed result) :
    Runs System.step s { s with egress := s.egress.pumpFinish, pump := .idle } :=
  Runs.single (a := .pumpFinish) (by simp only [System.step, hlane])

theorem pumpClaim_terminal {e : Egress cfg} (h : e.terminal = true) (completed maxWrites : ℕ)
    (result : Status) :
    e.pumpClaim completed maxWrites result = (e, .leaving completed result) := by
  unfold pumpClaim
  split
  · split
    · rfl
    · simp [h]
  · rfl

/-- **What an irregular section leads to.** -/
theorem leak_of_irregular {s s' : System cfg} {a : Action cfg} (h : Sound s)
    (hstep : s.step a = some s') (hirregular : regular s a = false) :
    ∃ s'', Runs System.step s' s'' ∧ ¬ Released s'' := by
  cases a with
  | pumpBuffer given =>
    simp only [regular, Bool.or_eq_false_iff, Bool.not_eq_false'] at hirregular
    obtain ⟨⟨rfl, hclosed⟩, hterminal⟩ := hirregular
    simp only [System.step] at hstep
    split at hstep
    · rename_i i completed maxWrites result hlane
      simp only [pumpBuffer, hclosed, Bool.false_eq_true, if_false, Option.some.injEq] at hstep
      subst hstep
      refine ⟨_, runs_finish rfl, not_released (i := i) hterminal (.inl ?_)⟩
      show (s.egress.setState i .ready).states i = .ready
      simp
    · cases hstep
  | pumpSettle status =>
    simp only [regular, Bool.or_eq_false_iff, Bool.not_eq_false', bne_eq_false_iff_eq] at hirregular
    obtain ⟨rfl, hterminal⟩ := hirregular
    simp only [System.step] at hstep
    split at hstep
    · rename_i i completed maxWrites result hlane
      have hrow : (s.egress.rows i).state = .submitting := h.held (by rw [hlane]; rfl)
      simp only [pumpSettle, hrow, ne_eq, not_true_eq_false, if_false, if_true,
        Option.some.injEq] at hstep
      subst hstep
      generalize he : ({ s.egress.setState i .submitted with
        submitted := s.egress.submitted + 1 } : Egress cfg) = e
      have hended : e.terminal = true := by subst he; exact hterminal
      have hsubmitted : e.states i = .submitted := by
        subst he
        show (s.egress.setState i .submitted).states i = .submitted
        simp
      have hclaim : System.step (s.pumped (e, .scanning (completed + 1) maxWrites result))
          .pumpClaim = some (s.pumped (e, .leaving (completed + 1) result)) := by
        show some ((s.pumped (e, _)).pumped (e.pumpClaim (completed + 1) maxWrites result)) = _
        rw [pumpClaim_terminal hended]
        rfl
      exact ⟨_, (Runs.single hclaim).trans (runs_finish rfl),
        not_released (s := s.pumped (e, .leaving (completed + 1) result)) hended (.inr hsubmitted)⟩
    · cases hstep
  | _ => cases hirregular

/-- **Main.** `pending` counts the rows. Regular runs release the rows, and every irregular section
can leave one for ever. -/
theorem released_iff_regular :
    (∀ s : System cfg, System.Reachable s → s.egress.pending = tally Row.used s.egress.rows) ∧
      (∀ s : System cfg, RegularlyReachable s → Released s) ∧
      ∀ (s s' : System cfg) (a : Action cfg), System.Reachable s → s.step a = some s' →
        regular s a = false → ∃ s'', Runs System.step s' s'' ∧ ¬ Released s'' :=
  ⟨fun _ h => (reachable_sound h).counted,
    fun _ h => released_of_cleared (reachable_sound h.of_guarded) (regularlyReachable_cleared h),
    fun _ _ _ h hstep hirregular => leak_of_irregular (reachable_sound h) hstep hirregular⟩

/-! ## A run that leaks -/

def smallConfig : Config := ⟨2, 16⟩

def smallRequest : SendRequest := ⟨rawProcessorUri, boundTarget, 0, some ['e'], .none⟩

def sendingRun : List (Action smallConfig) :=
  [.bind ⟨0, 1⟩, .observeState ⟨0, 1⟩ .connected, .prepareSend smallRequest, .commit ⟨0, by decide⟩,
    .pumpBegin 1, .pumpClaim, .pumpBuffer true]

def completedRun : List (Action smallConfig) :=
  sendingRun ++ [.pumpSettle .ok, .pumpClaim, .pumpFinish, .observeSend ⟨0, 1⟩ 1,
    .observeState ⟨0, 1⟩ .closed, .close]

theorem completedRun_isSome :
    (exec (guarded regular System.step) (System.init smallConfig) completedRun).isSome = true := by
  decide

def completedState : System smallConfig :=
  (exec (guarded regular System.step) (System.init smallConfig) completedRun).get
    completedRun_isSome

def endedRun : List (Action smallConfig) := sendingRun ++ [.observeState ⟨0, 1⟩ .closed]

theorem endedRun_isSome :
    (exec System.step (System.init smallConfig) endedRun).isSome = true := by decide

def endedState : System smallConfig :=
  (exec System.step (System.init smallConfig) endedRun).get endedRun_isSome

theorem endedState_settles : (endedState.step (.pumpSettle .ok)).isSome = true := by decide

theorem completedState_released :
    endedState.egress.pending = tally Row.used endedState.egress.rows ∧ Released completedState ∧
      ∃ s'', Runs System.step ((endedState.step (.pumpSettle .ok)).get endedState_settles) s'' ∧
        ¬ Released s'' :=
  ⟨released_iff_regular.1 endedState
    (.runs (.of_init ⟨rfl, rfl⟩) (exec_runs (Option.some_get endedRun_isSome).symm)),
    released_iff_regular.2.1 completedState
      (.runs (.of_init ⟨rfl, rfl⟩) (exec_runs (Option.some_get completedRun_isSome).symm)),
    released_iff_regular.2.2 endedState _ (.pumpSettle .ok)
      (.runs (.of_init ⟨rfl, rfl⟩) (exec_runs (Option.some_get endedRun_isSome).symm))
      (Option.some_get endedState_settles).symm (by decide)⟩

def leakingRun : List (Action smallConfig) :=
  endedRun ++ [.pumpSettle .ok, .pumpClaim, .pumpFinish, .close]

theorem leakingRun_isSome :
    (exec System.step (System.init smallConfig) leakingRun).isSome = true := by decide

def leakingState : System smallConfig :=
  (exec System.step (System.init smallConfig) leakingRun).get leakingRun_isSome

theorem terminal_leaks_row : ¬ ∀ s : System smallConfig, System.Reachable s → Released s := by
  intro hall
  have hreach : System.Reachable leakingState :=
    .runs (.of_init ⟨rfl, rfl⟩) (exec_runs (Option.some_get leakingRun_isSome).symm)
  have hquiescent := (hall leakingState hreach).quiescent (by decide) (by decide) (by decide)
    (by decide)
  revert hquiescent
  decide

end Egress

end TurboScxml.Cnet
