import TurboScxml.Events.ExecutorSteps

/-!
# The invariant holds in the reachable states

* `Invariant.stepExecutor`: the steps of the executor, from a lemma for each;
* **`invariant_of_reachable`**.
-/

namespace TurboScxml.Events

open Function Machine Parties Tokens

variable {S T K V ι : Type} {n : ℕ} {P : Program S T K} {s s' : State n ι P V}
  {use : Fin n → RowUse ι} {pc : Executor n P V}

theorem Invariant.goto (hcore : Core s use) (hheld : Held s use) {old : Executor n P V}
    (hold : s.executor = old) (hgrip : old.grip = none) (hnew : pc.grip = none)
    (hevent : pc.event = old.event) (hshows : pc.Shows s.current)
    (hdoomed : pc.doomed = false → old.doomed = false)
    (hdropped : pc.discards = true → s.raised = []) : Invariant (s.goto pc) :=
  ⟨use, hcore.goto hold hevent hdoomed hdropped,
    hheld.executorIdle (hold ▸ hgrip) hnew (fun _ _ _ => Iff.rfl) hshows hheld.observed
      (fun _ _ => rfl) rfl⟩

theorem Invariant.raisePlain (hcore : Core s use) (hheld : Held s use)
    (hpc : s.executor.discards = false) (id : ℕ) : Invariant (s.raisePlain id) :=
  ⟨use, hcore.raisePlain hpc id, hheld.matched, hheld.holds, hheld.shows, hheld.observed⟩

theorem Core.settle (h : Core s use) (hevent : s.executor.event = none) (hstaged : s.staged = [])
    (hraised : s.raised = []) : Core (s.goto .idle) use where
  pool := h.pool
  nextToken := h.nextToken
  queued := by
    have hqueued := h.queued
    simp only [State.queue, hevent] at hqueued
    exact hqueued
  raised _ := by
    have hticketed := h.ticketed
    rw [hstaged] at hticketed
    change Linked s.raised s.rows use .staged
    rw [hraised]
    exact Linked.nil hticketed.none_staged
  dropped := (by intros; contradiction)
  ticketed := h.ticketed
  objects := h.objects

theorem Invariant.sendPlain (hcore : Core s use) (hheld : Held s use) {id token : ℕ}
    (htoken : hasTokenBit token = false) :
    Invariant ({ s with external := s.external ++ [⟨id, token, none⟩] } : State n ι P V) := by
  have hpushed := hcore.queued.pushPlain (e := ⟨id, token, none⟩) rfl htoken
  refine ⟨use, ⟨hcore.pool, hcore.nextToken, hpushed.perm ?_, hcore.raised, hcore.dropped,
    hcore.ticketed, hcore.objects⟩, hheld.matched, hheld.holds, hheld.shows, hheld.observed⟩
  simp only [State.queue, List.append_assoc]
  refine List.Perm.append_left _ ?_
  rw [← List.append_assoc s.internal]
  exact List.perm_append_comm

theorem invariant_of_init (h : Init s) : Invariant s := by
  have hother : ∀ x : Purpose, x ≠ .free → ∀ r : Fin n,
      (fun _ => .other .free : Fin n → RowUse ι) r ≠ .other x := fun x hx r heq => by
    simp only [Use.other.injEq] at heq
    exact hx heq.symm
  have hgrip : s.grip = fun _ => none := by
    funext w
    cases w with
    | none => simp only [State.grip, h.executor]; rfl
    | some i => simp only [State.grip, h.producers]; rfl
  refine ⟨fun _ => .other .free,
    ⟨⟨h.rows, ?_, fun r hr => ?_, fun r _ => ?_⟩, ?_, ?_, fun _ => ?_, ?_, ?_, ?_⟩,
    ⟨?_, ?_, ?_, ?_⟩⟩
  · rw [h.reservations, h.freed]
    convert Custody.empty
    rw [h.rows]
    rfl
  · rw [h.rows] at hr
    cases hr
  · rw [h.rows]
    exact .inl rfl
  · rw [h.nextToken, h.reservations]
  · rw [State.queue, h.external, h.internal, h.executor]
    exact Linked.nil (hother _ (by simp))
  · rw [h.raised]
    exact Linked.nil (hother _ (by simp))
  · exact fun _ => h.raised
  · rw [h.staged]
    exact Ticketed.nil (hother _ (by simp))
  · refine ⟨?_, ?_, fun hl => absurd (h.current.symm.trans hl) (by simp), fun r _ hl => ?_⟩
    · rw [h.ledger]
      have hempty : storages s.rows (fun _ => .other .free : Fin n → RowUse ι) s.current
          = fun _ => none := by
        funext p
        cases p with
        | none => simp [storages, Current.object, h.current]
        | some r => simp [storages, h.rows, Row.object, Row.zero]
      rw [hempty]
      exact Custody.empty
    · rw [h.ledger]
      simp
    · rw [h.rows] at hl
      cases hl
  · intro w r stage
    rw [hgrip]
    simp
  · intro w r stage hw
    rw [hgrip] at hw
    cases hw
  · rw [h.executor]
    trivial
  · rw [h.observed]
    simp

/-! ## The number of reservations -/

variable {r : Fin n}

theorem reserve_reservations {m : Metadata S K V} (h : s.reserve m = some (r, s')) :
    s'.reservations = s.reservations + 1 := by
  obtain ⟨p, -, hpair⟩ := Option.map_eq_some_iff.mp h
  cases hpair
  rfl

@[simp] theorem release_reservations (phase : Phase S) :
    (s.release r phase).1.reservations = s.reservations := by
  cases phase with
  | enter =>
    simp only [State.release]
    split <;> rfl
  | destroy schema => rfl
  | clear => rfl

variable {kind : Kind} {event : Event S V}

@[simp] theorem take_reservations : (s.take event kind).reservations = s.reservations := by
  simp only [State.take]
  repeat' split
  all_goals rfl

@[simp] theorem lookup_reservations {invocation : Option Invocation} :
    (s.lookup event kind invocation).reservations = s.reservations := by
  simp only [State.lookup]
  repeat' split
  all_goals rfl

@[simp] theorem copy_reservations {copied : Bool} :
    (s.copy event kind r copied).reservations = s.reservations := by
  simp only [State.copy]
  repeat' split
  all_goals rfl

@[simp] theorem complete_reservations {state : Option Text} {data : DoneData S V} :
    (s.complete state data).reservations = s.reservations := by
  simp only [State.complete]
  repeat' split
  all_goals rfl

variable [DecidableEq S]

theorem stepExecutor_reservations {a : ExecutorStep P V} (hs : s.stepExecutor a = some s') :
    s.reservations ≤ s'.reservations := by
  cases a with
  | work work =>
    simp only [State.stepExecutor] at hs
    repeat' split at hs
    · cases hs; exact Nat.le_refl _
    · cases hs; exact Nat.le_refl _
    · next hreserve =>
      cases hs
      exact (Nat.le_succ _).trans_eq (reserve_reservations hreserve).symm
    · cases hs
  | release =>
    simp only [State.stepExecutor] at hs
    split at hs
    next r token phase after hpc =>
      have hrelease := release_reservations (s := s) (r := r) phase
      split at hs <;> cases hs <;> simp_all [State.goto]
    next => cases hs
  | take kind =>
    cases kind <;> simp only [State.stepExecutor] at hs <;> split at hs <;> cases hs <;> simp
  | clear =>
    simp only [State.stepExecutor] at hs
    split at hs
    next event kind r copied hpc => cases hs; cases copied <;> exact Nat.le_refl _
    next => cases hs
  | _ =>
    simp only [State.stepExecutor] at hs
    repeat' split at hs
    all_goals cases hs <;> first | exact Nat.le_refl _ | simp

/-! ## The steps of the executor -/

/-- **The block is aborted**, with an error event if there is room. -/
theorem Invariant.abort (hcore : Core s use) (hheld : Held s use) {raised : Bool}
    (hs : s.stepExecutor (.abort raised) = some s') :
    Invariant s' := by
  simp only [State.stepExecutor] at hs
  split at hs
  next hpc =>
    split_ifs at hs
    · cases hs
      obtain ⟨use', hcore', hheld'⟩ :=
        Invariant.raisePlain hcore hheld (by rw [hpc]; rfl) P.executionError
      exact Invariant.goto hcore' hheld' hpc rfl rfl rfl trivial (fun _ => rfl)
        (by intros; contradiction)
    · cases hs
      exact Invariant.goto hcore hheld hpc rfl rfl rfl trivial (fun _ => rfl)
        (by intros; contradiction)
  next => cases hs

/-- **The next event of a queue** is taken. -/
theorem Invariant.takeNext (hcore : Core s use) (hheld : Held s use)
    (hs : s.stepExecutor (.take kind) = some s') :
    Invariant s' := by
  cases kind with
  | internal =>
    simp only [State.stepExecutor] at hs
    split at hs
    next event rest hpc hqueue =>
      cases hs
      refine Invariant.take hcore hheld hpc ?_
      simp only [State.queue, hpc, hqueue, Executor.event, Option.toList_none, List.append_nil]
      exact List.perm_middle
    next => cases hs
  | external =>
    simp only [State.stepExecutor] at hs
    split at hs
    next event rest hpc hqueue =>
      cases hs
      refine Invariant.take hcore hheld hpc ?_
      simp only [State.queue, hpc, hqueue, Executor.event, Option.toList_none, List.append_nil]
      exact List.Perm.refl _
    next => cases hs

variable [DecidableEq ι]

theorem stepProducer_reservations {i : ι} {a : ProducerStep S K V}
    (hs : s.stepProducer i a = some s') : s.reservations ≤ s'.reservations := by
  cases a with
  | reserve =>
    simp only [State.stepProducer] at hs
    repeat' split at hs
    · cases hs; exact Nat.le_refl _
    · next hreserve =>
      cases hs
      exact (Nat.le_succ _).trans_eq (reserve_reservations hreserve).symm
    · cases hs
  | release =>
    simp only [State.stepProducer] at hs
    split at hs
    next r token phase status hpc =>
      have hrelease := release_reservations (s := s) (r := r) phase
      split at hs <;> cases hs <;> simp_all [State.setProducer]
    next => cases hs
  | _ =>
    simp only [State.stepProducer] at hs
    repeat' split at hs
    all_goals cases hs <;> exact Nat.le_refl _

variable (hcore : Core s use)
include hcore

/-- **A row is reserved** for an event with metadata. -/
theorem Invariant.work (hheld : Held s use) {work : Work P V}
    (hs : s.stepExecutor (.work work) = some s') (hbound : s'.reservations + 1 < tokenBit) :
    Invariant s' := by
  simp only [State.stepExecutor] at hs
  split at hs
  next hpc =>
    have hgrip : s.executor.grip = none := by rw [hpc]; rfl
    split at hs
    next =>
      cases hs
      exact Invariant.goto hcore hheld hpc rfl rfl rfl trivial (fun _ => rfl)
        (by intros; contradiction)
    next =>
      split at hs
      next =>
        cases hs
        cases work with
        | send =>
          exact Invariant.goto hcore hheld hpc rfl rfl rfl trivial (fun _ => rfl)
            (by intros; contradiction)
        | failed =>
          exact Invariant.goto hcore hheld hpc rfl rfl rfl trivial (fun _ => rfl)
            (by intros; contradiction)
      next r s₁ hreserve =>
        cases hs
        obtain ⟨huse, hs₁, hcore'⟩ := hcore.reserve hreserve hbound none
        have hexecutor : s₁.executor = .idle := by rw [hs₁, ← hpc]
        refine ⟨update use r (.held none .filling),
          hcore'.goto hexecutor rfl (fun _ => rfl) (by intros; contradiction),
          hheld.executor (some .filling) rfl (.inr ⟨_, huse⟩)
            (hheld.matched.take (w := none) hgrip huse .filling) (fun _ => rfl) trivial ?_ ?_ ?_⟩
        · rw [hs₁]
          exact hheld.observed
        · rw [hs₁]
        · rw [hs₁]
  next => cases hs

/-- **The reserved row** is filled, or is on its way to an abort. -/
theorem Invariant.fill (hheld : Held s use) {copied : Bool}
    (hs : s.stepExecutor (.fill copied) = some s') :
    Invariant s' := by
  simp only [State.stepExecutor] at hs
  split at hs
  next work r token hpc =>
    cases hs
    obtain ⟨hgrip, huse, hrow⟩ := hheld.of_executor .filling hpc rfl
    have hempty : (s.rows r).dataObjectLive = false := by
      rw [hrow]
      rfl
    obtain ⟨hfills, hgiven⟩ := Work.fill_spec s.ledger copied hrow
    have htoken : (work.fill (s.rows r) s.ledger copied).1.token = token := by
      rw [hfills.2.2.1, hrow]
      rfl
    have hfilled := hcore.fill huse hempty hfills
    split_ifs with hok
    · exact ⟨use, hfilled.goto hpc rfl (fun _ => rfl) (by intros; contradiction),
        hheld.executor (some .filling) rfl (.inl ⟨_, hgrip⟩) (hheld.matched.stay hgrip)
          (fun _ => ⟨htoken, hgiven hok⟩) trivial hheld.observed rfl rfl⟩
    · exact ⟨use, hfilled.goto hpc rfl (fun _ => rfl) (by intros; contradiction),
        hheld.executor (some .filling) rfl (.inl ⟨_, hgrip⟩) (hheld.matched.stay hgrip)
          (fun _ => htoken) trivial hheld.observed rfl rfl⟩
  next => cases hs

/-- **The event is raised**, with a ticket for its row. -/
theorem Invariant.stage (hheld : Held s use) {raised staged : Bool}
    (hs : s.stepExecutor (.stage raised staged) = some s') :
    Invariant s' := by
  simp only [State.stepExecutor] at hs
  split at hs
  next work r token hpc =>
    obtain ⟨hgrip, huse, htoken, hgiven⟩ := hheld.of_executor .filling hpc rfl
    have hevent : s.executor.event = none := by rw [hpc]; rfl
    have hdoomed : s.executor.doomed = false := by rw [hpc]; rfl
    have hdiscards : s.executor.discards = false := by rw [hpc]; rfl
    split at hs
    next =>
      split at hs
      next =>
        cases hs
        let event : Event S V := ⟨work.event, token, some work.given⟩
        have hstaged := hcore.stage hdoomed hdiscards huse
          (show event.given = some work.given from rfl) htoken hgiven
        exact ⟨_, hstaged.goto hpc rfl (fun _ => rfl) (by intros; contradiction),
          hheld.executor none rfl (.inl ⟨_, hgrip⟩) (hheld.matched.give hgrip .staged)
            (by intros; contradiction)
            trivial hheld.observed (update_eq_self r s.rows).symm rfl⟩
      next =>
        cases hs
        refine ⟨use, ⟨hcore.pool, hcore.nextToken, ?_, (by intros; contradiction),
          (by intros; contradiction), hcore.ticketed,
          hcore.objects⟩, hheld.executor (some .filling) rfl (.inl ⟨_, hgrip⟩)
            (hheld.matched.stay hgrip) (fun _ => htoken) trivial hheld.observed
            (update_eq_self r s.rows).symm rfl⟩
        have hqueued := hcore.queued
        simp only [State.queue, hevent] at hqueued
        exact hqueued
    next =>
      cases hs
      exact ⟨use, hcore.goto hpc rfl (fun _ => rfl) (by intros; contradiction),
        hheld.executor (some .filling) rfl (.inl ⟨_, hgrip⟩) (hheld.matched.stay hgrip)
          (fun _ => htoken) trivial hheld.observed (update_eq_self r s.rows).symm rfl⟩
  next => cases hs

/-- **A row is released**, phase by phase. -/
theorem Invariant.release (hheld : Held s use) (hs : s.stepExecutor .release = some s') :
    Invariant s' := by
  simp only [State.stepExecutor] at hs
  split at hs
  next r token phase after hpc =>
    obtain ⟨hgrip, huse, hholds⟩ := hheld.of_executor phase.stage hpc rfl
    obtain ⟨hproducers, hexecutor, hcurrent, hobserved⟩ := release_aside (s := s) (r := r) phase
    have hraised : (s.release r phase).1.raised = s.raised := by
      cases phase with
      | enter =>
        simp only [State.release]
        split <;> rfl
      | destroy schema => rfl
      | clear => rfl
    rcases hcore.release huse hholds with
      ⟨phase', row, hsome, hholds', hrows, hcore'⟩ | ⟨row, hnone, hrows, hcore'⟩
    · split at hs
      next s₁ phase'' heq =>
        cases hs
        rw [heq] at hsome hrows hcore' hproducers hexecutor hcurrent hobserved hraised
        cases hsome
        refine ⟨_, hcore'.goto (hexecutor.trans hpc) rfl ?_ ?_, hheld.executor (some phase'.stage)
          rfl (.inl ⟨_, hgrip⟩) (hheld.matched.move hgrip phase'.stage)
          (fun _ => hholds') trivial ?_
          hrows hproducers⟩
        · cases after <;> exact id
        · dsimp only
          intro hdiscards
          have hdropped := hcore.dropped
          rw [hpc] at hdropped
          rw [hraised]
          refine hdropped ?_
          cases after <;> exact hdiscards
        · dsimp only at hobserved ⊢
          rw [hobserved]
          exact hheld.observed
      next s₁ heq =>
        rw [heq] at hsome
        cases hsome
    · split at hs
      next s₁ phase'' heq =>
        rw [heq] at hnone
        cases hnone
      next s₁ heq =>
        cases hs
        rw [heq] at hrows hcore' hproducers hexecutor hcurrent hobserved hraised
        have hdropped := hcore.dropped
        rw [hpc] at hdropped
        have hfaithful : ∀ o ∈ s₁.observed, o.Faithful P := hobserved ▸ hheld.observed
        cases after with
        | abort =>
          exact ⟨_, hcore'.goto (hexecutor.trans hpc) rfl (fun _ => rfl) (by intros; contradiction),
            hheld.executor none rfl (.inl ⟨_, hgrip⟩) (hheld.matched.give hgrip .free)
              (by intros; contradiction)
            trivial hfaithful hrows hproducers⟩
        | fatal =>
          exact ⟨_, hcore'.goto (hexecutor.trans hpc) rfl (by intros; contradiction)
            (by intros; contradiction),
            hheld.executor none rfl (.inl ⟨_, hgrip⟩) (hheld.matched.give hgrip .free)
              (by intros; contradiction)
            trivial hfaithful hrows hproducers⟩
        | discard failed =>
          exact ⟨_, hcore'.goto (hexecutor.trans hpc) rfl (by intros; contradiction)
            (fun _ => hraised.trans (hdropped rfl)),
            hheld.executor none rfl (.inl ⟨_, hgrip⟩) (hheld.matched.give hgrip .free)
              (by intros; contradiction)
            trivial hfaithful hrows hproducers⟩
  next => cases hs

/-- **The next ticket is taken back.** -/
theorem Invariant.discardNext (hheld : Held s use) (hs : s.stepExecutor .discardNext = some s') :
    Invariant s' := by
  simp only [State.stepExecutor] at hs
  split at hs
  next failed hpc =>
    have hgrip : s.executor.grip = none := by rw [hpc]; rfl
    have hraised : s.raised = [] := hcore.dropped (by rw [hpc]; rfl)
    split at hs
    next hstaged =>
      cases hs
      cases failed with
      | true =>
        exact Invariant.goto hcore hheld hpc rfl rfl rfl trivial (by intros; contradiction)
          (by intros; contradiction)
      | false =>
        exact ⟨use, hcore.settle (by rw [hpc]; rfl) hstaged hraised, hheld.executorIdle hgrip rfl
          (fun _ _ _ => Iff.rfl) trivial hheld.observed (fun _ _ => rfl) rfl⟩
    next ticket rest hstaged =>
      cases hs
      obtain ⟨huse, htoken, hcore'⟩ := hcore.unstage hstaged (by rw [hpc]; rfl)
      exact ⟨_, hcore'.goto hpc rfl (by intros; contradiction) fun _ => hraised,
        hheld.executor (some .filling) rfl (.inr ⟨_, huse⟩)
          (hheld.matched.take (w := none) hgrip huse .filling) (fun _ => htoken) trivial
          hheld.observed (update_eq_self ticket.row s.rows).symm rfl⟩
  next => cases hs

omit hcore

/-- **A step of the executor.** -/
theorem Invariant.stepExecutor (h : Invariant s) {a : ExecutorStep P V}
    (hs : s.stepExecutor a = some s') (hbound : s'.reservations + 1 < tokenBit) :
    Invariant s' := by
  obtain ⟨use, hcore, hheld⟩ := h
  cases a with
  | raise id =>
    simp only [State.stepExecutor] at hs
    split at hs
    next hpc =>
      cases hs
      exact Invariant.raisePlain hcore hheld (by rw [hpc]; rfl) id
    next => cases hs
  | work work => exact Invariant.work hcore hheld hs hbound
  | fill copied => exact Invariant.fill hcore hheld hs
  | stage raised staged => exact Invariant.stage hcore hheld hs
  | release => exact Invariant.release hcore hheld hs
  | abort raised => exact Invariant.abort hcore hheld hs
  | commit =>
    simp only [State.stepExecutor] at hs
    split at hs
    next hpc =>
      cases hs
      exact ⟨committedUse use, hcore.commit hpc,
        hheld.matched.relabel fun r w stage => committedUse_held, hheld.holds, hheld.shows,
        hheld.observed⟩
    next => cases hs
  | discard =>
    simp only [State.stepExecutor] at hs
    split at hs
    next hpc =>
      cases hs
      exact ⟨use, hcore.drop (by rw [hpc]; rfl) rfl,
        hheld.executorIdle (by rw [hpc]; rfl) rfl (fun _ _ _ => Iff.rfl) trivial hheld.observed
          (fun _ _ => rfl) rfl⟩
    next hpc =>
      cases hs
      exact ⟨use, hcore.drop (by rw [hpc]; rfl) rfl,
        hheld.executorIdle (by rw [hpc]; rfl) rfl (fun _ _ _ => Iff.rfl) trivial hheld.observed
          (fun _ _ => rfl) rfl⟩
    next => cases hs
  | discardNext => exact Invariant.discardNext hcore hheld hs
  | take kind => exact Invariant.takeNext hcore hheld hs
  | lookup invocation =>
    simp only [State.stepExecutor] at hs
    split at hs
    next event kind hpc =>
      cases hs
      exact Invariant.lookup hcore hheld hpc invocation
    next => cases hs
  | copy copied =>
    simp only [State.stepExecutor] at hs
    split at hs
    next event kind r hpc =>
      cases hs
      exact Invariant.copy hcore hheld hpc copied
    next => cases hs
  | clear =>
    simp only [State.stepExecutor] at hs
    split at hs
    next event kind r copied hpc =>
      cases hs
      exact Invariant.clear hcore hheld hpc
    next => cases hs
  | complete state data =>
    simp only [State.stepExecutor] at hs
    split at hs
    next hpc =>
      cases hs
      exact Invariant.complete hcore hheld hpc state data
    next => cases hs

/-- **A step.** -/
theorem Invariant.step (h : Invariant s) {a : Action ι P V} (hs : step s a = some s')
    (hbound : s'.reservations + 1 < tokenBit) : Invariant s' := by
  cases a with
  | producer i a => exact h.stepProducer hs hbound
  | sendPlain id token =>
    obtain ⟨use, hcore, hheld⟩ := h
    simp only [Events.step] at hs
    split_ifs at hs with htoken
    cases hs
    exact Invariant.sendPlain hcore hheld (by simpa using htoken)
  | executor a => exact h.stepExecutor hs hbound

/-! ## Every run -/

theorem step_reservations {a : Action ι P V} (hs : step s a = some s') :
    s.reservations ≤ s'.reservations := by
  cases a with
  | producer i a => exact stepProducer_reservations hs
  | sendPlain id token =>
    simp only [Events.step] at hs
    split_ifs at hs
    cases hs
    exact Nat.le_refl _
  | executor a => exact stepExecutor_reservations hs

/-- **The reachable states** until the token counter wraps. -/
theorem invariant_of_reachable (h : Reachable step Init s)
    (hbound : s.reservations + 1 < tokenBit) : Invariant s := by
  refine Reachable.invariant (P := fun s => s.reservations + 1 < tokenBit → Invariant s)
    (fun s hinit _ => invariant_of_init hinit) (fun s a s' ih hs hbound => ?_) h hbound
  have hle := step_reservations hs
  exact (ih (by omega)).step hs hbound

end TurboScxml.Events
