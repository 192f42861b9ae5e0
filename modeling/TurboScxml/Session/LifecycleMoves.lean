import TurboScxml.Session.SendMoves

/-!
# Steps on the invocations

* `LifecycleAside`: a step that leaves the rows, the effects and their history alone;
* `LifecycleMove`: what a step of the Session can do to them;
* **`step_moves`**: every step is a `SendsMove` and a `LifecycleMove`.
-/

namespace TurboScxml.Session

open Function

variable {cfg : Config}

/-! ## What the operations do -/

structure CoreSame (a b : InvokeStats) : Prop where
  started : b.started = a.started
  active : b.active = a.active
  completed : b.completed = a.completed
  cancelled : b.cancelled = a.cancelled
  cancelFailed : b.cancelFailed = a.cancelFailed

theorem CoreSame.refl (a : InvokeStats) : CoreSame a a := ⟨rfl, rfl, rfl, rfl, rfl⟩

variable {token : ℕ} {ticket : Option AdapterTicket}

namespace InvocationTable

variable {t t' : InvocationTable cfg} {e : Fin (cfg.effectCapacity + 1)}
  {i : Fin cfg.invocationCount}

theorem acquire_some {x : InvocationEffect cfg.invocationCount}
    (h : t.acquire x = some (t', e)) :
    (t.effects e).inUse = false ∧ t' = t.setEffect e x := by
  obtain ⟨e', hvacant, heq⟩ := Option.map_eq_some_iff.mp h
  obtain ⟨rfl, rfl⟩ := Prod.mk.inj heq
  exact ⟨by simpa using (Fin.find?_eq_some_iff.mp hvacant).1, rfl⟩

theorem stageInvocationResult_some {id : Text} {ownId : Bool}
    (h : t.stageInvocationResult i token id ownId ticket = some (t', e)) :
    token ≠ 0 ∧ (t.rows i).state = .pending ∧ (t.effects e).inUse = false ∧
      t' = (t.setRow i ⟨token, id, ownId,
        if ticket.isSome then .startReserved else .failReserved⟩).setEffect e
          (lifecycle (if ticket.isSome then .start else .fail) i token ticket) := by
  unfold stageInvocationResult at h
  split at h
  · cases h
  · rename_i hvalid
    simp only [not_or, not_not] at hvalid
    obtain ⟨hfree, htable⟩ := acquire_some h
    exact ⟨hvalid.1, hvalid.2.2, hfree, htable⟩

theorem takeToken_some (h : t.takeToken = some (t', token)) :
    token = t.nextToken ∧ token ≠ 0 ∧
      t' = { t with nextToken := if t.nextToken = uint64Max then 0 else t.nextToken + 1 } := by
  unfold takeToken at h
  split at h
  · cases h
  · rename_i hnext
    cases h
    exact ⟨rfl, hnext, rfl⟩

theorem findActive_none :
    t.findActive token = none ↔ ∀ i, (t.rows i).state = .active → (t.rows i).token ≠ token := by
  simp [findActive]

end InvocationTable

namespace System

def lifecycle? : Staged cfg → Option (Fin (cfg.effectCapacity + 1) ×
    InvocationEffect cfg.invocationCount)
  | .lifecycle e effect => some (e, effect)
  | _ => none

def lifecycleStaged (s : System cfg) : List (Fin (cfg.effectCapacity + 1) ×
    InvocationEffect cfg.invocationCount) :=
  s.staged.filterMap lifecycle?

structure LifecycleAside (s s' : System cfg) : Prop where
  rows : s'.invocations.rows = s.invocations.rows
  effects : s'.invocations.effects = s.invocations.effects
  next : s'.invocations.nextToken = s.invocations.nextToken
  core : CoreSame s.invocations.stats s'.invocations.stats
  staged : s'.lifecycleStaged = s.lifecycleStaged
  present : s'.present = s.present
  exited : s'.exited = s.exited
  completed : s'.completed = s.completed

/-- The table after `commit_invocation_lifecycle`. -/
def committedTable (t : InvocationTable cfg) (e : Fin (cfg.effectCapacity + 1)) (answer : Answer)
    (admitted : Bool) : InvocationTable cfg :=
  match (t.commitLocked e).2 with
  | .cancel .. => (t.commitLocked e).1.cancelInvocation answer admitted
  | _ => (t.commitLocked e).1

inductive LifecycleMove (s s' : System cfg) : Prop
  | quiet (haside : LifecycleAside s s') (hentered : s'.entered = s.entered)
      (hlane : s'.lane = s.lane ∨
        (s.lane ≠ .idle ∧ s.lane ≠ .committing ∧ s.lane ≠ .discarding ∧ s'.lane ≠ .idle))
  | begin (haside : LifecycleAside { s with exited := s'.exited } s')
      (hentered : s'.entered = s.entered) (hexited : s'.exited = fun _ => false)
      (hlane : s.lane = .idle) (hlane' : s'.lane = .running)
  | stage (e : Fin (cfg.effectCapacity + 1)) (kind : InvocationEffectKind)
      (i : Fin cfg.invocationCount) (token : ℕ) (ticket : Option AdapterTicket)
      (hkind : kind = .enter ∧ s.entered i = false ∨ kind = .exit ∨ kind = .complete ∨
        kind = .forward)
      (hdone : kind = .complete → ∃ done, s.lane = .finalizing i token done)
      (hticket : ticket.isSome = (kind == .forward))
      (hfree : (s.invocations.effects e).inUse = false)
      (hrows : s'.invocations.rows = s.invocations.rows)
      (heffects : s'.invocations.effects = update s.invocations.effects e
        (InvocationTable.lifecycle kind i token ticket))
      (hnext : s'.invocations.nextToken = s.invocations.nextToken)
      (hcore : CoreSame s.invocations.stats s'.invocations.stats)
      (hstaged : s'.lifecycleStaged
        = s.lifecycleStaged ++ [(e, InvocationTable.lifecycle kind i token ticket)])
      (hpresent : s'.present = s.present)
      (hentered : s'.entered
        = presentAfter s.entered (InvocationTable.lifecycle kind i token ticket))
      (hexited : s'.exited = s.exited) (hcompleted : s'.completed = s.completed)
      (hlane : s.lane.Open)
      (hlane' : s'.lane ≠ .idle ∧ s'.lane ≠ .committing)
  | reserve (e : Fin (cfg.effectCapacity + 1)) (i : Fin cfg.invocationCount) (token : ℕ) (id : Text)
      (ownId : Bool) (ticket : Option AdapterTicket) (t : InvocationTable cfg)
      (htoken : s.invocations.takeToken = some (t, token))
      (hpending : (s.invocations.rows i).state = .pending)
      (hfree : (s.invocations.effects e).inUse = false)
      (hrows : s'.invocations.rows = update s.invocations.rows i
        ⟨token, id, ownId, if ticket.isSome then .startReserved else .failReserved⟩)
      (heffects : s'.invocations.effects = update s.invocations.effects e
        (InvocationTable.lifecycle (if ticket.isSome then .start else .fail) i token ticket))
      (hnext : s'.invocations.nextToken = t.nextToken)
      (hcore : CoreSame s.invocations.stats s'.invocations.stats)
      (hstaged : s'.lifecycleStaged = s.lifecycleStaged
        ++ [(e, InvocationTable.lifecycle (if ticket.isSome then .start else .fail) i token ticket)])
      (hpresent : s'.present = s.present) (hentered : s'.entered = s.entered)
      (hexited : s'.exited = s.exited) (hcompleted : s'.completed = s.completed)
      (hlane : s.lane.Open)
      (hlane' : s'.lane ≠ .idle ∧ s'.lane ≠ .committing)
  | drop
      (hrows : ∀ i, s'.invocations.rows i = s.invocations.rows i ∨
        ((s.invocations.rows i).state = .pending ∧ s'.invocations.rows i = .blank .pending))
      (heffects : ∀ e, (s'.invocations.effects e).inUse = (s.invocations.effects e).inUse ∧
        ((s.invocations.effects e).inUse = true →
          s'.invocations.effects e = s.invocations.effects e))
      (hnext : s'.invocations.nextToken = s.invocations.nextToken ∨
        ∃ t token, s.invocations.takeToken = some (t, token) ∧
          s'.invocations.nextToken = t.nextToken)
      (hcore : CoreSame s.invocations.stats s'.invocations.stats)
      (hstaged : s'.lifecycleStaged = s.lifecycleStaged) (hpresent : s'.present = s.present)
      (hexited : s'.exited = s.exited) (hcompleted : s'.completed = s.completed)
      (hlane : s.lane.Open)
      (hlane' : s'.lane = .discarding)
  | commit (e : Fin (cfg.effectCapacity + 1)) (effect : InvocationEffect cfg.invocationCount)
      (answer : Answer) (admitted : Bool) (hlane : s.lane = .committing)
      (hlane' : s'.lane = .committing)
      (hstaged : s.lifecycleStaged = (e, effect) :: s'.lifecycleStaged)
      (htable : s'.invocations = committedTable s.invocations e answer admitted)
      (hpresent : s'.present = presentAfter s.present effect)
      (hentered : s'.entered = s.entered) (hexited : s'.exited = exitedAfter s.exited effect)
      (hcompleted : s'.completed = s.completed ++ completedBy s.invocations effect)
  | discard (e : Fin (cfg.effectCapacity + 1)) (effect : InvocationEffect cfg.invocationCount)
      (before after : List (Fin (cfg.effectCapacity + 1) × InvocationEffect cfg.invocationCount))
      (hlane : s.lane = .discarding) (hlane' : s'.lane = .discarding)
      (hstaged : s.lifecycleStaged = before ++ (e, effect) :: after)
      (hstaged' : s'.lifecycleStaged = before ++ after)
      (htable : s'.invocations = (s.invocations.discardInvocationLifecycle e).1)
      (hpresent : s'.present = s.present) (hexited : s'.exited = s.exited)
      (hcompleted : s'.completed = s.completed)
  | finish (haside : LifecycleAside s s') (hnone : s.lifecycleStaged = [])
      (hlane : s.lane = .committing ∨ s.lane = .discarding) (hlane' : s'.lane = .idle)
      (hentered : s'.entered = if s.lane = .committing then s.entered else s.present)

variable {s s₁ s' : System cfg}

theorem LifecycleAside.refl (s : System cfg) : LifecycleAside s s :=
  ⟨rfl, rfl, rfl, .refl _, rfl, rfl, rfl, rfl⟩

structure Unchanged (s s₁ : System cfg) : Prop where
  invocations : s₁.invocations = s.invocations
  staged : s₁.staged = s.staged
  present : s₁.present = s.present
  exited : s₁.exited = s.exited
  completed : s₁.completed = s.completed

theorem Unchanged.refl (s : System cfg) : Unchanged s s := ⟨rfl, rfl, rfl, rfl, rfl⟩

theorem Unchanged.lifecycleStaged (h : Unchanged s s₁) :
    s₁.lifecycleStaged = s.lifecycleStaged := by
  rw [System.lifecycleStaged, h.staged, System.lifecycleStaged]

variable {t : InvocationTable cfg}

theorem released_effects {e : Fin (cfg.effectCapacity + 1)}
    (hfree : (t.effects e).inUse = false) (x : InvocationEffect cfg.invocationCount)
    (e' : Fin (cfg.effectCapacity + 1)) :
    (update t.effects e { x with inUse := false } e').inUse = (t.effects e').inUse ∧
      ((t.effects e').inUse = true →
        update t.effects e { x with inUse := false } e' = t.effects e') := by
  by_cases he : e' = e
  · subst he
    simp [hfree]
  · simp [update_of_ne he]

variable {kind : InvocationEffectKind}

theorem discard_setEffect (t : InvocationTable cfg) (e : Fin (cfg.effectCapacity + 1))
    (hkind : InvocationTable.reservedState kind = none)
    (i : Fin cfg.invocationCount) (token : ℕ) (ticket : Option AdapterTicket) :
    ((t.setEffect e (InvocationTable.lifecycle kind i token ticket)).discardInvocationLifecycle
      e).1 = t.setEffect e
        { InvocationTable.lifecycle kind i token ticket with inUse := false } := by
  simp [InvocationTable.discardInvocationLifecycle, InvocationTable.setEffect,
    InvocationTable.lifecycle, hkind]

theorem discard_setRow_setEffect (t : InvocationTable cfg) (e : Fin (cfg.effectCapacity + 1))
    (i : Fin cfg.invocationCount) (token : ℕ) (id : Text) (ownId : Bool)
    (ticket : Option AdapterTicket) :
    (((t.setRow i ⟨token, id, ownId,
        if ticket.isSome then .startReserved else .failReserved⟩).setEffect e
      (InvocationTable.lifecycle (if ticket.isSome then .start else .fail) i token
        ticket)).discardInvocationLifecycle e).1
      = (t.setRow i (.blank .pending)).setEffect e { InvocationTable.lifecycle
          (if ticket.isSome then .start else .fail) i token ticket with inUse := false } := by
  cases ticket <;>
    simp [InvocationTable.discardInvocationLifecycle, InvocationTable.setEffect,
      InvocationTable.setRow, InvocationTable.lifecycle, InvocationTable.reservedState]

variable {lane : Lane cfg} {i : Fin cfg.invocationCount}

theorem stage_moves {staged : Bool} (h : Unchanged s s₁)
    (hkind : kind = .enter ∧ s.entered i = false ∨ kind = .exit ∨ kind = .complete ∨
      kind = .forward) (hdone : kind = .complete → ∃ done, s.lane = .finalizing i token done)
    (hticket : ticket.isSome = (kind == .forward)) (hentered : s₁.entered
      = presentAfter s.entered (InvocationTable.lifecycle kind i token ticket))
    (hlane : s.lane.Open)
    (hlane' : lane ≠ .idle ∧ lane ≠ .committing) :
    LifecycleMove s (s₁.stageLifecycle
      (s.invocations.acquire (InvocationTable.lifecycle kind i token ticket)) ticket staged
        lane) := by
  have hreserved : InvocationTable.reservedState kind = none := by
    obtain ⟨rfl, -⟩ | rfl | rfl | rfl := hkind <;> rfl
  cases hacquire : s.invocations.acquire (InvocationTable.lifecycle kind i token ticket) with
  | none =>
    exact .drop (fun i => .inl (by rw [← h.invocations]; rfl))
      (fun e => by rw [← h.invocations]; exact ⟨rfl, fun _ => rfl⟩)
      (.inl (by rw [← h.invocations]; rfl)) (by rw [← h.invocations]; exact .refl _)
      h.lifecycleStaged h.present h.exited h.completed hlane rfl
  | some x =>
    obtain ⟨t, e⟩ := x
    obtain ⟨hfree, rfl⟩ := InvocationTable.acquire_some hacquire
    cases staged with
    | true =>
      refine .stage e kind i token ticket hkind hdone hticket hfree rfl rfl rfl
        (.refl _) ?_ h.present
        hentered h.exited h.completed hlane hlane'
      simp [System.lifecycleStaged, stageLifecycle, h.staged, lifecycle?,
        InvocationTable.setEffect]
    | false =>
      refine .drop ?_ ?_ (.inl ?_) ?_ h.lifecycleStaged h.present h.exited h.completed hlane rfl
      all_goals simp only [stageLifecycle, Bool.false_eq_true, if_false,
        discard_setEffect _ _ hreserved]
      · exact fun _ => .inl rfl
      · exact released_effects hfree _
      · rfl
      · exact .refl _

theorem reserve_moves {id : Text} {ownId : Bool} {staged : Bool} (h : Unchanged s s₁)
    (htoken : s.invocations.takeToken = some (t, token))
    (hlane : s.lane.Open)
    (hlane' : lane ≠ .idle ∧ lane ≠ .committing) (hentered : s₁.entered = s.entered) :
    LifecycleMove s ({ s₁ with invocations := t }.stageLifecycle
      (t.stageInvocationResult i token id ownId ticket) ticket staged lane) := by
  obtain ⟨-, -, ht⟩ := InvocationTable.takeToken_some htoken
  have hrows : t.rows = s.invocations.rows := by rw [ht]
  have heffects : t.effects = s.invocations.effects := by rw [ht]
  have hstats : t.stats = s.invocations.stats := by rw [ht]
  cases hacquire : t.stageInvocationResult i token id ownId ticket with
  | none =>
    exact .drop (fun i => .inl (congrFun hrows i))
      (fun e => ⟨congrArg _ (congrFun heffects e), fun _ => congrFun heffects e⟩)
      (.inr ⟨t, token, htoken, rfl⟩) (by rw [← hstats]; exact .refl _) h.lifecycleStaged h.present
      h.exited h.completed hlane rfl
  | some x =>
    obtain ⟨t', e⟩ := x
    obtain ⟨-, hpending, hfree, rfl⟩ := InvocationTable.stageInvocationResult_some hacquire
    rw [hrows] at hpending
    have hfree' : (s.invocations.effects e).inUse = false := by rwa [← heffects]
    cases staged with
    | true =>
      refine .reserve e i token id ownId ticket t htoken hpending hfree' ?_ ?_ rfl ?_ ?_ h.present
        hentered h.exited h.completed hlane hlane'
      · rw [← hrows]
        rfl
      · rw [← heffects]
        rfl
      · rw [← hstats]
        exact .refl _
      · simp [System.lifecycleStaged, stageLifecycle, h.staged, lifecycle?,
          InvocationTable.setEffect]
    | false =>
      refine .drop (fun j => ?_) ?_ (.inr ⟨t, token, htoken, ?_⟩) ?_ h.lifecycleStaged h.present
        h.exited h.completed hlane rfl
      all_goals simp only [stageLifecycle, Bool.false_eq_true, if_false,
        discard_setRow_setEffect]
      · by_cases hj : j = i
        · subst hj
          exact .inr ⟨hpending, by simp [InvocationTable.setRow, InvocationTable.setEffect]⟩
        · exact .inl (by simp [InvocationTable.setRow, InvocationTable.setEffect, hj, hrows])
      · rw [← heffects]
        exact released_effects hfree _
      · rfl
      · rw [← hstats]
        exact .refl _

theorem LifecycleMove.enqueueError (h : LifecycleMove s s') (raised : Bool)
    (hlane : s.lane.Open) :
    LifecycleMove s (s'.enqueueError raised) := by
  unfold System.enqueueError
  split
  · exact h
  · have hcore : ∀ a : InvokeStats, CoreSame a s'.invocations.stats →
        CoreSame a (errorRejected s'.invocations).stats := fun a h =>
      ⟨h.started, h.active, h.completed, h.cancelled, h.cancelFailed⟩
    cases h with
    | quiet haside hentered hlane' =>
      exact .quiet { haside with core := hcore _ haside.core } hentered
        (.inr ⟨hlane.1, hlane.2.1, hlane.2.2, by simp⟩)
    | begin _ _ _ hidle => exact absurd hidle hlane.1
    | stage e kind i token ticket hkind hdone hticket hfree hrows heffects hnext hcore' hstaged
        hpresent hentered hexited hcompleted _ _ =>
      exact .stage e kind i token ticket hkind hdone hticket hfree hrows heffects hnext
        (hcore _ hcore') hstaged hpresent hentered hexited hcompleted hlane (by simp)
    | reserve e i token id ownId ticket t htoken hpending hfree hrows heffects hnext hcore' hstaged
        hpresent hentered hexited hcompleted _ _ =>
      exact .reserve e i token id ownId ticket t htoken hpending hfree hrows heffects hnext
        (hcore _ hcore') hstaged hpresent hentered hexited hcompleted hlane (by simp)
    | drop hrows heffects hnext hcore' hstaged hpresent hexited hcompleted _ _ =>
      exact .drop hrows heffects hnext (hcore _ hcore') hstaged hpresent hexited hcompleted hlane
        rfl
    | commit _ _ _ _ hcommitting => exact absurd hcommitting hlane.2.1
    | discard _ _ _ _ hdiscarding => exact absurd hdiscarding hlane.2.2
    | finish _ _ hsettling =>
      obtain h | h := hsettling
      · exact absurd h hlane.2.1
      · exact absurd h hlane.2.2

theorem forwardNext_lifecycle (i : Fin cfg.invocationCount)
    (skipped : Option (Fin cfg.invocationCount)) (answer : Answer) (staged raised : Bool)
    (hlane : s.lane.Open) :
    LifecycleMove s (s.forwardNext i skipped answer staged raised) := by
  unfold forwardNext
  split_ifs
  · exact .quiet ⟨rfl, rfl, rfl, .refl _, rfl, rfl, rfl, rfl⟩ rfl
      (.inr ⟨hlane.1, hlane.2.1, hlane.2.2, by simp⟩)
  · exact stage_moves ⟨rfl, rfl, rfl, rfl, rfl⟩ (.inr (.inr (.inr rfl))) (by simp) rfl
      rfl hlane (by simp)
  · exact .quiet ⟨rfl, rfl, rfl, ⟨rfl, rfl, rfl, rfl, rfl⟩, rfl, rfl, rfl, rfl⟩ rfl
      (.inr ⟨hlane.1, hlane.2.1, hlane.2.2, by simp⟩)
  · refine LifecycleMove.enqueueError ?_ raised hlane
    exact .quiet ⟨rfl, rfl, rfl, ⟨rfl, rfl, rfl, rfl, rfl⟩, rfl, rfl, rfl, rfl⟩ rfl
      (.inr ⟨hlane.1, hlane.2.1, hlane.2.2, by simp⟩)

theorem startNext_lifecycle (i : Fin cfg.invocationCount)
    (answers : InvocationTable.StartAnswers) (staged raised : Bool)
    (hlane : s.lane.Open) :
    LifecycleMove s (s.startNext i answers staged raised) := by
  unfold startNext
  split
  · exact .quiet ⟨rfl, rfl, rfl, .refl _, rfl, rfl, rfl, rfl⟩ rfl
      (.inr ⟨hlane.1, hlane.2.1, hlane.2.2, by simp⟩)
  · split
    · exact .quiet ⟨rfl, rfl, rfl, .refl _, rfl, rfl, rfl, rfl⟩ rfl
        (.inr ⟨hlane.1, hlane.2.1, hlane.2.2, by simp⟩)
    · rename_i t token htoken
      split
      · obtain ⟨-, -, ht⟩ := InvocationTable.takeToken_some htoken
        refine .drop (fun j => .inl ?_) (fun e => ?_) (.inr ⟨t, token, htoken, rfl⟩) ?_ rfl rfl rfl
          rfl hlane rfl
        · rw [ht]
        · rw [ht]
          exact ⟨rfl, fun _ => rfl⟩
        · rw [ht]
          exact .refl _
      · exact (reserve_moves (.refl s) htoken hlane (by simp) rfl).enqueueError raised hlane
      · exact reserve_moves (⟨rfl, rfl, rfl, rfl, rfl⟩ :
          Unchanged s { s with nextTicket := s.nextTicket + 1 }) htoken hlane (by simp) rfl

theorem endCommit_frame (s : System cfg) (ending : InvocationTable.Ending) (answer : Answer)
    (admitted : Bool) :
    (s.endCommit ending answer admitted).staged = s.staged ∧
      (s.endCommit ending answer admitted).present = s.present ∧
      (s.endCommit ending answer admitted).entered = s.entered ∧
      (s.endCommit ending answer admitted).exited = s.exited ∧
      (s.endCommit ending answer admitted).completed = s.completed ∧
      (s.endCommit ending answer admitted).lane = s.lane := by
  unfold endCommit
  (repeat' split) <;> exact ⟨rfl, rfl, rfl, rfl, rfl, rfl⟩

theorem endCommit_invocations (s : System cfg) (ending : InvocationTable.Ending) (answer : Answer)
    (admitted : Bool) :
    (s.endCommit ending answer admitted).invocations = match ending with
      | .cancel .. => s.invocations.cancelInvocation answer admitted
      | _ => s.invocations := by
  cases ending with
  | nothing | commit | discard => rfl
  | cancel token id =>
    simp only [endCommit]
    split_ifs <;> rfl

theorem commitStaged_lifecycle {x : Staged cfg} {rest : List (Staged cfg)} (answer : Answer)
    (admitted : Bool) (hlane : s.lane = .committing) (hstaged : s.staged = x :: rest) :
    LifecycleMove s ({ s with staged := rest }.commitStaged x answer admitted) := by
  have hlist : s.lifecycleStaged = (x :: rest).filterMap lifecycle? := by
    rw [System.lifecycleStaged, hstaged]
  cases x with
  | prepared e op => exact .quiet ⟨rfl, rfl, rfl, .refl _, hlist.symm, rfl, rfl, rfl⟩ rfl (.inl rfl)
  | lifecycle e effect =>
    have hframe := endCommit_frame { s with
      staged := rest
      invocations := (s.invocations.commitLocked e).1
      present := presentAfter s.present effect
      exited := exitedAfter s.exited effect
      completed := s.completed ++ completedBy s.invocations effect }
        (s.invocations.commitLocked e).2 answer admitted
    obtain ⟨hstaged', hpresent, hentered, hexited, hcompleted, hlane'⟩ := hframe
    refine .commit e effect answer admitted hlane (hlane'.trans hlane) ?_ ?_ hpresent hentered
      hexited hcompleted
    · rw [hlist]
      exact congrArg _ (congrArg (List.filterMap lifecycle?) hstaged'.symm)
    · exact endCommit_invocations _ _ answer admitted
  | eventMetadata =>
    exact .quiet ⟨rfl, rfl, rfl, .refl _, hlist.symm, rfl, rfl, rfl⟩ rfl (.inl rfl)

theorem discardStaged_lifecycle {x : Staged cfg} {index : ℕ} (hlane : s.lane = .discarding)
    (hx : s.staged[index]? = some x) :
    LifecycleMove s ({ s with staged := s.staged.eraseIdx index }.discardStaged x) := by
  obtain ⟨before, after, hstaged, hrest⟩ := exists_of_getElem? hx
  have hlist : s.lifecycleStaged = before.filterMap lifecycle?
      ++ (x :: after).filterMap lifecycle? := by
    rw [System.lifecycleStaged, hstaged, List.filterMap_append]
  have hlist' : (s.staged.eraseIdx index).filterMap lifecycle?
      = before.filterMap lifecycle? ++ after.filterMap lifecycle? := by
    rw [hrest, List.filterMap_append]
  cases x with
  | prepared e op =>
    exact .quiet ⟨rfl, rfl, rfl, .refl _, hlist'.trans hlist.symm, rfl, rfl, rfl⟩ rfl (.inl rfl)
  | lifecycle e effect =>
    exact .discard e effect _ _ hlane hlane hlist hlist' rfl rfl rfl rfl
  | eventMetadata =>
    exact .quiet ⟨rfl, rfl, rfl, .refl _, hlist'.trans hlist.symm, rfl, rfl, rfl⟩ rfl (.inl rfl)

theorem failureMetadata_lifecycle (op : SendOp) :
    (failureMetadata op : List (Staged cfg)).filterMap lifecycle? = [] := by
  unfold failureMetadata
  split <;> rfl

/-! ## Every step -/

/-- **What a step does** to the delayed sends and to the invocations. -/
structure Moves (s s' : System cfg) : Prop where
  sends : SendsMove s s'
  lifecycle : LifecycleMove s s'

theorem Moves.stays (hsends : SendsAside s s') (haside : LifecycleAside s s')
    (hentered : s'.entered = s.entered) (hlane : s'.lane = s.lane) : Moves s s' :=
  ⟨.quiet hsends (.inl hlane), .quiet haside hentered (.inl hlane)⟩

theorem Moves.goes (hsends : SendsAside s s') (haside : LifecycleAside s s')
    (hentered : s'.entered = s.entered) (hopen : s.lane.Open) (hasked : s.asked = none)
    (hlane : s'.lane ≠ .idle) : Moves s s' :=
  ⟨.quiet hsends (.inr ⟨hopen.1, hopen.settling, hasked, hlane⟩),
    .quiet haside hentered (.inr ⟨hopen.1, hopen.2.1, hopen.2.2, hlane⟩)⟩

/-- A step that stages an effect of an invocation. -/
theorem Moves.stages (hsends : SendsAside s s') (hmove : LifecycleMove s s') (hopen : s.lane.Open)
    (hasked : s.asked = none) (hlane : s'.lane ≠ .idle) : Moves s s' :=
  ⟨.quiet hsends (.inr ⟨hopen.1, hopen.settling, hasked, hlane⟩), hmove⟩

theorem raiseError_moves (raised : Bool) (hopen : s.lane.Open) (hasked : s.asked = none) :
    Moves s (s.raiseError raised) :=
  .goes (raiseError_aside s raised) ⟨rfl, rfl, rfl, .refl _, rfl, rfl, rfl, rfl⟩ rfl hopen hasked
    (Lane.ne_idle (raiseError_lane s raised) hopen.1)

theorem preprocess_lifecycle (token event : ℕ) : LifecycleAside s (s.preprocess token event) := by
  unfold preprocess
  split
  · exact ⟨rfl, rfl, rfl, .refl _, rfl, rfl, rfl, rfl⟩
  · split
    · exact ⟨rfl, rfl, rfl, ⟨rfl, rfl, rfl, rfl, rfl⟩, rfl, rfl, rfl, rfl⟩
    · exact ⟨rfl, rfl, rfl, .refl _, rfl, rfl, rfl, rfl⟩

theorem answerAsked_moves {e : Fin cfg.effectCapacity} {op : SendOp} (answer : Answer)
    (staged raised : Bool) (hasked : s.asked = some (e, op))
    (hused : (s.sends.preparedEffects e).inUse = true) (hopen : s.lane.Open) :
    Moves s (s.answerAsked e op answer staged raised) := by
  have hself : s.sends.setEffect e
      { s.sends.preparedEffects e with adapterTicket := (s.sends.preparedEffects e).adapterTicket }
      = s.sends := by
    simp [SendTable.setEffect]
  have hrefused : ∀ s' : System cfg, LifecycleAside s s' → s'.entered = s.entered →
      s'.lane ≠ .idle → LifecycleMove s s' := fun s' haside hentered hlane =>
    .quiet haside hentered (.inr ⟨hopen.1, hopen.2.1, hopen.2.2, hlane⟩)
  unfold answerAsked
  split_ifs
  · exact ⟨.accept e op rfl hasked rfl rfl (by simp [preparedStaged]) rfl rfl rfl,
      .quiet ⟨rfl, rfl, rfl, .refl _, by simp [lifecycleStaged, lifecycle?], rfl, rfl, rfl⟩ rfl
        (.inl rfl)⟩
  · refine ⟨.refuse e op (some s.nextTicket) (.inr rfl) hasked rfl ?_ rfl rfl rfl rfl,
      hrefused _ ⟨rfl, rfl, rfl, .refl _, rfl, rfl, rfl, rfl⟩ rfl (by simp)⟩
    simp [SendTable.discardPreparedEffect, SendTable.storeTicket, hused]
  · exact ⟨.refuse e op _ (.inr rfl) hasked rfl (by rw [hself]) rfl rfl rfl rfl,
      hrefused _ ⟨rfl, rfl, rfl, .refl _, rfl, rfl, rfl, rfl⟩ rfl (by simp)⟩
  · refine ⟨.refuse e op _ (s.lane.aborted_eq) hasked rfl (by rw [hself]) ?_ rfl rfl rfl,
      hrefused _ ⟨rfl, rfl, rfl, .refl _, ?_, rfl, rfl, rfl⟩ rfl ?_⟩
    · simp [preparedStaged, failureMetadata_prepared]
    · simp [lifecycleStaged, failureMetadata_lifecycle]
    · obtain heq | heq := s.lane.aborted_eq <;> simp [heq, hopen.1]
  · exact ⟨.refuse e op _ (.inr rfl) hasked rfl (by rw [hself]) rfl rfl rfl rfl,
      hrefused _ ⟨rfl, rfl, rfl, .refl _, rfl, rfl, rfl, rfl⟩ rfl (by simp)⟩

/-- **One step.** -/
theorem step_moves {a : Action cfg} (h : step s a = some s')
    (hasked : ∀ e op, s.asked = some (e, op) →
      (s.sends.preparedEffects e).inUse = true ∧ s.lane.runsBlocks = true) : Moves s s' := by
  have hnone : s.lane.runsBlocks = false → s.asked = none := by
    intro hlane
    by_contra hsome
    obtain ⟨⟨e, op⟩, hask⟩ := Option.ne_none_iff_exists'.mp hsome
    simp [hlane] at hasked
    exact hasked e op hask
  have haside : LifecycleAside s s := .refl s
  cases a with
  | begin =>
    simp only [step] at h
    split_ifs at h with hlane
    cases h
    exact ⟨.begin hlane rfl rfl rfl rfl rfl rfl,
      .begin { haside with exited := rfl } rfl rfl hlane rfl⟩
  | send request raised =>
    simp only [step] at h
    split_ifs at h with hlane
    cases h
    unfold send
    split
    · exact raiseError_moves raised (.of_runsBlocks hlane.1) hlane.2
    · rename_i t e hok
      exact ⟨.askSend request e hlane.1 rfl hlane.2 rfl hok rfl rfl rfl rfl,
        .quiet { haside with } rfl (.inl rfl)⟩
  | cancel sendId raised =>
    simp only [step] at h
    split_ifs at h with hlane
    cases h
    unfold cancel
    split
    · exact raiseError_moves raised (.of_runsBlocks hlane.1) hlane.2
    · exact .stays (.refl s) haside rfl rfl
    · rename_i t e hok
      exact ⟨.askCancel sendId e hlane.1 rfl hlane.2 rfl hok rfl rfl rfl rfl,
        .quiet { haside with } rfl (.inl rfl)⟩
  | answer answer staged raised =>
    simp only [step] at h
    split at h
    · rename_i e op hask
      cases h
      exact answerAsked_moves answer staged raised hask (hasked e op hask).1
        (.of_runsBlocks (hasked e op hask).2)
    · cases h
  | raise staged =>
    simp only [step] at h
    split_ifs at h with hlane hstaged
    · cases h
      exact .stays ⟨rfl, rfl, by simp [preparedStaged], rfl, rfl, rfl⟩
        { haside with staged := by simp [lifecycleStaged, lifecycle?] } rfl rfl
    · cases h
      exact .goes ⟨rfl, rfl, rfl, rfl, rfl, rfl⟩ { haside with } rfl (.of_runsBlocks hlane.1)
        hlane.2 (by simp)
  | enter i staged =>
    simp only [step] at h
    split_ifs at h with hlane
    cases h
    have hopen := Lane.Open.of_runsBlocks hlane.1
    refine .stages (stageLifecycle_aside ⟨rfl, rfl, rfl, rfl, rfl, rfl⟩) ?_ hopen hlane.2.1
      (Lane.ne_idle stageLifecycle_lane hopen.1)
    exact stage_moves (⟨rfl, rfl, rfl, rfl, rfl⟩ :
      Unchanged s { s with entered := update s.entered i true }) (.inl ⟨rfl, hlane.2.2⟩) (by simp)
      rfl rfl hopen ⟨hopen.1, hopen.2.1⟩
  | exit i staged =>
    simp only [step] at h
    split_ifs at h with hlane
    cases h
    have hopen := Lane.Open.of_runsBlocks hlane.1
    refine .stages (stageLifecycle_aside ⟨rfl, rfl, rfl, rfl, rfl, rfl⟩) ?_ hopen hlane.2
      (Lane.ne_idle stageLifecycle_lane hopen.1)
    exact stage_moves (⟨rfl, rfl, rfl, rfl, rfl⟩ :
      Unchanged s { s with entered := update s.entered i false }) (.inr (.inl rfl)) (by simp) rfl
      rfl hopen ⟨hopen.1, hopen.2.1⟩
  | preprocess token event =>
    simp only [step] at h
    split_ifs at h with hlane
    cases h
    have hlane' := preprocess_lane s token event
    refine .goes (preprocess_aside s token event) (preprocess_lifecycle token event) ?_
      (by simp [Lane.Open, hlane.1]) hlane.2 ?_
    · unfold preprocess
      split <;> [rfl; split <;> rfl]
    · obtain h | h | ⟨-, i, done, h⟩ := hlane' <;> simp [h]
  | finalized staged =>
    simp only [step] at h
    split at h
    · rename_i source token done hlane
      split_ifs at h with hask
      cases h
      have hopen : s.lane.Open := by simp [Lane.Open, hlane]
      have hlane' : (s.finalized source token done staged).lane ≠ .idle := by
        obtain h | ⟨skipped, h⟩ := finalized_lane s source token done staged <;> simp [h]
      cases done with
      | false =>
        exact .goes ⟨rfl, rfl, rfl, rfl, rfl, rfl⟩ { haside with } rfl hopen hask hlane'
      | true =>
        refine .stages (finalized_aside s source token true) ?_ hopen hask hlane'
        simp only [finalized, if_true, InvocationTable.stageInvocationCompletion]
        split_ifs
        · exact .drop (fun _ => .inl rfl) (fun _ => ⟨rfl, fun _ => rfl⟩) (.inl rfl) (.refl _) rfl
            rfl rfl rfl hopen rfl
        · exact stage_moves (.refl s) (.inr (.inr (.inl rfl))) (fun _ => ⟨true, hlane⟩) rfl rfl
            hopen (by simp)
    · cases h
  | forwardNext answer staged raised =>
    simp only [step] at h
    split at h
    · rename_i index skipped hlane
      have hask := hnone (by simp [hlane, Lane.runsBlocks])
      have hopen : s.lane.Open := by simp [Lane.Open, hlane]
      split_ifs at h
      · cases h
        exact .stages (forwardNext_aside s _ skipped answer)
          (forwardNext_lifecycle _ skipped answer staged raised hopen) hopen hask
          (Lane.ne_idle (forwardNext_lane s _ skipped answer) (by simp))
      · cases h
        exact .goes ⟨rfl, rfl, rfl, rfl, rfl, rfl⟩ { haside with } rfl hopen hask (by simp)
    · cases h
  | startPending =>
    simp only [step] at h
    split_ifs at h with hlane
    cases h
    exact .goes ⟨rfl, rfl, rfl, rfl, rfl, rfl⟩ { haside with } rfl (by simp [Lane.Open, hlane.1])
      hlane.2 (by simp)
  | startNext answers staged raised =>
    simp only [step] at h
    split at h
    · rename_i index hlane
      have hask := hnone (by simp [hlane, Lane.runsBlocks])
      have hopen : s.lane.Open := by simp [Lane.Open, hlane]
      split_ifs at h
      · cases h
        exact .stages (startNext_aside s _ answers)
          (startNext_lifecycle _ answers staged raised hopen) hopen hask
          (Lane.ne_idle (startNext_lane s _ answers) (by simp))
      · cases h
        exact .goes ⟨rfl, rfl, rfl, rfl, rfl, rfl⟩ { haside with } rfl hopen hask (by simp)
    · cases h
  | succeed =>
    simp only [step] at h
    split_ifs at h with hlane
    cases h
    exact .goes ⟨rfl, rfl, rfl, rfl, rfl, rfl⟩ { haside with } rfl (by simp [Lane.Open, hlane.1])
      hlane.2 (by simp)
  | fail =>
    simp only [step] at h
    split_ifs at h with hlane
    cases h
    by_cases hd : s.lane = .discarding
    · exact .stays ⟨rfl, rfl, rfl, rfl, rfl, rfl⟩ { haside with } rfl hd.symm
    · exact .goes ⟨rfl, rfl, rfl, rfl, rfl, rfl⟩ { haside with } rfl ⟨hlane.1, hlane.2.1, hd⟩
        hlane.2.2 (by simp)
  | commitNext answer admitted =>
    simp only [step] at h
    split at h
    · rename_i x rest hlane hstaged
      cases h
      exact ⟨commitStaged_moves answer admitted hlane hstaged,
        commitStaged_lifecycle answer admitted hlane hstaged⟩
    · cases h
  | discardAt index =>
    simp only [step] at h
    split at h
    · rename_i x hlane hx
      cases h
      exact ⟨discardStaged_moves hlane hx, discardStaged_lifecycle hlane hx⟩
    · cases h
  | finish =>
    simp only [step] at h
    split_ifs at h with hstaged
    have hnone : s.lifecycleStaged = [] := by simp [lifecycleStaged, hstaged]
    split at h
    · rename_i hlane
      cases h
      exact ⟨.finish (by simp [hlane, Lane.settling]) rfl hstaged hstaged rfl rfl rfl rfl
          (by simp [hlane]),
        .finish { haside with } hnone (.inl hlane) rfl (by simp [hlane])⟩
    · rename_i hlane
      cases h
      exact ⟨.finish (by simp [hlane, Lane.settling]) rfl hstaged hstaged rfl rfl rfl rfl
          (by simp [hlane]),
        .finish { haside with } hnone (.inr hlane) rfl (by simp [hlane])⟩
    · cases h
  | reportSendDone id =>
    cases h
    exact ⟨.report id rfl rfl rfl rfl rfl rfl rfl, .quiet { haside with } rfl (.inl rfl)⟩
  | reportInvokeEvent token status =>
    cases h
    refine .stays ⟨rfl, rfl, rfl, rfl, rfl, rfl⟩ ?_ rfl rfl
    simp only [InvocationTable.reportInvokeEvent, InvocationTable.settleReturned]
    (repeat' split) <;> exact ⟨rfl, rfl, rfl, ⟨rfl, rfl, rfl, rfl, rfl⟩, rfl, rfl, rfl, rfl⟩
  | reportInvokeDone token status =>
    cases h
    refine .stays ⟨rfl, rfl, rfl, rfl, rfl, rfl⟩ ?_ rfl rfl
    simp only [InvocationTable.reportInvokeDone, InvocationTable.settleReturned]
    (repeat' split) <;> exact ⟨rfl, rfl, rfl, ⟨rfl, rfl, rfl, rfl, rfl⟩, rfl, rfl, rfl, rfl⟩

end System

end TurboScxml.Session
