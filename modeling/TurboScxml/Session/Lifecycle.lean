import TurboScxml.Session.Tickets

/-!
# The lifecycle of the invocations

* `Numbered`: a done event only completes a token that does not name event metadata;
* `InvocationsAccounted`: what holds of the invocations in every state (`invocations_accounted`).
-/

namespace TurboScxml.Session

open Function Machine Slots InvocationTable

variable {cfg : Config}

namespace System

variable {s s' : System cfg}

/-! ## The tokens of done events -/

theorem commitStaged_lane (s : System cfg) (x : Staged cfg) (answer : Answer) (admitted : Bool) :
    (s.commitStaged x answer admitted).lane = s.lane := by
  cases x with
  | prepared e op => rfl
  | lifecycle e effect => exact endCommit_lane _ _ answer admitted
  | eventMetadata => rfl

theorem discardStaged_lane (s : System cfg) (x : Staged cfg) :
    (s.discardStaged x).lane = s.lane := by
  cases x <;> rfl

variable {i : Fin cfg.invocationCount} {token : ℕ}

theorem step_finalizing {a : Action cfg} (h : step s a = some s') {done : Bool}
    (hlane' : s'.lane = .finalizing i token done) :
    s.lane = .finalizing i token done ∨ token < externalMetadataTokenBit := by
  have hkeep : s'.lane = .discarding ∨ s'.lane = s.lane → s.lane = .finalizing i token done := by
    rintro (h | h)
    · rw [h] at hlane'
      cases hlane'
    · exact h.symm.trans hlane'
  cases a with
  | begin | startPending | succeed =>
    simp only [step] at h
    split_ifs at h
    cases h
    cases hlane'
  | send request raised =>
    simp only [step] at h
    split_ifs at h
    cases h
    refine .inl (hkeep ?_)
    unfold send
    split
    · exact raiseError_lane s raised
    · exact .inr rfl
  | cancel id raised =>
    simp only [step] at h
    split_ifs at h
    cases h
    refine .inl (hkeep ?_)
    unfold cancel
    split
    · exact raiseError_lane s raised
    · exact .inr rfl
    · exact .inr rfl
  | answer answer staged raised =>
    simp only [step] at h
    split at h
    · cases h
      refine .inl (hkeep ?_)
      unfold answerAsked
      split_ifs
      · exact .inr rfl
      · exact .inl rfl
      · exact .inl rfl
      · exact s.lane.aborted_eq.symm
      · exact .inl rfl
    · cases h
  | raise staged =>
    simp only [step] at h
    split_ifs at h <;> cases h
    · exact .inl (hkeep (.inr rfl))
    · exact .inl (hkeep (.inl rfl))
  | enter | exit =>
    simp only [step] at h
    split_ifs at h
    cases h
    exact .inl (hkeep stageLifecycle_lane)
  | preprocess token' event =>
    simp only [step] at h
    split_ifs at h
    cases h
    obtain h | h | ⟨hbit, j, done', h⟩ := preprocess_lane s token' event
    · exact .inl (hkeep (.inl h))
    · rw [h] at hlane'
      cases hlane'
    · rw [h] at hlane'
      cases hlane'
      exact .inr hbit
  | finalized staged =>
    simp only [step] at h
    split at h
    · rename_i source token' done' _
      split_ifs at h
      cases h
      obtain h | ⟨skipped, h⟩ := finalized_lane s source token' done' staged
      · exact .inl (hkeep (.inl h))
      · rw [h] at hlane'
        cases hlane'
    · cases h
  | forwardNext answer staged raised =>
    simp only [step] at h
    split at h
    · split_ifs at h <;> cases h
      · obtain h | h := forwardNext_lane s ⟨_, ‹_›⟩ _ answer
        · exact .inl (hkeep (.inl h))
        · rw [h] at hlane'
          cases hlane'
      · cases hlane'
    · cases h
  | startNext answers staged raised =>
    simp only [step] at h
    split at h
    · split_ifs at h <;> cases h
      · obtain h | h := startNext_lane s ⟨_, ‹_›⟩ answers
        · exact .inl (hkeep (.inl h))
        · rw [h] at hlane'
          cases hlane'
      · cases hlane'
    · cases h
  | fail =>
    simp only [step] at h
    split_ifs at h
    cases h
    cases hlane'
  | commitNext answer admitted =>
    simp only [step] at h
    split at h
    · cases h
      exact .inl (hkeep (.inr (commitStaged_lane _ _ answer admitted)))
    · cases h
  | discardAt index =>
    simp only [step] at h
    split at h
    · cases h
      exact .inl (hkeep (.inr (discardStaged_lane _ _)))
    · cases h
  | finish =>
    simp only [step] at h
    split_ifs at h
    split at h <;> cases h <;> cases hlane'
  | reportSendDone | reportInvokeEvent | reportInvokeDone =>
    cases h
    exact .inl (hkeep (.inr rfl))

structure Numbered (s : System cfg) : Prop where
  lane : ∀ i token done, s.lane = .finalizing i token done → token < externalMetadataTokenBit
  staged : ∀ e x, (e, x) ∈ s.lifecycleStaged → x.kind = .complete →
    x.token < externalMetadataTokenBit
  completed : ∀ token ∈ s.completed, token < externalMetadataTokenBit

variable {x : InvocationEffect cfg.invocationCount}

theorem completedBy_mem {t : InvocationTable cfg} (h : token ∈ completedBy t x) :
    x.kind = .complete ∧ token = x.token := by
  unfold completedBy at h
  split at h
  · rename_i hkind _
    split_ifs at h
    · exact ⟨hkind, List.mem_singleton.mp h⟩
    · cases h
  · cases h

theorem Numbered.move (h : s.Numbered) (hmove : LifecycleMove s s')
    (hlane : ∀ i token done, s'.lane = .finalizing i token done →
      s.lane = .finalizing i token done ∨ token < externalMetadataTokenBit) : s'.Numbered := by
  have hnumbered : ∀ i token done, s'.lane = .finalizing i token done →
      token < externalMetadataTokenBit := fun i token done h' =>
    (hlane i token done h').elim (h.lane i token done) id
  cases hmove with
  | quiet haside | finish haside =>
    exact ⟨hnumbered, by rw [haside.staged]; exact h.staged,
      by rw [haside.completed]; exact h.completed⟩
  | begin haside =>
    exact ⟨hnumbered, by rw [haside.staged]; exact h.staged,
      by rw [haside.completed]; exact h.completed⟩
  | stage e kind i token ticket _ hdone _ _ _ _ _ _ hstaged _ _ _ hcompleted =>
    refine ⟨hnumbered, fun e' x' hmem hkind => ?_, by rw [hcompleted]; exact h.completed⟩
    rw [hstaged] at hmem
    obtain hmem | hmem := List.mem_append.mp hmem
    · exact h.staged e' x' hmem hkind
    · obtain ⟨-, rfl⟩ : e' = e ∧ x' = lifecycle kind i token ticket := by simpa using hmem
      obtain ⟨done, hfinal⟩ := hdone hkind
      exact h.lane i token done hfinal
  | reserve e i token id ownId ticket t _ _ _ _ _ _ _ hstaged _ _ _ hcompleted =>
    refine ⟨hnumbered, fun e' x' hmem hkind => ?_, by rw [hcompleted]; exact h.completed⟩
    rw [hstaged] at hmem
    obtain hmem | hmem := List.mem_append.mp hmem
    · exact h.staged e' x' hmem hkind
    · obtain ⟨-, rfl⟩ := Prod.mk.inj (List.mem_singleton.mp hmem)
      cases ticket <;> cases hkind
  | drop _ _ _ _ hstaged _ _ hcompleted =>
    exact ⟨hnumbered, by rw [hstaged]; exact h.staged, by rw [hcompleted]; exact h.completed⟩
  | commit e x answer admitted _ _ hstaged _ _ _ _ hcompleted =>
    refine ⟨hnumbered, fun e' x' hmem => h.staged e' x' ?_, fun token hmem => ?_⟩
    · rw [hstaged]
      exact List.mem_cons_of_mem _ hmem
    · rw [hcompleted] at hmem
      obtain hmem | hmem := List.mem_append.mp hmem
      · exact h.completed token hmem
      · obtain ⟨hkind, rfl⟩ := completedBy_mem hmem
        exact h.staged e x (by simp [hstaged]) hkind
  | discard e x before after _ _ hstaged hstaged' _ _ _ hcompleted =>
    refine ⟨hnumbered, fun e' x' hmem => h.staged e' x' ?_, by rw [hcompleted]; exact h.completed⟩
    rw [hstaged'] at hmem
    rw [hstaged]
    exact List.perm_middle.mem_iff.mpr (List.mem_cons_of_mem _ hmem)

theorem reachable_numbered (h : Reachable s) : s.Numbered := by
  have hall : s.SendsSound ∧ s.Numbered := by
    refine h.invariant (P := fun s => s.SendsSound ∧ s.Numbered) ?_ ?_
    · rintro s rfl
      refine ⟨init_sendsSound,
        ⟨fun i token done hlane => ?_, fun e x hmem => ?_, fun token hmem => ?_⟩⟩
      · cases hlane
      · cases hmem
      · cases hmem
    · rintro s a s' ⟨hs, hn⟩ hstep
      exact ⟨hs.step hstep, hn.move (step_moves hstep hs.askedUse).lifecycle
        fun i token done hlane => step_finalizing hstep hlane⟩
  exact hall.2

/-! ## Single steps -/

variable (hl : s.LifecycleSound)
include hl

variable {e : Fin (cfg.effectCapacity + 1)}

/-- **A start is committed** unless its row was exited. -/
theorem LifecycleSound.commit_start
    {rest : List (Staged cfg)} {ticket : AdapterTicket} {answer : Answer} {admitted : Bool}
    (hstaged : s.staged = .lifecycle e x :: rest) (hkind : x.kind = .start)
    (hi : x.invocation = some i) (hticket : x.adapterTicket = some ticket)
    (hstep : s.step (.commitNext answer admitted) = some s') :
    s'.settled = s.settled ++ [(ticket, if s.exited i then .discarded else .committed)] := by
  have hstaged' : Staged.lifecycle e x ∈ s.staged := by simp [hstaged]
  obtain ⟨hx, hproper⟩ := hl.staged_backs hstaged'
  have hmem : (e, x) ∈ s.lifecycleStaged := List.mem_filterMap.mpr ⟨_, hstaged', rfl⟩
  simp only [System.step, hstaged] at hstep
  split at hstep
  · rename_i y rest' hlane hcons
    obtain ⟨rfl, rfl⟩ := List.cons.inj hcons
    cases hstep
    have hreserved : (s.invocations.rows i).state = .startReserved ∧
        (s.invocations.rows i).token = x.token ↔ s.exited i = false := by
      constructor
      · rintro ⟨hstate, -⟩
        by_contra hexited
        exact (hl.reserved.left i (by simpa using hexited)).1 hstate
      · intro hexited
        obtain hfor | hexited' := hl.reserved.held e x i hmem ⟨hi, .inl hkind⟩
        · obtain ⟨-, hstate⟩ | ⟨hfail, -⟩ := hfor.state
          · exact ⟨hstate, hfor.2⟩
          · rw [hkind] at hfail
            cases hfail
        · rw [hexited] at hexited'
          cases hexited'
    have hending : (s.invocations.commitLocked e).2
        = if s.exited i then .discard ticket else .commit ticket := by
      rw [commitLocked_eq hx hproper.inUse hi]
      cases hexited : s.exited i with
      | false =>
        have hrow := hreserved.mpr hexited
        simp [committedRow, hkind, hrow, commitEnding, hticket]
      | true =>
        have hrow : ¬((s.invocations.rows i).state = .startReserved ∧
            (s.invocations.rows i).token = x.token) := by
          rw [hreserved, hexited]
          simp
        simp [committedRow, hkind, hrow, commitEnding, hticket]
    simp only [commitStaged, hending]
    cases s.exited i <;> rfl
  · cases hstep

/-- **The discard of a start or failure** makes its row pending. -/
theorem LifecycleSound.discard_reserved {index : ℕ}
    (hstaged : s.staged[index]? = some (.lifecycle e x))
    (hi : x.invocation = some i) (hkind : x.kind = .start ∨ x.kind = .fail)
    (hstep : s.step (.discardAt index) = some s') :
    s'.invocations.rows i = .blank .pending := by
  have hstaged' : Staged.lifecycle e x ∈ s.staged := List.mem_of_getElem? hstaged
  obtain ⟨hx, hproper⟩ := hl.staged_backs hstaged'
  have hmem : (e, x) ∈ s.lifecycleStaged := List.mem_filterMap.mpr ⟨_, hstaged', rfl⟩
  simp only [System.step, hstaged] at hstep
  split at hstep
  · rename_i y hlane hy
    obtain rfl := Option.some.inj hy
    cases hstep
    have hexited : s.exited i = false := hl.exitedLane (by simp [hlane]) (by simp [hlane]) i
    have hfor := (hl.reserved.held e x i hmem ⟨hi, hkind⟩).resolve_right (by simp [hexited])
    obtain ⟨⟨row, hrows, hback⟩, -⟩ := discard_givenBack hx hproper.inUse hi
    change (s.invocations.discardInvocationLifecycle e).1.rows i = _
    rw [hrows, update_self]
    cases hback with
    | kept hreserved => exact absurd hfor hreserved
    | pending => rfl
  · cases hstep

theorem LifecycleSound.completed_gone (hmem : token ∈ s.completed) :
    token ≠ 0 ∧ s.invocations.findActive token = none :=
  ⟨(hl.tokens.issued token hmem).1,
    findActive_none.mpr fun i _ => hl.tokens.gone token hmem i⟩

/-- **A later done event is dropped.** -/
theorem preprocess_completed (hn : s.Numbered) {event : ℕ}
    (hmem : token ∈ s.completed) (hstep : step s (.preprocess token event) = some s') :
    s' = { s with invocations := s.invocations.rejectReturned, lane := .discarding } := by
  obtain ⟨hzero, hnone⟩ := hl.completed_gone hmem
  have hbit := hn.completed token hmem
  simp only [step] at hstep
  split_ifs at hstep
  cases hstep
  rw [preprocess, if_neg (by simp [hzero, hbit]), hnone]

theorem reportInvokeDone_completed (hmem : token ∈ s.completed) (status : MailboxStatus) :
    s.invocations.reportInvokeDone token status
      = (s.invocations.rejectReturned, .invalidArgument) := by
  obtain ⟨hzero, hnone⟩ := hl.completed_gone hmem
  rw [reportInvokeDone, if_neg hzero, hnone]

omit hl

/-! ## The lifecycle -/

/-- **What holds of the invocations of a Session.** -/
structure InvocationsAccounted (s : System cfg) : Prop where
  active : s.invocations.stats.active = tally (InvocationRow.isIn .active) s.invocations.rows
  started : s.invocations.stats.started = s.invocations.stats.active
    + s.invocations.stats.completed + s.invocations.stats.cancelled
    + s.invocations.stats.cancelFailed
  oneActive : ∀ i j, (s.invocations.rows i).state = .active →
    (s.invocations.rows j).state = .active →
    (s.invocations.rows i).token = (s.invocations.rows j).token → i = j
  once : ∀ ticket : ℕ, ticket < s.nextTicket → s.owed ticket = 1
  settled : s.lane = .idle → ∀ ticket : ℕ, ticket < s.nextTicket →
    (s.settled.map Prod.fst).count ticket = 1
  startEnds : ∀ e x rest i ticket answer admitted s', s.staged = .lifecycle e x :: rest →
    x.kind = .start → x.invocation = some i → x.adapterTicket = some ticket →
    step s (.commitNext answer admitted) = some s' →
    s'.settled = s.settled ++ [(ticket, if s.exited i then .discarded else .committed)]
  givenBack : ∀ index e x i s', s.staged[index]? = some (.lifecycle e x) → x.invocation = some i →
    x.kind = .start ∨ x.kind = .fail → step s (.discardAt index) = some s' →
    s'.invocations.rows i = .blank .pending
  completedOnce : s.completed.Nodup
  dropped : ∀ token ∈ s.completed, (∀ event s', step s (.preprocess token event) = some s' →
      s' = { s with invocations := s.invocations.rejectReturned, lane := .discarding }) ∧
    ∀ status, s.invocations.reportInvokeDone token status
      = (s.invocations.rejectReturned, .invalidArgument)

/-- **The invocation lifecycle** in every reachable state. -/
theorem invocations_accounted (h : Reachable s) : s.InvocationsAccounted := by
  have hl := reachable_lifecycleSound h
  have ht := reachable_ticketsSound h
  refine ⟨hl.balanced.active, hl.balanced.started, fun i j hi _ heq => ?_,
    fun ticket hticket => ?_, fun hidle ticket hticket => ?_, ?_, ?_, hl.tokens.nodup,
    fun token hmem => ⟨fun event s' hstep => ?_, ?_⟩⟩
  · exact hl.tokens.distinct i j heq (hl.tokens.token_ne_zero (by simp [hi]) (by simp [hi]))
  · have howed := ht.accounts ticket
    rwa [if_pos hticket, List.count_nil, Nat.add_zero] at howed
  · exact ht.settled_once (reachable_sendsSound h) hl hidle hticket
  · intro e x rest i ticket answer admitted s' hstaged hkind hi hticket hstep
    exact hl.commit_start hstaged hkind hi hticket hstep
  · intro index e x i s' hstaged hi hkind hstep
    exact hl.discard_reserved hstaged hi hkind hstep
  · exact preprocess_completed hl (reachable_numbered h) hmem hstep
  · exact reportInvokeDone_completed hl hmem

def invokeRun : List (Action smallConfig) :=
  [.begin, .enter ⟨0, by decide⟩ true, .succeed, .commitNext acceptedAnswer true, .finish,
    .begin, .startPending, .startNext ⟨true, .stored, true, acceptedAnswer⟩ true true,
    .startNext ⟨true, .stored, true, acceptedAnswer⟩ true true, .succeed,
    .commitNext acceptedAnswer true, .finish, .reportInvokeDone 1 .ok, .begin, .preprocess 1 1,
    .finalized true, .forwardNext acceptedAnswer true true, .forwardNext acceptedAnswer true true,
    .succeed, .commitNext acceptedAnswer true, .finish]

theorem invokeRun_isSome : (exec step (init smallConfig) invokeRun).isSome = true := by decide

def invokeState : System smallConfig :=
  (exec step (init smallConfig) invokeRun).get invokeRun_isSome

theorem invokeState_accounted :
    invokeState.completed = [1] ∧ invokeState.invocations.stats.started = 1 ∧
      invokeState.invocations.stats.started = invokeState.invocations.stats.active
        + invokeState.invocations.stats.completed + invokeState.invocations.stats.cancelled
        + invokeState.invocations.stats.cancelFailed := by
  have hreach : invokeState.Reachable :=
    Reachable.runs (.of_init rfl) (exec_runs (Option.some_get invokeRun_isSome).symm)
  exact ⟨by decide, by decide, (invocations_accounted hreach).started⟩

end System

end TurboScxml.Session
