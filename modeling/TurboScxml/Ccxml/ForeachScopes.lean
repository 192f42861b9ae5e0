import TurboScxml.Ccxml.TicketLedger

/-!
# Foreach scopes of a CCXML transition

* `Scopes.Sound`: the committed scope is the one before, and what is not in use is empty;
* `Scopes.Steady`: moreover a checkpoint is live exactly while a foreach frame is;
* **`Running.iterate`**: a round of the loop keeps the session running, or it fails with all tickets
  discarded.
-/

namespace TurboScxml.Ccxml

open EffectLog

variable {σ : Type} [EmptyCollection σ] {program : Program} {before : σ}

/-! ## Scopes -/

namespace Scopes

variable {s s' : Scopes σ} {replies : Replies σ}

structure Sound (program : Program) (before : σ) (s : Scopes σ) : Prop where
  committed : s.committed = before
  zero : s.frame.live = false → s.frame = {}
  inside : s.frame.live = true →
    program.usesForeach = true ∧ s.frame.actionIndex < program.actionCount
  pending : s.checkpointLive = true → s.transactionPending = true
  staged : s.transactionPending = false → s.staged = ∅
  checkpoint : s.checkpointLive = false → s.checkpoint = ∅

/-- A checkpoint is live exactly while a foreach frame is. -/
structure Steady (program : Program) (before : σ) (s : Scopes σ) : Prop
    extends Sound program before s where
  live : s.checkpointLive = s.frame.live

variable (h : Sound program before s)
include h

theorem Sound.closeForeachFrame_eq : s.closeForeachFrame program = { s with frame := {} } := by
  unfold closeForeachFrame
  cases hlive : s.frame.live with
  | false =>
    rw [if_pos (.inl rfl)]
    have hzero := h.zero hlive
    cases s
    simp only at hzero
    rw [hzero]
  | true =>
    obtain ⟨huses, hindex⟩ := h.inside hlive
    rw [if_neg]
    rintro (hfalse | hfalse | hfalse)
    · cases hfalse
    · rw [huses] at hfalse
      cases hfalse
    · omega

theorem Sound.closeForeachFrame : Sound program before (s.closeForeachFrame program) ∧
      (s.closeForeachFrame program).frame = {} := by
  rw [h.closeForeachFrame_eq]
  exact ⟨⟨h.committed, fun _ => rfl, fun hlive => (by cases hlive), h.pending, h.staged,
    h.checkpoint⟩, rfl⟩

theorem Sound.settleForeachBlock (succeeded : Bool) :
    Sound program before (s.settleForeachBlock succeeded) ∧
      (s.settleForeachBlock succeeded).checkpointLive = false ∧
      (s.settleForeachBlock succeeded).frame = s.frame := by
  unfold Scopes.settleForeachBlock
  cases hlive : s.checkpointLive with
  | false => exact ⟨h, hlive, rfl⟩
  | true =>
    have hpending := h.pending hlive
    have hstaged : s.transactionPending = false → s.checkpoint = ∅ := fun hfalse => by
      rw [hpending] at hfalse
      cases hfalse
    cases succeeded with
    | true =>
      exact ⟨⟨h.committed, h.zero, h.inside, fun _ => hpending, h.staged, fun _ => rfl⟩, rfl, rfl⟩
    | false =>
      exact ⟨⟨h.committed, h.zero, h.inside, fun _ => hpending, hstaged, fun _ => rfl⟩, rfl, rfl⟩

theorem Sound.discardForeachScope : Sound program before s.discardForeachScope ∧
      s.discardForeachScope.transactionPending = false ∧
      s.discardForeachScope.checkpointLive = false ∧
      s.discardForeachScope.frame = s.frame := by
  unfold Scopes.discardForeachScope
  cases hpending : s.transactionPending with
  | false =>
    refine ⟨h, hpending, ?_, rfl⟩
    by_contra hlive
    rw [h.pending (by simpa using hlive)] at hpending
    cases hpending
  | true =>
    exact ⟨⟨h.committed, h.zero, h.inside, fun hlive => (by cases hlive), fun _ => rfl,
      fun _ => rfl⟩, rfl, rfl, rfl⟩

theorem Sound.beginForeachBlock {begun : Bool}
    (hbegin : s.beginForeachBlock replies = (s', begun)) :
    Sound program before s' ∧ s'.frame = s.frame ∧
      (begun = true → s'.checkpointLive = true) := by
  have hopen : ∀ copied t, s.openTransaction copied = some t →
      Sound program before t ∧ t.frame = s.frame ∧ t.transactionPending = true := by
    intro copied t hopened
    unfold openTransaction at hopened
    split_ifs at hopened with hpending
    all_goals obtain rfl := Option.some.inj hopened
    · exact ⟨h, rfl, hpending⟩
    · exact ⟨⟨h.committed, h.zero, h.inside, fun _ => rfl, fun hfalse => (by cases hfalse),
        h.checkpoint⟩, rfl, rfl⟩
  unfold Scopes.beginForeachBlock at hbegin
  split_ifs at hbegin
  · obtain ⟨rfl, rfl⟩ := Prod.mk.inj hbegin
    exact ⟨h, rfl, fun hfalse => (by cases hfalse)⟩
  · cases hopened : s.openTransaction replies.stagedCopied with
    | none =>
      rw [hopened] at hbegin
      obtain ⟨rfl, rfl⟩ := Prod.mk.inj hbegin
      exact ⟨h, rfl, fun hfalse => (by cases hfalse)⟩
    | some t =>
      obtain ⟨ht, hframe, hpending⟩ := hopen _ t hopened
      simp only [hopened, takeCheckpoint] at hbegin
      split_ifs at hbegin
      all_goals obtain ⟨rfl, rfl⟩ := Prod.mk.inj hbegin
      · exact ⟨ht, hframe, fun hfalse => (by cases hfalse)⟩
      · exact ⟨⟨ht.committed, ht.zero, ht.inside, fun _ => hpending, ht.staged,
          fun hfalse => (by cases hfalse)⟩, hframe, fun _ => rfl⟩

omit h

theorem Steady.moveStaged (h : Steady program before s) (hlive : s.frame.live = true)
    (staged : σ) : Steady program before { s with staged := staged } := by
  have hpending := h.pending (h.live.trans hlive)
  refine ⟨⟨h.committed, h.zero, h.inside, h.pending, fun hfalse => ?_, h.checkpoint⟩, h.live⟩
  rw [hpending] at hfalse
  cases hfalse

theorem Sound.leave (h : Sound program before s) (succeeded : Bool) :
    Steady program before ((s.closeForeachFrame program).settleForeachBlock succeeded) ∧
      ((s.closeForeachFrame program).settleForeachBlock succeeded).frame = {} := by
  obtain ⟨hclosed, hzero⟩ := h.closeForeachFrame
  obtain ⟨hsettled, hlive, hframe⟩ := hclosed.settleForeachBlock succeeded
  rw [hzero] at hframe
  exact ⟨⟨hsettled, by rw [hlive, hframe]⟩, hframe⟩

end Scopes

namespace Session

variable {s s' : Session σ} {replies : Replies σ} {transition : TransitionRow} {event : Event}
  {loop : Loop} {round : Round} {status : Status} {actionIndex : ℕ} {action : ActionRow}

/-! ## Rounds -/

structure Running (program : Program) (before : σ) (s : Session σ) : Prop where
  tickets : Open s
  prepared : s.preparedTicketCount = 0
  scopes : s.scopes.Steady program before

structure Broken (program : Program) (before : σ) (s : Session σ) : Prop where
  ledger : Ledger s
  none : s.tickets = []
  prepared : s.preparedTicketCount = 0
  scopes : s.scopes.Sound program before

def After (program : Program) (before : σ) (s : Session σ) : Round → Prop
  | .next _ => Running program before s
  | .exit => Running program before s
  | .fail status => status ≠ .ok ∧ Broken program before s

omit [EmptyCollection σ] in
theorem Ledger.withScopes (h : Ledger s) (scopes : Scopes σ) : Ledger { s with scopes := scopes } :=
  ⟨h.balanced, h.fresh, h.committed⟩

variable {scopes : Scopes σ}

theorem Running.withScopes (h : Running program before s) (hscopes : scopes.Steady program before) :
    Running program before { s with scopes := scopes } :=
  ⟨⟨h.tickets.toLedger.withScopes scopes, h.tickets.kept, h.tickets.order⟩, h.prepared, hscopes⟩

theorem After.fail (h : Ledger s) (hprepared : s.preparedTicketCount = 0)
    (hscopes : s.scopes.Sound program before) (hstatus : status ≠ .ok) :
    After program before (s.fail status).1 (s.fail status).2 := by
  have hdiscard := h.discardTickets
  refine ⟨hstatus, hdiscard.ledger, hdiscard.none, hdiscard.same.prepared.trans hprepared, ?_⟩
  rwa [Session.fail, hdiscard.same.scopes]

theorem Running.fail (h : Running program before s) (hstatus : status ≠ .ok) :
    After program before (s.fail status).1 (s.fail status).2 :=
  .fail h.tickets.toLedger h.prepared h.scopes.toSound hstatus

theorem foreachExpressionStatus_ne (status : ExprStatus) :
    foreachExpressionStatus status ≠ .ok := by
  cases status <;> decide

variable (h : Running program before s)
include h

theorem Running.failBlock (hscopes : scopes.Sound program before) (status : ExprStatus) :
    After program before (s.failBlock scopes status).1 (s.failBlock scopes status).2 :=
  .fail (h.tickets.toLedger.withScopes _) h.prepared (hscopes.settleForeachBlock false).1
    (foreachExpressionStatus_ne status)

theorem Running.advanceItem
    (hscopes : scopes.Steady program before) (hlive : scopes.frame.live = true) (index : ℕ) :
    After program before (s.advanceItem program replies loop scopes index).1
      (s.advanceItem program replies loop scopes index).2 := by
  have hmoved := hscopes.moveStaged hlive replies.foreachScope
  unfold Session.advanceItem
  split_ifs
  · exact h.failBlock hmoved.toSound.closeForeachFrame.1 _
  · exact h.withScopes hmoved

theorem Running.leaveBlock (hscopes : scopes.Sound program before) (index : ℕ) :
    After program before (s.leaveBlock program loop scopes index).1
      (s.leaveBlock program loop scopes index).2 :=
  h.withScopes (hscopes.leave true).1

/-- **`foreach`** -/
theorem Running.foreachRound (hindex : actionIndex < program.actionCount) :
    After program before (s.foreachRound program transition replies loop actionIndex action).1
      (s.foreachRound program transition replies loop actionIndex action).2 := by
  unfold Session.foreachRound
  by_cases hrefused : s.scopes.frame.live = true ∨ program.usesForeach = false ∨
      action.branchNext ≠ actionIndex + 1 ∨ action.blockEnd ≤ action.branchNext ∨
      transition.firstAction + transition.actionCount < action.blockEnd
  · rw [if_pos hrefused]
    exact h.fail (by decide)
  rw [if_neg hrefused]
  simp only [not_or, Bool.not_eq_true, Bool.not_eq_false] at hrefused
  cases hbegin : s.scopes.beginForeachBlock replies with
  | mk scopes begun =>
    obtain ⟨hscopes, hframe, hlive⟩ := h.scopes.toSound.beginForeachBlock hbegin
    cases begun with
    | false =>
      exact .fail (h.tickets.toLedger.withScopes _) h.prepared hscopes (by decide)
    | true =>
      have hopened : (({ scopes with
          frame := {
            scopes.frame with
            actionIndex := actionIndex
            length := replies.foreachLength
            snapshotOpen := true
            valueOpen := true
            live := true } } : Scopes σ)).Steady program before :=
        ⟨⟨hscopes.committed, fun hfalse => (by cases hfalse), fun _ => ⟨hrefused.2.1, hindex⟩,
          hscopes.pending, hscopes.staged, hscopes.checkpoint⟩, hlive rfl⟩
      dsimp only
      unfold openForeach
      by_cases hopen : replies.foreachOpen ≠ .ok
      · rw [if_pos hopen]
        exact h.failBlock hscopes _
      rw [if_neg hopen]
      by_cases hvalue : replies.foreachValue ≠ .ok
      · rw [if_pos hvalue]
        exact h.failBlock hscopes _
      rw [if_neg hvalue]
      by_cases hempty : replies.foreachLength = 0
      · rw [if_pos hempty]
        exact h.leaveBlock hopened.toSound _
      · rw [if_neg hempty]
        exact h.advanceItem hopened rfl _

/-- **`endforeach`** -/
theorem Running.endforeachRound :
    After program before (s.endforeachRound program transition replies loop action).1
      (s.endforeachRound program transition replies loop action).2 := by
  unfold Session.endforeachRound
  by_cases hrefused : s.scopes.frame.live = false ∨
      action.branchNext ≠ s.scopes.frame.actionIndex ∨
      program.actionCount ≤ s.scopes.frame.actionIndex
  · rw [if_pos hrefused]
    exact h.fail (by decide)
  rw [if_neg hrefused]
  simp only [not_or, Bool.not_eq_false] at hrefused
  have hlive := hrefused.1
  have hcounted : (({ s.scopes with
      frame := { s.scopes.frame with iteration := s.scopes.frame.iteration + 1 } }
      : Scopes σ)).Steady program before := by
    refine ⟨⟨h.scopes.committed, fun hfalse => ?_, h.scopes.inside, h.scopes.pending,
      h.scopes.staged, h.scopes.checkpoint⟩, h.scopes.live⟩
    rw [hlive] at hfalse
    cases hfalse
  dsimp only
  split_ifs
  · exact h.advanceItem hcounted hlive _
  · exact h.leaveBlock hcounted.toSound _

theorem Running.branch (blockEnd : ℕ) (rest : List ConditionalFrame) :
    After program before (s.branch transition replies loop action blockEnd rest).1
      (s.branch transition replies loop action blockEnd rest).2 := by
  unfold Session.branch evaluateActionCondition
  cases replies.condition with
  | accepted => exact h
  | _ => exact h.fail (by decide)

theorem Running.invalid :
    After program before (s.fail .invalidContract).1 (s.fail .invalidContract).2 :=
  h.fail (by decide)

/-- **`if`** -/
theorem Running.ifRound : After program before (s.ifRound program transition replies loop action).1
      (s.ifRound program transition replies loop action).2 := by
  unfold Session.ifRound
  split_ifs
  · exact h.invalid
  · exact h.fail (by decide)
  · exact h.branch _ _

/-- **`elseif`** -/
theorem Running.elseifRound : After program before (s.elseifRound transition replies loop action).1
      (s.elseifRound transition replies loop action).2 := by
  unfold Session.elseifRound
  cases loop.conditional with
  | nil => split_ifs <;> exact h.invalid
  | cons frame rest =>
    dsimp only
    split_ifs
    · exact h.invalid
    · exact h.invalid
    · exact h
    · exact h.branch _ _

/-- **`else`** -/
theorem Running.elseRound : After program before (s.elseRound transition loop action).1
      (s.elseRound transition loop action).2 := by
  unfold Session.elseRound
  cases loop.conditional with
  | nil => exact h.invalid
  | cons frame rest =>
    dsimp only
    split_ifs
    · exact h.invalid
    · exact h
    · exact h

/-- **`endif`** -/
theorem Running.endifRound :
    After program before (s.endifRound loop actionIndex).1 (s.endifRound loop actionIndex).2 := by
  unfold Session.endifRound
  cases loop.conditional with
  | nil => exact h.invalid
  | cons frame rest =>
    dsimp only
    split_ifs
    · exact h.invalid
    · exact h

/-- **The actions that call an adapter.** -/
theorem Running.adapterRound :
    After program before (s.adapterRound program replies loop action event).1
      (s.adapterRound program replies loop action event).2 := by
  unfold Session.adapterRound
  cases hplan : planOf program action event replies s.nextSendToken with
  | none => exact h
  | some plan =>
    have hyields := planOf_yields program action event replies hplan
    cases plan with
    | error status => exact h.fail hyields
    | ok plan =>
      have hsame := spendToken_same s action
      cases hperform : (s.spendToken action).perform program.ticketCapacity replies plan with
      | mk t status =>
        simp only [hperform]
        rcases (h.tickets.spendToken action).perform hyields hperform with
          ⟨hok, hopen, hrest⟩ | ⟨hfailed, hemptied⟩
        · rw [if_neg (not_not.mpr hok)]
          refine ⟨hopen, (hrest.prepared.trans hsame.prepared).trans h.prepared, ?_⟩
          rw [hrest.scopes, hsame.scopes]
          exact h.scopes
        · rw [if_pos hfailed]
          refine ⟨hfailed, hemptied.ledger, hemptied.none,
            (hemptied.same.prepared.trans hsame.prepared).trans h.prepared, ?_⟩
          rw [hemptied.same.scopes, hsame.scopes]
          exact h.scopes.toSound

/-- **Main.** A round keeps the session running, or fails with all tickets discarded. -/
theorem Running.iterate (hindex : transition.firstAction + loop.index < program.actionCount)
    (hround : s.iterate program transition replies loop event = (s', round)) :
    After program before s' round := by
  suffices hafter : After program before (s.iterate program transition replies loop event).1
      (s.iterate program transition replies loop event).2 by
    rwa [hround] at hafter
  unfold Session.iterate
  dsimp only
  split
  · exact h.foreachRound hindex
  · exact h.endforeachRound
  · exact h.ifRound
  · exact h.elseifRound
  · exact h.elseRound
  · exact h.endifRound
  · exact h
  · exact h.adapterRound

omit h

end Session

end TurboScxml.Ccxml
