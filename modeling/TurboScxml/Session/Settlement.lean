import TurboScxml.Session.Replay
import TurboScxml.Session.Tickets

/-!
# The effects of a Session are settled once

* `EffectsSettle`: what holds of the effects in every state;
* `effects_settle`: every reachable state has it.
-/

namespace TurboScxml.Session

open Function Machine

variable {cfg : Config}

def committedOps (history : List SendEvent) : List SendOp :=
  history.filterMap fun
    | .committed op => some op
    | _ => none

namespace System

variable {s s' : System cfg}

def stagedOps (s : System cfg) : List SendOp := s.preparedStaged.map Prod.snd

/-- The first of the staged sends and cancels were committed. -/
def CommitsRest (s s' : System cfg) : Prop :=
  s'.entry = s.entry ∧ ∃ events, s'.history = s.history ++ events ∧
    s.stagedOps = committedOps events ++ s'.stagedOps

theorem CommitsRest.refl (s : System cfg) : CommitsRest s s := ⟨rfl, [], by simp, rfl⟩

theorem CommitsRest.trans {s'' : System cfg} (h : CommitsRest s s') (h' : CommitsRest s' s'') :
    CommitsRest s s'' := by
  obtain ⟨hentry, events, hhistory, hops⟩ := h
  obtain ⟨hentry', events', hhistory', hops'⟩ := h'
  refine ⟨hentry'.trans hentry, events ++ events', ?_, ?_⟩
  · rw [hhistory', hhistory, List.append_assoc]
  · rw [hops, hops', committedOps, committedOps, committedOps, List.filterMap_append,
      List.append_assoc]

def Ending (s : System cfg) : Prop :=
  s.lane = .committing ∨ (s.lane = .idle ∧ s.outcome = .committed)

theorem Ending.replaying (h : s.Ending) : s.Replaying := by
  obtain h | ⟨h, houtcome⟩ := h
  · exact ⟨by simp [h], by simp [h]⟩
  · exact ⟨by simp [h], fun _ => houtcome⟩

theorem step_idle {a : Action cfg} (hidle : s.lane = .idle) (hnone : s.asked = none)
    (hbegin : a ≠ .begin) (hstep : s.step a = some s') : s'.lane = .idle := by
  cases a with
  | begin => exact absurd rfl hbegin
  | reportSendDone | reportInvokeEvent | reportInvokeDone =>
    cases hstep
    exact hidle
  | answer =>
    simp only [step, hnone] at hstep
    cases hstep
  | _ => simp [step, hidle, Lane.runsBlocks] at hstep

theorem step_commitsRest {a : Action cfg} (hs : s.SendsSound) (hlane : Ending s)
    (hbegin : a ≠ .begin) (hstep : s.step a = some s') : Ending s' ∧ CommitsRest s s' := by
  have hblocks : s.lane.runsBlocks = false := by
    obtain h | ⟨h, -⟩ := hlane <;> rw [h] <;> rfl
  have hmove := (step_moves hstep hs.askedUse).sends
  cases hmove with
  | quiet haside hlane' =>
    refine ⟨?_, haside.entry, [], by simp [haside.history], ?_⟩
    · obtain h | ⟨hidle, hopen, -⟩ := hlane'
      · rwa [Ending, h, haside.outcome]
      · obtain h | ⟨h, -⟩ := hlane
        · simp [h, Lane.settling] at hopen
        · exact absurd h hidle
    · simp [stagedOps, haside.prepared, committedOps]
  | begin hidle hlane' =>
    have := step_idle hidle (hs.asked_none hblocks) hbegin hstep
    rw [hlane'] at this
    cases this
  | askSend _ _ h | askCancel _ _ h =>
    rw [hblocks] at h
    cases h
  | accept e op _ hasked | refuse e op _ _ hasked =>
    rw [hs.asked_none hblocks] at hasked
    cases hasked
  | commit e op _ hlane' _ _ hprepared hhistory hentry =>
    refine ⟨.inl hlane', hentry, _, hhistory, ?_⟩
    simp [stagedOps, hprepared, committedOps]
  | discard _ _ _ _ h =>
    rw [Ending, h] at hlane
    simp at hlane
  | finish hsettling hlane' hstaged hstaged' _ _ hhistory hentry houtcome =>
    have hcommitting : s.lane = .committing := by
      obtain h | ⟨h, -⟩ := hlane
      · exact h
      · rw [h] at hsettling
        cases hsettling
    rw [if_pos hcommitting] at houtcome
    refine ⟨.inr ⟨hlane', houtcome⟩, hentry, [], by simp [hhistory], ?_⟩
    simp [stagedOps, preparedStaged, hstaged, hstaged', committedOps]
  | report id hlane' _ hprepared _ hhistory hentry houtcome =>
    refine ⟨by rwa [Ending, hlane', houtcome], hentry, ?_⟩
    split_ifs at hhistory
    · exact ⟨_, hhistory, by simp [stagedOps, hprepared, committedOps]⟩
    · exact ⟨[], by simpa using hhistory, by simp [stagedOps, hprepared, committedOps]⟩

theorem exec_commitsRest {as : List (Action cfg)} (hs : s.SendsSound) (hlane : Ending s)
    (hbegin : .begin ∉ as) (hexec : exec step s as = some s') :
    Ending s' ∧ CommitsRest s s' := by
  induction as generalizing s with
  | nil =>
    obtain rfl : s = s' := by simpa [exec] using hexec
    exact ⟨hlane, .refl s⟩
  | cons a as ih =>
    obtain ⟨t, hstep, hrest⟩ := Option.bind_eq_some_iff.mp hexec
    rw [List.mem_cons, not_or] at hbegin
    obtain ⟨hlane', hcommits⟩ := step_commitsRest hs hlane (Ne.symm hbegin.1) hstep
    obtain ⟨hending, hcommits'⟩ := ih (hs.step hstep) hlane' hbegin.2 hrest
    exact ⟨hending, hcommits.trans hcommits'⟩

/-- **What holds of the effects of a Session.** -/
structure EffectsSettle (s : System cfg) : Prop where
  once : ∀ ticket : ℕ, ticket < s.nextTicket → s.sends.heldTickets ticket
    + s.invocations.heldTickets ticket + (s.settled.map Prod.fst).count ticket = 1
  given : ∀ ticket : ℕ, ticket ∈ s.settled.map Prod.fst → ticket < s.nextTicket
  settled : s.lane = .idle → ∀ ticket : ℕ, ticket < s.nextTicket →
    (s.settled.map Prod.fst).count ticket = 1
  pools : s.lane = .idle → (∀ e, (s.sends.preparedEffects e).inUse = false) ∧
    ∀ e, (s.invocations.effects e).inUse = false
  distinct : s.sends.LiveDistinct
  registry : s.lane = .idle → ∀ k, s.sends.delayedSends k = .free ∨
    (s.sends.delayedSends k).state = .active
  replayed : s.lane = .idle → s.outcome = .committed →
    activeIds s.sends.delayedSends = s.replay
  inOrder : s.lane = .committing → ∀ (as : List (Action cfg)) (s' : System cfg), .begin ∉ as →
    exec step s as = some s' → s'.lane = .idle → ∃ events, committedOps events = s.stagedOps ∧
      activeIds s'.sends.delayedSends = events.foldl SendEvent.apply s.replay

/-- **Exactly-once settlement** in every reachable state. -/
theorem effects_settle (h : Reachable s) : s.EffectsSettle := by
  have hs := reachable_sendsSound h
  have hl := reachable_lifecycleSound h
  have ht := reachable_ticketsSound h
  refine ⟨fun ticket hticket => ?_, fun ticket hmem => ?_, fun hidle ticket hticket => ?_,
    fun hidle => ⟨hs.unused hidle, hl.unused hidle⟩, hs.distinct, fun hidle k => ?_,
    fun hidle houtcome => ?_, fun hlane as s' hbegin hexec hidle => ?_⟩
  · have howed := ht.accounts ticket
    rwa [if_pos hticket, owed, List.count_nil, Nat.add_zero] at howed
  · by_contra hlt
    have howed := ht.accounts ticket
    rw [if_neg hlt, owed] at howed
    have := List.count_pos_iff.mpr hmem
    omega
  · exact ht.settled_once hs hl hidle hticket
  · exact (hs.settled hidle k).imp_right And.left
  · exact (reachable_replayed h ⟨by simp [hidle], fun _ => houtcome⟩).activeIds_eq hs hidle
  · have hreach := h.runs (exec_runs hexec)
    obtain ⟨hending, hentry, events, hhistory, hops⟩ :=
      exec_commitsRest hs (.inl hlane) hbegin hexec
    have hs' := reachable_sendsSound hreach
    rw [stagedOps, stagedOps, hs'.idle hidle, List.map_nil, List.append_nil] at hops
    refine ⟨events, hops.symm, ?_⟩
    rw [(reachable_replayed hreach hending.replaying).activeIds_eq hs' hidle,
      replay_append hentry hhistory]

def settleRun : List (Action smallConfig) :=
  [.begin, .send ⟨['x'], 5, false⟩ true, .answer acceptedAnswer true true,
    .cancel ['x'] true, .answer acceptedAnswer true true, .succeed,
    .commitNext acceptedAnswer true, .commitNext acceptedAnswer true, .finish]

theorem settleRun_isSome : (exec step (init smallConfig) settleRun).isSome = true := by decide

def settleState : System smallConfig :=
  (exec step (init smallConfig) settleRun).get settleRun_isSome

theorem settleState_settled :
    settleState.nextTicket = 2 ∧ activeIds settleState.sends.delayedSends = settleState.replay ∧
      ∀ ticket : ℕ, ticket < settleState.nextTicket →
        (settleState.settled.map Prod.fst).count ticket = 1 := by
  have hreach : settleState.Reachable :=
    Reachable.runs (.of_init rfl) (exec_runs (Option.some_get settleRun_isSome).symm)
  exact ⟨by decide, (effects_settle hreach).replayed (by decide) (by decide),
    (effects_settle hreach).settled (by decide)⟩

end System

end TurboScxml.Session
