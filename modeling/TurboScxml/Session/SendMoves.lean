import TurboScxml.Session.SendRows
import TurboScxml.Session.System

/-!
# Steps on the delayed sends

* `SendsAside`: a step that leaves the registry, its effects and its history alone;
* `SendsMove`: what a step of the Session can do to them.
-/

namespace TurboScxml.Session

open Function

variable {cfg : Config}

def Staged.prepared? : Staged cfg → Option (Fin cfg.effectCapacity × SendOp)
  | .prepared e op => some (e, op)
  | _ => none

@[simp] theorem Staged.prepared?_prepared (e : Fin cfg.effectCapacity) (op : SendOp) :
    (Staged.prepared e op : Staged cfg).prepared? = some (e, op) := rfl

@[simp] theorem Staged.prepared?_lifecycle (e : Fin (cfg.effectCapacity + 1))
    (effect : InvocationEffect cfg.invocationCount) :
    (Staged.lifecycle e effect : Staged cfg).prepared? = none := rfl

@[simp] theorem Staged.prepared?_eventMetadata :
    (Staged.eventMetadata : Staged cfg).prepared? = none := rfl

def Lane.settling : Lane cfg → Bool
  | .committing | .discarding => true
  | _ => false

theorem Lane.aborted_eq (lane : Lane cfg) : lane.aborted = lane ∨ lane.aborted = .discarding := by
  cases lane <;> simp [Lane.aborted]

theorem Lane.ne_idle {lane lane' : Lane cfg} (h : lane = .discarding ∨ lane = lane')
    (hne : lane' ≠ .idle) : lane ≠ .idle := by
  obtain rfl | rfl := h
  · simp
  · exact hne

variable {lane : Lane cfg}

theorem Lane.of_runsBlocks (h : lane.runsBlocks = true) : lane ≠ .idle ∧ lane.settling = false := by
  cases lane <;> simp_all [Lane.runsBlocks, Lane.settling]

/-- The transaction goes on. -/
def Lane.Open (lane : Lane cfg) : Prop :=
  lane ≠ .idle ∧ lane ≠ .committing ∧ lane ≠ .discarding

theorem Lane.Open.of_runsBlocks (h : lane.runsBlocks = true) : lane.Open := by
  cases lane <;> simp_all [Lane.runsBlocks, Lane.Open]

theorem Lane.Open.settling (h : lane.Open) : lane.settling = false := by
  cases lane <;> simp_all [Lane.settling, Lane.Open]

namespace System

def preparedStaged (s : System cfg) : List (Fin cfg.effectCapacity × SendOp) :=
  s.staged.filterMap Staged.prepared?

/-! ## Steps beside the registry -/

/-- The registry, its effects and its history are left alone. -/
structure SendsAside (s s' : System cfg) : Prop where
  sends : s'.sends = s.sends
  asked : s'.asked = s.asked
  prepared : s'.preparedStaged = s.preparedStaged
  history : s'.history = s.history
  entry : s'.entry = s.entry
  outcome : s'.outcome = s.outcome

variable {s₀ s s' : System cfg}

theorem SendsAside.refl (s : System cfg) : SendsAside s s := ⟨rfl, rfl, rfl, rfl, rfl, rfl⟩

theorem SendsAside.trans {s'' : System cfg} (h : SendsAside s s') (h' : SendsAside s' s'') :
    SendsAside s s'' :=
  ⟨h'.sends.trans h.sends, h'.asked.trans h.asked, h'.prepared.trans h.prepared,
    h'.history.trans h.history, h'.entry.trans h.entry, h'.outcome.trans h.outcome⟩

section Rounds

variable {acquired : Option (InvocationTable cfg × Fin (cfg.effectCapacity + 1))}
  {ticket : Option AdapterTicket} {staged raised : Bool} {lane : Lane cfg}

theorem stageLifecycle_aside (h : SendsAside s₀ s) :
    SendsAside s₀ (s.stageLifecycle acquired ticket staged lane) := by
  refine h.trans ?_
  cases acquired with
  | none => exact ⟨rfl, rfl, rfl, rfl, rfl, rfl⟩
  | some x =>
    cases staged with
    | false => exact ⟨rfl, rfl, rfl, rfl, rfl, rfl⟩
    | true =>
      exact ⟨rfl, rfl, by simp [stageLifecycle, preparedStaged], rfl, rfl, rfl⟩

theorem stageLifecycle_lane : (s.stageLifecycle acquired ticket staged lane).lane = .discarding ∨
    (s.stageLifecycle acquired ticket staged lane).lane = lane := by
  cases acquired with
  | none => exact .inl rfl
  | some x =>
    cases staged with
    | false => exact .inl rfl
    | true => exact .inr rfl

theorem enqueueError_aside (h : SendsAside s₀ s) : SendsAside s₀ (s.enqueueError raised) := by
  refine h.trans ?_
  unfold enqueueError
  split <;> exact ⟨rfl, rfl, rfl, rfl, rfl, rfl⟩

variable (s)

theorem enqueueError_lane (raised : Bool) :
    (s.enqueueError raised).lane = .discarding ∨ (s.enqueueError raised).lane = s.lane := by
  unfold enqueueError
  split
  · exact .inr rfl
  · exact .inl rfl

theorem raiseError_aside (raised : Bool) : SendsAside s (s.raiseError raised) :=
  ⟨rfl, rfl, rfl, rfl, rfl, rfl⟩

theorem raiseError_lane (raised : Bool) :
    (s.raiseError raised).lane = .discarding ∨ (s.raiseError raised).lane = s.lane := by
  cases raised with
  | false => exact .inl rfl
  | true => exact s.lane.aborted_eq.symm

theorem preprocess_aside (token event : ℕ) : SendsAside s (s.preprocess token event) := by
  unfold preprocess
  split
  · exact ⟨rfl, rfl, rfl, rfl, rfl, rfl⟩
  · split <;> exact ⟨rfl, rfl, rfl, rfl, rfl, rfl⟩

theorem preprocess_lane (token event : ℕ) : (s.preprocess token event).lane = .discarding ∨
      (s.preprocess token event).lane = .forwarding 0 none ∨
        token < externalMetadataTokenBit ∧
          ∃ i done, (s.preprocess token event).lane = .finalizing i token done := by
  unfold preprocess
  split
  · exact .inr (.inl rfl)
  · rename_i hbit
    rw [not_or, not_le] at hbit
    split
    · exact .inl rfl
    · exact .inr (.inr ⟨hbit.2, _, _, rfl⟩)

theorem finalized_aside (source : Fin cfg.invocationCount) (token : ℕ)
    (done : Bool) : SendsAside s (s.finalized source token done staged) := by
  cases done with
  | false => exact ⟨rfl, rfl, rfl, rfl, rfl, rfl⟩
  | true => exact stageLifecycle_aside (.refl s)

theorem finalized_lane (source : Fin cfg.invocationCount) (token : ℕ)
    (done staged : Bool) : (s.finalized source token done staged).lane = .discarding ∨
      ∃ skipped, (s.finalized source token done staged).lane = .forwarding 0 skipped := by
  cases done with
  | false => exact .inr ⟨none, rfl⟩
  | true => exact stageLifecycle_lane.imp_right fun h => ⟨_, h⟩

variable (i : Fin cfg.invocationCount)

theorem forwardNext_aside (skipped : Option (Fin cfg.invocationCount)) (answer : Answer) :
    SendsAside s (s.forwardNext i skipped answer staged raised) := by
  unfold forwardNext
  split_ifs
  · exact ⟨rfl, rfl, rfl, rfl, rfl, rfl⟩
  · exact stageLifecycle_aside ⟨rfl, rfl, rfl, rfl, rfl, rfl⟩
  · exact ⟨rfl, rfl, rfl, rfl, rfl, rfl⟩
  · exact enqueueError_aside ⟨rfl, rfl, rfl, rfl, rfl, rfl⟩

theorem forwardNext_lane (skipped : Option (Fin cfg.invocationCount)) (answer : Answer) :
    (s.forwardNext i skipped answer staged raised).lane = .discarding ∨
      (s.forwardNext i skipped answer staged raised).lane = .forwarding (i + 1) skipped := by
  unfold forwardNext
  split_ifs
  · exact .inr rfl
  · exact stageLifecycle_lane
  · exact .inl rfl
  · exact enqueueError_lane _ raised

theorem startNext_aside (answers : InvocationTable.StartAnswers) :
    SendsAside s (s.startNext i answers staged raised) := by
  unfold startNext
  split
  · exact ⟨rfl, rfl, rfl, rfl, rfl, rfl⟩
  · split
    · exact ⟨rfl, rfl, rfl, rfl, rfl, rfl⟩
    · split
      · exact ⟨rfl, rfl, rfl, rfl, rfl, rfl⟩
      · exact enqueueError_aside (stageLifecycle_aside ⟨rfl, rfl, rfl, rfl, rfl, rfl⟩)
      · exact stageLifecycle_aside ⟨rfl, rfl, rfl, rfl, rfl, rfl⟩

theorem startNext_lane (answers : InvocationTable.StartAnswers) :
    (s.startNext i answers staged raised).lane = .discarding ∨
      (s.startNext i answers staged raised).lane = .starting (i + 1) := by
  unfold startNext
  split
  · exact .inr rfl
  · split
    · exact .inl rfl
    · split
      · exact .inl rfl
      · obtain h | h := enqueueError_lane _ raised
        · exact .inl h
        · rw [h]
          exact stageLifecycle_lane
      · exact stageLifecycle_lane

variable {s}

theorem endCommit_aside {ending : InvocationTable.Ending} {answer : Answer} {admitted : Bool}
    (h : SendsAside s₀ s) : SendsAside s₀ (s.endCommit ending answer admitted) := by
  refine h.trans ?_
  unfold endCommit
  (repeat' split) <;> exact ⟨rfl, rfl, rfl, rfl, rfl, rfl⟩

theorem endCommit_lane (s : System cfg) (ending : InvocationTable.Ending) (answer : Answer)
    (admitted : Bool) : (s.endCommit ending answer admitted).lane = s.lane := by
  unfold endCommit
  (repeat' split) <;> rfl

end Rounds

/-! ## Moves -/

def LaneMove (s s' : System cfg) : Prop :=
  s'.lane = s.lane ∨
    (s.lane ≠ .idle ∧ s.lane.settling = false ∧ s.asked = none ∧ s'.lane ≠ .idle)

/-- What a step does to the delayed sends. -/
inductive SendsMove (s s' : System cfg) : Prop
  | quiet (haside : SendsAside s s') (hlane : LaneMove s s')
  | begin (hlane : s.lane = .idle) (hlane' : s'.lane = .running) (hsends : s'.sends = s.sends)
      (hasked : s'.asked = s.asked) (hstaged : s'.staged = s.staged) (hhistory : s'.history = [])
      (hentry : s'.entry = s.sends.delayedSends)
  | askSend (request : SendRequest) (e : Fin cfg.effectCapacity)
      (hlane : s.lane.runsBlocks = true) (hlane' : s'.lane = s.lane) (hasked : s.asked = none)
      (hasked' : s'.asked = some (e, .send request.id (request.delayMs != 0)))
      (hok : s.sends.executeSendReserve request = .ok (s'.sends, e))
      (hprepared : s'.preparedStaged = s.preparedStaged) (hhistory : s'.history = s.history)
      (hentry : s'.entry = s.entry) (houtcome : s'.outcome = s.outcome)
  | askCancel (id : Text) (e : Fin cfg.effectCapacity)
      (hlane : s.lane.runsBlocks = true) (hlane' : s'.lane = s.lane) (hasked : s.asked = none)
      (hasked' : s'.asked = some (e, .cancel id))
      (hok : s.sends.executeCancelReserve id = .ok (some (s'.sends, e)))
      (hprepared : s'.preparedStaged = s.preparedStaged)
      (hhistory : s'.history = s.history ++ [.cancelAsked id])
      (hentry : s'.entry = s.entry) (houtcome : s'.outcome = s.outcome)
  | accept (e : Fin cfg.effectCapacity) (op : SendOp) (hlane' : s'.lane = s.lane)
      (hasked : s.asked = some (e, op)) (hasked' : s'.asked = none)
      (hsends : s'.sends = s.sends.storeTicket e s.nextTicket)
      (hprepared : s'.preparedStaged = s.preparedStaged ++ [(e, op)])
      (hhistory : s'.history = s.history ++ stagedEvent op)
      (hentry : s'.entry = s.entry) (houtcome : s'.outcome = s.outcome)
  | refuse (e : Fin cfg.effectCapacity) (op : SendOp) (ticket : Option AdapterTicket)
      (hlane' : s'.lane = s.lane ∨ s'.lane = .discarding)
      (hasked : s.asked = some (e, op)) (hasked' : s'.asked = none)
      (hsends : s'.sends = (s.sends.setEffect e
        { s.sends.preparedEffects e with adapterTicket := ticket }).rollbackPreparedEffectLocked e)
      (hprepared : s'.preparedStaged = s.preparedStaged) (hhistory : s'.history = s.history)
      (hentry : s'.entry = s.entry) (houtcome : s'.outcome = s.outcome)
  | commit (e : Fin cfg.effectCapacity) (op : SendOp) (hlane : s.lane = .committing)
      (hlane' : s'.lane = .committing) (hasked : s'.asked = s.asked)
      (hsends : s'.sends = (s.sends.commitPreparedEffect e).1)
      (hprepared : s.preparedStaged = (e, op) :: s'.preparedStaged)
      (hhistory : s'.history = s.history ++ [.committed op]) (hentry : s'.entry = s.entry)
  | discard (e : Fin cfg.effectCapacity) (op : SendOp)
      (before after : List (Fin cfg.effectCapacity × SendOp)) (hlane : s.lane = .discarding)
      (hlane' : s'.lane = .discarding) (hasked : s'.asked = s.asked)
      (hsends : s'.sends = (s.sends.discardPreparedEffect e).1)
      (hprepared : s.preparedStaged = before ++ (e, op) :: after)
      (hprepared' : s'.preparedStaged = before ++ after)
      (hhistory : s'.history = s.history) (hentry : s'.entry = s.entry)
  | finish (hlane : s.lane.settling = true) (hlane' : s'.lane = .idle) (hstaged : s.staged = [])
      (hstaged' : s'.staged = []) (hsends : s'.sends = s.sends) (hasked : s'.asked = s.asked)
      (hhistory : s'.history = s.history) (hentry : s'.entry = s.entry)
      (houtcome : s'.outcome = if s.lane = .committing then .committed else .discarded)
  | report (id : Text) (hlane' : s'.lane = s.lane) (hasked : s'.asked = s.asked)
      (hprepared : s'.preparedStaged = s.preparedStaged)
      (hsends : s'.sends = (s.sends.reportSendDone id).1)
      (hhistory : s'.history
        = if (s.sends.reportSendDone id).2 then s.history ++ [.done id] else s.history)
      (hentry : s'.entry = s.entry) (houtcome : s'.outcome = s.outcome)

theorem failureMetadata_prepared (op : SendOp) :
    (failureMetadata op : List (Staged cfg)).filterMap Staged.prepared? = [] := by
  unfold failureMetadata
  split <;> rfl

theorem commitStaged_moves {x : Staged cfg} {rest : List (Staged cfg)} (answer : Answer)
    (admitted : Bool) (hlane : s.lane = .committing) (hstaged : s.staged = x :: rest) :
    SendsMove s ({ s with staged := rest }.commitStaged x answer admitted) := by
  have hprepared : s.preparedStaged = (x :: rest).filterMap Staged.prepared? := by
    rw [preparedStaged, hstaged]
  cases x with
  | prepared e op => exact .commit e op hlane hlane rfl rfl hprepared rfl rfl
  | lifecycle e effect =>
    exact .quiet (endCommit_aside ⟨rfl, rfl, hprepared.symm, rfl, rfl, rfl⟩)
      (.inl (endCommit_lane _ _ _ _))
  | eventMetadata => exact .quiet ⟨rfl, rfl, hprepared.symm, rfl, rfl, rfl⟩ (.inl rfl)

theorem exists_of_getElem? {α : Type} {l : List α} {index : ℕ} {x : α}
    (h : l[index]? = some x) :
    ∃ before after, l = before ++ x :: after ∧ l.eraseIdx index = before ++ after := by
  obtain ⟨hlt, rfl⟩ := List.getElem?_eq_some_iff.mp h
  exact ⟨l.take index, l.drop (index + 1),
    by rw [← List.drop_eq_getElem_cons hlt, List.take_append_drop],
    List.eraseIdx_eq_take_drop_succ _ _⟩

theorem discardStaged_moves {x : Staged cfg} {index : ℕ} (hlane : s.lane = .discarding)
    (hx : s.staged[index]? = some x) :
    SendsMove s ({ s with staged := s.staged.eraseIdx index }.discardStaged x) := by
  obtain ⟨before, after, hstaged, hrest⟩ := exists_of_getElem? hx
  have hprepared : s.preparedStaged = before.filterMap Staged.prepared?
      ++ (x :: after).filterMap Staged.prepared? := by
    rw [preparedStaged, hstaged, List.filterMap_append]
  have hprepared' : (s.staged.eraseIdx index).filterMap Staged.prepared?
      = before.filterMap Staged.prepared? ++ after.filterMap Staged.prepared? := by
    rw [hrest, List.filterMap_append]
  cases x with
  | prepared e op => exact .discard e op _ _ hlane hlane rfl rfl hprepared hprepared' rfl rfl
  | lifecycle e effect =>
    exact .quiet ⟨rfl, rfl, hprepared'.trans hprepared.symm, rfl, rfl, rfl⟩ (.inl rfl)
  | eventMetadata =>
    exact .quiet ⟨rfl, rfl, hprepared'.trans hprepared.symm, rfl, rfl, rfl⟩ (.inl rfl)

end System

end TurboScxml.Session
