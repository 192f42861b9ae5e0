import TurboScxml.Session.LifecycleInvariant

/-!
# The ledger of adapter tickets

Every ticket that an adapter gave is held by one effect in use or settled, and not both.

* `owed`: how many effects hold a ticket, and how often it was settled;
* `Accounts`: the tickets given so far, but for those in flight, are owed once;
* `TicketsSound`: the invariant; `reachable_ticketsSound`.
-/

namespace TurboScxml.Session

open Function Slots InvocationTable

variable {cfg : Config}

def PreparedEffect.holds {n : ℕ} (ticket : ℕ) (x : PreparedEffect n) : Bool :=
  x.inUse && x.adapterTicket == some ticket

def InvocationEffect.holds {n : ℕ} (ticket : ℕ) (x : InvocationEffect n) : Bool :=
  x.inUse && x.adapterTicket == some ticket

variable {n : ℕ}

theorem PreparedEffect.holds_inUse {x : PreparedEffect n} (huse : x.inUse = true)
    (ticket : ℕ) : (x.holds ticket).toNat = x.adapterTicket.toList.count ticket := by
  cases hx : x.adapterTicket with
  | none => simp [holds, hx]
  | some held => simp [holds, hx, huse, List.count_singleton, Bool.toNat]

theorem PreparedEffect.holds_free {x : PreparedEffect n} (huse : x.inUse = false)
    (ticket : ℕ) : x.holds ticket = false := by
  simp [holds, huse]

theorem InvocationEffect.holds_inUse {x : InvocationEffect n} (huse : x.inUse = true)
    (ticket : ℕ) : (x.holds ticket).toNat = x.adapterTicket.toList.count ticket := by
  cases hx : x.adapterTicket with
  | none => simp [holds, hx]
  | some held => simp [holds, hx, huse, List.count_singleton, Bool.toNat]

theorem InvocationEffect.holds_free {x : InvocationEffect n} (huse : x.inUse = false)
    (ticket : ℕ) : x.holds ticket = false := by
  simp [holds, huse]

/-- How many prepared effects hold a ticket. -/
def SendTable.heldTickets (t : SendTable cfg) (ticket : ℕ) : ℕ :=
  tally (PreparedEffect.holds ticket) t.preparedEffects

/-- How many lifecycle effects hold a ticket. -/
def InvocationTable.heldTickets (t : InvocationTable cfg) (ticket : ℕ) : ℕ :=
  tally (InvocationEffect.holds ticket) t.effects

namespace SendTable

variable {t t' : SendTable cfg} {e : Fin cfg.effectCapacity}

theorem heldTickets_congr (h : t'.preparedEffects = t.preparedEffects) (ticket : ℕ) :
    t'.heldTickets ticket = t.heldTickets ticket := by
  rw [heldTickets, h, heldTickets]

theorem heldTickets_update {x : PreparedEffect cfg.delayedSendCapacity}
    (h : t'.preparedEffects = update t.preparedEffects e x) (ticket : ℕ) :
    t'.heldTickets ticket + ((t.preparedEffects e).holds ticket).toNat
      = t.heldTickets ticket + (x.holds ticket).toNat := by
  simp only [heldTickets, h]
  exact tally_update _ _ _ _

theorem heldTickets_settle {f : DelayedSend → PreparedKind → DelayedSend}
    (huse : (t.preparedEffects e).inUse = true) (ticket : ℕ) :
    (t.settleEffect f e).heldTickets ticket
      + (t.preparedEffects e).adapterTicket.toList.count ticket = t.heldTickets ticket := by
  have hcount := heldTickets_update (settleEffect_preparedEffects (t := t) (e := e) f) ticket
  rw [PreparedEffect.holds_inUse huse, PreparedEffect.holds_free rfl] at hcount
  simpa using hcount

theorem heldTickets_ask {kind : PreparedKind} {index : Option (Fin cfg.delayedSendCapacity)}
    (h : t'.preparedEffects = update t.preparedEffects e (prepared kind index))
    (hfree : (t.preparedEffects e).inUse = false) (ticket : ℕ) :
    t'.heldTickets ticket = t.heldTickets ticket := by
  have hcount := heldTickets_update h ticket
  rw [PreparedEffect.holds_free hfree, PreparedEffect.holds_inUse rfl] at hcount
  simpa [prepared] using hcount

theorem heldTickets_storeTicket (huse : (t.preparedEffects e).inUse = true)
    (hnone : (t.preparedEffects e).adapterTicket = none) (given : AdapterTicket) (ticket : ℕ) :
    (t.storeTicket e given).heldTickets ticket = t.heldTickets ticket + [given].count ticket := by
  have hstored : (t.storeTicket e given).preparedEffects = update t.preparedEffects e
      { t.preparedEffects e with adapterTicket := some given } := rfl
  have hcount := heldTickets_update hstored ticket
  have hnew : (({ t.preparedEffects e with adapterTicket := some given } :
      PreparedEffect cfg.delayedSendCapacity).holds ticket).toNat = [given].count ticket :=
    PreparedEffect.holds_inUse (x := { t.preparedEffects e with adapterTicket := some given })
      huse ticket
  rw [PreparedEffect.holds_inUse huse, hnone, hnew] at hcount
  simpa using hcount

end SendTable

namespace InvocationTable

variable {t t' : InvocationTable cfg} {e : Fin (cfg.effectCapacity + 1)}
  {x : InvocationEffect cfg.invocationCount}

theorem heldTickets_congr (h : t'.effects = t.effects) (ticket : ℕ) :
    t'.heldTickets ticket = t.heldTickets ticket := by
  rw [heldTickets, h, heldTickets]

theorem heldTickets_take (h : t'.effects = update t.effects e x)
    (hfree : (t.effects e).inUse = false) (huse : x.inUse = true) (ticket : ℕ) :
    t'.heldTickets ticket = t.heldTickets ticket + x.adapterTicket.toList.count ticket := by
  have hcount := tally_update (InvocationEffect.holds ticket) t.effects e x
  rw [InvocationEffect.holds_free hfree, InvocationEffect.holds_inUse huse] at hcount
  simpa [heldTickets, h] using hcount

theorem heldTickets_release (hx : t.effects e = x) (huse : x.inUse = true)
    (h : t'.effects = update t.effects e { x with inUse := false }) (ticket : ℕ) :
    t'.heldTickets ticket + x.adapterTicket.toList.count ticket = t.heldTickets ticket := by
  have hcount := tally_update (InvocationEffect.holds ticket) t.effects e
    { x with inUse := false }
  rw [hx, InvocationEffect.holds_inUse huse, InvocationEffect.holds_free rfl] at hcount
  simpa [heldTickets, h] using hcount

end InvocationTable

namespace System

variable {s₀ s s' : System cfg}

def owed (s : System cfg) (ticket : ℕ) : ℕ :=
  s.sends.heldTickets ticket + s.invocations.heldTickets ticket
    + (s.settled.map Prod.fst).count ticket

/-- Every ticket given so far is owed once. -/
def Accounts (s : System cfg) (flying : List AdapterTicket) : Prop :=
  ∀ ticket : ℕ, s.owed ticket + flying.count ticket = if ticket < s.nextTicket then 1 else 0

variable {flying flying' : List AdapterTicket}

theorem Accounts.transfer (h : s.Accounts flying) (hnext : s'.nextTicket = s.nextTicket)
    (howed : ∀ ticket : ℕ,
      s'.owed ticket + flying'.count ticket = s.owed ticket + flying.count ticket) :
    s'.Accounts flying' := by
  intro ticket
  rw [howed, hnext]
  exact h ticket

structure TicketsAside (s s' : System cfg) : Prop where
  prepared : s'.sends.preparedEffects = s.sends.preparedEffects
  effects : s'.invocations.effects = s.invocations.effects
  settled : s'.settled = s.settled
  next : s'.nextTicket = s.nextTicket

theorem Accounts.aside (h : s.Accounts flying) (haside : TicketsAside s s') :
    s'.Accounts flying := by
  refine h.transfer haside.next fun ticket => ?_
  rw [owed, SendTable.heldTickets_congr haside.prepared,
    InvocationTable.heldTickets_congr haside.effects, haside.settled, owed]

theorem Accounts.give (h : s.Accounts []) :
    ({ s with nextTicket := s.nextTicket + 1 } : System cfg).Accounts [s.nextTicket] := by
  intro ticket
  have hticket := h ticket
  change s.owed ticket + List.count ticket [s.nextTicket]
    = if ticket < s.nextTicket + 1 then 1 else 0
  rw [List.count_singleton]
  simp only [List.count_nil, beq_iff_eq] at hticket ⊢
  split_ifs at hticket ⊢ <;> omega

theorem count_settlement (held : Option AdapterTicket) (how : Settlement) (ticket : ℕ) :
    ((settlement held how).map Prod.fst).count ticket = held.toList.count ticket := by
  cases held <;> simp [settlement]

/-! ## Staging -/

theorem stageLifecycle_next (s : System cfg)
    (acquired : Option (InvocationTable cfg × Fin (cfg.effectCapacity + 1)))
    (ticket : Option AdapterTicket) (staged : Bool) (lane : Lane cfg) :
    (s.stageLifecycle acquired ticket staged lane).nextTicket = s.nextTicket := by
  unfold stageLifecycle
  (repeat' split) <;> rfl

variable {e : Fin (cfg.effectCapacity + 1)} {x : InvocationEffect cfg.invocationCount}

variable {t : InvocationTable cfg}

theorem discard_ticket (hx : t.effects e = x) (hproper : x.Proper) :
    (t.discardInvocationLifecycle e).2 = x.adapterTicket := by
  obtain ⟨i, hi⟩ := Option.isSome_iff_exists.mp hproper.invocation
  have hticket := hproper.ticket
  cases hkind : x.kind with
  | start | forward =>
    simp [discardInvocationLifecycle, hx, hproper.inUse, hi, hkind, reservedState]
  | unset => exact absurd hkind hproper.kind
  | enter | exit | fail | complete =>
    have hnone : x.adapterTicket = none :=
      Option.not_isSome_iff_eq_none.mp (by rw [hticket, hkind]; decide)
    simp [discardInvocationLifecycle, hx, hproper.inUse, hi, hkind, reservedState, hnone]

/-- **Staging** keeps or discards a ticket in flight. -/
theorem stageLifecycle_accounts
    {acquired : Option (InvocationTable cfg × Fin (cfg.effectCapacity + 1))}
    (h : s.Accounts x.adapterTicket.toList) (hproper : x.Proper)
    (hacquired : ∀ t e, acquired = some (t, e) → (s.invocations.effects e).inUse = false ∧
      t.effects = update s.invocations.effects e x)
    (staged : Bool) (lane : Lane cfg) :
    (s.stageLifecycle acquired x.adapterTicket staged lane).Accounts [] := by
  refine h.transfer (stageLifecycle_next s acquired _ staged lane) fun ticket => ?_
  cases acquired with
  | none =>
    simp only [owed, stageLifecycle, List.map_append, List.count_append, count_settlement,
      List.count_nil]
    omega
  | some pair =>
    obtain ⟨t, e⟩ := pair
    obtain ⟨hfree, heffects⟩ := hacquired t e rfl
    have hx : t.effects e = x := by rw [heffects, update_self]
    have htake := heldTickets_take heffects hfree hproper.inUse ticket
    cases staged with
    | true =>
      simp only [owed, stageLifecycle, if_true, List.count_nil]
      omega
    | false =>
      obtain ⟨i, hi⟩ := Option.isSome_iff_exists.mp hproper.invocation
      obtain ⟨-, hreleased, -, -⟩ := discard_givenBack hx hproper.inUse hi
      have hrelease := heldTickets_release hx hproper.inUse hreleased ticket
      simp only [owed, stageLifecycle, Bool.false_eq_true, if_false, List.map_append,
        List.count_append, count_settlement, List.count_nil, discard_ticket hx hproper]
      omega

theorem enqueueError_accounts (h : s.Accounts flying) (raised : Bool) :
    (s.enqueueError raised).Accounts flying := by
  refine h.aside ?_
  unfold enqueueError
  split <;> exact ⟨rfl, rfl, rfl, rfl⟩

theorem acquire_effects (h : s.invocations.acquire x = some (t, e)) :
    (s.invocations.effects e).inUse = false ∧ t.effects = update s.invocations.effects e x := by
  obtain ⟨hfree, rfl⟩ := acquire_some h
  exact ⟨hfree, rfl⟩

variable (h : s.Accounts [])
include h

theorem forwardNext_accounts (i : Fin cfg.invocationCount)
    (skipped : Option (Fin cfg.invocationCount)) (answer : Answer) (staged raised : Bool) :
    (s.forwardNext i skipped answer staged raised).Accounts [] := by
  unfold forwardNext
  split_ifs
  · exact h.aside ⟨rfl, rfl, rfl, rfl⟩
  · exact stageLifecycle_accounts (x := lifecycle .forward i 0 (some s.nextTicket)) h.give
      (lifecycle_proper (by simp) rfl) (fun _ _ hacquire => acquire_effects hacquire) staged _
  · exact h.aside ⟨rfl, rfl, rfl, rfl⟩
  · refine enqueueError_accounts (h.aside ?_) raised
    exact ⟨rfl, rfl, rfl, rfl⟩

theorem startNext_accounts (i : Fin cfg.invocationCount)
    (answers : StartAnswers) (staged raised : Bool) :
    (s.startNext i answers staged raised).Accounts [] := by
  unfold startNext
  split
  · exact h.aside ⟨rfl, rfl, rfl, rfl⟩
  · split
    · exact h.aside ⟨rfl, rfl, rfl, rfl⟩
    · rename_i t token htoken
      obtain ⟨-, -, ht⟩ := takeToken_some htoken
      have heffects : t.effects = s.invocations.effects := by rw [ht]
      have hfailed : ({ s with invocations := t } : System cfg).Accounts [] :=
        h.aside ⟨rfl, heffects, rfl, rfl⟩
      have hstarted : ({ s with invocations := t, nextTicket := s.nextTicket + 1 } :
          System cfg).Accounts [s.nextTicket] := h.give.aside ⟨rfl, heffects, rfl, rfl⟩
      split
      · exact h.aside ⟨rfl, heffects, rfl, rfl⟩
      · refine enqueueError_accounts ?_ raised
        refine stageLifecycle_accounts (x := lifecycle .fail i token none) hfailed
          (lifecycle_proper (by simp) rfl) (fun t' e hresult => ?_) staged _
        obtain ⟨-, -, hfree, rfl⟩ := stageInvocationResult_some hresult
        exact ⟨hfree, rfl⟩
      · refine stageLifecycle_accounts (x := lifecycle .start i token (some s.nextTicket)) hstarted
          (lifecycle_proper (by simp) rfl) (fun t' e hresult => ?_) staged _
        obtain ⟨-, -, hfree, rfl⟩ := stageInvocationResult_some hresult
        exact ⟨hfree, rfl⟩

/-! ## Blocks -/

theorem send_accounts (request : SendRequest) (raised : Bool) :
    (s.send request raised).Accounts [] := by
  unfold send
  split
  · exact h.aside ⟨rfl, rfl, rfl, rfl⟩
  · rename_i t e hok
    obtain ⟨hfree, ⟨-, rfl⟩ | ⟨-, k, -, -, -, rfl⟩⟩ := SendTable.executeSendReserve_ok hok
    all_goals
      refine h.transfer rfl fun ticket => ?_
      rw [owed, SendTable.heldTickets_ask rfl hfree, owed]

theorem cancel_accounts (id : Text) (raised : Bool) : (s.cancel id raised).Accounts [] := by
  unfold cancel
  split
  · exact h.aside ⟨rfl, rfl, rfl, rfl⟩
  · exact h
  · rename_i t e hok
    obtain ⟨hfree, k, -, rfl⟩ := SendTable.executeCancelReserve_ok hok
    refine h.transfer rfl fun ticket => ?_
    rw [owed, SendTable.heldTickets_ask rfl hfree, owed]

theorem answerAsked_accounts {e : Fin cfg.effectCapacity} {op : SendOp}
    (huse : (s.sends.preparedEffects e).inUse = true)
    (hnone : (s.sends.preparedEffects e).adapterTicket = none) (answer : Answer)
    (staged raised : Bool) : (s.answerAsked e op answer staged raised).Accounts [] := by
  have hrolled : ∀ ticket : ℕ, (s.sends.rollbackPreparedEffectLocked e).heldTickets ticket
      = s.sends.heldTickets ticket := by
    intro ticket
    have hcount := SendTable.heldTickets_settle (f := DelayedSend.rolledBack) huse ticket
    simpa [hnone, SendTable.rollbackPreparedEffectLocked] using hcount
  unfold answerAsked
  split_ifs
  · refine h.give.transfer rfl fun ticket => ?_
    have hstore := SendTable.heldTickets_storeTicket huse hnone s.nextTicket ticket
    simp only [owed, List.count_nil]
    omega
  · have huse' : ((s.sends.storeTicket e s.nextTicket).preparedEffects e).inUse = true := by
      simp [SendTable.storeTicket, huse]
    have hheld : ((s.sends.storeTicket e s.nextTicket).preparedEffects e).adapterTicket
        = some s.nextTicket := by simp [SendTable.storeTicket]
    refine h.give.transfer rfl fun ticket => ?_
    have hstore := SendTable.heldTickets_storeTicket huse hnone s.nextTicket ticket
    have hsettle := SendTable.heldTickets_settle (f := DelayedSend.rolledBack) huse' ticket
    rw [hheld] at hsettle
    simp only [owed, List.count_nil, SendTable.discardPreparedEffect, huse', if_true,
      SendTable.rollbackPreparedEffectLocked, List.map_append, List.count_append, List.map_cons,
      List.map_nil, Option.toList_some] at hsettle ⊢
    omega
  all_goals
    refine h.transfer rfl fun ticket => ?_
    rw [owed, owed, hrolled]

omit h

/-! ## The ends of the staged effects -/

def endingTickets : Ending → List AdapterTicket
  | .commit ticket | .discard ticket => [ticket]
  | _ => []

theorem commitEnding_tickets (hproper : x.Proper) (row : InvocationRow) (stats : InvokeStats) :
    endingTickets (commitEnding x (committedRow row stats x).2.2.1
      (committedRow row stats x).2.2.2) = x.adapterTicket.toList := by
  have hticket := hproper.ticket
  unfold commitEnding
  cases hx : x.adapterTicket with
  | none => cases (committedRow row stats x).2.2.2 <;> rfl
  | some ticket =>
    rw [hx, Option.isSome_some] at hticket
    by_cases hstart : x.kind = .start
    · split_ifs <;> rfl
    · have hforward : x.kind = .forward := by
        simpa [hstart] using hticket.symm
      simp [committedRow, hforward, endingTickets]

theorem endCommit_accounts {ending : Ending} (h : s.Accounts (endingTickets ending))
    (answer : Answer) (admitted : Bool) : (s.endCommit ending answer admitted).Accounts [] := by
  cases ending with
  | nothing => exact h
  | commit ticket | discard ticket =>
    refine h.transfer rfl fun n => ?_
    simp only [owed, endCommit, endingTickets, List.map_append, List.count_append, List.map_cons,
      List.map_nil, List.count_nil]
    omega
  | cancel token id =>
    have heffects : (s.invocations.cancelInvocation answer admitted).effects
        = s.invocations.effects := (cancelInvocation_frame _ answer admitted).2.1
    unfold endCommit
    split_ifs
    · refine (Accounts.give h).transfer rfl fun n => ?_
      have hheld := InvocationTable.heldTickets_congr heffects n
      simp only [owed, List.map_append, List.count_append, List.map_cons, List.map_nil,
        List.count_nil]
      omega
    · exact h.aside ⟨rfl, heffects, rfl, rfl⟩

theorem SendsSound.staged_backs (hs : s.SendsSound) {e : Fin cfg.effectCapacity} {op : SendOp}
    (hmem : Staged.prepared e op ∈ s.staged) : Backs s.sends e op := by
  refine hs.backs e op (List.mem_append_right _ ?_)
  exact List.mem_filterMap.mpr ⟨_, hmem, rfl⟩

theorem LifecycleSound.staged_backs (hl : s.LifecycleSound)
    (hmem : Staged.lifecycle e x ∈ s.staged) :
    s.invocations.effects e = x ∧ x.Proper :=
  hl.held.backs e x (List.mem_filterMap.mpr ⟨_, hmem, rfl⟩)

theorem commitStaged_accounts (h : s.Accounts []) (hs : s.SendsSound) (hl : s.LifecycleSound)
    {y : Staged cfg} (hmem : y ∈ s.staged) (rest : List (Staged cfg)) (answer : Answer)
    (admitted : Bool) :
    ({ s with staged := rest }.commitStaged y answer admitted).Accounts [] := by
  cases y with
  | prepared e op =>
    have huse := (hs.staged_backs hmem).inUse
    refine h.transfer rfl fun ticket => ?_
    have hsettle := SendTable.heldTickets_settle (f := DelayedSend.committed) huse ticket
    simp only [owed, commitStaged, SendTable.commitPreparedEffect, huse, if_true, List.map_append,
      List.count_append, count_settlement, List.count_nil]
    omega
  | lifecycle e x =>
    obtain ⟨hx, hproper⟩ := hl.staged_backs hmem
    obtain ⟨i, hi⟩ := Option.isSome_iff_exists.mp hproper.invocation
    refine endCommit_accounts ?_ answer admitted
    rw [commitLocked_eq hx hproper.inUse hi, commitEnding_tickets hproper]
    refine h.transfer rfl fun ticket => ?_
    have hreleased : (s.invocations.commitLocked e).1.effects
        = update s.invocations.effects e { x with inUse := false } := by
      rw [commitLocked_eq hx hproper.inUse hi]
      rfl
    have hrelease := heldTickets_release hx hproper.inUse hreleased ticket
    rw [commitLocked_eq hx hproper.inUse hi] at hrelease
    simp only [owed, List.count_nil] at hrelease ⊢
    omega
  | eventMetadata => exact h.aside ⟨rfl, rfl, rfl, rfl⟩

theorem discardStaged_accounts (h : s.Accounts []) (hs : s.SendsSound) (hl : s.LifecycleSound)
    {y : Staged cfg} (hmem : y ∈ s.staged) (rest : List (Staged cfg)) :
    ({ s with staged := rest }.discardStaged y).Accounts [] := by
  cases y with
  | prepared e op =>
    have huse := (hs.staged_backs hmem).inUse
    refine h.transfer rfl fun ticket => ?_
    have hsettle := SendTable.heldTickets_settle (f := DelayedSend.rolledBack) huse ticket
    simp only [owed, discardStaged, SendTable.discardPreparedEffect, huse, if_true,
      SendTable.rollbackPreparedEffectLocked, List.map_append, List.count_append, count_settlement,
      List.count_nil]
    omega
  | lifecycle e x =>
    obtain ⟨hx, hproper⟩ := hl.staged_backs hmem
    obtain ⟨i, hi⟩ := Option.isSome_iff_exists.mp hproper.invocation
    obtain ⟨-, hreleased, -, -⟩ := discard_givenBack hx hproper.inUse hi
    refine h.transfer rfl fun ticket => ?_
    have hrelease := heldTickets_release hx hproper.inUse hreleased ticket
    simp only [owed, discardStaged, List.map_append, List.count_append, count_settlement,
      List.count_nil, discard_ticket hx hproper]
    omega
  | eventMetadata => exact h.aside ⟨rfl, rfl, rfl, rfl⟩

/-! ## Runs -/

/-- **The invariant of the tickets.** -/
structure TicketsSound (s : System cfg) : Prop where
  accounts : s.Accounts []
  asked : ∀ e op, s.asked = some (e, op) → (s.sends.preparedEffects e).adapterTicket = none

theorem init_ticketsSound : (init cfg).TicketsSound where
  accounts ticket := by
    have hsends : (init cfg).sends.heldTickets ticket = 0 := tally_eq_zero fun _ => rfl
    have hinvocations : (init cfg).invocations.heldTickets ticket = 0 := tally_eq_zero fun _ => rfl
    rw [owed, hsends, hinvocations]
    rfl
  asked e op hasked := by simp [init] at hasked

theorem asked_move (hmove : SendsMove s s')
    (h : ∀ e op, s.asked = some (e, op) → (s.sends.preparedEffects e).adapterTicket = none)
    (hnone : s.lane.settling = true → s.asked = none) (e : Fin cfg.effectCapacity) (op : SendOp)
    (hasked : s'.asked = some (e, op)) : (s'.sends.preparedEffects e).adapterTicket = none := by
  cases hmove with
  | quiet haside =>
    rw [haside.sends]
    exact h e op (haside.asked ▸ hasked)
  | begin _ _ hsends hasked' =>
    rw [hsends]
    exact h e op (hasked' ▸ hasked)
  | askSend request e' _ _ _ hasked' hok =>
    obtain ⟨rfl, -⟩ := Prod.mk.inj (Option.some.inj (hasked'.symm.trans hasked))
    obtain ⟨-, ⟨-, htable⟩ | ⟨-, k, -, -, -, htable⟩⟩ := SendTable.executeSendReserve_ok hok <;>
      simp [htable, SendTable.prepared]
  | askCancel id e' _ _ _ hasked' hok =>
    obtain ⟨rfl, -⟩ := Prod.mk.inj (Option.some.inj (hasked'.symm.trans hasked))
    obtain ⟨-, k, -, htable⟩ := SendTable.executeCancelReserve_ok hok
    simp [htable, SendTable.prepared]
  | accept _ _ _ _ hasked' | refuse _ _ _ _ _ hasked' =>
    rw [hasked'] at hasked
    cases hasked
  | commit _ _ hlane _ hasked' | discard _ _ _ _ hlane _ hasked' =>
    rw [hasked', hnone (by rw [hlane]; rfl)] at hasked
    cases hasked
  | finish hlane _ _ _ _ hasked' =>
    rw [hasked', hnone hlane] at hasked
    cases hasked
  | report id _ hasked' _ hsends =>
    rw [hsends, SendTable.reportSendDone_preparedEffects]
    exact h e op (hasked' ▸ hasked)

/-- **Every step keeps the ledger.** -/
theorem step_accounts {a : Action cfg} (h : s.TicketsSound) (hs : s.SendsSound)
    (hl : s.LifecycleSound) (hstep : s.step a = some s') : s'.Accounts [] := by
  have hacc := h.accounts
  cases a with
  | begin | startPending | succeed | fail =>
    simp only [step] at hstep
    split_ifs at hstep
    cases hstep
    exact hacc.aside ⟨rfl, rfl, rfl, rfl⟩
  | send request raised =>
    simp only [step] at hstep
    split_ifs at hstep
    cases hstep
    exact send_accounts hacc request raised
  | cancel id raised =>
    simp only [step] at hstep
    split_ifs at hstep
    cases hstep
    exact cancel_accounts hacc id raised
  | answer answer staged raised =>
    simp only [step] at hstep
    split at hstep
    · rename_i e op hasked
      cases hstep
      have hbacks := hs.backs e op (by simp [heldSends, hasked])
      exact answerAsked_accounts hacc hbacks.inUse (h.asked e op hasked) answer staged raised
    · cases hstep
  | raise staged =>
    simp only [step] at hstep
    split_ifs at hstep <;> cases hstep <;> exact hacc.aside ⟨rfl, rfl, rfl, rfl⟩
  | enter i staged =>
    simp only [step] at hstep
    split_ifs at hstep
    cases hstep
    have hflag : ({ s with entered := update s.entered i true } : System cfg).Accounts [] :=
      hacc.aside ⟨rfl, rfl, rfl, rfl⟩
    exact stageLifecycle_accounts (x := lifecycle .enter i 0 none) hflag
      (lifecycle_proper (by simp) rfl) (fun _ _ hacquire => acquire_effects hacquire) staged _
  | exit i staged =>
    simp only [step] at hstep
    split_ifs at hstep
    cases hstep
    have hflag : ({ s with entered := update s.entered i false } : System cfg).Accounts [] :=
      hacc.aside ⟨rfl, rfl, rfl, rfl⟩
    exact stageLifecycle_accounts (x := lifecycle .exit i 0 none) hflag
      (lifecycle_proper (by simp) rfl) (fun _ _ hacquire => acquire_effects hacquire) staged _
  | preprocess token event =>
    simp only [step] at hstep
    split_ifs at hstep
    cases hstep
    refine hacc.aside ?_
    unfold preprocess
    (repeat' split) <;> exact ⟨rfl, rfl, rfl, rfl⟩
  | finalized staged =>
    simp only [step] at hstep
    split at hstep
    · rename_i source token done hlane
      split_ifs at hstep
      cases hstep
      cases done with
      | false => exact hacc.aside ⟨rfl, rfl, rfl, rfl⟩
      | true =>
        refine stageLifecycle_accounts (x := lifecycle .complete source token none) hacc
          (lifecycle_proper (by simp) rfl) (fun t e hacquire => ?_) staged _
        unfold stageInvocationCompletion at hacquire
        split at hacquire
        · cases hacquire
        · exact acquire_effects hacquire
    · cases hstep
  | forwardNext answer staged raised =>
    simp only [step] at hstep
    split at hstep
    · split_ifs at hstep <;> cases hstep
      · exact forwardNext_accounts hacc _ _ answer staged raised
      · exact hacc.aside ⟨rfl, rfl, rfl, rfl⟩
    · cases hstep
  | startNext answers staged raised =>
    simp only [step] at hstep
    split at hstep
    · split_ifs at hstep <;> cases hstep
      · exact startNext_accounts hacc _ answers staged raised
      · exact hacc.aside ⟨rfl, rfl, rfl, rfl⟩
    · cases hstep
  | commitNext answer admitted =>
    simp only [step] at hstep
    split at hstep
    · rename_i y rest _ hstaged
      cases hstep
      exact commitStaged_accounts hacc hs hl (by simp [hstaged]) rest answer admitted
    · cases hstep
  | discardAt index =>
    simp only [step] at hstep
    split at hstep
    · rename_i y _ hy
      cases hstep
      exact discardStaged_accounts hacc hs hl (List.mem_of_getElem? hy) _
    · cases hstep
  | finish =>
    simp only [step] at hstep
    split_ifs at hstep
    split at hstep
    all_goals cases hstep
    all_goals exact hacc.aside ⟨rfl, rfl, rfl, rfl⟩
  | reportSendDone id =>
    cases hstep
    exact hacc.aside ⟨SendTable.reportSendDone_preparedEffects _ id, rfl, rfl, rfl⟩
  | reportInvokeEvent token status =>
    cases hstep
    refine hacc.aside ⟨rfl, ?_, rfl, rfl⟩
    simp only [InvocationTable.reportInvokeEvent, InvocationTable.settleReturned]
    (repeat' split) <;> rfl
  | reportInvokeDone token status =>
    cases hstep
    refine hacc.aside ⟨rfl, ?_, rfl, rfl⟩
    simp only [InvocationTable.reportInvokeDone, InvocationTable.settleReturned]
    (repeat' split) <;> rfl

theorem SendsSound.asked_none (hs : s.SendsSound) (hlane : s.lane.runsBlocks = false) :
    s.asked = none := by
  by_contra hasked
  have := hs.askedLane hasked
  rw [hlane] at this
  exact absurd this (by simp)

theorem reachable_ticketsSound (h : Reachable s) : s.TicketsSound := by
  have hall : (s.SendsSound ∧ s.LifecycleSound) ∧ s.TicketsSound := by
    refine h.invariant (P := fun s => (s.SendsSound ∧ s.LifecycleSound) ∧ s.TicketsSound) ?_ ?_
    · rintro s rfl
      exact ⟨⟨init_sendsSound, init_lifecycleSound⟩, init_ticketsSound⟩
    · rintro s a s' ⟨⟨hs, hl⟩, ht⟩ hstep
      refine ⟨hl.step hs hstep, step_accounts ht hs hl hstep, ?_⟩
      refine asked_move (step_moves hstep hs.askedUse).sends ht.asked fun hsettling => ?_
      refine hs.asked_none ?_
      cases hlane : s.lane <;> simp_all [Lane.settling, Lane.runsBlocks]
  exact hall.2

theorem TicketsSound.settled_once (h : s.TicketsSound) (hs : s.SendsSound) (hl : s.LifecycleSound)
    (hidle : s.lane = .idle) {ticket : ℕ} (hticket : ticket < s.nextTicket) :
    (s.settled.map Prod.fst).count ticket = 1 := by
  have howed := h.accounts ticket
  have hsends : s.sends.heldTickets ticket = 0 :=
    tally_eq_zero fun e => PreparedEffect.holds_free (hs.unused hidle e) ticket
  have hinvocations : s.invocations.heldTickets ticket = 0 :=
    tally_eq_zero fun e => InvocationEffect.holds_free (hl.unused hidle e) ticket
  rw [owed, hsends, hinvocations, if_pos hticket] at howed
  simpa using howed

end System

end TurboScxml.Session
