import TurboScxml.Ccxml.Dispatch

/-!
# Tickets of a CCXML transition

* `Ledger`: the log of the session agrees with its tickets, and nothing is committed;
* `Open`: moreover nothing is discarded, and the tickets stand in the order of the commits;
* **`Open.perform`**: the prepare calls of an action keep the session open, or all its tickets are
  discarded.
-/

namespace TurboScxml.Ccxml

open EffectLog

/-! ## The order of the commits -/

/-- The commits in order, each assignment in front of its request. -/
def commitOrder : List Ticket → List Ticket
  | [] => []
  | [t] => [t]
  | t :: u :: rest =>
    if u.assignsId = true then u :: t :: commitOrder rest else t :: commitOrder (u :: rest)

theorem commitOrder_append_single (l : List Ticket) {t : Ticket} (ht : t.assignsId = false) :
    commitOrder (l ++ [t]) = commitOrder l ++ [t] := by
  fun_induction commitOrder l with
  | case1 => rfl
  | case2 a => simp [commitOrder, ht]
  | case3 a u rest hu ih => simp [commitOrder, hu, ih]
  | case4 a u rest hu ih =>
    rw [List.cons_append, List.cons_append, commitOrder, if_neg hu, ← List.cons_append, ih,
      List.cons_append]

theorem commitOrder_append_pair (l : List Ticket) {t u : Ticket} (ht : t.assignsId = false)
    (hu : u.assignsId = true) : commitOrder (l ++ [t, u]) = commitOrder l ++ [u, t] := by
  fun_induction commitOrder l with
  | case1 => simp [commitOrder, hu]
  | case2 a => simp [commitOrder, ht, hu]
  | case3 a b rest hb ih => simp [commitOrder, hb, ih]
  | case4 a b rest hb ih =>
    rw [List.cons_append, List.cons_append, commitOrder, if_neg hb, ← List.cons_append, ih,
      List.cons_append]

namespace Session

theorem swapLast_append_pair (l : List Ticket) (a b : Ticket) :
    swapLast (l ++ [a, b]) = l ++ [b, a] := by
  induction l with
  | nil => rfl
  | cons x l ih =>
    cases l with
    | nil => rfl
    | cons y l =>
      have hrest : ∃ c rest, l ++ [a, b] = c :: rest := by
        cases l with
        | nil => exact ⟨a, [b], rfl⟩
        | cons c l => exact ⟨c, l ++ [a, b], rfl⟩
      obtain ⟨c, rest, hrest⟩ := hrest
      simp only [List.cons_append, hrest, swapLast] at ih ⊢
      rw [ih]

/-! ## The ledger -/

variable {σ : Type} {s s' : Session σ} {capacity : ℕ} {request : Request} {reply : TicketReply}
  {status : Status}

/-- The log agrees with the tickets, and nothing was committed. -/
structure Ledger (s : Session σ) : Prop where
  balanced : Balanced s.log s.tickets
  fresh : ∀ t ∈ accepted s.log, t.id < s.nextTicket
  committed : committed s.log = []

/-- Nothing was discarded. -/
structure Open (s : Session σ) : Prop extends Ledger s where
  kept : discarded s.log = []
  order : s.tickets = commitOrder (accepted s.log)

structure Same (s s' : Session σ) : Prop where
  prepared : s'.preparedTicketCount = s.preparedTicketCount
  scopes : s'.scopes = s.scopes

theorem Same.refl (s : Session σ) : Same s s := ⟨rfl, rfl⟩

theorem Same.trans {s'' : Session σ} (h : Same s s') (h' : Same s' s'') : Same s s'' :=
  ⟨h'.prepared.trans h.prepared, h'.scopes.trans h.scopes⟩

structure Emptied (s s' : Session σ) : Prop where
  ledger : Ledger s'
  none : s'.tickets = []
  same : Same s s'

variable {t : Ticket}

theorem Ledger.fresh_not_mem (h : Ledger s) (ht : t.id = s.nextTicket) : t ∉ accepted s.log :=
  fun hmem => absurd (h.fresh t hmem) (by omega)

theorem Ledger.discardTickets (h : Ledger s) : Emptied s s.discardTickets := by
  refine ⟨⟨?_, ?_, ?_⟩, rfl, rfl, rfl⟩
  · exact (h.balanced.reorder s.tickets.reverse_perm).discard
  · simpa only [Session.discardTickets, accepted_append, accepted_discards, List.append_nil]
      using h.fresh
  · simpa only [Session.discardTickets, committed_append, committed_discards, List.append_nil]
      using h.committed

theorem Ledger.drop (h : Ledger s) (ht : t.id = s.nextTicket) : Ledger (s.drop t) := by
  have hfresh := h.fresh_not_mem ht
  refine ⟨⟨?_, ?_⟩, ?_, ?_⟩
  · simpa [Session.drop, Session.accept] using (h.balanced.accept hfresh).nodup
  · have hperm := (h.balanced.accept hfresh).perm
    refine List.Perm.trans ?_ (by simpa [Session.drop, Session.accept] using hperm)
    simp only [Session.drop, Session.accept, committed_append, discarded_append,
      committed_cons_accepted, committed_cons_discarded, committed_nil, discarded_cons_accepted,
      discarded_cons_discarded, discarded_nil, List.append_nil, List.nil_append,
      List.append_assoc]
    exact (List.perm_append_comm.append_left _).append_left _
  · intro u hu
    have hmem : u ∈ accepted s.log ∨ u = t := by
      simpa [Session.drop, Session.accept] using hu
    show u.id < s.nextTicket + 1
    rcases hmem with hmem | rfl
    · exact Nat.lt_succ_of_lt (h.fresh u hmem)
    · omega
  · have hcommitted := h.committed
    simp [Session.drop, Session.accept, hcommitted]

theorem drop_same (s : Session σ) (t : Ticket) : Same s (s.drop t) := ⟨rfl, rfl⟩

theorem Ledger.drop_discardTickets (h : Ledger s) (ht : t.id = s.nextTicket) :
    Emptied s (s.drop t).discardTickets := by
  have hdiscard := (h.drop ht).discardTickets
  exact ⟨hdiscard.ledger, hdiscard.none, (drop_same s t).trans hdiscard.same⟩

/-! ## Prepare calls -/

structure Retained (s s' : Session σ) (t : Ticket) : Prop where
  balanced : Balanced s'.log s'.tickets
  fresh : ∀ u ∈ accepted s'.log, u.id < s'.nextTicket
  tickets : s'.tickets = s.tickets ++ [t]
  accepted : accepted s'.log = EffectLog.accepted s.log ++ [t]
  committed : EffectLog.committed s'.log = EffectLog.committed s.log
  discarded : EffectLog.discarded s'.log = EffectLog.discarded s.log
  same : Same s s'

/-- **`retain_ticket`** retains the ticket, or discards all. -/
theorem Ledger.retainTicket (h : Ledger s) {assignsId : Bool}
    (hretain : s.retainTicket capacity request assignsId reply = (s', status)) :
    (status = .ok ∧ Retained s s' ⟨s.nextTicket, request, assignsId⟩) ∨
      (status ≠ .ok ∧ Emptied s s') := by
  unfold Session.retainTicket at hretain
  split_ifs at hretain with hstatus hoperations hdiscard hcapacity
  all_goals obtain ⟨rfl, rfl⟩ := Prod.mk.inj hretain
  · exact .inr ⟨by decide, h.discardTickets⟩
  · exact .inr ⟨by decide, h.drop_discardTickets rfl⟩
  · exact .inr ⟨by decide, h.discardTickets⟩
  · exact .inr ⟨by decide, h.drop_discardTickets rfl⟩
  · refine .inl ⟨rfl, h.balanced.accept (h.fresh_not_mem rfl), ?_, rfl, ?_, ?_, ?_, rfl, rfl⟩
    · intro u hu
      have hmem : u ∈ EffectLog.accepted s.log ∨ u = ⟨s.nextTicket, request, assignsId⟩ := by
        simpa [Session.accept] using hu
      show u.id < s.nextTicket + 1
      rcases hmem with hmem | rfl
      · exact Nat.lt_succ_of_lt (h.fresh u hmem)
      · exact Nat.lt_succ_self _
    all_goals simp [Session.accept]

theorem Retained.ledger (h : Retained s s' t) (hs : Ledger s) : Ledger s' :=
  ⟨h.balanced, h.fresh, h.committed.trans hs.committed⟩

def Settles (s s' : Session σ) (status : Status) : Prop :=
  (status = .ok ∧ Open s' ∧ Same s s') ∨ (status ≠ .ok ∧ Emptied s s')

/-- **A single request.** -/
theorem Open.retainTicket (h : Open s)
    (hretain : s.retainTicket capacity request false reply = (s', status)) :
    Settles s s' status := by
  rcases h.toLedger.retainTicket hretain with ⟨hok, hretained⟩ | hfailed
  · refine .inl ⟨hok, ⟨hretained.ledger h.toLedger, ?_, ?_⟩, hretained.same⟩
    · exact hretained.discarded.trans h.kept
    · rw [hretained.tickets, hretained.accepted, h.order]
      exact (commitOrder_append_single _ rfl).symm
  · exact .inr hfailed

/-- **A request and the assignment of its identifier.** -/
theorem Open.assignIdentifier {t : Session σ} {location : Text} {id : Except Status Text}
    (hid : Yields (fun _ => True) id) (h : Open s)
    (hretained : Retained s t ⟨s.nextTicket, request, false⟩)
    (hassign : t.assignIdentifier capacity location id reply = (s', status)) :
    Settles s s' status := by
  have ht : Ledger t := hretained.ledger h.toLedger
  cases id with
  | error e =>
    obtain ⟨rfl, rfl⟩ := Prod.mk.inj hassign
    have hdiscard := ht.discardTickets
    refine .inr ⟨hid, hdiscard.ledger, hdiscard.none, ?_⟩
    exact hretained.same.trans hdiscard.same
  | ok id =>
    unfold Session.assignIdentifier at hassign
    cases hcall : t.retainTicket capacity (.assign location id) true reply with
    | mk u called =>
      simp only [hcall] at hassign
      rcases ht.retainTicket hcall with ⟨hok, hassigned⟩ | ⟨hfailed, hdiscard⟩
      · rw [if_neg (not_not.mpr hok)] at hassign
        obtain ⟨rfl, rfl⟩ := Prod.mk.inj hassign
        have hpair : u.tickets = s.tickets ++ [⟨s.nextTicket, request, false⟩,
            ⟨t.nextTicket, .assign location id, true⟩] := by
          rw [hassigned.tickets, hretained.tickets, List.append_assoc]
          rfl
        have horder : swapLast u.tickets = commitOrder (EffectLog.accepted u.log) := by
          rw [hpair, swapLast_append_pair, hassigned.accepted, hretained.accepted,
            List.append_assoc, h.order]
          exact (commitOrder_append_pair _ rfl rfl).symm
        have hswap : (swapLast u.tickets).Perm u.tickets := by
          rw [hpair, swapLast_append_pair]
          exact (List.Perm.swap _ _ _).append_left _
        have hledger := hassigned.ledger ht
        refine .inl ⟨rfl, ⟨⟨?_, hledger.fresh, hledger.committed⟩, ?_, horder⟩, ?_⟩
        · exact hledger.balanced.reorder hswap
        · exact hassigned.discarded.trans (hretained.discarded.trans h.kept)
        · exact ⟨hassigned.same.prepared.trans hretained.same.prepared,
            hassigned.same.scopes.trans hretained.same.scopes⟩
      · rw [if_pos hfailed] at hassign
        obtain ⟨rfl, rfl⟩ := Prod.mk.inj hassign
        exact .inr ⟨hfailed, hdiscard.ledger, hdiscard.none, hretained.same.trans hdiscard.same⟩

/-- **Main.** The prepare calls of an action keep the session open, or discard all tickets. -/
theorem Open.perform {replies : Replies σ} {plan : Plan} (hplan : plan.IdentifierYields)
    (h : Open s) (hperform : s.perform capacity replies plan = (s', status)) :
    Settles s s' status := by
  cases plan with
  | single request => exact h.retainTicket hperform
  | paired request location id =>
    unfold Session.perform at hperform
    cases hcall : s.retainTicket capacity request false replies.provider with
    | mk t called =>
      simp only [hcall] at hperform
      rcases h.toLedger.retainTicket hcall with ⟨hok, hretained⟩ | hfailed
      · rw [if_neg (not_not.mpr hok)] at hperform
        exact h.assignIdentifier hplan hretained hperform
      · rw [if_pos hfailed.1] at hperform
        obtain ⟨rfl, rfl⟩ := Prod.mk.inj hperform
        exact .inr hfailed

theorem Open.spendToken (h : Open s) (action : ActionRow) : Open (s.spendToken action) := by
  unfold Session.spendToken
  by_cases hsend : action.kind = .send ∧ action.location.isSome = true
  · rw [if_pos hsend]
    exact ⟨⟨h.balanced, h.fresh, h.committed⟩, h.kept, h.order⟩
  · rwa [if_neg hsend]

theorem spendToken_same (s : Session σ) (action : ActionRow) : Same s (s.spendToken action) := by
  unfold Session.spendToken
  by_cases hsend : action.kind = .send ∧ action.location.isSome = true
  · rw [if_pos hsend]
    exact ⟨rfl, rfl⟩
  · rw [if_neg hsend]
    exact .refl s

end Session

end TurboScxml.Ccxml
