import TurboScxml.Chttp.EgressInvariant

/-!
# Who holds the rows of the BasicHTTP egress table

* `System.holds`: RESERVED rows are in the hands of a preparation or a ticket, SUBMITTING rows of the
  worker, SUBMITTED rows of the client and COMPLETING rows of a completion;
* `Sound`: the holder of a row is told by its state, and each row has one holder at most.
-/

namespace TurboScxml.Chttp

open Function Slots Machine Processor

variable {n : ℕ} {β : Type}

/-- The row that the worker submits or completes. -/
def Worker.submits : Worker n → Option (Fin n)
  | .submitting i => some i
  | .completing i _ => some i
  | _ => none

/-- The worker is in `poll`, where callbacks come. -/
def Worker.polls : Worker n → Bool
  | .idle | .cancelling _ _ => true
  | _ => false

def RowState.held (state : RowState) : Prop := state ≠ .free ∧ state ≠ .ready

/-- Who holds a row in this state. -/
def System.holds (s : System n β) (i : Fin n) : RowState → Prop
  | .reserved => i ∈ s.preparing ++ s.tickets
  | .submitting => s.worker.submits = some i
  | .submitted => i ∈ s.accepted.map Prod.snd
  | .completing => s.worker = .reporting i ∨ s.callback = some i
  | .free | .ready => False

/-- The holder of a row is told by its state. -/
structure Sound [DecidableEq β] (s : System n β) : Prop where
  counted : Counted s.processor
  held : ∀ i state, state.held → (s.holds i state ↔ s.processor.states i = state)
  reservedOnce : (s.preparing ++ s.tickets).Nodup
  acceptedOnce : (s.accepted.map Prod.snd).Nodup
  polls : s.callback ≠ none → s.worker.polls = true
  cancelsOnce : s.cancels.Nodup
  cancels : ∀ k, k ∈ s.cancels ↔ (s.processor.cancelTickets k).reserved = true
  target : ∀ k, (s.processor.cancelTickets k).reserved = true →
    (s.processor.cancelTickets k).target ≠ none

section Sound

variable [DecidableEq β] {s s' : System n β} {i : Fin n}

theorem init_sound : Sound (System.init n β) where
  counted := ⟨(tally_eq_zero fun _ => rfl).symm, (tally_eq_zero fun _ => rfl).symm,
    fun b => (tally_eq_zero fun _ => by
      simp [System.init, Processor.init, Row.boundTo, Row.free]).symm, rfl,
    fun i hi => absurd rfl hi⟩
  held i state hstate := by
    cases state <;> simp [RowState.held] at hstate <;>
      simp [System.init, System.holds, Processor.init, states, Row.free, Worker.submits]
  reservedOnce := .nil
  acceptedOnce := .nil
  polls h := absurd rfl h
  cancelsOnce := .nil
  cancels k := by simp [System.init, Processor.init]
  target k h := by simp [System.init, Processor.init] at h

variable {state : RowState} (h : Sound s)
include h

/-- **One row is written.** -/
theorem Sound.write (hset : Settles s.processor s'.processor i state)
    (hholds : ∀ j st, st.held → (s'.holds j st ↔ if j = i then state = st else s.holds j st))
    (hreserved : (s'.preparing ++ s'.tickets).Nodup) (haccepted : (s'.accepted.map Prod.snd).Nodup)
    (hpolls : s'.callback ≠ none → s'.worker.polls = true) (hcancels : s'.cancels = s.cancels) :
    Sound s' := by
  have htickets := tickets_of_frame hset.frame
  refine ⟨hset.counted, fun j st hst => ?_, hreserved, haccepted, hpolls, hcancels ▸ h.cancelsOnce,
    fun k => ?_, fun k => ?_⟩
  · rw [hholds j st hst, hset.states]
    by_cases hj : j = i
    · subst hj
      simp
    · simpa [hj] using h.held j st hst
  · rw [hcancels, htickets]
    exact h.cancels k
  · rw [htickets]
    exact h.target k

/-- A step that moves no row. -/
theorem Sound.keep (hcounted : Counted s'.processor)
    (hstates : s'.processor.states = s.processor.states)
    (hholds : ∀ j st, st.held → (s'.holds j st ↔ s.holds j st))
    (hreserved : (s'.preparing ++ s'.tickets).Nodup) (haccepted : s'.accepted = s.accepted)
    (hpolls : s'.callback ≠ none → s'.worker.polls = true) (hcancels : s'.cancels.Nodup)
    (htickets : ∀ k, k ∈ s'.cancels ↔ (s'.processor.cancelTickets k).reserved = true)
    (htarget : ∀ k, (s'.processor.cancelTickets k).reserved = true →
      (s'.processor.cancelTickets k).target ≠ none) : Sound s' :=
  ⟨hcounted, fun j st hst => by rw [hholds j st hst, hstates]; exact h.held j st hst, hreserved,
    haccepted ▸ h.acceptedOnce, hpolls, hcancels, htickets, htarget⟩

variable {p : Processor n β}

theorem Sound.same (hcounted : Counted p) (hstates : p.states = s.processor.states)
    (htickets : p.cancelTickets = s.processor.cancelTickets) :
    Sound { s with processor := p } :=
  h.keep hcounted hstates (fun _ _ _ => Iff.rfl) h.reservedOnce rfl h.polls h.cancelsOnce
    (fun k => by rw [h.cancels k]; simp only [htickets])
    fun k => by simpa only [htickets] using h.target k

theorem Sound.states_of_holds (state : RowState) (hstate : state.held)
    (hi : s.holds i state) : s.processor.states i = state :=
  (h.held i state hstate).mp hi

theorem Sound.reserved (hi : i ∈ s.preparing ++ s.tickets) : s.processor.states i = .reserved :=
  h.states_of_holds .reserved ⟨RowState.noConfusion, RowState.noConfusion⟩ hi

theorem Sound.submitting (hi : s.worker.submits = some i) : s.processor.states i = .submitting :=
  h.states_of_holds .submitting ⟨RowState.noConfusion, RowState.noConfusion⟩ hi

theorem Sound.submitted {request : ℕ} (hi : (request, i) ∈ s.accepted) :
    s.processor.states i = .submitted :=
  h.states_of_holds .submitted ⟨RowState.noConfusion, RowState.noConfusion⟩
    (List.mem_map_of_mem hi)

theorem Sound.completing (hi : s.worker = .reporting i ∨ s.callback = some i) :
    s.processor.states i = .completing :=
  h.states_of_holds .completing ⟨RowState.noConfusion, RowState.noConfusion⟩ hi

/-! ## Preparations and tickets -/

variable {preparing tickets : List (Fin n)}

/-- A reserved row leaves the hands of its preparation or ticket. -/
theorem Sound.unreserve (hset : Settles s.processor p i state)
    (hmem : ∀ j, j ∈ preparing ++ tickets ↔ j ≠ i ∧ j ∈ s.preparing ++ s.tickets)
    (hnodup : (preparing ++ tickets).Nodup) (hi : i ∈ s.preparing ++ s.tickets)
    (hstate : state = .free ∨ state = .ready) :
    Sound { s with processor := p, preparing, tickets } := by
  have hreserved := h.reserved hi
  refine h.write hset (fun j st hst => ?_) hnodup h.acceptedOnce h.polls rfl
  have hother : st ≠ .reserved → (s.holds j st ↔ if j = i then state = st else s.holds j st) := by
    intro hne
    by_cases hj : j = i
    · subst hj
      rw [if_pos rfl]
      constructor
      · intro hc
        exact absurd ((h.states_of_holds _ hst hc).symm.trans hreserved) hne
      · rintro rfl
        rcases hstate with hstate | hstate
        · exact absurd hstate hst.1
        · exact absurd hstate hst.2
    · rw [if_neg hj]
  cases st with
  | reserved =>
    refine (hmem j).trans ?_
    by_cases hj : j = i
    · simp only [hj, ne_eq, not_true_eq_false, false_and, if_true, false_iff]
      rintro rfl
      rcases hstate with hstate | hstate <;> cases hstate
    · simp [hj, System.holds]
  | _ => exact hother RowState.noConfusion

omit h

theorem mem_erase_left (hnodup : (preparing ++ tickets).Nodup) (hi : i ∈ preparing) (j : Fin n) :
    j ∈ preparing.erase i ++ tickets ↔ j ≠ i ∧ j ∈ preparing ++ tickets := by
  obtain ⟨hleft, -, hdisjoint⟩ := List.nodup_append.mp hnodup
  simp only [List.mem_append, hleft.mem_erase_iff]
  constructor
  · rintro (⟨hne, hj⟩ | hj)
    · exact ⟨hne, .inl hj⟩
    · exact ⟨(hdisjoint i hi j hj).symm, .inr hj⟩
  · rintro ⟨hne, hj | hj⟩
    · exact .inl ⟨hne, hj⟩
    · exact .inr hj

theorem mem_erase_right (hnodup : (preparing ++ tickets).Nodup) (hi : i ∈ tickets) (j : Fin n) :
    j ∈ preparing ++ tickets.erase i ↔ j ≠ i ∧ j ∈ preparing ++ tickets := by
  obtain ⟨-, hright, hdisjoint⟩ := List.nodup_append.mp hnodup
  simp only [List.mem_append, hright.mem_erase_iff]
  constructor
  · rintro (hj | ⟨hne, hj⟩)
    · exact ⟨hdisjoint j hj i hi, .inl hj⟩
    · exact ⟨hne, .inr hj⟩
  · rintro ⟨hne, hj | hj⟩
    · exact .inl hj
    · exact .inr ⟨hne, hj⟩

theorem Sound.unprepare (h : Sound s) (hi : i ∈ s.preparing)
    (hset : Settles s.processor p i .free) :
    Sound { s with processor := p, preparing := s.preparing.erase i } := by
  have hsub : s.preparing.erase i ++ s.tickets |>.Sublist (s.preparing ++ s.tickets) :=
    List.erase_sublist.append (List.Sublist.refl _)
  exact h.unreserve hset (mem_erase_left h.reservedOnce hi) (hsub.nodup h.reservedOnce)
    (List.mem_append_left _ hi) (.inl rfl)

theorem Sound.unticket (h : Sound s) (hi : i ∈ s.tickets) (hset : Settles s.processor p i state)
    (hstate : state = .free ∨ state = .ready) :
    Sound { s with processor := p, tickets := s.tickets.erase i } := by
  have hsub : s.preparing ++ s.tickets.erase i |>.Sublist (s.preparing ++ s.tickets) :=
    (List.Sublist.refl _).append List.erase_sublist
  exact h.unreserve hset (mem_erase_right h.reservedOnce hi) (hsub.nodup h.reservedOnce)
    (List.mem_append_right _ hi) hstate

/-! ## Writing a row that nobody holds, or that changes hands -/

/-- A row passes from one holder to the next. -/
theorem Sound.pass (h : Sound s) (hset : Settles s.processor s'.processor i state)
    (hgain : state.held → s'.holds i state) (hlose : ∀ st, st.held → st ≠ state → ¬ s'.holds i st)
    (hothers : ∀ j st, j ≠ i → st.held → (s'.holds j st ↔ s.holds j st))
    (hreserved : (s'.preparing ++ s'.tickets).Nodup) (haccepted : (s'.accepted.map Prod.snd).Nodup)
    (hpolls : s'.callback ≠ none → s'.worker.polls = true) (hcancels : s'.cancels = s.cancels) :
    Sound s' := by
  refine h.write hset (fun j st hst => ?_) hreserved haccepted hpolls hcancels
  by_cases hj : j = i
  · subst hj
    rw [if_pos rfl]
    by_cases hsame : st = state
    · subst hsame
      exact iff_of_true (hgain hst) rfl
    · exact iff_of_false (hlose st hst hsame) fun hc => hsame hc.symm
  · rw [if_neg hj]
    exact hothers j st hj hst

/-! ## The actions -/

theorem prepareSend_cases (p : Processor n β) (b : β) (sendId : Text) (delayMs : ℕ) :
    (∃ e, p.prepareSend b sendId delayMs = (p, .error e)) ∨
      ∃ i, p.states i = .free ∧ (p.bindings b).isOpen = true ∧
        p.prepareSend b sendId delayMs = (p.reserveRow i b sendId delayMs, .ok i) := by
  unfold prepareSend
  split
  · exact .inl ⟨_, rfl⟩
  split
  · exact .inl ⟨_, rfl⟩
  split
  · exact .inl ⟨_, rfl⟩
  · rename_i i hi
    have hfree := Fin.eq_true_of_find?_eq_some hi
    exact .inr ⟨i, by simpa [states] using hfree, by simp_all, rfl⟩

/-- **A preparation** takes a free row. -/
theorem reserve_sound (h : Sound s) (hi : s.processor.states i = .free) (b : β) (sendId : Text)
    (delayMs : ℕ) : Sound { s with
      processor := s.processor.reserveRow i b sendId delayMs
      preparing := s.preparing ++ [i] } := by
  have hset := reserveRow_settles h.counted hi b sendId delayMs
  have hnot : i ∉ s.preparing ++ s.tickets := by
    intro hc
    rw [h.reserved hc] at hi
    cases hi
  have hmem : ∀ j, j ∈ (s.preparing ++ [i]) ++ s.tickets ↔ j = i ∨ j ∈ s.preparing ++ s.tickets := by
    intro j
    simp only [List.mem_append, List.mem_singleton]
    tauto
  refine h.pass hset (fun _ => (hmem i).mpr (.inl rfl)) (fun st hst hne hc => ?_)
    (fun j st hj hst => ?_) ?_ h.acceptedOnce h.polls rfl
  · cases st with
    | reserved => exact hne rfl
    | submitting | submitted | completing =>
      exact absurd ((h.held i _ hst).mp hc) (by rw [hi]; exact RowState.noConfusion)
    | free | ready => exact hc
  · cases st with
    | reserved => exact (hmem j).trans (by simp [hj, System.holds])
    | _ => exact Iff.rfl
  · rw [List.append_assoc, List.singleton_append]
    exact List.nodup_middle.mpr (List.nodup_cons.mpr ⟨hnot, h.reservedOnce⟩)

theorem finishSend_cases (h : Counted s.processor) (hi : s.processor.states i = .reserved) (b : β) :
    Settles s.processor (s.processor.finishSend i b).1 i .free ∧
        (s.processor.finishSend i b).2 = false ∨
      s.processor.finishSend i b =
        ({ s.processor with egressAccepted := s.processor.egressAccepted + 1 }, true) := by
  have hi' : (s.processor.rows i).state = .reserved := hi
  unfold finishSend
  split
  · exact .inl ⟨unqueue_settles h (.inl hi) rfl rfl rfl rfl rfl rfl, rfl⟩
  · exact .inr rfl

/-- **A send** that is prepared becomes a ticket. -/
theorem ticket_sound (h : Sound s) (hi : i ∈ s.preparing) : Sound { s with
    processor := { s.processor with egressAccepted := s.processor.egressAccepted + 1 }
    preparing := s.preparing.erase i
    tickets := s.tickets ++ [i] } := by
  have hmem : ∀ j, j ∈ s.preparing.erase i ++ (s.tickets ++ [i]) ↔
      j ∈ s.preparing ++ s.tickets := by
    intro j
    rw [← List.append_assoc, List.mem_append, mem_erase_left h.reservedOnce hi]
    simp only [List.mem_singleton]
    constructor
    · rintro (⟨-, hj⟩ | rfl)
      · exact hj
      · exact List.mem_append_left _ hi
    · intro hj
      by_cases hji : j = i
      · exact .inr hji
      · exact .inl ⟨hji, hj⟩
  have hnot : i ∉ s.preparing.erase i ++ s.tickets := by
    rw [mem_erase_left h.reservedOnce hi]
    exact fun hc => hc.1 rfl
  have hsub : s.preparing.erase i ++ s.tickets |>.Sublist (s.preparing ++ s.tickets) :=
    List.erase_sublist.append (List.Sublist.refl _)
  refine h.keep ⟨h.counted.queued, h.counted.inFlight, h.counted.references, h.counted.failures,
    h.counted.bound⟩ rfl (fun j st hst => ?_) ?_ rfl h.polls h.cancelsOnce h.cancels h.target
  · cases st with
    | reserved => exact hmem j
    | _ => exact Iff.rfl
  · rw [← List.append_assoc]
    refine List.nodup_append.mpr ⟨hsub.nodup h.reservedOnce, List.nodup_singleton _, ?_⟩
    intro x hx y hy hxy
    obtain rfl := List.mem_singleton.mp hy
    exact hnot (hxy ▸ hx)

theorem prepareCancel_cases (p : Processor n β) (b : β) (sendId : Text) :
    (∃ e, p.prepareCancel b sendId = (p, .error e)) ∨ p.prepareCancel b sendId = (p, .ok none) ∨
      ∃ i k, (Fin.find? fun i => isTarget b sendId (p.rows i)) = some i ∧
        (p.cancelTickets k).reserved = false ∧
        p.prepareCancel b sendId = ({ p with
          cancelTickets := update p.cancelTickets k ⟨some i, (p.rows i).generation, true⟩ },
          .ok (some k)) := by
  unfold prepareCancel
  split
  · exact .inl ⟨_, rfl⟩
  split
  · exact .inr (.inl rfl)
  rename_i i hi
  split
  · exact .inl ⟨_, rfl⟩
  · rename_i k hk
    have hfree := Fin.eq_true_of_find?_eq_some hk
    exact .inr (.inr ⟨i, k, hi, by simpa using hfree, rfl⟩)

variable {k : Fin n}

/-- **A cancel** takes a free ticket. -/
theorem cancelTicket_sound (h : Sound s) (hk : (s.processor.cancelTickets k).reserved = false)
    (generation : ℕ) : Sound { s with
      processor := { s.processor with
        cancelTickets := update s.processor.cancelTickets k ⟨some i, generation, true⟩ }
      cancels := s.cancels ++ [k] } := by
  have hnot : k ∉ s.cancels := by
    intro hc
    rw [(h.cancels k).mp hc] at hk
    cases hk
  refine h.keep ⟨h.counted.queued, h.counted.inFlight, h.counted.references, h.counted.failures,
    h.counted.bound⟩ rfl (fun _ _ _ => Iff.rfl) h.reservedOnce rfl h.polls ?_ (fun l => ?_)
    fun l => ?_
  · refine List.nodup_append.mpr ⟨h.cancelsOnce, List.nodup_singleton _, ?_⟩
    intro x hx y hy hxy
    obtain rfl := List.mem_singleton.mp hy
    exact hnot (hxy ▸ hx)
  · by_cases hl : l = k
    · subst hl
      simp
    · simpa [hl] using h.cancels l
  · by_cases hl : l = k
    · subst hl
      simp
    · simpa [hl] using h.target l

theorem releaseCancel_sound (h : Sound s) (hk : k ∈ s.cancels) : Sound { s with
    processor := s.processor.releaseCancel k
    cancels := s.cancels.erase k } := by
  refine h.keep ⟨h.counted.queued, h.counted.inFlight, h.counted.references, h.counted.failures,
    h.counted.bound⟩ rfl (fun _ _ _ => Iff.rfl) h.reservedOnce rfl h.polls
    (h.cancelsOnce.erase k) (fun l => ?_) fun l => ?_
  · simp only [h.cancelsOnce.mem_erase_iff, releaseCancel]
    by_cases hl : l = k
    · subst hl
      simp
    · simpa [hl] using h.cancels l
  · simp only [releaseCancel]
    by_cases hl : l = k
    · subst hl
      simp
    · simpa [hl] using h.target l

theorem Sound.cancelled (h : Sound s) (hcounted : Counted p)
    (hstates : ∀ j, p.states j = s.processor.states j ∨
      s.processor.states j = .ready ∧ p.states j = .free)
    (htickets : p.cancelTickets = s.processor.cancelTickets) :
    Sound { s with processor := p } := by
  refine ⟨hcounted, fun j st hst => ?_, h.reservedOnce, h.acceptedOnce, h.polls, h.cancelsOnce,
    fun k => by rw [h.cancels k]; simp only [htickets],
    fun k => by simpa only [htickets] using h.target k⟩
  refine (h.held j st hst).trans ?_
  show _ ↔ p.states j = st
  rcases hstates j with hj | ⟨hready, hfree⟩
  · rw [hj]
  · rw [hready, hfree]
    exact iff_of_false (fun hc => hst.2 hc.symm) fun hc => hst.1 hc.symm

theorem cancelCommit_eq (h : Sound s) (hk : k ∈ s.cancels) :
    ∃ i, (s.processor.cancelTickets k).target = some i ∧
      s.processor.cancelCommit k =
        if (s.processor.rows i).generation = (s.processor.cancelTickets k).targetGeneration then
          (s.processor.releaseCancel k).cancelRow i else s.processor.releaseCancel k := by
  have hreserved := (h.cancels k).mp hk
  obtain ⟨i, hi⟩ := Option.ne_none_iff_exists'.mp (h.target k hreserved)
  refine ⟨i, hi, ?_⟩
  simp only [cancelCommit, hi, hreserved, Bool.not_true, Bool.false_eq_true, if_false, ite_not]

/-- **A cancel** that is committed frees its ticket. -/
theorem cancelCommit_sound (h : Sound s) (hk : k ∈ s.cancels) : Sound { s with
    processor := s.processor.cancelCommit k
    cancels := s.cancels.erase k } := by
  obtain ⟨i, -, heq⟩ := cancelCommit_eq h hk
  have hrelease := releaseCancel_sound h hk
  rw [heq]
  split
  · have hset := cancelRow_settles hrelease.counted i
    refine hrelease.cancelled hset.counted (fun j => ?_) (tickets_of_frame hset.frame)
    rw [hset.states]
    by_cases hj : j = i
    · subst hj
      rw [update_self]
      split
      · rename_i hready
        exact .inr ⟨hready, rfl⟩
      · exact .inl rfl
    · exact .inl (update_of_ne hj _ _)
  · exact hrelease

theorem compositeClose_cases (h : Counted p) (b : β) :
    (p.bindings b).isOpen = false ∧ p.compositeClose b = p ∨
      ∃ q, (p.bindings b).isOpen = true ∧ q.rows = p.rows ∧
        q.cancelTickets = p.cancelTickets ∧ q.clocks = p.clocks ∧
        (q.bindings b).state = .closing ∧
        (∀ b', b' ≠ b → q.bindings b' = p.bindings b') ∧
        Swept b q (p.compositeClose b) := by
  unfold compositeClose
  split
  · rename_i hopen
    right
    refine ⟨{ p with
      bindings := update p.bindings b { p.bindings b with state := .closing } },
      hopen, rfl, rfl, ?_, ?_, fun b' hb' => update_of_ne hb' _ _, closeBindingLocked_swept ?_ b⟩
    · funext b'
      show ((update p.bindings b _) b').nextCommitSequence = _
      by_cases hb : b' = b
      · rw [hb, update_self]
        rfl
      · rw [update_of_ne hb]
        rfl
    · simp
    · refine h.same rfl (fun b' => ?_) rfl rfl rfl
      show ((update p.bindings b _) b').outboundReferences = _
      by_cases hb : b' = b
      · rw [hb, update_self]
      · rw [update_of_ne hb]
  · rename_i hopen
    exact .inl ⟨by simpa using hopen, rfl⟩

/-- **A close** frees the ready rows of its binding. -/
theorem compositeClose_sound (h : Sound s) (b : β) :
    Sound { s with processor := s.processor.compositeClose b } := by
  rcases compositeClose_cases h.counted b with ⟨-, heq⟩ | ⟨p, -, hrows, htickets, -, -, -, hswept⟩
  · rw [heq]
    exact h
  · refine h.cancelled hswept.counted (fun j => ?_)
      ((tickets_of_frame hswept.frame).trans htickets)
    have hstate : p.states j = s.processor.states j := congrArg (fun r => (r j).state) hrows
    rw [hswept.states j, hstate]
    split
    · rename_i hready
      exact .inr ⟨hready.2, rfl⟩
    · exact .inl rfl

theorem Processor.Counted.rebind (h : Counted p) {b : β} {binding : Binding}
    (hreferences : binding.outboundReferences = (p.bindings b).outboundReferences) :
    Counted { p with bindings := update p.bindings b binding } := by
  refine h.same rfl (fun b' => ?_) rfl rfl rfl
  show ((update p.bindings b _) b').outboundReferences = _
  by_cases hb : b' = b
  · rw [hb, update_self, hreferences]
  · rw [update_of_ne hb]

theorem activate_sound (h : Sound s) (b : β) :
    Sound { s with processor := s.processor.activate b } := by
  unfold activate
  split
  · exact h.same (h.counted.rebind rfl) rfl rfl
  · exact h

theorem compositeIsQuiescent_sound (h : Sound s) (b : β) (downstream : Bool) (callbacks : ℕ) :
    Sound { s with processor := (s.processor.compositeIsQuiescent b downstream callbacks).1 } := by
  unfold compositeIsQuiescent
  split
  · exact h
  · split
    · exact h.same (h.counted.rebind rfl) rfl rfl
    · exact h
  · exact h

/-! ### The worker -/

theorem cancelSelect_cases (h : Counted s.processor) :
    s.processor.cancelSelect = (s.processor, .idle) ∨
      ∃ i request, s.processor.states i = .submitted ∧
        Settles s.processor s.processor.cancelSelect.1 i (s.processor.states i) ∧
        s.processor.cancelSelect.2 = .cancelling i request := by
  unfold cancelSelect
  split
  · exact .inl rfl
  · rename_i i hi
    have hel := Fin.eq_true_of_find?_eq_some hi
    simp only [Bool.and_eq_true, beq_iff_eq] at hel
    exact .inr ⟨i, _, hel.1, .rewrite h rfl rfl, rfl⟩

variable (h : Sound s)
include h

theorem Sound.polling (hw : s.worker.polls = true)
    {result : Processor n β × Worker n} (hcounted : Counted result.1)
    (hstates : result.1.states = s.processor.states) (hframe : result.1.frame = s.processor.frame)
    (hpolls : result.2.polls = true) : Sound (s.worked result) := by
  have hsubmits : ∀ w : Worker n, w.polls = true → w.submits = none ∧ ∀ j, w ≠ .reporting j := by
    intro w hw
    cases w <;> simp [Worker.polls, Worker.submits] at hw ⊢
  refine h.keep hcounted hstates (fun j st hst => ?_) h.reservedOnce rfl (fun _ => hpolls)
    h.cancelsOnce (fun k => ?_) fun k => ?_
  · cases st with
    | submitting =>
      show result.2.submits = some j ↔ s.worker.submits = some j
      rw [(hsubmits _ hpolls).1, (hsubmits _ hw).1]
    | completing =>
      show result.2 = .reporting j ∨ s.callback = some j ↔
        s.worker = .reporting j ∨ s.callback = some j
      simp [(hsubmits _ hpolls).2 j, (hsubmits _ hw).2 j]
    | _ => exact Iff.rfl
  · show k ∈ s.cancels ↔ (result.1.cancelTickets k).reserved = true
    rw [tickets_of_frame hframe]
    exact h.cancels k
  · show (result.1.cancelTickets k).reserved = true → (result.1.cancelTickets k).target ≠ none
    rw [tickets_of_frame hframe]
    exact h.target k

/-- A step of the worker. -/
theorem Sound.work (worker : Worker n) {accepted : List (ℕ × Fin n)}
    (hset : Settles s.processor p i state) (hcallback : s.callback = none)
    (hholds : s.worker = .idle ∧ s.processor.states i = .ready ∨ s.worker.submits = some i ∨
      s.worker = .reporting i)
    (hsubmits : ∀ j, worker.submits = some j ↔ j = i ∧ state = .submitting)
    (hreporting : ∀ j, worker = .reporting j ↔ j = i ∧ state = .completing)
    (haccepted : accepted = s.accepted ∧ state ≠ .submitted ∨
      state = .submitted ∧ ∃ request, accepted = s.accepted ++ [(request, i)])
    (hreserved : state ≠ .reserved) :
    Sound { s with processor := p, worker, accepted } := by
  have hold : s.processor.states i = .ready ∨ s.processor.states i = .submitting ∨
      s.processor.states i = .completing := by
    rcases hholds with ⟨-, hi⟩ | hi | hi
    · exact .inl hi
    · exact .inr (.inl (h.submitting hi))
    · exact .inr (.inr (h.completing (.inl hi)))
  have hfresh : i ∉ s.accepted.map Prod.snd := by
    intro hc
    have := h.states_of_holds .submitted
      ⟨RowState.noConfusion, RowState.noConfusion⟩ hc
    rcases hold with hi | hi | hi <;> rw [this] at hi <;> cases hi
  have hotherSubmits : ∀ j, j ≠ i → s.worker.submits ≠ some j := by
    intro j hj hc
    rcases hholds with ⟨hw, -⟩ | hw | hw
    · rw [hw] at hc
      cases hc
    · rw [hw] at hc
      cases hc
      exact hj rfl
    · rw [hw] at hc
      cases hc
  have hotherReporting : ∀ j, j ≠ i → s.worker ≠ .reporting j := by
    intro j hj hc
    rcases hholds with ⟨hw, -⟩ | hw | hw
    · rw [hw] at hc
      cases hc
    · rw [hc] at hw
      cases hw
    · rw [hw] at hc
      cases hc
      exact hj rfl
  have hmem : ∀ j, j ∈ accepted.map Prod.snd ↔
      j ∈ s.accepted.map Prod.snd ∨ j = i ∧ state = .submitted := by
    intro j
    rcases haccepted with ⟨rfl, hne⟩ | ⟨hstate, request, rfl⟩
    · simp [hne]
    · simp [hstate]
  refine h.pass hset (fun hst => ?_) (fun st hst hne => ?_) (fun j st hj hst => ?_)
    h.reservedOnce ?_ (fun hc => absurd hcallback hc) rfl
  · cases state with
    | reserved => exact absurd rfl hreserved
    | submitting => exact (hsubmits i).mpr ⟨rfl, rfl⟩
    | submitted => exact (hmem i).mpr (.inr ⟨rfl, rfl⟩)
    | completing => exact .inl ((hreporting i).mpr ⟨rfl, rfl⟩)
    | free => exact hst.1 rfl
    | ready => exact hst.2 rfl
  · intro hc
    cases st with
    | reserved =>
      have := h.reserved hc
      rcases hold with hi | hi | hi <;> rw [this] at hi <;> cases hi
    | submitting => exact hne ((hsubmits i).mp hc).2.symm
    | submitted =>
      rcases (hmem i).mp hc with hc | ⟨-, hc⟩
      · exact hfresh hc
      · exact hne hc.symm
    | completing =>
      rcases hc with hc | hc
      · exact hne ((hreporting i).mp hc).2.symm
      · rw [show s.callback = some i from hc] at hcallback
        cases hcallback
    | free | ready => exact hc
  · cases st with
    | submitting =>
      exact iff_of_false (fun hc => hj ((hsubmits j).mp hc).1) (hotherSubmits j hj)
    | submitted => exact (hmem j).trans (by simp [hj, System.holds])
    | completing =>
      have hnew : worker ≠ .reporting j := fun hc => hj ((hreporting j).mp hc).1
      show worker = .reporting j ∨ s.callback = some j ↔ s.worker = .reporting j ∨ s.callback = some j
      simp [hnew, hotherReporting j hj]
    | _ => exact Iff.rfl
  · rcases haccepted with ⟨rfl, -⟩ | ⟨-, request, rfl⟩
    · exact h.acceptedOnce
    · show ((s.accepted ++ [(request, i)]).map Prod.snd).Nodup
      rw [List.map_append]
      refine List.nodup_append.mpr ⟨h.acceptedOnce, List.nodup_singleton _, ?_⟩
      intro x hx y hy hxy
      obtain rfl := List.mem_singleton.mp hy
      exact hfresh (hxy ▸ hx)

theorem Sound.callback_none (hw : s.worker.polls = false) : s.callback = none := by
  by_contra hc
  rw [h.polls hc] at hw
  cases hw

/-- **The completion** of a request begins. -/
theorem requestComplete_sound {request : ℕ} (hpolls : s.worker.polls = true)
    (hcallback : s.callback = none) (hi : (request, i) ∈ s.accepted)
    (hset : Settles s.processor p i .completing) : Sound { s with
      processor := p
      callback := some i
      accepted := s.accepted.erase (request, i) } := by
  have hstate := h.submitted hi
  have hnodup : s.accepted.Nodup := h.acceptedOnce.of_map _
  have hmem : ∀ j, j ∈ (s.accepted.erase (request, i)).map Prod.snd ↔
      j ≠ i ∧ j ∈ s.accepted.map Prod.snd := by
    intro j
    simp only [List.mem_map, hnodup.mem_erase_iff]
    constructor
    · rintro ⟨e, ⟨hne, he⟩, rfl⟩
      refine ⟨fun hc => hne ?_, e, he, rfl⟩
      exact List.inj_on_of_nodup_map h.acceptedOnce he hi hc
    · rintro ⟨hne, e, he, rfl⟩
      exact ⟨e, ⟨fun hc => hne (by rw [hc]), he⟩, rfl⟩
  have hsubmits : s.worker.submits = none := by
    cases hw : s.worker <;> rw [hw] at hpolls <;> first | rfl | cases hpolls
  have hreporting : ∀ j, s.worker ≠ .reporting j := by
    intro j hw
    rw [hw] at hpolls
    cases hpolls
  refine h.pass hset (fun _ => .inr rfl) (fun st hst hne hc => ?_) (fun j st hj hst => ?_)
    h.reservedOnce ?_ (fun _ => hpolls) rfl
  · cases st with
    | reserved =>
      rw [h.reserved hc] at hstate
      cases hstate
    | submitting =>
      rw [show s.worker.submits = some i from hc] at hsubmits
      cases hsubmits
    | submitted => exact ((hmem i).mp hc).1 rfl
    | completing => exact hne rfl
    | free | ready => exact hc
  · cases st with
    | submitted => exact (hmem j).trans (by simp [hj, System.holds])
    | completing =>
      show s.worker = .reporting j ∨ some i = some j ↔ s.worker = .reporting j ∨ s.callback = some j
      have hne : ¬ i = j := fun hc => hj hc.symm
      simp [hreporting j, hcallback, hne]
    | _ => exact Iff.rfl
  · exact (List.erase_sublist.map Prod.snd).nodup h.acceptedOnce

/-- **The completion** of a request frees its row. -/
theorem requestCompleted_sound (hi : s.callback = some i) (hset : Settles s.processor p i .free) :
    Sound { s with processor := p, callback := none } := by
  have hstate := h.completing (.inr hi)
  have hpolls := h.polls (by rw [hi]; simp)
  have hreporting : ∀ j, s.worker ≠ .reporting j := by
    intro j hw
    rw [hw] at hpolls
    cases hpolls
  refine h.pass hset (fun hst => absurd rfl hst.1) (fun st hst hne hc => ?_)
    (fun j st hj hst => ?_) h.reservedOnce h.acceptedOnce (fun hc => absurd rfl hc) rfl
  · cases st with
    | completing =>
      rcases hc with hc | hc
      · exact hreporting i hc
      · cases hc
    | reserved | submitting | submitted =>
      rw [h.states_of_holds _ hst hc] at hstate
      cases hstate
    | free | ready => exact hc
  · cases st with
    | completing =>
      have hne : ¬ i = j := fun hc => hj hc.symm
      show s.worker = .reporting j ∨ none = some j ↔ s.worker = .reporting j ∨ s.callback = some j
      simp [hreporting j, hi, hne]
    | _ => exact Iff.rfl

end Sound

end TurboScxml.Chttp
