import TurboScxml.Chttp.Egress

/-!
# What the sections of the BasicHTTP egress table keep

* `states`, `Counted`: the states of the rows, and the counters as numbers of rows;
* `System.holds`, `Sound`: every RESERVED, SUBMITTING, SUBMITTED and COMPLETING row is in the hands of
  a ticket, the worker or the client, and of one only.
-/

namespace TurboScxml.Chttp

open Function Slots Machine

variable {n : ℕ} {β : Type}

def Row.core (row : Row β) : Option β × ℕ × Text × ℕ × ℕ × ℕ :=
  (row.binding, row.generation, row.sendId, row.delayMs, row.dueMs, row.commitSequence)

namespace Processor

def states (p : Processor n β) (i : Fin n) : RowState := (p.rows i).state

structure Counted [DecidableEq β] (p : Processor n β) : Prop where
  queued : p.queuedEgress = tally Row.queued p.rows
  inFlight : p.inFlightEgress = tally Row.inFlight p.rows
  references : ∀ b, (p.bindings b).outboundReferences = tally (Row.boundTo b) p.rows
  failures : p.invariantFailures = 0
  bound : ∀ i, p.states i ≠ .free → (p.rows i).binding ≠ none

def frame (p : Processor n β) : (β → BindingState) × (Fin n → CancelTicket n) × Bool :=
  (fun b => (p.bindings b).state, p.cancelTickets, p.running)

section Frame

variable {p q : Processor n β}

theorem tickets_of_frame (h : q.frame = p.frame) : q.cancelTickets = p.cancelTickets :=
  congrArg (·.2.1) h

theorem isOpen_of_frame (h : q.frame = p.frame) (b : β) :
    (q.bindings b).isOpen = (p.bindings b).isOpen := by
  have hstate : (q.bindings b).state = (p.bindings b).state := congrFun (congrArg (·.1) h) b
  simp only [Binding.isOpen, hstate]

end Frame

def clocks (p : Processor n β) (b : β) : ℕ := (p.bindings b).nextCommitSequence

/-- A section that settles row `i` as `state`. -/
structure Settles [DecidableEq β] (p p' : Processor n β) (i : Fin n) (state : RowState) : Prop where
  counted : Counted p'
  states : p'.states = update p.states i state
  others : ∀ j, j ≠ i → p'.rows j = p.rows j
  frame : p'.frame = p.frame
  core : p.states i ≠ .free → p.states i ≠ .reserved ∨ state = .reserved → state ≠ .free →
    (p'.rows i).core = (p.rows i).core
  clocks : p.states i ≠ .reserved ∨ state ≠ .ready → p'.clocks = p.clocks

section Operations

variable [DecidableEq β] {p : Processor n β} {i : Fin n}

omit [DecidableEq β] in
theorem update_states_self : update p.states i (p.states i) = p.states := update_eq_self ..

variable (h : Counted p)
include h

section Write

variable (p' : Processor n β) (row : Row β) (hrows : p'.rows = update p.rows i row)
    (hqueued : p'.queuedEgress + (p.rows i).queued.toNat = p.queuedEgress + row.queued.toNat)
    (hinFlight : p'.inFlightEgress + (p.rows i).inFlight.toNat =
      p.inFlightEgress + row.inFlight.toNat)
    (hreferences : ∀ b, (p'.bindings b).outboundReferences + ((p.rows i).boundTo b).toNat =
      (p.bindings b).outboundReferences + (row.boundTo b).toNat)
    (hfailures : p'.invariantFailures = p.invariantFailures)
    (hbound : row.state ≠ .free → row.binding ≠ none)
include hrows hqueued hinFlight hreferences hfailures hbound

/-- **One row is written**, and the counters with it. -/
theorem Counted.write : Counted p' := by
  refine ⟨?_, ?_, fun b => ?_, hfailures.trans h.failures, fun j hj => ?_⟩
  · have := tally_update Row.queued p.rows i row
    rw [hrows]
    have := h.queued
    omega
  · have := tally_update Row.inFlight p.rows i row
    rw [hrows]
    have := h.inFlight
    omega
  · have := tally_update (Row.boundTo b) p.rows i row
    rw [hrows]
    have := h.references b
    have := hreferences b
    omega
  · simp only [states, hrows] at hj ⊢
    by_cases hji : j = i
    · subst hji
      simpa using hbound (by simpa using hj)
    · rw [update_of_ne hji] at hj ⊢
      exact h.bound j hj

theorem Settles.write (hframe : p'.frame = p.frame)
    (hcore : p.states i ≠ .free → p.states i ≠ .reserved ∨ row.state = .reserved →
      row.state ≠ .free → row.core = (p.rows i).core)
    (hclocks : p.states i ≠ .reserved ∨ row.state ≠ .ready → p'.clocks = p.clocks) :
    Settles p p' i row.state := by
  refine ⟨h.write p' row hrows hqueued hinFlight hreferences hfailures hbound, ?_, fun j hj => ?_,
    hframe, fun hfree hold hnew => ?_, hclocks⟩
  · funext j
    simp only [Processor.states, hrows]
    by_cases hj : j = i
    · subst hj
      simp
    · simp [hj, Processor.states]
  · rw [hrows, update_of_ne hj]
  · rw [hrows, update_self]
    exact hcore hfree hold hnew

end Write

theorem Settles.refl : Settles p p i (p.states i) :=
  ⟨h, update_states_self.symm, fun _ _ => rfl, rfl, fun _ _ _ => rfl, fun _ => rfl⟩

theorem Settles.rewrite {row : Row β} (hstate : row.state = p.states i)
    (hcore : row.core = (p.rows i).core) :
    Settles p (p.setRow i row) i (p.states i) := by
  have hbinding : row.binding = (p.rows i).binding := congrArg Prod.fst hcore
  have hq : row.queued = (p.rows i).queued := by simp only [Row.queued, hstate, Processor.states]
  have hf : row.inFlight = (p.rows i).inFlight := by
    simp only [Row.inFlight, hstate, Processor.states]
  have hb : ∀ b, row.boundTo b = (p.rows i).boundTo b := by
    intro b
    simp only [Row.boundTo, hstate, hbinding, Processor.states]
  rw [← hstate]
  refine .write h _ _ rfl (by rw [hq]; rfl) (by rw [hf]; rfl) (fun b => by rw [hb]; rfl) rfl ?_ rfl
    (fun _ _ _ => hcore) fun _ => rfl
  intro hused
  rw [hbinding]
  exact h.bound i (hstate ▸ hused)

theorem Counted.queued_pos (hi : (p.rows i).queued = true) : 0 < p.queuedEgress := by
  rw [h.queued]
  exact tally_pos hi

theorem Counted.inFlight_pos (hi : (p.rows i).inFlight = true) : 0 < p.inFlightEgress := by
  rw [h.inFlight]
  exact tally_pos hi

theorem Counted.references_pos {b : β} (hi : (p.rows i).boundTo b = true) :
    0 < (p.bindings b).outboundReferences := by
  rw [h.references]
  exact tally_pos hi

omit h

theorem releaseBinding_rows (binding : Option β) : (p.releaseBinding binding).rows = p.rows := by
  cases binding <;> rfl

theorem releaseBinding_frame (binding : Option β) : (p.releaseBinding binding).frame = p.frame := by
  cases binding with
  | none => rfl
  | some b =>
    simp only [releaseBinding, frame, Prod.mk.injEq, and_true]
    funext b'
    by_cases hb : b' = b
    · rw [hb, update_self]
    · rw [update_of_ne hb]

theorem releaseBinding_clocks (binding : Option β) :
    (p.releaseBinding binding).clocks = p.clocks := by
  cases binding with
  | none => rfl
  | some b =>
    funext b'
    simp only [releaseBinding, clocks]
    by_cases hb : b' = b
    · rw [hb, update_self]
    · rw [update_of_ne hb]

variable {q : Processor n β}

/-- **Releasing a row.** -/
theorem reset_settles (h : Counted p) (hrows : q.rows = p.rows)
    (hbindings : q.bindings = p.bindings) (hframe : q.frame = p.frame)
    (hused : p.states i ≠ .free)
    (hqueued : q.queuedEgress + (p.rows i).queued.toNat = p.queuedEgress)
    (hinFlight : q.inFlightEgress + (p.rows i).inFlight.toNat = p.inFlightEgress)
    (hfailures : q.invariantFailures = p.invariantFailures) :
    Settles p (q.resetRowLocked i) i .free := by
  obtain ⟨b, hb⟩ := Option.ne_none_iff_exists'.mp (h.bound i hused)
  have hpos : 0 < (p.bindings b).outboundReferences :=
    h.references_pos (i := i) (by
      have hstate : (p.rows i).state ≠ .free := hused
      simp [Row.boundTo, hb, hstate])
  have hrelease : (q.releaseBinding (q.rows i).binding).bindings = update p.bindings b
      { p.bindings b with outboundReferences := (p.bindings b).outboundReferences - 1 } := by
    rw [hrows, hb]
    simp only [releaseBinding, hbindings]
  refine .write h _ (.free β (q.rows i).generation) ?_ ?_ ?_ (fun b' => ?_) ?_
    (fun hc => absurd rfl hc) ?_ (fun _ _ hc => absurd rfl hc) fun _ => ?_
  · show update (q.releaseBinding _).rows i _ = _
    rw [releaseBinding_rows, hrows]
  · have hsame : (q.resetRowLocked i).queuedEgress = q.queuedEgress := by
      unfold resetRowLocked
      cases (q.rows i).binding <;> rfl
    rw [hsame]
    exact hqueued
  · have hsame : (q.resetRowLocked i).inFlightEgress = q.inFlightEgress := by
      unfold resetRowLocked
      cases (q.rows i).binding <;> rfl
    rw [hsame]
    exact hinFlight
  · show ((q.releaseBinding (q.rows i).binding).bindings b').outboundReferences + _ = _
    rw [hrelease]
    by_cases hbb : b' = b
    · subst hbb
      have hstate : (p.rows i).state ≠ .free := hused
      simp only [update_self, Row.boundTo, Row.free]
      simp [hb, hstate]
      omega
    · have hne : ¬ b = b' := fun hc => hbb hc.symm
      rw [update_of_ne hbb]
      simp [Row.boundTo, Row.free, hb, hne]
  · have hsame : (q.resetRowLocked i).invariantFailures = q.invariantFailures := by
      unfold resetRowLocked
      cases (q.rows i).binding <;> rfl
    rw [hsame]
    exact hfailures
  · exact (releaseBinding_frame (p := q) (q.rows i).binding).trans hframe
  · refine (releaseBinding_clocks (p := q) (q.rows i).binding).trans ?_
    funext b'
    rw [clocks, clocks, hbindings]

omit [DecidableEq β] in
theorem queued_of_state (hi : p.states i = .reserved ∨ p.states i = .ready) :
    (p.rows i).queued = true ∧ (p.rows i).inFlight = false := by
  have hi' : (p.rows i).state = .reserved ∨ (p.rows i).state = .ready := hi
  rcases hi' with hi | hi <;> simp [Row.queued, Row.inFlight, hi]

omit [DecidableEq β] in
theorem inFlight_of_state (hi : p.states i = .submitting ∨ p.states i = .submitted) :
    (p.rows i).queued = false ∧ (p.rows i).inFlight = true := by
  have hi' : (p.rows i).state = .submitting ∨ (p.rows i).state = .submitted := hi
  rcases hi' with hi | hi <;> simp [Row.queued, Row.inFlight, hi]

variable (h : Counted p)
include h

theorem unqueue_settles (hi : p.states i = .reserved ∨ p.states i = .ready)
    (hrows : q.rows = p.rows) (hbindings : q.bindings = p.bindings)
    (hframe : q.frame = p.frame) (hqueued : q.queuedEgress = p.queuedEgress - 1)
    (hinFlight : q.inFlightEgress = p.inFlightEgress)
    (hfailures : q.invariantFailures = p.invariantFailures) :
    Settles p (q.resetRowLocked i) i .free := by
  obtain ⟨hq, hf⟩ := queued_of_state hi
  have hpos := h.queued_pos hq
  refine reset_settles h hrows hbindings hframe ?_ ?_ ?_ hfailures
  · rcases hi with hi | hi <;> rw [hi] <;> exact RowState.noConfusion
  · rw [hq, hqueued]
    simp
    omega
  · rw [hf, hinFlight]
    rfl

theorem dropReserved_settles (hi : p.states i = .reserved) :
    Settles p (p.dropReserved i) i .free := by
  have hi' : (p.rows i).state = .reserved := hi
  rw [dropReserved, if_pos hi']
  exact unqueue_settles h (.inl hi) rfl rfl rfl rfl rfl rfl

/-- **A commit** drops the row if the binding is closed. -/
theorem egressCommit_settles (hi : p.states i = .reserved) (now : ℕ) :
    ∃ b, (p.rows i).binding = some b ∧
      (Settles p (p.egressCommit i now) i .free ∨
        (p.bindings b).isOpen = true ∧ Settles p (p.egressCommit i now) i .ready ∧
          (p.egressCommit i now).rows i = committedRow (p.clocks b) now (p.rows i) ∧
          (p.egressCommit i now).clocks = update p.clocks b (nextSequence (p.clocks b))) := by
  obtain ⟨b, hb⟩ := Option.ne_none_iff_exists'.mp
    (h.bound i (by rw [hi]; exact RowState.noConfusion))
  have hi' : (p.rows i).state = .reserved := hi
  refine ⟨b, hb, ?_⟩
  unfold egressCommit
  simp only [hi', hb]
  split
  · exact .inl (unqueue_settles h (.inl hi) rfl rfl rfl rfl rfl rfl)
  · rename_i hopen
    right
    obtain ⟨hq, hf⟩ := queued_of_state (.inl hi)
    have hcell : ∀ (f : Binding → ℕ) (m : ℕ), (∀ x : Binding, f { x with
        nextCommitSequence := m } = f x) → ∀ b', f ((update p.bindings b { p.bindings b with
        nextCommitSequence := m }) b') = f (p.bindings b') := by
      intro f m hf b'
      by_cases hbb : b' = b
      · rw [hbb, update_self, hf]
      · rw [update_of_ne hbb]
    refine ⟨by simp_all, .write h (i := i) _ (committedRow _ now (p.rows i)) rfl ?_ ?_
      (fun b' => ?_) rfl (fun _ => by simp [committedRow, hb]) ?_ (fun _ hc => ?_) (fun hc => ?_),
      update_self .., ?_⟩
    · rw [hq]
      rfl
    · rw [hf]
      rfl
    · show ((update p.bindings b _) b').outboundReferences + _ = _
      rw [hcell Binding.outboundReferences _ fun _ => rfl]
      simp [Row.boundTo, committedRow, hi', hb]
    · simp only [frame, setRow, Prod.mk.injEq, and_true]
      funext b'
      by_cases hbb : b' = b
      · rw [hbb, update_self]
      · rw [update_of_ne hbb]
    · rcases hc with hc | hc
      · exact absurd hi hc
      · cases hc
    · rcases hc with hc | hc
      · exact absurd hi hc
      · exact absurd rfl hc
    · funext b'
      show ((update p.bindings b _) b').nextCommitSequence = _
      by_cases hbb : b' = b
      · subst hbb
        rw [update_self, update_self]
        rfl
      · rw [update_of_ne hbb, update_of_ne hbb]
        rfl

theorem reserveRow_settles (hi : p.states i = .free) (b : β) (sendId : Text)
    (delayMs : ℕ) : Settles p (p.reserveRow i b sendId delayMs) i .reserved := by
  have hi' : (p.rows i).state = .free := hi
  refine .write h (p.reserveRow i b sendId delayMs) _ rfl ?_ ?_ (fun b' => ?_) rfl (by simp) ?_
    (fun hc => absurd hi hc) fun _ => ?_
  · simp [reserveRow, Row.queued, hi']
  · simp [reserveRow, Row.inFlight, hi', setRow]
  · show ((update p.bindings b _) b').outboundReferences + _ = _
    by_cases hbb : b' = b
    · subst hbb
      simp [Row.boundTo, hi']
    · have hne : ¬ b = b' := fun hc => hbb hc.symm
      simp [Row.boundTo, hi', hbb, hne]
  · simp only [frame, reserveRow, setRow, Prod.mk.injEq, and_true]
    funext b'
    by_cases hbb : b' = b
    · rw [hbb, update_self]
    · rw [update_of_ne hbb]
  · funext b'
    show ((update p.bindings b _) b').nextCommitSequence = _
    by_cases hbb : b' = b
    · rw [hbb, update_self]
      rfl
    · rw [update_of_ne hbb]
      rfl

theorem Counted.same (hrows : q.rows = p.rows)
    (hreferences : ∀ b, (q.bindings b).outboundReferences = (p.bindings b).outboundReferences)
    (hqueued : q.queuedEgress = p.queuedEgress) (hinFlight : q.inFlightEgress = p.inFlightEgress)
    (hfailures : q.invariantFailures = p.invariantFailures) : Counted q := by
  refine ⟨?_, ?_, fun b => ?_, hfailures.trans h.failures, fun i hi => ?_⟩
  · rw [hqueued, hrows, h.queued]
  · rw [hinFlight, hrows, h.inFlight]
  · rw [hreferences b, hrows, h.references b]
  · rw [hrows]
    exact h.bound i (by rwa [states, hrows] at hi)

theorem cancelRow_settles (i : Fin n) :
    Settles p (p.cancelRow i) i (if p.states i = .ready then .free else p.states i) := by
  unfold cancelRow
  split
  · rename_i hi
    have hi' : p.states i = .ready := hi
    rw [if_pos hi']
    exact unqueue_settles h (.inr hi) rfl rfl rfl rfl rfl rfl
  · rename_i hi
    have hi' : ¬ p.states i = .ready := hi
    split
    · exact .rewrite h rfl rfl
    · exact .refl h

omit h

structure Swept (b : β) (p p' : Processor n β) : Prop where
  counted : Counted p'
  states : ∀ j, p'.states j =
    if (p.rows j).binding = some b ∧ p.states j = .ready then .free else p.states j
  core : ∀ j, p'.states j ≠ .free → (p'.rows j).core = (p.rows j).core
  frame : p'.frame = p.frame
  clocks : p'.clocks = p.clocks

variable (h : Counted p)
include h

/-- **The closing loop.** The rows below `k` are treated. -/
theorem closeBindingLocked_swept (b : β) : Swept b p (p.closeBindingLocked b) := by
  have hloop := sweep_induction (n := n) (s := p)
    (f := fun p i => if (p.rows i).binding = some b then p.cancelRow i else p)
    (fun k q => Counted q ∧ (∀ j : Fin n, q.states j = if (j : ℕ) < k ∧ (p.rows j).binding = some b
      ∧ p.states j = .ready then .free else p.states j) ∧
      (∀ j : Fin n, q.states j ≠ .free → (q.rows j).core = (p.rows j).core) ∧
      (∀ j : Fin n, k ≤ j → q.rows j = p.rows j) ∧ q.frame = p.frame ∧ q.clocks = p.clocks)
    ⟨h, by simp, fun _ _ => rfl, fun _ _ => rfl, rfl, rfl⟩
    fun i q ⟨hcounted, hstates, hcore, hrest, hframe, hclocks⟩ => by
      have hrow : q.rows i = p.rows i := hrest i le_rfl
      have hstate : q.states i = p.states i := congrArg Row.state hrow
      have hlater : ∀ j : Fin n, (i : ℕ) + 1 ≤ j → j ≠ i := fun j hj hc => by
        omega
      split
      · rename_i hbound
        have hb : (p.rows i).binding = some b := hrow ▸ hbound
        have hset := cancelRow_settles hcounted i
        refine ⟨hset.counted, fun j => ?_, fun j hj => ?_, fun j hj => ?_,
          hset.frame.trans hframe, (hset.clocks ?_).trans hclocks⟩
        · rw [hset.states]
          by_cases hji : j = i
          · subst hji
            simp [hstate, hb]
          · have hne : (j : ℕ) ≠ i := fun hc => hji (Fin.ext hc)
            have hlt : (j : ℕ) < i + 1 ↔ (j : ℕ) < i := by omega
            rw [update_of_ne hji, hstates j]
            simp only [hlt]
        · by_cases hji : j = i
          · subst hji
            rw [hset.states, update_self] at hj
            have hnot : q.states j ≠ .ready := by
              intro hc
              rw [if_pos hc] at hj
              exact hj rfl
            rw [if_neg hnot] at hj hset
            by_cases hres : q.states j = .reserved
            · rw [hset.core hj (.inr hres) hj, hrow]
            · rw [hset.core hj (.inl hres) hj, hrow]
          · rw [hset.others j hji]
            rw [hset.states, update_of_ne hji] at hj
            exact hcore j hj
        · rw [hset.others j (hlater j hj)]
          exact hrest j (by omega)
        · by_cases hres : q.states i = .reserved
          · right
            rw [hres]
            exact RowState.noConfusion
          · exact .inl hres
      · rename_i hbound
        have hb : (p.rows i).binding ≠ some b := fun hc => hbound (by rw [hrow, hc])
        refine ⟨hcounted, fun j => ?_, hcore, fun j hj => hrest j (by omega), hframe, hclocks⟩
        rw [hstates j]
        by_cases hji : j = i
        · subst hji
          simp [hb]
        · have hne : (j : ℕ) ≠ i := fun hc => hji (Fin.ext hc)
          have hlt : (j : ℕ) < i + 1 ↔ (j : ℕ) < i := by omega
          simp only [hlt]
  obtain ⟨hcounted, hstates, hcore, -, hframe, hclocks⟩ := hloop
  exact ⟨hcounted, fun j => (hstates j).trans (by simp), hcore, hframe, hclocks⟩

theorem submitSelect_settles (hi : p.states i = .ready) :
    Settles p { p.unqueued.setState i .submitting with
      inFlightEgress := p.inFlightEgress + 1 } i .submitting := by
  obtain ⟨hq, hf⟩ := queued_of_state (.inr hi)
  have hpos := h.queued_pos hq
  have hi' : (p.rows i).state = .ready := hi
  refine .write h _ { p.rows i with state := .submitting } rfl ?_ ?_ (fun b => ?_) rfl
    (fun _ => h.bound i (by rw [hi]; exact RowState.noConfusion)) rfl (fun _ _ _ => rfl)
    fun _ => rfl
  · rw [hq]
    simp [setState, setRow, unqueued, Row.queued]
    omega
  · rw [hf]
    simp [Row.inFlight]
  · simp [setState, setRow, unqueued, Row.boundTo, hi']

theorem submitAnswer_settles (hi : p.states i = .submitting) :
    (∀ request, Settles p (p.submitAnswer i (.ok request)).1 i .submitted ∧
      (p.submitAnswer i (.ok request)).2 = .idle) ∧
    (Settles p (p.submitAnswer i .enobufs).1 i .ready ∧
      (p.submitAnswer i .enobufs).2 = .idle) ∧
    p.submitAnswer i .other = (p, .completing i .failed) := by
  have hi' : (p.rows i).state = .submitting := hi
  have hbound : (p.rows i).binding ≠ none := h.bound i (by rw [hi]; exact RowState.noConfusion)
  obtain ⟨hq, hf⟩ := inFlight_of_state (.inl hi)
  have hpos := h.inFlight_pos hf
  simp only [submitAnswer, hi', if_true, and_true]
  refine ⟨fun request => ?_, ?_⟩
  · refine .write h _ { p.rows i with state := .submitted, request } rfl ?_ ?_ (fun b => ?_)
      rfl (fun _ => hbound) rfl (fun _ _ _ => rfl) fun _ => rfl
    · rw [hq]
      rfl
    · rw [hf]
      rfl
    · simp [setRow, Row.boundTo, hi']
  · refine .write h _ { p.rows i with state := .ready } rfl ?_ ?_ (fun b => ?_) rfl
      (fun _ => hbound) rfl (fun _ _ _ => rfl) fun _ => rfl
    · rw [hq]
      simp [Row.queued]
    · rw [hf]
      simp [Row.inFlight]
      omega
    · simp [setState, setRow, Row.boundTo, hi']

theorem completeBegin_settles
    (hi : p.states i = .submitting ∨ p.states i = .submitted) (outcome : Outcome) :
    ∃ q report, p.completeBegin i outcome = (q, some report) ∧ Settles p q i .completing := by
  obtain ⟨hq, hf⟩ := inFlight_of_state hi
  have hpos := h.inFlight_pos hf
  have hused : p.states i ≠ .free := by
    rcases hi with hi | hi <;> rw [hi] <;> exact RowState.noConfusion
  obtain ⟨b, hb⟩ := Option.ne_none_iff_exists'.mp (h.bound i hused)
  have hused' : (p.rows i).state ≠ .free := hused
  simp only [completeBegin, hf, hb]
  refine ⟨_, _, rfl, ?_⟩
  refine .write h _ { p.rows i with state := .completing } ?_ ?_ ?_ (fun b' => ?_) ?_
    (fun _ => by simp [hb]) ?_ (fun _ _ _ => rfl) fun _ => ?_
  · cases outcome <;> rfl
  · rw [hq]
    cases outcome <;> rfl
  · rw [hf]
    simp [Row.inFlight]
    omega
  · cases outcome <;> simp [countOutcome, setState, setRow, Row.boundTo, hused']
  · cases outcome <;> rfl
  · cases outcome <;> rfl
  · cases outcome <;> rfl

theorem completeEnd_settles (hi : p.states i = .completing) :
    Settles p (p.completeEnd i) i .free := by
  have hi' : (p.rows i).state = .completing := hi
  rw [completeEnd, if_pos hi']
  refine reset_settles h rfl rfl rfl (by rw [hi]; exact RowState.noConfusion) ?_ ?_ rfl
  · simp [Row.queued, hi']
  · simp [Row.inFlight, hi']

theorem cancelAnswer_settles (request : ℕ) {status : CancelStatus}
    (hstatus : status.admitted = true) :
    Settles p (p.cancelAnswer i request status).1 i (p.states i) ∧
      (p.cancelAnswer i request status).2 = .idle := by
  have hsame : Settles p p i (p.states i) := .refl h
  cases status <;> simp only [CancelStatus.admitted, Bool.false_eq_true] at hstatus <;>
    simp only [cancelAnswer, and_true]
  · exact hsame
  · exact hsame
  all_goals
    split
    · exact .rewrite h rfl rfl
    · exact hsame

omit h

end Operations

end Processor

end TurboScxml.Chttp
