import TurboScxml.Chttp.EgressHolders

/-!
# The steps of the BasicHTTP egress table

* `Fades`, `Passes`: what a step does to the rows unless it reserves, commits, selects or submits
  one, or prepares a cancel; `Kind`: a step passes, or is one of these five;
* `Cleared`: a READY row belongs to a binding that accepts sends; `regular`: the worker does not put
  a row back for want of room whose binding was closed meanwhile;
* **`step_spec`**: a step keeps the table sound, a regular one keeps it cleared, and what it does to
  the rows is of one of the kinds.
-/

namespace TurboScxml.Chttp

open Function Slots Machine Processor

variable {n : ℕ} {β : Type}

inductive Fades : RowState → RowState → Prop
  | same (state : RowState) : Fades state state
  | back : Fades .submitting .ready
  | fail : Fades .submitting .completing
  | done : Fades .submitted .completing

section Fades

variable {a b : RowState}

theorem Fades.reserved (h : Fades a b) : a = .reserved ↔ b = .reserved := by
  cases h <;> simp

theorem Fades.submitting (h : Fades a b) (hb : b = .submitting) : a = .submitting := by
  subst hb
  cases h
  rfl

theorem Fades.ready (h : Fades a b) (hb : b = .ready) : a = .ready ∨ a = .submitting := by
  subst hb
  cases h with
  | same => exact .inl rfl
  | back => exact .inr rfl

end Fades

/-- No row is reserved, committed, selected or submitted. -/
structure Passes (s s' : System n β) : Prop where
  rows : ∀ i, s'.processor.states i ≠ .free → s.processor.states i ≠ .free ∧
    (s'.processor.rows i).core = (s.processor.rows i).core ∧
      Fades (s.processor.states i) (s'.processor.states i)
  clocks : s'.processor.clocks = s.processor.clocks
  cancels : ∀ k ∈ s'.cancels, k ∈ s.cancels ∧
    (s'.processor.cancelTickets k).target = (s.processor.cancelTickets k).target ∧
      (s'.processor.cancelTickets k).targetGeneration =
        (s.processor.cancelTickets k).targetGeneration
  closed : ∀ b, (s.processor.bindings b).isOpen = false →
    (s'.processor.bindings b).isOpen = false

def Action.plain [DecidableEq β] (s s' : System n β) : Action n β → Prop
  | .prepareSend b sendId delayMs => ∃ e, (s.processor.prepareSend b sendId delayMs).2 = .error e
  | .commit _ i => s'.processor.states i ≠ .ready
  | .prepareCancel b sendId => ∀ k, (s.processor.prepareCancel b sendId).2 ≠ .ok (some k)
  | .submitAnswer status => ∀ request, status ≠ .ok request
  | _ => True

inductive Kind [DecidableEq β] (s s' : System n β) : Action n β → Prop
  | quiet {a : Action n β} (hplain : a.plain s s') (h : Passes s s') : Kind s s' a
  | reserve (b : β) (sendId : Text) (delayMs : ℕ) (i : Fin n) (hi : s.processor.states i = .free)
      (hresult : (s.processor.prepareSend b sendId delayMs).2 = .ok i)
      (hs' : s' = { s with
        processor := s.processor.reserveRow i b sendId delayMs
        preparing := s.preparing ++ [i] }) : Kind s s' (.prepareSend b sendId delayMs)
  | commit (now : ℕ) (i : Fin n) (b : β) (hi : s.processor.states i = .reserved)
      (hb : (s.processor.rows i).binding = some b)
      (hset : Settles s.processor s'.processor i .ready)
      (hrow : s'.processor.rows i = committedRow (s.processor.clocks b) now (s.processor.rows i))
      (hclocks : s'.processor.clocks = update s.processor.clocks b
        (nextSequence (s.processor.clocks b)))
      (hcancels : s'.cancels = s.cancels) (hworker : s'.worker = s.worker) :
      Kind s s' (.commit now i)
  | prepareCancel (b : β) (sendId : Text) (i k : Fin n)
      (hi : (Fin.find? fun i => isTarget b sendId (s.processor.rows i)) = some i)
      (hk : k ∉ s.cancels) (hresult : (s.processor.prepareCancel b sendId).2 = .ok (some k))
      (hs' : s' = { s with
        processor := { s.processor with
          cancelTickets := update s.processor.cancelTickets k
            ⟨some i, (s.processor.rows i).generation, true⟩ }
        cancels := s.cancels ++ [k] }) : Kind s s' (.prepareCancel b sendId)
  | select (now : ℕ) (i : Fin n) (hi : s.processor.states i = .ready)
      (hactive : s.processor.rowActive i = true)
      (hdue : (s.processor.rows i).dueMs ≤ now) (hfirst : s.processor.earlierRowBlocks i = false)
      (hset : Settles s.processor s'.processor i .submitting) (hworker : s'.worker = .submitting i)
      (hcancels : s'.cancels = s.cancels) : Kind s s' (.submitSelect now)
  | submit (request : ℕ) (i : Fin n) (hi : s.processor.states i = .submitting)
      (hworker : s.worker = .submitting i)
      (hset : Settles s.processor s'.processor i .submitted) (hidle : s'.worker = .idle)
      (hcancels : s'.cancels = s.cancels) : Kind s s' (.submitAnswer (.ok request))

def Processor.Cleared (p : Processor n β) : Prop := ∀ i, p.states i = .ready → p.rowOpen i = true

def regular (s : System n β) : Action n β → Bool
  | .submitAnswer .enobufs =>
    match s.worker with
    | .submitting i => s.processor.rowOpen i
    | _ => true
  | _ => true

theorem System.polling_iff {s : System n β} :
    s.polling = true ↔ s.callback = none ∧ s.worker.polls = true := by
  unfold System.polling Worker.polls
  cases s.worker <;> simp

section Step

variable [DecidableEq β] {p p' : Processor n β} {s s' : System n β} {i : Fin n}

omit [DecidableEq β] in
theorem rowOpen_congr (hbinding : (p'.rows i).binding = (p.rows i).binding)
    (hframe : p'.frame = p.frame) : p'.rowOpen i = p.rowOpen i := by
  unfold rowOpen
  rw [hbinding]
  cases (p.rows i).binding with
  | none => rfl
  | some b => exact isOpen_of_frame hframe b

theorem Processor.Cleared.settles (h : p.Cleared) {state : RowState}
    (hset : Settles p p' i state) (hi : state = .ready → p'.rowOpen i = true) : p'.Cleared := by
  intro j hj
  rw [hset.states] at hj
  by_cases hji : j = i
  · subst hji
    exact hi (by simpa using hj)
  · rw [update_of_ne hji] at hj
    rw [rowOpen_congr (congrArg Row.binding (hset.others j hji)) hset.frame]
    exact h j hj

theorem Processor.Cleared.stay (h : p.Cleared) (hset : Settles p p' i (p.states i)) :
    p'.Cleared := by
  refine h.settles hset fun hready => ?_
  have hused : p.states i ≠ .free := by rw [hready]; exact RowState.noConfusion
  have hcore := hset.core hused (.inl (by rw [hready]; exact RowState.noConfusion)) hused
  rw [rowOpen_congr (congrArg Prod.fst hcore) hset.frame]
  exact h i hready

omit [DecidableEq β] in
theorem Processor.Cleared.same (h : p.Cleared) (hrows : p'.rows = p.rows)
    (hopen : ∀ b, (p'.bindings b).isOpen = (p.bindings b).isOpen) : p'.Cleared := by
  intro i hi
  have hold := h i (by rwa [states, hrows] at hi)
  unfold rowOpen at hold ⊢
  rw [hrows]
  cases hb : (p.rows i).binding with
  | none => simp [hb] at hold
  | some b => exact (hopen b).trans (by simpa [hb] using hold)

theorem cancelRow_cleared (h : p.Cleared) (hcounted : Counted p) (i : Fin n) :
    (p.cancelRow i).Cleared := by
  have hset := cancelRow_settles hcounted i
  by_cases hready : p.states i = .ready
  · rw [if_pos hready] at hset
    exact h.settles hset fun hc => by cases hc
  · rw [if_neg hready] at hset
    exact h.stay hset

theorem compositeClose_cleared (h : p.Cleared) (hcounted : Counted p) (b : β) :
    (p.compositeClose b).Cleared := by
  rcases compositeClose_cases hcounted b with ⟨-, heq⟩ | ⟨q, -, hrows, -, -, -, hother, hswept⟩
  · rw [heq]
    exact h
  intro i hi
  rw [hswept.states i] at hi
  split at hi
  · cases hi
  · rename_i hnot
    have hold : p.states i = .ready := by rwa [states, hrows] at hi
    have hbinding : ((p.compositeClose b).rows i).binding = (p.rows i).binding := by
      have hused : (p.compositeClose b).states i ≠ .free := by
        rw [hswept.states i, if_neg hnot, hi]
        exact RowState.noConfusion
      have hcore := hswept.core i hused
      rw [hrows] at hcore
      exact congrArg Prod.fst hcore
    have hopen := h i hold
    rw [hrows] at hnot
    unfold rowOpen at hopen ⊢
    rw [hbinding]
    cases hb : (p.rows i).binding with
    | none => simp [hb] at hopen
    | some b' =>
      have hne : b' ≠ b := by
        rintro rfl
        exact hnot ⟨hb, hi⟩
      have hsame := isOpen_of_frame hswept.frame b'
      rw [hother b' hne] at hsame
      simp only [hsame]
      simpa [hb] using hopen

theorem Passes.settles {state : RowState} (hset : Settles s.processor s'.processor i state)
    (hmoves : state = .free ∨ Fades (s.processor.states i) state ∧ s.processor.states i ≠ .free)
    (hclocks : s.processor.states i ≠ .reserved ∨ state ≠ .ready)
    (hcancels : ∀ k ∈ s'.cancels, k ∈ s.cancels) : Passes s s' := by
  refine ⟨fun j hj => ?_, hset.clocks hclocks, fun k hk => ⟨hcancels k hk, ?_, ?_⟩,
    fun b => (isOpen_of_frame hset.frame b).trans⟩
  · rw [hset.states] at hj ⊢
    by_cases hji : j = i
    · subst hji
      rw [update_self] at hj ⊢
      rcases hmoves with hfree | ⟨hfades, hused⟩
      · exact absurd hfree hj
      · refine ⟨hused, hset.core hused ?_ hj, hfades⟩
        by_cases hres : s.processor.states j = .reserved
        · rw [hres] at hfades
          cases hfades
          exact .inr rfl
        · exact .inl hres
    · rw [update_of_ne hji] at hj ⊢
      exact ⟨hj, by rw [hset.others j hji], .same _⟩
  · rw [tickets_of_frame hset.frame]
  · rw [tickets_of_frame hset.frame]

omit [DecidableEq β] in
theorem Passes.same (hrows : s'.processor.rows = s.processor.rows)
    (hclocks : s'.processor.clocks = s.processor.clocks)
    (hcancels : ∀ k ∈ s'.cancels, k ∈ s.cancels)
    (htickets : ∀ k, (s'.processor.cancelTickets k).target = (s.processor.cancelTickets k).target ∧
      (s'.processor.cancelTickets k).targetGeneration =
        (s.processor.cancelTickets k).targetGeneration)
    (hopen : ∀ b, (s'.processor.bindings b).isOpen = (s.processor.bindings b).isOpen) :
    Passes s s' := by
  refine ⟨fun i hi => ?_, hclocks, fun k hk => ⟨hcancels k hk, htickets k⟩,
    fun b hclosed => (hopen b).trans hclosed⟩
  rw [states, hrows] at hi
  rw [hrows]
  exact ⟨hi, rfl, by rw [states, states, hrows]; exact .same _⟩

omit [DecidableEq β] in
theorem releaseCancel_tickets (p : Processor n β) (k l : Fin n) :
    ((p.releaseCancel k).cancelTickets l).target = (p.cancelTickets l).target ∧
      ((p.releaseCancel k).cancelTickets l).targetGeneration =
        (p.cancelTickets l).targetGeneration := by
  simp only [releaseCancel]
  by_cases hl : l = k
  · subst hl
    simp
  · simp [hl]

omit [DecidableEq β] in
theorem cancelRow_fades (p : Processor n β) (i : Fin n) :
    (if p.states i = .ready then RowState.free else p.states i) = .free ∨
      Fades (p.states i) (if p.states i = .ready then RowState.free else p.states i) ∧
        p.states i ≠ .free := by
  by_cases hready : p.states i = .ready
  · exact .inl (if_pos hready)
  · rw [if_neg hready]
    by_cases hfree : p.states i = .free
    · exact .inl hfree
    · exact .inr ⟨.same _, hfree⟩

variable {b : β}

theorem rebind_clocks {p : Processor n β} {binding : Binding}
    (h : binding.nextCommitSequence = (p.bindings b).nextCommitSequence) :
    ({ p with bindings := update p.bindings b binding } : Processor n β).clocks = p.clocks := by
  funext b'
  show ((update p.bindings b binding) b').nextCommitSequence = _
  by_cases hb : b' = b
  · rw [hb, update_self, h]
    rfl
  · rw [update_of_ne hb]
    rfl

theorem rebind_open {p : Processor n β} {binding : Binding}
    (h : binding.isOpen = (p.bindings b).isOpen) (b' : β) :
    ((update p.bindings b binding) b').isOpen = (p.bindings b').isOpen := by
  by_cases hb : b' = b
  · rw [hb, update_self, h]
  · rw [update_of_ne hb]

/-- What a step keeps, and what it does to the rows. -/
structure StepSpec (s s' : System n β) (a : Action n β) : Prop where
  sound : Sound s'
  cleared : s.processor.Cleared → regular s a = true → s'.processor.Cleared
  kind : Kind s s' a

section Specs

variable {a : Action n β}

/-- One row is written, and not as READY. -/
theorem StepSpec.settles (hsound : Sound s') (hplain : a.plain s s') {state : RowState}
    (hset : Settles s.processor s'.processor i state)
    (hmoves : state = .free ∨ Fades (s.processor.states i) state ∧ s.processor.states i ≠ .free)
    (hready : state ≠ .ready) (hcancels : s'.cancels = s.cancels) : StepSpec s s' a :=
  ⟨hsound, fun hc _ => hc.settles hset fun hr => absurd hr hready,
    .quiet hplain (.settles hset hmoves (.inr hready) fun _ hk => hcancels ▸ hk)⟩

theorem StepSpec.same (hsound : Sound s') (hplain : a.plain s s')
    (hrows : s'.processor.rows = s.processor.rows)
    (hclocks : s'.processor.clocks = s.processor.clocks)
    (hcancels : ∀ k ∈ s'.cancels, k ∈ s.cancels)
    (htickets : ∀ k, (s'.processor.cancelTickets k).target = (s.processor.cancelTickets k).target ∧
      (s'.processor.cancelTickets k).targetGeneration =
        (s.processor.cancelTickets k).targetGeneration)
    (hopen : ∀ b, (s'.processor.bindings b).isOpen = (s.processor.bindings b).isOpen) :
    StepSpec s s' a :=
  ⟨hsound, fun hc _ => hc.same hrows hopen,
    .quiet hplain (.same hrows hclocks hcancels htickets hopen)⟩

theorem StepSpec.unchanged (hsound : Sound s') (hplain : a.plain s s')
    (hprocessor : s'.processor = s.processor) (hcancels : s'.cancels = s.cancels) :
    StepSpec s s' a := by
  refine .same hsound hplain ?_ ?_ (fun k hk => hcancels ▸ hk) ?_ ?_ <;> rw [hprocessor]
  · exact fun _ => ⟨rfl, rfl⟩
  · exact fun _ => rfl

end Specs

variable (h : Sound s)
include h

/-- A prepared send becomes a ticket, or its row is freed. -/
theorem Sound.finishSend (hstep : s.step (.finishSend i) = some s') :
    StepSpec s s' (.finishSend i) := by
  simp only [System.step] at hstep
  split at hstep
  · rename_i b hb
    split at hstep
    · rename_i hi
      rcases finishSend_cases h.counted (h.reserved (List.mem_append_left _ hi)) b with
        ⟨hset, hfalse⟩ | heq
      · cases hr : s.processor.finishSend i b with
        | mk p given =>
          rw [hr] at hset hfalse
          obtain rfl : given = false := hfalse
          simp only [hr, Option.some.injEq] at hstep
          cases hstep
          exact .settles (h.unprepare hi hset) trivial hset (.inl rfl) RowState.noConfusion rfl
      · simp only [heq, Option.some.injEq] at hstep
        cases hstep
        exact .same (ticket_sound h hi) trivial rfl rfl (fun _ => id) (fun _ => ⟨rfl, rfl⟩)
          fun _ => rfl
    · cases hstep
  · cases hstep

/-- A ticket is committed, or its row is freed. -/
theorem Sound.commit {now : ℕ} (hstep : s.step (.commit now i) = some s') :
    StepSpec s s' (.commit now i) := by
  simp only [System.step] at hstep
  split at hstep
  · rename_i hi
    cases hstep
    have hreserved := h.reserved (List.mem_append_right _ hi)
    obtain ⟨b, hb, hset | ⟨hopen, hset, hrow, hclocks⟩⟩ :=
      egressCommit_settles h.counted hreserved now
    · refine .settles (h.unticket hi hset (.inl rfl)) ?_ hset (.inl rfl) RowState.noConfusion rfl
      show (s.processor.egressCommit i now).states i ≠ .ready
      rw [hset.states, update_self]
      exact RowState.noConfusion
    · refine ⟨h.unticket hi hset (.inr rfl), fun hc _ => hc.settles hset fun _ => ?_,
        .commit now i b hreserved hb hset hrow hclocks rfl rfl⟩
      have hbinding : ((s.processor.egressCommit i now).rows i).binding = some b := by
        rw [hrow]
        exact hb
      unfold rowOpen
      rw [hbinding]
      exact (isOpen_of_frame hset.frame b).trans hopen
  · cases hstep

/-- A cancel takes a ticket if there is a row to cancel. -/
theorem Sound.prepareCancel {sendId : Text} (hstep : s.step (.prepareCancel b sendId) = some s') :
    StepSpec s s' (.prepareCancel b sendId) := by
  rcases prepareCancel_cases s.processor b sendId with ⟨e, heq⟩ | heq | ⟨i, k, hi, hk, heq⟩ <;>
    simp only [System.step, heq, Option.some.injEq] at hstep
  · cases hstep
    exact .unchanged h (fun k hk => by rw [heq] at hk; cases hk) rfl rfl
  · cases hstep
    exact .unchanged h (fun k hk => by rw [heq] at hk; cases hk) rfl rfl
  · have hkind : Kind s s' (.prepareCancel b sendId) := by
      refine .prepareCancel b sendId i k hi (fun hc => ?_) (by rw [heq]) hstep.symm
      rw [(h.cancels k).mp hc] at hk
      cases hk
    cases hstep
    exact ⟨cancelTicket_sound h hk _, fun hc _ => hc.same rfl fun _ => rfl, hkind⟩

/-- A cancel frees its ticket, and the row if it is ready. -/
theorem Sound.cancelCommit {k : Fin n} (hstep : s.step (.cancelCommit k) = some s') :
    StepSpec s s' (.cancelCommit k) := by
  simp only [System.step] at hstep
  split at hstep
  · rename_i hk
    cases hstep
    have hrelease := releaseCancel_sound h hk
    have hreleased := releaseCancel_tickets s.processor k
    obtain ⟨i, -, heq⟩ := cancelCommit_eq h hk
    refine ⟨cancelCommit_sound h hk, fun hc _ => ?_, .quiet trivial ?_⟩
    · have hcleared : (s.processor.releaseCancel k).Cleared := hc.same rfl fun _ => rfl
      show (s.processor.cancelCommit k).Cleared
      rw [heq]
      split
      · exact cancelRow_cleared hcleared hrelease.counted i
      · exact hcleared
    rw [heq]
    split
    · have hset := cancelRow_settles hrelease.counted i
      have hpass : Passes { s with processor := s.processor.releaseCancel k }
          { s with
            processor := (s.processor.releaseCancel k).cancelRow i
            cancels := s.cancels.erase k } := by
        refine .settles hset (cancelRow_fades _ i) ?_ fun l => List.mem_of_mem_erase
        by_cases hready : (s.processor.releaseCancel k).states i = .ready
        · exact .inl (by rw [hready]; exact RowState.noConfusion)
        · exact .inr (by rwa [if_neg hready])
      exact ⟨hpass.rows, hpass.clocks, fun l hl => ⟨List.mem_of_mem_erase hl,
        (hpass.cancels l hl).2.1.trans (hreleased l).1,
        (hpass.cancels l hl).2.2.trans (hreleased l).2⟩, hpass.closed⟩
    · exact .same rfl rfl (fun l => List.mem_of_mem_erase) hreleased fun _ => rfl
  · cases hstep

theorem Sound.activate (hstep : s.step (.activate b) = some s') : StepSpec s s' (.activate b) := by
  cases hstep
  have hsound := activate_sound h b
  revert hsound
  unfold Processor.activate
  split
  · rename_i hreserved
    refine fun hsound => .same hsound trivial rfl (rebind_clocks rfl) (fun _ => id)
      (fun _ => ⟨rfl, rfl⟩) (rebind_open ?_)
    rw [Binding.isOpen, Binding.isOpen, hreserved.1]
    rfl
  · exact fun hsound => .unchanged hsound trivial rfl rfl

/-- A close frees the ready rows of its binding. -/
theorem Sound.close (hstep : s.step (.close b) = some s') : StepSpec s s' (.close b) := by
  cases hstep
  refine ⟨compositeClose_sound h b, fun hc _ => compositeClose_cleared hc h.counted b,
    .quiet trivial ?_⟩
  rcases compositeClose_cases h.counted b with
    ⟨-, heq⟩ | ⟨q, hopen, hrows, htickets, hclocks, hclosing, hothers, hswept⟩
  · rw [heq]
    exact .same rfl rfl (fun _ => id) (fun _ => ⟨rfl, rfl⟩) fun _ => rfl
  · have hsame : ∀ j, q.states j = s.processor.states j := fun j => by
      rw [states, hrows]
      rfl
    refine ⟨fun j hj => ?_, hswept.clocks.trans hclocks, fun k hk => ⟨hk, ?_, ?_⟩,
      fun b' hclosed => (isOpen_of_frame hswept.frame b').trans ?_⟩
    · have hj' : (s.processor.compositeClose b).states j ≠ .free := hj
      have hcore := hswept.core j hj'
      have hstate := hswept.states j
      rw [hrows] at hcore
      split at hstate
      · exact absurd hstate hj'
      · rw [hsame] at hstate
        refine ⟨by rw [← hstate]; exact hj', hcore, ?_⟩
        show Fades _ ((s.processor.compositeClose b).states j)
        rw [hstate]
        exact .same _
    · show ((s.processor.compositeClose b).cancelTickets k).target = _
      rw [tickets_of_frame hswept.frame, htickets]
    · show ((s.processor.compositeClose b).cancelTickets k).targetGeneration = _
      rw [tickets_of_frame hswept.frame, htickets]
    · have hb : b' ≠ b := by
        rintro rfl
        rw [hopen] at hclosed
        cases hclosed
      rwa [hothers b' hb]

theorem Sound.isQuiescent {downstream : Bool} {callbacks : ℕ}
    (hstep : s.step (.isQuiescent b downstream callbacks) = some s') :
    StepSpec s s' (.isQuiescent b downstream callbacks) := by
  cases hstep
  have hsound := compositeIsQuiescent_sound h b downstream callbacks
  revert hsound
  unfold Processor.compositeIsQuiescent
  split
  · exact fun hsound => .unchanged hsound trivial rfl rfl
  · rename_i hclosing
    split
    · refine fun hsound => .same hsound trivial rfl (rebind_clocks rfl) (fun _ => id)
        (fun _ => ⟨rfl, rfl⟩) (rebind_open ?_)
      rw [Binding.isOpen, Binding.isOpen, hclosing]
      rfl
    · exact fun hsound => .unchanged hsound trivial rfl rfl
  · exact fun hsound => .unchanged hsound trivial rfl rfl

theorem Sound.cancelSelect (hstep : s.step .cancelSelect = some s') :
    StepSpec s s' .cancelSelect := by
  simp only [System.step] at hstep
  split at hstep
  · rename_i hidle
    cases hstep
    rcases cancelSelect_cases h.counted with heq | ⟨i, request, hi, hset, hw⟩
    · rw [heq]
      exact .unchanged (h.polling (by rw [hidle.1]; rfl) h.counted rfl rfl rfl) trivial rfl rfl
    · have hnot : s.processor.states i ≠ .ready := by rw [hi]; exact RowState.noConfusion
      exact .settles (h.polling (by rw [hidle.1]; rfl) hset.counted
        (hset.states.trans update_states_self) hset.frame (by rw [hw]; rfl)) trivial hset
        (.inr ⟨.same _, by rw [hi]; exact RowState.noConfusion⟩) hnot rfl
  · cases hstep

theorem Sound.cancelAnswer {status : CancelStatus}
    (hstep : s.step (.cancelAnswer status) = some s') : StepSpec s s' (.cancelAnswer status) := by
  simp only [System.step] at hstep
  split at hstep
  · rename_i i request hw
    split at hstep
    · rename_i hguard
      cases hstep
      obtain ⟨hset, hidle⟩ := cancelAnswer_settles (i := i) h.counted request
        (Bool.and_eq_true_iff.mp hguard).1
      refine ⟨h.polling (by rw [hw]; rfl) hset.counted (hset.states.trans update_states_self)
        hset.frame (by rw [hidle]; rfl), fun hc _ => hc.stay hset,
        .quiet trivial (.settles hset ?_ ?_ fun _ => id)⟩
      · by_cases hfree : s.processor.states i = .free
        · exact .inl hfree
        · exact .inr ⟨.same _, hfree⟩
      · by_cases hready : s.processor.states i = .ready
        · exact .inl (by rw [hready]; exact RowState.noConfusion)
        · exact .inr hready
    · cases hstep
  · cases hstep

/-- The worker selects the next row that is due. -/
theorem Sound.submitSelect {now : ℕ} (hstep : s.step (.submitSelect now) = some s') :
    StepSpec s s' (.submitSelect now) := by
  simp only [System.step] at hstep
  split at hstep
  · rename_i hidle
    cases hstep
    unfold Processor.submitSelect
    split
    · exact .unchanged (h.polling (by rw [hidle.1]; rfl) h.counted rfl rfl rfl) trivial rfl rfl
    · rename_i i hi
      have hel := bestSlot_eligible hi
      simp only [selectable, Bool.and_eq_true, beq_iff_eq, decide_eq_true_eq,
        Bool.not_eq_true'] at hel
      have hready : s.processor.states i = .ready := hel.1.1.1
      have hset := submitSelect_settles h.counted hready
      refine ⟨?_, fun hc _ => hc.settles hset (fun hr => by cases hr),
        .select now i hready hel.1.1.2 hel.1.2 hel.2 hset rfl rfl⟩
      exact h.work _ hset hidle.2 (.inl ⟨hidle.1, hready⟩)
        (fun j => by simp [Worker.submits, eq_comm]) (fun j => by simp)
        (.inl ⟨rfl, RowState.noConfusion⟩) RowState.noConfusion
  · cases hstep

/-- The client takes the row, or gives it back. -/
theorem Sound.submitAnswer {status : SubmitStatus}
    (hstep : s.step (.submitAnswer status) = some s') : StepSpec s s' (.submitAnswer status) := by
  simp only [System.step] at hstep
  split at hstep
  · rename_i i hw
    have hi := h.submitting (i := i) (by rw [hw]; rfl)
    have hnot : s.processor.states i ≠ .reserved := by rw [hi]; exact RowState.noConfusion
    have hused : s.processor.states i ≠ .free := by rw [hi]; exact RowState.noConfusion
    have hcallback := h.callback_none (by rw [hw]; rfl)
    obtain ⟨hok, henobufs, hother⟩ := submitAnswer_settles h.counted hi
    split at hstep
    · rename_i request
      split at hstep
      · cases hstep
        obtain ⟨hset, hidle⟩ := hok request
        refine ⟨?_, fun hc _ => hc.settles hset (fun hr => by cases hr),
          .submit request i hi hw hset hidle rfl⟩
        exact h.work (s.processor.submitAnswer i (.ok request)).2 hset hcallback
          (.inr (.inl (by rw [hw]; rfl))) (fun j => by rw [hidle]; simp [Worker.submits])
          (fun j => by rw [hidle]; simp) (.inr ⟨rfl, request, rfl⟩) RowState.noConfusion
      · cases hstep
    · rename_i hnotok
      cases hstep
      cases status with
      | ok request => exact absurd rfl (hnotok request)
      | enobufs =>
        obtain ⟨hset, hidle⟩ := henobufs
        refine ⟨?_, fun hc hr => hc.settles hset fun _ => ?_,
          .quiet (fun _ => SubmitStatus.noConfusion)
          (.settles hset (.inr ⟨hi ▸ .back, hused⟩) (.inl hnot) fun _ => id)⟩
        · exact h.work (s.processor.submitAnswer i .enobufs).2 hset hcallback
            (.inr (.inl (by rw [hw]; rfl))) (fun j => by rw [hidle]; simp [Worker.submits])
            (fun j => by rw [hidle]; simp) (.inl ⟨rfl, RowState.noConfusion⟩)
            RowState.noConfusion
        · have hcore := hset.core hused (.inl hnot) RowState.noConfusion
          refine (rowOpen_congr (congrArg Prod.fst hcore) hset.frame).trans ?_
          simpa [regular, hw] using hr
      | other =>
        rw [hother]
        have hset : Settles s.processor s.processor i .submitting := hi ▸ .refl h.counted
        refine .unchanged ?_ (fun _ => SubmitStatus.noConfusion) rfl rfl
        exact h.work (.completing i .failed) hset hcallback
          (.inr (.inl (by rw [hw]; rfl))) (fun j => by simp [Worker.submits, eq_comm])
          (fun j => by simp) (.inl ⟨rfl, RowState.noConfusion⟩) RowState.noConfusion
  · cases hstep

/-- The worker completes the row that was refused. -/
theorem Sound.completeBegin (hstep : s.step .completeBegin = some s') :
    StepSpec s s' .completeBegin := by
  simp only [System.step] at hstep
  split at hstep
  · rename_i i outcome hw
    have hi := h.submitting (i := i) (by rw [hw]; rfl)
    obtain ⟨q, report, heq, hset⟩ := completeBegin_settles h.counted (.inl hi) outcome
    simp only [heq, Option.some.injEq] at hstep
    cases hstep
    refine .settles ?_ trivial hset (.inr ⟨hi ▸ .fail, by rw [hi]; exact RowState.noConfusion⟩)
      RowState.noConfusion rfl
    exact h.work (.reporting i) hset (h.callback_none (by rw [hw]; rfl))
      (.inr (.inl (by rw [hw]; rfl))) (fun j => by simp [Worker.submits])
      (fun j => by simp [eq_comm]) (.inl ⟨rfl, RowState.noConfusion⟩) RowState.noConfusion
  · cases hstep

/-- **One step.** -/
theorem step_spec {a : Action n β} (hstep : s.step a = some s') : StepSpec s s' a := by
  cases a with
  | prepareSend b sendId delayMs =>
    rcases prepareSend_cases s.processor b sendId delayMs with ⟨e, heq⟩ | ⟨i, hi, hopen, heq⟩
    · simp only [System.step, heq, Option.some.injEq] at hstep
      cases hstep
      exact .unchanged h ⟨e, by rw [heq]⟩ rfl rfl
    · simp only [System.step, heq, Option.some.injEq] at hstep
      have hset := reserveRow_settles h.counted hi b sendId delayMs
      cases hstep
      exact ⟨reserve_sound h hi b sendId delayMs,
        fun hc _ => hc.settles hset (fun hr => by cases hr),
        .reserve b sendId delayMs i hi (by rw [heq]) rfl⟩
  | abortReserved i =>
    simp only [System.step] at hstep
    split at hstep
    · rename_i hi
      cases hstep
      have hset := dropReserved_settles h.counted (h.reserved (List.mem_append_left _ hi))
      exact .settles (h.unprepare hi hset) trivial hset (.inl rfl) RowState.noConfusion rfl
    · cases hstep
  | finishSend i => exact h.finishSend hstep
  | commit now i => exact h.commit hstep
  | discard i =>
    simp only [System.step] at hstep
    split at hstep
    · rename_i hi
      cases hstep
      have hset := dropReserved_settles h.counted (h.reserved (List.mem_append_right _ hi))
      exact .settles (h.unticket hi hset (.inl rfl)) trivial hset (.inl rfl)
        RowState.noConfusion rfl
    · cases hstep
  | prepareCancel b sendId => exact h.prepareCancel hstep
  | cancelCommit k => exact h.cancelCommit hstep
  | cancelDiscard k =>
    simp only [System.step] at hstep
    split at hstep
    · rename_i hk
      cases hstep
      have heq : s.processor.cancelDiscard k = s.processor.releaseCancel k :=
        if_pos ((h.cancels k).mp hk)
      rw [heq]
      exact .same (releaseCancel_sound h hk) trivial rfl rfl (fun l => List.mem_of_mem_erase)
        (releaseCancel_tickets s.processor k) fun _ => rfl
    · cases hstep
  | activate b => exact h.activate hstep
  | close b => exact h.close hstep
  | isQuiescent b downstream callbacks => exact h.isQuiescent hstep
  | cancelSelect => exact h.cancelSelect hstep
  | cancelAnswer status => exact h.cancelAnswer hstep
  | submitSelect now => exact h.submitSelect hstep
  | submitAnswer status => exact h.submitAnswer hstep
  | completeBegin => exact h.completeBegin hstep
  | completeEnd =>
    simp only [System.step] at hstep
    split at hstep
    · rename_i i hw
      cases hstep
      have hset := completeEnd_settles h.counted (h.completing (.inl hw))
      refine .settles ?_ trivial hset (.inl rfl) RowState.noConfusion rfl
      exact h.work .idle hset (h.callback_none (by rw [hw]; rfl)) (.inr (.inr hw))
        (fun j => by simp [Worker.submits]) (fun j => by simp)
        (.inl ⟨rfl, RowState.noConfusion⟩) RowState.noConfusion
    · cases hstep
  | requestComplete request i outcome =>
    simp only [System.step] at hstep
    split at hstep
    · rename_i hguard
      have hi := h.submitted hguard.2
      obtain ⟨hcallback, hpolls⟩ := System.polling_iff.mp hguard.1
      obtain ⟨q, report, heq, hset⟩ := completeBegin_settles h.counted (.inr hi) outcome
      simp only [heq, Option.some.injEq] at hstep
      cases hstep
      exact .settles (requestComplete_sound h hpolls hcallback hguard.2 hset) trivial hset
        (.inr ⟨hi ▸ .done, by rw [hi]; exact RowState.noConfusion⟩) RowState.noConfusion rfl
    · cases hstep
  | requestCompleted =>
    simp only [System.step] at hstep
    split at hstep
    · rename_i i hi
      cases hstep
      have hset := completeEnd_settles h.counted (h.completing (.inr hi))
      exact .settles (requestCompleted_sound h hi hset) trivial hset (.inl rfl)
        RowState.noConfusion rfl
    · cases hstep

end Step

end TurboScxml.Chttp
