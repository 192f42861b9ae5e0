import TurboScxml.Cnet.Egress

/-!
# What the sections of the CNet egress adapter keep

* `states`, `face`, `Counted`: the states of the rows, the flags, and `pending` as the number of
  rows in use; `Dropped`, what a cancelling loop leaves;
* `Sound`: RESERVED rows are the outstanding tickets, the SUBMITTING row is the one in the hands of
  the pump, a closed adapter has no READY row and only a bound one has SUBMITTED rows;
* `Cleared`: a terminal connection has neither READY nor SUBMITTED rows.
-/

namespace TurboScxml.Cnet

open Function Slots Machine

namespace Egress

variable {cfg : Config}

def states (e : Egress cfg) (i : Fin cfg.capacity) : RowState := (e.rows i).state

/-- The flags that decide about the release of rows. -/
def face (e : Egress cfg) : Bool × Bool × Bool × Bool := (e.bound, e.terminal, e.closed, e.pumping)

def Counted (e : Egress cfg) : Prop := e.pending = tally Row.used e.rows

variable {p : RowState → Bool} {state : RowState}

section Operations

variable {e : Egress cfg} {i : Fin cfg.capacity}

@[simp] theorem states_setRow (row : Row) :
    (e.setRow i row).states = update e.states i row.state := by
  funext j
  by_cases hj : j = i
  · subst hj
    simp [states, setRow]
  · simp [states, setRow, hj]

@[simp] theorem states_setState (state : RowState) :
    (e.setState i state).states = update e.states i state :=
  states_setRow _

theorem used_iff {row : Row} : row.used = true ↔ row.state ≠ .free := by simp [Row.used]

variable (h : Counted e)
include h

theorem Counted.setRow {row : Row} (hold : e.states i ≠ .free)
    (hnew : row.state ≠ .free) : Counted (e.setRow i row) := by
  have hwrite := tally_update Row.used e.rows i row
  rw [used_iff.mpr hold, used_iff.mpr hnew] at hwrite
  unfold Counted at *
  simp only [Egress.setRow]
  omega

theorem Counted.setState (state : RowState) (hold : e.states i ≠ .free)
    (hnew : state ≠ .free) : Counted (e.setState i state) :=
  h.setRow hold hnew

theorem Counted.pending_pos (hi : e.states i ≠ .free) : 0 < e.pending := by
  rw [h]
  exact tally_pos (used_iff.mpr hi)

/-- **Releasing a row in use.** -/
theorem releaseRow_eq (hi : e.states i ≠ .free) :
    e.releaseRow i = { e.setRow i .free with pending := e.pending - 1 } := by
  have hpos := h.pending_pos hi
  exact if_neg (not_or.mpr ⟨hi, hpos.ne'⟩)

theorem states_releaseRow (hi : e.states i ≠ .free) :
    (e.releaseRow i).states = update e.states i .free := by
  rw [releaseRow_eq h hi]
  exact states_setRow _

omit h

theorem face_releaseRow : (e.releaseRow i).face = e.face := by
  unfold releaseRow
  split <;> rfl

theorem Counted.releaseRow (h : Counted e) (hi : e.states i ≠ .free) :
    Counted (e.releaseRow i) := by
  have hwrite := tally_update Row.used e.rows i .free
  rw [used_iff.mpr hi] at hwrite
  rw [releaseRow_eq h hi]
  unfold Counted at *
  simp only [Egress.setRow, Row.used, Row.free] at *
  simp at hwrite
  omega

theorem states_cancelRow (h : Counted e) (hi : e.states i ≠ .free) :
    (e.cancelRow i).states = update e.states i .free :=
  states_releaseRow (e := { e with cancelled := e.cancelled + 1 }) h hi

theorem face_cancelRow : (e.cancelRow i).face = e.face :=
  face_releaseRow (e := { e with cancelled := e.cancelled + 1 })

theorem Counted.cancelRow (h : Counted e) (hi : e.states i ≠ .free) : Counted (e.cancelRow i) :=
  Counted.releaseRow (e := { e with cancelled := e.cancelled + 1 }) h hi

structure Dropped (p : RowState → Bool) (e e' : Egress cfg) : Prop where
  states : ∀ i, e'.states i = if p (e.states i) then .free else e.states i
  counted : Counted e'
  face : e'.face = e.face

theorem cancelRows_dropped (h : Counted e) (hfree : p .free = false) :
    Dropped p e (e.cancelRows p) := by
  have hloop := sweep_induction (n := cfg.capacity) (s := e)
    (f := fun e i => if p (e.rows i).state then e.cancelRow i else e)
    (fun k e' => (∀ i : Fin cfg.capacity,
      e'.states i = if (i : ℕ) < k ∧ p (e.states i) then .free else e.states i) ∧
      Counted e' ∧ e'.face = e.face)
    (by simp [h])
    fun i e' ih => by
      obtain ⟨hstates, hcounted, hface⟩ := ih
      have hi : e'.states i = e.states i := by simpa using hstates i
      have hsame : p (e'.rows i).state = p (e.states i) := congrArg p hi
      rw [hsame]
      split
      · rename_i hp
        have hused : e'.states i ≠ .free := by
          intro hc
          rw [← hi, hc, hfree] at hp
          cases hp
        refine ⟨fun j => ?_, hcounted.cancelRow hused, face_cancelRow.trans hface⟩
        rw [states_cancelRow hcounted hused]
        by_cases hj : j = i
        · subst hj
          simp [hp]
        · have hne : (j : ℕ) ≠ i := fun hc => hj (Fin.ext hc)
          have hlt : (j : ℕ) < i + 1 ↔ (j : ℕ) < i := by omega
          simp only [update_of_ne hj, hstates j, hlt]
      · rename_i hp
        refine ⟨fun j => ?_, hcounted, hface⟩
        rw [hstates j]
        by_cases hj : j = i
        · subst hj
          simp [hp]
        · have hne : (j : ℕ) ≠ i := fun hc => hj (Fin.ext hc)
          have hlt : (j : ℕ) < i + 1 ↔ (j : ℕ) < i := by omega
          simp only [hlt]
  obtain ⟨hstates, hcounted, hface⟩ := hloop
  exact ⟨fun i => (hstates i).trans (by simp [i.2]), hcounted, hface⟩

theorem setFailure_states (status : Status) : (e.setFailure status).states = e.states := by
  unfold setFailure
  split <;> rfl

theorem setFailure_face (status : Status) : (e.setFailure status).face = e.face := by
  unfold setFailure
  split <;> rfl

theorem Counted.setFailure (h : Counted e) (status : Status) : Counted (e.setFailure status) := by
  unfold Egress.setFailure
  split
  · exact h
  · exact h

theorem earliest_state (h : e.earliest state = some i) : e.states i = state := by
  simpa [states] using bestSlot_eligible h

end Operations

/-! ## The invariant of the adapter in use -/

structure Sound (s : System cfg) : Prop where
  counted : Counted s.egress
  nodup : s.tickets.Nodup
  reserved : ∀ i, i ∈ s.tickets ↔ s.egress.states i = .reserved
  submitting : ∀ i, s.pump.holds = some i ↔ s.egress.states i = .submitting
  pumping : s.egress.pumping = true ↔ s.pump ≠ .idle
  closed : s.egress.closed = true → ∀ i, s.egress.states i ≠ .ready
  bound : ∀ i, s.egress.states i = .submitted → s.egress.bound = true
  pumped : s.pump ≠ .idle → s.egress.bound = true

def Cleared (s : System cfg) : Prop :=
  s.egress.terminal = true → ∀ i, (s.egress.states i).terminated = false

theorem init_sound : Sound (System.init cfg) where
  counted := (tally_eq_zero fun _ => rfl).symm
  nodup := .nil
  reserved _ := by simp [System.init, init, states, Row.free]
  submitting _ := by simp [System.init, init, states, Row.free, PumpLane.holds]
  pumping := by simp [System.init, init]
  closed _ _ := by simp [System.init, init, states, Row.free]
  bound _ h := by simp [System.init, init, states, Row.free] at h
  pumped h := absurd rfl h

section Step

variable {s s' : System cfg} {i : Fin cfg.capacity}

theorem Sound.write (h : Sound s) (hstates : s'.egress.states = update s.egress.states i state)
    (hcounted : Counted s'.egress) (hface : s'.egress.face = s.egress.face)
    (hnodup : s'.tickets.Nodup)
    (htickets : ∀ j, j ∈ s'.tickets ↔ if j = i then state = .reserved else j ∈ s.tickets)
    (hholds : ∀ j, s'.pump.holds = some j ↔
      if j = i then state = .submitting else s.pump.holds = some j)
    (hidle : s'.pump = .idle ↔ s.pump = .idle) (hready : s.egress.closed = true → state ≠ .ready)
    (hbound : state = .submitted → s.egress.bound = true) : Sound s' := by
  simp only [face, Prod.mk.injEq] at hface
  obtain ⟨hfbound, -, hfclosed, hfpumping⟩ := hface
  refine ⟨hcounted, hnodup, fun j => ?_, fun j => ?_, ?_, fun hc j => ?_, fun j => ?_, fun hl => ?_⟩
  · rw [htickets j, hstates]
    by_cases hj : j = i
    · subst hj
      simp
    · simpa [hj] using h.reserved j
  · rw [hholds j, hstates]
    by_cases hj : j = i
    · subst hj
      simp
    · simpa [hj] using h.submitting j
  · rw [hfpumping, h.pumping]
    exact hidle.symm.not
  · rw [hstates]
    by_cases hj : j = i
    · subst hj
      simpa using hready (hfclosed ▸ hc)
    · simpa [hj] using h.closed (hfclosed ▸ hc) j
  · rw [hstates, hfbound]
    by_cases hj : j = i
    · subst hj
      simpa using hbound
    · simpa [hj] using h.bound j
  · rw [hfbound]
    exact h.pumped (hidle.not.mp hl)

theorem Sound.keep (h : Sound s) (hstates : s'.egress.states = s.egress.states)
    (hcounted : Counted s'.egress) (htickets : s'.tickets = s.tickets)
    (hholds : s'.pump.holds = s.pump.holds)
    (hpumping : s'.egress.pumping = true ↔ s'.pump ≠ .idle)
    (hclosed : s'.egress.closed = s.egress.closed)
    (hbound : s.egress.bound = true → s'.egress.bound = true)
    (hpumped : s'.pump ≠ .idle → s'.egress.bound = true) : Sound s' where
  counted := hcounted
  nodup := htickets ▸ h.nodup
  reserved i := by rw [htickets, hstates, h.reserved i]
  submitting i := by rw [hholds, hstates, h.submitting i]
  pumping := hpumping
  closed hc := by rw [hstates]; exact h.closed (hclosed ▸ hc)
  bound i hi := hbound (h.bound i (hstates ▸ hi))
  pumped := hpumped

variable {e : Egress cfg}

theorem Sound.count (h : Sound s) (hstates : e.states = s.egress.states)
    (hcounted : Counted e) (hface : e.face = s.egress.face) : Sound { s with egress := e } := by
  simp only [face, Prod.mk.injEq] at hface
  obtain ⟨hbound, -, hclosed, hpumping⟩ := hface
  exact h.keep hstates hcounted rfl rfl (hpumping ▸ h.pumping) hclosed (fun hb => hbound.trans hb)
    fun hl => hbound.trans (h.pumped hl)

theorem Sound.drop (h : Sound s) {flagged e : Egress cfg} (hdrop : Dropped p flagged e)
    (hreserved : p .reserved = false) (hsubmitting : p .submitting = false)
    (hsame : flagged.states = s.egress.states) (hbound : flagged.bound = s.egress.bound)
    (hpumping : flagged.pumping = s.egress.pumping)
    (hclosed : flagged.closed = true → s.egress.closed = true ∨ p .ready = true) :
    Sound { s with egress := e } := by
  obtain ⟨hstates, hcounted, hface⟩ := hdrop
  simp only [face, Prod.mk.injEq] at hface
  rw [hsame] at hstates
  have hb : e.bound = s.egress.bound := hface.1.trans hbound
  have hq : e.pumping = s.egress.pumping := hface.2.2.2.trans hpumping
  have hother : ∀ state : RowState, p state = false → state ≠ .free →
      ∀ i, e.states i = state ↔ s.egress.states i = state := by
    intro state hp hused i
    rw [hstates i]
    split
    · rename_i hi
      refine ⟨fun hc => absurd hc.symm hused, fun hc => ?_⟩
      rw [hc, hp] at hi
      cases hi
    · rfl
  refine ⟨hcounted, h.nodup, fun i => (h.reserved i).trans ?_, fun i => (h.submitting i).trans ?_,
    hq ▸ h.pumping, fun hc i => ?_, fun i hi => ?_, fun hl => hb.trans (h.pumped hl)⟩
  · exact (hother .reserved hreserved RowState.noConfusion i).symm
  · exact (hother .submitting hsubmitting RowState.noConfusion i).symm
  · show e.states i ≠ .ready
    rw [hstates i]
    split
    · exact RowState.noConfusion
    · rename_i hi
      intro hready
      rcases hclosed (hface.2.2.1 ▸ hc) with hc | hp
      · exact h.closed hc i hready
      · exact hi (hready ▸ hp)
  · have hi' : e.states i = .submitted := hi
    rw [hstates i] at hi'
    split at hi'
    · cases hi'
    · exact hb.trans (h.bound i hi')

theorem Cleared.write (h : Cleared s) (hstates : s'.egress.states = update s.egress.states i state)
    (hface : s'.egress.face = s.egress.face)
    (hstate : s.egress.terminal = true → state.terminated = false) : Cleared s' := by
  simp only [face, Prod.mk.injEq] at hface
  intro hterminal j
  rw [hface.2.1] at hterminal
  rw [hstates]
  by_cases hj : j = i
  · subst hj
    simpa using hstate hterminal
  · simpa [hj] using h hterminal j

theorem Cleared.keep (h : Cleared s) (hstates : s'.egress.states = s.egress.states)
    (hterminal : s'.egress.terminal = s.egress.terminal) : Cleared s' := by
  intro ht i
  rw [hstates]
  exact h (hterminal ▸ ht) i

theorem Cleared.drop (h : Cleared s) (hdrop : Dropped p s.egress e) :
    Cleared { s with egress := e } := by
  have hface := hdrop.face
  simp only [face, Prod.mk.injEq] at hface
  intro ht i
  show (e.states i).terminated = false
  rw [hdrop.states i]
  split
  · rfl
  · exact h (hface.2.1 ▸ ht) i

/-! ### Tickets -/

theorem Sound.states_of_mem (h : Sound s) (hi : i ∈ s.tickets) : s.egress.states i = .reserved :=
  (h.reserved i).mp hi

theorem mem_settled (h : Sound s) (i j : Fin cfg.capacity) :
    j ∈ s.tickets.erase i ↔ if j = i then False else j ∈ s.tickets := by
  rw [h.nodup.mem_erase_iff]
  split <;> simp_all

theorem Sound.settle (h : Sound s) (hi : i ∈ s.tickets)
    (hstates : e.states = update s.egress.states i state) (hcounted : Counted e)
    (hface : e.face = s.egress.face) (hnew : state = .ready ∨ state = .free)
    (hready : s.egress.closed = true → state ≠ .ready) : Sound (s.settle i e) := by
  have hreserved := h.states_of_mem hi
  refine h.write hstates hcounted hface (h.nodup.erase i) (fun j => ?_) (fun j => ?_) Iff.rfl
    hready ?_
  · rw [System.settle, mem_settled h]
    rcases hnew with rfl | rfl <;> simp
  · have hother := h.submitting i
    rw [hreserved] at hother
    show s.pump.holds = some j ↔ _
    split
    · rename_i hj
      rw [hj, hother]
      rcases hnew with rfl | rfl <;> simp
    · rfl
  · rcases hnew with rfl | rfl <;> exact fun hc => RowState.noConfusion hc

theorem commit_sound (h : Sound s) (hi : i ∈ s.tickets) :
    Sound (s.settle i (s.egress.ticketCommit i)) ∧
      (Cleared s → Cleared (s.settle i (s.egress.ticketCommit i))) := by
  have hreserved := h.states_of_mem hi
  have hused : s.egress.states i ≠ .free := by simp [hreserved]
  have hstate : (s.egress.rows i).state = .reserved := hreserved
  unfold ticketCommit
  rw [if_neg (by simp [hstate])]
  split
  · have hstates := states_cancelRow h.counted hused
    exact ⟨h.settle hi hstates (h.counted.cancelRow hused) face_cancelRow (.inr rfl)
      fun _ => RowState.noConfusion, fun hc => hc.write hstates face_cancelRow fun _ => rfl⟩
  · rename_i hopen
    simp only [Bool.or_eq_true, not_or, Bool.not_eq_true] at hopen
    have hstates := states_setRow (e := s.egress) (i := i)
      { s.egress.rows i with state := .ready, sequence := s.egress.nextSequence + 1 }
    refine ⟨h.settle hi hstates (h.counted.setRow hused RowState.noConfusion) rfl (.inl rfl) ?_,
      fun hc => hc.write hstates rfl fun ht => ?_⟩
    · intro hc
      rw [hopen.1] at hc
      cases hc
    · rw [hopen.2] at ht
      cases ht

theorem discard_sound (h : Sound s) (hi : i ∈ s.tickets) :
    Sound (s.settle i (s.egress.ticketDiscard i)) ∧
      (Cleared s → Cleared (s.settle i (s.egress.ticketDiscard i))) := by
  have hreserved := h.states_of_mem hi
  have hused : s.egress.states i ≠ .free := by simp [hreserved]
  have hstate : (s.egress.rows i).state = .reserved := hreserved
  unfold ticketDiscard
  rw [if_neg (by simp [hstate])]
  have hstates := states_releaseRow (e := { s.egress with discarded := s.egress.discarded + 1 })
    h.counted hused
  have hcounted := Counted.releaseRow (e := { s.egress with discarded := s.egress.discarded + 1 })
    h.counted hused
  have hface : ({ s.egress with discarded := s.egress.discarded + 1 }.releaseRow i).face
      = s.egress.face :=
    face_releaseRow
  exact ⟨h.settle hi hstates hcounted hface (.inr rfl) fun _ => RowState.noConfusion,
    fun hc => hc.write hstates hface fun _ => rfl⟩

theorem vacant_free (h : e.vacant = some i) : e.states i = .free := by
  have := Fin.find?_eq_some_iff.mp h
  simpa [states] using this.1

theorem prepareSend_cases (e : Egress cfg) (request : SendRequest) :
    (∃ refusal e', e.prepareSend request = (e', .error refusal) ∧ e'.states = e.states ∧
      e'.face = e.face ∧ (Counted e → Counted e')) ∨
    (∃ i bytes, e.prepareSend request = (e.reserveRow i bytes, .ok i) ∧ e.states i = .free ∧
      e.terminal = false) := by
  unfold prepareSend
  split
  · exact .inl ⟨_, _, rfl, rfl, rfl, id⟩
  · split
    · exact .inl ⟨_, _, rfl, rfl, rfl, id⟩
    · rename_i hopen
      simp only [Bool.or_eq_true, not_or, Bool.not_eq_true] at hopen
      split
      · exact .inl ⟨_, _, rfl, rfl, rfl, id⟩
      · split
        · exact .inl ⟨_, _, rfl, rfl, rfl, id⟩
        · exact .inr ⟨_, _, rfl, vacant_free ‹_›, hopen.1.2⟩

theorem Counted.reserveRow (h : Counted e) (hi : e.states i = .free)
    (bytes : Text) : Counted (e.reserveRow i bytes) := by
  have hwrite := tally_update Row.used e.rows i ⟨.reserved, 0, bytes⟩
  have hstate : (e.rows i).state = .free := hi
  have hold : (e.rows i).used = false := by simp [Row.used, hstate]
  rw [hold, used_iff.mpr RowState.noConfusion] at hwrite
  unfold Counted at *
  simp only [Egress.reserveRow, Egress.setRow]
  simp at hwrite
  omega

variable (h : Sound s)
include h

theorem reserve_sound {bytes : Text} (hi : s.egress.states i = .free)
    (hopen : s.egress.terminal = false) :
    Sound { s with egress := s.egress.reserveRow i bytes, tickets := s.tickets ++ [i] } ∧
      (Cleared s →
        Cleared { s with egress := s.egress.reserveRow i bytes, tickets := s.tickets ++ [i] }) := by
  have hstates : (s.egress.reserveRow i bytes).states = update s.egress.states i .reserved :=
    states_setRow _
  have hmem : i ∉ s.tickets := by
    rw [h.reserved i, hi]
    exact RowState.noConfusion
  constructor
  · refine h.write hstates (h.counted.reserveRow hi bytes) rfl ?_ (fun j => ?_) (fun j => ?_)
      Iff.rfl (fun _ => RowState.noConfusion) fun hc => RowState.noConfusion hc
    · refine List.nodup_append.mpr ⟨h.nodup, List.nodup_singleton i, fun a ha b hb => ?_⟩
      rintro rfl
      exact hmem (List.mem_singleton.mp hb ▸ ha)
    · by_cases hj : j = i <;> simp [hj]
    · have hother := h.submitting i
      rw [hi] at hother
      show s.pump.holds = some j ↔ _
      split
      · rename_i hj
        rw [hj, hother]
        simp
      · rfl
  · intro hc
    refine hc.write hstates rfl fun ht => ?_
    rw [hopen] at ht
    cases ht

/-! ### Callbacks, close and bind -/

theorem observeState_sound (connection : Connection) (state : ConnectionState) :
    Sound { s with egress := s.egress.observeState connection state } ∧
      (Cleared s → Cleared { s with egress := s.egress.observeState connection state }) := by
  have hflagged : ∀ flagged : Egress cfg, Counted flagged → flagged.states = s.egress.states →
      flagged.bound = s.egress.bound → flagged.pumping = s.egress.pumping →
      flagged.closed = s.egress.closed →
      Sound { s with egress := flagged.terminate } ∧
        Cleared { s with egress := flagged.terminate } := by
    intro flagged hcounted hsame hbound hpumping hclosed
    have hdrop := cancelRows_dropped hcounted (p := RowState.terminated) rfl
    refine ⟨h.drop hdrop rfl rfl hsame hbound hpumping fun hc => .inl (hclosed ▸ hc), fun _ i => ?_⟩
    show (flagged.terminate.states i).terminated = false
    rw [terminate, hdrop.states i]
    split
    · rfl
    · exact Bool.eq_false_of_not_eq_true ‹_›
  unfold observeState
  split
  · exact ⟨h.count rfl h.counted rfl, fun hc => hc.keep rfl rfl⟩
  · cases state with
    | connected => exact ⟨h.count rfl h.counted rfl, fun hc => hc.keep rfl rfl⟩
    | closing => exact ⟨h.count rfl h.counted rfl, fun hc => hc.keep rfl rfl⟩
    | other => exact ⟨h.count rfl h.counted rfl, fun hc => hc.keep rfl rfl⟩
    | closed =>
      have hend := hflagged { s.egress with connected := false, terminal := true } h.counted rfl rfl
        rfl rfl
      exact ⟨hend.1, fun _ => hend.2⟩
    | failed status =>
      dsimp only
      generalize hflag : ({ s.egress with connected := false, terminal := true } : Egress cfg)
        = flagged
      generalize failureStatus status = error
      have hface := setFailure_face (e := flagged) error
      simp only [face, Prod.mk.injEq] at hface
      have hend := hflagged (flagged.setFailure error)
        (Counted.setFailure (by subst hflag; exact h.counted) error)
        ((setFailure_states error).trans (by subst hflag; rfl))
        (hface.1.trans (by subst hflag; rfl)) (hface.2.2.2.trans (by subst hflag; rfl))
        (hface.2.2.1.trans (by subst hflag; rfl))
      exact ⟨hend.1, fun _ => hend.2⟩

theorem complete_sound (counted : Egress cfg) (hcounted : Counted counted)
    (hsame : counted.states = s.egress.states) (hface : counted.face = s.egress.face)
    (hi : s.egress.states i = .submitted) :
    Sound { s with egress := counted.releaseRow i } ∧
      (Cleared s → Cleared { s with egress := counted.releaseRow i }) := by
  have hused : counted.states i ≠ .free := by simp [hsame, hi]
  have hstates := states_releaseRow hcounted hused
  rw [hsame] at hstates
  have hface' : (counted.releaseRow i).face = s.egress.face := face_releaseRow.trans hface
  constructor
  · refine h.write hstates (hcounted.releaseRow hused) hface' h.nodup (fun j => ?_) (fun j => ?_)
      Iff.rfl (fun _ => RowState.noConfusion) fun hc => RowState.noConfusion hc
    · have hother := h.reserved i
      rw [hi] at hother
      split
      · rename_i hj
        rw [hj, hother]
        simp
      · rfl
    · have hother := h.submitting i
      rw [hi] at hother
      show s.pump.holds = some j ↔ _
      split
      · rename_i hj
        rw [hj, hother]
        simp
      · rfl
  · exact fun hc => hc.write hstates hface' fun _ => rfl

theorem observeSend_sound (connection : Connection) (size : ℕ) :
    Sound { s with egress := s.egress.observeSend connection size } ∧
      (Cleared s → Cleared { s with egress := s.egress.observeSend connection size }) := by
  unfold observeSend
  split
  · exact ⟨h.count rfl h.counted rfl, fun hc => hc.keep rfl rfl⟩
  · split
    · have hface := setFailure_face (e := s.egress.violated) .eproto
      have hterminal := congrArg (·.2.1) hface
      exact ⟨h.count (setFailure_states _) (Counted.setFailure (e := s.egress.violated) h.counted _)
        hface,
        fun hc => hc.keep (setFailure_states _) hterminal⟩
    · rename_i i hearliest
      have hi := earliest_state hearliest
      split
      · exact complete_sound h { s.egress with completed := s.egress.completed + 1 }
          h.counted rfl rfl hi
      · exact complete_sound h _ (h.counted.setFailure _) (setFailure_states _) (setFailure_face _) hi

theorem close_sound : Sound { s with egress := s.egress.adapterClose } ∧
      (Cleared s → Cleared { s with egress := s.egress.adapterClose }) := by
  unfold adapterClose
  split
  · exact ⟨h, id⟩
  · have hdrop := cancelRows_dropped (e := { s.egress with closed := true })
      (p := (· == RowState.ready)) h.counted rfl
    refine ⟨h.drop hdrop rfl rfl rfl rfl rfl fun _ => .inr rfl, fun hc => ?_⟩
    exact Cleared.drop (s := { s with egress := { s.egress with closed := true } })
      (hc.keep rfl rfl) hdrop

theorem bind_sound (connection : Connection) :
    Sound { s with egress := (s.egress.bind connection).1 } ∧
      (Cleared s → Cleared { s with egress := (s.egress.bind connection).1 }) := by
  unfold bind
  split
  · exact ⟨h, id⟩
  · split
    · exact ⟨h, id⟩
    · exact ⟨h.keep rfl h.counted rfl rfl h.pumping rfl (fun _ => rfl) fun _ => rfl,
        fun hc => hc.keep rfl rfl⟩

/-! ### The pump -/

variable {maxWrites : ℕ} {lane : PumpLane cfg.capacity}

theorem pumpBegin_sound (hbegin : s.egress.pumpBegin maxWrites = (e, .ok lane)) :
    Sound { s with egress := e, pump := lane } ∧
      (Cleared s → Cleared { s with egress := e, pump := lane }) := by
  unfold pumpBegin at hbegin
  split at hbegin
  · cases hbegin
  split at hbegin
  · cases hbegin
  split at hbegin
  · cases hbegin
  split at hbegin
  · cases hbegin
  · rename_i hpumping _ hready
    cases hbegin
    simp only [Bool.or_eq_true, not_or, Bool.not_eq_true', Bool.not_eq_false] at hready
    have hidle : s.pump = .idle := by
      by_contra hc
      exact hpumping (h.pumping.mpr hc)
    refine ⟨h.keep rfl h.counted rfl ?_ ?_ rfl id fun _ => hready.1, fun hc => hc.keep rfl rfl⟩
    · simp [hidle, PumpLane.holds]
    · simp

omit h

theorem pumpBegin_error {e' : Egress cfg} {status : Status}
    (hbegin : e.pumpBegin maxWrites = (e', .error status)) : e' = e := by
  unfold pumpBegin at hbegin
  split at hbegin
  · cases hbegin
    rfl
  split at hbegin
  · cases hbegin
    rfl
  split at hbegin
  · cases hbegin
    rfl
  split at hbegin
  · cases hbegin
    rfl
  · cases hbegin

theorem Sound.move (h : Sound s) (hold : s.pump ≠ .idle) (hnew : lane ≠ .idle)
    (hholds : lane.holds = s.pump.holds) : Sound { s with pump := lane } :=
  h.keep rfl h.counted rfl hholds (by simp [h.pumping, hold, hnew]) rfl id fun _ => h.pumped hold

/-- **The pump takes a row or gives it back.** -/
theorem Sound.pump_write (h : Sound s) (hold : s.pump ≠ .idle)
    (hnew : lane ≠ .idle) (hstates : e.states = update s.egress.states i state)
    (hcounted : Counted e) (hface : e.face = s.egress.face)
    (hrow : s.egress.states i = .ready ∨ s.egress.states i = .submitting)
    (hstate : state ≠ .reserved) (hholds : ∀ j, lane.holds = some j ↔
      if j = i then state = .submitting else s.pump.holds = some j)
    (hready : s.egress.closed = true → state ≠ .ready) :
    Sound { s with egress := e, pump := lane } := by
  refine h.write hstates hcounted hface h.nodup (fun j => ?_) hholds (by simp [hold, hnew]) hready
    fun _ => h.pumped hold
  have hother := h.reserved i
  show j ∈ s.tickets ↔ _
  split
  · rename_i hj
    rw [hj, hother]
    rcases hrow with hrow | hrow <;> simp [hrow, hstate]
  · rfl

theorem holds_scanned (hlane : s.pump.holds = none) (hholds : lane.holds = some i)
    (j : Fin cfg.capacity) :
    lane.holds = some j ↔ if j = i then RowState.submitting = .submitting
      else s.pump.holds = some j := by
  rw [hholds, hlane]
  by_cases hj : j = i
  · simp [hj]
  · simp [hj, Ne.symm hj]

variable {completed : ℕ} {result : Status}

theorem pumpClaim_sound (h : Sound s) (hlane : s.pump = .scanning completed maxWrites result) :
    Sound (s.pumped (s.egress.pumpClaim completed maxWrites result)) ∧
      (Cleared s → Cleared (s.pumped (s.egress.pumpClaim completed maxWrites result))) := by
  have hold : s.pump ≠ .idle := by simp [hlane]
  have hheld : s.pump.holds = none := by rw [hlane]; rfl
  have hleave : Sound (s.pumped (s.egress, .leaving completed result)) :=
    h.move hold (by simp) (by rw [hlane]; rfl)
  unfold pumpClaim
  split
  · split
    · exact ⟨hleave, id⟩
    · rename_i i hearliest
      have hi := earliest_state hearliest
      split
      · exact ⟨hleave, id⟩
      · have hstates := states_setState (e := s.egress) (i := i) .submitting
        have hcounted := h.counted.setState (i := i) .submitting (by simp [hi])
          RowState.noConfusion
        exact ⟨h.pump_write hold (by simp) hstates hcounted rfl (.inl hi)
          RowState.noConfusion (holds_scanned hheld rfl) fun _ => RowState.noConfusion,
          fun hc => hc.write hstates rfl fun _ => rfl⟩
  · exact ⟨hleave, id⟩

theorem Sound.held (h : Sound s) (hheld : s.pump.holds = some i) :
    s.egress.states i = .submitting :=
  (h.submitting i).mp hheld

theorem holds_dropped (hheld : s.pump.holds = some i) (hnone : lane.holds = none)
    (hstate : state ≠ .submitting) (j : Fin cfg.capacity) :
    lane.holds = some j ↔ if j = i then state = .submitting else s.pump.holds = some j := by
  rw [hnone, hheld]
  by_cases hj : j = i
  · simp [hj, hstate]
  · simp [hj, Ne.symm hj]

variable (h : Sound s)
include h

theorem give_sound (hheld : s.pump.holds = some i) (hnew : lane ≠ .idle) (hnone : lane.holds = none)
    (hstates : e.states = update s.egress.states i state) (hcounted : Counted e)
    (hface : e.face = s.egress.face) (hreserved : state ≠ .reserved)
    (hsubmitting : state ≠ .submitting) (hready : s.egress.closed = true → state ≠ .ready) :
    Sound (s.pumped (e, lane)) := by
  have hold : s.pump ≠ .idle := by
    intro hc
    rw [hc] at hheld
    cases hheld
  exact h.pump_write hold hnew hstates hcounted hface (.inr (h.held hheld)) hreserved
    (holds_dropped hheld hnone hsubmitting) hready

theorem give_up_sound (lane : PumpLane cfg.capacity) (hheld : s.pump.holds = some i)
    (hnew : lane ≠ .idle) (hnone : lane.holds = none) :
    Sound (s.pumped (s.egress.cancelRow i, lane)) ∧
      (Cleared s → Cleared (s.pumped (s.egress.cancelRow i, lane))) := by
  have hused : s.egress.states i ≠ .free := by simp [h.held hheld]
  have hstates := states_cancelRow h.counted hused
  exact ⟨give_sound h hheld hnew hnone hstates (h.counted.cancelRow hused) face_cancelRow
    RowState.noConfusion RowState.noConfusion fun _ => RowState.noConfusion,
    fun hc => hc.write hstates face_cancelRow fun _ => rfl⟩

theorem pumpBuffer_sound (given : Bool) (hlane : s.pump = .buffering i completed maxWrites result) :
    Sound (s.pumped (s.egress.pumpBuffer given i completed maxWrites result)) ∧
      (Cleared s → (given || s.egress.closed || !s.egress.terminal) = true →
        Cleared (s.pumped (s.egress.pumpBuffer given i completed maxWrites result))) := by
  have hheld : s.pump.holds = some i := by rw [hlane]; rfl
  unfold pumpBuffer
  split
  · split
    · have hgive := give_up_sound h (.leaving completed result) hheld
        (by simp) rfl
      exact ⟨hgive.1, fun hc _ => hgive.2 hc⟩
    · exact ⟨h.move (by simp [hlane]) (by simp) (by rw [hlane]; rfl), fun hc _ => hc⟩
  · rename_i hgiven
    split
    · have hgive := give_up_sound h (.leaving completed .enomem) hheld
        (by simp) rfl
      exact ⟨hgive.1, fun hc _ => hgive.2 hc⟩
    · rename_i hclosed
      have hused : s.egress.states i ≠ .free := by simp [h.held hheld]
      have hstates := states_setState (e := s.egress) (i := i) .ready
      refine ⟨give_sound h hheld (by simp) rfl hstates
        (h.counted.setState _ hused RowState.noConfusion) rfl RowState.noConfusion
        RowState.noConfusion fun hc => absurd hc hclosed, fun hc hok => ?_⟩
      refine hc.write hstates rfl fun ht => ?_
      simp [hgiven, hclosed, ht] at hok

theorem pumpSettle_sound (status : Status)
    (hlane : s.pump = .sending i completed maxWrites result) :
    Sound (s.pumped (s.egress.pumpSettle status i completed maxWrites result)) ∧
      (Cleared s → (status != .ok || !s.egress.terminal) = true →
        Cleared (s.pumped (s.egress.pumpSettle status i completed maxWrites result))) := by
  have hheld : s.pump.holds = some i := by rw [hlane]; rfl
  have hrow := h.held hheld
  have hstate : (s.egress.rows i).state = .submitting := hrow
  have hused : s.egress.states i ≠ .free := by simp [hrow]
  unfold pumpSettle
  rw [if_neg (by simp [hstate])]
  split
  · rename_i hok
    have hstates := states_setState (e := s.egress) (i := i) .submitted
    refine ⟨give_sound h hheld (by simp) rfl hstates
      (h.counted.setState _ hused RowState.noConfusion) rfl RowState.noConfusion
      RowState.noConfusion fun _ => RowState.noConfusion, fun hc hregular => ?_⟩
    refine hc.write hstates rfl fun ht => ?_
    simp [hok, ht] at hregular
  split
  · have hgive := give_up_sound h (.leaving completed status) hheld
      (by simp) rfl
    exact ⟨hgive.1, fun hc _ => hgive.2 hc⟩
  rename_i hopen
  simp only [Bool.or_eq_true, not_or, Bool.not_eq_true] at hopen
  split
  · have hstates := states_setState (e := s.egress) (i := i) .ready
    refine ⟨give_sound h hheld (by simp) rfl hstates
      (h.counted.setState _ hused RowState.noConfusion) rfl RowState.noConfusion
      RowState.noConfusion fun hc => absurd hc (by simp [hopen.1]), fun hc _ => ?_⟩
    exact hc.write hstates rfl fun ht => absurd ht (by simp [hopen.2])
  · have hsame := setFailure_states (e := s.egress) status
    have hcounted := h.counted.setFailure status
    have hused' : (s.egress.setFailure status).states i ≠ .free := by rwa [hsame]
    have hstates := states_releaseRow hcounted hused'
    rw [hsame] at hstates
    have hface : ((s.egress.setFailure status).releaseRow i).face = s.egress.face :=
      face_releaseRow.trans (setFailure_face status)
    exact ⟨give_sound h hheld (by simp) rfl hstates (hcounted.releaseRow hused') hface
      RowState.noConfusion RowState.noConfusion fun _ => RowState.noConfusion,
      fun hc _ => hc.write hstates hface fun _ => rfl⟩

theorem pumpFinish_sound (hlane : s.pump.holds = none) :
    Sound { s with egress := s.egress.pumpFinish, pump := .idle } :=
  h.keep rfl h.counted rfl hlane.symm (by simp [pumpFinish]) rfl id fun hc => absurd rfl hc

end Step

end Egress

end TurboScxml.Cnet
