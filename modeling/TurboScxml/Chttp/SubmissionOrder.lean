import TurboScxml.Chttp.EgressRelease

/-!
# The order of submissions

* `Traced`: the egress table in use with the committed sends, the requests that the client accepted,
  and the sends whose cancel was committed in time;
* `OrderSound`: commit numbers are positions in the commit order, and whatever waits in the table
  comes after all that was accepted of its binding;
* **`reachable_submission_order`**: the accepted requests of a binding are a subsequence of its
  commits, none before its due time or while an earlier one is unfinished, none after it was
  cancelled or its binding closed.
-/

namespace TurboScxml.Chttp

open Function Slots Machine Processor List

variable {n : ℕ} {β : Type}

structure Send (β : Type) where
  serial : ℕ
  binding : β
  dueMs : ℕ
  deriving DecidableEq

structure Submission (β : Type) where
  send : Send β
  selectedMs : ℕ
  deriving DecidableEq

/-- The egress table with its history. -/
structure Traced (n : ℕ) (β : Type) where
  system : System n β
  nextSerial : ℕ
  serials : Fin n → ℕ
  cancelSerials : Fin n → ℕ
  committed : List (Send β)
  selectedMs : ℕ
  submitted : List (Submission β)
  cancelled : List ℕ

namespace Traced

def init (n : ℕ) (β : Type) : Traced n β := ⟨.init n β, 0, fun _ => 0, fun _ => 0, [], 0, [], []⟩

/-- Neither accepted nor RESERVED nor in hand. -/
def cancellable (t : Traced n β) (e : ℕ) : Bool :=
  decide (e ∉ t.submitted.map (·.send.serial) ∧ ∀ i, t.serials i = e →
    (t.system.processor.rows i).state ≠ .reserved ∧ (t.system.processor.rows i).state ≠ .submitting)

variable [DecidableEq β]

def commits (t : Traced n β) (b : β) : List (Send β) := t.committed.filter (·.binding = b)

def submissions (t : Traced n β) (b : β) : List (Send β) :=
  (t.submitted.map (·.send)).filter (·.binding = b)

/-- The history after the action that led to `s'`. -/
def record (t : Traced n β) (s' : System n β) : Action n β → Traced n β
  | .prepareSend b sendId delayMs =>
    match (t.system.processor.prepareSend b sendId delayMs).2 with
    | .ok i => { t with
        system := s'
        nextSerial := t.nextSerial + 1
        serials := update t.serials i t.nextSerial }
    | .error _ => { t with system := s' }
  | .commit now i =>
    match (t.system.processor.rows i).binding, (s'.processor.rows i).state with
    | some b, .ready => { t with
        system := s'
        committed := t.committed ++
          [⟨t.serials i, b, min uint64Max (now + (t.system.processor.rows i).delayMs)⟩] }
    | _, _ => { t with system := s' }
  | .prepareCancel b sendId =>
    match (t.system.processor.prepareCancel b sendId).2 with
    | .ok (some k) =>
      match (s'.processor.cancelTickets k).target with
      | some i => { t with
          system := s'
          cancelSerials := update t.cancelSerials k (t.serials i) }
      | none => { t with system := s' }
    | _ => { t with system := s' }
  | .cancelCommit k => { t with
      system := s'
      cancelled := t.cancelled ++ [t.cancelSerials k].filter t.cancellable }
  | .submitSelect now => { t with system := s', selectedMs := now }
  | .submitAnswer (.ok _) =>
    match t.system.worker with
    | .submitting i =>
      match (t.system.processor.rows i).binding with
      | some b => { t with
          system := s'
          submitted := t.submitted ++
            [⟨⟨t.serials i, b, (t.system.processor.rows i).dueMs⟩, t.selectedMs⟩] }
      | none => { t with system := s' }
    | _ => { t with system := s' }
  | _ => { t with system := s' }

def step (t : Traced n β) (a : Action n β) : Option (Traced n β) :=
  (t.system.step a).map fun s' => t.record s' a

def Initial (t : Traced n β) : Prop := t = init n β

abbrev Reachable (t : Traced n β) : Prop :=
  Machine.Reachable (step : Traced n β → Action n β → Option (Traced n β)) Initial t

end Traced

/-! ## The invariant -/

def RowState.published (state : RowState) : Prop := state ≠ .free ∧ state ≠ .reserved

def RowState.waits (state : RowState) : Prop := state = .ready ∨ state = .submitting

theorem RowState.waits.published {state : RowState} (h : state.waits) : state.published := by
  rcases h with rfl | rfl <;> exact ⟨RowState.noConfusion, RowState.noConfusion⟩

def Bounded [DecidableEq β] (t : Traced n β) : Prop := ∀ b, (t.commits b).length ≤ uint64Max

structure OrderSound [DecidableEq β] (t : Traced n β) : Prop where
  fresh : ∀ i, t.system.processor.states i ≠ .free → t.serials i < t.nextSerial
  distinct : ∀ i j, t.system.processor.states i ≠ .free → t.system.processor.states j ≠ .free →
    t.serials i = t.serials j → i = j
  committedFresh : ∀ s ∈ t.committed, s.serial < t.nextSerial
  committedOnce : (t.committed.map (·.serial)).Nodup
  reserved : ∀ i, t.system.processor.states i = .reserved →
    t.serials i ∉ t.committed.map (·.serial)
  position : ∀ i b, (t.system.processor.states i).published →
    (t.system.processor.rows i).binding = some b → ∃ m,
      (t.system.processor.rows i).commitSequence = m + 1 ∧
        (t.commits b)[m]? = some ⟨t.serials i, b, (t.system.processor.rows i).dueMs⟩
  clocks : ∀ b, t.system.processor.clocks b = (t.commits b).length + 1 ∨
    (t.commits b).length = uint64Max
  submitted : ∀ b, t.submissions b <+ t.commits b
  waiting : ∀ i b, t.system.processor.states i = .ready ∨ t.system.processor.states i = .submitting →
    (t.system.processor.rows i).binding = some b →
    t.submissions b <+ (t.commits b).take ((t.system.processor.rows i).commitSequence - 1)
  /-- What the worker has in hand comes first. -/
  first : ∀ i j, t.system.processor.states i = .submitting → j ≠ i →
    (t.system.processor.states j).published →
    (t.system.processor.rows j).binding = (t.system.processor.rows i).binding →
    (t.system.processor.rows i).commitSequence < (t.system.processor.rows j).commitSequence
  due : ∀ i, t.system.processor.states i = .submitting →
    (t.system.processor.rows i).dueMs ≤ t.selectedMs
  submittedDue : ∀ e ∈ t.submitted, e.send.dueMs ≤ e.selectedMs
  cancelFresh : ∀ k ∈ t.system.cancels, t.cancelSerials k < t.nextSerial
  target : ∀ k ∈ t.system.cancels, ∀ i, t.system.processor.states i ≠ .free →
    t.serials i = t.cancelSerials k → (t.system.processor.cancelTickets k).target = some i ∧
      (t.system.processor.rows i).generation =
        (t.system.processor.cancelTickets k).targetGeneration
  cancelledFresh : ∀ e ∈ t.cancelled, e < t.nextSerial
  cancelled : ∀ e ∈ t.cancelled, e ∉ t.submitted.map (·.send.serial) ∧
    ∀ i, t.serials i = e → t.system.processor.states i ≠ .reserved ∧
      t.system.processor.states i ≠ .ready ∧ t.system.processor.states i ≠ .submitting

section Invariant

variable [DecidableEq β] {t : Traced n β} {s' : System n β}

theorem init_orderSound : OrderSound (Traced.init n β) where
  fresh i hi := absurd rfl hi
  distinct i j hi := absurd rfl hi
  committedFresh s hs := by cases hs
  committedOnce := .nil
  reserved i hi := by cases hi
  position i b hi := absurd rfl hi.1
  clocks b := .inl rfl
  submitted b := .slnil
  waiting i b hi := by rcases hi with hi | hi <;> cases hi
  first i j hi := by cases hi
  due i hi := by cases hi
  submittedDue e he := by cases he
  cancelFresh k hk := by cases hk
  target k hk := by cases hk
  cancelledFresh e he := by cases he
  cancelled e he := by cases he

/-- The rows in use keep their data, and none is new to the states that the order is about. -/
structure Keeps (p q : Processor n β) : Prop where
  rows : ∀ i, q.states i ≠ .free → p.states i ≠ .free ∧ (q.rows i).core = (p.rows i).core ∧
    (p.states i = .reserved ↔ q.states i = .reserved) ∧
      ((q.states i).waits → (p.states i).waits)
  clocks : q.clocks = p.clocks

omit [DecidableEq β] in
theorem Keeps.of_passes (hpass : Passes t.system s') :
    Keeps t.system.processor s'.processor := by
  refine ⟨fun i hi => ?_, hpass.clocks⟩
  obtain ⟨hused, hcore, hfades⟩ := hpass.rows i hi
  exact ⟨hused, hcore, hfades.reserved,
    fun hwaits => hwaits.elim hfades.ready fun hc => .inr (hfades.submitting hc)⟩

theorem Keeps.of_settles {p q : Processor n β} {i : Fin n} {state : RowState}
    (hset : Settles p q i state) (hi : (p.states i).published) (hstate : state.published)
    (hwaits : state.waits → (p.states i).waits) : Keeps p q := by
  refine ⟨fun j hj => ?_, hset.clocks (.inl hi.2)⟩
  rw [hset.states] at hj ⊢
  by_cases hji : j = i
  · subst hji
    rw [update_self] at hj ⊢
    exact ⟨hi.1, hset.core hi.1 (.inl hi.2) hj, iff_of_false hi.2 hstate.2, hwaits⟩
  · rw [update_of_ne hji] at hj ⊢
    exact ⟨hj, by rw [hset.others j hji], .rfl, id⟩

/-- **Kept rows** keep the invariant, if what the worker has in hand is due and comes first. -/
theorem OrderSound.keep (h : OrderSound t) {selected : ℕ}
    (hkeeps : Keeps t.system.processor s'.processor)
    (hcancels : ∀ k ∈ s'.cancels, k ∈ t.system.cancels ∧
      (s'.processor.cancelTickets k).target = (t.system.processor.cancelTickets k).target ∧
        (s'.processor.cancelTickets k).targetGeneration =
          (t.system.processor.cancelTickets k).targetGeneration)
    (hfirst : ∀ i j, s'.processor.states i = .submitting → j ≠ i →
      (t.system.processor.states j).published →
      (t.system.processor.rows j).binding = (t.system.processor.rows i).binding →
      (t.system.processor.rows i).commitSequence < (t.system.processor.rows j).commitSequence)
    (hdue : ∀ i, s'.processor.states i = .submitting →
      (t.system.processor.rows i).dueMs ≤ selected) :
    OrderSound { t with system := s', selectedMs := selected } := by
  have hrow : ∀ i, s'.processor.states i ≠ .free →
      (s'.processor.rows i).binding = (t.system.processor.rows i).binding ∧
      (s'.processor.rows i).generation = (t.system.processor.rows i).generation ∧
      (s'.processor.rows i).dueMs = (t.system.processor.rows i).dueMs ∧
      (s'.processor.rows i).commitSequence = (t.system.processor.rows i).commitSequence := by
    intro i hi
    have hcore := (hkeeps.rows i hi).2.1
    simp only [Row.core, Prod.mk.injEq] at hcore
    exact ⟨hcore.1, hcore.2.1, hcore.2.2.2.2.1, hcore.2.2.2.2.2⟩
  have hpublished : ∀ i, (s'.processor.states i).published →
      (t.system.processor.states i).published := by
    intro i hi
    obtain ⟨hused, -, hreserved, -⟩ := hkeeps.rows i hi.1
    exact ⟨hused, fun hc => hi.2 (hreserved.mp hc)⟩
  have hreserved : ∀ i, s'.processor.states i = .reserved →
      t.system.processor.states i = .reserved := by
    intro i hi
    exact (hkeeps.rows i (by rw [hi]; exact RowState.noConfusion)).2.2.1.mpr hi
  have hwaits : ∀ i, (s'.processor.states i).waits → (t.system.processor.states i).waits :=
    fun i hi => (hkeeps.rows i hi.published.1).2.2.2 hi
  refine ⟨fun i hi => h.fresh i (hkeeps.rows i hi).1,
    fun i j hi hj => h.distinct i j (hkeeps.rows i hi).1 (hkeeps.rows j hj).1, h.committedFresh,
    h.committedOnce, fun i hi => h.reserved i (hreserved i hi), fun i b hi hb => ?_, fun b => ?_,
    h.submitted, fun i b hi hb => ?_, fun i j hi hj hpub hb => ?_, fun i hi => ?_, h.submittedDue,
    fun k hk => h.cancelFresh k (hcancels k hk).1, fun k hk i hi heq => ?_, h.cancelledFresh,
    fun e he => ⟨(h.cancelled e he).1, fun i hi => ?_⟩⟩
  · obtain ⟨hbinding, -, hdueMs, hseq⟩ := hrow i hi.1
    rw [hseq, hdueMs]
    exact h.position i b (hpublished i hi) (hbinding.symm.trans hb)
  · rw [hkeeps.clocks]
    exact h.clocks b
  · have hi' : (s'.processor.states i).waits := hi
    obtain ⟨hbinding, -, -, hseq⟩ := hrow i hi'.published.1
    rw [hseq]
    exact h.waiting i b (hwaits i hi) (hbinding.symm.trans hb)
  · have hi' : (s'.processor.states i).waits := .inr hi
    obtain ⟨hbinding, -, -, hseq⟩ := hrow i hi'.published.1
    obtain ⟨hbinding', -, -, hseq'⟩ := hrow j hpub.1
    rw [hseq, hseq']
    exact hfirst i j hi hj (hpublished j hpub) (hbinding'.symm.trans (hb.trans hbinding))
  · have hi' : (s'.processor.states i).waits := .inr hi
    rw [(hrow i hi'.published.1).2.2.1]
    exact hdue i hi
  · obtain ⟨hmem, htarget, hgeneration⟩ := hcancels k hk
    rw [htarget, hgeneration, (hrow i hi).2.1]
    exact h.target k hmem i (hkeeps.rows i hi).1 heq
  · obtain ⟨hres, hrdy, hsub⟩ := (h.cancelled e he).2 i hi
    exact ⟨fun hc => hres (hreserved i hc), fun hc => (hwaits i (.inl hc)).elim hrdy hsub,
      fun hc => (hwaits i (.inr hc)).elim hrdy hsub⟩

/-- **A step that passes** keeps the invariant. -/
theorem OrderSound.pass (h : OrderSound t) (hpass : Passes t.system s') :
    OrderSound { t with system := s' } := by
  have hsubmitting : ∀ i, s'.processor.states i = .submitting →
      t.system.processor.states i = .submitting := by
    intro i hi
    exact (hpass.rows i (by rw [hi]; exact RowState.noConfusion)).2.2.submitting hi
  exact h.keep (.of_passes hpass) hpass.cancels (fun i j hi => h.first i j (hsubmitting i hi))
    fun i hi => h.due i (hsubmitting i hi)

theorem OrderSound.cancel (h : OrderSound t) {cancelled : List ℕ}
    (hcancelled : ∀ e ∈ cancelled, e < t.nextSerial ∧ e ∉ t.submitted.map (·.send.serial) ∧
      ∀ i, t.serials i = e → t.system.processor.states i ≠ .reserved ∧
        t.system.processor.states i ≠ .ready ∧ t.system.processor.states i ≠ .submitting) :
    OrderSound { t with cancelled := t.cancelled ++ cancelled } :=
  { h with
    cancelledFresh := fun e he => (List.mem_append.mp he).elim (h.cancelledFresh e)
      fun he => (hcancelled e he).1
    cancelled := fun e he =>
      (List.mem_append.mp he).elim (h.cancelled e) fun he => (hcancelled e he).2 }

variable {i : Fin n}

theorem OrderSound.reserve (h : OrderSound t) (hsound : Sound t.system) (b : β) (sendId : Text)
    (delayMs : ℕ) (hi : t.system.processor.states i = .free) :
    OrderSound { t with
      system := { t.system with
        processor := t.system.processor.reserveRow i b sendId delayMs
        preparing := t.system.preparing ++ [i] }
      nextSerial := t.nextSerial + 1
      serials := update t.serials i t.nextSerial } := by
  have hset := reserveRow_settles hsound.counted hi b sendId delayMs
  have htickets := tickets_of_frame hset.frame
  have hclocks := hset.clocks (.inr RowState.noConfusion)
  generalize t.system.processor.reserveRow i b sendId delayMs = p at hset htickets hclocks
  have hstate : ∀ j, j ≠ i → p.states j = t.system.processor.states j := fun j hj => by
    rw [hset.states, update_of_ne hj]
  have hself : p.states i = .reserved := by rw [hset.states, update_self]
  have hne : ∀ j, p.states j ≠ .reserved → p.states j ≠ .free → j ≠ i := by
    rintro j hres - rfl
    exact hres hself
  have hold : ∀ j, j ≠ i → p.states j ≠ .free → t.serials j < t.nextSerial := fun j hj hused =>
    h.fresh j (hstate j hj ▸ hused)
  refine ⟨fun j hj => ?_, fun j k hj hk heq => ?_,
    fun s hs => Nat.lt_succ_of_lt (h.committedFresh s hs), h.committedOnce, fun j hj => ?_,
    fun j c hj hb => ?_, fun c => ?_, h.submitted, fun j c hj hb => ?_,
    fun j k hj hkj hk hb => ?_, fun j hj => ?_, h.submittedDue,
    fun k hk => Nat.lt_succ_of_lt (h.cancelFresh k hk), fun k hk j hj heq => ?_,
    fun e he => Nat.lt_succ_of_lt (h.cancelledFresh e he), fun e he => ⟨(h.cancelled e he).1, ?_⟩⟩
  · show update t.serials i t.nextSerial j < t.nextSerial + 1
    by_cases hji : j = i
    · rw [hji, update_self]
      exact Nat.lt_succ_self _
    · rw [update_of_ne hji]
      exact Nat.lt_succ_of_lt (hold j hji hj)
  · by_cases hji : j = i <;> by_cases hki : k = i
    · rw [hji, hki]
    · have hlt := hold k hki hk
      simp only [hji, update_self, update_of_ne hki] at heq
      omega
    · have hlt := hold j hji hj
      simp only [hki, update_self, update_of_ne hji] at heq
      omega
    · simp only [update_of_ne hji, update_of_ne hki] at heq
      exact h.distinct j k (hstate j hji ▸ hj) (hstate k hki ▸ hk) heq
  · show update t.serials i t.nextSerial j ∉ _
    by_cases hji : j = i
    · rw [hji, update_self]
      intro hc
      obtain ⟨s, hs, heq⟩ := List.mem_map.mp hc
      have := h.committedFresh s hs
      omega
    · rw [update_of_ne hji]
      exact h.reserved j (hstate j hji ▸ hj)
  · have hji := hne j hj.2 hj.1
    have hrow := hset.others j hji
    have hb' : (p.rows j).binding = some c := hb
    rw [hrow] at hb'
    obtain ⟨m, hm, hget⟩ := h.position j c (by rw [← hstate j hji]; exact hj) hb'
    refine ⟨m, by rw [show _ = _ from congrArg Row.commitSequence hrow]; exact hm, ?_⟩
    show (t.commits c)[m]? = some ⟨update t.serials i t.nextSerial j, c, (p.rows j).dueMs⟩
    rw [update_of_ne hji, hrow]
    exact hget
  · show p.clocks c = _ ∨ _
    rw [hclocks]
    exact h.clocks c
  · have hj' : p.states j = .ready ∨ p.states j = .submitting := hj
    have hji : j ≠ i := hne j (by rcases hj' with hj | hj <;> rw [hj] <;> exact RowState.noConfusion)
      (by rcases hj' with hj | hj <;> rw [hj] <;> exact RowState.noConfusion)
    have hrow := hset.others j hji
    have hb' : (p.rows j).binding = some c := hb
    rw [hrow] at hb'
    show t.submissions c <+ (t.commits c).take ((p.rows j).commitSequence - 1)
    rw [hrow]
    exact h.waiting j c (hstate j hji ▸ hj') hb'
  · have hj' : p.states j = .submitting := hj
    have hji : j ≠ i := hne j (by rw [hj']; exact RowState.noConfusion)
      (by rw [hj']; exact RowState.noConfusion)
    have hki := hne k hk.2 hk.1
    have hb' : (p.rows k).binding = (p.rows j).binding := hb
    rw [hset.others j hji, hset.others k hki] at hb'
    show (p.rows j).commitSequence < (p.rows k).commitSequence
    rw [hset.others j hji, hset.others k hki]
    exact h.first j k (hstate j hji ▸ hj') hkj (by rw [← hstate k hki]; exact hk) hb'
  · have hj' : p.states j = .submitting := hj
    have hji : j ≠ i := hne j (by rw [hj']; exact RowState.noConfusion)
      (by rw [hj']; exact RowState.noConfusion)
    show (p.rows j).dueMs ≤ t.selectedMs
    rw [hset.others j hji]
    exact h.due j (hstate j hji ▸ hj')
  · have heq' : update t.serials i t.nextSerial j = t.cancelSerials k := heq
    have hji : j ≠ i := by
      rintro rfl
      rw [update_self] at heq'
      have := h.cancelFresh k hk
      omega
    rw [update_of_ne hji] at heq'
    obtain ⟨htarget, hgeneration⟩ := h.target k hk j (by rw [← hstate j hji]; exact hj) heq'
    show (p.cancelTickets k).target = some j ∧ (p.rows j).generation =
      (p.cancelTickets k).targetGeneration
    rw [htickets, hset.others j hji]
    exact ⟨htarget, hgeneration⟩
  · intro j hj
    have hj' : update t.serials i t.nextSerial j = e := hj
    have hji : j ≠ i := by
      rintro rfl
      rw [update_self] at hj'
      have := h.cancelledFresh e he
      omega
    rw [update_of_ne hji] at hj'
    show p.states j ≠ _ ∧ p.states j ≠ _ ∧ p.states j ≠ _
    rw [hstate j hji]
    exact (h.cancelled e he).2 j hj'

variable {k : Fin n}

theorem OrderSound.prepareCancel (h : OrderSound t) (b : β) (sendId : Text)
    (hi : (Fin.find? fun i => isTarget b sendId (t.system.processor.rows i)) = some i)
    (hk : k ∉ t.system.cancels) : OrderSound { t with
      system := { t.system with
        processor := { t.system.processor with
          cancelTickets := update t.system.processor.cancelTickets k
            ⟨some i, (t.system.processor.rows i).generation, true⟩ }
        cancels := t.system.cancels ++ [k] }
      cancelSerials := update t.cancelSerials k (t.serials i) } := by
  have hused : t.system.processor.states i ≠ .free := by
    have htarget := Fin.eq_true_of_find?_eq_some hi
    simp only [isTarget, Bool.and_eq_true, bne_iff_ne] at htarget
    exact htarget.2
  have hmem : ∀ l, l ∈ t.system.cancels ++ [k] → l = k ∨ l ≠ k ∧ l ∈ t.system.cancels := by
    intro l hl
    rcases List.mem_append.mp hl with hl | hl
    · exact .inr ⟨fun hc => hk (hc ▸ hl), hl⟩
    · exact .inl (List.mem_singleton.mp hl)
  refine { h with
    cancelFresh := fun l hl => ?_
    target := fun l hl j hj heq => ?_ }
  · show update t.cancelSerials k (t.serials i) l < t.nextSerial
    rcases hmem l hl with rfl | ⟨hne, hl⟩
    · rw [update_self]
      exact h.fresh i hused
    · rw [update_of_ne hne]
      exact h.cancelFresh l hl
  · have heq' : t.serials j = update t.cancelSerials k (t.serials i) l := heq
    show (update t.system.processor.cancelTickets k _ l).target = some j ∧
      _ = (update t.system.processor.cancelTickets k _ l).targetGeneration
    rcases hmem l hl with rfl | ⟨hne, hl⟩
    · rw [update_self] at heq'
      obtain rfl := h.distinct j i hj hused heq'
      rw [update_self]
      exact ⟨rfl, rfl⟩
    · rw [update_of_ne hne] at heq' ⊢
      exact h.target l hl j hj heq'

variable {now : ℕ}

theorem OrderSound.select (h : OrderSound t) (hsound : Sound t.system)
    (hnone : ∀ j, t.system.processor.states j ≠ .submitting)
    (hi : t.system.processor.states i = .ready) (hdue : (t.system.processor.rows i).dueMs ≤ now)
    (hfirst : t.system.processor.earlierRowBlocks i = false)
    (hset : Settles t.system.processor s'.processor i .submitting)
    (hcancels : s'.cancels = t.system.cancels) :
    OrderSound { t with system := s', selectedMs := now } := by
  have htickets := tickets_of_frame hset.frame
  have hpubi : (t.system.processor.states i).published := RowState.waits.published (.inl hi)
  have hsubmitting : ∀ j, s'.processor.states j = .submitting → j = i := by
    intro j hj
    by_contra hji
    rw [hset.states, update_of_ne hji] at hj
    exact hnone j hj
  refine h.keep (.of_settles hset hpubi (RowState.waits.published (.inr rfl)) fun _ => .inl hi)
    (fun k hk => ⟨hcancels ▸ hk, by rw [htickets], by rw [htickets]⟩)
    (fun j k hj hkj hpub hb => ?_) fun j hj => hsubmitting j hj ▸ hdue
  obtain rfl := hsubmitting j hj
  have hle : ¬ (t.system.processor.rows k).commitSequence <
      (t.system.processor.rows j).commitSequence := by
    intro hlt
    simp only [earlierRowBlocks, decide_eq_false_iff_not] at hfirst
    exact hfirst ⟨k, hkj, hb, hpub.1, hpub.2, hlt⟩
  have hne : (t.system.processor.rows k).commitSequence ≠
      (t.system.processor.rows j).commitSequence := by
    intro hc
    obtain ⟨b, hbound⟩ := Option.ne_none_iff_exists'.mp (hsound.counted.bound j hpubi.1)
    obtain ⟨m, hm, hget⟩ := h.position j b hpubi hbound
    obtain ⟨m', hm', hget'⟩ := h.position k b hpub (hb.trans hbound)
    obtain rfl : m = m' := by omega
    rw [hget] at hget'
    have hserial := congrArg (Option.map Send.serial) hget'
    exact hkj (h.distinct k j hpub.1 hpubi.1 (by simpa using hserial.symm))
  omega

theorem commits_append (sends : List (Send β)) (send : Send β) (b : β) :
    (sends ++ [send]).filter (·.binding = b) =
      sends.filter (·.binding = b) ++ if send.binding = b then [send] else [] := by
  by_cases hb : send.binding = b <;> simp [hb]

theorem OrderSound.commit (h : OrderSound t) {b : β} (hi : t.system.processor.states i = .reserved)
    (hb : (t.system.processor.rows i).binding = some b)
    (hset : Settles t.system.processor s'.processor i .ready) (hrow : s'.processor.rows i =
      committedRow (t.system.processor.clocks b) now (t.system.processor.rows i))
    (hclocks : s'.processor.clocks = update t.system.processor.clocks b
      (nextSequence (t.system.processor.clocks b))) (hcancels : s'.cancels = t.system.cancels)
    {t' : Traced n β} (ht' : t' = { t with
      system := s'
      committed := t.committed ++
        [⟨t.serials i, b, min uint64Max (now + (t.system.processor.rows i).delayMs)⟩] })
    (hbounded : Bounded t') : OrderSound t' := by
  have htickets := tickets_of_frame hset.frame
  have hstate : ∀ j, j ≠ i → s'.processor.states j = t.system.processor.states j := fun j hj => by
    rw [hset.states, update_of_ne hj]
  have hself : s'.processor.states i = .ready := by rw [hset.states, update_self]
  have hgrow : ∀ c, t'.commits c = t.commits c ++ if b = c then
      [⟨t.serials i, b, (s'.processor.rows i).dueMs⟩] else [] := by
    intro c
    rw [ht', hrow]
    exact commits_append _ _ c
  have hroom : (t.commits b).length < uint64Max := by
    have := hbounded b
    rw [hgrow b, if_pos rfl, List.length_append, List.length_singleton] at this
    omega
  have hnumber : t.system.processor.clocks b = (t.commits b).length + 1 := by
    rcases h.clocks b with hc | hc
    · exact hc
    · omega
  have hseq : (s'.processor.rows i).commitSequence = (t.commits b).length + 1 := by
    rw [hrow]
    exact hnumber
  have hbinding : (s'.processor.rows i).binding = some b := by
    rw [hrow]
    exact hb
  have hnew : t.serials i ∉ t.committed.map (·.serial) := h.reserved i hi
  have hused : ∀ j, s'.processor.states j ≠ .free → t.system.processor.states j ≠ .free := by
    intro j hj
    by_cases hji : j = i
    · rw [hji, hi]
      exact RowState.noConfusion
    · rwa [← hstate j hji]
  have hother : ∀ j, s'.processor.states j ≠ .ready → j ≠ i := by
    rintro j hj rfl
    exact hj hself
  have hsystem : t'.system = s' := by rw [ht']
  have hserials : t'.serials = t.serials := by rw [ht']
  have hlt : ∀ j c, (t.system.processor.states j).published →
      (t.system.processor.rows j).binding = some c →
      (t.system.processor.rows j).commitSequence - 1 < (t.commits c).length := by
    intro j c hj hc
    obtain ⟨m, hm, hget⟩ := h.position j c hj hc
    have := (List.getElem?_eq_some_iff.mp hget).1
    omega
  refine ⟨fun j hj => ?_, fun j k hj hk heq => ?_, fun s hs => ?_, ?_, fun j hj => ?_,
    fun j c hj hc => ?_, fun c => ?_, fun c => ?_, fun j c hj hc => ?_,
    fun j k hj hkj hk hc => ?_, fun j hj => ?_, ?_, fun k hk => ?_, fun k hk j hj heq => ?_,
    ?_, fun e he => ?_⟩
  · rw [hsystem] at hj
    rw [ht']
    exact h.fresh j (hused j hj)
  · rw [hsystem] at hj hk
    rw [hserials] at heq
    exact h.distinct j k (hused j hj) (hused k hk) heq
  · rw [ht'] at hs ⊢
    rcases List.mem_append.mp hs with hs | hs
    · exact h.committedFresh s hs
    · rw [List.mem_singleton.mp hs]
      exact h.fresh i (by rw [hi]; exact RowState.noConfusion)
  · rw [ht']
    show ((t.committed ++ [_]).map _).Nodup
    rw [List.map_append]
    refine List.nodup_append.mpr ⟨h.committedOnce, List.nodup_singleton _, ?_⟩
    intro x hx y hy hxy
    obtain rfl := List.mem_singleton.mp hy
    subst hxy
    exact hnew hx
  · rw [hsystem] at hj
    have hji := hother j (by rw [hj]; exact RowState.noConfusion)
    rw [ht']
    show t.serials j ∉ (t.committed ++ [_]).map _
    rw [List.map_append, List.mem_append]
    rintro (hc | hc)
    · exact h.reserved j (hstate j hji ▸ hj) hc
    · have hsame : t.serials j = t.serials i := List.mem_singleton.mp hc
      refine hji (h.distinct j i ?_ ?_ hsame)
      · rw [← hstate j hji, hj]
        exact RowState.noConfusion
      · rw [hi]
        exact RowState.noConfusion
  · rw [hsystem] at hj hc ⊢
    rw [hserials, hgrow c]
    by_cases hji : j = i
    · subst hji
      rw [hbinding] at hc
      cases hc
      exact ⟨(t.commits b).length, hseq, by simp⟩
    · rw [hset.others j hji] at hc ⊢
      obtain ⟨m, hm, hget⟩ := h.position j c (by rw [← hstate j hji]; exact hj) hc
      refine ⟨m, hm, ?_⟩
      rw [List.getElem?_append_left (List.getElem?_eq_some_iff.mp hget).1]
      exact hget
  · rw [hsystem, hclocks, hgrow c]
    by_cases hc : c = b
    · subst hc
      rw [update_self, if_pos rfl, List.length_append, List.length_singleton, hnumber]
      unfold nextSequence
      split <;> omega
    · rw [update_of_ne hc, if_neg fun hcb => hc hcb.symm, List.append_nil]
      exact h.clocks c
  · rw [hgrow c, ht']
    exact (h.submitted c).trans (List.sublist_append_left _ _)
  · rw [hsystem] at hj hc ⊢
    rw [hgrow c]
    have hsame : t'.submissions c = t.submissions c := by rw [ht']; rfl
    rw [hsame]
    by_cases hji : j = i
    · subst hji
      rw [hbinding] at hc
      cases hc
      rw [hseq, Nat.add_sub_cancel, List.take_left]
      exact h.submitted b
    · rw [hset.others j hji] at hc ⊢
      have hj' := hj
      rw [hstate j hji] at hj'
      have hpub : (t.system.processor.states j).published := by
        rcases hj' with hj' | hj' <;> rw [hj'] <;>
          exact ⟨RowState.noConfusion, RowState.noConfusion⟩
      rw [List.take_append_of_le_length (hlt j c hpub hc).le]
      exact h.waiting j c hj' hc
  · rw [hsystem] at hj hk hc ⊢
    have hji := hother j (by rw [hj]; exact RowState.noConfusion)
    have hj' := hj
    rw [hstate j hji] at hj'
    rw [hset.others j hji] at hc ⊢
    by_cases hki : k = i
    · subst hki
      rw [hbinding] at hc
      have := hlt j b (by rw [hj']; exact ⟨RowState.noConfusion, RowState.noConfusion⟩) hc.symm
      omega
    · rw [hset.others k hki] at hc ⊢
      exact h.first j k hj' hkj (by rw [← hstate k hki]; exact hk) hc
  · rw [hsystem] at hj ⊢
    have hji := hother j (by rw [hj]; exact RowState.noConfusion)
    rw [hset.others j hji, ht']
    exact h.due j (hstate j hji ▸ hj)
  · rw [ht']
    exact h.submittedDue
  · rw [hsystem, hcancels] at hk
    rw [ht']
    exact h.cancelFresh k hk
  · rw [hsystem] at hk hj ⊢
    rw [hcancels] at hk
    have heq' : t.serials j = t.cancelSerials k := by
      rw [ht'] at heq
      exact heq
    rw [htickets]
    obtain ⟨htarget, hgeneration⟩ := h.target k hk j (hused j hj) heq'
    refine ⟨htarget, ?_⟩
    by_cases hji : j = i
    · subst hji
      rw [hrow]
      exact hgeneration
    · rw [hset.others j hji]
      exact hgeneration
  · rw [ht']
    exact h.cancelledFresh
  · have he' : e ∈ t.cancelled := by
      rw [ht'] at he
      exact he
    obtain ⟨hnot, hrest⟩ := h.cancelled e he'
    refine ⟨by rw [ht']; exact hnot, fun j hj => ?_⟩
    rw [hserials] at hj
    rw [hsystem]
    by_cases hji : j = i
    · subst hji
      exact absurd hi (hrest j hj).1
    · rw [hstate j hji]
      exact hrest j hj

theorem OrderSound.submit (h : OrderSound t) {b : β}
    (hi : t.system.processor.states i = .submitting)
    (hb : (t.system.processor.rows i).binding = some b)
    (hset : Settles t.system.processor s'.processor i .submitted)
    (hcancels : s'.cancels = t.system.cancels) : OrderSound { t with
      system := s'
      submitted := t.submitted ++
        [⟨⟨t.serials i, b, (t.system.processor.rows i).dueMs⟩, t.selectedMs⟩] } := by
  have htickets := tickets_of_frame hset.frame
  have hpubi : (t.system.processor.states i).published := RowState.waits.published (.inr hi)
  have hkeeps : Keeps t.system.processor s'.processor := by
    refine .of_settles hset hpubi ⟨RowState.noConfusion, RowState.noConfusion⟩ fun hwaits => ?_
    rcases hwaits with hwaits | hwaits <;> cases hwaits
  have hother : ∀ j, (s'.processor.states j).waits →
      j ≠ i ∧ s'.processor.states j = t.system.processor.states j := by
    intro j hj
    have hji : j ≠ i := by
      rintro rfl
      rw [hset.states, update_self] at hj
      rcases hj with hj | hj <;> cases hj
    exact ⟨hji, by rw [hset.states, update_of_ne hji]⟩
  have hsubmitting : ∀ j, s'.processor.states j = .submitting →
      t.system.processor.states j = .submitting := fun j hj => (hother j (.inr hj)).2 ▸ hj
  have hkept : OrderSound { t with system := s' } :=
    h.keep hkeeps (fun k hk => ⟨hcancels ▸ hk, by rw [htickets], by rw [htickets]⟩)
      (fun j k hj => h.first j k (hsubmitting j hj)) fun j hj => h.due j (hsubmitting j hj)
  obtain ⟨m, hm, hget⟩ := h.position i b hpubi hb
  have hgrow : ∀ c, ((t.submitted ++ [(⟨⟨t.serials i, b, (t.system.processor.rows i).dueMs⟩,
      t.selectedMs⟩ : Submission β)]).map (·.send)).filter (·.binding = c) =
        t.submissions c ++ if b = c then
          [⟨t.serials i, b, (t.system.processor.rows i).dueMs⟩] else [] := by
    intro c
    rw [List.map_append]
    exact commits_append _ _ c
  have hprefix : t.submissions b ++ [⟨t.serials i, b, (t.system.processor.rows i).dueMs⟩] <+
      (t.commits b).take (m + 1) := by
    rw [List.take_add_one, hget]
    have hwaiting := h.waiting i b (.inr hi) hb
    rw [hm, Nat.add_sub_cancel] at hwaiting
    exact hwaiting.append (List.Sublist.refl _)
  refine { hkept with
    submitted := fun c => ?_
    waiting := fun j c hj hc => ?_
    submittedDue := fun e he => ?_
    cancelled := fun e he => ⟨?_, (hkept.cancelled e he).2⟩ }
  · show List.filter _ _ <+ t.commits c
    rw [hgrow c]
    by_cases hc : b = c
    · subst hc
      rw [if_pos rfl]
      exact hprefix.trans (List.take_sublist _ _)
    · rw [if_neg hc, List.append_nil]
      exact h.submitted c
  · show List.filter _ _ <+ (t.commits c).take _
    rw [hgrow c]
    by_cases hcb : b = c
    · -- the request in hand is the earliest of its binding
      subst hcb
      obtain ⟨hji, hsame⟩ := hother j hj
      obtain ⟨hused, hcore, -⟩ := hkeeps.rows j (RowState.waits.published hj).1
      have hbinding : (t.system.processor.rows j).binding = some b :=
        (congrArg Prod.fst hcore).symm.trans hc
      have hseq : (s'.processor.rows j).commitSequence =
          (t.system.processor.rows j).commitSequence := congrArg (·.2.2.2.2.2) hcore
      have hlt := h.first i j hi hji (RowState.waits.published (hsame ▸ hj))
        (hbinding.trans hb.symm)
      rw [if_pos rfl, hseq]
      exact hprefix.trans (List.take_sublist_take_left (by omega))
    · rw [if_neg hcb, List.append_nil]
      exact hkept.waiting j c hj hc
  · rcases List.mem_append.mp he with he | he
    · exact h.submittedDue e he
    · rw [List.mem_singleton.mp he]
      exact h.due i hi
  · obtain ⟨hnot, hrest⟩ := h.cancelled e he
    show e ∉ (t.submitted ++ [_]).map _
    rw [List.map_append, List.mem_append]
    rintro (hc | hc)
    · exact hnot hc
    · exact (hrest i (List.mem_singleton.mp hc).symm).2.2 hi

theorem OrderSound.cancelCommit (h : OrderSound t) (hsound : Sound t.system)
    (hk : k ∈ t.system.cancels) {s' : System n β} (hpass : Passes t.system s')
    (hs' : s'.processor = t.system.processor.cancelCommit k) : OrderSound { t with
      system := s'
      cancelled := t.cancelled ++ [t.cancelSerials k].filter t.cancellable } := by
  refine (h.pass hpass).cancel fun e he => ?_
  obtain ⟨hmem, hcancellable⟩ := List.mem_filter.mp he
  obtain rfl := List.mem_singleton.mp hmem
  obtain ⟨hnot, hfree⟩ := of_decide_eq_true hcancellable
  refine ⟨h.cancelFresh k hk, hnot, fun i hi => ⟨fun hc => ?_, fun hc => ?_, fun hc => ?_⟩⟩
  · exact (hfree i hi).1 ((hpass.rows i
      (by rw [show s'.processor.states i = _ from hc]; exact RowState.noConfusion)).2.2.reserved.mpr hc)
  · have hc' : s'.processor.states i = .ready := hc
    have hused : s'.processor.states i ≠ .free := by rw [hc']; exact RowState.noConfusion
    rcases (hpass.rows i hused).2.2.ready hc' with hready | hsubmitting
    · obtain ⟨htarget, hgeneration⟩ := h.target k hk i (hpass.rows i hused).1 hi
      obtain ⟨j, hj, heq⟩ := cancelCommit_eq hsound hk
      rw [htarget] at hj
      cases hj
      rw [if_pos hgeneration] at heq
      have hready' : (t.system.processor.releaseCancel k).states i = .ready := hready
      have hcounted : Counted (t.system.processor.releaseCancel k) :=
        (releaseCancel_sound hsound hk).counted
      have hset := cancelRow_settles hcounted i
      rw [if_pos hready'] at hset
      rw [hs', heq, hset.states, update_self] at hc'
      cases hc'
    · exact (hfree i hi).2 hsubmitting
  · exact (hfree i hi).2 ((hpass.rows i
      (by rw [show s'.processor.states i = _ from hc]; exact RowState.noConfusion)).2.2.submitting hc)

theorem submitSelect_idle (hsound : Sound t.system)
    (hstep : t.system.step (.submitSelect now) = some s') (i : Fin n) :
    t.system.processor.states i ≠ .submitting := by
  intro hi
  have hidle := hstep
  simp only [System.step] at hidle
  split at hidle
  · rename_i hworker
    have hsubmits := (hsound.held i .submitting
      ⟨RowState.noConfusion, RowState.noConfusion⟩).mpr hi
    simp only [System.holds, hworker.1, Worker.submits] at hsubmits
    cases hsubmits
  · cases hidle

/-- **One step of the history.** -/
theorem OrderSound.step (h : OrderSound t) (hsound : Sound t.system) {a : Action n β}
    (hstep : t.system.step a = some s') (hbounded : Bounded (t.record s' a)) :
    OrderSound (t.record s' a) := by
  have hkind := (step_spec hsound hstep).kind
  cases hkind with
  | quiet hplain hpass =>
    cases a with
    | prepareSend b sendId delayMs =>
      obtain ⟨e, he⟩ := hplain
      simp only [Traced.record, he]
      exact h.pass hpass
    | commit now i =>
      have hnot : (s'.processor.rows i).state ≠ .ready := hplain
      simp only [Traced.record]
      split
      · rename_i hready
        exact absurd hready hnot
      · exact h.pass hpass
    | prepareCancel b sendId =>
      simp only [Traced.record]
      split
      · rename_i k hk
        exact absurd hk (hplain k)
      · exact h.pass hpass
    | cancelCommit k =>
      have hk : k ∈ t.system.cancels ∧ s'.processor = t.system.processor.cancelCommit k := by
        simp only [System.step] at hstep
        split at hstep
        · rename_i hk
          cases hstep
          exact ⟨hk, rfl⟩
        · cases hstep
      exact h.cancelCommit hsound hk.1 hpass hk.2
    | submitSelect now =>
      have hnone : ∀ i, s'.processor.states i ≠ .submitting := fun i hi =>
        submitSelect_idle hsound hstep i
          ((hpass.rows i (by rw [hi]; exact RowState.noConfusion)).2.2.submitting hi)
      exact { h.pass hpass with due := fun i hi => absurd hi (hnone i) }
    | submitAnswer status =>
      cases status with
      | ok request => exact absurd rfl (hplain request)
      | enobufs | other => exact h.pass hpass
    | _ => exact h.pass hpass
  | reserve b sendId delayMs i hi hresult hs' =>
    simp only [Traced.record, hresult, hs']
    exact h.reserve hsound b sendId delayMs hi
  | commit now i b hi hb hset hrow hclocks hcancels =>
    have hready : (s'.processor.rows i).state = .ready := by
      have := congrFun hset.states i
      rwa [update_self] at this
    simp only [Traced.record, hb, hready] at hbounded ⊢
    exact h.commit hi hb hset hrow hclocks hcancels rfl hbounded
  | prepareCancel b sendId i k hi hk hresult hs' =>
    simp only [Traced.record, hresult, hs', update_self]
    exact h.prepareCancel b sendId hi hk
  | select now i hi hactive hdue hfirst hset hworker hcancels =>
    exact h.select hsound (submitSelect_idle hsound hstep) hi hdue hfirst hset hcancels
  | submit request i hi hworker hset hidle hcancels =>
    obtain ⟨b, hb⟩ := Option.ne_none_iff_exists'.mp
      (hsound.counted.bound i (by rw [hi]; exact RowState.noConfusion))
    simp only [Traced.record, hworker, hb]
    exact h.submit hi hb hset hcancels

end Invariant

/-! ## The order of a run -/

section Run

variable [DecidableEq β] {t t' : Traced n β} {s' : System n β} {a : Action n β} {b : β}

theorem record_system (t : Traced n β) (s' : System n β) (a : Action n β) :
    (t.record s' a).system = s' := by
  unfold Traced.record
  repeat' split
  all_goals rfl

theorem record_committed (t : Traced n β) (s' : System n β) (a : Action n β) :
    t.committed <+: (t.record s' a).committed := by
  unfold Traced.record
  repeat' split
  all_goals first | exact List.prefix_append _ _ | exact List.prefix_rfl

theorem record_serials (h : ∀ b sendId delayMs, a ≠ .prepareSend b sendId delayMs) :
    (t.record s' a).serials = t.serials := by
  unfold Traced.record
  repeat' split
  all_goals first | rfl | exact absurd rfl (h _ _ _)

theorem record_submitted (h : ∀ request, a ≠ .submitAnswer (.ok request)) :
    (t.record s' a).submitted = t.submitted := by
  unfold Traced.record
  repeat' split
  all_goals first | rfl | exact absurd rfl (h _)

theorem Bounded.of_record (h : Bounded (t.record s' a)) : Bounded t := fun b =>
  (((record_committed t s' a).sublist.filter (·.binding = b)).length_le).trans (h b)

theorem Traced.step_eq_some (h : t.step a = some t') :
    t.system.step a = some t'.system ∧ t' = t.record t'.system a := by
  obtain ⟨s', hs, rfl⟩ := Option.map_eq_some_iff.mp h
  rw [record_system]
  exact ⟨hs, rfl⟩

theorem reachable_orderSound (h : t.Reachable) : Sound t.system ∧ (Bounded t → OrderSound t) := by
  refine h.invariant (P := fun t => Sound t.system ∧ (Bounded t → OrderSound t))
    (fun t ht => ?_) fun t a t' ⟨hsound, horder⟩ hstep => ?_
  · obtain rfl : t = Traced.init n β := ht
    exact ⟨init_sound, fun _ => init_orderSound⟩
  · obtain ⟨hs, heq⟩ := Traced.step_eq_some hstep
    refine ⟨(step_spec hsound hs).sound, fun hbounded => ?_⟩
    rw [heq] at hbounded ⊢
    exact (horder hbounded.of_record).step hsound hs hbounded

/-- After `t` the client gets no row of `b` that the worker did not have. -/
structure Sealed (t t' : Traced n β) (b : β) : Prop where
  closed : (t'.system.processor.bindings b).isOpen = false
  submitting : ∀ i, t'.system.processor.states i = .submitting →
    (t'.system.processor.rows i).binding = some b →
      t.system.processor.states i = .submitting ∧ t'.serials i = t.serials i
  submitted : ∀ e ∈ t'.submitted, e.send.binding = b → e ∈ t.submitted ∨
    ∃ i, t.system.processor.states i = .submitting ∧ t.serials i = e.send.serial

theorem submitting_of_settles {p q : Processor n β} {i j : Fin n} {state : RowState}
    (hset : Settles p q i state) (hi : state = .submitting → (q.rows i).binding ≠ some b)
    (hj : q.states j = .submitting) (hb : (q.rows j).binding = some b) :
    j ≠ i ∧ p.states j = .submitting ∧ (p.rows j).binding = some b := by
  have hji : j ≠ i := by
    rintro rfl
    rw [hset.states, update_self] at hj
    exact hi hj hb
  rw [hset.states, update_of_ne hji] at hj
  rw [hset.others j hji] at hb
  exact ⟨hji, hj, hb⟩

theorem Sealed.record {t₀ : Traced n β} (h : Sealed t₀ t b)
    (hclosed : (s'.processor.bindings b).isOpen = false)
    (hrows : ∀ j, s'.processor.states j = .submitting → (s'.processor.rows j).binding = some b →
      (t.system.processor.states j = .submitting ∧
        (t.system.processor.rows j).binding = some b) ∧
          (t.record s' a).serials j = t.serials j)
    (hsubmitted : ∀ e ∈ (t.record s' a).submitted, e.send.binding = b → e ∈ t.submitted ∨
      ∃ i, t₀.system.processor.states i = .submitting ∧ t₀.serials i = e.send.serial) :
    Sealed t₀ (t.record s' a) b := by
  have hsystem := record_system t s' a
  refine ⟨by rw [hsystem]; exact hclosed, fun j hj hb => ?_, fun e he hb => ?_⟩
  · rw [hsystem] at hj hb
    obtain ⟨⟨hstate, hbinding⟩, hserial⟩ := hrows j hj hb
    rw [hserial]
    exact h.submitting j hstate hbinding
  · exact (hsubmitted e he hb).elim (h.submitted e · hb) .inr

theorem Sealed.step {t₀ : Traced n β} (h : Sealed t₀ t b) (hsound : Sound t.system)
    (hstep : t.system.step a = some s') : Sealed t₀ (t.record s' a) b := by
  have hkind := (step_spec hsound hstep).kind
  have hkept : (∀ request, a ≠ .submitAnswer (.ok request)) → ∀ e ∈ (t.record s' a).submitted,
      e.send.binding = b → e ∈ t.submitted ∨
        ∃ i, t₀.system.processor.states i = .submitting ∧ t₀.serials i = e.send.serial :=
    fun ha e he _ => .inl (by rwa [record_submitted ha] at he)
  cases hkind with
  | quiet hplain hpass =>
    have hserials : (t.record s' a).serials = t.serials := by
      by_cases hprepare : ∃ b sendId delayMs, a = .prepareSend b sendId delayMs
      · obtain ⟨b, sendId, delayMs, rfl⟩ := hprepare
        obtain ⟨e, he⟩ := hplain
        simp only [Traced.record, he]
      · exact record_serials fun b sendId delayMs hc => hprepare ⟨b, sendId, delayMs, hc⟩
    refine h.record (hpass.closed b h.closed) (fun j hj hb => ?_) (hkept fun request hc => ?_)
    · obtain ⟨-, hcore, hfades⟩ := hpass.rows j (by rw [hj]; exact RowState.noConfusion)
      exact ⟨⟨hfades.submitting hj, (congrArg Prod.fst hcore).symm.trans hb⟩, by rw [hserials]⟩
    · subst hc
      exact hplain request rfl
  | reserve c sendId delayMs i hi hresult hs' =>
    subst hs'
    have hset := reserveRow_settles hsound.counted hi c sendId delayMs
    refine h.record ((isOpen_of_frame hset.frame b).trans h.closed) (fun j hj hb => ?_)
      (hkept (by simp))
    obtain ⟨hji, hold⟩ := submitting_of_settles hset (by rintro ⟨⟩) hj hb
    simp only [Traced.record, hresult, update_of_ne hji]
    exact ⟨hold, trivial⟩
  | commit now i c hi hc hset hrow hclocks hcancels =>
    refine h.record ((isOpen_of_frame hset.frame b).trans h.closed) (fun j hj hb => ?_)
      (hkept (by simp))
    exact ⟨(submitting_of_settles hset (by rintro ⟨⟩) hj hb).2, by rw [record_serials (by simp)]⟩
  | prepareCancel c sendId i k hi hk hresult hs' =>
    subst hs'
    exact h.record h.closed (fun j hj hb => ⟨⟨hj, hb⟩, by rw [record_serials (by simp)]⟩)
      (hkept (by simp))
  | select now i hi hactive hdue hfirst hset hworker hcancels =>
    have hcore := hset.core (by rw [hi]; exact RowState.noConfusion)
      (.inl (by rw [hi]; exact RowState.noConfusion)) RowState.noConfusion
    refine h.record ((isOpen_of_frame hset.frame b).trans h.closed) (fun j hj hb => ?_)
      (hkept (by simp))
    refine ⟨(submitting_of_settles hset (fun _ hb => ?_) hj hb).2, by rw [record_serials (by simp)]⟩
    -- the worker takes rows of ACTIVE bindings only
    have hb' := (congrArg Prod.fst hcore).symm.trans hb
    have hclosed := h.closed
    simp only [rowActive, show (t.system.processor.rows i).binding = some b from hb',
      beq_iff_eq] at hactive
    simp [Binding.isOpen, hactive] at hclosed
  | submit request i hi hworker hset hidle hcancels =>
    obtain ⟨c, hc⟩ := Option.ne_none_iff_exists'.mp
      (hsound.counted.bound i (by rw [hi]; exact RowState.noConfusion))
    refine h.record ((isOpen_of_frame hset.frame b).trans h.closed) (fun j hj hb => ?_)
      fun e he hb => ?_
    · exact ⟨(submitting_of_settles hset (by rintro ⟨⟩) hj hb).2, by rw [record_serials (by simp)]⟩
    · simp only [Traced.record, hworker, hc] at he
      rcases List.mem_append.mp he with he | he
      · exact .inl he
      · obtain rfl := List.mem_singleton.mp he
        obtain ⟨hstate, hserial⟩ := h.submitting i hi (by rw [hc, show c = b from hb])
        exact .inr ⟨i, hstate, hserial.symm⟩

theorem closed_submissions (h : Sound t.system)
    (hclosed : (t.system.processor.bindings b).isOpen = false)
    (hrun : Runs Traced.step t t') : Sealed t t' b := by
  refine (hrun.invariant (P := fun t' => Sound t'.system ∧ Sealed t t' b)
    (fun t₁ a t₂ ⟨hsound, hsealed⟩ hstep => ?_)
    ⟨h, hclosed, fun i hi _ => ⟨hi, rfl⟩, fun e he _ => .inl he⟩).2
  obtain ⟨hs, heq⟩ := Traced.step_eq_some hstep
  refine ⟨(step_spec hsound hs).sound, ?_⟩
  rw [heq]
  exact hsealed.step hsound hs

/-- Which requests the client gets. -/
structure SubmissionOrder (t : Traced n β) : Prop where
  /-- In commit order. -/
  ordered : ∀ b, t.submissions b <+ t.commits b
  once : (t.submitted.map (·.send.serial)).Nodup
  due : ∀ e ∈ t.submitted, e.send.dueMs ≤ e.selectedMs
  alone : ∀ request t', t.step (.submitAnswer (.ok request)) = some t' →
    ∃ e, t'.submitted = t.submitted ++ [e] ∧ ∀ before after,
      t.commits e.send.binding = before ++ e.send :: after → ∀ s ∈ before, ∀ i,
        t.system.processor.states i ≠ .free → t.serials i ≠ s.serial
  cancelled : ∀ e ∈ t.cancelled, e ∉ t.submitted.map (·.send.serial)
  closed : ∀ b, (t.system.processor.bindings b).isOpen = false → ∀ t', Runs Traced.step t t' →
    ∀ e ∈ t'.submitted, e.send.binding = b → e ∈ t.submitted ∨
      ∃ i, t.system.processor.states i = .submitting ∧ t.serials i = e.send.serial

theorem OrderSound.committed_of_submitted (h : OrderSound t) {e : Submission β}
    (he : e ∈ t.submitted) : e.send ∈ t.committed := by
  have hmem : e.send ∈ t.submissions e.send.binding :=
    List.mem_filter.mpr ⟨List.mem_map_of_mem he, by simp⟩
  exact (List.mem_filter.mp ((h.submitted _).subset hmem)).1

theorem OrderSound.once (h : OrderSound t) : (t.submitted.map (·.send.serial)).Nodup := by
  rw [List.nodup_iff_sublist]
  intro x htwice
  rw [← Function.comp_def Send.serial, ← List.map_map] at htwice
  obtain ⟨sends, hsends, heq⟩ := List.sublist_map_iff.mp htwice
  obtain ⟨u, v, rfl⟩ : ∃ u v, sends = [u, v] :=
    List.length_eq_two.mp (by simpa using (congrArg List.length heq).symm)
  obtain ⟨hu, hv⟩ : x = u.serial ∧ x = v.serial := by simpa using heq
  have hcommitted : ∀ w ∈ [u, v], w ∈ t.committed := by
    intro w hw
    obtain ⟨e, he, rfl⟩ := List.mem_map.mp (hsends.subset hw)
    exact h.committed_of_submitted he
  obtain rfl : u = v := List.inj_on_of_nodup_map h.committedOnce (hcommitted u (by simp))
    (hcommitted v (by simp)) (hu.symm.trans hv)
  have hbound : [u, u].filter (·.binding = u.binding) <+ t.commits u.binding :=
    Sublist.trans (Sublist.filter (fun s => decide (s.binding = u.binding)) hsends)
      (h.submitted u.binding)
  rw [List.filter_eq_self.mpr (by simp)] at hbound
  exact List.nodup_iff_sublist.mp h.committedOnce.of_map u (hbound.trans List.filter_sublist)

theorem OrderSound.alone (h : OrderSound t) (hsound : Sound t.system) {request : ℕ}
    (hstep : t.step (.submitAnswer (.ok request)) = some t') :
    ∃ e, t'.submitted = t.submitted ++ [e] ∧ ∀ before after,
      t.commits e.send.binding = before ++ e.send :: after → ∀ s ∈ before, ∀ i,
        t.system.processor.states i ≠ .free → t.serials i ≠ s.serial := by
  obtain ⟨hs, heq⟩ := Traced.step_eq_some hstep
  obtain ⟨i, hworker⟩ : ∃ i, t.system.worker = .submitting i := by
    simp only [System.step] at hs
    split at hs
    · exact ⟨_, ‹_›⟩
    · cases hs
  have hi := hsound.submitting (i := i) (by rw [hworker]; rfl)
  have hpub : (t.system.processor.states i).published := by
    rw [hi]
    exact ⟨RowState.noConfusion, RowState.noConfusion⟩
  obtain ⟨b, hb⟩ := Option.ne_none_iff_exists'.mp (hsound.counted.bound i hpub.1)
  refine ⟨⟨⟨t.serials i, b, (t.system.processor.rows i).dueMs⟩, t.selectedMs⟩, ?_, ?_⟩
  · rw [heq]
    simp only [Traced.record, hworker, hb]
  intro before after hsplit s hmem j hused hserial
  have honce : (t.commits b).Nodup := h.committedOnce.of_map.filter _
  obtain ⟨k, hk, hget⟩ := List.getElem_of_mem hmem
  have hlt : k < (t.commits b).length := by
    rw [hsplit, List.length_append]
    omega
  have hkth : (t.commits b)[k]? = some s := by
    rw [hsplit, List.getElem?_append_left hk, List.getElem?_eq_getElem hk, hget]
  have hcommitted : s ∈ t.committed := (List.mem_filter.mp (List.mem_of_getElem? hkth)).1
  by_cases hreserved : t.system.processor.states j = .reserved
  · refine h.reserved j hreserved ?_
    rw [hserial]
    exact List.mem_map_of_mem hcommitted
  · -- `j` carries `s`, so its commit number is the position of `s`
    obtain ⟨c, hc⟩ := Option.ne_none_iff_exists'.mp (hsound.counted.bound j hused)
    obtain ⟨m, hm, hmth⟩ := h.position j c ⟨hused, hreserved⟩ hc
    obtain ⟨l, hl, hlth⟩ := h.position i b hpub hb
    have hsame := List.inj_on_of_nodup_map h.committedOnce
      (List.mem_filter.mp (List.mem_of_getElem? hmth)).1 hcommitted hserial
    have hbound : s.binding = b := by
      simpa using (List.mem_filter.mp (List.mem_of_getElem? hkth)).2
    obtain rfl : c = b := by rw [← hbound, ← hsame]
    rw [hsame] at hmth
    have hkm : k = m := (List.getElem?_inj hlt honce).mp (hkth.trans hmth.symm)
    have hbefore : before.length < (t.commits c).length := by
      rw [hsplit, List.length_append, List.length_cons]
      omega
    have hlb : before.length = l := by
      refine (List.getElem?_inj hbefore honce).mp (Eq.trans ?_ hlth.symm)
      rw [hsplit, List.getElem?_append_right le_rfl, Nat.sub_self, List.getElem?_cons_zero]
    have hji : j ≠ i := by
      rintro rfl
      omega
    have := h.first i j hi hji ⟨hused, hreserved⟩ (hc.trans hb.symm)
    omega

/-- **Main.** As long as no commit number has wrapped around, the client gets the requests of a
binding in commit order, once, when due and alone, and none that was cancelled or closed before the
worker had it. -/
theorem reachable_submission_order (h : t.Reachable) (hbounded : Bounded t) :
    SubmissionOrder t := by
  obtain ⟨hsound, horder⟩ := reachable_orderSound h
  have h := horder hbounded
  exact ⟨h.submitted, h.once, h.submittedDue, fun request t' => h.alone hsound,
    fun e he => (h.cancelled e he).1,
    fun b hclosed t' hrun => (closed_submissions hsound hclosed hrun).submitted⟩

end Run

/-! ## A cancel that comes too late -/

def firstRow : Fin 2 := ⟨0, Nat.zero_lt_two⟩

def secondRow : Fin 2 := ⟨1, Nat.one_lt_two⟩

def stagedRun : List (Action 2 Unit) :=
  [.activate (), .prepareSend () ['x'] 0, .finishSend firstRow, .prepareCancel () ['x']]

def handedRun : List (Action 2 Unit) := stagedRun ++ [.commit 5 firstRow, .submitSelect 5]

def orderedRun : List (Action 2 Unit) :=
  handedRun ++ [.prepareSend () ['y'] 0, .finishSend secondRow, .commit 6 secondRow,
    .prepareCancel () ['y'], .cancelCommit secondRow, .submitAnswer (.ok 7), .close ()]

theorem stagedRun_isSome :
    (exec Traced.step (Traced.init 2 Unit) stagedRun).isSome = true := by decide

theorem handedRun_isSome :
    (exec Traced.step (Traced.init 2 Unit) handedRun).isSome = true := by decide

theorem orderedRun_isSome :
    (exec Traced.step (Traced.init 2 Unit) orderedRun).isSome = true := by decide

def stagedState : Traced 2 Unit :=
  (exec Traced.step (Traced.init 2 Unit) stagedRun).get stagedRun_isSome

def handedState : Traced 2 Unit :=
  (exec Traced.step (Traced.init 2 Unit) handedRun).get handedRun_isSome

def orderedState : Traced 2 Unit :=
  (exec Traced.step (Traced.init 2 Unit) orderedRun).get orderedRun_isSome

theorem orderedState_submission_order : SubmissionOrder orderedState :=
  reachable_submission_order
    (.runs (.of_init rfl) (exec_runs (Option.some_get orderedRun_isSome).symm))
    (by rintro ⟨⟩; decide)

def CancelFinal (t : Traced 2 Unit) : Prop :=
  ∀ k t' t'', t.step (.cancelCommit k) = some t' → Runs Traced.step t' t'' →
    t.cancelSerials k ∉ t.submitted.map (·.send.serial) →
      t.cancelSerials k ∉ t''.submitted.map (·.send.serial)

def CloseFinal (t : Traced 2 Unit) : Prop :=
  ∀ t' t'', t.step (.close ()) = some t' → Runs Traced.step t' t'' → t''.submitted = t.submitted

def lateCancel : Action 2 Unit := .cancelCommit firstRow

theorem stagedState_cancels : (stagedState.step lateCancel).isSome = true := by decide

theorem handedState_cancels : (handedState.step lateCancel).isSome = true := by decide

theorem handedState_closes : (handedState.step (.close ())).isSome = true := by decide

theorem cancelled_while_staged : (exec Traced.step ((stagedState.step lateCancel).get
    stagedState_cancels)
      [.commit 5 firstRow, .submitSelect 5, .submitAnswer (.ok 7)]).isSome = true := by
  decide

theorem cancelled_while_handed : (exec Traced.step ((handedState.step lateCancel).get
    handedState_cancels) [.submitAnswer (.ok 7)]).isSome = true := by decide

theorem closed_while_handed : (exec Traced.step ((handedState.step (.close ())).get
    handedState_closes) [.submitAnswer (.ok 7)]).isSome = true := by decide

theorem cancelled_is_submitted :
    (¬ ∀ t : Traced 2 Unit, t.Reachable → (∀ i, t.system.processor.states i ≠ .reserved) →
      CancelFinal t) ∧
    (¬ ∀ t : Traced 2 Unit, t.Reachable → (∀ i, t.system.processor.states i ≠ .submitting) →
      CancelFinal t) ∧
    ¬ ∀ t : Traced 2 Unit, t.Reachable → CloseFinal t := by
  have hstaged : stagedState.Reachable :=
    .runs (.of_init rfl) (exec_runs (Option.some_get stagedRun_isSome).symm)
  have hhanded : handedState.Reachable :=
    .runs (.of_init rfl) (exec_runs (Option.some_get handedRun_isSome).symm)
  refine ⟨fun hall => ?_, fun hall => ?_, fun hall => ?_⟩
  · have hfinal := hall handedState hhanded (by decide) firstRow _ _
      (Option.some_get handedState_cancels).symm
      (exec_runs (Option.some_get cancelled_while_handed).symm) (by decide)
    revert hfinal
    decide
  · have hfinal := hall stagedState hstaged (by decide) firstRow _ _
      (Option.some_get stagedState_cancels).symm
      (exec_runs (Option.some_get cancelled_while_staged).symm) (by decide)
    revert hfinal
    decide
  · have hfinal := hall handedState hhanded _ _ (Option.some_get handedState_closes).symm
      (exec_runs (Option.some_get closed_while_handed).symm)
    revert hfinal
    decide

end TurboScxml.Chttp
