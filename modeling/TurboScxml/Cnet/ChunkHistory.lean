import TurboScxml.Cnet.ChunkIngress

/-!
# The chunk ingress delivers what it received

* `hexText_injective`: the text of an event gives the chunk back;
* `Sound`: the events sent, the rows and the rows that `close` dropped are the chunks, in order;
* **`reachable_delivers`**, **`reachable_receives`**, **`quiescent_final`**.
-/

namespace TurboScxml.Cnet

open Machine

/-! ## Hex text -/

theorem hexDigit_injective {a b : ℕ} (ha : a < 16) (hb : b < 16)
    (h : Ingress.hexDigit a = Ingress.hexDigit b) : a = b := by
  have hall : ∀ a b : Fin 16, Ingress.hexDigit a = Ingress.hexDigit b → a = b := by decide
  exact congrArg Fin.val (hall ⟨a, ha⟩ ⟨b, hb⟩ h)

theorem hexText_injective : Function.Injective Ingress.hexText := by
  intro l
  induction l with
  | nil =>
    intro m h
    cases m with
    | nil => rfl
    | cons d m => cases h
  | cons c l ih =>
    intro m h
    cases m with
    | nil => cases h
    | cons d m =>
      simp only [Ingress.hexText, List.flatMap_cons, List.cons_append, List.nil_append,
        List.cons.injEq] at h
      obtain ⟨hhigh, hlow, hrest⟩ := h
      have hc := c.toNat_lt
      have hd := d.toNat_lt
      have hquot := hexDigit_injective (by omega) (by omega) hhigh
      have hmod := hexDigit_injective (Nat.mod_lt _ (by decide)) (Nat.mod_lt _ (by decide)) hlow
      have hbyte : c = d := UInt8.toNat_inj.mp (by omega)
      rw [hbyte, ih hrest]

theorem length_hexText (data : List UInt8) : (Ingress.hexText data).length = 2 * data.length := by
  induction data with
  | nil => rfl
  | cons c data ih =>
    simp only [Ingress.hexText, List.flatMap_cons, List.length_append] at ih ⊢
    simp only [ih, List.length_cons, List.length_nil]
    omega

namespace ChunkIngress

variable {cfg : ChunkConfig} {e e' : ChunkIngress cfg}

/-! ## What the calls do -/

def ledger (e : ChunkIngress cfg) : RingBuffer Text cfg.capacity × ℕ × Bool × ℕ × ℕ × ℕ :=
  (e.ring, e.peakPending, e.closed, e.received, e.delivered, e.cancelled)

@[simp] theorem markFailure_ledger (error : Status) : (e.markFailure error).ledger = e.ledger := by
  unfold markFailure
  split <;> rfl

@[simp] theorem markFailure_armed (error : Status) : (e.markFailure error).armed = e.armed := by
  unfold markFailure
  split <;> rfl

@[simp] theorem markFailure_rejectedFull (error : Status) :
    (e.markFailure error).rejectedFull = e.rejectedFull := by
  unfold markFailure
  split <;> rfl

inductive Receipt (e : ChunkIngress cfg) (data : List UInt8) : ChunkIngress cfg → Prop
  | refused {e' : ChunkIngress cfg} (ledger : e'.ledger = e.ledger)
      (armed : e'.armed = true → e.armed = true) (rejectedFull : e'.rejectedFull = e.rejectedFull) :
      Receipt e data e'
  | full {e' : ChunkIngress cfg} (ledger : e'.ledger = e.ledger) (unarmed : e'.armed = false)
      (armed : e.armed = true) (full : cfg.capacity ≤ e.ring.count) : Receipt e data e'
  | late (armed : e.armed = true) (closed : e.closed = true) :
      Receipt e data { e with armed := false, cancelled := e.cancelled + 1 }
  | stored (room : e.ring.count < cfg.capacity) (opened : e.closed = false)
      (fits : data.length ≤ cfg.maxChunkBytes) : Receipt e data { e with
        armed := false
        ring := e.ring.push (Ingress.hexText data) room
        received := e.received + 1
        peakPending := max e.peakPending (e.ring.count + 1) }

theorem onReceive_receipt (e : ChunkIngress cfg) (connection : Connection)
    (view : Ingress.ReceiveView) : Receipt e view.data (e.onReceive connection view) := by
  unfold onReceive
  split
  · exact .refused rfl id rfl
  split
  · exact .refused (by simp) (by simp) (by simp)
  rename_i harmed
  rw [Bool.not_eq_true', Bool.not_eq_false] at harmed
  dsimp only
  split
  · rename_i hclosed
    exact .late harmed hclosed
  rename_i hopened
  split
  · exact .refused (markFailure_ledger _) (by simp) (by simp)
  split
  · exact .refused (markFailure_ledger _) (by simp) (by simp)
  rename_i hsize
  split
  · rename_i room
    exact .stored room (by simpa using hopened) (by omega)
  · rename_i hfull
    exact .full (markFailure_ledger _) (by simp) harmed (by omega)

/-- What a drain did when `k` rows were taken. -/
structure Drained (e e' : ChunkIngress cfg) (left k : ℕ) (answers : ℕ → MailboxStatus)
    (status : Option MailboxStatus) : Prop where
  within : k ≤ left ∧ k ≤ e.ring.count
  rest : e'.ring.contents = e.ring.contents.drop k
  ledger : e'.ledger = (e'.ring, e.peakPending, e.closed, e.received, e.delivered + k, e.cancelled)
  armed : e'.armed = e.armed
  accepted : ∀ j < k, answers j = .ok
  all : status = none → k = left ∨ k = e.ring.count
  refused : ∀ answer, status = some answer → answer ≠ .ok ∧ answer = answers k ∧ k < e.ring.count

theorem drainLoop_drained (answers : ℕ → MailboxStatus) (left : ℕ) (e : ChunkIngress cfg)
    (sent : List SessionEvent) :
    ∃ e' k status, drainLoop answers left e sent
        = (e', sent ++ (e.ring.contents.take k).map (rowEvent cfg), status) ∧
      Drained e e' left k (fun k => answers (sent.length + k)) status := by
  induction left generalizing e sent with
  | zero =>
    exact ⟨e, 0, none, by simp [drainLoop], by simp, rfl, rfl, rfl, by simp, fun _ => .inl rfl,
      by simp⟩
  | succ left ih =>
    unfold drainLoop
    split_ifs with hempty
    · exact ⟨e, 0, none, by simp, by simp, rfl, rfl, rfl, by simp, fun _ => .inr hempty.symm,
        by simp⟩
    have hfirst := e.ring.contents_pop [] hempty
    have hcount : (e.ring.pop ([] : Text)).count + 1 = e.ring.count := by
      simp only [RingBuffer.pop]
      omega
    split
    · rename_i hok
      obtain ⟨e', k, status, hloop, hdrained⟩ := ih
        { e with ring := e.ring.pop [], delivered := e.delivered + 1 }
        (sent ++ [rowEvent cfg (e.ring.cells e.ring.head)])
      obtain ⟨hwithin, hrest, hledger, harmed, haccepted, hall, hrefused⟩ := hdrained
      dsimp only at hwithin
      have hshift (j : ℕ) : (sent ++ [rowEvent cfg (e.ring.cells e.ring.head)]).length + j
          = sent.length + (j + 1) := by
        rw [List.length_append, List.length_singleton, Nat.add_assoc, Nat.add_comm 1 j]
      refine ⟨e', k + 1, status, ?_, by omega, ?_, ?_, harmed, fun j hj => ?_, fun h => ?_,
        fun a h => ?_⟩
      · rw [hloop, hfirst]
        simp
      · rw [hrest, hfirst]
        rfl
      · rw [hledger]
        simp only [Nat.add_assoc, Nat.add_comm 1 k]
      · cases j with
        | zero => exact hok
        | succ j => exact hshift j ▸ haccepted j (Nat.lt_of_succ_lt_succ hj)
      · have hend := hall h
        dsimp only at hend
        omega
      · obtain ⟨hne, heq, hlt⟩ := hrefused a h
        dsimp only at hlt
        exact ⟨hne, heq.trans (congrArg answers (hshift k)), by omega⟩
    · rename_i hfull
      refine ⟨e, 0, some .full, by simp, by simp, rfl, rfl, rfl, by simp, by simp,
        fun a h => ?_⟩
      cases h
      exact ⟨by decide, hfull.symm, Nat.pos_of_ne_zero hempty⟩
    · rename_i hok _
      refine ⟨e.markFailure .eproto, 0, some (answers sent.length), by simp, by simp, ?_, ?_, ?_,
        by simp, by simp, fun a h => ?_⟩
      · unfold markFailure
        split <;> rfl
      · unfold markFailure
        split <;> rfl
      · exact markFailure_armed _
      · cases h
        exact ⟨hok, rfl, Nat.pos_of_ne_zero hempty⟩

end ChunkIngress

/-! ## What holds of the runs -/

namespace ChunkSystem

open ChunkIngress

variable {cfg : ChunkConfig} {s s' : ChunkSystem cfg}

def chunkEvent (cfg : ChunkConfig) (data : List UInt8) : SessionEvent :=
  rowEvent cfg (Ingress.hexText data)

structure Sound (s : ChunkSystem cfg) : Prop where
  ordered : ∃ dropped, s.sent ++ s.ingress.ring.contents.map (rowEvent cfg) ++ dropped
    = s.chunks.map (chunkEvent cfg) ∧ (s.ingress.closed = false → dropped = [])
  emptied : s.ingress.closed = true → s.ingress.ring.count = 0
  received : s.ingress.received = s.chunks.length
  delivered : s.ingress.delivered = s.sent.length
  uncancelled : s.ingress.closed = false → s.ingress.cancelled = 0
  cancelled : s.ingress.closed = true → ∃ late ≤ 1, (s.ingress.armed = true → late = 0) ∧
    s.ingress.received + late = s.ingress.delivered + s.ingress.cancelled
  room : s.ingress.armed = true → s.ingress.ring.count < cfg.capacity
  fits : ∀ row ∈ s.ingress.ring.contents, row.length ≤ 2 * cfg.maxChunkBytes
  peak : s.ingress.ring.count ≤ s.ingress.peakPending ∧ s.ingress.peakPending ≤ cfg.capacity

variable (h : Sound s)
include h

theorem Sound.keep {e : ChunkIngress cfg} (hledger : e.ledger = s.ingress.ledger)
    (harmed : e.armed = true → s.ingress.armed = true ∨
      s.ingress.closed = false ∧ s.ingress.ring.count < cfg.capacity) :
    Sound { s with ingress := e } := by
  simp only [ledger, Prod.mk.injEq] at hledger
  obtain ⟨hring, hpeak, hclosed, hreceived, hdelivered, hcancelled⟩ := hledger
  refine ⟨?_, ?_, ?_, ?_, ?_, ?_, ?_, ?_, ?_⟩
  all_goals dsimp only
  · rw [hring, hclosed]
    exact h.ordered
  · rw [hring, hclosed]
    exact h.emptied
  · exact hreceived.trans h.received
  · exact hdelivered.trans h.delivered
  · rw [hclosed, hcancelled]
    exact h.uncancelled
  · intro hc
    rw [hclosed] at hc
    obtain ⟨late, hlate, hnone, hsum⟩ := h.cancelled hc
    rw [hreceived, hdelivered, hcancelled]
    refine ⟨late, hlate, fun ha => (harmed ha).elim hnone fun ho => ?_, hsum⟩
    rw [ho.1] at hc
    cases hc
  · rw [hring]
    exact fun ha => (harmed ha).elim h.room fun ho => ho.2
  · rw [hring]
    exact h.fits
  · rw [hring, hpeak]
    exact h.peak

theorem Sound.bind (connection : Connection) :
    Sound { s with ingress := (s.ingress.bind connection).1 } := by
  refine h.keep ?_ fun ha => .inl ?_
  · unfold ChunkIngress.bind
    split_ifs <;> rfl
  · revert ha
    unfold ChunkIngress.bind
    split_ifs <;> exact id

theorem Sound.arm (answer : Status) : Sound { s with ingress := (s.ingress.arm answer).1 } := by
  unfold ChunkIngress.arm
  split_ifs with hbound hended hfailed hconnected harmed hfull
  · exact h
  · exact h
  · exact h
  · exact h
  · exact h
  · exact h.keep rfl .inl
  · simp only [Bool.or_eq_true, not_or, Bool.not_eq_true] at hended
    refine h.keep rfl fun _ => .inr ⟨hended.1, ?_⟩
    exact lt_of_le_of_ne s.ingress.ring.count_le hfull

theorem Sound.state (connection : Connection) (state : ConnectionState) :
    Sound { s with ingress := s.ingress.onState connection state } := by
  unfold ChunkIngress.onState
  split
  · exact h.keep rfl .inl
  · cases state with
    | connected => exact h.keep rfl .inl
    | closing => exact h.keep rfl .inl
    | closed => exact h.keep rfl fun ha => (by cases ha)
    | failed status => exact h.keep (markFailure_ledger _) fun ha => (by simp at ha)
    | other => exact h

theorem Sound.lengths (hopened : s.ingress.closed = false) :
    s.sent.length + s.ingress.ring.count = s.chunks.length := by
  obtain ⟨dropped, hordered, hnone⟩ := h.ordered
  have hlength := congrArg List.length hordered
  rw [hnone hopened] at hlength
  simpa using hlength

theorem Sound.receive {data : List UInt8} {e : ChunkIngress cfg}
    (hreceipt : s.ingress.Receipt data e) :
    Sound { s with
      ingress := e
      chunks := if e.received = s.ingress.received then s.chunks else s.chunks ++ [data] } := by
  cases hreceipt with
  | refused hledger harmed _ =>
    have hsame : e.received = s.ingress.received := by
      simp only [ledger, Prod.mk.injEq] at hledger
      exact hledger.2.2.2.1
    rw [if_pos hsame]
    exact h.keep hledger fun ha => .inl (harmed ha)
  | full hledger hunarmed harmed hfull => exact absurd (h.room harmed) (Nat.not_lt.mpr hfull)
  | late harmed hclosed =>
    rw [if_pos rfl]
    obtain ⟨late, -, hnone, hsum⟩ := h.cancelled hclosed
    refine ⟨h.ordered, h.emptied, h.received, h.delivered, fun hc => ?_, fun _ => ?_, fun hc => ?_,
      h.fits, h.peak⟩
    · rw [hclosed] at hc
      cases hc
    · refine ⟨1, le_rfl, fun hc => (by cases hc), ?_⟩
      have hzero := hnone harmed
      dsimp only
      omega
    · cases hc
  | stored room hopened hfits =>
    rw [if_neg (Nat.succ_ne_self _)]
    obtain ⟨dropped, hordered, hnone⟩ := h.ordered
    obtain rfl := hnone hopened
    rw [List.append_nil] at hordered
    refine ⟨⟨[], ?_, fun _ => rfl⟩, fun hc => ?_, ?_, h.delivered, h.uncancelled, fun hc => ?_,
      fun hc => ?_, ?_, ?_⟩
    · dsimp only
      rw [RingBuffer.contents_push, List.map_append, List.map_append, ← hordered, List.append_nil,
        List.append_assoc]
      rfl
    · rw [hopened] at hc
      cases hc
    · simp [h.received]
    · rw [hopened] at hc
      cases hc
    · cases hc
    · intro row hrow
      dsimp only at hrow
      rw [RingBuffer.contents_push, List.mem_append, List.mem_singleton] at hrow
      rcases hrow with hrow | rfl
      · exact h.fits row hrow
      · rw [length_hexText]
        omega
    · exact ⟨le_max_right _ _, max_le h.peak.2 room⟩

omit h

variable (maxEvents : ℕ) (answers : ℕ → MailboxStatus)

theorem drain_refused
    (h : maxEvents = 0 ∨ s.ingress.closed = true ∨ s.ingress.failed = true) :
    (s.ingress.drain maxEvents answers).1 = s.ingress ∧
      (s.ingress.drain maxEvents answers).2.1 = [] := by
  unfold ChunkIngress.drain
  split_ifs with hzero hclosed hfailed
  · exact ⟨rfl, rfl⟩
  · exact ⟨rfl, rfl⟩
  · exact ⟨rfl, rfl⟩
  · rcases h with h | h | h
    · exact absurd h hzero
    · exact absurd h hclosed
    · exact absurd h hfailed

theorem drain_drained (hmax : maxEvents ≠ 0) (hopened : s.ingress.closed = false)
    (hgo : s.ingress.failed = false) :
    ∃ e k status, s.ingress.drain maxEvents answers
        = (e, (s.ingress.ring.contents.take k).map (rowEvent cfg),
            status.getD (if k ≠ 0 then .ok else .empty)) ∧
      s.ingress.Drained e maxEvents k answers status := by
  obtain ⟨e, k, status, hloop, hdrained⟩ := drainLoop_drained answers maxEvents s.ingress []
  refine ⟨e, k, status, ?_, by simpa using hdrained⟩
  have hk := hdrained.within.2
  simp [ChunkIngress.drain, hmax, hopened, hgo, hloop, Nat.min_eq_left hk]

theorem Sound.drain (h : Sound s) :
    Sound { s with
      ingress := (s.ingress.drain maxEvents answers).1
      sent := s.sent ++ (s.ingress.drain maxEvents answers).2.1 } := by
  by_cases hrefused : maxEvents = 0 ∨ s.ingress.closed = true ∨ s.ingress.failed = true
  · obtain ⟨hsame, hnone⟩ := drain_refused maxEvents answers hrefused
    rw [hsame, hnone, List.append_nil]
    exact h
  simp only [not_or, Bool.not_eq_true] at hrefused
  obtain ⟨hmax, hopened, hgo⟩ := hrefused
  obtain ⟨e, k, status, hdrain, hdrained⟩ := drain_drained maxEvents answers hmax hopened hgo
  rw [hdrain]
  obtain ⟨⟨-, hk⟩, hrest, hledger, harmed, -, -, -⟩ := hdrained
  simp only [ledger, Prod.mk.injEq, true_and] at hledger
  obtain ⟨hpeak, hclosed, hreceived, hdelivered, hcancelled⟩ := hledger
  have hcount : e.ring.count = s.ingress.ring.count - k := by
    rw [← RingBuffer.length_contents, hrest, List.length_drop, RingBuffer.length_contents]
  obtain ⟨dropped, hordered, hnone⟩ := h.ordered
  refine ⟨⟨dropped, ?_, fun _ => hnone hopened⟩, ?_, hreceived.trans h.received, ?_, ?_, ?_, ?_, ?_,
    ?_⟩
  all_goals dsimp only
  · rw [hrest, List.append_assoc s.sent, ← List.map_append, List.take_append_drop]
    exact hordered
  · intro hc
    rw [hclosed, hopened] at hc
    cases hc
  · rw [hdelivered, h.delivered, List.length_append, List.length_map, List.length_take,
      RingBuffer.length_contents, Nat.min_eq_left hk]
  · intro _
    rw [hcancelled]
    exact h.uncancelled hopened
  · intro hc
    rw [hclosed, hopened] at hc
    cases hc
  · intro ha
    rw [harmed] at ha
    have hroom := h.room ha
    omega
  · rw [hrest]
    exact fun row hrow => h.fits row (List.mem_of_mem_drop hrow)
  · have hpeaks := h.peak
    rw [hpeak, hcount]
    omega

theorem Sound.close (h : Sound s) : Sound { s with ingress := s.ingress.close.1 } := by
  unfold ChunkIngress.close
  split
  · exact h
  · rename_i hopened
    rw [Bool.not_eq_true] at hopened
    obtain ⟨dropped, hordered, hnone⟩ := h.ordered
    obtain rfl := hnone hopened
    have hlengths := h.lengths hopened
    have hcancelled := h.uncancelled hopened
    have hreceived := h.received
    have hdelivered := h.delivered
    refine ⟨⟨s.ingress.ring.contents.map (rowEvent cfg), ?_, fun hc => (by cases hc)⟩,
      fun _ => rfl, hreceived, hdelivered, fun hc => (by cases hc), fun _ => ?_, fun _ => ?_,
      fun row hrow => ?_, ?_⟩
    · rw [← hordered, List.append_nil]
      simp [emptyRing, RingBuffer.contents]
    · refine ⟨0, Nat.zero_le 1, fun _ => rfl, ?_⟩
      dsimp only
      omega
    · exact s.ingress.ring.head.pos
    · simp [emptyRing, RingBuffer.contents] at hrow
    · exact ⟨Nat.zero_le _, h.peak.2⟩

/-- **One step.** -/
theorem Sound.step (h : Sound s) {a : ChunkAction} (hstep : s.step a = some s') : Sound s' := by
  cases a with
  | bind connection =>
    cases hstep
    exact h.bind connection
  | arm answer =>
    cases hstep
    exact h.arm answer
  | state connection state =>
    cases hstep
    exact h.state connection state
  | receive connection view =>
    cases hstep
    exact h.receive (onReceive_receipt s.ingress connection view)
  | drain maxEvents answers =>
    cases hstep
    exact h.drain maxEvents answers
  | close =>
    cases hstep
    exact h.close

theorem init_sound (h : cfg.accepted = true) : Sound (⟨.init cfg h, [], []⟩ : ChunkSystem cfg) where
  ordered := ⟨[], rfl, fun _ => rfl⟩
  emptied hc := by cases hc
  received := rfl
  delivered := rfl
  uncancelled _ := rfl
  cancelled hc := by cases hc
  room hc := by cases hc
  fits row hrow := by simp [init, emptyRing, RingBuffer.contents] at hrow
  peak := ⟨le_rfl, Nat.zero_le _⟩

theorem reachable_sound (h : Reachable s) : Sound s := by
  refine h.invariant (fun s hs => ?_) fun _ _ _ ht hstep => ht.step hstep
  obtain ⟨haccepted, rfl⟩ := hs
  exact init_sound haccepted

/-- The events sent are the oldest chunks, and a drain goes on with the next ones. -/
structure Delivers (s : ChunkSystem cfg) : Prop where
  ordered : ∃ dropped, s.sent ++ s.ingress.ring.contents.map (rowEvent cfg) ++ dropped
    = s.chunks.map (chunkEvent cfg) ∧ (s.ingress.closed = false → dropped = [])
  counted : s.ingress.received = s.chunks.length ∧ s.ingress.delivered = s.sent.length
  drained : ∀ maxEvents answers, maxEvents ≠ 0 → s.ingress.closed = false →
    s.ingress.failed = false → ∃ k ≤ maxEvents,
      (s.ingress.drain maxEvents answers).2.1 =
        (s.ingress.ring.contents.take k).map (rowEvent cfg) ∧
      (s.ingress.drain maxEvents answers).1.ring.contents = s.ingress.ring.contents.drop k ∧
      (∀ j < k, answers j = .ok) ∧
      (k < maxEvents → k < s.ingress.ring.count →
        answers k ≠ .ok ∧ (s.ingress.drain maxEvents answers).2.2 = answers k)

/-- **Main.** The Session gets the chunks that were received, each once and in order, as text that
determines the bytes. -/
theorem reachable_delivers (h : Reachable s) :
    Delivers s ∧ Function.Injective (chunkEvent cfg) := by
  have hsound := reachable_sound h
  refine ⟨⟨hsound.ordered, ⟨hsound.received, hsound.delivered⟩, ?_⟩, fun a b hab => ?_⟩
  · intro maxEvents answers hmax hopened hgo
    obtain ⟨e, k, status, hdrain, hdrained⟩ := drain_drained maxEvents answers hmax hopened hgo
    refine ⟨k, hdrained.within.1, by rw [hdrain], by rw [hdrain]; exact hdrained.rest,
      hdrained.accepted, ?_⟩
    intro hbudget hrows
    rw [hdrain]
    cases status with
    | none => rcases hdrained.all rfl with hk | hk <;> omega
    | some answer =>
      obtain ⟨hne, heq, -⟩ := hdrained.refused answer rfl
      exact ⟨heq ▸ hne, heq⟩
  · exact hexText_injective (SessionEvent.mk.inj hab).2

/-- **A credit is only given for a free row**: no callback finds the ring full. -/
theorem reachable_receives (h : Reachable s) :
    (s.ingress.armed = true → s.ingress.ring.count < cfg.capacity) ∧
    (∀ connection view,
      (s.ingress.onReceive connection view).rejectedFull = s.ingress.rejectedFull) ∧
    (∀ row ∈ s.ingress.ring.contents, row.length ≤ eventMetadataCapacity) ∧
    s.ingress.ring.count ≤ s.ingress.peakPending ∧ s.ingress.peakPending ≤ cfg.capacity := by
  have hsound := reachable_sound h
  obtain ⟨s₀, ⟨haccepted, -⟩, -⟩ := h
  simp only [ChunkConfig.accepted, Bool.and_eq_true, decide_eq_true_eq] at haccepted
  refine ⟨hsound.room, fun connection view => ?_, fun row hrow => ?_, hsound.peak⟩
  · have hreceipt := onReceive_receipt s.ingress connection view
    generalize s.ingress.onReceive connection view = e at hreceipt ⊢
    cases hreceipt with
    | refused _ _ hsame => exact hsame
    | full _ _ harmed hfull => exact absurd (hsound.room harmed) (Nat.not_lt.mpr hfull)
    | late _ _ => rfl
    | stored _ _ _ => rfl
  · have hrow' := hsound.fits row hrow
    omega

structure Settled (e e' : ChunkIngress cfg) : Prop where
  ledger : e'.ledger = e.ledger
  unarmed : e'.armed = e.armed
  bound : e'.bound = e.bound
  terminal : e.terminal = true → e'.terminal = true

theorem Settled.refl (e : ChunkIngress cfg) : Settled e e := ⟨rfl, rfl, rfl, id⟩

variable {e e' : ChunkIngress cfg}

theorem Settled.failure (h : Settled e e') (error : Status) : Settled e (e'.markFailure error) := by
  obtain ⟨hledger, hunarmed, hbound, hterminal⟩ := h
  refine ⟨(markFailure_ledger error).trans hledger, (markFailure_armed error).trans hunarmed,
    ?_, ?_⟩
  · rw [← hbound]
    unfold markFailure
    split <;> rfl
  · unfold markFailure
    split <;> exact hterminal

theorem Settled.quiescent (h : Settled e e') (hq : e.quiescent = true) : e'.quiescent = true := by
  obtain ⟨hledger, hunarmed, hbound, hterminal⟩ := h
  simp only [ChunkIngress.ledger, Prod.mk.injEq] at hledger
  simp only [ChunkIngress.quiescent, Bool.and_eq_true, Bool.or_eq_true] at hq ⊢
  rw [hledger.1, hledger.2.2.1, hunarmed, hbound]
  exact ⟨hq.1, hq.2.imp_right hterminal⟩

theorem quiescent_step (h : s.ingress.quiescent = true) {a : ChunkAction}
    (hstep : s.step a = some s') :
    Settled s.ingress s'.ingress ∧ s'.sent = s.sent ∧ s'.chunks = s.chunks := by
  simp only [quiescent, Bool.and_eq_true, Bool.not_eq_true'] at h
  obtain ⟨⟨⟨hclosed, harmed⟩, -⟩, -⟩ := h
  cases a with
  | bind connection =>
    cases hstep
    refine ⟨?_, rfl, rfl⟩
    simp only [ChunkIngress.bind, hclosed, Bool.or_true, if_true]
    split <;> exact .refl _
  | arm answer =>
    cases hstep
    refine ⟨?_, rfl, rfl⟩
    simp only [ChunkIngress.arm, hclosed, Bool.true_or, if_true]
    split <;> exact .refl _
  | state connection state =>
    cases hstep
    refine ⟨?_, rfl, rfl⟩
    dsimp only
    unfold onState
    split
    · exact ⟨rfl, rfl, rfl, id⟩
    · cases state with
      | connected => exact ⟨rfl, rfl, rfl, id⟩
      | closing => exact ⟨rfl, rfl, rfl, id⟩
      | closed => exact ⟨rfl, harmed.symm, rfl, fun _ => rfl⟩
      | failed status =>
        refine Settled.failure ?_ _
        exact ⟨rfl, harmed.symm, rfl, fun _ => rfl⟩
      | other => exact .refl _
  | receive connection view =>
    have hsettled : Settled s.ingress (s.ingress.onReceive connection view) := by
      simp only [onReceive, harmed, Bool.not_false, if_true]
      split
      · exact ⟨rfl, rfl, rfl, id⟩
      · exact (Settled.refl _).failure _
    have hreceived := congrArg (·.2.2.2.1) hsettled.ledger
    cases hstep
    exact ⟨hsettled, rfl, if_pos hreceived⟩
  | drain maxEvents answers =>
    cases hstep
    obtain ⟨hsame, hnone⟩ := drain_refused maxEvents answers (.inr (.inl hclosed))
    dsimp only
    rw [hsame, hnone, List.append_nil]
    exact ⟨.refl _, rfl, rfl⟩
  | close =>
    cases hstep
    refine ⟨?_, rfl, rfl⟩
    simp only [ChunkIngress.close, hclosed, if_true]
    exact .refl _

/-- **Quiescence is final**, and every received chunk was sent or is counted as cancelled. -/
theorem quiescent_final (h : Reachable s) (hq : s.ingress.quiescent = true)
    (hrun : Runs step s s') :
    s'.ingress.quiescent = true ∧ s'.ingress.ledger = s.ingress.ledger ∧ s'.sent = s.sent ∧
      s'.chunks = s.chunks ∧ ∃ late ≤ 1,
        s'.ingress.received + late = s'.sent.length + s'.ingress.cancelled := by
  have hsound := reachable_sound h
  have hsame : s'.ingress.quiescent = true ∧ s'.ingress.ledger = s.ingress.ledger ∧
      s'.sent = s.sent ∧ s'.chunks = s.chunks := by
    refine hrun.invariant (P := fun t => t.ingress.quiescent = true ∧
      t.ingress.ledger = s.ingress.ledger ∧ t.sent = s.sent ∧ t.chunks = s.chunks) ?_
      ⟨hq, rfl, rfl, rfl⟩
    rintro t a t' ⟨ht, hledger, hsent, hchunks⟩ hstep
    obtain ⟨hsettled, hsent', hchunks'⟩ := quiescent_step ht hstep
    exact ⟨hsettled.quiescent ht, hsettled.ledger.trans hledger, hsent'.trans hsent,
      hchunks'.trans hchunks⟩
  obtain ⟨hq', hledger, hsent, hchunks⟩ := hsame
  refine ⟨hq', hledger, hsent, hchunks, ?_⟩
  simp only [ledger, Prod.mk.injEq] at hledger
  obtain ⟨-, -, -, hreceived, -, hcancelled⟩ := hledger
  simp only [quiescent, Bool.and_eq_true] at hq
  obtain ⟨late, hlate, -, hsum⟩ := hsound.cancelled hq.1.1.1
  exact ⟨late, hlate, by rw [hreceived, hsent, hcancelled, hsum, hsound.delivered]⟩

/-! ## A run to the end -/

def sampleChunks : ChunkConfig := ⟨['e'], 2, 4⟩

theorem sampleChunks_accepted : sampleChunks.accepted = true := by decide

def sampleStart : ChunkSystem sampleChunks := ⟨.init sampleChunks sampleChunks_accepted, [], []⟩

/-- Two chunks, of which the mailbox takes one, and a credit for the next. -/
def sampleOpening : List ChunkAction :=
  [.bind ⟨0, 1⟩, .state ⟨0, 1⟩ .connected, .arm .ok, .receive ⟨0, 1⟩ ⟨true, [0xAB]⟩, .arm .ok,
    .receive ⟨0, 1⟩ ⟨true, [0xCD, 0x01]⟩, .drain 2 fun k => if k = 0 then .ok else .full, .arm .ok]

theorem sampleOpening_isSome : (Machine.exec step sampleStart sampleOpening).isSome = true := by
  decide

def sampleArmed : ChunkSystem sampleChunks :=
  (Machine.exec step sampleStart sampleOpening).get sampleOpening_isSome

theorem sampleArmed_reachable : Reachable sampleArmed :=
  (Machine.Reachable.of_init ⟨sampleChunks_accepted, rfl⟩).runs
    (Machine.exec_runs (Option.some_get _).symm)

/-- The close drops a row, and the callback of the credit comes after it. -/
def sampleClosing : List ChunkAction :=
  [.close, .receive ⟨0, 1⟩ ⟨true, [0xEF]⟩, .state ⟨0, 1⟩ .closed]

theorem sampleClosing_isSome : (Machine.exec step sampleArmed sampleClosing).isSome = true := by
  decide

def sampleEnd : ChunkSystem sampleChunks :=
  (Machine.exec step sampleArmed sampleClosing).get sampleClosing_isSome

theorem sampleEnd_reachable : Reachable sampleEnd :=
  sampleArmed_reachable.runs (Machine.exec_runs (Option.some_get _).symm)

def sampleAfter : List ChunkAction :=
  [.receive ⟨0, 1⟩ ⟨true, [0xEF]⟩, .drain 3 fun _ => .ok, .arm .ok, .bind ⟨1, 1⟩, .close,
    .state ⟨0, 1⟩ (.failed none)]

theorem sampleAfter_isSome : (Machine.exec step sampleEnd sampleAfter).isSome = true := by decide

def sampleLater : ChunkSystem sampleChunks :=
  (Machine.exec step sampleEnd sampleAfter).get sampleAfter_isSome

theorem sampleLater_run : Machine.Runs step sampleEnd sampleLater :=
  Machine.exec_runs (Option.some_get _).symm

theorem reachable_delivers_sample :
    (sampleArmed.sent = [⟨['e'], ['a', 'b']⟩] ∧
      sampleArmed.ingress.ring.contents = [['c', 'd', '0', '1']] ∧ Delivers sampleArmed) ∧
    (sampleEnd.chunks.length = 2 ∧ sampleEnd.ingress.ring.contents = [] ∧ Delivers sampleEnd) ∧
    Function.Injective (chunkEvent sampleChunks) :=
  ⟨⟨by decide, by decide, (reachable_delivers sampleArmed_reachable).1⟩,
    ⟨by decide, by decide, (reachable_delivers sampleEnd_reachable).1⟩,
    (reachable_delivers sampleArmed_reachable).2⟩

theorem reachable_receives_sample :
    sampleArmed.ingress.armed = true ∧ sampleArmed.ingress.ring.count = 1 ∧
    sampleArmed.ingress.ring.count < sampleChunks.capacity ∧
    (∀ connection view, (sampleArmed.ingress.onReceive connection view).rejectedFull
      = sampleArmed.ingress.rejectedFull) ∧
    (∀ row ∈ sampleArmed.ingress.ring.contents, row.length ≤ eventMetadataCapacity) ∧
    sampleArmed.ingress.ring.count ≤ sampleArmed.ingress.peakPending ∧
    sampleArmed.ingress.peakPending ≤ sampleChunks.capacity := by
  obtain ⟨hroom, hrest⟩ := reachable_receives sampleArmed_reachable
  exact ⟨by decide, by decide, hroom (by decide), hrest⟩

theorem quiescent_final_sample :
    (sampleLater.ingress.staleCallbacks = 0 ∧ sampleLater.ingress.failed = true) ∧
    sampleLater.ingress.quiescent = true ∧ sampleLater.ingress.ledger = sampleEnd.ingress.ledger ∧
    sampleLater.sent = sampleEnd.sent ∧ sampleLater.chunks = sampleEnd.chunks ∧
    ∃ late ≤ 1, sampleLater.ingress.received + late
      = sampleLater.sent.length + sampleLater.ingress.cancelled :=
  ⟨by decide, quiescent_final sampleEnd_reachable (by decide) sampleLater_run⟩

end ChunkSystem

end TurboScxml.Cnet
