import TurboScxml.Cnet.FrameDecoding

/-!
# The frame ingress decodes the stream

However the stream is cut into chunks, and wherever the decoder is suspended, the events enqueued
are the frames that the whole stream decodes to, in order.

* `decoded`: what the bytes received so far decode to, in one go;
* **`reachable_decodes`**: what every reachable state has enqueued, and what the next call does.
-/

namespace TurboScxml.Cnet

open Machine Framing

namespace IngressSystem

open Ingress

variable {cfg : IngressConfig} {s s' : IngressSystem cfg}

def decoded (s : IngressSystem cfg) : List (List UInt8) × Tail :=
  Framing.decode cfg.maxFrameBytes s.received

/-- Where the ingress is behind the `accepted` frames. -/
inductive Stage (s : IngressSystem cfg) (accepted : List (List UInt8)) : Prop
  | running (opened : s.ingress.closed = false) (failed : s.ingress.failed = false)
      (holds : Holds s.ingress accepted s.received)
  | failed (opened : s.ingress.closed = false) (failed : s.ingress.failed = true) (tail : Tail)
      (decoded : s.decoded = (accepted, tail))
      (reports : Reports s.ingress.terminal tail s.ingress.firstError)
  | closed (closed : s.ingress.closed = true) (rest : List (List UInt8))
      (decoded : s.decoded.1 = accepted ++ rest)

structure Tracked (s : IngressSystem cfg) : Prop where
  enqueued : ∃ accepted, s.enqueued = accepted.map (frameEvent cfg) ∧ Stage s accepted
  armed : s.ingress.armed = true → s.ingress.chunk = [] ∧ s.ingress.chunkPos = 0 ∧
    s.ingress.terminal = false ∧ s.ingress.failed = false

theorem init_tracked : Tracked (init cfg) where
  enqueued := ⟨[], rfl, .running rfl rfl ⟨.start rfl rfl rfl, by simp, le_refl 0, rfl⟩⟩
  armed h := by cases h

variable {accepted : List (List UInt8)}

theorem Stage.frames (h : Stage s accepted) : ∃ rest, s.decoded.1 = accepted ++ rest := by
  cases h with
  | running _ _ holds => exact ⟨_, congrArg Prod.fst holds.decode⟩
  | failed _ _ tail decoded _ => exact ⟨[], by rw [decoded, List.append_nil]⟩
  | closed _ rest decoded => exact ⟨rest, decoded⟩

theorem Stage.keep (h : Stage s accepted) (hwork : s'.ingress.work = s.ingress.work)
    (hreceived : s'.received = s.received) (hclosed : s'.ingress.closed = s.ingress.closed)
    (hfailed : s'.ingress.failed = s.ingress.failed)
    (herror : s'.ingress.firstError = s.ingress.firstError)
    (hterminal : s.ingress.terminal = true → s'.ingress.terminal = true) : Stage s' accepted := by
  have hdecoded : s'.decoded = s.decoded := by rw [decoded, decoded, hreceived]
  cases h with
  | running opened failed holds =>
    exact .running (hclosed.trans opened) (hfailed.trans failed) (hreceived ▸ holds.congr hwork)
  | failed opened failed tail decoded reports =>
    refine .failed (hclosed.trans opened) (hfailed.trans failed) tail (hdecoded.trans decoded) ?_
    rw [herror]
    generalize s.ingress.firstError = error at reports
    cases reports with
    | zero rest => exact .zero rest
    | oversized expected rest => exact .oversized expected rest
    | truncated _ htail ended => exact .truncated tail htail (hterminal ended)
  | closed closed rest decoded =>
    exact .closed (hclosed.trans closed) rest (hdecoded ▸ decoded)

variable (h : Tracked s)
include h

theorem Tracked.keep (hwork : s'.ingress.work = s.ingress.work)
    (hreceived : s'.received = s.received) (henqueued : s'.enqueued = s.enqueued)
    (hclosed : s'.ingress.closed = s.ingress.closed)
    (hfailed : s'.ingress.failed = s.ingress.failed)
    (herror : s'.ingress.firstError = s.ingress.firstError)
    (hterminal : s.ingress.terminal = true → s'.ingress.terminal = true)
    (harmed : s'.ingress.armed = true → s.ingress.armed = true ∧ s'.ingress.terminal = false) :
    Tracked s' := by
  obtain ⟨accepted, heq, hstage⟩ := h.enqueued
  refine ⟨⟨accepted, henqueued.trans heq,
    hstage.keep hwork hreceived hclosed hfailed herror hterminal⟩, fun ha => ?_⟩
  obtain ⟨harmed', hended⟩ := harmed ha
  obtain ⟨hchunk, hpos, -, hgo⟩ := h.armed harmed'
  simp only [work, Prod.mk.injEq] at hwork
  exact ⟨hwork.2.2.2.2.trans hchunk, hwork.2.2.2.1.trans hpos, hended, hfailed.trans hgo⟩

theorem Tracked.terminal_false (harmed : s.ingress.armed = true) :
    s.ingress.armed = true ∧ s.ingress.terminal = false :=
  ⟨harmed, (h.armed harmed).2.2.1⟩

theorem bind_tracked (connection : Connection) :
    Tracked { s with ingress := (s.ingress.bind connection).1 } := by
  unfold Ingress.bind
  split
  · exact h
  split
  · exact h
  · exact h.keep rfl rfl rfl rfl rfl rfl id h.terminal_false

theorem arm_tracked (answer : Status) : Tracked { s with ingress := (s.ingress.arm answer).1 } := by
  unfold Ingress.arm
  split
  · exact h
  split
  · exact h
  split
  · exact h
  split
  · exact h
  split
  · exact h
  split
  · exact h
  · rename_i hended hgo _ _ hempty
    simp only [Bool.or_eq_true, not_or, Bool.not_eq_true] at hended hgo hempty
    have hchunk : s.ingress.chunk = [] := by simpa using hempty.1
    obtain ⟨accepted, heq, hstage⟩ := h.enqueued
    refine ⟨⟨accepted, heq, hstage.keep rfl rfl rfl rfl rfl id⟩, fun _ => ⟨hchunk, ?_, hended.2,
      hgo⟩⟩
    cases hstage with
    | running _ _ holds => exact holds.chunkPos_eq hchunk
    | failed _ failed _ _ _ =>
      rw [hgo] at failed
      cases failed
    | closed closed _ _ =>
      rw [hended.1] at closed
      cases closed

theorem onState_tracked (connection : Connection) (state : ConnectionState)
    (hstate : ∀ status, state ≠ .failed status) :
    Tracked { s with ingress := s.ingress.onState connection state } := by
  unfold Ingress.onState
  split
  · exact h.keep rfl rfl rfl rfl rfl rfl id h.terminal_false
  · cases state with
    | connected => exact h.keep rfl rfl rfl rfl rfl rfl id h.terminal_false
    | closing => exact h.keep rfl rfl rfl rfl rfl rfl id h.terminal_false
    | other => exact h
    | closed => exact h.keep rfl rfl rfl rfl rfl rfl (fun _ => rfl) fun hc => absurd hc (by simp)
    | failed status => exact absurd rfl (hstate status)

variable {connection : Connection}

theorem receive_tracked {data : List UInt8}
    (hbound : s.ingress.isBoundTo connection = true) (harmed : s.ingress.armed = true)
    (hdata : data ≠ []) (hsize : data.length ≤ cfg.maxReceiveBytes) :
    Tracked { s with
      ingress := s.ingress.onReceive connection ⟨true, data⟩
      received := if s.ingress.closed then s.received else s.received ++ data } := by
  obtain ⟨hchunk, hpos, hterminal, hgo⟩ := h.armed harmed
  obtain ⟨accepted, heq, hstage⟩ := h.enqueued
  unfold Ingress.onReceive
  rw [if_neg (by simp [hbound]), if_neg (by simp [harmed])]
  dsimp only
  cases hstage with
  | running opened failed holds =>
    rw [if_neg (by simp [opened]), if_neg (by simp [hdata]), if_neg (by omega),
      if_neg (by simp [hchunk, hpos]), if_neg (by simp [opened])]
    refine ⟨⟨accepted, heq, .running opened failed
      ⟨holds.progress.congr rfl rfl rfl, holds.fits, Nat.zero_le _, ?_⟩⟩, fun hc => absurd hc (by simp)⟩
    rw [holds.stream]
    simp [buffered, hchunk]
  | failed opened failed tail decoded reports =>
    rw [hgo] at failed
    cases failed
  | closed closed rest decoded =>
    rw [if_pos closed, if_pos closed]
    exact ⟨⟨accepted, heq, .closed closed rest decoded⟩, fun hc => absurd hc (by simp)⟩

omit h

theorem onReceive_stale (hbound : ¬ s.ingress.isBoundTo connection = true)
    (view : Ingress.ReceiveView) :
    s.ingress.onReceive connection view = s.ingress.stale := by
  unfold Ingress.onReceive
  rw [if_pos (by simpa using hbound)]

variable {maxFrames : ℕ}

theorem process_refused (answers : ℕ → Status)
    (hrefused : maxFrames = 0 ∨ s.ingress.closed = true ∨ s.ingress.failed = true) :
    (s.ingress.process maxFrames answers).1 = s.ingress ∧
      (s.ingress.process maxFrames answers).2.1 = [] := by
  unfold Ingress.process
  split
  · exact ⟨rfl, rfl⟩
  split
  · exact ⟨rfl, rfl⟩
  split
  · exact ⟨rfl, rfl⟩
  · rename_i hzero hclosed hfailed
    rcases hrefused with hc | hc | hc
    · exact absurd hc hzero
    · exact absurd hc hclosed
    · exact absurd hc hfailed

theorem process_tracked (h : Tracked s) (maxFrames : ℕ) (full : ℕ → Bool) :
    Tracked { s with
      ingress := (s.ingress.process maxFrames (hostAnswers full)).1
      enqueued := s.enqueued ++ (s.ingress.process maxFrames (hostAnswers full)).2.1 } := by
  by_cases hrefused : maxFrames = 0 ∨ s.ingress.closed = true ∨ s.ingress.failed = true
  · obtain ⟨hsame, hnone⟩ := process_refused (hostAnswers full) hrefused
    rw [hsame, hnone, List.append_nil]
    exact h
  · simp only [not_or, Bool.not_eq_true] at hrefused
    obtain ⟨hmax, hopened, hgo⟩ := hrefused
    obtain ⟨accepted, heq, hstage⟩ := h.enqueued
    cases hstage with
    | failed _ failed _ _ _ =>
      rw [hgo] at failed
      cases failed
    | closed closed _ _ =>
      rw [hopened] at closed
      cases closed
    | running opened failed holds =>
      obtain ⟨published, hpublished, hline, hend⟩ :=
        process_end full holds failed opened hmax
      rw [hpublished, heq, ← List.map_append]
      simp only [line, Prod.mk.injEq] at hline
      obtain ⟨-, -, harmed, hterminal, hclosed⟩ := hline
      have hidle := process_idle maxFrames full (e := s.ingress)
      generalize s.ingress.process maxFrames (hostAnswers full) = result at *
      obtain ⟨e', events, status⟩ := result
      dsimp only at *
      have hcredit : e'.armed = true → e'.chunk = [] ∧ e'.terminal = false ∧ e'.failed = false := by
        intro ha
        obtain ⟨hchunk, -, hended, -⟩ := h.armed (harmed.symm.trans ha)
        obtain ⟨hnil, hgo'⟩ := hidle hchunk hended failed hterminal
        exact ⟨hnil, hterminal.trans hended, hgo'⟩
      cases hend with
      | ok holds' failed' _ _ =>
        refine ⟨⟨_, rfl, .running (hclosed.trans opened) failed' holds'⟩, fun ha => ?_⟩
        obtain ⟨hnil, hended, hgo'⟩ := hcredit ha
        exact ⟨hnil, holds'.chunkPos_eq hnil, hended, hgo'⟩
      | refused holds' failed' _ _ =>
        refine ⟨⟨_, rfl, .running (hclosed.trans opened) failed' holds'⟩, fun ha => ?_⟩
        obtain ⟨hnil, hended, hgo'⟩ := hcredit ha
        exact ⟨hnil, holds'.chunkPos_eq hnil, hended, hgo'⟩
      | error tail failed' _ decoded reports =>
        refine ⟨⟨_, rfl, .failed (hclosed.trans opened) failed' tail decoded
          (hterminal ▸ reports)⟩, fun ha => ?_⟩
        rw [(hcredit ha).2.2] at failed'
        cases failed'

theorem close_tracked (h : Tracked s) : Tracked { s with ingress := s.ingress.close.1 } := by
  unfold Ingress.close
  split
  · exact h
  · obtain ⟨accepted, heq, hstage⟩ := h.enqueued
    obtain ⟨rest, hrest⟩ := hstage.frames
    refine ⟨⟨accepted, heq, .closed rfl rest hrest⟩, fun ha => ?_⟩
    obtain ⟨-, -, hended, hgo⟩ := h.armed ha
    exact ⟨rfl, rfl, hended, hgo⟩

/-- **One step.** -/
theorem step_tracked (h : Tracked s) {a : IngressAction} (hstep : s.step a = some s') :
    Tracked s' := by
  cases a with
  | bind connection =>
    cases hstep
    exact bind_tracked h connection
  | arm answer =>
    cases hstep
    exact arm_tracked h answer
  | connected connection =>
    cases hstep
    exact onState_tracked h connection .connected fun _ => by simp
  | closing connection =>
    cases hstep
    exact onState_tracked h connection .closing fun _ => by simp
  | closed connection =>
    cases hstep
    exact onState_tracked h connection .closed fun _ => by simp
  | receive connection data =>
    simp only [step] at hstep
    split at hstep
    · rename_i hbound
      split at hstep
      · rename_i hcredit
        cases hstep
        exact receive_tracked h hbound hcredit.1 hcredit.2.1 hcredit.2.2
      · cases hstep
    · rename_i hbound
      cases hstep
      rw [onReceive_stale hbound]
      exact h.keep rfl rfl rfl rfl rfl rfl id h.terminal_false
  | process maxFrames full =>
    cases hstep
    exact process_tracked h maxFrames full
  | close =>
    cases hstep
    exact close_tracked h

theorem reachable_tracked (h : Reachable s) : Tracked s :=
  h.invariant (fun _ hs => hs.2 ▸ init_tracked) fun _ _ _ ht hstep => step_tracked ht hstep

structure CallDecodes (s : IngressSystem cfg) (maxFrames : ℕ) (full : ℕ → Bool)
    (published : List HostEvent) (status : Status) : Prop where
  bounded : published.length ≤ maxFrames
  /-- An error is reported exactly at an invalid size, or at an end within a size or a frame. -/
  error_iff : status ≠ .ok ∧ status ≠ .enobufs ↔ published.length < maxFrames ∧
    status ≠ .enobufs ∧ (s.decoded.2.invalid = true ∨
      s.ingress.terminal = true ∧ s.decoded.2.truncated = true)
  reports : status ≠ .ok → status ≠ .enobufs → Reports s.ingress.terminal s.decoded.2 status
  noRoom : status = .enobufs → published.length < maxFrames ∧ full published.length = true
  all : status ≠ .enobufs → published.length < maxFrames →
    s.enqueued ++ published = s.decoded.1.map (frameEvent cfg)

/-- The events enqueued are the first frames of the stream. -/
structure Decodes (s : IngressSystem cfg) : Prop where
  accepted : ∃ accepted rest, s.enqueued = accepted.map (frameEvent cfg) ∧
    s.decoded.1 = accepted ++ rest ∧
    (s.ingress.closed = false → s.ingress.failed = false →
      s.received = encodeAll accepted ++ (s.ingress.header ++ s.ingress.frame) ++
        s.ingress.chunk.drop s.ingress.chunkPos)
  call : ∀ (maxFrames : ℕ) (full : ℕ → Bool), maxFrames ≠ 0 → s.ingress.closed = false →
    CallDecodes s maxFrames full (s.ingress.process maxFrames (hostAnswers full)).2.1
      (s.ingress.process maxFrames (hostAnswers full)).2.2

variable {tail : Tail} {status : Status}

theorem reports_status {terminal : Bool} (h : Reports terminal tail status) :
    (status ≠ .ok ∧ status ≠ .enobufs) ∧
      (tail.invalid = true ∨ terminal = true ∧ tail.truncated = true) := by
  cases h with
  | zero rest => exact ⟨by simp, .inl rfl⟩
  | oversized expected rest => exact ⟨by simp, .inl rfl⟩
  | truncated _ htail ended => exact ⟨by simp, .inr ⟨ended, htail⟩⟩

variable {full : ℕ → Bool}

theorem callDecodes_error {published : List HostEvent} (htail : s.decoded.2 = tail)
    (hreports : Reports s.ingress.terminal tail status) (hleft : published.length < maxFrames)
    (hall : s.enqueued ++ published = s.decoded.1.map (frameEvent cfg)) :
    CallDecodes s maxFrames full published status := by
  subst htail
  obtain ⟨hstatus, hcause⟩ := reports_status hreports
  exact ⟨hleft.le, ⟨fun _ => ⟨hleft, hstatus.2, hcause⟩, fun _ => hstatus⟩, fun _ _ => hreports,
    fun hc => absurd hc hstatus.2, fun _ _ => hall⟩

theorem callDecodes_of_end {published : List (List UInt8)} {e : Ingress cfg}
    (heq : s.enqueued = accepted.map (frameEvent cfg))
    (hend : CallEnd cfg s.ingress.terminal accepted s.received maxFrames full e published status) :
    CallDecodes s maxFrames full (published.map (frameEvent cfg)) status := by
  cases hend with
  | ok holds failed bounded all =>
    refine ⟨by simpa using bounded, ⟨fun hc => absurd rfl hc.1, fun hc => ?_⟩,
      fun hc => absurd rfl hc, fun hc => Status.noConfusion hc, fun _ hleft => ?_⟩
    · obtain ⟨hleft, -, hcause⟩ := hc
      rw [List.length_map] at hleft
      obtain ⟨tail, hdecode, hinvalid, htruncated⟩ := all hleft
      have htail : s.decoded.2 = tail := congrArg Prod.snd hdecode
      rw [htail] at hcause
      rcases hcause with hcause | ⟨hended, hcause⟩
      · rw [hinvalid] at hcause
        cases hcause
      · rw [htruncated hended] at hcause
        cases hcause
    · rw [List.length_map] at hleft
      obtain ⟨tail, hdecode, -⟩ := all hleft
      have hframes : s.decoded.1 = accepted ++ published := congrArg Prod.fst hdecode
      rw [hframes, heq, List.map_append]
  | refused holds failed left noRoom =>
    refine ⟨by simpa using left.le, ⟨fun hc => absurd rfl hc.2, fun hc => absurd rfl hc.2.1⟩,
      fun _ hc => absurd rfl hc, fun _ => by simpa using ⟨left, noRoom⟩, fun hc => absurd rfl hc⟩
  | error tail failed left decoded reports =>
    refine callDecodes_error (congrArg Prod.snd decoded) reports (by simpa using left) ?_
    have hframes : s.decoded.1 = accepted ++ published := congrArg Prod.fst decoded
    rw [hframes, heq, List.map_append]

/-- **Main.** The enqueued events are the first frames of the stream received so far, whatever the
chunks; errors are reported exactly where the stream has one, and a call that is neither out of
budget nor refused leaves no frame behind. -/
theorem reachable_decodes (h : Reachable s) : Decodes s := by
  have htracked := reachable_tracked h
  obtain ⟨accepted, heq, hstage⟩ := htracked.enqueued
  obtain ⟨rest, hrest⟩ := hstage.frames
  refine ⟨⟨accepted, rest, heq, hrest, fun hopened hgo => ?_⟩, fun maxFrames full hmax hopened => ?_⟩
  · cases hstage with
    | running _ _ holds =>
      rw [holds.stream, buffered]
      simp only [List.append_assoc]
    | failed _ failed _ _ _ =>
      rw [hgo] at failed
      cases failed
    | closed closed _ _ =>
      rw [hopened] at closed
      cases closed
  · cases hstage with
    | running _ failed holds =>
      obtain ⟨published, hpublished, -, hend⟩ := process_end full holds failed hopened hmax
      rw [hpublished]
      exact callDecodes_of_end heq hend
    | failed _ failed tail decoded reports =>
      have hframes : s.decoded.1 = accepted := congrArg Prod.fst decoded
      unfold Ingress.process
      rw [if_neg hmax, if_neg (by simp [hopened]), if_pos failed]
      refine callDecodes_error (congrArg Prod.snd decoded) reports (Nat.pos_of_ne_zero hmax) ?_
      rw [hframes, heq, List.append_nil]
    | closed closed _ _ =>
      rw [hopened] at closed
      cases closed

/-! ## A run -/

def smallConfig : IngressConfig := ⟨⟨0, 1⟩, ['e'], 3, 4⟩

def chunkedRun : List IngressAction :=
  [.bind ⟨0, 1⟩, .connected ⟨0, 1⟩, .arm .ok, .receive ⟨0, 1⟩ [0, 2, 0xab],
    .process 1 fun _ => false, .arm .ok, .receive ⟨0, 1⟩ [0xcd, 0], .process 1 fun _ => true,
    .process 1 fun _ => false, .closed ⟨0, 1⟩]

theorem chunkedRun_isSome : (exec step (init smallConfig) chunkedRun).isSome = true := by decide

def chunkedState : IngressSystem smallConfig :=
  (exec step (init smallConfig) chunkedRun).get chunkedRun_isSome

theorem chunkedState_decodes : Decodes chunkedState :=
  reachable_decodes (.runs (.of_init ⟨by decide, rfl⟩)
    (exec_runs (Option.some_get chunkedRun_isSome).symm))

example : chunkedState.enqueued = [⟨⟨0, 1⟩, ['e'], "abcd".toList⟩] := by decide

example : (chunkedState.ingress.process 1 fun _ => .ok).2.2 = .eproto := by decide

end IngressSystem

end TurboScxml.Cnet
