import TurboScxml.Cnet.FrameIngress

/-!
# One call of the frame decoder

* `Progress`: header and partial frame of an ingress that can go on;
* `Holds`: the stream is the accepted frames, the partial frame and the rest of the chunk;
* `CallEnd`, `process_end`: the three ways `scxml_cnet_frame_ingress_process` ends.
-/

namespace TurboScxml.Cnet

open Machine Framing

namespace Ingress

variable {cfg : IngressConfig}

inductive Progress (cfg : IngressConfig) (e : Ingress cfg) : Prop
  | start (header : e.header = []) (expected : e.frameExpected = 0) (frame : e.frame = [])
  | size (high : UInt8) (header : e.header = [high]) (expected : e.frameExpected = 0)
      (frame : e.frame = [])
  | frame (high low : UInt8) (header : e.header = [high, low])
      (expected : e.frameExpected = prefixedSize high low) (positive : e.frameExpected ≠ 0)
      (bounded : e.frameExpected ≤ cfg.maxFrameBytes) (fits : e.frame.length ≤ e.frameExpected)

def buffered (e : Ingress cfg) : List UInt8 := e.header ++ e.frame ++ e.chunk.drop e.chunkPos

structure Holds (e : Ingress cfg) (accepted : List (List UInt8)) (stream : List UInt8) : Prop where
  progress : Progress cfg e
  fits : ∀ frame ∈ accepted, Fits cfg.maxFrameBytes frame
  pos : e.chunkPos ≤ e.chunk.length
  stream : stream = encodeAll accepted ++ e.buffered

theorem Progress.congr {e e' : Ingress cfg} (h : Progress cfg e) (hheader : e'.header = e.header)
    (hexpected : e'.frameExpected = e.frameExpected) (hframe : e'.frame = e.frame) :
    Progress cfg e' := by
  cases h with
  | start a b c => exact .start (hheader.trans a) (hexpected.trans b) (hframe.trans c)
  | size high a b c => exact .size high (hheader.trans a) (hexpected.trans b) (hframe.trans c)
  | frame high low a b c d f =>
    exact .frame high low (hheader.trans a) (hexpected.trans b) (hexpected ▸ c) (hexpected ▸ d)
      (by rw [hexpected, hframe]; exact f)

def work (e : Ingress cfg) : List UInt8 × ℕ × List UInt8 × ℕ × List UInt8 :=
  (e.header, e.frameExpected, e.frame, e.chunkPos, e.chunk)

variable {accepted : List (List UInt8)}

theorem Holds.congr {e e' : Ingress cfg} {stream : List UInt8}
    (h : Holds e accepted stream) (hwork : e'.work = e.work) : Holds e' accepted stream := by
  simp only [work, Prod.mk.injEq] at hwork
  obtain ⟨hheader, hexpected, hframe, hpos, hchunk⟩ := hwork
  refine ⟨h.progress.congr hheader hexpected hframe, h.fits, ?_, ?_⟩
  · rw [hpos, hchunk]
    exact h.pos
  · rw [h.stream, buffered, buffered, hheader, hframe, hpos, hchunk]

variable {e : Ingress cfg}

theorem Holds.chunkPos_eq {stream : List UInt8}
    (h : Holds e accepted stream) (hchunk : e.chunk = []) : e.chunkPos = 0 := by
  have hpos := h.pos
  rw [hchunk] at hpos
  exact Nat.le_zero.mp hpos

/-- The error that a stream gives cause for. -/
inductive Reports (terminal : Bool) : Tail → Status → Prop
  | zero (rest : List UInt8) : Reports terminal (.zero rest) .eproto
  | oversized (expected : ℕ) (rest : List UInt8) :
      Reports terminal (.oversized expected rest) .emsgsize
  | truncated (tail : Tail) (h : tail.truncated = true) (ended : terminal = true) :
      Reports terminal tail .eproto

def line (e : Ingress cfg) : Bool × Bool × Bool × Bool × Bool :=
  (e.bound, e.connected, e.armed, e.terminal, e.closed)

theorem markError_line (e : Ingress cfg) (status : Status) : (e.markError status).line = e.line := by
  unfold markError
  split <;> rfl

section Decoding

variable {e : Ingress cfg} {accepted : List (List UInt8)} {stream : List UInt8}

theorem Holds.decode (h : Holds e accepted stream) :
    decode cfg.maxFrameBytes stream =
      (accepted ++ (Framing.decode cfg.maxFrameBytes e.buffered).1,
        (Framing.decode cfg.maxFrameBytes e.buffered).2) := by
  rw [h.stream]
  exact decode_encodeAll h.fits _

theorem frameComplete_iff : e.frameComplete = true ↔
    e.frameExpected ≠ 0 ∧ e.frame.length = e.frameExpected := by
  simp [frameComplete]

/-- **A complete frame is accepted.** -/
theorem Holds.publish (h : Holds e accepted stream) (hcomplete : e.frameComplete = true) :
    Holds (e.publishFrame .ok) (accepted ++ [e.frame]) stream := by
  obtain ⟨hne, hlen⟩ := frameComplete_iff.mp hcomplete
  have hprogress := h.progress
  cases hprogress with
  | start _ hexpected _ => exact absurd hexpected hne
  | size _ _ hexpected _ => exact absurd hexpected hne
  | frame high low hheader hexpected _ hbounded _ =>
    have hfits : Fits cfg.maxFrameBytes e.frame := by
      have := prefixedSize_lt high low
      exact ⟨by omega, by omega, by omega⟩
    refine ⟨.start rfl rfl rfl, ?_, h.pos, ?_⟩
    · intro frame hmem
      rcases List.mem_append.mp hmem with hmem | hmem
      · exact h.fits frame hmem
      · rw [List.mem_singleton.mp hmem]
        exact hfits
    · rw [h.stream, encodeAll_append, encodeAll_singleton, encode_eq (hlen.trans hexpected)]
      simp [buffered, hheader, publishFrame]

theorem Holds.decode_drained (h : Holds e accepted stream) (hchunk : e.chunk.drop e.chunkPos = [])
    (hcomplete : e.frameComplete = false) :
    ∃ tail, Framing.decode cfg.maxFrameBytes stream = (accepted, tail) ∧
      tail.invalid = false ∧ tail.truncated = e.midFrame := by
  have hprogress := h.progress
  have hdecode := h.decode
  cases hprogress with
  | start hheader hexpected hframe =>
    have hbuffered : e.buffered = [] := by simp [buffered, hheader, hframe, hchunk]
    rw [hbuffered, decode_nil, List.append_nil] at hdecode
    exact ⟨_, hdecode, rfl, by simp [midFrame, hheader, hexpected, Tail.truncated]⟩
  | size high hheader hexpected hframe =>
    have hbuffered : e.buffered = [high] := by simp [buffered, hheader, hframe, hchunk]
    rw [hbuffered, decode_size, List.append_nil] at hdecode
    exact ⟨_, hdecode, rfl, by simp [midFrame, hheader, hexpected, Tail.truncated]⟩
  | frame high low hheader hexpected hpositive hbounded hfits =>
    have hbuffered : e.buffered = high :: low :: e.frame := by simp [buffered, hheader, hchunk]
    have hne : e.frame.length ≠ e.frameExpected := by
      intro hc
      rw [frameComplete_iff.mpr ⟨hpositive, hc⟩] at hcomplete
      cases hcomplete
    rw [hbuffered, decode_frame (hexpected ▸ hpositive) (hexpected ▸ hbounded) (by omega),
      List.append_nil] at hdecode
    exact ⟨_, hdecode, rfl, by simp [midFrame, hpositive, hne, Tail.truncated]⟩

theorem drop_chunkPos {byte : UInt8} (hbyte : e.chunk[e.chunkPos]? = some byte) :
    e.chunk.drop e.chunkPos = byte :: e.chunk.drop (e.chunkPos + 1) ∧
      e.chunkPos < e.chunk.length := by
  obtain ⟨hlt, heq⟩ := List.getElem?_eq_some_iff.mp hbyte
  exact ⟨by rw [List.drop_eq_getElem_cons hlt, heq], hlt⟩

theorem markError_failed (hfailed : e.failed = false) (status : Status) :
    e.markError status =
      { e with firstError := status, failed := true, rejectedFrames := e.rejectedFrames + 1 } := by
  simp [markError, hfailed]

/-- **One byte is taken.** -/
theorem Holds.takeByte (h : Holds e accepted stream) (hfailed : e.failed = false)
    (hcomplete : e.frameComplete = false) {byte : UInt8}
    (hbyte : e.chunk[e.chunkPos]? = some byte) :
    (Holds (e.takeByte byte) accepted stream ∧ (e.takeByte byte).failed = false ∧
      (e.takeByte byte).chunkPos = e.chunkPos + 1 ∧ (e.takeByte byte).chunk = e.chunk) ∨
    ((e.takeByte byte).failed = true ∧ ∃ tail, Framing.decode cfg.maxFrameBytes stream
      = (accepted, tail) ∧ ∀ terminal, Reports terminal tail (e.takeByte byte).firstError) := by
  obtain ⟨hdrop, hlt⟩ := drop_chunkPos hbyte
  have hprogress := h.progress
  have hstream := h.stream
  cases hprogress with
  | start hheader hexpected hframe =>
    left
    unfold Ingress.takeByte
    rw [hheader]
    refine ⟨⟨.size byte rfl hexpected hframe, h.fits, hlt, ?_⟩, hfailed, rfl, rfl⟩
    rw [hstream]
    simp [buffered, hheader, hframe, hdrop]
  | size high hheader hexpected hframe =>
    have hbuffered : e.buffered = high :: byte :: e.chunk.drop (e.chunkPos + 1) := by
      simp [buffered, hheader, hframe, hdrop]
    have hdecode := h.decode
    rw [hbuffered] at hdecode
    unfold Ingress.takeByte
    rw [hheader]
    dsimp only
    split
    · rename_i hzero
      rw [decode_zero hzero, List.append_nil] at hdecode
      rw [markError_failed (by exact hfailed)]
      exact .inr ⟨rfl, _, hdecode, fun _ => .zero _⟩
    split
    · rename_i hover
      rw [decode_oversized hover, List.append_nil] at hdecode
      rw [markError_failed (by exact hfailed)]
      exact .inr ⟨rfl, _, hdecode, fun _ => .oversized _ _⟩
    · rename_i hzero hover
      left
      refine ⟨⟨.frame high byte rfl rfl hzero (not_lt.mp hover) ?_, h.fits, hlt, ?_⟩, hfailed, rfl,
        rfl⟩
      · simp [hframe]
      · rw [hstream, hbuffered]
        simp [buffered, hframe]
  | frame high low hheader hexpected hpositive hbounded hfits =>
    left
    have hne : e.frame.length ≠ e.frameExpected := by
      intro hc
      rw [frameComplete_iff.mpr ⟨hpositive, hc⟩] at hcomplete
      cases hcomplete
    have htake : e.takeByte byte =
        { e with chunkPos := e.chunkPos + 1, frame := e.frame ++ [byte] } := by
      simp [Ingress.takeByte, hheader]
    rw [htake]
    refine ⟨⟨.frame high low hheader hexpected hpositive hbounded ?_, h.fits, hlt, ?_⟩, hfailed,
      rfl, rfl⟩
    · rw [List.length_append, List.length_singleton]
      exact Nat.lt_of_le_of_ne hfits hne
    · rw [hstream]
      simp [buffered, hdrop]

theorem takeByte_line (byte : UInt8) : (e.takeByte byte).line = e.line := by
  unfold Ingress.takeByte
  split
  · rfl
  · dsimp only
    split
    · exact markError_line _ _
    split
    · exact markError_line _ _
    · rfl
  · rfl

end Decoding

/-! ## One call of the decoder -/

def remaining (e : Ingress cfg) : ℕ :=
  2 * (e.chunk.length - e.chunkPos) + e.frameComplete.toNat

/-- How the loop ends, after `published` frames. -/
inductive LoopEnd (cfg : IngressConfig) (accepted : List (List UInt8)) (stream : List UInt8)
    (maxFrames : ℕ) (full : ℕ → Bool) : LoopResult cfg → Prop
  /-- The budget is used up. -/
  | budget (e : Ingress cfg) (published : List (List UInt8))
      (holds : Holds e (accepted ++ published) stream) (failed : e.failed = false)
      (used : published.length = maxFrames) (between : e.midFrame = false) :
      LoopEnd cfg accepted stream maxFrames full ⟨e, published.map (frameEvent cfg), none⟩
  | drained (e : Ingress cfg) (published : List (List UInt8))
      (holds : Holds e (accepted ++ published) stream) (failed : e.failed = false)
      (left : published.length < maxFrames) (chunk : e.chunk = [])
      (incomplete : e.frameComplete = false) :
      LoopEnd cfg accepted stream maxFrames full ⟨e, published.map (frameEvent cfg), none⟩
  | refused (e : Ingress cfg) (published : List (List UInt8))
      (holds : Holds e (accepted ++ published) stream) (failed : e.failed = false)
      (left : published.length < maxFrames) (noRoom : full published.length = true) :
      LoopEnd cfg accepted stream maxFrames full
        ⟨e, published.map (frameEvent cfg), some .enobufs⟩
  | rejected (e : Ingress cfg) (published : List (List UInt8)) (tail : Tail)
      (failed : e.failed = true) (left : published.length < maxFrames)
      (decoded : decode cfg.maxFrameBytes stream = (accepted ++ published, tail))
      (reports : ∀ terminal, Reports terminal tail e.firstError) :
      LoopEnd cfg accepted stream maxFrames full
        ⟨e, published.map (frameEvent cfg), some e.firstError⟩

variable {maxFrames : ℕ} {full : ℕ → Bool} {accepted : List (List UInt8)} {stream : List UInt8}

variable (maxFrames full) in
/-- **The loop.** The invariant is `Holds`, and `remaining` decreases. -/
theorem processLoop_end (fuel : ℕ) (e : Ingress cfg) (published : List (List UInt8))
    (h : Holds e (accepted ++ published) stream) (hfailed : e.failed = false)
    (hfuel : e.remaining < fuel) (hbudget : published.length ≤ maxFrames)
    (hbetween : published.length = maxFrames → e.midFrame = false) :
    LoopEnd cfg accepted stream maxFrames full
        (processLoop maxFrames (IngressSystem.hostAnswers full) fuel e
          (published.map (frameEvent cfg))) ∧
      (processLoop maxFrames (IngressSystem.hostAnswers full) fuel e
        (published.map (frameEvent cfg))).ingress.line = e.line := by
  induction fuel generalizing e published with
  | zero => omega
  | succ fuel ih =>
    unfold processLoop
    rw [List.length_map]
    split
    · rename_i hleft
      split
      · rename_i hcomplete
        dsimp only
        split
        · rename_i hanswer
          rw [hanswer]
          have hpublish := h.publish hcomplete
          rw [List.append_assoc] at hpublish
          have hnext := ih (e.publishFrame .ok) (published ++ [e.frame]) hpublish hfailed ?_ ?_
            fun _ => rfl
          · rw [List.map_append, List.map_singleton] at hnext
            exact hnext
          · have hopen : (e.publishFrame .ok).frameComplete = false := rfl
            have hcursor : (e.publishFrame .ok).chunkPos = e.chunkPos := rfl
            have hchunk : (e.publishFrame .ok).chunk = e.chunk := rfl
            simp only [remaining, hopen, hcursor, hchunk, hcomplete, Bool.toNat_true,
              Bool.toNat_false] at hfuel ⊢
            omega
          · rw [List.length_append, List.length_singleton]
            omega
        · rename_i hanswer
          have hfull : full published.length = true := by
            by_contra hc
            exact hanswer (by simp [IngressSystem.hostAnswers, hc])
          have henobufs : IngressSystem.hostAnswers full published.length = .enobufs := by
            simp [IngressSystem.hostAnswers, hfull]
          rw [henobufs]
          exact ⟨.refused _ published (h.congr rfl) hfailed hleft hfull, rfl⟩
      · rename_i hcomplete
        have hincomplete := Bool.eq_false_of_not_eq_true hcomplete
        split
        · rename_i hnone
          have hpos : e.chunk.length ≤ e.chunkPos := List.getElem?_eq_none_iff.mp hnone
          have hdrop : e.chunk.drop e.chunkPos = [] := List.drop_eq_nil_of_le hpos
          refine ⟨.drained _ published ⟨h.progress.congr rfl rfl rfl, h.fits, le_refl 0, ?_⟩ hfailed
            hleft rfl hincomplete, rfl⟩
          rw [h.stream]
          simp [buffered, dropChunk, hdrop]
        · rename_i byte hbyte
          rcases h.takeByte hfailed hincomplete hbyte with
            ⟨hnext, hgo, hcursor, hchunk⟩ | ⟨hstop, tail, hdecode, hreports⟩
          · rw [if_neg (by simp [hgo])]
            have hlt := (drop_chunkPos hbyte).2
            have hend := ih (e.takeByte byte) published hnext hgo ?_ hbudget
              fun hc => absurd hc hleft.ne
            · exact ⟨hend.1, hend.2.trans (takeByte_line byte)⟩
            · have hbool := Bool.toNat_le (e.takeByte byte).frameComplete
              simp only [remaining, hincomplete, hcursor, hchunk, Bool.toNat_false] at hfuel ⊢
              omega
          · rw [if_pos hstop]
            exact ⟨.rejected _ published tail hstop hleft hdecode hreports, takeByte_line byte⟩
    · have hused : published.length = maxFrames := by omega
      exact ⟨.budget e published h hfailed hused (hbetween hused), rfl⟩

inductive CallEnd (cfg : IngressConfig) (terminal : Bool) (accepted : List (List UInt8))
    (stream : List UInt8) (maxFrames : ℕ) (full : ℕ → Bool) (e : Ingress cfg)
    (published : List (List UInt8)) : Status → Prop
  | ok (holds : Holds e (accepted ++ published) stream) (failed : e.failed = false)
      (bounded : published.length ≤ maxFrames)
      (all : published.length < maxFrames → ∃ tail, decode cfg.maxFrameBytes stream =
        (accepted ++ published, tail) ∧ tail.invalid = false ∧
          (terminal = true → tail.truncated = false)) :
      CallEnd cfg terminal accepted stream maxFrames full e published .ok
  | refused (holds : Holds e (accepted ++ published) stream) (failed : e.failed = false)
      (left : published.length < maxFrames) (noRoom : full published.length = true) :
      CallEnd cfg terminal accepted stream maxFrames full e published .enobufs
  | error (tail : Tail) (failed : e.failed = true) (left : published.length < maxFrames)
      (decoded : decode cfg.maxFrameBytes stream = (accepted ++ published, tail))
      (reports : Reports terminal tail e.firstError) :
      CallEnd cfg terminal accepted stream maxFrames full e published e.firstError

theorem remaining_lt_fuel (e : Ingress cfg) : e.remaining < e.fuel := by
  have hbool := Bool.toNat_le e.frameComplete
  unfold remaining fuel
  omega

theorem dropChunk_holds (h : Holds e accepted stream)
    (hpos : e.chunkPos = e.chunk.length) : Holds e.dropChunk accepted stream := by
  refine ⟨h.progress.congr rfl rfl rfl, h.fits, le_refl 0, ?_⟩
  rw [h.stream]
  simp [buffered, dropChunk, hpos]

variable (full) in
/-- **One call of the decoder.** -/
theorem process_end (h : Holds e accepted stream) (hfailed : e.failed = false)
    (hclosed : e.closed = false) (hmax : maxFrames ≠ 0) :
    ∃ published : List (List UInt8),
      (e.process maxFrames (IngressSystem.hostAnswers full)).2.1 =
        published.map (frameEvent cfg) ∧
      (e.process maxFrames (IngressSystem.hostAnswers full)).1.line = e.line ∧
      CallEnd cfg e.terminal accepted stream maxFrames full
        (e.process maxFrames (IngressSystem.hostAnswers full)).1 published
        (e.process maxFrames (IngressSystem.hostAnswers full)).2.2 := by
  have hstart : Holds e (accepted ++ []) stream := by rwa [List.append_nil]
  obtain ⟨hend, hline⟩ := processLoop_end maxFrames full e.fuel e [] hstart hfailed
    e.remaining_lt_fuel (Nat.zero_le _) fun hc => absurd hc.symm hmax
  unfold process
  rw [if_neg hmax, if_neg (by simp [hclosed]), if_neg (by simp [hfailed])]
  rw [List.map_nil] at hend hline
  generalize processLoop maxFrames (IngressSystem.hostAnswers full) e.fuel e [] = result
    at hend hline
  cases hend with
  | budget e' published holds failed used between =>
    refine ⟨published, ?_⟩
    dsimp only at hline ⊢
    split
    · rename_i hpos
      have hmid : e'.dropChunk.midFrame = false := between
      rw [hmid, Bool.and_false, if_neg Bool.false_ne_true]
      exact ⟨rfl, hline, .ok (dropChunk_holds holds hpos) failed used.le
        fun hc => absurd used hc.ne⟩
    · rw [between, Bool.and_false, if_neg Bool.false_ne_true]
      exact ⟨rfl, hline, .ok holds failed used.le fun hc => absurd used hc.ne⟩
  | drained e' published holds failed left chunk incomplete =>
    refine ⟨published, ?_⟩
    have hdrop : e'.chunk.drop e'.chunkPos = [] := by rw [chunk, List.drop_nil]
    obtain ⟨tail, hdecode, hinvalid, htruncated⟩ := holds.decode_drained hdrop incomplete
    have hpos : e'.chunkPos = e'.chunk.length := by
      have := holds.pos
      rw [chunk, List.length_nil] at this ⊢
      omega
    have hterminal : e'.terminal = e.terminal := congrArg (·.2.2.2.1) hline
    dsimp only at hline ⊢
    rw [if_pos hpos]
    split
    · rename_i herror
      have hmid : e'.terminal = true ∧ e'.midFrame = true := by
        simp only [Bool.and_eq_true] at herror
        exact ⟨herror.1.1, herror.2⟩
      rw [markError_failed (by exact failed)]
      exact ⟨rfl, hline, .error tail rfl left hdecode (.truncated tail (htruncated.trans hmid.2)
        (hterminal ▸ hmid.1))⟩
    · rename_i herror
      refine ⟨rfl, hline, .ok (dropChunk_holds holds hpos) failed left.le
        fun _ => ⟨tail, hdecode, hinvalid, fun ht => ?_⟩⟩
      rw [htruncated]
      have hended : e'.terminal = true := hterminal.trans ht
      by_contra hc
      refine herror ?_
      have hmid : e'.dropChunk.midFrame = true := Bool.eq_true_of_not_eq_false hc
      have hended' : e'.dropChunk.terminal = true := hended
      simp only [hmid, hended', Bool.and_true, Bool.true_and]
      rfl
  | refused e' published holds failed left noRoom =>
    exact ⟨published, rfl, hline, .refused holds failed left noRoom⟩
  | rejected e' published tail failed left decoded reports =>
    exact ⟨published, rfl, hline, .error tail failed left decoded (reports _)⟩

variable (maxFrames full) in
theorem processLoop_idle (fuel : ℕ) (e : Ingress cfg) (published : List HostEvent)
    (hchunk : e.chunk = []) :
    (processLoop maxFrames (IngressSystem.hostAnswers full) fuel e published).ingress.chunk = [] ∧
      (processLoop maxFrames (IngressSystem.hostAnswers full) fuel e published).ingress.failed =
        e.failed := by
  induction fuel generalizing e published with
  | zero => exact ⟨hchunk, rfl⟩
  | succ fuel ih =>
    unfold processLoop
    split
    · split
      · dsimp only
        split
        · rename_i hanswer
          rw [hanswer]
          exact ih (e.publishFrame .ok) _ hchunk
        · rename_i hanswer
          have hfull : IngressSystem.hostAnswers full published.length = .enobufs := by
            unfold IngressSystem.hostAnswers at hanswer ⊢
            split at hanswer
            · exact if_pos ‹_›
            · exact absurd rfl hanswer
          rw [hfull]
          exact ⟨hchunk, rfl⟩
      · rw [hchunk, List.getElem?_nil]
        exact ⟨rfl, rfl⟩
    · exact ⟨hchunk, rfl⟩

variable (maxFrames full) in
theorem process_idle (hchunk : e.chunk = []) (hterminal : e.terminal = false)
    (hfailed : e.failed = false) (hline : (e.process maxFrames
      (IngressSystem.hostAnswers full)).1.terminal = e.terminal) :
    (e.process maxFrames (IngressSystem.hostAnswers full)).1.chunk = [] ∧
      (e.process maxFrames (IngressSystem.hostAnswers full)).1.failed = false := by
  obtain ⟨hnil, hgo⟩ := processLoop_idle maxFrames full e.fuel e [] hchunk
  revert hline
  unfold process
  split
  · exact fun _ => ⟨hchunk, hfailed⟩
  split
  · exact fun _ => ⟨hchunk, hfailed⟩
  split
  · exact fun _ => ⟨hchunk, hfailed⟩
  dsimp only
  generalize processLoop maxFrames (IngressSystem.hostAnswers full) e.fuel e [] = result at hnil hgo
  intro hline
  split
  · exact ⟨hnil, hgo.trans hfailed⟩
  · rename_i hreturned
    rw [hreturned] at hline
    generalize hdrop : (if result.ingress.chunkPos = result.ingress.chunk.length
      then result.ingress.dropChunk else result.ingress) = e' at hline ⊢
    have hkept : e'.chunk = [] ∧ e'.failed = false := by
      subst hdrop
      split
      · exact ⟨rfl, hgo.trans hfailed⟩
      · exact ⟨hnil, hgo.trans hfailed⟩
    split
    · rename_i herror
      rw [if_pos herror] at hline
      simp only [Bool.and_eq_true] at herror
      have hended : (e'.markError .eproto).terminal = true :=
        (congrArg (·.2.2.2.1) (e'.markError_line .eproto)).trans herror.1.1
      rw [show (e'.markError .eproto).terminal = e.terminal from hline, hterminal] at hended
      cases hended
    · exact hkept

end Ingress

end TurboScxml.Cnet
