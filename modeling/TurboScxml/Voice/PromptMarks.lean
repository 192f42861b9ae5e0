import TurboScxml.Lib.Machine
import TurboScxml.Voice.PromptForeach
import TurboScxml.Voice.PromptMedia

/-!
# Marks of a committed batch

The runs of a session beside what the provider knows of its batches.

* `MarkAsClaimed`, `BargeAsClaimed`, `AsClaimed`: what a report should be answered with;
* `agrees`: the selection made for a report finds the row of the batch again, and no time is lost;
* `Invariant`, `invariant_next`: what the session keeps of its batch, in every run that agrees.
-/

namespace TurboScxml.Voice.PromptMedia

open Prompts (Segment Kind Capabilities)

/-! ## Runs -/

/-- The batch committed last, with its marks. -/
structure Playback where
  handed : Handed
  accepted : List (ℕ × Option ℕ)
  held : Bool
  awaited : Bool
  deriving DecidableEq

def Playback.start (handed : Handed) : Playback := ⟨handed, [], true, true⟩

variable (p : Playback)

def Playback.generation : ℕ := p.handed.request.generation

def Playback.segments : List Segment := p.handed.request.segments

def Playback.isMark (index : ℕ) : Bool :=
  (p.segments[index]?).any fun s => s.kind == .mark

def Playback.forward (index : ℕ) (timing : Option ℕ) : Bool :=
  p.accepted.all fun a =>
    decide (a.1 < index) &&
      timing.all fun elapsed => a.2.all fun before => decide (before ≤ elapsed)

def Playback.lastMark : MarkView :=
  match p.accepted with
  | [] => ⟨p.generation, none, []⟩
  | (index, _) :: _ => ⟨p.generation, some index, (p.segments[index]?).elim [] (·.payload)⟩

/-- A session with the batch that the provider has got, and the one committed last. -/
structure World (σ : Type) where
  session : Session σ
  handed : Option Handed
  play : Option Playback

/-- What a call that is not about prompt media may change. -/
structure Change (P : Program) (σ : Type) where
  state : State
  counters : List Events.Counter
  values : σ
  transaction : Option (Holder × σ)
  selection : Option Selection
  result : Option MarkResult
  valid : ∀ c ∈ selection, c.selected.Valid P

inductive Event (P : Program) (σ : Type)
  | prepare (provider : Provider)
  | progress (provider : Provider)
  | commit
  | discard
  | mark (opens : Bool) (generation index : ℕ) (timing : Option ℕ)
  | barge (opens : Bool) (generation : ℕ) (signal : Signal) (timing : Option ℕ)
  | tryComplete (generation : ℕ) (outcome : Outcome) (timing : Option ℕ)
  | runReady
  | call (change : Change P σ)
  | settles (change : Change P σ) (active : Events.Active) (collectGeneration : ℕ)

variable {σ V : Type} (P : Program) (host : Host σ V)

variable {P} in
def Session.change (s : Session σ) (c : Change P σ) : Session σ :=
  { s with
    state := c.state, counters := c.counters, values := c.values
    transaction := c.transaction, selection := c.selection
    media := { s.media with result := c.result } }

def Playback.release (p : Playback) : Playback := { p with held := false }

variable (w : World σ)

def next : Event P σ → World σ
  | .prepare provider =>
    match prepare P host provider w.session with
    | (s, .ok handed) => { w with session := s, handed := handed }
    | (s, .error _) => { w with session := s }
  | .progress provider =>
    match progress P host provider w.session with
    | (.nothing, s) => { w with session := s }
    | (.prepared handed, s) => { w with session := s, handed := handed }
    | (.committed handed, s) => ⟨s, none, handed.map Playback.start⟩
  | .commit =>
    match commit w.session with
    | (s, .ok flying) => ⟨s, none, if flying then w.handed.map Playback.start else none⟩
    | (s, .error _) => { w with session := s }
  | .discard =>
    match discard w.session with
    | (s, .ok _) => { w with session := s, handed := none }
    | (s, .error _) => { w with session := s }
  | .mark opens generation index timing =>
    match mark P host opens generation index timing w.session with
    | (.accepted, s) =>
      { w with
        session := s
        play := w.play.map fun p => { p with accepted := (index, timing) :: p.accepted } }
    | (_, s) => { w with session := s }
  | .barge opens generation signal timing =>
    match barge P host opens generation signal timing w.session with
    | (.canceled, s) => { w with session := s, play := w.play.map Playback.release }
    | (_, s) => { w with session := s }
  | .tryComplete generation outcome timing =>
    match tryComplete generation outcome timing w.session with
    | (.accepted, s) =>
      { w with session := s, play := w.play.map fun p => { p with awaited := false } }
    | (_, s) => { w with session := s }
  | .runReady =>
    match runReady P w.session with
    | (true, s) => { w with session := s, play := w.play.map Playback.release }
    | (false, s) => { w with session := s }
  | .call c => { w with session := w.session.change c }
  | .settles c active collectGeneration =>
    ⟨{ w.session.settle.change c with active := active, collectGeneration := collectGeneration },
      none, w.play.map Playback.release⟩

def Initial : Prop :=
  w.session.media = Media.initial ∧ w.session.selection = none ∧ w.handed = none ∧ w.play = none

/-! ## Reports as claimed -/

def World.inFlight (generation : ℕ) (p : Playback) : Bool :=
  decide (w.session.state = .running ∧ p.generation = generation) && p.held && p.awaited

/-- A mark is accepted exactly if it is one of the batch in flight, behind those accepted before. -/
def MarkAsClaimed (opens : Bool) (generation index : ℕ) (timing : Option ℕ) : Prop :=
  (mark P host opens generation index timing w.session).1 = .accepted ↔
    w.play.any (fun p => w.inFlight generation p && p.isMark index && p.forward index timing) = true

/-- What a batch says to a barge-in. -/
def Playback.decides (p : Playback) (signal : Signal) (timing : Option ℕ) : BargeReport :=
  if p.handed.request.bargein = false then .disabled
  else if p.handed.request.bargeinType.any fun type => decide (type ≠ signal) then .typeMismatch
  else
    match p.accepted with
    | (_, some last) :: _ =>
      if timing.any fun elapsed => decide (elapsed < last) then .invalidArgument else .canceled
    | _ => .canceled

def BargeAsClaimed (opens : Bool) (generation : ℕ) (signal : Signal) (timing : Option ℕ) : Prop :=
  ∀ p ∈ w.play, w.session.state = .running → p.held = true → p.generation = generation →
    (barge P host opens generation signal timing w.session).1 = p.decides signal timing

def AsClaimed : Event P σ → Prop
  | .mark opens generation index timing => MarkAsClaimed P host w opens generation index timing
  | .barge opens generation signal timing =>
    BargeAsClaimed P host w opens generation signal timing
  | _ => True

/-! ## Reports that agree with the batch -/

def World.selectedRow (opens : Bool) : Option Row :=
  match selectedPromptRow P host opens w.session with
  | (.ok ⟨_, some (_, row), _⟩, _) => some row
  | _ => none

/-- The session has the sources of the batch. -/
def Playback.hasSources (P : Program) (p : Playback) : Bool :=
  !P.foreach.isEmpty &&
    decide (p.handed.row.foreachCount ≠ 0 ∨ p.handed.row.dynamicMarkCount ≠ 0)

def Playback.remembers (p : Playback) (timing : Option ℕ) : Bool :=
  match p.accepted with
  | (_, none) :: _ =>
    timing.all fun elapsed =>
      p.accepted.all fun a => a.2.all fun before => decide (before ≤ elapsed)
  | _ => true

/-- At a report the selection finds the batch again, and at a mark no time is lost. -/
def agrees : Event P σ → Bool
  | .mark opens generation index timing =>
    w.play.all fun p => !w.inFlight generation p ||
      (((w.selectedRow P host opens).any fun row =>
          p.hasSources P || decide (row = p.handed.row)) &&
        (!p.isMark index || p.remembers timing))
  | .barge opens generation _ _ =>
    w.play.all fun p =>
      !(decide (w.session.state = .running ∧ p.generation = generation) && p.held) ||
        decide (w.selectedRow P host opens = some p.handed.row)
  | _ => true

variable {P} {host}

/-! ## The marks that a session keeps -/

def Marked (P : Program) (p : Playback) (m : Media) : Prop :=
  match p.accepted with
  | [] => m.lastSegment = none ∧ m.lastBatchSegment = none ∧ m.lastElapsed = none
  | (index, timing) :: _ =>
    m.lastBatchSegment = some index ∧ m.lastElapsed = timing ∧
      ∃ (segment origin : Segment) (source : ℕ), p.segments[index]? = some segment ∧
        m.lastSegment = some source ∧ P.segments[source]? = some origin ∧ origin.kind = .mark ∧
        segment.payload ≠ [] ∧
        ((m.lastName = [] ∧ origin.payload = segment.payload) ∨
          (m.lastName = segment.payload ∧ segment.payload.length ≤ P.lastMarkNameCapacity))

structure Marks (P : Program) (p : Playback) (m : Media) : Prop where
  generation : m.markGeneration = p.generation
  nonzero : p.generation ≠ 0
  ordered : p.accepted.Pairwise fun a b =>
    b.1 < a.1 ∧ ∀ elapsed ∈ a.2, ∀ before ∈ b.2, before ≤ elapsed
  marked : Marked P p m

variable {m' : Media} {m : Media}

theorem Marks.of_same {p : Playback} (h : Marks P p m) (hsame : SameMarks m m') : Marks P p m' where
  generation := hsame.markGeneration.trans h.generation
  nonzero := h.nonzero
  ordered := h.ordered
  marked := by
    have hmarked := h.marked
    rw [Marked] at hmarked ⊢
    rw [hsame.lastSegment, hsame.lastBatchSegment, hsame.lastName, hsame.lastElapsed]
    exact hmarked

theorem Marks.lastMark_eq {p : Playback} (h : Marks P p m) : lastMark P m = .ok p.lastMark := by
  have hmarked := h.marked
  rw [Marked] at hmarked
  rw [lastMark, Playback.lastMark, h.generation]
  rcases haccepted : p.accepted with _ | ⟨⟨index, timing⟩, rest⟩
  · rw [haccepted] at hmarked
    rw [hmarked.1]
  · rw [haccepted] at hmarked
    obtain ⟨hindex, -, segment, origin, source, hsegment, hsource, horigin, hkind, hne, hname⟩ :=
      hmarked
    rw [hsource]
    dsimp only
    rw [if_neg h.nonzero, horigin]
    dsimp only
    rcases hname with ⟨hnil, horiginal⟩ | ⟨hcopied, hle⟩
    · rw [if_neg, hindex]
      · dsimp only
        rw [if_pos hnil, hsegment, horiginal]
        rfl
      · rw [hnil, horiginal]
        rintro (hother | hlt | hempty)
        · exact hother hkind
        · exact Nat.not_lt_zero _ hlt
        · exact hne hempty.2
    · rw [if_neg, hindex]
      · dsimp only
        rw [if_neg (by rw [hcopied]; exact hne), hsegment, hcopied]
        rfl
      · rw [hcopied]
        rintro (hother | hlt | hempty)
        · exact hother hkind
        · omega
        · exact hne hempty.1

variable {timing : Option ℕ}

/-- **When a report is out of order.** -/
theorem outOfOrder_eq {p : Playback} (h : Marks P p m) {index : ℕ}
    (hremembers : p.remembers timing = true) :
    outOfOrder m index timing = !p.forward index timing := by
  have hmarked := h.marked
  have hordered := h.ordered
  rw [Marked] at hmarked
  rw [Playback.remembers] at hremembers
  rw [outOfOrder, Playback.forward]
  rcases haccepted : p.accepted with _ | ⟨⟨last, time⟩, rest⟩
  · rw [haccepted] at hmarked
    rw [hmarked.2.1, hmarked.2.2]
    cases timing <;> rfl
  · rw [haccepted] at hmarked hordered hremembers
    rw [hmarked.1, hmarked.2.1]
    rw [List.pairwise_cons] at hordered
    rw [Bool.eq_iff_iff]
    simp only [Option.any_some, Bool.or_eq_true, decide_eq_true_eq, Option.any_eq_true,
      Bool.not_eq_true', List.all_eq_false, Bool.and_eq_true, Option.all_eq_true]
    constructor
    · rintro (hle | ⟨elapsed, htiming, before, htime, hlt⟩)
      · refine ⟨(last, time), List.mem_cons_self, fun hall => ?_⟩
        omega
      · refine ⟨(last, time), List.mem_cons_self, fun hall => ?_⟩
        have hle := hall.2 elapsed htiming before htime
        omega
    · rintro ⟨a, ha, hnot⟩
      by_contra hnone
      rw [not_or] at hnone
      refine hnot ?_
      rcases List.mem_cons.mp ha with rfl | hrest
      · refine ⟨by omega, fun elapsed htiming before htime => ?_⟩
        by_contra hlt
        exact hnone.2 ⟨elapsed, htiming, before, htime, by omega⟩
      · obtain ⟨hlt, htimes⟩ := hordered.1 a hrest
        refine ⟨by omega, fun elapsed htiming before hbefore => ?_⟩
        cases time with
        | some t =>
          have hbt : before ≤ t := htimes t rfl before hbefore
          by_contra hearly
          exact hnone.2 ⟨elapsed, htiming, t, rfl, by omega⟩
        | none =>
          simp only [Option.all_eq_true, List.all_eq_true, decide_eq_true_eq] at hremembers
          exact hremembers elapsed htiming a (List.mem_cons_of_mem _ hrest) before hbefore

/-! ## Reports on a batch in flight -/

theorem observe_eq {p : Playback} {row : Row} (h : Ready P p.handed m)
    (hgeneration : p.generation ≠ 0)
    (hrow : p.hasSources P = true ∨ row = p.handed.row) (index : ℕ) :
    (p.segments[index]? = none → observe P m p.generation row index = none) ∧
      ∀ segment, p.segments[index]? = some segment → ∃ (source : ℕ) (origin : Segment),
        observe P m p.generation row index = some (segment, source) ∧
          P.segments[source]? = some origin ∧ Named P origin segment ∧ segment.payload ≠ [] ∧
          (m.projected.generation ≠ p.generation → origin.payload ≠ []) := by
  have hrange := h.valid.segments.2.1
  rw [observe]
  cases h.stored with
  | static hprojected hsegments hresolved hplain =>
    have hother : m.projected.generation ≠ p.generation := by
      rw [hprojected]
      exact hgeneration.symm
    have hsame : row = p.handed.row := by
      refine hrow.resolve_left fun hsources => ?_
      simp only [Playback.hasSources, Bool.and_eq_true, decide_eq_true_eq] at hsources
      exact hsources.2.elim (fun hne => hne hplain.1) fun hne => hne hplain.2
    subst hsame
    have hlength : p.segments.length = p.handed.row.segmentCount :=
      (congrArg List.length hsegments).trans (length_rowSegments hrange)
    rw [if_neg fun hboth => hother hboth.1]
    constructor
    · intro hnone
      rw [List.getElem?_eq_none_iff, hlength] at hnone
      rw [if_pos hnone]
    · intro segment hsegment
      have hlt := (List.getElem?_eq_some_iff.mp hsegment).1
      rw [hlength] at hlt
      have horigin : P.segments[p.handed.row.firstSegment + index]? = some segment := by
        rw [← getElem?_rowSegments hlt, ← hsegments]
        exact hsegment
      have hpayload := hresolved segment (List.mem_of_getElem? hsegment)
      refine ⟨p.handed.row.firstSegment + index, segment, ?_, horigin, ⟨rfl, fun _ => rfl, ?_⟩,
        hpayload, fun _ => hpayload⟩
      · rw [if_neg (by omega), horigin]
        rfl
      · exact fun hnil => absurd hnil hpayload
  | projected hprojected hsegments hsources hsourced =>
    have hboth : m.projected.generation = p.generation ∧ m.projected.segments ≠ [] :=
      ⟨hprojected, hsegments ▸ h.segments⟩
    rw [if_pos hboth, hsegments]
    constructor
    · intro hnone
      have hnone' : p.handed.request.segments[index]? = none := hnone
      rw [hnone']
    · intro segment hsegment
      have hsegment' : p.handed.request.segments[index]? = some segment := hsegment
      have hlt := (List.getElem?_eq_some_iff.mp hsegment').1
      obtain ⟨source, origin, hsource, horigin, hnamed⟩ := hsourced.named index segment hsegment'
      have hpayload := hsourced.resolved segment (List.mem_of_getElem? hsegment')
      have hbounded := hsourced.bounded
      refine ⟨source, origin, ?_, horigin, hnamed, hpayload, fun hne => absurd hprojected hne⟩
      rw [hsegment']
      dsimp only
      rw [if_neg (by omega)]
      cases hlist : m.projected.sources with
      | some sources =>
        rw [hlist, Option.getD_some] at hsource
        dsimp only
        rw [hsource]
        rfl
      | none =>
        rw [hlist, Option.getD_none] at hsource
        have hforeach : P.foreach = [] := by
          by_contra hne
          exact hsources hne hlist
        have hsame : row = p.handed.row := by
          refine hrow.resolve_left fun hkept => ?_
          rw [Playback.hasSources, hforeach] at hkept
          cases hkept
        subst hsame
        have hcount := (List.getElem?_eq_some_iff.mp hsource).1
        rw [List.length_range'] at hcount
        rw [List.getElem?_range' hcount, Nat.one_mul] at hsource
        cases hsource
        rw [if_neg (by omega)]

section

variable {p : Playback} {m : Media} {row : Row} {index : ℕ} {timing : Option ℕ}

variable (index) in
theorem markSegment_refused (h : Ready P p.handed m) (hmarks : Marks P p m)
    (hrow : p.hasSources P = true ∨ row = p.handed.row)
    (hremembers : p.isMark index = true → p.remembers timing = true)
    (hrefused : p.isMark index = false ∨ p.forward index timing = false) :
    (markSegment P m p.generation row index timing).1 ≠ .accepted ∧
      (markSegment P m p.generation row index timing).2 = m := by
  obtain ⟨hnone, hsome⟩ := observe_eq h hmarks.nonzero hrow index
  rw [markSegment]
  split
  · exact ⟨fun heq => (by cases heq), rfl⟩
  · cases hsegment : p.segments[index]? with
    | none =>
      rw [hnone hsegment]
      exact ⟨fun heq => (by cases heq), rfl⟩
    | some segment =>
      obtain ⟨source, origin, hobserve, horigin, -⟩ := hsome segment hsegment
      rw [hobserve]
      dsimp only
      rw [horigin]
      dsimp only
      split
      next => exact ⟨fun heq => (by cases heq), rfl⟩
      next hkind =>
        rw [not_or, not_not, not_not] at hkind
        have hmark : p.isMark index = true := by
          rw [Playback.isMark, hsegment, Option.any_some, hkind.2]
          rfl
        rw [hmark] at hrefused
        rw [outOfOrder_eq hmarks (hremembers hmark), hrefused.resolve_left (by decide),
          Bool.not_false,
          if_pos rfl]
        exact ⟨fun heq => (by cases heq), rfl⟩

/-- **A mark of the batch in order is accepted**, and is then the last one. -/
theorem markSegment_accepted (h : Ready P p.handed m) (hmarks : Marks P p m)
    (hvalid : row.Valid P) (hrow : p.hasSources P = true ∨ row = p.handed.row)
    (hremembers : p.isMark index = true → p.remembers timing = true)
    (hmark : p.isMark index = true) (hforward : p.forward index timing = true) :
    (markSegment P m p.generation row index timing).1 = .accepted ∧
      (∃ source name, (markSegment P m p.generation row index timing).2 =
        m.accept index source name timing) ∧
      Marks P { p with accepted := (index, timing) :: p.accepted }
        (markSegment P m p.generation row index timing).2 := by
  obtain ⟨-, hsome⟩ := observe_eq h hmarks.nonzero hrow index
  have hordered : ((index, timing) :: p.accepted).Pairwise fun a b =>
      b.1 < a.1 ∧ ∀ elapsed ∈ a.2, ∀ before ∈ b.2, before ≤ elapsed := by
    rw [List.pairwise_cons]
    refine ⟨fun a ha => ?_, hmarks.ordered⟩
    rw [Playback.forward, List.all_eq_true] at hforward
    have hall := hforward a ha
    simpa [Option.all_eq_true] using hall
  rw [markSegment, if_neg (Nat.not_lt_of_le hvalid.segments.2.1)]
  cases hsegment : p.segments[index]? with
  | none =>
    rw [Playback.isMark, hsegment] at hmark
    cases hmark
  | some segment =>
    obtain ⟨source, origin, hobserve, horigin, hnamed, hpayload, hstatic⟩ := hsome segment hsegment
    have hkind : segment.kind = .mark := by
      rw [Playback.isMark, hsegment, Option.any_some] at hmark
      exact of_decide_eq_true hmark
    have hkind' : origin.kind = .mark := hnamed.kind.symm.trans hkind
    rw [hobserve]
    dsimp only
    rw [horigin]
    dsimp only
    rw [if_neg (by rw [not_or, not_not, not_not]; exact ⟨hkind', hkind⟩),
      outOfOrder_eq hmarks (hremembers hmark), hforward, if_neg (by decide)]
    split
    next hcopied =>
      rw [if_neg]
      · exact ⟨rfl, ⟨source, segment.payload, rfl⟩, hmarks.generation, hmarks.nonzero, hordered,
          rfl, rfl, segment, origin, source, hsegment, rfl, horigin, hkind', hpayload,
          Or.inr ⟨rfl, hnamed.size hcopied.2⟩⟩
      · rintro (hempty | hlong)
        · exact hpayload hempty
        · exact absurd (hnamed.size hcopied.2) (Nat.not_le_of_lt hlong)
    next hliteral =>
      have hne : origin.payload ≠ [] := by
        intro hnil
        by_cases hcurrent : m.projected.generation = p.generation
        · exact hliteral ⟨hcurrent, hnil⟩
        · exact hstatic hcurrent hnil
      exact ⟨rfl, ⟨source, [], rfl⟩, hmarks.generation, hmarks.nonzero, hordered, rfl, rfl,
        segment, origin, source, hsegment, rfl, horigin, hkind', hpayload,
        Or.inl ⟨rfl, (hnamed.payload hne).symm⟩⟩

end

theorem le_foldl_max {l : List ℕ} {start n : ℕ} (h : n ≤ start ∨ n ∈ l) :
    n ≤ l.foldl max start := by
  induction l generalizing start with
  | nil => exact h.resolve_right (List.not_mem_nil)
  | cons a l ih =>
    refine ih ?_
    rcases h with hstart | hmem
    · exact .inl (Nat.le_trans hstart (Nat.le_max_left _ _))
    · rcases List.mem_cons.mp hmem with rfl | hrest
      · exact .inl (Nat.le_max_right _ _)
      · exact .inr hrest

theorem lastMarkNameCapacity_le (P : Program) :
    P.lastMarkNameCapacity ≤ P.options.maxDynamicMarkNameBytes := by
  rw [Program.lastMarkNameCapacity]
  split
  · exact Nat.zero_le _
  · exact Nat.le_refl _

theorem bargeResult_eq {p : Playback} (h : Marks P p m) (timing : Option ℕ) :
    (∃ m', bargeResult P m p.generation timing = .ok m' ∧ SameMarks m m') ∧
        (∀ last rest, p.accepted = last :: rest → ∀ elapsed ∈ timing, ∀ before ∈ last.2,
          before ≤ elapsed) ∨
      (∃ e, bargeResult P m p.generation timing = .error e) ∧
        ∃ last rest, p.accepted = last :: rest ∧ ∃ elapsed ∈ timing, ∃ before ∈ last.2,
          elapsed < before := by
  have hmarked := h.marked
  rw [Marked] at hmarked
  cases timing with
  | none =>
    refine .inl ⟨⟨_, rfl, ⟨rfl, rfl, rfl, rfl, rfl, rfl, rfl⟩⟩, ?_⟩
    intro last rest _ elapsed helapsed
    cases helapsed
  | some elapsed =>
    rw [bargeResult]
    rcases haccepted : p.accepted with _ | ⟨⟨index, time⟩, rest⟩
    · rw [haccepted] at hmarked
      rw [publishMark, hmarked.1]
      refine .inl ⟨⟨_, rfl, ⟨rfl, rfl, rfl, hmarked.1.symm, rfl, rfl, rfl⟩⟩, ?_⟩
      intro last rest heq
      cases heq
    · rw [haccepted] at hmarked
      obtain ⟨-, htime, segment, origin, source, hsegment, hsource, horigin, hkind, hne, hname⟩ :=
        hmarked
      rw [publishMark, hsource, htime]
      cases time with
      | none =>
        refine .inl ⟨⟨_, rfl, ⟨rfl, rfl, rfl, hsource.symm, rfl, rfl, htime.symm⟩⟩, ?_⟩
        intro last rest' heq elapsed' _ before hbefore
        cases heq
        cases hbefore
      | some time =>
        by_cases hlt : elapsed < time
        · refine .inr ⟨⟨_, if_pos hlt⟩, _, _, rfl, elapsed, rfl, time, rfl, hlt⟩
        · have hview : lastMarkName P m source = .ok segment.payload := by
            rw [lastMarkName, horigin]
            dsimp only
            rw [if_neg (not_not.mpr hkind)]
            rcases hname with ⟨hnil, horiginal⟩ | ⟨hcopied, hle⟩
            · rw [if_neg (not_not.mpr hnil), if_neg (by rw [horiginal]; exact hne), horiginal]
            · rw [if_pos (by rw [hcopied]; exact hne), if_neg (by rw [hcopied]; omega), hcopied]
          have hroom : segment.payload.length ≤ P.resultNameCapacity := by
            refine le_foldl_max ?_
            rcases hname with ⟨-, horiginal⟩ | ⟨-, hle⟩
            · refine .inr (List.mem_map.mpr ⟨origin, ?_, by rw [horiginal]⟩)
              exact List.mem_filter.mpr ⟨List.mem_of_getElem? horigin, by rw [hkind]; rfl⟩
            · exact .inl (Nat.le_trans hle (lastMarkNameCapacity_le P))
          refine .inl ⟨⟨{ m with result := some ⟨segment.payload, elapsed - time, p.generation⟩ },
            ?_, ⟨rfl, rfl, rfl, rfl, rfl, rfl, rfl⟩⟩, ?_⟩
          · dsimp only
            rw [if_neg hlt, hview]
            dsimp only
            rw [if_neg, hsource, htime]
            rintro (hempty | hlong)
            · exact hne hempty
            · omega
          · intro last rest' heq elapsed' helapsed before hbefore
            cases heq
            cases helapsed
            cases hbefore
            omega

/-! ## The invariant -/

structure Flying (P : Program) (p : Playback) (s : Session σ) : Prop where
  ready : Ready P p.handed s.media
  collectGeneration : s.collectGeneration = p.generation
  mailbox : s.media.mailbox.generation = p.generation
  state : s.media.mailbox.state = if p.awaited then .empty else .ready

/-- What holds between a session and its provider. -/
structure Invariant (P : Program) (w : World σ) : Prop where
  selection : w.session.SelectionValid P
  prepared : w.session.media.prepared = true → w.session.media.inFlight = false
  handed : w.session.media.prepared = true → w.session.media.noopPrepared = false →
    ∃ h, w.handed = some h ∧ Ready P h w.session.media ∧
      h.request.generation = w.session.collectGeneration
  idle : w.session.media.inFlight = false → w.session.media.mailbox.state = .disarmed
  played : w.session.media.inFlight = true → w.play ≠ none
  held : ∀ p ∈ w.play, p.held = w.session.media.inFlight
  flying : w.session.media.inFlight = true → ∀ p ∈ w.play, Flying P p w.session
  marks : ∀ p ∈ w.play, Marks P p w.session.media

variable {w : World σ}

theorem invariant_initial (h : Initial w) : Invariant P w := by
  obtain ⟨hmedia, hselection, -, hplay⟩ := h
  refine ⟨?_, ?_, ?_, ?_, ?_, ?_, ?_, ?_⟩
  · intro c hc
    rw [hselection] at hc
    cases hc
  · rw [hmedia]
    exact fun _ => rfl
  · rw [hmedia]
    intro hprepared
    cases hprepared
  · rw [hmedia]
    exact fun _ => rfl
  · rw [hmedia]
    intro hflight
    cases hflight
  · rw [hplay]
    intro p hp
    cases hp
  · rw [hplay]
    intro _ p hp
    cases hp
  · rw [hplay]
    intro p hp
    cases hp

variable {s : Session σ}

theorem Invariant.of_media (h : Invariant P w) (hselection : s.SelectionValid P)
    (hmedia : ∃ result, s.media = { w.session.media with result := result })
    (hgeneration : s.collectGeneration = w.session.collectGeneration) :
    Invariant P { w with session := s } := by
  obtain ⟨result, hmedia⟩ := hmedia
  refine ⟨hselection, ?_, ?_, ?_, ?_, ?_, ?_, ?_⟩
  · rw [hmedia]
    exact h.prepared
  · rw [hmedia, hgeneration]
    intro hprepared hnoop
    obtain ⟨b, hb, hready, hcurrent⟩ := h.handed hprepared hnoop
    exact ⟨b, hb, ⟨hready.stored, hready.valid, hready.bargein, hready.bargeinType,
      hready.segments, hready.generation⟩, hcurrent⟩
  · rw [hmedia]
    exact h.idle
  · rw [hmedia]
    exact h.played
  · rw [hmedia]
    exact h.held
  · rw [hmedia]
    intro hflight p hp
    have hflying := h.flying hflight p hp
    have hready := hflying.ready
    refine ⟨?_, hgeneration.trans hflying.collectGeneration, ?_, ?_⟩
    · rw [hmedia]
      exact ⟨hready.stored, hready.valid, hready.bargein, hready.bargeinType, hready.segments,
        hready.generation⟩
    · rw [hmedia]
      exact hflying.mailbox
    · rw [hmedia]
      exact hflying.state
  · rw [hmedia]
    exact fun p hp => (h.marks p hp).of_same ⟨rfl, rfl, rfl, rfl, rfl, rfl, rfl⟩

variable {handed : Option Handed}

theorem Invariant.of_prepares (h : Invariant P w) (hflight : w.session.media.inFlight = false)
    (hprepared : w.session.media.prepared = false) {result : Except Status (Option Handed)}
    (hprepares : Prepares P w.session (s, result))
    (hhanded : ∀ b, result = .ok b → handed = b) :
    Invariant P { w with session := s, handed := handed } := by
  have hmarks : SameMarks w.session.media s.media := hprepares.marks
  have hflight' : s.media.inFlight = false := hmarks.inFlight.trans hflight
  refine ⟨hprepares.selection, fun _ => hflight', ?_, ?_, ?_, ?_, ?_, ?_⟩
  · intro hp hnoop
    cases result with
    | error e => exact absurd ((hprepares.failed e rfl).symm.trans hp) (by rw [hprepared]; decide)
    | ok b =>
      cases b with
      | none => exact absurd ((hprepares.noop rfl).2.symm.trans hnoop) (by decide)
      | some b =>
        obtain ⟨-, -, hready, hgeneration⟩ := hprepares.handed b rfl
        exact ⟨b, hhanded _ rfl, hready, hgeneration.trans hprepares.collectGeneration.symm⟩
  · intro _
    change s.media.mailbox.state = _
    rw [hmarks.mailbox]
    exact h.idle hflight
  · intro hp
    rw [hflight'] at hp
    cases hp
  · intro p hp
    exact (h.held p hp).trans (hflight.trans hflight'.symm)
  · intro hp
    rw [hflight'] at hp
    cases hp
  · exact fun p hp => (h.marks p hp).of_same hmarks

theorem prepareAllowed_eq_true {ready : Bool} (h : prepareAllowed ready s = true) :
    s.media.prepared = false ∧ s.media.inFlight = false := by
  simp only [prepareAllowed, Bool.and_eq_true, Bool.not_eq_true'] at h
  exact ⟨h.1.1.1.2, h.1.1.2⟩

theorem invariant_prepare (h : Invariant P w) (provider : Provider) :
    Invariant P (next P host w (.prepare provider)) := by
  rw [next]
  by_cases hallowed : prepareAllowed false w.session = false
  · rw [prepare, if_pos hallowed]
    exact h
  · obtain ⟨hprepared, hflight⟩ := prepareAllowed_eq_true (Bool.of_not_eq_false hallowed)
    have hprepares := prepares_prepare host provider h.selection
    revert hprepares
    rcases prepare P host provider w.session with ⟨s, result⟩
    intro hprepares
    cases result with
    | error e => exact h.of_prepares hflight hprepared hprepares fun b hb => by cases hb
    | ok handed =>
      exact h.of_prepares hflight hprepared hprepares fun b hb => by cases hb; rfl

theorem invariant_committed (h : Invariant P w) {flying : Bool}
    (hcommit : commit w.session = (s, .ok flying)) :
    Invariant P ⟨s, none, if flying then w.handed.map Playback.start else none⟩ ∧
      w.session.media.prepared = true ∧ flying = !w.session.media.noopPrepared := by
  have hvalues : ∀ m : Media,
      Session.SelectionValid P { w.session.commitValues with media := m } := by
    intro m c hc
    have hc' : c ∈ w.session.commitValues.selection := hc
    rw [Session.commitValues] at hc'
    split at hc'
    · exact h.selection c hc'
    · exact h.selection c hc'
  have hcollect : w.session.commitValues.collectGeneration = w.session.collectGeneration := by
    rw [Session.commitValues]
    split <;> rfl
  rw [commit] at hcommit
  split at hcommit
  next => cases hcommit
  next hguard =>
    rw [not_or, not_or, not_or] at hguard
    obtain ⟨-, hprepared, hflight, hzero⟩ := hguard
    have hprepared' := Bool.of_not_eq_false hprepared
    have hflight' := Bool.of_not_eq_true hflight
    split at hcommit
    next hnoop =>
      cases hcommit
      refine ⟨⟨hvalues _, ?_, ?_, fun _ => h.idle hflight', ?_, ?_, ?_, ?_⟩, hprepared', ?_⟩
      · intro hp
        cases hp
      · intro hp
        cases hp
      · exact fun hp => absurd hp hflight
      · intro p hp
        cases hp
      · intro _ p hp
        cases hp
      · intro p hp
        cases hp
      · rw [hnoop]
        rfl
    next hnoop =>
      have hnoop' := Bool.of_not_eq_true hnoop
      split at hcommit
      next => cases hcommit
      next =>
        cases hcommit
        obtain ⟨b, hb, hready, hgeneration⟩ := h.handed hprepared' hnoop'
        rw [hb]
        have hnonzero : b.request.generation ≠ 0 := hready.generation ▸ hzero
        refine ⟨⟨hvalues _, ?_, ?_, ?_, ?_, ?_, ?_, ?_⟩, hprepared', ?_⟩
        · intro hp
          cases hp
        · intro hp
          cases hp
        · intro hp
          cases hp
        · intro _ hnone
          cases hnone
        · intro p hp
          cases hp
          rfl
        · intro _ p hp
          cases hp
          refine ⟨⟨hready.stored, hready.valid, hready.bargein, hready.bargeinType,
            hready.segments, hready.generation⟩, ?_, hready.generation, rfl⟩
          exact hcollect.trans hgeneration.symm
        · intro p hp
          cases hp
          exact ⟨hready.generation, hnonzero, List.Pairwise.nil, rfl, rfl, rfl⟩
        · rw [hnoop']
          rfl

theorem commit_error {s' : Session σ} {e : Status} (h : commit s = (s', .error e)) : s' = s := by
  rw [commit] at h
  split at h
  next => cases h; rfl
  next =>
    split at h
    next => cases h
    next =>
      split at h
      next => cases h; rfl
      next => cases h

theorem invariant_commit (h : Invariant P w) : Invariant P (next P host w .commit) := by
  rw [next]
  cases hcommit : commit w.session with
  | mk s result =>
    cases result with
    | error e =>
      rw [commit_error hcommit]
      exact h
    | ok flying => exact (invariant_committed h hcommit).1

/-! ## One step -/

theorem beginTransaction_media {provider : Provider} {s' : Session σ}
    (h : beginTransaction P provider s = .ok s') : s'.media = s.media := by
  rw [beginTransaction] at h
  split at h
  · cases h; rfl
  · split at h
    · cases h
    · split at h
      · cases h
      · cases h; rfl

theorem abort_media (s : Session σ) : s.abort.media = s.media := by
  rw [Session.abort]
  split <;> rfl

theorem Invariant.of_framed (h : Invariant P w) (hframe : Framed P w.session s)
    (hmedia : s.media = w.session.media) :
    Invariant P { w with session := s } :=
  h.of_media (hframe.selection h.selection) ⟨w.session.media.result, hmedia⟩
    hframe.collectGeneration

theorem framed_commitValues (s : Session σ) : Framed P s s.commitValues := by
  rw [Session.commitValues]
  split
  · exact ⟨rfl, id, rfl⟩
  · exact .refl s

theorem commitValues_media (s : Session σ) : s.commitValues.media = s.media := by
  rw [Session.commitValues]
  split <;> rfl

theorem invariant_progress (h : Invariant P w) (provider : Provider) :
    Invariant P (next P host w (.progress provider)) := by
  rw [next, progress]
  cases hbegin : beginTransaction P provider w.session with
  | error e => exact h
  | ok s₁ =>
    have hframe₁ := framed_beginTransaction hbegin
    have hmedia₁ := beginTransaction_media hbegin
    have hselect := framed_selectedPromptRow P host provider.opens s₁
    have hselectMedia := (sameState_selectedPromptRow P host provider.opens
      s₁).media
    dsimp only
    revert hselect hselectMedia
    rcases selectedPromptRow P host provider.opens s₁ with ⟨result, s₂⟩
    intro hselect hselectMedia
    have hframe₂ : Framed P w.session s₂ := hframe₁.trans hselect
    have hmedia₂ : s₂.media = w.session.media := hselectMedia.trans hmedia₁
    have haborted := h.of_framed (hframe₂.trans (framed_abort s₂))
      ((abort_media s₂).trans hmedia₂)
    cases result with
    | error e => exact haborted
    | ok selected =>
      obtain ⟨field, row, count⟩ := selected
      cases row with
      | none =>
        exact h.of_framed (hframe₂.trans (framed_commitValues s₂))
          ((commitValues_media s₂).trans hmedia₂)
      | some row =>
        dsimp only
        by_cases hallowed : prepareAllowed true s₂ = false
        · rw [if_pos hallowed]
          exact haborted
        · rw [if_neg hallowed]
          obtain ⟨hprepared, hflight⟩ := prepareAllowed_eq_true (Bool.of_not_eq_false hallowed)
          rw [hmedia₂] at hprepared hflight
          have hprepares := (prepares_prepareSelected host provider
            (hframe₂.selection h.selection)).trans hframe₂
          revert hprepares
          rcases prepareSelected P host provider s₂ with ⟨s₃, result⟩
          intro hprepares
          cases result with
          | error e =>
            have hfailed : Prepares P w.session (s₃.abort, .error e) := by
              have hselection : s₃.SelectionValid P := hprepares.selection
              have habort := framed_abort (P := P) s₃
              refine ⟨habort.selection hselection, ?_, ?_, ?_, ?_, ?_⟩
              · exact habort.collectGeneration.trans hprepares.collectGeneration
              · exact hprepares.marks.trans habort.sameMarks
              · exact fun e' _ => habort.prepared.trans (hprepares.failed e rfl)
              · intro heq
                cases heq
              · intro b heq
                cases heq
            exact h.of_prepares hflight hprepared hfailed fun b hb => by cases hb
          | ok handed =>
            have hready : Invariant P { w with session := s₃, handed := handed } :=
              h.of_prepares hflight hprepared hprepares fun b hb => by cases hb; rfl
            dsimp only
            cases hcommit : commit s₃ with
            | mk s₄ result =>
              cases result with
              | error e =>
                rw [commit_error hcommit]
                exact hready
              | ok flying =>
                obtain ⟨hinvariant, -, hflying⟩ := invariant_committed hready hcommit
                cases handed with
                | none =>
                  have hnoop : s₃.media.noopPrepared = true := (hprepares.noop rfl).2
                  have hfalse : flying = false := by
                    rw [hflying]
                    change (!s₃.media.noopPrepared) = false
                    rw [hnoop]
                    rfl
                  rw [hfalse] at hinvariant
                  exact hinvariant
                | some b =>
                  have hnoop : s₃.media.noopPrepared = false := (hprepares.handed b rfl).2.1
                  have htrue : flying = true := by
                    rw [hflying]
                    change (!s₃.media.noopPrepared) = true
                    rw [hnoop]
                    rfl
                  rw [htrue] at hinvariant
                  exact hinvariant

theorem invariant_discard (h : Invariant P w) : Invariant P (next P host w .discard) := by
  rw [next, discard]
  by_cases hguard : w.session.state ≠ .running ∨ w.session.media.prepared = false
  · rw [if_pos hguard]
    exact h
  · rw [if_neg hguard]
    rw [not_or] at hguard
    have hflight := h.prepared (Bool.of_not_eq_false hguard.2)
    refine ⟨(framed_abort w.session).selection h.selection, fun _ => hflight, ?_,
      fun _ => h.idle hflight, ?_, ?_, ?_, ?_⟩
    · intro hp
      cases hp
    · intro hp
      exact absurd (hp.symm.trans hflight) (by decide)
    · exact h.held
    · intro hp
      exact absurd (hp.symm.trans hflight) (by decide)
    · exact fun p hp => (h.marks p hp).of_same ⟨rfl, rfl, rfl, rfl, rfl, rfl, rfl⟩

theorem Marks.release {p : Playback} (h : Marks P p m) : Marks P p.release m :=
  ⟨h.generation, h.nonzero, h.ordered, h.marked⟩

theorem Invariant.of_released (h : Invariant P w)
    (hselection : s.SelectionValid P) (hflight : s.media.inFlight = false)
    (hprepared : s.media.prepared = false) (hmailbox : s.media.mailbox.state = .disarmed)
    (hmarks : ∀ p, Marks P p w.session.media → Marks P p s.media) :
    Invariant P ⟨s, handed, w.play.map Playback.release⟩ := by
  refine ⟨hselection, fun _ => hflight, ?_, fun _ => hmailbox, ?_, ?_, ?_, ?_⟩
  · intro hp
    exact absurd (hp.symm.trans hprepared) (by decide)
  · intro hp
    exact absurd (hp.symm.trans hflight) (by decide)
  · intro p hp
    obtain ⟨q, -, rfl⟩ := Option.map_eq_some_iff.mp hp
    exact hflight.symm
  · intro hp
    exact absurd (hp.symm.trans hflight) (by decide)
  · intro p hp
    obtain ⟨q, hq, rfl⟩ := Option.map_eq_some_iff.mp hp
    exact (hmarks q (h.marks q hq)).release

theorem state_disarm (h : Invariant P w) : w.session.media.mailbox.disarm.state = .disarmed := by
  have hopen : w.session.media.mailbox.state ≠ .closed := by
    cases hflight : w.session.media.inFlight with
    | false =>
      rw [h.idle hflight]
      decide
    | true =>
      cases hplay : w.play with
      | none => exact absurd hplay (h.played hflight)
      | some p =>
        rw [(h.flying hflight p hplay).state]
        split <;> decide
  exact if_neg hopen

theorem invariant_settles (h : Invariant P w) (c : Change P σ) (active : Events.Active)
    (collectGeneration : ℕ) :
    Invariant P (next P host w (.settles c active collectGeneration)) := by
  refine h.of_released c.valid ?_ rfl (state_disarm h) ?_
  · change (if w.session.media.prepared then w.session.media.inFlight else false) = false
    split
    next hprepared => exact h.prepared hprepared
    next => rfl
  · exact fun p hp => ⟨hp.generation, hp.nonzero, hp.ordered, hp.marked⟩

theorem invariant_call (h : Invariant P w) (c : Change P σ) :
    Invariant P (next P host w (.call c)) :=
  h.of_media c.valid ⟨c.result, rfl⟩ rfl

theorem sameMarks_publishMark {generation terminal : ℕ}
    (h : publishMark P m generation terminal = .ok m') :
    ∃ result, m' = { m with result := result } := by
  rw [publishMark] at h
  split at h
  next =>
    split at h
    next => cases h
    next =>
      split at h
      next => cases h
      next =>
        split at h
        next => cases h
        next => cases h; exact ⟨_, rfl⟩
  next => cases h; exact ⟨_, rfl⟩

theorem completionResult_eq (m : Media) :
    ∃ result, completionResult P m = { m with result := result } := by
  rw [completionResult]
  split
  next =>
    split
    next => exact ⟨m.result, rfl⟩
    next hpublish => exact sameMarks_publishMark hpublish
  next => exact ⟨none, rfl⟩

theorem invariant_runReady (h : Invariant P w) : Invariant P (next P host w .runReady) := by
  rw [next, runReady]
  by_cases hguard : w.session.state ≠ .running ∨ w.session.media.mailbox.state ≠ .ready
  · rw [if_pos hguard]
    exact h
  · rw [if_neg hguard]
    rw [not_or, not_not, not_not] at hguard
    have hflight : w.session.media.inFlight = true := by
      by_contra hidle
      have hdisarmed := h.idle (Bool.of_not_eq_true hidle)
      rw [hguard.2] at hdisarmed
      cases hdisarmed
    obtain ⟨result, hresult⟩ := completionResult_eq (P := P) w.session.media
    refine h.of_released h.selection rfl ?_ (state_disarm h) ?_
    · rw [hresult]
      cases hprepared : w.session.media.prepared with
      | false => rfl
      | true => exact absurd ((h.prepared hprepared).symm.trans hflight) (by decide)
    · intro p hp
      rw [hresult]
      exact ⟨hp.generation, hp.nonzero, hp.ordered, hp.marked⟩

theorem tryComplete_cases (generation : ℕ) (outcome : Outcome) (timing : Option ℕ)
    (s : Session σ) :
    ((tryComplete generation outcome timing s).1 ≠ .accepted ∧
        (tryComplete generation outcome timing s).2 = s) ∨
      (tryComplete generation outcome timing s = (.accepted,
          { s with
            media := { s.media with mailbox := ⟨.ready, generation, outcome, timing⟩ } }) ∧
        s.media.mailbox.state = .empty ∧ s.media.inFlight = true ∧
        generation = s.media.mailbox.generation) := by
  rw [tryComplete]
  split
  next => exact .inl ⟨fun heq => (by cases heq), rfl⟩
  next =>
    split
    next => exact .inl ⟨fun heq => (by cases heq), rfl⟩
    next =>
      cases hmailbox : s.media.mailbox.state with
      | closed => exact .inl ⟨fun heq => (by cases heq), rfl⟩
      | disarmed => exact .inl ⟨fun heq => (by cases heq), rfl⟩
      | ready => exact .inl ⟨fun heq => (by cases heq), rfl⟩
      | empty =>
        dsimp only
        split
        next => exact .inl ⟨fun heq => (by cases heq), rfl⟩
        next hcurrent =>
          split
          next => exact .inl ⟨fun heq => (by cases heq), rfl⟩
          next =>
            rw [not_or, not_or, not_not] at hcurrent
            exact .inr ⟨rfl, rfl, Bool.of_not_eq_false hcurrent.1, hcurrent.2.1⟩

theorem invariant_tryComplete (h : Invariant P w) (generation : ℕ) (outcome : Outcome)
    (timing : Option ℕ) :
    Invariant P (next P host w (.tryComplete generation outcome timing)) := by
  rw [next]
  rcases tryComplete_cases generation outcome timing w.session with
    ⟨hrefused, hsame⟩ | ⟨haccepted, -, hflight, hgeneration⟩
  · revert hrefused hsame
    rcases tryComplete generation outcome timing w.session with ⟨answer, s⟩
    intro hrefused hsame
    have hs : s = w.session := hsame
    subst hs
    cases answer with
    | accepted => exact absurd rfl hrefused
    | closed => exact h
    | stale => exact h
    | full => exact h
    | invalidArgument => exact h
  · rw [haccepted]
    refine ⟨h.selection, h.prepared, ?_, ?_, ?_, ?_, ?_, ?_⟩
    · exact fun hp => absurd ((h.prepared hp).symm.trans hflight) (by decide)
    · exact fun hp => absurd (hp.symm.trans hflight) (by decide)
    · intro _ hnone
      exact h.played hflight (Option.map_eq_none_iff.mp hnone)
    · intro p hp
      obtain ⟨q, hq, rfl⟩ := Option.map_eq_some_iff.mp hp
      exact h.held q hq
    · intro _ p hp
      obtain ⟨q, hq, rfl⟩ := Option.map_eq_some_iff.mp hp
      have hflying := h.flying hflight q hq
      have hready := hflying.ready
      exact ⟨⟨hready.stored, hready.valid, hready.bargein, hready.bargeinType, hready.segments,
        hready.generation⟩, hflying.collectGeneration, hgeneration.trans hflying.mailbox, rfl⟩
    · intro p hp
      obtain ⟨q, hq, rfl⟩ := Option.map_eq_some_iff.mp hp
      have hmarks := h.marks q hq
      exact ⟨hmarks.generation, hmarks.nonzero, hmarks.ordered, hmarks.marked⟩

/-! ## Reports in a run -/

variable {opens : Bool}

theorem selectedRow_eq_some {row : Row} (h : w.selectedRow P host opens = some row) :
    ∃ field index count s, selectedPromptRow P host opens w.session =
      (.ok ⟨field, some (index, row), count⟩, s) := by
  rw [World.selectedRow] at h
  rcases hselect : selectedPromptRow P host opens w.session with ⟨result, s⟩
  rw [hselect] at h
  cases result with
  | error e => cases h
  | ok selected =>
    obtain ⟨field, found, count⟩ := selected
    cases found with
    | none => cases h
    | some r =>
      obtain ⟨index, row'⟩ := r
      cases h
      exact ⟨field, index, count, s, rfl⟩

variable {generation : ℕ}

theorem inFlight_eq_true {p : Playback} : w.inFlight generation p = true ↔
      w.session.state = .running ∧ p.generation = generation ∧ p.held = true ∧
        p.awaited = true := by
  simp only [World.inFlight, Bool.and_eq_true, decide_eq_true_eq, and_assoc]

variable (h : Invariant P w)
include h

theorem Invariant.inFlight_iff (generation : ℕ) :
    (∃ p, w.play = some p ∧ w.inFlight generation p = true) ↔
      generation ≠ 0 ∧ w.session.state = .running ∧
        markStale w.session.media generation = false := by
  constructor
  · rintro ⟨p, hp, hinFlight⟩
    obtain ⟨hrunning, rfl, hheld, hawaited⟩ := inFlight_eq_true.mp hinFlight
    have hflight := (h.held p hp).symm.trans hheld
    have hflying := h.flying hflight p hp
    have hmarks := h.marks p hp
    have hstate := hflying.state
    rw [hawaited, if_pos rfl] at hstate
    refine ⟨hmarks.nonzero, hrunning, ?_⟩
    have hgeneration : w.session.media.generation = p.generation := hflying.ready.generation
    rw [markStale, hflight, hgeneration, hmarks.generation, hstate]
    simp
  · rintro ⟨-, hrunning, hfresh⟩
    simp only [markStale, Bool.or_eq_false_iff, Bool.not_eq_false', bne_eq_false_iff_eq] at hfresh
    obtain ⟨⟨⟨hflight, hgeneration⟩, -⟩, hempty⟩ := hfresh
    cases hplay : w.play with
    | none => exact absurd hplay (h.played hflight)
    | some p =>
      have hflying := h.flying hflight p hplay
      have hstate := hflying.state
      rw [hempty] at hstate
      refine ⟨p, rfl, inFlight_eq_true.mpr ⟨hrunning, ?_, (h.held p hplay).trans hflight, ?_⟩⟩
      · exact hflying.ready.generation.symm.trans hgeneration
      · by_contra hdone
        rw [if_neg hdone] at hstate
        cases hstate

variable (host) in
theorem mark_of_not_inFlight (opens : Bool) (index : ℕ)
    (timing : Option ℕ) (hnone : ¬∃ p, w.play = some p ∧ w.inFlight generation p = true) :
    (mark P host opens generation index timing w.session).1 ≠ .accepted ∧
      (mark P host opens generation index timing w.session).2 = w.session := by
  rw [h.inFlight_iff] at hnone
  rw [mark]
  split
  next => exact ⟨fun heq => (by cases heq), rfl⟩
  next hgeneration =>
    split
    next => exact ⟨fun heq => (by cases heq), rfl⟩
    next =>
      split
      next => exact ⟨fun heq => (by cases heq), rfl⟩
      next hrunning =>
        rw [if_pos]
        · exact ⟨fun heq => (by cases heq), rfl⟩
        · by_contra hfresh
          exact hnone ⟨hgeneration, not_not.mp hrunning, Bool.of_not_eq_true hfresh⟩

theorem mark_of_inFlight {index : ℕ} {p : Playback}
    (hp : w.play = some p) (hinFlight : w.inFlight p.generation p = true)
    (hagrees : agrees P host w (.mark opens p.generation index timing) = true) :
    ∃ row s, row.Valid P ∧ (p.hasSources P = true ∨ row = p.handed.row) ∧
      (p.isMark index = true → p.remembers timing = true) ∧ Framed P w.session s ∧
      s.media = w.session.media ∧
      mark P host opens p.generation index timing w.session =
        ((markSegment P w.session.media p.generation row index timing).1,
          { s with media := (markSegment P w.session.media p.generation row index timing).2 }) := by
  obtain ⟨hnonzero, hrunning, hfresh⟩ := (h.inFlight_iff _).mp ⟨p, hp, hinFlight⟩
  rw [agrees, hp, Option.all_some, hinFlight, Bool.not_true, Bool.false_or, Bool.and_eq_true,
    Option.any_eq_true] at hagrees
  obtain ⟨⟨row, hrow, hsame⟩, hlasting⟩ := hagrees
  have hremembers : p.isMark index = true → p.remembers timing = true := fun hismark => by
    rwa [hismark, Bool.not_true, Bool.false_or] at hlasting
  rw [Bool.or_eq_true, decide_eq_true_eq] at hsame
  obtain ⟨field, i, count, s, hselect⟩ := selectedRow_eq_some hrow
  have hvalid := (selectedPromptRow_valid h.selection).1 _ (congrArg Prod.fst hselect) _ rfl
  have hframe := framed_selectedPromptRow P host opens w.session
  have hmedia := (sameState_selectedPromptRow P host opens w.session).media
  rw [hselect] at hframe hmedia
  refine ⟨row, s, hvalid.2, hsame, hremembers, hframe, hmedia, ?_⟩
  have hopen : w.session.state ≠ .closed := by
    rw [hrunning]
    decide
  rw [mark, if_neg hnonzero, if_neg hopen, if_neg (not_not.mpr hrunning), hfresh,
    if_neg (by decide), hselect]
  have hmedia' : s.media = w.session.media := hmedia
  dsimp only
  rw [hmedia']

theorem Invariant.markAsClaimed {generation index : ℕ}
    (hagrees : agrees P host w (.mark opens generation index timing) = true) :
    MarkAsClaimed P host w opens generation index timing := by
  rw [MarkAsClaimed]
  by_cases hflight : ∃ p, w.play = some p ∧ w.inFlight generation p = true
  · obtain ⟨p, hp, hinFlight⟩ := hflight
    obtain rfl := (inFlight_eq_true.mp hinFlight).2.1
    obtain ⟨row, s, hvalid, hrow, hremembers, -, -, hmark⟩ :=
      mark_of_inFlight h hp hinFlight hagrees
    have hready := (h.flying ((h.held p hp).symm.trans (inFlight_eq_true.mp hinFlight).2.2.1) p
      hp).ready
    rw [hmark, hp, Option.any_some, hinFlight, Bool.true_and, Bool.and_eq_true]
    constructor
    · intro haccepted
      by_contra hrefused
      refine (markSegment_refused index hready (h.marks p hp) hrow hremembers ?_).1
        haccepted
      rw [not_and_or] at hrefused
      exact hrefused.imp Bool.of_not_eq_true Bool.of_not_eq_true
    · rintro ⟨hismark, hforward⟩
      exact (markSegment_accepted hready (h.marks p hp) hvalid hrow hremembers hismark hforward).1
  · refine iff_of_false (mark_of_not_inFlight host h opens index timing hflight).1 ?_
    rw [Option.any_eq_true]
    rintro ⟨p, hp, hall⟩
    rw [Bool.and_eq_true, Bool.and_eq_true] at hall
    exact hflight ⟨p, hp, hall.1.1⟩

theorem invariant_mark {generation index : ℕ}
    (hagrees : agrees P host w (.mark opens generation index timing) = true) :
    Invariant P (next P host w (.mark opens generation index timing)) := by
  rw [next]
  by_cases hflight : ∃ p, w.play = some p ∧ w.inFlight generation p = true
  · obtain ⟨p, hp, hinFlight⟩ := hflight
    obtain rfl := (inFlight_eq_true.mp hinFlight).2.1
    obtain ⟨row, s, hvalid, hrow, hremembers, hframe, hmedia, hmark⟩ :=
      mark_of_inFlight h hp hinFlight hagrees
    have hin := (h.held p hp).symm.trans (inFlight_eq_true.mp hinFlight).2.2.1
    have hflying := h.flying hin p hp
    have hready := hflying.ready
    rw [hmark]
    by_cases hboth : p.isMark index = true ∧ p.forward index timing = true
    · obtain ⟨haccepted, ⟨source, name, heq⟩, hmarks⟩ := markSegment_accepted hready
        (h.marks p hp) hvalid hrow hremembers hboth.1 hboth.2
      rw [haccepted]
      rw [heq] at hmarks ⊢
      refine ⟨hframe.selection h.selection, h.prepared, ?_, ?_, ?_, ?_, ?_, ?_⟩
      · exact fun hprepared => absurd ((h.prepared hprepared).symm.trans hin) (by decide)
      · exact fun hidle => absurd (hidle.symm.trans hin) (by decide)
      · intro _ hnone
        exact h.played hin (Option.map_eq_none_iff.mp hnone)
      · intro q hq
        rw [hp] at hq
        cases hq
        exact h.held p hp
      · intro _ q hq
        rw [hp] at hq
        cases hq
        exact ⟨⟨hready.stored, hready.valid, hready.bargein, hready.bargeinType, hready.segments,
          hready.generation⟩, hframe.collectGeneration.trans hflying.collectGeneration,
          hflying.mailbox, hflying.state⟩
      · intro q hq
        rw [hp] at hq
        cases hq
        exact hmarks
    · rw [not_and_or] at hboth
      obtain ⟨hrefused, heq⟩ := markSegment_refused index hready (h.marks p hp) hrow
        hremembers (hboth.imp Bool.of_not_eq_true Bool.of_not_eq_true)
      have hkept : Invariant P
          { w with session := { s with media :=
            (markSegment P w.session.media p.generation row index timing).2 } } := by
        rw [heq]
        exact h.of_media (hframe.selection h.selection) ⟨w.session.media.result, rfl⟩
          hframe.collectGeneration
      revert hrefused hkept
      rcases markSegment P w.session.media p.generation row index timing with ⟨report, m⟩
      intro hrefused hkept
      cases report with
      | accepted => exact absurd rfl hrefused
      | closed => exact hkept
      | stale => exact hkept
      | notMark => exact hkept
      | outOfOrder => exact hkept
      | invalidArgument => exact hkept
  · obtain ⟨hrefused, hsame⟩ := mark_of_not_inFlight host h opens index timing hflight
    revert hrefused hsame
    rcases mark P host opens generation index timing w.session with ⟨report, s⟩
    intro hrefused hsame
    have hs : s = w.session := hsame
    subst hs
    cases report with
    | accepted => exact absurd rfl hrefused
    | closed => exact h
    | stale => exact h
    | notMark => exact h
    | outOfOrder => exact h
    | invalidArgument => exact h

omit h

theorem bargeResult_ok (h : bargeResult P m generation timing = .ok m') :
    ∃ result, m' = { m with result := result } := by
  cases timing with
  | none =>
    cases h
    exact ⟨none, rfl⟩
  | some elapsed => exact sameMarks_publishMark h

variable (host) in
theorem barge_cases (h : Invariant P w) (opens : Bool) (generation : ℕ) (signal : Signal)
    (timing : Option ℕ) :
    ((barge P host opens generation signal timing w.session).1 ≠ .canceled ∧
        Invariant P { w with
          session := (barge P host opens generation signal timing w.session).2 }) ∨
      ((barge P host opens generation signal timing w.session).1 = .canceled ∧
        Invariant P { w with
          session := (barge P host opens generation signal timing w.session).2
          play := w.play.map Playback.release }) := by
  rw [barge]
  split
  next => exact .inl ⟨fun heq => (by cases heq), h⟩
  next =>
    split
    next => exact .inl ⟨fun heq => (by cases heq), h⟩
    next =>
      split
      next => exact .inl ⟨fun heq => (by cases heq), h⟩
      next =>
        split
        next => exact .inl ⟨fun heq => (by cases heq), h⟩
        next hstale =>
          have hselect := framed_selectedPromptRow P host opens w.session
          have hmedia := (sameState_selectedPromptRow P host opens
            w.session).media
          revert hselect hmedia
          rcases selectedPromptRow P host opens w.session with ⟨result, s⟩
          intro hselect hmedia
          have hkept : Invariant P { w with session := s } := h.of_framed hselect hmedia
          have hmedia' : s.media = w.session.media := hmedia
          cases result with
          | error e => exact .inl ⟨fun heq => (by cases heq), hkept⟩
          | ok selected =>
            obtain ⟨field, found, count⟩ := selected
            cases found with
            | none => exact .inl ⟨fun heq => (by cases heq), hkept⟩
            | some r =>
              dsimp only
              split
              next => exact .inl ⟨fun heq => (by cases heq), hkept⟩
              next =>
                split
                next => exact .inl ⟨fun heq => (by cases heq), hkept⟩
                next =>
                  split
                  next => exact .inl ⟨fun heq => (by cases heq), hkept⟩
                  next m hresult =>
                    refine .inr ⟨rfl, ?_⟩
                    obtain ⟨result, rfl⟩ := bargeResult_ok hresult
                    rw [hmedia']
                    refine h.of_released ?_ ?_ rfl (state_disarm h) ?_
                    · exact (framed_abort (P := P) _).selection
                        (hselect.selection h.selection)
                    · change (if w.session.media.prepared then w.session.media.inFlight
                        else false) = false
                      split
                      next hprepared => exact h.prepared hprepared
                      next => rfl
                    · exact fun p hp => ⟨hp.generation, hp.nonzero, hp.ordered, hp.marked⟩

theorem invariant_barge (h : Invariant P w) (opens : Bool) (generation : ℕ) (signal : Signal)
    (timing : Option ℕ) :
    Invariant P (next P host w (.barge opens generation signal timing)) := by
  have hcases := barge_cases host h opens generation signal timing
  rw [next]
  revert hcases
  rcases barge P host opens generation signal timing w.session with ⟨report, s⟩
  intro hcases
  rcases hcases with ⟨hkept, hinvariant⟩ | ⟨hcanceled, hinvariant⟩
  · cases report with
    | canceled => exact absurd rfl hkept
    | disabled => exact hinvariant
    | stale => exact hinvariant
    | typeMismatch => exact hinvariant
    | invalidArgument => exact hinvariant
  · have hreport : report = .canceled := hcanceled
    subst hreport
    exact hinvariant

theorem Invariant.bargeAsClaimed (h : Invariant P w) {signal : Signal}
    (hagrees : agrees P host w (.barge opens generation signal timing) = true) :
    BargeAsClaimed P host w opens generation signal timing := by
  intro p hp hrunning hheld hgeneration
  subst hgeneration
  have hflight := (h.held p hp).symm.trans hheld
  have hflying := h.flying hflight p hp
  have hmarks := h.marks p hp
  have hopen : w.session.state ≠ .closed := by
    rw [hrunning]
    decide
  have hplay : w.play = some p := hp
  rw [agrees, hplay, Option.all_some, hrunning, hheld] at hagrees
  simp only [decide_true, and_self, Bool.and_self, Bool.not_true, Bool.false_or,
    decide_eq_true_eq] at hagrees
  obtain ⟨field, i, count, s, hselect⟩ := selectedRow_eq_some hagrees
  have hmedia := (sameState_selectedPromptRow P host opens w.session).media
  rw [hselect] at hmedia
  have hmedia' : s.media = w.session.media := hmedia
  have hcurrent : ¬(p.generation ≠ w.session.collectGeneration ∨
      w.session.media.inFlight = false ∨ w.session.media.generation ≠ p.generation) := by
    rw [hflying.collectGeneration, hflight]
    rintro (hother | hidle | hother)
    · exact hother rfl
    · cases hidle
    · exact hother hflying.ready.generation
  rw [barge, if_neg hmarks.nonzero, if_neg hopen, if_neg (not_not.mpr hrunning), if_neg hcurrent,
    hselect, Playback.decides, hflying.ready.bargein, hflying.ready.bargeinType]
  dsimp only
  rw [hmedia']
  split
  next => rfl
  next =>
    split
    next => rfl
    next =>
      rcases bargeResult_eq hmarks timing with ⟨⟨m, hresult, -⟩, hlate⟩ | ⟨⟨e, hresult⟩, hearly⟩
      · rw [hresult]
        rcases haccepted : p.accepted with _ | ⟨⟨index, time⟩, rest⟩
        · rfl
        · cases time with
          | none => rfl
          | some time =>
            dsimp only
            rw [if_neg]
            rw [Option.any_eq_true]
            rintro ⟨elapsed, helapsed, hlt⟩
            have hle := hlate _ _ haccepted elapsed helapsed time rfl
            rw [decide_eq_true_eq] at hlt
            omega
      · obtain ⟨⟨index, time⟩, rest, haccepted, elapsed, helapsed, before, hbefore, hlt⟩ := hearly
        have htime : time = some before := hbefore
        subst htime
        rw [hresult, haccepted]
        dsimp only
        rw [if_pos]
        rw [Option.any_eq_true]
        exact ⟨elapsed, helapsed, decide_eq_true hlt⟩

/-- **Every step that agrees keeps the invariant.** -/
theorem invariant_next (h : Invariant P w) (e : Event P σ) (hagrees : agrees P host w e = true) :
    Invariant P (next P host w e) := by
  cases e with
  | prepare provider => exact invariant_prepare h provider
  | progress provider => exact invariant_progress h provider
  | commit => exact invariant_commit h
  | discard => exact invariant_discard h
  | mark opens generation index timing => exact invariant_mark h hagrees
  | barge opens generation signal timing => exact invariant_barge h opens generation signal timing
  | tryComplete generation outcome timing => exact invariant_tryComplete h generation outcome timing
  | runReady => exact invariant_runReady h
  | call c => exact invariant_call h c
  | settles c active collectGeneration => exact invariant_settles h c active collectGeneration

/-- **Main.** In every run whose reports all agree with their batch, each report is answered as
claimed, and the last mark is that of the batch committed last. -/
theorem reports_asClaimed (host : Host σ V) {w : World σ}
    (h : Machine.Reachable
      (Machine.guarded (agrees P host) fun w e => some (next P host w e)) Initial w) :
    (∀ p ∈ w.play, lastMark P w.session.media = .ok p.lastMark) ∧
      ∀ e : Event P σ, agrees P host w e = true → AsClaimed P host w e := by
  have hinvariant : Invariant P w := by
    refine h.invariant (fun _ hinitial => invariant_initial hinitial) ?_
    intro w e w' hw hstep
    obtain ⟨hagrees, hnext⟩ := Machine.guarded_eq_some hstep
    cases hnext
    exact invariant_next hw e hagrees
  refine ⟨fun p hp => (hinvariant.marks p hp).lastMark_eq, fun e hagrees => ?_⟩
  cases e with
  | mark opens generation index timing => exact hinvariant.markAsClaimed hagrees
  | barge opens generation signal timing => exact hinvariant.bargeAsClaimed hagrees
  | _ => exact trivial

/-! ## A prompt that is selected again -/

def sampleRow (count firstSegment : ℕ) : Row where
  firstSegment := firstSegment
  segmentCount := 2
  firstFallback := 0
  fallbackCount := 0
  dynamicMarkCount := 0
  firstForeach := 0
  foreachCount := 0
  owner := .field 0
  count := count
  condition := none
  bargein := decide (count = 1)
  bargeinType := none
  requiredCapabilities := Prompts.capBatch
  mediaKind := .text
  mediaPayload := []
  text := []

def sampleProgram : Program where
  segments :=
    [⟨.text, ['t'], []⟩, ⟨.mark, ['m'], []⟩, ⟨.mark, ['n'], []⟩, ⟨.text, ['u'], []⟩]
  fallbacks := []
  markExprs := []
  foreach := []
  prompts := [sampleRow 1 0, sampleRow 2 2]
  fields := [⟨0, 0, 2⟩]
  initials := []
  forms := [⟨0, 0⟩]
  options := Prompts.sampleOptions
  backend := false

def sampleHost : Host Unit Unit where
  toHost := Prompts.sampleHost
  condition := fun _ values => (.ok true, values)

def sampleWorld : World Unit where
  session :=
    { state := .running
      active := ⟨some 0, some 0, none, none, none, none, none, none⟩
      collectGeneration := 1
      counters := []
      values := ()
      transaction := none
      selection := none
      media := .initial }
  handed := none
  play := none

def sampleProvider : Provider := ⟨true, Prompts.capBatch, true⟩

def sampleNomatch : Change sampleProgram Unit where
  state := .running
  counters := [⟨⟨.field, 0⟩, "nomatch".toList, 1⟩]
  values := ()
  transaction := none
  selection := none
  result := none
  valid := by
    intro c hc
    cases hc

def sampleCommitted : World Unit :=
  next sampleProgram sampleHost
    (next sampleProgram sampleHost sampleWorld (.prepare sampleProvider)) .commit

theorem reports_asClaimed_sample :
    mark sampleProgram sampleHost true 1 1 none sampleCommitted.session =
        (.accepted, (next sampleProgram sampleHost sampleCommitted
          (.mark true 1 1 none)).session) ∧
      MarkAsClaimed sampleProgram sampleHost sampleCommitted true 1 1 none ∧
      BargeAsClaimed sampleProgram sampleHost sampleCommitted true 1 .speech none := by
  have hreachable : Machine.Reachable
      (Machine.guarded (agrees sampleProgram sampleHost) fun w e =>
        some (next sampleProgram sampleHost w e)) Initial sampleCommitted := by
    refine ⟨sampleWorld, ⟨rfl, rfl, rfl, rfl⟩, ?_⟩
    have hexec : Machine.exec
        (Machine.guarded (agrees sampleProgram sampleHost) fun w e =>
          some (next sampleProgram sampleHost w e)) sampleWorld
        [.prepare sampleProvider, .commit] = some sampleCommitted := rfl
    exact Machine.exec_runs hexec
  have hclaimed := (reports_asClaimed sampleHost hreachable).2
  exact ⟨rfl, hclaimed (.mark true 1 1 none) (by decide +kernel),
    hclaimed (.barge true 1 .speech none) (by decide +kernel)⟩

theorem mark_of_reselected :
    ¬∀ (P : Program) (host : Host Unit Unit) (w : World Unit),
      Machine.Reachable (fun w (e : Event P Unit) => some (next P host w e)) Initial w →
        ∀ e, AsClaimed P host w e := by
  intro h
  have hreachable : Machine.Reachable
      (fun w e => some (next sampleProgram sampleHost w e)) Initial
      (next sampleProgram sampleHost sampleCommitted (.call sampleNomatch)) := by
    refine ⟨sampleWorld, ⟨rfl, rfl, rfl, rfl⟩, ?_⟩
    have hexec : Machine.exec (fun w e => some (next sampleProgram sampleHost w e)) sampleWorld
        [.prepare sampleProvider, .commit, .call sampleNomatch] =
          some (next sampleProgram sampleHost sampleCommitted (.call sampleNomatch)) := rfl
    exact Machine.exec_runs hexec
  have hmark : MarkAsClaimed sampleProgram sampleHost
      (next sampleProgram sampleHost sampleCommitted (.call sampleNomatch)) true 1 0 none :=
    h _ _ _ hreachable (.mark true 1 0 none)
  rw [MarkAsClaimed] at hmark
  revert hmark
  decide +kernel

end TurboScxml.Voice.PromptMedia
