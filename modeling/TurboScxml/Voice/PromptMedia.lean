import TurboScxml.Voice.PromptBatch

/-!
# Prompt media of a session

A batch is prepared, handed to the provider, committed, and then reported on: its marks, a barge-in
and its completion.

* `prepare`, `commit`, `discard`: from the selected prompt to a batch in flight;
* `mark`, `lastMark`: the marks that a provider reports;
* `barge`, `tryComplete`, `runReady`, `Session.settle`: the ends of a batch;
* `progress`: the admission that a session makes by itself.
-/

namespace TurboScxml.Voice.PromptMedia

open Prompts (Segment Kind Capabilities)

variable {σ V : Type}

def Media.initial : Media where
  prepared := false
  noopPrepared := false
  inFlight := false
  generation := 0
  markGeneration := 0
  mailbox := ⟨.disarmed, 0, .completed, none⟩
  lastSegment := none
  lastBatchSegment := none
  lastName := []
  lastElapsed := none
  projected := .none
  bargedGeneration := 0
  result := none

def Mailbox.disarm (m : Mailbox) : Mailbox :=
  { m with
    generation := 0, elapsed := none
    state := if m.state = .closed then .closed else .disarmed }

/-- The media part of `settle_prompt_media`. -/
def Media.settle (m : Media) : Media :=
  { m with
    mailbox := m.mailbox.disarm
    prepared := false
    inFlight := if m.prepared then m.inFlight else false
    noopPrepared := false
    generation := 0 }

def Session.settle (s : Session σ) : Session σ := { s.abort with media := s.media.settle }

/-! ## Admission -/

/-- How the provider answers a batch. -/
structure Provider where
  opens : Bool
  capabilities : Capabilities
  admits : Bool
  deriving DecidableEq

/-- A batch that a provider got, with the row it was made from. -/
structure Handed where
  row : Row
  request : BatchRequest
  deriving DecidableEq

variable (P : Program) (host : Host σ V) (provider : Provider) (s : Session σ)

def beginTransaction : Except Status (Session σ) :=
  if P.backend = false then .ok s
  else if s.transaction.isSome then .error .invalidState
  else if provider.opens = false then .error (.prompt .allocationFailed)
  else .ok { s with selection := none, transaction := some (.prompt, s.values) }

/-- The guards of `prompt_media_prepare`. -/
def prepareAllowed (ready : Bool) (s : Session σ) : Bool :=
  decide (s.state = .running) && !s.media.prepared && !s.media.inFlight &&
    (ready || s.promptStaged.isNone) &&
    !decide (s.collectGeneration ≠ 0 ∧ s.media.bargedGeneration = s.collectGeneration)

def Session.arm (generation : ℕ) (noop : Bool) : Session σ :=
  { s with
    media :=
      { s.media with generation := generation, prepared := true, noopPrepared := noop } }

/-- `prompt_media_prepare` behind its transaction. -/
def prepareSelected : Session σ × Except Status (Option Handed) :=
  match batchRequest P host provider.opens s with
  | (.error e, s₁) => (s₁.abort, .error e)
  | (.ok none, s₁) => (s₁.abort, .error .invalidState)
  | (.ok (some batch), s₁) =>
    match projectBatch P host provider.opens s₁ batch with
    | (s₂, .error e) => (s₂.abort, .error e)
    | (s₂, .ok batch') =>
      if batch'.segments = [] then (s₂.arm batch'.generation true, .ok none)
      else if provider.capabilities &&& batch'.requiredCapabilities ≠
          batch'.requiredCapabilities then
        (s₂.abort, .error .unsupportedFeature)
      else if provider.admits = false then (s₂.abort, .error .provider)
      else
        match selectedPromptRow P host provider.opens s with
        | (.ok ⟨_, some (_, row), _⟩, _) =>
          (s₂.arm batch'.generation false, .ok (some ⟨row, batch'⟩))
        | _ => (s₂.abort, .error .invalidState)

def prepare : Session σ × Except Status (Option Handed) :=
  if prepareAllowed false s = false then (s, .error .invalidState)
  else
    match beginTransaction P provider s with
    | .error e => (s, .error e)
    | .ok s' => prepareSelected P host provider s'

/-- `vxml_session_cmeta_prompt_media_commit`. -/
def commit : Session σ × Except Status Bool :=
  if s.state ≠ .running ∨ s.media.prepared = false ∨ s.media.inFlight = true ∨
      s.media.generation = 0 then (s, .error .invalidState)
  else if s.media.noopPrepared then
    ({ s.commitValues with
        media :=
          { s.media with
            prepared := false, noopPrepared := false, generation := 0, markGeneration := 0
            lastSegment := none, lastBatchSegment := none, lastName := [] } }, .ok false)
  else if s.media.mailbox.state ≠ .disarmed then (s, .error .invalidState)
  else
    ({ s.commitValues with
        media :=
          { s.media with
            markGeneration := s.media.generation
            lastSegment := none, lastBatchSegment := none, lastName := [], lastElapsed := none
            mailbox := { s.media.mailbox with generation := s.media.generation, state := .empty }
            prepared := false, noopPrepared := false, inFlight := true } }, .ok true)

def discard : Session σ × Except Status Unit :=
  if s.state ≠ .running ∨ s.media.prepared = false then (s, .error .invalidState)
  else
    ({ s.abort with
        media :=
          { s.media with generation := 0, prepared := false, noopPrepared := false } }, .ok ())

/-! ## Marks -/

/-- `vxml_cmeta_prompt_mark_result`. -/
inductive MarkReport
  | accepted | closed | stale | notMark | outOfOrder | invalidArgument
  deriving DecidableEq

variable (m : Media)

/-- The segment of a report and its source. -/
def observe (generation : ℕ) (row : Row) (index : ℕ) : Option (Segment × ℕ) :=
  if m.projected.generation = generation ∧ m.projected.segments ≠ [] then
    match m.projected.segments[index]? with
    | none => none
    | some segment =>
      if P.projectedCapacity ≤ index then none
      else
        match m.projected.sources with
        | some sources => (sources[index]?).map fun source => (segment, source)
        | none =>
          if row.segmentCount ≤ index then none else some (segment, row.firstSegment + index)
  else if row.segmentCount ≤ index then none
  else (P.segments[row.firstSegment + index]?).map fun s => (s, row.firstSegment + index)

def outOfOrder (index : ℕ) (timing : Option ℕ) : Bool :=
  m.lastBatchSegment.any (fun last => decide (index ≤ last)) ||
    timing.any fun elapsed => m.lastElapsed.any fun last => decide (elapsed < last)

def Media.accept (index source : ℕ) (name : Text) (timing : Option ℕ) : Media :=
  { m with
    lastName := name, lastSegment := some source, lastBatchSegment := some index
    lastElapsed := timing }

/-- `prompt_media_mark_impl` behind the selection of a row. -/
def markSegment (generation : ℕ) (row : Row) (index : ℕ) (timing : Option ℕ) : MarkReport × Media :=
  if P.segments.length < row.firstSegment + row.segmentCount then (.invalidArgument, m)
  else
    match observe P m generation row index with
    | none => (.invalidArgument, m)
    | some (segment, source) =>
      match P.segments[source]? with
      | none => (.notMark, m)
      | some origin =>
        if origin.kind ≠ .mark ∨ segment.kind ≠ .mark then (.notMark, m)
        else if outOfOrder m index timing then (.outOfOrder, m)
        else if m.projected.generation = generation ∧ origin.payload = [] then
          if segment.payload = [] ∨ P.lastMarkNameCapacity < segment.payload.length then
            (.invalidArgument, { m with lastName := [] })
          else (.accepted, m.accept index source segment.payload timing)
        else (.accepted, m.accept index source [] timing)

/-- Whether a report of a generation is too late or too early. -/
def markStale (generation : ℕ) : Bool :=
  !m.inFlight || m.generation != generation || m.markGeneration != generation ||
    m.mailbox.state != .empty

/-- `prompt_media_mark_impl`; the prompt is selected again for it. -/
def mark (opens : Bool) (generation index : ℕ) (timing : Option ℕ) (s : Session σ) :
    MarkReport × Session σ :=
  if generation = 0 then (.invalidArgument, s)
  else if s.state = .closed then (.closed, s)
  else if s.state ≠ .running then (.invalidArgument, s)
  else if markStale s.media generation then (.stale, s)
  else
    match selectedPromptRow P host opens s with
    | (.ok ⟨_, some (_, row), _⟩, s') =>
      let r := markSegment P s'.media generation row index timing
      (r.1, { s' with media := r.2 })
    | (_, s') => (.stale, s')

/-- `vxml_cmeta_prompt_mark_view_v1`. -/
structure MarkView where
  generation : ℕ
  segmentIndex : Option ℕ
  name : Text
  deriving DecidableEq

/-- `vxml_session_cmeta_prompt_media_last_mark`. -/
def lastMark : Except Status MarkView :=
  match m.lastSegment with
  | none => .ok ⟨m.markGeneration, none, []⟩
  | some source =>
    if m.markGeneration = 0 then .ok ⟨0, none, []⟩
    else
      match P.segments[source]? with
      | none => .error (.prompt .invalidStructure)
      | some origin =>
        if origin.kind ≠ .mark ∨ P.lastMarkNameCapacity < m.lastName.length ∨
            (m.lastName = [] ∧ origin.payload = []) then .error (.prompt .invalidStructure)
        else
          match m.lastBatchSegment with
          | none => .error (.prompt .invalidStructure)
          | some index =>
            .ok ⟨m.markGeneration, some index,
              if m.lastName = [] then origin.payload else m.lastName⟩

/-! ## Ends -/

def Program.resultNameCapacity : ℕ :=
  ((P.segments.filter fun s => s.kind == .mark).map (·.payload.length)).foldl max
    P.options.maxDynamicMarkNameBytes

/-- `prompt_media_last_mark_name_view` where there is a last mark. -/
def lastMarkName (source : ℕ) : Except Status Text :=
  match P.segments[source]? with
  | none => .error (.prompt .invalidStructure)
  | some origin =>
    if origin.kind ≠ .mark then .error (.prompt .invalidStructure)
    else if m.lastName ≠ [] then
      if P.lastMarkNameCapacity < m.lastName.length then .error (.prompt .invalidStructure)
      else .ok m.lastName
    else if origin.payload = [] then .error (.prompt .invalidStructure)
    else .ok origin.payload

def publishMark (generation terminal : ℕ) : Except Status Media :=
  match m.lastSegment, m.lastElapsed with
  | some source, some elapsed =>
    if terminal < elapsed then .error (.prompt .invalidArgument)
    else
      match lastMarkName P m source with
      | .error e => .error e
      | .ok name =>
        if name = [] ∨ P.resultNameCapacity < name.length then
          .error (.prompt .invalidStructure)
        else .ok { m with result := some ⟨name, terminal - elapsed, generation⟩ }
  | _, _ => .ok { m with result := none }

/-- `vxml_cmeta_prompt_barge_result`. -/
inductive BargeReport
  | canceled | disabled | stale | typeMismatch | invalidArgument
  deriving DecidableEq

def bargeResult (generation : ℕ) (timing : Option ℕ) : Except Status Media :=
  match timing with
  | some elapsed => publishMark P m generation elapsed
  | none => .ok { m with result := none }

/-- `prompt_media_barge_impl`; the prompt is selected again for it. -/
def barge (opens : Bool) (generation : ℕ) (signal : Signal) (timing : Option ℕ) (s : Session σ) :
    BargeReport × Session σ :=
  if generation = 0 then (.invalidArgument, s)
  else if s.state = .closed then (.stale, s)
  else if s.state ≠ .running then (.invalidArgument, s)
  else if generation ≠ s.collectGeneration ∨ s.media.inFlight = false ∨
      s.media.generation ≠ generation then (.stale, s)
  else
    match selectedPromptRow P host opens s with
    | (.ok ⟨_, some (_, row), _⟩, s') =>
      if row.bargein = false then (.disabled, s')
      else if row.bargeinType.any fun type => decide (type ≠ signal) then (.typeMismatch, s')
      else
        match bargeResult P s'.media generation timing with
        | .error _ => (.invalidArgument, s')
        | .ok m =>
          (.canceled, { s' with media := { m with bargedGeneration := generation } }.settle)
    | (_, s') => (.stale, s')

/-- `vxml_cmeta_prompt_media_ingress_result`. -/
inductive Ingress
  | accepted | closed | stale | full | invalidArgument
  deriving DecidableEq

/-- `prompt_media_try_complete_impl`. -/
def tryComplete (generation : ℕ) (outcome : Outcome) (timing : Option ℕ) (s : Session σ) :
    Ingress × Session σ :=
  if generation = 0 then (.invalidArgument, s)
  else if s.state = .closed then (.closed, s)
  else
    match s.media.mailbox.state with
    | .closed => (.closed, s)
    | .disarmed => (.stale, s)
    | .ready => (.full, s)
    | .empty =>
      if s.media.inFlight = false ∨ generation ≠ s.media.mailbox.generation ∨
          generation ≠ s.media.generation then (.stale, s)
      else if timing.any fun elapsed => s.media.lastElapsed.any fun last =>
          decide (elapsed < last) then (.invalidArgument, s)
      else
        (.accepted,
          { s with
            media := { s.media with mailbox := ⟨.ready, generation, outcome, timing⟩ } })

def completionResult (m : Media) : Media :=
  match m.mailbox.outcome, m.mailbox.elapsed with
  | .completed, some elapsed =>
    match publishMark P m m.mailbox.generation elapsed with
    | .error _ => m
    | .ok m' => m'
  | _, _ => { m with result := none }

/-- `vxml_session_cmeta_prompt_media_run_ready`. -/
def runReady (s : Session σ) : Bool × Session σ :=
  if s.state ≠ .running ∨ s.media.mailbox.state ≠ .ready then (false, s)
  else
    (true,
      { s with
        media :=
          { completionResult P s.media with
            inFlight := false, generation := 0, mailbox := s.media.mailbox.disarm } })

/-! ## Progress -/

/-- Nothing was done, or the prompt of the item was prepared, and maybe committed. -/
inductive Progress
  | nothing
  | prepared (handed : Option Handed)
  | committed (handed : Option Handed)
  deriving DecidableEq

/-- The prompt part of `vxml_session_cmeta_run_ready`. -/
def progress (s : Session σ) : Progress × Session σ :=
  match beginTransaction P provider s with
  | .error _ => (.nothing, s)
  | .ok s₁ =>
    match selectedPromptRow P host provider.opens s₁ with
    | (.error _, s₂) => (.nothing, s₂.abort)
    | (.ok ⟨_, none, _⟩, s₂) => (.nothing, s₂.commitValues)
    | (.ok ⟨_, some _, _⟩, s₂) =>
      if prepareAllowed true s₂ = false then (.nothing, s₂.abort)
      else
        match prepareSelected P host provider s₂ with
        | (s₃, .error _) => (.nothing, s₃.abort)
        | (s₃, .ok handed) =>
          match commit s₃ with
          | (s₄, .error _) => (.prepared handed, s₄)
          | (s₄, .ok _) => (.committed handed, s₄)

/-! ## What a preparation leaves -/

structure Ready (P : Program) (h : Handed) (m : Media) : Prop where
  stored : Stored P h.row m.projected h.request.generation h.request.segments
  valid : h.row.Valid P
  bargein : h.request.bargein = h.row.bargein
  bargeinType : h.request.bargeinType = h.row.bargeinType
  segments : h.request.segments ≠ []
  generation : m.generation = h.request.generation

structure SameMarks (m m' : Media) : Prop where
  inFlight : m'.inFlight = m.inFlight
  markGeneration : m'.markGeneration = m.markGeneration
  mailbox : m'.mailbox = m.mailbox
  lastSegment : m'.lastSegment = m.lastSegment
  lastBatchSegment : m'.lastBatchSegment = m.lastBatchSegment
  lastName : m'.lastName = m.lastName
  lastElapsed : m'.lastElapsed = m.lastElapsed

theorem SameMarks.trans {m m' m'' : Media} (h : SameMarks m m') (h' : SameMarks m' m'') :
    SameMarks m m'' where
  inFlight := h'.inFlight.trans h.inFlight
  markGeneration := h'.markGeneration.trans h.markGeneration
  mailbox := h'.mailbox.trans h.mailbox
  lastSegment := h'.lastSegment.trans h.lastSegment
  lastBatchSegment := h'.lastBatchSegment.trans h.lastBatchSegment
  lastName := h'.lastName.trans h.lastName
  lastElapsed := h'.lastElapsed.trans h.lastElapsed

variable {P} {host} {s s' : Session σ}

theorem Framed.sameMarks (h : Framed P s s') : SameMarks s.media s'.media := by
  rw [h.media]
  exact ⟨rfl, rfl, rfl, rfl, rfl, rfl, rfl⟩

theorem Framed.prepared (h : Framed P s s') : s'.media.prepared = s.media.prepared := by
  rw [h.media]

structure Prepares (P : Program) (s : Session σ)
    (r : Session σ × Except Status (Option Handed)) : Prop where
  selection : r.1.SelectionValid P
  collectGeneration : r.1.collectGeneration = s.collectGeneration
  marks : SameMarks s.media r.1.media
  failed : ∀ e, r.2 = .error e → r.1.media.prepared = s.media.prepared
  noop : r.2 = .ok none → r.1.media.prepared = true ∧ r.1.media.noopPrepared = true
  handed : ∀ h, r.2 = .ok (some h) → r.1.media.prepared = true ∧
    r.1.media.noopPrepared = false ∧ Ready P h r.1.media ∧
    h.request.generation = s.collectGeneration

theorem Prepares.of_framed (hs : s.SelectionValid P) (h : Framed P s s') (e : Status) :
    Prepares P s (s', .error e) where
  selection := h.selection hs
  collectGeneration := h.collectGeneration
  marks := h.sameMarks
  failed := fun _ _ => h.prepared
  noop := fun heq => by cases heq
  handed := fun _ heq => by cases heq

theorem batchRequest_ok {opens : Bool} {batch : BatchRequest}
    (h : batchRequest P host opens s = (.ok (some batch), s')) :
    ∃ (selected : Selected) (index : ℕ) (row : Row),
      selectedPromptRow P host opens s = (.ok selected, s') ∧ selected.row = some (index, row) ∧
        batch = requestOf P s'.collectGeneration selected row := by
  rw [batchRequest] at h
  cases hselect : selectedPromptRow P host opens s with
  | mk result s₁ =>
    rw [hselect] at h
    cases result with
    | error e => cases h
    | ok selected =>
      dsimp only at h
      split at h
      next => cases h
      next index row hrow =>
        split at h
        next => cases h
        next =>
          cases h
          exact ⟨selected, index, row, rfl, hrow, rfl⟩

variable (host) in
/-- **The provider gets the batch that the session keeps.** -/
theorem prepares_prepareSelected (provider : Provider) (hs : s.SelectionValid P) :
    Prepares P s (prepareSelected P host provider s) := by
  have hrequest := framed_batchRequest P host provider.opens s
  rw [prepareSelected]
  cases hbatch : batchRequest P host provider.opens s with
  | mk result s₁ =>
    rw [hbatch] at hrequest
    have hframe : Framed P s s₁ := hrequest
    have haborted := hframe.trans (framed_abort s₁)
    cases result with
    | error e => exact .of_framed hs haborted e
    | ok request =>
      cases request with
      | none => exact .of_framed hs haborted _
      | some batch =>
        obtain ⟨selected, index, row, hselected, hrow, rfl⟩ := batchRequest_ok hbatch
        have hlisted : Listed P (index, row) :=
          (selectedPromptRow_valid hs).1 selected (congrArg Prod.fst hselected) _ hrow
        have hproject := framed_projectBatch P host provider.opens s₁
          (requestOf P s₁.collectGeneration selected row)
        cases hbatch' : projectBatch P host provider.opens s₁
          (requestOf P s₁.collectGeneration selected row) with
        | mk s₂ result' =>
          rw [hbatch'] at hproject
          have hframe₂ : Framed P s s₂ := hframe.trans hproject
          have haborted₂ := hframe₂.trans (framed_abort s₂)
          cases result' with
          | error e =>
            dsimp only
            rw [hbatch']
            exact .of_framed hs haborted₂ e
          | ok batch' =>
            obtain ⟨hstored, hsame, -⟩ := projectBatch_stored (selectedPromptRow_again hselected)
              hrow hlisted rfl hbatch'
            dsimp only
            rw [hbatch']
            dsimp only
            split
            next =>
              refine ⟨hframe₂.selection hs, hframe₂.collectGeneration, ?_, ?_, ?_, ?_⟩
              · exact hframe₂.sameMarks.trans ⟨rfl, rfl, rfl, rfl, rfl, rfl, rfl⟩
              · intro e heq
                cases heq
              · exact fun _ => ⟨rfl, rfl⟩
              · intro h heq
                cases heq
            next hsegments =>
              split
              · exact .of_framed hs haborted₂ _
              · split
                · exact .of_framed hs haborted₂ _
                · obtain ⟨field, selectedRow, count⟩ := selected
                  have hrow' : selectedRow = some (index, row) := hrow
                  subst hrow'
                  rw [hselected]
                  refine ⟨hframe₂.selection hs, hframe₂.collectGeneration, ?_, ?_, ?_, ?_⟩
                  · exact hframe₂.sameMarks.trans ⟨rfl, rfl, rfl, rfl, rfl, rfl, rfl⟩
                  · intro e heq
                    cases heq
                  · intro heq
                    cases heq
                  · intro h heq
                    cases heq
                    refine ⟨rfl, rfl, ⟨?_, hlisted.2, hsame.bargein, hsame.bargeinType, hsegments,
                      rfl⟩, hsame.generation.trans hframe.collectGeneration⟩
                    change Stored P row s₂.media.projected batch'.generation batch'.segments
                    rw [hsame.generation]
                    exact hstored

theorem framed_beginTransaction {provider : Provider} (h : beginTransaction P provider s = .ok s') :
    Framed P s s' := by
  rw [beginTransaction] at h
  split at h
  · cases h
    exact .refl s
  · split at h
    · cases h
    · split at h
      · cases h
      · cases h
        refine ⟨rfl, ?_, rfl⟩
        intro _ c hc
        cases hc

theorem Prepares.trans {r : Session σ × Except Status (Option Handed)} (h : Framed P s s')
    (h' : Prepares P s' r) : Prepares P s r where
  selection := h'.selection
  collectGeneration := h'.collectGeneration.trans h.collectGeneration
  marks := h.sameMarks.trans h'.marks
  failed := fun e he => (h'.failed e he).trans h.prepared
  noop := h'.noop
  handed := fun b hb => by
    obtain ⟨hprepared, hnoop, hready, hgeneration⟩ := h'.handed b hb
    exact ⟨hprepared, hnoop, hready, hgeneration.trans h.collectGeneration⟩

variable (host) in
theorem prepares_prepare (provider : Provider) (hs : s.SelectionValid P) :
    Prepares P s (prepare P host provider s) := by
  rw [prepare]
  split
  · exact .of_framed hs (.refl s) _
  · split
    next => exact .of_framed hs (.refl s) _
    next s' hbegin =>
      have hframe := framed_beginTransaction hbegin
      exact .trans hframe (prepares_prepareSelected host provider (hframe.selection hs))

end TurboScxml.Voice.PromptMedia
