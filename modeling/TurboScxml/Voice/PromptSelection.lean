import TurboScxml.Voice.EventDispatch
import TurboScxml.Voice.PromptProjection

/-!
# Selection of a prompt

The prompt of the active field or initial is the one with the largest count that its retries allow
and whose condition is true.

* `Row`, `ItemRow`, `Program`, `Host`: the compiled prompts with what the selection reads of them;
* `promptRetryCount`, `rowValid`, `selectPromptRow`: the selection on given values.
-/

namespace TurboScxml.Voice.PromptMedia

open Content (EventScope)
open Prompts (Segment Kind Fallback PromptRow Tables Options Capabilities)

/-! ## Programs -/

/-- `vxml_status`; `exhausted` is the bound of the recursion. -/
inductive Status
  | prompt (status : Prompts.Status)
  | invalidState | unsupportedFeature | provider | exhausted
  deriving DecidableEq

def Status.ofHalt : Prompts.Halt → Status
  | .status s => .prompt s
  | .exhausted => .exhausted

/-- `vxml_cmeta_prompt_bargein_type`. -/
inductive Signal
  | speech | hotword
  deriving DecidableEq

inductive Owner
  | field (index : ℕ)
  | initial (index : ℕ)
  deriving DecidableEq

def Owner.scope : Owner → EventScope
  | .field index => ⟨.field, index⟩
  | .initial index => ⟨.initial, index⟩

/-- `vxml_cmeta_prompt_row`. -/
structure Row extends PromptRow where
  owner : Owner
  count : ℕ
  condition : Option ℕ
  bargein : Bool
  bargeinType : Option Signal
  requiredCapabilities : Capabilities
  mediaKind : Kind
  mediaPayload : Text
  text : Text
  deriving DecidableEq

/-- What `vxml_cmeta_field_row` and `vxml_cmeta_initial_row` say of prompts. -/
structure ItemRow where
  form : ℕ
  firstPrompt : ℕ
  promptCount : ℕ
  deriving DecidableEq

/-- The range of initials of `vxml_cmeta_form_row`. -/
structure FormRow where
  firstInitial : ℕ
  initialCount : ℕ
  deriving DecidableEq

/-- The tables that prompt media reads; `backend`: a backend evaluates the expressions. -/
structure Program extends Tables where
  prompts : List Row
  fields : List ItemRow
  initials : List ItemRow
  forms : List FormRow
  options : Options
  backend : Bool

def Program.toPrompts (P : Program) : Prompts.Program :=
  { P.toTables with prompts := P.prompts.map Row.toPromptRow, options := P.options }

structure Host (σ V : Type) extends Prompts.Host σ V where
  condition : ℕ → σ → Except Prompts.Status Bool × σ

/-! ## Sessions -/

/-- `vxml_session_state`. -/
inductive State
  | ready | running | navigating | exited | failed | closed
  deriving DecidableEq

/-- Whose transaction is open. -/
inductive Holder
  | prompt | collect
  deriving DecidableEq

/-- What `select_prompt_row` finds. -/
structure Selected where
  field : Option ℕ
  row : Option (ℕ × Row)
  promptCount : ℕ
  deriving DecidableEq

structure Selection where
  generation : ℕ
  field : Option ℕ
  initial : Option ℕ
  selected : Selected
  deriving DecidableEq

/-- The states of `vxml_cmeta_prompt_media_mailbox` between calls. -/
inductive MailboxState
  | disarmed | empty | ready | closed
  deriving DecidableEq

/-- `vxml_cmeta_prompt_media_outcome`. -/
inductive Outcome
  | completed | failed
  deriving DecidableEq

/-- `vxml_cmeta_prompt_media_mailbox`. -/
structure Mailbox where
  state : MailboxState
  generation : ℕ
  outcome : Outcome
  elapsed : Option ℕ
  deriving DecidableEq

structure Projected where
  generation : ℕ
  segments : List Segment
  sources : Option (List ℕ)
  deriving DecidableEq

/-- `vxml_cmeta_mark_result_slot` while it is live. -/
structure MarkResult where
  name : Text
  marktime : ℕ
  generation : ℕ
  deriving DecidableEq

/-- The prompt media of a session. -/
structure Media where
  prepared : Bool
  noopPrepared : Bool
  inFlight : Bool
  generation : ℕ
  markGeneration : ℕ
  mailbox : Mailbox
  lastSegment : Option ℕ
  lastBatchSegment : Option ℕ
  lastName : Text
  lastElapsed : Option ℕ
  projected : Projected
  bargedGeneration : ℕ
  result : Option MarkResult
  deriving DecidableEq

structure Session (σ : Type) where
  state : State
  active : Events.Active
  collectGeneration : ℕ
  counters : List Events.Counter
  values : σ
  transaction : Option (Holder × σ)
  selection : Option Selection
  media : Media

variable {σ V : Type}

def Session.abort (s : Session σ) : Session σ :=
  match s.transaction with
  | some (.prompt, _) => { s with transaction := none, selection := none }
  | _ => s

/-- `transaction_commit` of an open prompt transaction. -/
def Session.commitValues (s : Session σ) : Session σ :=
  match s.transaction with
  | some (.prompt, staged) => { s with transaction := none, values := staged }
  | _ => s

/-! ## Selection -/

def recoveryEventName (event : Text) : Bool :=
  event == "noinput".toList || event == "nomatch".toList

/-- The sum of `prompt_retry_count`, which stays at the largest count. -/
def retryCountFrom (scope : EventScope) : ℕ → List Events.Counter → ℕ
  | count, [] => count
  | count, c :: rest =>
    if c.scope ≠ scope ∨ recoveryEventName c.event = false then retryCountFrom scope count rest
    else if Events.uintMax - count < c.count then Events.uintMax
    else retryCountFrom scope (count + c.count) rest

def promptRetryCount (scope : EventScope) (counters : List Events.Counter) : ℕ :=
  retryCountFrom scope 1 counters

variable (P : Program)

def segmentValid (row : Row) (absolute : ℕ) : Bool :=
  (P.segments[absolute]?).any fun segment =>
    !segment.payload.isEmpty ||
      (segment.kind == .mark &&
        (Prompts.dynamicMarkRow P.toPrompts row.toPromptRow absolute).isSome)

def mediaValid (row : Row) : Bool :=
  (P.segments[row.firstSegment]?).any fun segment =>
    row.mediaKind == segment.kind && row.mediaPayload == segment.payload &&
      if segment.kind = .text then row.text == segment.payload else row.text.isEmpty

def foreachValid (index : ℕ) (row : Row) (loop : Prompts.ForeachRow) : Bool :=
  decide (loop.prompt = index ∧ loop.segmentCount ≠ 0 ∧ row.firstSegment ≤ loop.firstSegment ∧
    loop.segmentCount ≤ row.firstSegment + row.segmentCount - loop.firstSegment ∧
    row.firstFallback ≤ loop.firstFallback ∧
    loop.fallbackCount ≤ row.firstFallback + row.fallbackCount - loop.firstFallback)

def fallbackOwner (row : Row) (absolute : ℕ) : Option Prompts.ForeachRow :=
  (P.toPrompts.foreachRows row.toPromptRow).foldl
    (fun best loop =>
      if decide (loop.1.firstFallback ≤ absolute ∧
          absolute - loop.1.firstFallback < loop.1.fallbackCount) &&
          best.all fun b => decide (b.depth < loop.1.depth) then some loop.1 else best)
    none

def fallbackValid (row : Row) (absolute : ℕ) : Bool :=
  (P.fallbacks[absolute]?).any fun fallback =>
    let owner := fallbackOwner P row absolute
    let base := owner.elim row.firstSegment (·.firstSegment)
    let count := owner.elim row.segmentCount (·.segmentCount)
    decide (fallback.audioSegmentIndex < count ∧
      fallback.firstFallbackSegment = fallback.audioSegmentIndex + 1 ∧
      fallback.fallbackSegmentCount ≠ 0 ∧ fallback.firstFallbackSegment < count ∧
      fallback.fallbackSegmentCount ≤ count - fallback.firstFallbackSegment) &&
    ((P.segments[base + fallback.audioSegmentIndex]?).any fun s => s.kind == .audio) &&
    (List.range fallback.fallbackSegmentCount).all fun offset =>
      (P.segments[base + fallback.firstFallbackSegment + offset]?).any fun s =>
        s.kind == .text || s.kind == .ssml

/-- The tests on a prompt of an item. -/
def rowValid (owner : Owner) (index : ℕ) (row : Row) : Bool :=
  decide (row.owner = owner ∧ row.count ≠ 0 ∧ row.segmentCount ≠ 0 ∧
    row.firstSegment + row.segmentCount ≤ P.segments.length ∧ row.requiredCapabilities ≠ 0) &&
  (List.range' row.firstSegment row.segmentCount).all (segmentValid P row) &&
  (if row.segmentCount = 1 then mediaValid P row
    else row.requiredCapabilities &&& Prompts.capBatch != 0) &&
  decide (row.foreachCount = 0 ∨ row.firstForeach + row.foreachCount ≤ P.foreach.length) &&
  ((P.toPrompts.foreachRows row.toPromptRow).all fun loop => foreachValid index row loop.1) &&
  if row.fallbackCount = 0 then row.requiredCapabilities &&& Prompts.capAudioFallback == 0
  else
    row.requiredCapabilities &&& Prompts.capAudioFallback != 0 &&
    decide (2 ≤ row.segmentCount ∧ row.firstFallback + row.fallbackCount ≤ P.fallbacks.length) &&
    (List.range' row.firstFallback row.fallbackCount).all (fallbackValid P row)

def better (best : Option (ℕ × Row)) (index : ℕ) (row : Row) : Option (ℕ × Row) :=
  if best.all fun b => decide (b.2.count < row.count) then some (index, row) else best

variable (host : Host σ V)

/-- The loop of `select_prompt_row`. -/
def selectRows (owner : Owner) (promptCount : ℕ) :
    ℕ → List Row → Option (ℕ × Row) → σ → Except Status (Option (ℕ × Row)) × σ
  | _, [], best, values => (.ok best, values)
  | index, row :: rest, best, values =>
    if rowValid P owner index row = false then (.error (.prompt .invalidStructure), values)
    else if promptCount < row.count then
      selectRows owner promptCount (index + 1) rest best values
    else
      match row.condition with
      | none => selectRows owner promptCount (index + 1) rest (better best index row) values
      | some condition =>
        match host.condition condition values with
        | (.error s, values') => (.error (.prompt s), values')
        | (.ok eligible, values') =>
          selectRows owner promptCount (index + 1) rest
            (if eligible then better best index row else best) values'

def activeOwner (active : Events.Active) : Except Status (Owner × ItemRow) :=
  match active.form with
  | none => .error .invalidState
  | some formIndex =>
    match P.forms[formIndex]? with
    | none => .error .invalidState
    | some form =>
      match active.field, active.initial with
      | some field, none =>
        match P.fields[field]? with
        | none => .error (.prompt .invalidStructure)
        | some item =>
          if item.form = formIndex then .ok (.field field, item)
          else .error (.prompt .invalidStructure)
      | some _, some _ => .error (.prompt .invalidStructure)
      | none, some initial =>
        match P.initials[initial]? with
        | none => .error (.prompt .invalidStructure)
        | some item =>
          if item.form = formIndex ∧ form.firstInitial ≤ initial ∧
              initial - form.firstInitial < form.initialCount then .ok (.initial initial, item)
          else .error (.prompt .invalidStructure)
      | none, none => .error .invalidState

/-- `select_prompt_row` of a running session on given values. -/
def selectPromptRow (active : Events.Active) (counters : List Events.Counter) (values : σ) :
    Except Status Selected × σ :=
  match activeOwner P active with
  | .error s => (.error s, values)
  | .ok (owner, item) =>
    if P.prompts.length < item.firstPrompt + item.promptCount then
      (.error (.prompt .invalidStructure), values)
    else
      let promptCount := promptRetryCount owner.scope counters
      match selectRows P host owner promptCount item.firstPrompt
          ((P.prompts.drop item.firstPrompt).take item.promptCount) none values with
      | (.error s, values') => (.error s, values')
      | (.ok best, values') => (.ok ⟨active.field, best, promptCount⟩, values')

def Session.cached (s : Session σ) : Option Selected :=
  match s.selection with
  | some c =>
    if c.generation = s.collectGeneration ∧ c.field = s.active.field ∧
        c.initial = s.active.initial then some c.selected
    else none
  | none => none

/-- `selected_prompt_row`. -/
def selectedPromptRow (opens : Bool) (s : Session σ) : Except Status Selected × Session σ :=
  if s.state ≠ .running then (.error .invalidState, s)
  else if P.backend = false then ((selectPromptRow P host s.active s.counters s.values).1, s)
  else
    match s.cached with
    | some selected => (.ok selected, s)
    | none =>
      match s.transaction with
      | none =>
        if opens then ((selectPromptRow P host s.active s.counters s.values).1, s)
        else (.error (.prompt .allocationFailed), s)
      | some (holder, staged) =>
        match selectPromptRow P host s.active s.counters staged with
        | (.error e, staged') => (.error e, { s with transaction := some (holder, staged') })
        | (.ok selected, staged') =>
          (.ok selected,
            { s with
              transaction := some (holder, staged')
              selection := some
                ⟨s.collectGeneration, s.active.field, s.active.initial, selected⟩ })

/-! ## What a selection gives -/

def Row.Valid (row : Row) : Prop := ∃ owner index, rowValid P owner index row = true

def Listed (r : ℕ × Row) : Prop := P.prompts[r.1]? = some r.2 ∧ r.2.Valid P

def Selected.Valid (selected : Selected) : Prop := ∀ r ∈ selected.row, Listed P r

def Session.SelectionValid (s : Session σ) : Prop := ∀ c ∈ s.selection, c.selected.Valid P

variable {P} {host}

theorem Row.Valid.segments {row : Row} (h : row.Valid P) :
    row.segmentCount ≠ 0 ∧ row.firstSegment + row.segmentCount ≤ P.segments.length ∧
      ∀ k < row.segmentCount, segmentValid P row (row.firstSegment + k) = true := by
  obtain ⟨owner, index, hvalid⟩ := h
  simp only [rowValid, Bool.and_eq_true, decide_eq_true_eq, List.all_eq_true] at hvalid
  obtain ⟨⟨⟨⟨⟨⟨-, -, hcount, hrange, -⟩, hsegments⟩, -⟩, -⟩, -⟩, -⟩ := hvalid
  refine ⟨hcount, hrange, fun k hk => hsegments _ ?_⟩
  rw [List.mem_range'_1]
  omega

variable {values values' : σ}

theorem selectRows_valid {owner : Owner} {promptCount index : ℕ} {rows : List Row}
    {best best' : Option (ℕ × Row)}
    (h : selectRows P host owner promptCount index rows best values = (.ok best', values'))
    (hrows : ∀ k row, rows[k]? = some row → P.prompts[index + k]? = some row)
    (hbest : ∀ r ∈ best, Listed P r) : ∀ r ∈ best', Listed P r := by
  induction rows generalizing index best values with
  | nil =>
    cases h
    exact hbest
  | cons row rest ih =>
    have hrest : ∀ k r, rest[k]? = some r → P.prompts[index + 1 + k]? = some r := by
      intro k r hk
      have hnext := hrows (k + 1) r hk
      rwa [show index + (k + 1) = index + 1 + k by omega] at hnext
    rw [selectRows] at h
    split at h
    next => cases h
    next hrow =>
      have hrow' : rowValid P owner index row = true := by
        cases hr : rowValid P owner index row with
        | true => rfl
        | false => exact absurd hr hrow
      have hbetter : ∀ r ∈ better best index row, Listed P r := by
        intro r hr
        rw [better] at hr
        split at hr
        · cases hr
          exact ⟨hrows 0 row rfl, owner, index, hrow'⟩
        · exact hbest r hr
      split at h
      next => exact ih h hrest hbest
      next =>
        split at h
        next => exact ih h hrest hbetter
        next =>
          split at h
          next => cases h
          next eligible _ _ =>
            cases eligible with
            | true => exact ih h hrest hbetter
            | false => exact ih h hrest hbest

variable {selected : Selected}

theorem selectPromptRow_valid {active : Events.Active} {counters : List Events.Counter}
    (h : selectPromptRow P host active counters values = (.ok selected, values')) :
    selected.Valid P := by
  rw [selectPromptRow] at h
  split at h
  next => cases h
  next =>
    split at h
    next => cases h
    next =>
      dsimp only at h
      split at h
      next => cases h
      next hrows =>
        cases h
        refine selectRows_valid hrows ?_ (by intro r hr; cases hr)
        intro k row hk
        rw [List.getElem?_take] at hk
        split at hk
        · rwa [List.getElem?_drop] at hk
        · cases hk

/-- Two sessions that differ in their transaction and in the selection they keep. -/
structure SameState (s s' : Session σ) : Prop where
  state : s'.state = s.state
  active : s'.active = s.active
  collectGeneration : s'.collectGeneration = s.collectGeneration
  counters : s'.counters = s.counters
  values : s'.values = s.values
  media : s'.media = s.media

theorem SameState.refl (s : Session σ) : SameState s s := ⟨rfl, rfl, rfl, rfl, rfl, rfl⟩

variable (P) (host) in
theorem sameState_selectedPromptRow (opens : Bool) (s : Session σ) :
    SameState s (selectedPromptRow P host opens s).2 := by
  rw [selectedPromptRow]
  split
  · exact .refl s
  · split
    · exact .refl s
    · split
      · exact .refl s
      · split
        · split
          · exact .refl s
          · exact .refl s
        · split
          · exact ⟨rfl, rfl, rfl, rfl, rfl, rfl⟩
          · exact ⟨rfl, rfl, rfl, rfl, rfl, rfl⟩

variable {s : Session σ}

theorem Session.cached_eq_some (h : s.cached = some selected) :
    ∃ c ∈ s.selection, c.selected = selected := by
  rw [Session.cached] at h
  split at h
  next c hc =>
    split at h
    · cases h
      exact ⟨c, hc, rfl⟩
    · cases h
  next => cases h

variable {opens : Bool}

theorem selectedPromptRow_valid (hs : s.SelectionValid P) :
    (∀ selected, (selectedPromptRow P host opens s).1 = .ok selected → selected.Valid P) ∧
      (selectedPromptRow P host opens s).2.SelectionValid P := by
  rw [selectedPromptRow]
  split
  · exact ⟨fun selected h => (by cases h), hs⟩
  · split
    · refine ⟨fun selected h => ?_, hs⟩
      have heq : selectPromptRow P host s.active s.counters s.values =
          (.ok selected, (selectPromptRow P host s.active s.counters s.values).2) := Prod.ext h rfl
      exact selectPromptRow_valid heq
    · split
      next selected hcached =>
        obtain ⟨c, hc, rfl⟩ := Session.cached_eq_some hcached
        refine ⟨fun selected h => ?_, hs⟩
        cases h
        exact hs c hc
      next =>
        split
        next =>
          split
          · refine ⟨fun selected h => ?_, hs⟩
            have heq : selectPromptRow P host s.active s.counters s.values =
                (.ok selected, (selectPromptRow P host s.active s.counters s.values).2) :=
              Prod.ext h rfl
            exact selectPromptRow_valid heq
          · exact ⟨fun selected h => (by cases h), hs⟩
        next holder staged _ =>
          cases hselect : selectPromptRow P host s.active s.counters staged with
          | mk result staged' =>
            cases result with
            | error e => exact ⟨fun selected h => (by cases h), hs⟩
            | ok selected =>
              have hvalid := selectPromptRow_valid hselect
              refine ⟨fun selected' h => ?_, fun c hc => ?_⟩
              · cases h
                exact hvalid
              · cases hc
                exact hvalid

/-- **A second selection gives the same prompt.** -/
theorem selectedPromptRow_again {s' : Session σ}
    (h : selectedPromptRow P host opens s = (.ok selected, s')) :
    selectedPromptRow P host opens s' = (.ok selected, s') := by
  rw [selectedPromptRow] at h
  split at h
  next => cases h
  next hstate =>
    split at h
    next hnative =>
      injection h with hselected hs
      subst hs
      rw [selectedPromptRow, if_neg hstate, if_pos hnative, hselected]
    next hbackend =>
      split at h
      next cached hcached =>
        injection h with hselected hs
        subst hs
        rw [selectedPromptRow, if_neg hstate, if_neg hbackend, hcached]
        dsimp only
        rw [hselected]
      next hcached =>
        split at h
        next htransaction =>
          split at h
          next hopens =>
            injection h with hselected hs
            subst hs
            rw [selectedPromptRow, if_neg hstate, if_neg hbackend, hcached]
            rw [htransaction]
            rw [if_pos hopens, hselected]
          next => cases h
        next holder staged htransaction =>
          split at h
          next => cases h
          next selected' staged' _ =>
            injection h with hselected hs
            injection hselected with hselected
            subst hs hselected
            rw [selectedPromptRow, if_neg hstate, if_neg hbackend, Session.cached]
            dsimp only
            rw [if_pos ⟨rfl, rfl, rfl⟩]

end TurboScxml.Voice.PromptMedia
