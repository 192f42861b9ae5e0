import TurboScxml.Voice.PromptSelection

/-!
# The batch of a prompt

The selected prompt becomes the batch that a provider gets: its segments as they are, with the names
of dynamic marks put in, or expanded if it has a foreach.

* `projectMarks`, `projectDynamicMarks`, `projectForeachBatch`, `projectBatch`: its projection;
* `Sourced`: every projected segment comes from a segment of the program, with the same kind and,
  where that has one, the same payload;
* `sourced_projectMarks`, `sourced_expandRange`: both projections give such segments.
-/

namespace TurboScxml.Voice.PromptMedia

open Prompts (Segment Kind Fallback MarkExprRow Capabilities)

/-- `vxml_cmeta_prompt_media_batch_request_v1`. -/
structure BatchRequest where
  generation : ℕ
  requiredCapabilities : Capabilities
  field : Option ℕ
  promptCount : ℕ
  selectedCount : ℕ
  segments : List Segment
  fallbacks : List Fallback
  bargein : Bool
  bargeinType : Option Signal
  deriving DecidableEq

variable {σ V : Type} (P : Program) (host : Host σ V)

def Program.rowSegments (row : Row) : List Segment :=
  (P.segments.drop row.firstSegment).take row.segmentCount

def requestOf (generation : ℕ) (selected : Selected) (row : Row) : BatchRequest where
  generation := generation
  requiredCapabilities := row.requiredCapabilities
  field := selected.field
  promptCount := selected.promptCount
  selectedCount := row.count
  segments := P.rowSegments row
  fallbacks := (P.fallbacks.drop row.firstFallback).take row.fallbackCount
  bargein := row.bargein
  bargeinType := row.bargeinType

/-- `prompt_media_batch_request_from_impl`; without a prompt there is no request. -/
def batchRequest (opens : Bool) (s : Session σ) : Except Status (Option BatchRequest) × Session σ :=
  match selectedPromptRow P host opens s with
  | (.error e, s') => (.error e, s')
  | (.ok selected, s') =>
    match selected.row with
    | none => (.ok none, s')
    | some (_, row) =>
      if row.segmentCount = 0 ∨ P.segments.length < row.firstSegment + row.segmentCount ∨
          (row.fallbackCount ≠ 0 ∧
            P.fallbacks.length < row.firstFallback + row.fallbackCount) then
        (.error (.prompt .invalidStructure), s')
      else (.ok (some (requestOf P s'.collectGeneration selected row)), s')

/-! ## Projection -/

/-- `prompt_media_projected_segment_capacity`. -/
def Program.projectedCapacity : ℕ :=
  if P.foreach = [] then (P.prompts.map (·.segmentCount)).foldl max 0
  else P.options.maxPromptExpandedSegments

def Program.forMarks : Prompts.Program :=
  if P.foreach = [] then
    { P.toPrompts with
      options :=
        { P.options with
          maxPromptExpandedSegments := (P.prompts.map (·.dynamicMarkCount)).foldl max 0 } }
  else P.toPrompts

def Program.lastMarkNameCapacity : ℕ :=
  if P.markExprs = [] then 0 else P.options.maxDynamicMarkNameBytes

/-- The loop of `prompt_media_project_dynamic_marks`. -/
def projectMarks (row : Row) :
    ℕ → List MarkExprRow → List Segment → Prompts.Run σ V →
      Prompts.Run σ V × Except Prompts.Status (List Segment)
  | 0, _, segments, run => (run, .ok segments)
  | _ + 1, [], _, run => (run, .error .invalidStructure)
  | n + 1, dynamic :: rest, segments, run =>
    if dynamic.segmentIndex < row.firstSegment ∨
        row.firstSegment + row.segmentCount ≤ dynamic.segmentIndex then
      (run, .error .invalidStructure)
    else
      match segments[dynamic.segmentIndex - row.firstSegment]? with
      | none => (run, .error .invalidStructure)
      | some segment =>
        if segment.kind ≠ .mark then (run, .error .invalidStructure)
        else if segment.payload ≠ [] then projectMarks row n rest segments run
        else
          match Prompts.projectMark P.forMarks host.toHost row.toPromptRow dynamic.segmentIndex
              run with
          | (run', .error s) => (run', .error s)
          | (run', .ok name) =>
            projectMarks row n rest
              (segments.set (dynamic.segmentIndex - row.firstSegment)
                { segment with payload := name }) run'

variable (s : Session σ)

def Session.promptStaged : Option σ :=
  match s.transaction with
  | some (.prompt, staged) => some staged
  | _ => none

def Session.stage (staged : σ) : Session σ :=
  match s.transaction with
  | some (.prompt, _) => { s with transaction := some (.prompt, staged) }
  | _ => s

def Session.hold (staged : Option σ) : Session σ :=
  { s with
    transaction := (staged.map fun v => (.prompt, v)).or
      (s.transaction.filter fun t => t.1 == .collect) }

def Session.project (projected : Projected) : Session σ :=
  { s with media := { s.media with projected := projected } }

def Projected.none : Projected := ⟨0, [], .none⟩

def projectDynamicMarks (opens : Bool) (s : Session σ) (batch : BatchRequest) :
    Session σ × Except Status BatchRequest :=
  match selectedPromptRow P host opens s with
  | (.error e, s') => (s', .error e)
  | (.ok selected, s') =>
    let s₀ := s'.project .none
    match selected.row with
    | none => (s₀, .ok batch)
    | some (_, row) =>
      if row.dynamicMarkCount = 0 then (s₀, .ok batch)
      else if batch.segments.length ≠ row.segmentCount ∨
          P.projectedCapacity < batch.segments.length ∨ P.markExprs = [] ∨
          P.options.maxDynamicMarkNameBytes = 0 then
        (s₀, .error (.prompt .invalidStructure))
      else
        match projectMarks P host row row.dynamicMarkCount
            (P.markExprs.dropWhile fun m => decide (m.segmentIndex < row.firstSegment))
            batch.segments (Prompts.Run.start (s₀.promptStaged.getD s₀.values)) with
        | (run, .error e) => (s₀.stage run.staged, .error (.prompt e))
        | (run, .ok segments) =>
          ((s₀.stage run.staged).project
              ⟨batch.generation, segments,
                if P.foreach = [] then .none
                else some (List.range' row.firstSegment row.segmentCount)⟩,
            .ok { batch with segments := segments })

def expandPrompt (index : ℕ) (row : Row) (staged : σ) : Prompts.Outcome σ V :=
  Prompts.expandRange P.toPrompts host.toHost row.toPromptRow
    (Prompts.expandForeach P.toPrompts host.toHost index row.toPromptRow (row.foreachCount + 1))
    none 0 (row.firstSegment + row.segmentCount) row.segmentCount row.firstSegment
    (Prompts.Run.start staged)

/-- `prompt_media_project_foreach`. -/
def projectForeachBatch (opens : Bool) (s : Session σ) (batch : BatchRequest) :
    Session σ × Except Status BatchRequest :=
  match selectedPromptRow P host opens s with
  | (.error e, s') => (s', .error e)
  | (.ok selected, s') =>
    match selected.row with
    | none => (s', .error (.prompt .invalidArgument))
    | some (index, row) =>
      if batch.segments.length ≠ row.segmentCount then
        (s', .error (.prompt .invalidStructure))
      else
        match Prompts.projectForeach P.toPrompts host.toHost index batch.generation
            (if opens then some s'.values else none) ⟨s'.promptStaged, 0, none, 0⟩ with
        | (profile, .error halt, _) =>
          ({ s'.hold profile.transaction with
              selection := if profile.transaction.isSome then s'.selection else none }.project
            .none, .error (.ofHalt halt))
        | (profile, .ok expanded, _) =>
          ((s'.hold profile.transaction).project
              ⟨profile.projectedGeneration, expanded.segments,
                some (expandPrompt P host index row (s'.promptStaged.getD s'.values)).1.sources⟩,
            .ok { batch with
              segments := expanded.segments
              fallbacks := expanded.fallbacks
              requiredCapabilities := expanded.requiredCapabilities })

def projectBatch (opens : Bool) (s : Session σ) (batch : BatchRequest) :
    Session σ × Except Status BatchRequest :=
  match selectedPromptRow P host opens s with
  | (.error e, s') => (s', .error e)
  | (.ok selected, s') =>
    if selected.row.any fun r => decide (r.2.foreachCount ≠ 0) then
      projectForeachBatch P host opens s' batch
    else projectDynamicMarks P host opens s' batch

/-! ## Where projected segments come from -/

/-- A copy of a segment of the program, perhaps with a name. -/
structure Named (source segment : Segment) : Prop where
  kind : segment.kind = source.kind
  payload : source.payload ≠ [] → segment.payload = source.payload
  size : source.payload = [] → segment.payload.length ≤ P.lastMarkNameCapacity

structure Sourced (segments : List Segment) (sources : List ℕ) : Prop where
  length : sources.length = segments.length
  bounded : segments.length ≤ P.projectedCapacity
  named : ∀ (k : ℕ) (segment : Segment), segments[k]? = some segment →
    ∃ (absolute : ℕ) (source : Segment), sources[k]? = some absolute ∧
      P.segments[absolute]? = some source ∧ Named P source segment
  resolved : ∀ segment ∈ segments, segment.payload ≠ []

theorem sourced_nil : Sourced P [] [] where
  length := rfl
  bounded := Nat.zero_le _
  named := by
    intro k segment h
    cases h
  resolved := by
    intro segment h
    cases h

variable {P} {segments : List Segment} {absolute : ℕ} {segment : Segment}

theorem Sourced.append {sources : List ℕ} {source : Segment} (h : Sourced P segments sources)
    (hroom : segments.length < P.projectedCapacity) (hsource : P.segments[absolute]? = some source)
    (hnamed : Named P source segment) (hpayload : segment.payload ≠ []) :
    Sourced P (segments ++ [segment]) (sources ++ [absolute]) where
  length := by rw [List.length_append, List.length_append, h.length]; rfl
  bounded := by
    rw [List.length_append, List.length_singleton]
    omega
  named := by
    intro k s hs
    by_cases hk : k < segments.length
    · rw [List.getElem?_append_left hk] at hs
      obtain ⟨a, src, ha, hsrc, hname⟩ := h.named k s hs
      refine ⟨a, src, ?_, hsrc, hname⟩
      rw [List.getElem?_append_left (by rw [h.length]; exact hk), ha]
    · have hlt := (List.getElem?_eq_some_iff.mp hs).1
      rw [List.length_append, List.length_singleton] at hlt
      have heq : k = segments.length := by omega
      subst heq
      rw [List.getElem?_concat_length] at hs
      cases hs
      refine ⟨absolute, source, ?_, hsource, hnamed⟩
      rw [← h.length, List.getElem?_concat_length]
  resolved := by
    intro s hs
    rcases List.mem_append.mp hs with hold | hnew
    · exact h.resolved s hold
    · rw [List.mem_singleton.mp hnew]
      exact hpayload

variable {run run' : Prompts.Run σ V} {name : Text}

theorem projectMark_ok {Q : Prompts.Program} {h : Prompts.Host σ V} {row : Prompts.PromptRow}
    (heq : Prompts.projectMark Q h row absolute run = (run', .ok name)) :
    name ≠ [] ∧ name.length ≤ Q.options.maxDynamicMarkNameBytes ∧ Q.markExprs ≠ [] := by
  rw [Prompts.projectMark] at heq
  split at heq
  next => cases heq
  next mark hmark =>
    have hrows : Q.markExprs ≠ [] := by
      intro hnil
      rw [Prompts.dynamicMarkRow, hnil] at hmark
      split at hmark
      · cases hmark
      · cases hmark
    split at heq
    · cases heq
    · split at heq
      next => cases heq
      next => cases heq
      next =>
        split at heq
        next => cases heq
        next hname =>
          cases heq
          rw [not_or, not_or] at hname
          exact ⟨hname.1, Nat.le_of_not_lt hname.2.1, hrows⟩

def SameCopies (run run' : Prompts.Run σ V) : Prop :=
  run'.segments = run.segments ∧ run'.sources = run.sources

theorem SameCopies.refl (run : Prompts.Run σ V) : SameCopies run run := ⟨rfl, rfl⟩

theorem SameCopies.trans {run'' : Prompts.Run σ V} (h : SameCopies run run')
    (h' : SameCopies run' run'') : SameCopies run run'' :=
  ⟨h'.1.trans h.1, h'.2.trans h.2⟩

theorem sameCopies_projectMark (Q : Prompts.Program) (h : Prompts.Host σ V)
    (row : Prompts.PromptRow) (absolute : ℕ) (run : Prompts.Run σ V) :
    SameCopies run (Prompts.projectMark Q h row absolute run).1 := by
  rw [Prompts.projectMark]
  split
  next => exact .refl run
  next =>
    split
    · exact .refl run
    · split
      next => exact ⟨rfl, rfl⟩
      next => exact ⟨rfl, rfl⟩
      next =>
        split
        · exact ⟨rfl, rfl⟩
        · exact ⟨rfl, rfl⟩

theorem sameCopies_visitElements (Q : Prompts.Program) (h : Prompts.Host σ V)
    (element : Prompts.Element) (base stride count : ℕ) (vs : List V) (run : Prompts.Run σ V) :
    SameCopies run (Prompts.visitElements Q h element base stride count vs run).2.1 := by
  induction vs generalizing count run with
  | nil => exact .refl run
  | cons v vs ih =>
    have hvisit : SameCopies run (Prompts.snapshotVisit Q h element base stride count v run).1 := by
      rw [Prompts.snapshotVisit]
      split
      · exact .refl run
      · split
        · exact .refl run
        · split
          next => exact ⟨rfl, rfl⟩
          next =>
            split
            next => exact ⟨rfl, rfl⟩
            next => exact ⟨rfl, rfl⟩
    rw [Prompts.visitElements]
    revert hvisit
    rcases Prompts.snapshotVisit Q h element base stride count v run with ⟨run', failed⟩
    intro hvisit
    cases failed with
    | some failure => exact hvisit
    | none => exact hvisit.trans (ih _ _)

theorem sameCopies_snapshotClear (h : Prompts.Host σ V) (element : Prompts.Element)
    (base stride i n : ℕ) (run : Prompts.Run σ V) :
    SameCopies run (Prompts.snapshotClear h element base stride i n run).1 := by
  induction n generalizing i run with
  | zero => exact .refl run
  | succ n ih =>
    rw [Prompts.snapshotClear]
    split
    · exact .refl run
    · exact (show SameCopies run _ from ⟨rfl, rfl⟩).trans (ih _ _)

theorem sameCopies_clearAfter (h : Prompts.Host σ V) (element : Prompts.Element)
    (base stride count : ℕ) (run : Prompts.Run σ V) (s : Prompts.Status) :
    SameCopies run (Prompts.clearAfter h element base stride count run s).1 := by
  have hclear := sameCopies_snapshotClear h element base stride 0 count run
  rw [Prompts.clearAfter]
  revert hclear
  rcases Prompts.snapshotClear h element base stride 0 count run with ⟨run', failed⟩
  intro hclear
  cases failed with
  | some failure => exact hclear
  | none => exact hclear

theorem sameCopies_snapshotCollection (Q : Prompts.Program) (h : Prompts.Host σ V)
    (loop : Prompts.Loop) (offset : ℕ) (run : Prompts.Run σ V) :
    SameCopies run (Prompts.snapshotCollection Q h loop offset run).1 := by
  rw [Prompts.snapshotCollection]
  split
  · exact .refl run
  · split
    next => exact .refl run
    next elements ending _ =>
      dsimp only
      split
      · exact .refl run
      · split
        · exact .refl run
        · split
          · exact .refl run
          · have hvisit := sameCopies_visitElements Q h loop.element
              (Locations.aligned offset loop.element.align)
              (Locations.aligned loop.element.size loop.element.align) 0 elements run
            revert hvisit
            intro hvisit
            split
            next => exact hvisit.trans (sameCopies_clearAfter ..)
            next =>
              split
              · exact hvisit.trans (sameCopies_clearAfter ..)
              · exact hvisit

def Run.Sourced (P : Program) (run : Prompts.Run σ V) : Prop :=
  PromptMedia.Sourced P run.segments run.sources

theorem Run.Sourced.of_same (h : Run.Sourced P run) (hsame : SameCopies run run') :
    Run.Sourced P run' := by
  rw [Run.Sourced, hsame.1, hsame.2]
  exact h

variable {outcome : Prompts.Outcome σ V}

theorem sourced_andThen {next : Prompts.Run σ V → Prompts.Outcome σ V} (h : Run.Sourced P outcome.1)
    (hnext : ∀ run, Run.Sourced P run → Run.Sourced P (next run).1) :
    Run.Sourced P (outcome.andThen next).1 := by
  obtain ⟨run, halt⟩ := outcome
  cases halt with
  | some halt => exact h
  | none => exact hnext run h

variable {host}

theorem lastMarkNameCapacity_of_markExprs (h : P.markExprs ≠ []) :
    P.lastMarkNameCapacity = P.options.maxDynamicMarkNameBytes := if_neg h

theorem sourced_append (hforeach : P.foreach ≠ []) (row : Prompts.PromptRow) (source : ℕ)
    (h : Run.Sourced P run) :
    Run.Sourced P (Prompts.appendProjectedSegment P.toPrompts host.toHost row source run).1 := by
  have hcapacity : P.toPrompts.segmentCapacity = P.projectedCapacity := (if_neg hforeach).symm
  rw [Prompts.appendProjectedSegment]
  split
  next => exact h
  next segment hsegment =>
    split
    next => exact h
    next hroom =>
      split
      next hmark =>
        have hsame := sameCopies_projectMark P.toPrompts host.toHost row source run
        cases hproject : Prompts.projectMark P.toPrompts host.toHost row source run with
        | mk run' result =>
          rw [hproject] at hsame
          cases result with
          | error s => exact h.of_same hsame
          | ok name =>
            obtain ⟨hne, hle, hrows⟩ := projectMark_ok hproject
            have hrun : Run.Sourced P run' := h.of_same hsame
            refine hrun.append ?_ hsegment ⟨rfl, ?_, ?_⟩ hne
            · rw [hsame.1]
              omega
            · exact fun hpayload => absurd hmark.2 hpayload
            · intro _
              rw [lastMarkNameCapacity_of_markExprs hrows]
              exact hle
      next hmark =>
        split
        next => exact h
        next hpayload =>
          refine h.append (by omega) hsegment ⟨rfl, fun _ => rfl, ?_⟩ hpayload
          exact fun hnil => absurd hnil hpayload

theorem sourced_expandRange (hforeach : P.foreach ≠ []) (row : Prompts.PromptRow)
    {enter : ℕ → Prompts.ForeachRow → ℕ → Prompts.Run σ V → Prompts.Outcome σ V}
    (henter : ∀ index loop offset run, Run.Sourced P run →
      Run.Sourced P (enter index loop offset run).1) (parent : Option ℕ)
    (offset sourceEnd n source : ℕ) (h : Run.Sourced P run) :
    Run.Sourced P (Prompts.expandRange P.toPrompts host.toHost row enter parent offset sourceEnd n
      source run).1 := by
  induction n generalizing source run with
  | zero => exact h
  | succ n ih =>
    rw [Prompts.expandRange]
    split
    · split
      next => exact h
      next loop index _ =>
        split
        · exact h
        · exact sourced_andThen (henter _ _ _ _ h) fun run' h' => ih _ h'
      next => exact sourced_andThen (sourced_append hforeach row source h) fun run' h' => ih _ h'
    · exact h

theorem sourced_expandItems (h : Prompts.Host σ V) (loop : Prompts.Loop)
    (snapshot : Prompts.Snapshot) {body : Prompts.Run σ V → Prompts.Outcome σ V}
    (hbody : ∀ run, Run.Sourced P run → Run.Sourced P (body run).1) (i n : ℕ)
    (hrun : Run.Sourced P run) :
    Run.Sourced P (Prompts.expandItems h loop snapshot body i n run).1 := by
  induction n generalizing i run with
  | zero => exact hrun
  | succ n ih =>
    rw [Prompts.expandItems]
    split
    · exact hrun
    · exact sourced_andThen (hbody _ hrun) fun run' h' => ih _ h'

theorem sourced_clearBehind (h : Prompts.Host σ V) (element : Prompts.Element)
    (snapshot : Prompts.Snapshot) (hrun : Run.Sourced P outcome.1) :
    Run.Sourced P (Prompts.clearBehind h element snapshot outcome).1 := by
  have hclear := sameCopies_snapshotClear h element snapshot.storage snapshot.stride 0
    snapshot.count outcome.1
  rw [Prompts.clearBehind]
  revert hclear
  rcases Prompts.snapshotClear h element snapshot.storage snapshot.stride 0 snapshot.count
    outcome.1 with ⟨run', failed⟩
  intro hclear
  cases failed with
  | some s => exact hrun.of_same hclear
  | none => exact hrun.of_same hclear

theorem sourced_expandForeach (hforeach : P.foreach ≠ []) (promptIndex : ℕ)
    (row : Prompts.PromptRow) (fuel index : ℕ) (loop : Prompts.ForeachRow) (offset : ℕ)
    (h : Run.Sourced P run) :
    Run.Sourced P (Prompts.expandForeach P.toPrompts host.toHost promptIndex row fuel index loop
      offset run).1 := by
  induction fuel generalizing index loop offset run with
  | zero => exact h
  | succ fuel ih =>
    rw [Prompts.expandForeach]
    split
    · exact h
    · have hsame := sameCopies_snapshotCollection P.toPrompts host.toHost loop.toLoop offset run
      revert hsame
      rcases Prompts.snapshotCollection P.toPrompts host.toHost loop.toLoop offset run with
        ⟨run', result⟩
      intro hsame
      cases result with
      | error s => exact h.of_same hsame
      | ok snapshot =>
        have hrun : Run.Sourced P run' := h.of_same hsame
        dsimp only
        split
        · exact sourced_clearBehind _ _ _ hrun
        · refine sourced_clearBehind _ _ _ (sourced_expandItems _ _ _ ?_ _ _ hrun)
          intro run'' h''
          exact sourced_expandRange hforeach row (fun _ _ _ _ h => ih _ _ _ h) _ _ _ _ _ h''

variable (host) in
/-- **The segments of an expanded prompt have their sources.** -/
theorem sourced_expandPrompt (hforeach : P.foreach ≠ []) (index : ℕ) (row : Row) (staged : σ) :
    Run.Sourced P (expandPrompt P host index row staged).1 :=
  sourced_expandRange hforeach row.toPromptRow
    (fun _ _ _ _ h => sourced_expandForeach hforeach index row.toPromptRow _ _ _ _ h) _ _ _ _ _
    (sourced_nil P)

/-! ## Dynamic marks -/

structure Naming (P : Program) (row : Row) (segments : List Segment) : Prop where
  length : segments.length = row.segmentCount
  named : ∀ (k : ℕ) (segment : Segment), segments[k]? = some segment →
    ∃ source : Segment, P.segments[row.firstSegment + k]? = some source ∧ Named P source segment

variable {row : Row} {k : ℕ}

theorem getElem?_rowSegments (hk : k < row.segmentCount) :
    (P.rowSegments row)[k]? = P.segments[row.firstSegment + k]? := by
  rw [Program.rowSegments, List.getElem?_take_of_lt hk, List.getElem?_drop]

theorem length_rowSegments (h : row.firstSegment + row.segmentCount ≤ P.segments.length) :
    (P.rowSegments row).length = row.segmentCount := by
  rw [Program.rowSegments, List.length_take, List.length_drop]
  omega

theorem naming_rowSegments (h : row.firstSegment + row.segmentCount ≤ P.segments.length) :
    Naming P row (P.rowSegments row) where
  length := length_rowSegments h
  named := by
    intro k segment hk
    have hlt := (List.getElem?_eq_some_iff.mp hk).1
    rw [length_rowSegments h] at hlt
    rw [getElem?_rowSegments hlt] at hk
    refine ⟨segment, hk, rfl, fun _ => rfl, ?_⟩
    intro hnil
    rw [hnil]
    exact Nat.zero_le _

theorem Naming.set (h : Naming P row segments) (hk : segments[k]? = some segment)
    (hnil : segment.payload = []) (hname : name.length ≤ P.lastMarkNameCapacity) :
    Naming P row (segments.set k { segment with payload := name }) where
  length := by rw [List.length_set, h.length]
  named := by
    intro j s hs
    by_cases hjk : k = j
    · subst hjk
      have hlt := (List.getElem?_eq_some_iff.mp hk).1
      rw [List.getElem?_set_self hlt] at hs
      cases hs
      obtain ⟨source, hsource, hnamed⟩ := h.named k segment hk
      refine ⟨source, hsource, hnamed.kind, fun hpayload => ?_, fun _ => hname⟩
      exact absurd ((hnamed.payload hpayload).symm.trans hnil) hpayload
    · rw [List.getElem?_set_ne hjk] at hs
      exact h.named j s hs

theorem markExprs_forMarks (P : Program) : P.forMarks.markExprs = P.markExprs := by
  rw [Program.forMarks]
  split <;> rfl

theorem maxDynamicMarkNameBytes_forMarks (P : Program) :
    P.forMarks.options.maxDynamicMarkNameBytes = P.options.maxDynamicMarkNameBytes := by
  rw [Program.forMarks]
  split <;> rfl

theorem projectMark_forMarks {row : Prompts.PromptRow}
    (h : Prompts.projectMark P.forMarks host.toHost row absolute run = (run', .ok name)) :
    name ≠ [] ∧ name.length ≤ P.lastMarkNameCapacity := by
  obtain ⟨hne, hle, hrows⟩ := projectMark_ok h
  rw [markExprs_forMarks] at hrows
  rw [maxDynamicMarkNameBytes_forMarks, ← lastMarkNameCapacity_of_markExprs hrows] at hle
  exact ⟨hne, hle⟩

variable {n : ℕ} {rows : List MarkExprRow} {segments' : List Segment}

/-- One turn of the loop names the segment of its row and keeps the names there are. -/
theorem projectMarks_cons {dynamic : MarkExprRow}
    (h : projectMarks P host row (n + 1) (dynamic :: rows) segments run = (run', .ok segments'))
    (hnaming : Naming P row segments) :
    ¬ dynamic.segmentIndex < row.firstSegment ∧
      ¬ row.firstSegment + row.segmentCount ≤ dynamic.segmentIndex ∧
      ∃ segments₁ run₁ named,
        projectMarks P host row n rows segments₁ run₁ = (run', .ok segments') ∧
        Naming P row segments₁ ∧
        segments₁[dynamic.segmentIndex - row.firstSegment]? = some named ∧ named.payload ≠ [] ∧
        ∀ (k : ℕ) (s : Segment), segments[k]? = some s → s.payload ≠ [] →
          segments₁[k]? = some s := by
  rw [projectMarks] at h
  split at h
  next => cases h
  next hrange =>
    rw [not_or] at hrange
    refine ⟨hrange.1, hrange.2, ?_⟩
    split at h
    next => cases h
    next segment hsegment =>
      split at h
      next => cases h
      next hkind =>
        split at h
        next hpayload =>
          exact ⟨segments, run, segment, h, hnaming, hsegment, hpayload, fun _ _ hk _ => hk⟩
        next hnil =>
          cases hproject : Prompts.projectMark P.forMarks host.toHost row.toPromptRow
            dynamic.segmentIndex run with
          | mk run₁ result =>
            rw [hproject] at h
            cases result with
            | error e => cases h
            | ok name =>
              obtain ⟨hne, hle⟩ := projectMark_forMarks hproject
              have hlt := (List.getElem?_eq_some_iff.mp hsegment).1
              refine ⟨_, run₁, _, h, hnaming.set hsegment (not_not.mp hnil) hle,
                List.getElem?_set_self hlt, hne, fun k s hk hs => ?_⟩
              rw [List.getElem?_set_ne, hk]
              rintro rfl
              rw [hsegment] at hk
              cases hk
              exact hs (not_not.mp hnil)

variable (h : projectMarks P host row n rows segments run = (run', .ok segments'))
include h

theorem projectMarks_ok (hnaming : Naming P row segments) :
    Naming P row segments' ∧ ∀ (k : ℕ) (segment : Segment), segments[k]? = some segment →
      segment.payload ≠ [] → segments'[k]? = some segment := by
  induction n generalizing rows segments run with
  | zero =>
    cases h
    exact ⟨hnaming, fun k segment hk _ => hk⟩
  | succ n ih =>
    cases rows with
    | nil => cases h
    | cons dynamic rest =>
      obtain ⟨-, -, segments₁, run₁, named, hnext, hnaming₁, -, -, hkept⟩ :=
        projectMarks_cons h hnaming
      obtain ⟨hfinal, hkeep⟩ := ih hnext hnaming₁
      exact ⟨hfinal, fun k s hk hs => hkeep k s (hkept k s hk hs) hs⟩

theorem projectMarks_resolves {matched : ℕ} {m : MarkExprRow}
    (hnaming : Naming P row segments) (hcount : matched + n = row.dynamicMarkCount) (hn : n ≠ 0)
    (hfound : Prompts.markRowFrom row.toPromptRow absolute matched rows = some m) :
    ∀ s, segments'[absolute - row.firstSegment]? = some s → s.payload ≠ [] := by
  induction n generalizing rows segments run matched with
  | zero => exact absurd rfl hn
  | succ n ih =>
    cases rows with
    | nil => cases hfound
    | cons dynamic rest =>
      obtain ⟨hlow, hhigh, segments₁, run₁, named, hnext, hnaming₁, hnamed, hne, -⟩ :=
        projectMarks_cons h hnaming
      rw [Prompts.markRowFrom, if_neg hlow, if_neg hhigh] at hfound
      split at hfound
      next hhere =>
        subst hhere
        have hkeep := (projectMarks_ok hnext hnaming₁).2 _ _ hnamed hne
        intro s hs
        rw [hkeep] at hs
        cases hs
        exact hne
      next =>
        split at hfound
        next => cases hfound
        next hmore =>
          refine ih hnext hnaming₁ (by omega) ?_ hfound
          rintro rfl
          exact hmore (Nat.le_of_eq hcount.symm)

/-! ## What a batch is stored as -/

omit h

inductive Stored (P : Program) (row : Row) (projected : Projected) (generation : ℕ)
    (segments : List Segment) : Prop
  | static (hgeneration : projected.generation = 0) (hsegments : segments = P.rowSegments row)
      (hresolved : ∀ segment ∈ segments, segment.payload ≠ [])
      (hrow : row.foreachCount = 0 ∧ row.dynamicMarkCount = 0)
  | projected (hgeneration : projected.generation = generation)
      (hsegments : projected.segments = segments)
      (hsources : P.foreach ≠ [] → projected.sources ≠ none)
      (hsourced : Sourced P segments
        (projected.sources.getD (List.range' row.firstSegment row.segmentCount)))

structure SameBatch (batch batch' : BatchRequest) : Prop where
  generation : batch'.generation = batch.generation
  bargein : batch'.bargein = batch.bargein
  bargeinType : batch'.bargeinType = batch.bargeinType

structure Projects (s s' : Session σ) : Prop where
  state : s'.state = s.state
  active : s'.active = s.active
  collectGeneration : s'.collectGeneration = s.collectGeneration
  selection : s'.selection = s.selection
  media : s'.media = { s.media with projected := s'.media.projected }

theorem markRowFrom_dropWhile (row : Prompts.PromptRow) (absolute matched : ℕ)
    (rows : List MarkExprRow) :
    Prompts.markRowFrom row absolute matched
        (rows.dropWhile fun m => decide (m.segmentIndex < row.firstSegment)) =
      Prompts.markRowFrom row absolute matched rows := by
  induction rows with
  | nil => rfl
  | cons mark rest ih =>
    by_cases hlt : mark.segmentIndex < row.firstSegment
    · rw [List.dropWhile_cons_of_pos (by simpa using hlt), ih, Prompts.markRowFrom, if_pos hlt]
    · rw [List.dropWhile_cons_of_neg (by simpa using hlt)]

theorem Row.Valid.resolved (h : row.Valid P) (hmarks : row.dynamicMarkCount = 0) :
    ∀ segment ∈ P.rowSegments row, segment.payload ≠ [] := by
  intro segment hmem
  obtain ⟨-, hrange, hsegments⟩ := h.segments
  obtain ⟨k, hk⟩ := List.getElem?_of_mem hmem
  have hlt := (List.getElem?_eq_some_iff.mp hk).1
  rw [length_rowSegments hrange] at hlt
  rw [getElem?_rowSegments hlt] at hk
  have hvalid := hsegments k hlt
  have hnone : Prompts.dynamicMarkRow P.toPrompts row.toPromptRow (row.firstSegment + k) = none :=
    if_pos hmarks
  rw [segmentValid, hk, hnone] at hvalid
  intro hnil
  simp [hnil] at hvalid

theorem resolved_of_projectMarks (h : row.Valid P) (hmarks : row.dynamicMarkCount ≠ 0)
    (hproject : projectMarks P host row row.dynamicMarkCount
      (P.markExprs.dropWhile fun m => decide (m.segmentIndex < row.firstSegment))
      (P.rowSegments row) run = (run', .ok segments)) :
    Naming P row segments ∧ ∀ segment ∈ segments, segment.payload ≠ [] := by
  obtain ⟨-, hrange, hsegments⟩ := h.segments
  have hrows := naming_rowSegments (P := P) hrange
  have hnaming := (projectMarks_ok hproject hrows).1
  refine ⟨hnaming, fun segment hmem hnil => ?_⟩
  obtain ⟨k, hk⟩ := List.getElem?_of_mem hmem
  have hlt := (List.getElem?_eq_some_iff.mp hk).1
  rw [hnaming.length] at hlt
  obtain ⟨source, hsource, hnamed⟩ := hnaming.named k segment hk
  have hempty : source.payload = [] := by
    by_contra hne
    exact hne ((hnamed.payload hne).symm.trans hnil)
  have hvalid := hsegments k hlt
  rw [segmentValid, hsource] at hvalid
  simp only [Option.any_some, hempty, List.isEmpty_nil, Bool.not_true, Bool.false_or,
    Bool.and_eq_true, Option.isSome_iff_exists] at hvalid
  obtain ⟨-, m, hm⟩ := hvalid
  rw [Prompts.dynamicMarkRow, if_neg hmarks] at hm
  change Prompts.markRowFrom row.toPromptRow (row.firstSegment + k) 0 P.markExprs = some m at hm
  rw [← markRowFrom_dropWhile] at hm
  refine projectMarks_resolves hproject hrows (Nat.zero_add _) hmarks hm segment ?_ hnil
  rwa [Nat.add_sub_cancel_left]

theorem projects_project (s : Session σ) (projected : Projected) :
    Projects s (s.project projected) := ⟨rfl, rfl, rfl, rfl, rfl⟩

variable {s s' : Session σ} {s'' : Session σ}

theorem Projects.trans (h : Projects s s') (h' : Projects s' s'') : Projects s s'' where
  state := h'.state.trans h.state
  active := h'.active.trans h.active
  collectGeneration := h'.collectGeneration.trans h.collectGeneration
  selection := h'.selection.trans h.selection
  media := by
    rw [h'.media, h.media]

theorem projects_stage (s : Session σ) (staged : σ) : Projects s (s.stage staged) := by
  rw [Session.stage]
  split
  · exact ⟨rfl, rfl, rfl, rfl, rfl⟩
  · exact ⟨rfl, rfl, rfl, rfl, rfl⟩

variable {opens : Bool} {batch batch' : BatchRequest} {selected : Selected} {index : ℕ}

theorem projectDynamicMarks_stored
    (hselected : selectedPromptRow P host opens s = (.ok selected, s))
    (hrow : selected.row = some (index, row)) (hvalid : row.Valid P)
    (hforeach : row.foreachCount = 0) (hbatch : batch.segments = P.rowSegments row)
    (h : projectDynamicMarks P host opens s batch = (s', .ok batch')) :
    Stored P row s'.media.projected batch.generation batch'.segments ∧ SameBatch batch batch' ∧
      Projects s s' := by
  rw [projectDynamicMarks, hselected] at h
  dsimp only at h
  rw [hrow] at h
  dsimp only at h
  split at h
  next hmarks =>
    cases h
    refine ⟨.static rfl hbatch ?_ ⟨hforeach, hmarks⟩, ⟨rfl, rfl, rfl⟩, projects_project s .none⟩
    rw [hbatch]
    exact hvalid.resolved hmarks
  next hmarks =>
    split at h
    next => cases h
    next hbounds =>
      rw [hbatch] at h
      split at h
      next => cases h
      next run' segments hproject =>
        cases h
        obtain ⟨hnaming, hresolved⟩ := resolved_of_projectMarks hvalid hmarks hproject
        refine ⟨.projected rfl rfl ?_ ?_, ⟨rfl, rfl, rfl⟩, ?_⟩
        · intro hforeach
          change (if P.foreach = [] then none else some _) ≠ none
          rw [if_neg hforeach]
          intro hnone
          cases hnone
        · have hsources : (if P.foreach = [] then none
              else some (List.range' row.firstSegment row.segmentCount)).getD
              (List.range' row.firstSegment row.segmentCount) =
              List.range' row.firstSegment row.segmentCount := by
            split <;> rfl
          have hlength : batch.segments.length = segments.length := by
            rw [hbatch, hnaming.length, length_rowSegments hvalid.segments.2.1]
          change Sourced P segments ((if P.foreach = [] then none
            else some (List.range' row.firstSegment row.segmentCount)).getD _)
          rw [hsources]
          refine ⟨?_, ?_, fun k segment hk => ?_, hresolved⟩
          · rw [List.length_range', hnaming.length]
          · omega
          · have hlt := (List.getElem?_eq_some_iff.mp hk).1
            rw [hnaming.length] at hlt
            obtain ⟨source, hsource, hnamed⟩ := hnaming.named k segment hk
            refine ⟨row.firstSegment + k, source, ?_, hsource, hnamed⟩
            rw [List.getElem?_range' hlt, Nat.one_mul]
        · exact ((projects_project s .none).trans (projects_stage _ _)).trans
            (projects_project _ _)

theorem expandPrompt_of_projectForeach {generation : ℕ} {opened : Option σ}
    {start profile : Prompts.Profile σ} {expanded : Prompts.Batch} {arena : Lifetimes.Storage V}
    (hrow : P.prompts[index]? = some row)
    (h : Prompts.projectForeach P.toPrompts host.toHost index generation opened start =
      (profile, .ok expanded, arena)) :
    row.foreachCount ≠ 0 ∧ P.foreach ≠ [] ∧ profile.projectedGeneration = generation ∧
      ∃ staged, start.transaction.or opened = some staged ∧
        expanded.segments = (expandPrompt P host index row staged).1.segments := by
  have hprompt : P.toPrompts.prompts[index]? = some row.toPromptRow := by
    change (P.prompts.map Row.toPromptRow)[index]? = _
    rw [List.getElem?_map, hrow]
    rfl
  rw [Prompts.projectForeach, hprompt] at h
  dsimp only at h
  split at h
  next => cases h
  next hcount =>
    split at h
    next => cases h
    next hvalid =>
      rw [not_or] at hvalid
      split at h
      next => cases h
      next staged hstart =>
        have hexpand : expandPrompt P host index row staged =
          Prompts.expandRange P.toPrompts host.toHost row.toPromptRow
            (Prompts.expandForeach P.toPrompts host.toHost index row.toPromptRow
              (row.foreachCount + 1))
            none 0 (row.firstSegment + row.segmentCount) row.segmentCount row.firstSegment
            (Prompts.Run.start staged) := rfl
        rw [← hexpand] at h
        have hforeach : P.foreach ≠ [] := by
          intro hnil
          refine hvalid.1 ?_
          change P.foreach.length < _
          rw [hnil, List.length_nil]
          omega
        refine ⟨hcount, hforeach, ?_⟩
        cases hrun : expandPrompt P host index row staged with
        | mk run halt =>
          rw [hrun] at h
          cases halt with
          | some halt => cases h
          | none =>
            rw [Prompts.projectExpanded] at h
            split at h
            next => cases h
            next =>
              cases h
              exact ⟨rfl, staged, hstart, by rw [hrun]⟩

theorem projectForeachBatch_stored
    (hselected : selectedPromptRow P host opens s = (.ok selected, s))
    (hrow : selected.row = some (index, row)) (hlisted : Listed P (index, row))
    (h : projectForeachBatch P host opens s batch = (s', .ok batch')) :
    Stored P row s'.media.projected batch.generation batch'.segments ∧ SameBatch batch batch' ∧
      Projects s s' := by
  rw [projectForeachBatch, hselected] at h
  dsimp only at h
  rw [hrow] at h
  dsimp only at h
  split at h
  next => cases h
  next =>
    split at h
    next => cases h
    next profile expanded arena hproject =>
      cases h
      obtain ⟨-, hforeach, hgeneration, staged, hstart, hsegments⟩ :=
        expandPrompt_of_projectForeach hlisted.1 hproject
      have hstaged : s.promptStaged.getD s.values = staged := by
        change s.promptStaged.or (if opens then some s.values else none) = some staged at hstart
        cases hopen : s.promptStaged with
        | some v =>
          rw [hopen] at hstart
          cases hstart
          rfl
        | none =>
          rw [hopen] at hstart
          cases opens with
          | true =>
            cases hstart
            rfl
          | false => cases hstart
      have hsourced := sourced_expandPrompt host hforeach index row staged
      rw [Run.Sourced, ← hsegments] at hsourced
      refine ⟨.projected hgeneration rfl ?_ ?_, ⟨rfl, rfl, rfl⟩, rfl, rfl, rfl, rfl, rfl⟩
      · intro _ hnone
        cases hnone
      · rw [hstaged]
        exact hsourced

/-- **What a projected batch is stored as.** -/
theorem projectBatch_stored (hselected : selectedPromptRow P host opens s = (.ok selected, s))
    (hrow : selected.row = some (index, row)) (hlisted : Listed P (index, row))
    (hbatch : batch.segments = P.rowSegments row)
    (h : projectBatch P host opens s batch = (s', .ok batch')) :
    Stored P row s'.media.projected batch.generation batch'.segments ∧ SameBatch batch batch' ∧
      Projects s s' := by
  rw [projectBatch, hselected] at h
  dsimp only at h
  split at h
  next => exact projectForeachBatch_stored hselected hrow hlisted h
  next hforeach =>
    rw [hrow, Option.any_some, decide_eq_true_eq, not_not] at hforeach
    exact projectDynamicMarks_stored hselected hrow hlisted.2 hforeach hbatch h

/-- Only the transaction, the kept selection and the projected segments may differ. -/
structure Framed (P : Program) (s s' : Session σ) : Prop where
  collectGeneration : s'.collectGeneration = s.collectGeneration
  selection : s.SelectionValid P → s'.SelectionValid P
  media : s'.media = { s.media with projected := s'.media.projected }

theorem Framed.refl (s : Session σ) : Framed P s s := ⟨rfl, id, rfl⟩

theorem Framed.trans (h : Framed P s s') (h' : Framed P s' s'') : Framed P s s'' where
  collectGeneration := h'.collectGeneration.trans h.collectGeneration
  selection := h'.selection ∘ h.selection
  media := by
    rw [h'.media, h.media]

variable (P) (host) in
theorem framed_selectedPromptRow (opens : Bool) (s : Session σ) :
    Framed P s (selectedPromptRow P host opens s).2 where
  collectGeneration := (sameState_selectedPromptRow P host opens s).collectGeneration
  selection := fun hs => (selectedPromptRow_valid hs).2
  media := by rw [(sameState_selectedPromptRow P host opens s).media]

theorem framed_abort (s : Session σ) : Framed P s s.abort := by
  rw [Session.abort]
  split
  · refine ⟨rfl, ?_, rfl⟩
    intro _ c hc
    cases hc
  · exact .refl s

variable (P) (host) in
theorem framed_batchRequest (opens : Bool) (s : Session σ) :
    Framed P s (batchRequest P host opens s).2 := by
  have hselect := framed_selectedPromptRow P host opens s
  rw [batchRequest]
  revert hselect
  rcases selectedPromptRow P host opens s with ⟨result, s'⟩
  intro hselect
  cases result with
  | error e => exact hselect
  | ok selected =>
    dsimp only
    split
    · exact hselect
    · split
      · exact hselect
      · exact hselect

theorem Projects.framed (h : Projects s s') : Framed P s s' where
  collectGeneration := h.collectGeneration
  selection := by
    intro hs
    rw [Session.SelectionValid, h.selection]
    exact hs
  media := h.media

theorem framed_projectDynamicMarks (opens : Bool) (s : Session σ) (batch : BatchRequest) :
    Framed P s (projectDynamicMarks P host opens s batch).1 := by
  have hselect := framed_selectedPromptRow P host opens s
  rw [projectDynamicMarks]
  revert hselect
  rcases selectedPromptRow P host opens s with ⟨result, s'⟩
  intro hselect
  cases result with
  | error e => exact hselect
  | ok selected =>
    have hnone := hselect.trans (projects_project s' .none).framed
    dsimp only
    split
    · exact hnone
    · split
      · exact hnone
      · split
        · exact hnone
        · split
          · exact hnone.trans (projects_stage _ _).framed
          · exact (hnone.trans (projects_stage _ _).framed).trans (projects_project _ _).framed

theorem framed_projectForeachBatch (opens : Bool) (s : Session σ) (batch : BatchRequest) :
    Framed P s (projectForeachBatch P host opens s batch).1 := by
  have hselect := framed_selectedPromptRow P host opens s
  rw [projectForeachBatch]
  revert hselect
  rcases selectedPromptRow P host opens s with ⟨result, s'⟩
  intro hselect
  cases result with
  | error e => exact hselect
  | ok selected =>
    dsimp only
    split
    · exact hselect
    · split
      · exact hselect
      · split
        · refine hselect.trans ⟨rfl, ?_, rfl⟩
          intro hs c hc
          change c ∈ (if _ then s'.selection else none) at hc
          split at hc
          · exact hs c hc
          · cases hc
        · exact hselect.trans ⟨rfl, id, rfl⟩

variable (P) (host) in
theorem framed_projectBatch (opens : Bool) (s : Session σ) (batch : BatchRequest) :
    Framed P s (projectBatch P host opens s batch).1 := by
  have hselect := framed_selectedPromptRow P host opens s
  rw [projectBatch]
  revert hselect
  rcases selectedPromptRow P host opens s with ⟨result, s'⟩
  intro hselect
  cases result with
  | error e => exact hselect
  | ok selected =>
    dsimp only
    split
    · exact hselect.trans (framed_projectForeachBatch opens s' batch)
    · exact hselect.trans (framed_projectDynamicMarks opens s' batch)

end TurboScxml.Voice.PromptMedia
