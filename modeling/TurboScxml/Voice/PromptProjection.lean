import TurboScxml.Lib.Lifetimes
import TurboScxml.Voice.Locations
import TurboScxml.Voice.PromptTables

/-!
# Projection of a prompt with foreach ranges

The segments of a selected prompt are copied into the batch; a foreach range is copied once for
each element of a snapshot of its collection.

* `Host`: the collections, the values and the expressions, which the value library supplies;
* `expandRange`, `expandForeach`: the ranges, found through their parent and first segment;
* `projectFallbacks`: the fallback rows of the copies;
* `treeValid`, `projectForeach`: the whole projection inside a transaction.
-/

namespace TurboScxml.Voice.Prompts

open Lifetimes
open Locations (aligned)

/-- `cmeta_status` without `CMETA_OK`. -/
inductive MetaStatus
  | invalidArgument | traitMissing | outOfMemory | capacityExceeded | other
  deriving DecidableEq

def foreachMetaStatus : MetaStatus → Status
  | .outOfMemory => .allocationFailed
  | .capacityExceeded => .limitExceeded
  | .invalidArgument => .invalidContract
  | .traitMissing => .invalidContract
  | .other => .semanticError

/-- What the value library and the expressions do with staged values `σ` and elements `V`. -/
structure Host (σ V : Type) where
  collection : Loop → σ → Except Status (List V × Option MetaStatus)
  initZero : Element → σ → Option MetaStatus × σ
  copy : Element → V → σ → Option MetaStatus × σ
  restoreZero : Element → Option V → Option MetaStatus
  declareItem : Loop → σ → Except Status σ
  assignItem : Loop → Option V → σ → Except Status σ
  evaluate : ℕ → σ → Except Status (Option Text) × σ

abbrev Capabilities := UInt64

/-- `VXML_CMETA_PROMPT_MEDIA_CAP_BATCH`. -/
def capBatch : Capabilities := 8

def capAudioFallback : Capabilities := 32

def segmentCapability : Kind → Capabilities
  | .text => 1
  | .ssml => 2
  | .audio => 4
  | .mark => 16

/-- The staged values, the arena and the projected segments. -/
structure Run (σ V : Type) where
  staged : σ
  arena : Storage V
  segments : List Segment
  sources : List ℕ
  storageUsed : ℕ
  requiredCapabilities : Capabilities

/-- A status, or the bound of the recursion of this model. -/
inductive Halt
  | status (s : Status)
  | exhausted
  deriving DecidableEq

/-- What a part of a projection leaves, with `none` for `VXML_OK`. -/
abbrev Outcome (σ V : Type) := Run σ V × Option Halt

variable {σ V : Type}

def Outcome.andThen (o : Outcome σ V) (next : Run σ V → Outcome σ V) : Outcome σ V :=
  match o.2 with
  | some halt => (o.1, some halt)
  | none => next o.1

def Program.segmentCapacity (P : Program) : ℕ := P.options.maxPromptExpandedSegments

/-- `prompt_media_dynamic_mark_storage_capacity`. -/
def Program.markStorageCapacity (P : Program) : ℕ :=
  P.options.maxPromptExpandedSegments * P.options.maxDynamicMarkNameBytes

def Program.snapshotCapacity (P : Program) : ℕ := P.options.maxPromptForeachSnapshotBytes

def Program.foreachRows (P : Program) (row : PromptRow) : List (ForeachRow × ℕ) :=
  ((P.foreach.drop row.firstForeach).take row.foreachCount).zipIdx row.firstForeach

variable (P : Program) (host : Host σ V) (promptIndex : ℕ) (row : PromptRow)

/-! ## Snapshots -/

def snapshotVisit (element : Element) (base stride count : ℕ) (v : V) (run : Run σ V) :
    Run σ V × Option MetaStatus :=
  if P.options.maxPromptForeachItems ≤ count then (run, some .capacityExceeded)
  else if (P.snapshotCapacity - base) / stride < count + 1 then (run, some .capacityExceeded)
  else
    match host.initZero element run.staged with
    | (some failure, staged) => ({ run with staged := staged }, some failure)
    | (none, staged) =>
      let built := run.arena.construct (base + count * stride) element.size v
      match host.copy element v staged with
      | (some failure, staged') =>
        ({ run with
            staged := staged'
            arena := built.destroy (base + count * stride) element.size }, some failure)
      | (none, staged') => ({ run with staged := staged', arena := built }, none)

/-- The visits of `cmeta_data_collection_foreach`. -/
def visitElements (element : Element) (base stride : ℕ) :
    ℕ → List V → Run σ V → ℕ × Run σ V × Option MetaStatus
  | count, [], run => (count, run, none)
  | count, v :: vs, run =>
    match snapshotVisit P host element base stride count v run with
    | (run', some failure) => (count, run', some failure)
    | (run', none) => visitElements element base stride (count + 1) vs run'

/-- `prompt_foreach_snapshot_clear`. -/
def snapshotClear (element : Element) (base stride : ℕ) :
    ℕ → ℕ → Run σ V → Run σ V × Option Status
  | _, 0, run => (run, none)
  | i, n + 1, run =>
    match host.restoreZero element (run.arena.load (base + i * stride)) with
    | some _ => (run, some .invalidContract)
    | none =>
      snapshotClear element base stride (i + 1) n
        { run with arena := run.arena.destroy (base + i * stride) element.size }

structure Snapshot where
  storage : ℕ
  count : ℕ
  stride : ℕ
  nextOffset : ℕ

def clearAfter (element : Element) (base stride count : ℕ) (run : Run σ V) (s : Status) :
    Run σ V × Except Status Snapshot :=
  match snapshotClear host element base stride 0 count run with
  | (run', some failure) => (run', .error failure)
  | (run', none) => (run', .error s)

def snapshotCollection (loop : Loop) (offset : ℕ) (run : Run σ V) :
    Run σ V × Except Status Snapshot :=
  if P.snapshotCapacity < offset then (run, .error .invalidStructure)
  else
    match host.collection loop run.staged with
    | .error s => (run, .error s)
    | .ok (elements, ending) =>
      let base := aligned offset loop.element.align
      let stride := aligned loop.element.size loop.element.align
      if !validAlignment loop.element.align then (run, .error .invalidStructure)
      else if P.snapshotCapacity < base then (run, .error .limitExceeded)
      else if stride = 0 ∨ P.snapshotCapacity - base < stride then (run, .error .limitExceeded)
      else
        match visitElements P host loop.element base stride 0 elements run with
        | (count, run', failed) =>
          match failed.or ending with
          | some failure =>
            clearAfter host loop.element base stride count run' (foreachMetaStatus failure)
          | none =>
            if P.snapshotCapacity - count * stride < base then
              clearAfter host loop.element base stride count run' .limitExceeded
            else (run', .ok ⟨base, count, stride, base + count * stride⟩)

/-! ## Segments -/

/-- `prompt_dynamic_mark_row`. -/
def markRowFrom (absolute : ℕ) : ℕ → List MarkExprRow → Option MarkExprRow
  | _, [] => none
  | matched, mark :: rest =>
    if mark.segmentIndex < row.firstSegment then markRowFrom absolute matched rest
    else if row.firstSegment + row.segmentCount ≤ mark.segmentIndex then none
    else if mark.segmentIndex = absolute then some mark
    else if row.dynamicMarkCount ≤ matched + 1 then none
    else markRowFrom absolute (matched + 1) rest

def dynamicMarkRow (absolute : ℕ) : Option MarkExprRow :=
  if row.dynamicMarkCount = 0 then none else markRowFrom row absolute 0 P.markExprs

/-- `prompt_media_project_mark`. -/
def projectMark (absolute : ℕ) (run : Run σ V) : Run σ V × Except Status Text :=
  match dynamicMarkRow P row absolute with
  | none => (run, .error .invalidStructure)
  | some mark =>
    if P.options.maxDynamicMarkNameBytes = 0 then (run, .error .invalidStructure)
    else
      match host.evaluate mark.expression run.staged with
      | (.error _, staged) => ({ run with staged := staged }, .error .semanticError)
      | (.ok none, staged) => ({ run with staged := staged }, .error .semanticError)
      | (.ok (some name), staged) =>
        if name = [] ∨ P.options.maxDynamicMarkNameBytes < name.length ∨
            P.markStorageCapacity < run.storageUsed ∨
            P.markStorageCapacity - run.storageUsed < name.length then
          ({ run with staged := staged }, .error .semanticError)
        else
          ({ run with staged := staged, storageUsed := run.storageUsed + name.length }, .ok name)

def Run.append (run : Run σ V) (source : ℕ) (segment : Segment) : Run σ V :=
  { run with
    segments := run.segments ++ [segment]
    sources := run.sources ++ [source]
    requiredCapabilities := run.requiredCapabilities ||| segmentCapability segment.kind }

def appendProjectedSegment (source : ℕ) (run : Run σ V) : Outcome σ V :=
  match P.segments[source]? with
  | none => (run, some (.status .invalidStructure))
  | some segment =>
    if P.segmentCapacity ≤ run.segments.length then (run, some (.status .limitExceeded))
    else if segment.kind = .mark ∧ segment.payload = [] then
      match projectMark P host row source run with
      | (run', .error s) => (run', some (.status s))
      | (run', .ok name) => (run'.append source { segment with payload := name }, none)
    else if segment.payload = [] then (run, some (.status .invalidStructure))
    else (run.append source segment, none)

/-! ## Ranges -/

def directAtSource (parent : Option ℕ) (source : ℕ) : Except Status (Option (ForeachRow × ℕ)) :=
  match (P.foreachRows row).filter fun r =>
      r.1.parentForeach == parent && r.1.firstSegment == source with
  | [] => .ok none
  | [r] => .ok (some r)
  | _ :: _ :: _ => .error .invalidStructure

/-- `prompt_media_expand_range`. -/
def expandRange (enter : ℕ → ForeachRow → ℕ → Run σ V → Outcome σ V) (parent : Option ℕ)
    (offset sourceEnd : ℕ) : ℕ → ℕ → Run σ V → Outcome σ V
  | 0, source, run => (run, if source < sourceEnd then some .exhausted else none)
  | n + 1, source, run =>
    if source < sourceEnd then
      match directAtSource P row parent source with
      | .error s => (run, some (.status s))
      | .ok (some (loop, index)) =>
        if loop.segmentCount = 0 ∨ sourceEnd - source < loop.segmentCount then
          (run, some (.status .invalidStructure))
        else
          (Outcome.andThen (enter index loop offset run) fun run' =>
            expandRange enter parent offset sourceEnd n (source + loop.segmentCount) run')
      | .ok none =>
        Outcome.andThen (appendProjectedSegment P host row source run) fun run' =>
          expandRange enter parent offset sourceEnd n (source + 1) run'
    else (run, none)

def expandItems (loop : Loop) (snapshot : Snapshot) (body : Run σ V → Outcome σ V) :
    ℕ → ℕ → Run σ V → Outcome σ V
  | _, 0, run => (run, none)
  | i, n + 1, run =>
    match host.assignItem loop (run.arena.load (snapshot.storage + i * snapshot.stride))
        run.staged with
    | .error s => (run, some (.status s))
    | .ok staged =>
      Outcome.andThen (body { run with staged := staged }) fun run' =>
        expandItems loop snapshot body (i + 1) n run'

def clearBehind (element : Element) (snapshot : Snapshot) (o : Outcome σ V) : Outcome σ V :=
  match snapshotClear host element snapshot.storage snapshot.stride 0 snapshot.count o.1 with
  | (run, some s) => (run, some (.status s))
  | (run, none) => (run, o.2)

/-- `prompt_media_expand_foreach`. -/
def expandForeach : ℕ → ℕ → ForeachRow → ℕ → Run σ V → Outcome σ V
  | 0, _, _, _, run => (run, some .exhausted)
  | fuel + 1, index, loop, offset, run =>
    if loop.prompt ≠ promptIndex then (run, some (.status .invalidStructure))
    else
      match snapshotCollection P host loop.toLoop offset run with
      | (run', .error s) => (run', some (.status s))
      | (run', .ok snapshot) =>
        match host.declareItem loop.toLoop run'.staged with
        | .error s => clearBehind host loop.element snapshot (run', some (.status s))
        | .ok staged =>
          clearBehind host loop.element snapshot
            (expandItems host loop.toLoop snapshot
              (expandRange P host row (expandForeach fuel) (some index) snapshot.nextOffset
                (loop.firstSegment + loop.segmentCount) loop.segmentCount loop.firstSegment)
              0 snapshot.count { run' with staged := staged })

/-! ## Fallbacks -/

def ForeachRow.holds (loop : ForeachRow) (source : ℕ) : Bool :=
  decide (loop.firstSegment ≤ source ∧ source - loop.firstSegment < loop.segmentCount)

def deeper (source : ℕ) (best : Option ForeachRow) (loop : ForeachRow) : Option ForeachRow :=
  if loop.holds source && best.all fun b => decide (b.depth < loop.depth) then some loop else best

def foreachForSourceSegment (source : ℕ) : Option ForeachRow :=
  (P.foreachRows row).foldl (fun best r => deeper source best r.1) none

def fallbackOwnedByForeach (fallback : ℕ) : Bool :=
  (P.foreachRows row).any fun r =>
    decide (r.1.firstFallback ≤ fallback ∧ fallback - r.1.firstFallback < r.1.fallbackCount)

def fallbackRange (owner : Option ForeachRow) : ℕ × ℕ × ℕ :=
  match owner with
  | some loop => (loop.firstFallback, loop.fallbackCount, loop.firstSegment)
  | none => (row.firstFallback, row.fallbackCount, row.firstSegment)

def scanFallbacks (owner : Option ForeachRow) (base projectedCount index source : ℕ) :
    List ℕ → List Fallback → Except Status (List Fallback)
  | [], out => .ok out
  | absolute :: rest, out =>
    if owner = none ∧ fallbackOwnedByForeach P row absolute then
      scanFallbacks owner base projectedCount index source rest out
    else
      match P.fallbacks[absolute]? with
      | none => .error .invalidStructure
      | some fallback =>
        if base + fallback.audioSegmentIndex ≠ source then
          scanFallbacks owner base projectedCount index source rest out
        else if fallback.firstFallbackSegment < fallback.audioSegmentIndex then
          .error .invalidStructure
        else
          let first := index + (fallback.firstFallbackSegment - fallback.audioSegmentIndex)
          if fallback.fallbackSegmentCount = 0 ∨ projectedCount ≤ first ∨
              projectedCount - first < fallback.fallbackSegmentCount ∨
              P.segmentCapacity ≤ out.length then .error .invalidStructure
          else
            scanFallbacks owner base projectedCount index source rest
              (out ++ [⟨index, first, fallback.fallbackSegmentCount⟩])

/-- `prompt_media_project_fallbacks`. -/
def projectFallbacksFrom (projectedCount : ℕ) :
    ℕ → List (Segment × ℕ) → List Fallback → Except Status (List Fallback)
  | _, [], out => .ok out
  | index, (segment, source) :: rest, out =>
    if segment.kind ≠ .audio then projectFallbacksFrom projectedCount (index + 1) rest out
    else
      let owner := foreachForSourceSegment P row source
      let range := fallbackRange row owner
      match scanFallbacks P row owner range.2.2 projectedCount index source
          (List.range' range.1 range.2.1) out with
      | .error s => .error s
      | .ok out' => projectFallbacksFrom projectedCount (index + 1) rest out'

def projectFallbacks (run : Run σ V) : Except Status (List Fallback) :=
  if row.fallbackCount ≠ 0 ∧ P.fallbacks.length < row.firstFallback + row.fallbackCount then
    .error .invalidStructure
  else projectFallbacksFrom P row run.segments.length 0 (run.segments.zip run.sources) []

/-! ## The projection -/

def foreachRowInPrompt (loop : ForeachRow) : Bool :=
  decide (loop.prompt = promptIndex ∧ loop.depth ≠ 0 ∧ loop.segmentCount ≠ 0 ∧
    row.firstSegment ≤ loop.firstSegment ∧
    loop.firstSegment < row.firstSegment + row.segmentCount ∧
    loop.segmentCount ≤ row.firstSegment + row.segmentCount - loop.firstSegment ∧
    ¬(1 < loop.depth ∧ (P.options.maxPromptForeachDepth = 0 ∨
      P.options.maxPromptForeachDepth < loop.depth)))

def foreachRowInParent (loop parent : ForeachRow) : Bool :=
  decide (parent.prompt = promptIndex ∧ parent.segmentCount ≠ 0 ∧ loop.depth = parent.depth + 1 ∧
    parent.firstSegment ≤ loop.firstSegment ∧
    loop.firstSegment < parent.firstSegment + parent.segmentCount ∧
    loop.segmentCount ≤ parent.firstSegment + parent.segmentCount - loop.firstSegment)

/-- The tests of `prompt_foreach_tree_valid` on a row. -/
def foreachRowValid (loop : ForeachRow) (index : ℕ) : Bool :=
  foreachRowInPrompt P promptIndex row loop &&
    match loop.parentForeach with
    | none => loop.depth == 1
    | some parentIndex =>
      decide (row.firstForeach ≤ parentIndex ∧ parentIndex < index) &&
        (P.foreach[parentIndex]?).any (foreachRowInParent promptIndex loop)

def foreachTreeValid : Bool :=
  (P.foreachRows row).all fun r => foreachRowValid P promptIndex row r.1 r.2

/-- What is projected of a `…_batch_request_v1`. -/
structure Batch where
  segments : List Segment
  fallbacks : List Fallback
  requiredCapabilities : Capabilities
  deriving DecidableEq

/-- The staged values, and the batch that the arrays hold. -/
structure Profile (σ : Type) where
  transaction : Option σ
  projectedGeneration : ℕ
  projectedFirstSegment : Option ℕ
  projectedSegmentCount : ℕ

/-- `prompt_media_abort_transaction` behind a failure. -/
def Profile.aborted : Profile σ := ⟨none, 0, none, 0⟩

def Run.start (staged : σ) : Run σ V := ⟨staged, .empty, [], [], 0, 0⟩

/-- `prompt_media_project_foreach` behind the expansion. -/
def projectExpanded (generation : ℕ) (outcome : Outcome σ V) :
    Profile σ × Except Halt Batch × Storage V :=
  match outcome with
  | (run, some halt) => (.aborted, .error halt, run.arena)
  | (run, none) =>
    match projectFallbacks P row run with
    | .error s => (.aborted, .error (.status s), run.arena)
    | .ok fallbacks =>
      (⟨some run.staged, generation, some row.firstSegment, run.segments.length⟩,
        .ok ⟨run.segments, fallbacks,
          run.requiredCapabilities |||
            (if fallbacks = [] then 0 else capAudioFallback ||| capBatch) |||
            (if 1 < run.segments.length then capBatch else 0)⟩,
        run.arena)

/-- `prompt_media_project_foreach`. -/
def projectForeach (generation : ℕ) (opened : Option σ) (profile : Profile σ) :
    Profile σ × Except Halt Batch × Storage V :=
  match P.prompts[promptIndex]? with
  | none => (profile, .error (.status .invalidStructure), .empty)
  | some row =>
    if row.foreachCount = 0 then (profile, .error (.status .invalidArgument), .empty)
    else if P.foreach.length < row.firstForeach + row.foreachCount ∨
        P.segments.length < row.firstSegment + row.segmentCount ∨
        foreachTreeValid P promptIndex row = false then
      (profile, .error (.status .invalidStructure), .empty)
    else
      match profile.transaction.or opened with
      | none => (profile, .error (.status .allocationFailed), .empty)
      | some staged =>
        projectExpanded P row generation
          (expandRange P host row (expandForeach P host promptIndex row (row.foreachCount + 1)) none
            0 (row.firstSegment + row.segmentCount) row.segmentCount row.firstSegment
            (Run.start staged))

end TurboScxml.Voice.Prompts
