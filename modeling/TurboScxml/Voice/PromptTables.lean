import TurboScxml.Basic
import TurboScxml.Lib.Fallible

/-!
# The tables of compiled prompts

The children of a `<prompt>` are compiled into segments, foreach rows, fallback rows and rows of
dynamic mark names.

* `Item`, `Nodes`: the children of a prompt, with `<foreach>` nested to any depth;
* `Segment`, `Fallback`, `MarkExprRow`, `ForeachRow`, `PromptRow`, `Program`: the compiled rows;
* `Nodes.segments`, `Nodes.fallbacks`, `Nodes.marks`, `Nodes.rows`: the rows of a tree;
* `compileChildren_eq`, `Compiled`: the second pass gives the rows of the trees, in their order.
-/

namespace TurboScxml.Voice.Prompts

open Fallible

/-- `vxml_status` without `VXML_OK`, as far as prompts use it. -/
inductive Status
  | invalidArgument | invalidStructure | invalidContract | limitExceeded | semanticError
  | allocationFailed
  deriving DecidableEq

/-! ## Prompts -/

abbrev Payload := { text : Text // text ≠ [] }

/-- A child of an `<audio>`. -/
inductive Piece
  | ignored
  | text (text : Payload)
  | ssml (serialized : Payload)
  deriving DecidableEq

/-- A child of a prompt other than a `<foreach>`. -/
inductive Item
  | ignored
  | text (text : Payload)
  | audio (src : Text) (fallback : List Piece)
  | ssml (serialized : Payload)
  | mark (name : Text)
  | markExpr (expression : ℕ)
  deriving DecidableEq

def validAlignment (alignment : ℕ) : Bool := alignment != 0 && alignment &&& (alignment - 1) == 0

structure Element where
  size : ℕ
  align : ℕ
  valid : validAlignment align = true
  deriving DecidableEq

theorem Element.align_pos (e : Element) : 0 < e.align := by
  have hvalid := e.valid
  rw [validAlignment, Bool.and_eq_true, bne_iff_ne] at hvalid
  omega

/-- The collection, the slot of the item and the type of the elements. -/
structure Loop where
  collectionLocation : ℕ
  scope : ℕ
  itemSlot : ℕ
  element : Element
  deriving DecidableEq

/-- The children of a `<prompt>` or a `<foreach>`, in document order. -/
inductive Nodes
  | nil
  | leaf (item : Item) (rest : Nodes)
  | foreach (loop : Loop) (body rest : Nodes)
  deriving DecidableEq

/-! ## Rows -/

/-- `vxml_cmeta_prompt_media_segment_kind`. -/
inductive Kind
  | text | ssml | audio | mark
  deriving DecidableEq

/-- `vxml_cmeta_prompt_media_segment_v1`. The payload of a dynamic mark is empty. -/
structure Segment where
  kind : Kind
  payload : Text
  mediaType : Text
  deriving DecidableEq

/-- `vxml_cmeta_prompt_media_fallback_v1`. -/
structure Fallback where
  audioSegmentIndex : ℕ
  firstFallbackSegment : ℕ
  fallbackSegmentCount : ℕ
  deriving DecidableEq

/-- `vxml_cmeta_prompt_mark_expr_row`. -/
structure MarkExprRow where
  segmentIndex : ℕ
  expression : ℕ
  deriving DecidableEq

/-- `vxml_cmeta_prompt_foreach_row`; no parent is `VXML_CMETA_NO_INDEX`. -/
structure ForeachRow extends Loop where
  prompt : ℕ
  parentForeach : Option ℕ
  depth : ℕ
  firstSegment : ℕ
  segmentCount : ℕ
  firstFallback : ℕ
  fallbackCount : ℕ
  dynamicMarkCount : ℕ
  deriving DecidableEq

/-- `vxml_cmeta_prompt_row`, as far as the projection uses it. -/
structure PromptRow where
  firstSegment : ℕ
  segmentCount : ℕ
  firstFallback : ℕ
  fallbackCount : ℕ
  dynamicMarkCount : ℕ
  firstForeach : ℕ
  foreachCount : ℕ
  deriving DecidableEq

/-- The bounds of `vxml_cmeta_compile_options_v1` on prompts with `<foreach>`. -/
structure Options where
  maxDynamicMarkNameBytes : ℕ
  maxPromptForeachItems : ℕ
  maxPromptForeachSnapshotBytes : ℕ
  maxPromptExpandedSegments : ℕ
  maxPromptForeachDepth : ℕ

/-- The tables that the compiler fills, one row after another. -/
structure Tables where
  segments : List Segment
  fallbacks : List Fallback
  markExprs : List MarkExprRow
  foreach : List ForeachRow
  deriving DecidableEq

structure Program extends Tables where
  prompts : List PromptRow
  options : Options

def textSegment (text : Payload) : Segment := ⟨.text, text.1, []⟩

def ssmlSegment (serialized : Payload) : Segment :=
  ⟨.ssml, serialized.1, "application/ssml+xml".toList⟩

def Piece.segment : Piece → Option Segment
  | .ignored => none
  | .text t => some (textSegment t)
  | .ssml s => some (ssmlSegment s)

def Item.segments : Item → List Segment
  | .ignored => []
  | .text t => [textSegment t]
  | .audio src fallback => ⟨.audio, src, []⟩ :: fallback.filterMap Piece.segment
  | .ssml s => [ssmlSegment s]
  | .mark name => [⟨.mark, name, []⟩]
  | .markExpr _ => [⟨.mark, [], []⟩]

/-! ## Compilation -/

def Tables.push (t : Tables) (segment : Segment) : Tables :=
  { t with segments := t.segments ++ [segment] }

/-- The children of an `<audio>` become segments. -/
def compileFallback (t : Tables) : List Piece → Tables
  | [] => t
  | piece :: rest =>
    match piece with
    | .ignored => compileFallback t rest
    | .text text => compileFallback (t.push (textSegment text)) rest
    | .ssml serialized => compileFallback (t.push (ssmlSegment serialized)) rest

/-- A child other than a `<foreach>`. -/
def compileItem (first : ℕ) (t : Tables) : Item → Except Status Tables
  | .ignored => .ok t
  | .text text => .ok (t.push (textSegment text))
  | .audio src fallback =>
    if src = [] then .error .invalidStructure
    else
      let audio := t.push ⟨.audio, src, []⟩
      let after := compileFallback audio fallback
      let count := after.segments.length - audio.segments.length
      .ok (if count = 0 then after
        else { after with
          fallbacks := after.fallbacks ++
            [⟨t.segments.length - first, audio.segments.length - first, count⟩] })
  | .ssml serialized => .ok (t.push (ssmlSegment serialized))
  | .mark name =>
    if name = [] then .error .invalidStructure else .ok (t.push ⟨.mark, name, []⟩)
  | .markExpr expression =>
    .ok { t with
      segments := t.segments ++ [⟨.mark, [], []⟩]
      markExprs := t.markExprs ++ [⟨t.segments.length, expression⟩] }

def Tables.pushRow (t : Tables) (row : ForeachRow) : Tables :=
  { t with foreach := t.foreach ++ [row] }

/-- `cmeta_register_prompt_foreach`. -/
def registerPromptForeach (prompt : ℕ) (parent : Option ℕ) (depth : ℕ) (loop : Loop)
    (t : Tables) : ForeachRow :=
  { loop with
    prompt := prompt, parentForeach := parent, depth := depth,
    firstSegment := t.segments.length, segmentCount := 0,
    firstFallback := t.fallbacks.length, fallbackCount := 0, dynamicMarkCount := 0 }

def ForeachRow.count (row : ForeachRow) (t t' : Tables) : ForeachRow :=
  { row with
    segmentCount := t'.segments.length - t.segments.length
    fallbackCount := t'.fallbacks.length - t.fallbacks.length
    dynamicMarkCount := t'.markExprs.length - t.markExprs.length }

def compileChildren (prompt : ℕ) (parent : Option ℕ) (depth first : ℕ) :
    Nodes → Tables → Except Status Tables
  | .nil, t => .ok t
  | .leaf item rest, t => do
    let t' ← compileItem first t item
    compileChildren prompt parent depth first rest t'
  | .foreach loop body rest, t => do
    let row := registerPromptForeach prompt parent (depth + 1) loop t
    let t' ← compileChildren prompt (some t.foreach.length) (depth + 1) t.segments.length body
      (t.pushRow row)
    if (row.count t t').segmentCount = 0 then .error .invalidStructure
    else
      compileChildren prompt parent depth first rest
        { t' with foreach := t'.foreach.set t.foreach.length (row.count t t') }

def compilePrompt (prompt : ℕ) (nodes : Nodes) (t : Tables) :
    Except Status (Tables × PromptRow) := do
  let t' ← compileChildren prompt none 0 t.segments.length nodes t
  if t'.segments.length = t.segments.length then .error .invalidStructure
  else
    .ok (t',
      { firstSegment := t.segments.length
        segmentCount := t'.segments.length - t.segments.length
        firstFallback := t.fallbacks.length
        fallbackCount := t'.fallbacks.length - t.fallbacks.length
        dynamicMarkCount := t'.markExprs.length - t.markExprs.length
        firstForeach := t.foreach.length
        foreachCount := t'.foreach.length - t.foreach.length })

def compilePrompts : ℕ → List Nodes → Tables → Except Status (Tables × List PromptRow)
  | _, [], t => .ok (t, [])
  | prompt, nodes :: rest, t => do
    let (t', row) ← compilePrompt prompt nodes t
    let (t'', rows) ← compilePrompts (prompt + 1) rest t'
    .ok (t'', row :: rows)

/-! ## Measurement -/

def Nodes.segments : Nodes → List Segment
  | .nil => []
  | .leaf item rest => item.segments ++ rest.segments
  | .foreach _ body rest => body.segments ++ rest.segments

def Nodes.hasForeach : Nodes → Bool
  | .nil => false
  | .leaf _ rest => rest.hasForeach
  | .foreach _ _ _ => true

def Item.dynamicMark : Item → Bool
  | .markExpr _ => true
  | _ => false

/-- The first pass: the most segments of an expansion. -/
def Nodes.measure (o : Options) (depth : ℕ) : Nodes → Except Status ℕ
  | .nil => .ok 0
  | .leaf item rest => do
    if item.dynamicMark ∧ o.maxDynamicMarkNameBytes = 0 then .error .invalidContract
    else
      let n ← rest.measure o depth
      .ok (item.segments.length + n)
  | .foreach _ body rest => do
    if 1 < depth + 1 ∧ o.maxPromptForeachDepth = 0 then .error .invalidContract
    else if 1 < depth + 1 ∧ o.maxPromptForeachDepth < depth + 1 then .error .limitExceeded
    else if o.maxPromptForeachItems = 0 ∨ o.maxPromptForeachSnapshotBytes = 0 ∨
        o.maxPromptExpandedSegments = 0 then .error .invalidContract
    else
      let n ← body.measure o (depth + 1)
      if body.segments = [] then .error .invalidStructure
      else if o.maxPromptExpandedSegments < n * o.maxPromptForeachItems then .error .limitExceeded
      else
        let m ← rest.measure o depth
        .ok (n * o.maxPromptForeachItems + m)

/-- The first pass over a `<prompt>`. -/
def measurePrompt (o : Options) (nodes : Nodes) : Except Status Unit := do
  let n ← nodes.measure o 0
  if nodes.segments = [] then .error .invalidStructure
  else if nodes.hasForeach ∧ o.maxPromptExpandedSegments < n then .error .limitExceeded
  else .ok ()

def compile (o : Options) (trees : List Nodes) : Except Status Program := do
  forM trees (measurePrompt o)
  let (t, prompts) ← compilePrompts 0 trees ⟨[], [], [], []⟩
  .ok { t with prompts := prompts, options := o }

/-! ## The rows of a tree -/

def Item.fallbackCount : Item → ℕ
  | .audio _ fallback => (fallback.filterMap Piece.segment).length
  | _ => 0

def Item.fallbacks (i : ℕ) (item : Item) : List Fallback :=
  if item.fallbackCount = 0 then [] else [⟨i, i + 1, item.fallbackCount⟩]

def Item.marks (segment : ℕ) : Item → List MarkExprRow
  | .markExpr expression => [⟨segment, expression⟩]
  | _ => []

def Nodes.length (nodes : Nodes) : ℕ := nodes.segments.length

def Nodes.fallbacks (i : ℕ) : Nodes → List Fallback
  | .nil => []
  | .leaf item rest => item.fallbacks i ++ rest.fallbacks (i + item.segments.length)
  | .foreach _ body rest => body.fallbacks 0 ++ rest.fallbacks (i + body.length)

def Nodes.marks (segment : ℕ) : Nodes → List MarkExprRow
  | .nil => []
  | .leaf item rest => item.marks segment ++ rest.marks (segment + item.segments.length)
  | .foreach _ body rest => body.marks segment ++ rest.marks (segment + body.length)

def Nodes.foreachCount : Nodes → ℕ
  | .nil => 0
  | .leaf _ rest => rest.foreachCount
  | .foreach _ body rest => 1 + body.foreachCount + rest.foreachCount

def Nodes.fallbackCount : Nodes → ℕ
  | .nil => 0
  | .leaf item rest => (item.fallbacks 0).length + rest.fallbackCount
  | .foreach _ body rest => body.fallbackCount + rest.fallbackCount

structure Position where
  segment : ℕ
  fallback : ℕ
  foreach : ℕ
  deriving DecidableEq

def Position.afterItem (p : Position) (item : Item) : Position :=
  ⟨p.segment + item.segments.length, p.fallback + (item.fallbacks 0).length, p.foreach⟩

def Position.inLoop (p : Position) : Position := { p with foreach := p.foreach + 1 }

def Position.afterNodes (p : Position) (nodes : Nodes) : Position :=
  ⟨p.segment + nodes.length, p.fallback + nodes.fallbackCount, p.foreach + nodes.foreachCount⟩

def loopRow (prompt : ℕ) (parent : Option ℕ) (depth : ℕ) (p : Position) (loop : Loop)
    (body : Nodes) : ForeachRow :=
  { loop with
    prompt := prompt, parentForeach := parent, depth := depth + 1,
    firstSegment := p.segment, segmentCount := body.length,
    firstFallback := p.fallback, fallbackCount := body.fallbackCount
    dynamicMarkCount := (body.marks p.segment).length }

def Nodes.rows (prompt : ℕ) : Option ℕ → ℕ → Position → Nodes → List ForeachRow
  | _, _, _, .nil => []
  | parent, depth, p, .leaf item rest => rest.rows prompt parent depth (p.afterItem item)
  | parent, depth, p, .foreach loop body rest =>
    loopRow prompt parent depth p loop body ::
      (body.rows prompt (some p.foreach) (depth + 1) p.inLoop ++
        rest.rows prompt parent depth (p.inLoop.afterNodes body))

variable {prompt : ℕ} {parent : Option ℕ} {depth first : ℕ}

@[simp]
theorem Nodes.length_nil : Nodes.nil.length = 0 := rfl

@[simp]
theorem Nodes.length_leaf (item : Item) (rest : Nodes) :
    (Nodes.leaf item rest).length = item.segments.length + rest.length :=
  List.length_append

@[simp]
theorem Nodes.length_foreach (loop : Loop) (body rest : Nodes) :
    (Nodes.foreach loop body rest).length = body.length + rest.length :=
  List.length_append

theorem Item.length_fallbacks (item : Item) (i j : ℕ) :
    (item.fallbacks i).length = (item.fallbacks j).length := by
  rw [Item.fallbacks, Item.fallbacks]
  split <;> rfl

theorem Nodes.length_fallbacks (nodes : Nodes) (i : ℕ) :
    (nodes.fallbacks i).length = nodes.fallbackCount := by
  induction nodes generalizing i with
  | nil => rfl
  | leaf item rest ih =>
    rw [Nodes.fallbacks, List.length_append, ih, item.length_fallbacks i 0, Nodes.fallbackCount]
  | foreach loop body rest ihbody ihrest =>
    rw [Nodes.fallbacks, List.length_append, ihbody, ihrest, Nodes.fallbackCount]

theorem Nodes.length_rows (nodes : Nodes) (parent : Option ℕ) (depth : ℕ) (p : Position) :
    (nodes.rows prompt parent depth p).length = nodes.foreachCount := by
  induction nodes generalizing parent depth p with
  | nil => rfl
  | leaf item rest ih => exact ih _ _ _
  | foreach loop body rest ihbody ihrest =>
    rw [Nodes.rows, List.length_cons, List.length_append, ihbody, ihrest, Nodes.foreachCount]
    omega

/-! ## What the second pass gives -/

def Tables.position (t : Tables) : Position :=
  ⟨t.segments.length, t.fallbacks.length, t.foreach.length⟩

def Tables.add (t : Tables) (segments : List Segment) (fallbacks : List Fallback)
    (markExprs : List MarkExprRow) (foreach : List ForeachRow) : Tables where
  segments := t.segments ++ segments
  fallbacks := t.fallbacks ++ fallbacks
  markExprs := t.markExprs ++ markExprs
  foreach := t.foreach ++ foreach

theorem compileFallback_eq (t : Tables) (pieces : List Piece) :
    compileFallback t pieces =
      { t with segments := t.segments ++ pieces.filterMap Piece.segment } := by
  induction pieces generalizing t with
  | nil => simp [compileFallback]
  | cons piece rest ih =>
    cases piece with
    | ignored =>
      rw [compileFallback, ih, List.filterMap_cons]
      rfl
    | text s =>
      rw [compileFallback, ih, List.filterMap_cons]
      simp [Tables.push, Piece.segment]
    | ssml s =>
      rw [compileFallback, ih, List.filterMap_cons]
      simp [Tables.push, Piece.segment]

variable {t t' : Tables}

theorem compileItem_eq {item : Item} (hfirst : first ≤ t.segments.length)
    (h : compileItem first t item = .ok t') :
    t' = t.add item.segments (item.fallbacks (t.segments.length - first))
      (item.marks t.segments.length) [] := by
  cases item with
  | ignored =>
    cases h
    simp [Tables.add, Item.segments, Item.fallbacks, Item.fallbackCount, Item.marks]
  | text s =>
    cases h
    simp [Tables.add, Tables.push, Item.segments, Item.fallbacks, Item.fallbackCount, Item.marks]
  | ssml s =>
    cases h
    simp [Tables.add, Tables.push, Item.segments, Item.fallbacks, Item.fallbackCount, Item.marks]
  | markExpr e =>
    cases h
    simp [Tables.add, Item.segments, Item.fallbacks, Item.fallbackCount, Item.marks]
  | mark name =>
    rw [compileItem] at h
    split at h
    · cases h
    · cases h
      simp [Tables.add, Tables.push, Item.segments, Item.fallbacks, Item.fallbackCount,
        Item.marks]
  | audio src fallback =>
    rw [compileItem] at h
    split at h
    · cases h
    · cases h
      have hafter : ∀ t : Tables, (compileFallback t fallback).segments.length -
          t.segments.length = (Item.audio src fallback).fallbackCount := by
        intro t
        rw [compileFallback_eq, List.length_append, Nat.add_sub_cancel_left]
        rfl
      rw [hafter, Item.fallbacks, compileFallback_eq]
      by_cases hcount : (Item.audio src fallback).fallbackCount = 0
      · rw [if_pos hcount, if_pos hcount]
        simp [Tables.add, Tables.push, Item.segments, Item.marks]
      · rw [if_neg hcount, if_neg hcount]
        have hnext : t.segments.length + 1 - first = t.segments.length - first + 1 := by omega
        simp [Tables.add, Tables.push, Item.segments, Item.marks, hnext]

variable (t)

theorem Tables.add_add (s s' : List Segment) (f f' : List Fallback)
    (m m' : List MarkExprRow) (r r' : List ForeachRow) :
    (t.add s f m r).add s' f' m' r' = t.add (s ++ s') (f ++ f') (m ++ m') (r ++ r') := by
  simp [Tables.add]

theorem Tables.segments_pushRow (row : ForeachRow) : (t.pushRow row).segments = t.segments := rfl

theorem Tables.position_pushRow (row : ForeachRow) :
    (t.pushRow row).position = t.position.inLoop := by
  simp [Tables.pushRow, Tables.position, Position.inLoop]

theorem Tables.position_addItem (item : Item) (i : ℕ) (m : List MarkExprRow) :
    (t.add item.segments (item.fallbacks i) m []).position = t.position.afterItem item := by
  simp [Tables.add, Tables.position, Position.afterItem, item.length_fallbacks i 0]

theorem count_registerPromptForeach (loop : Loop) (body : Nodes)
    (row : ForeachRow) (rows : List ForeachRow) :
    (registerPromptForeach prompt parent (depth + 1) loop t).count t
        ((t.pushRow row).add body.segments (body.fallbacks 0) (body.marks t.segments.length)
          rows) =
      loopRow prompt parent depth t.position loop body := by
  simp [ForeachRow.count, registerPromptForeach, Tables.pushRow, Tables.add, loopRow,
    Tables.position, Nodes.length, Nodes.length_fallbacks]

theorem set_loopRow (row row' : ForeachRow) (s : List Segment) (f : List Fallback)
    (m : List MarkExprRow) (rows : List ForeachRow) :
    { (t.pushRow row).add s f m rows with
        foreach := ((t.pushRow row).add s f m rows).foreach.set t.foreach.length row' } =
      t.add s f m (row' :: rows) := by
  simp [Tables.pushRow, Tables.add]

theorem Tables.position_addLoop (body : Nodes) (row : ForeachRow) (i : ℕ)
    (m : List MarkExprRow) (parent : Option ℕ) (depth : ℕ) (p : Position) :
    (t.add body.segments (body.fallbacks i) m
        (row :: body.rows prompt parent depth p)).position =
      t.position.inLoop.afterNodes body := by
  simp [Tables.add, Tables.position, Position.inLoop, Position.afterNodes, Nodes.length,
    Nodes.length_fallbacks, Nodes.length_rows]
  omega

variable {t} {nodes : Nodes}

theorem compileChildren_eq (hfirst : first ≤ t.segments.length)
    (h : compileChildren prompt parent depth first nodes t = .ok t') :
    t' = t.add nodes.segments (nodes.fallbacks (t.segments.length - first))
      (nodes.marks t.segments.length) (nodes.rows prompt parent depth t.position) := by
  induction nodes generalizing parent depth first t t' with
  | nil =>
    cases h
    simp [Tables.add, Nodes.segments, Nodes.fallbacks, Nodes.marks, Nodes.rows]
  | leaf item rest ih =>
    rw [compileChildren, bind_eq_ok] at h
    obtain ⟨mid, hitem, hrest⟩ := h
    have hmid := compileItem_eq hfirst hitem
    subst hmid
    have hlength : (t.segments ++ item.segments).length =
        t.segments.length + item.segments.length := List.length_append
    have heq := ih (by rw [Tables.add, hlength]; omega) hrest
    have hindex : t.segments.length + item.segments.length - first =
        t.segments.length - first + item.segments.length := by omega
    rw [heq, Tables.position_addItem, Tables.add_add, List.nil_append]
    simp only [Tables.add, hlength, hindex, Nodes.segments, Nodes.fallbacks, Nodes.marks,
      Nodes.rows]
  | foreach loop body rest ihbody ihrest =>
    rw [compileChildren, bind_eq_ok] at h
    obtain ⟨mid, hbody, hrest⟩ := h
    have hmid := ihbody (t := t.pushRow (registerPromptForeach prompt parent (depth + 1) loop t))
      (Nat.le_refl _) hbody
    rw [Tables.position_pushRow, Tables.segments_pushRow, Nat.sub_self] at hmid
    subst hmid
    split at hrest
    · cases hrest
    · rw [set_loopRow] at hrest
      rw [count_registerPromptForeach] at hrest
      have hlength : (t.segments ++ body.segments).length = t.segments.length + body.length :=
        List.length_append
      have heq := ihrest (by rw [Tables.add, hlength]; omega) hrest
      have hindex : t.segments.length + body.length - first =
          t.segments.length - first + body.length := by omega
      rw [heq, Tables.add_add]
      rw [Tables.position_addLoop]
      simp only [Tables.add, hlength, hindex, Nodes.segments, Nodes.fallbacks, Nodes.marks,
        Nodes.rows, List.cons_append]
      rfl

/-! ## Accepted trees -/

/-- A child without an empty source or name. -/
def Item.Proper : Item → Prop
  | .audio src _ => src ≠ []
  | .mark name => name ≠ []
  | _ => True

def Nodes.Proper : Nodes → Prop
  | .nil => True
  | .leaf item rest => item.Proper ∧ rest.Proper
  | .foreach _ body rest => body.length ≠ 0 ∧ body.Proper ∧ rest.Proper

def Nodes.Bounded (o : Options) : ℕ → Nodes → Prop
  | _, .nil => True
  | depth, .leaf item rest =>
    (item.dynamicMark = true → o.maxDynamicMarkNameBytes ≠ 0) ∧ rest.Bounded o depth
  | depth, .foreach _ body rest =>
    (0 < depth → o.maxPromptForeachDepth ≠ 0 ∧ depth + 1 ≤ o.maxPromptForeachDepth) ∧
      body.Bounded o (depth + 1) ∧ rest.Bounded o depth

def Nodes.expandedCount (o : Options) : Nodes → ℕ
  | .nil => 0
  | .leaf item rest => item.segments.length + rest.expandedCount o
  | .foreach _ body rest => body.expandedCount o * o.maxPromptForeachItems + rest.expandedCount o

theorem compileItem_proper {item : Item} (h : compileItem first t item = .ok t') : item.Proper := by
  cases item with
  | audio src fallback =>
    rw [compileItem] at h
    split at h
    · cases h
    · assumption
  | mark name =>
    rw [compileItem] at h
    split at h
    · cases h
    · assumption
  | ignored => trivial
  | text s => trivial
  | ssml s => trivial
  | markExpr e => trivial

theorem compileChildren_proper (h : compileChildren prompt parent depth first nodes t = .ok t') :
    nodes.Proper := by
  induction nodes generalizing parent depth first t t' with
  | nil => trivial
  | leaf item rest ih =>
    rw [compileChildren, bind_eq_ok] at h
    obtain ⟨mid, hitem, hrest⟩ := h
    exact ⟨compileItem_proper hitem, ih hrest⟩
  | foreach loop body rest ihbody ihrest =>
    rw [compileChildren, bind_eq_ok] at h
    obtain ⟨mid, hbody, hrest⟩ := h
    have hmid := compileChildren_eq
      (t := t.pushRow (registerPromptForeach prompt parent (depth + 1) loop t))
      (Nat.le_refl _) hbody
    split at hrest
    next hcount => cases hrest
    next hcount =>
      refine ⟨fun hzero => hcount ?_, ihbody hbody, ihrest hrest⟩
      have hnil : body.segments = [] := List.eq_nil_of_length_eq_zero hzero
      simp [hmid, Tables.add, hnil, ForeachRow.count, Tables.segments_pushRow]

variable {o : Options}

theorem measure_eq_ok {depth n : ℕ} (h : nodes.measure o depth = .ok n) :
    nodes.Bounded o depth ∧ n = nodes.expandedCount o := by
  induction nodes generalizing depth n with
  | nil =>
    cases h
    exact ⟨trivial, rfl⟩
  | leaf item rest ih =>
    rw [Nodes.measure] at h
    split at h
    next => cases h
    next hmark =>
      rw [bind_eq_ok] at h
      obtain ⟨m, hm, hsum⟩ := h
      cases hsum
      obtain ⟨hbounded, rfl⟩ := ih hm
      exact ⟨⟨fun hdynamic hzero => hmark ⟨hdynamic, hzero⟩, hbounded⟩, rfl⟩
  | foreach loop body rest ihbody ihrest =>
    rw [Nodes.measure] at h
    split at h
    next => cases h
    next hzero =>
      split at h
      next => cases h
      next hdeep =>
        split at h
        next => cases h
        next =>
          rw [bind_eq_ok] at h
          obtain ⟨m, hm, hrest⟩ := h
          split at hrest
          next => cases hrest
          next =>
            split at hrest
            next => cases hrest
            next =>
              rw [bind_eq_ok] at hrest
              obtain ⟨k, hk, hsum⟩ := hrest
              cases hsum
              obtain ⟨hbody, rfl⟩ := ihbody hm
              obtain ⟨hrest, rfl⟩ := ihrest hk
              refine ⟨⟨fun hdepth => ⟨fun hnone => hzero ⟨by omega, hnone⟩, ?_⟩, hbody, hrest⟩, rfl⟩
              exact Nat.le_of_not_lt fun hlt => hdeep ⟨by omega, hlt⟩

theorem measurePrompt_eq_ok (h : measurePrompt o nodes = .ok ()) :
    nodes.Bounded o 0 ∧
      (nodes.hasForeach = true → nodes.expandedCount o ≤ o.maxPromptExpandedSegments) := by
  rw [measurePrompt, bind_eq_ok] at h
  obtain ⟨n, hn, hbounds⟩ := h
  obtain ⟨hbounded, rfl⟩ := measure_eq_ok hn
  split at hbounds
  next => cases hbounds
  next =>
    split at hbounds
    next => cases hbounds
    next hle => exact ⟨hbounded, fun hloop => Nat.le_of_not_lt fun hlt => hle ⟨hloop, hlt⟩⟩

theorem Nodes.mem_marks {segment : ℕ} {m : MarkExprRow} (h : m ∈ nodes.marks segment) :
    segment ≤ m.segmentIndex ∧ m.segmentIndex < segment + nodes.length := by
  induction nodes generalizing segment with
  | nil => cases h
  | leaf item rest ih =>
    rw [Nodes.marks, List.mem_append] at h
    rw [Nodes.length_leaf]
    rcases h with hitem | hrest
    · cases item with
      | markExpr e =>
        rw [Item.marks, List.mem_singleton] at hitem
        have hindex : m.segmentIndex = segment := by rw [hitem]
        rw [Item.segments, List.length_singleton]
        omega
      | _ => cases hitem
    · have hwithin := ih hrest
      omega
  | foreach loop body rest ihbody ihrest =>
    rw [Nodes.marks, List.mem_append] at h
    rw [Nodes.length_foreach]
    rcases h with hbody | hrest
    · have hwithin := ihbody hbody
      omega
    · have hwithin := ihrest hrest
      omega

/-! ## Compiled prompts -/

def promptRow (p : Position) (nodes : Nodes) : PromptRow where
  firstSegment := p.segment
  segmentCount := nodes.length
  firstFallback := p.fallback
  fallbackCount := nodes.fallbackCount
  dynamicMarkCount := (nodes.marks p.segment).length
  firstForeach := p.foreach
  foreachCount := nodes.foreachCount

structure Compiled (T : Tables) (prompt : ℕ) (nodes : Nodes) (before after : Tables) : Prop where
  segments : T.segments = before.segments ++ (nodes.segments ++ after.segments)
  fallbacks : T.fallbacks = before.fallbacks ++ (nodes.fallbacks 0 ++ after.fallbacks)
  markExprs : T.markExprs =
    before.markExprs ++ (nodes.marks before.segments.length ++ after.markExprs)
  foreach : T.foreach =
    before.foreach ++ (nodes.rows prompt none 0 before.position ++ after.foreach)
  proper : nodes.Proper
  marksBefore : ∀ m ∈ before.markExprs, m.segmentIndex < before.segments.length
  marksAfter : ∀ m ∈ after.markExprs, before.segments.length + nodes.length ≤ m.segmentIndex

theorem compilePrompt_eq {row : PromptRow} (h : compilePrompt prompt nodes t = .ok (t', row)) :
    t' = t.add nodes.segments (nodes.fallbacks 0) (nodes.marks t.segments.length)
        (nodes.rows prompt none 0 t.position) ∧
      row = promptRow t.position nodes ∧ nodes.Proper := by
  rw [compilePrompt, bind_eq_ok] at h
  obtain ⟨mid, hchildren, hrow⟩ := h
  have hmid := compileChildren_eq (Nat.le_refl _) hchildren
  have hproper := compileChildren_proper hchildren
  rw [Nat.sub_self] at hmid
  subst hmid
  split at hrow
  · cases hrow
  · cases hrow
    refine ⟨rfl, ?_, hproper⟩
    simp [Tables.add, promptRow, Tables.position, Nodes.length, Nodes.length_fallbacks,
      Nodes.length_rows]

variable {trees : List Nodes} {rows : List PromptRow}

theorem compilePrompts_add (h : compilePrompts prompt trees t = .ok (t', rows)) :
    ∃ more : Tables, t' = t.add more.segments more.fallbacks more.markExprs more.foreach ∧
      ∀ m ∈ more.markExprs, t.segments.length ≤ m.segmentIndex := by
  induction trees generalizing prompt t rows with
  | nil =>
    cases h
    refine ⟨⟨[], [], [], []⟩, by simp [Tables.add], ?_⟩
    intro m hm
    cases hm
  | cons nodes rest ih =>
    rw [compilePrompts, bind_eq_ok] at h
    obtain ⟨⟨mid, row⟩, hprompt, hrest⟩ := h
    obtain ⟨rfl, -, -⟩ := compilePrompt_eq hprompt
    rw [bind_eq_ok] at hrest
    obtain ⟨⟨last, rows'⟩, hlist, hlast⟩ := hrest
    cases hlast
    obtain ⟨more, rfl, hmarks⟩ := ih hlist
    refine ⟨⟨nodes.segments ++ more.segments, nodes.fallbacks 0 ++ more.fallbacks,
      nodes.marks t.segments.length ++ more.markExprs,
      nodes.rows prompt none 0 t.position ++ more.foreach⟩, Tables.add_add .., ?_⟩
    intro m hm
    rcases List.mem_append.mp hm with hnodes | hmore
    · exact (Nodes.mem_marks hnodes).1
    · have hle := hmarks m hmore
      rw [Tables.add, List.length_append] at hle
      omega

theorem compilePrompts_compiled {i : ℕ}
    (h : compilePrompts prompt trees t = .ok (t', rows)) (hnodes : trees[i]? = some nodes)
    (hmarks : ∀ m ∈ t.markExprs, m.segmentIndex < t.segments.length) :
    ∃ before after, Compiled t' (prompt + i) nodes before after ∧
      rows[i]? = some (promptRow before.position nodes) := by
  induction trees generalizing prompt t rows i with
  | nil => cases hnodes
  | cons first rest ih =>
    rw [compilePrompts, bind_eq_ok] at h
    obtain ⟨⟨mid, row⟩, hprompt, hrest⟩ := h
    obtain ⟨rfl, rfl, hproper⟩ := compilePrompt_eq hprompt
    rw [bind_eq_ok] at hrest
    obtain ⟨⟨last, rows'⟩, hlist, hlast⟩ := hrest
    cases hlast
    cases i with
    | zero =>
      cases hnodes
      obtain ⟨more, rfl, hmore⟩ := compilePrompts_add hlist
      refine ⟨t, more, ⟨?_, ?_, ?_, ?_, hproper, hmarks, ?_⟩, rfl⟩
      · exact List.append_assoc ..
      · exact List.append_assoc ..
      · exact List.append_assoc ..
      · exact List.append_assoc ..
      · intro m hm
        have hle := hmore m hm
        rwa [Tables.add, List.length_append] at hle
    | succ i =>
      have hindex : prompt + (i + 1) = prompt + 1 + i := by omega
      rw [hindex]
      refine ih hlist hnodes ?_
      intro m hm
      rw [Tables.add, List.length_append]
      rcases List.mem_append.mp hm with hold | hnew
      · have hlt := hmarks m hold
        omega
      · exact (Nodes.mem_marks hnew).2

theorem compile_compiled {P : Program} {i : ℕ} (h : compile o trees = .ok P)
    (hnodes : trees[i]? = some nodes) :
    P.options = o ∧ measurePrompt o nodes = .ok () ∧ ∃ before after,
      Compiled P.toTables i nodes before after ∧
        P.prompts[i]? = some (promptRow before.position nodes) := by
  rw [compile, bind_eq_ok] at h
  obtain ⟨⟨⟩, hmeasure, hcompile⟩ := h
  rw [bind_eq_ok] at hcompile
  obtain ⟨⟨t, prompts⟩, hprompts, hprogram⟩ := hcompile
  cases hprogram
  obtain ⟨before, after, hcompiled, hrow⟩ := compilePrompts_compiled hprompts hnodes
    (by intro m hm; cases hm)
  rw [Nat.zero_add] at hcompiled
  exact ⟨rfl, eq_ok_of_forM hmeasure (List.mem_of_getElem? hnodes), before, after, hcompiled, hrow⟩

end TurboScxml.Voice.Prompts
