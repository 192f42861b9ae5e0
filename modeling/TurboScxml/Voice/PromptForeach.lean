import TurboScxml.Voice.PromptFallbacks

/-!
# Projected prompts are their expansions

* `ProjectsExactly`: the projection gives the segments and the fallback rows of the expansion, and
  every snapshot element is constructed and destroyed once, apart from the others;
* `projectForeach_exact_iff`: it does exactly when no audio that is copied clashes with a row of an
  inner loop;
* `not_projectsExactly`: two nested loops with such a clash.
-/

namespace TurboScxml.Voice.Prompts

open Lifetimes

variable {σ V : Type} {P : Program} {row : PromptRow} {prompt : ℕ} {parent : Option ℕ}
  {depth : ℕ} {p : Position} {nodes : Nodes} {before after : Tables}

/-! ## Dynamic marks -/

theorem Nodes.pairwise_marks (nodes : Nodes) (segment : ℕ) :
    (nodes.marks segment).Pairwise fun m n => m.segmentIndex < n.segmentIndex := by
  induction nodes generalizing segment with
  | nil => exact .nil
  | leaf item rest ih =>
    have hitem : ∀ m ∈ item.marks segment,
        m.segmentIndex < segment + item.segments.length := by
      intro m hm
      have hmark : m ∈ (Nodes.leaf item .nil).marks segment := List.mem_append_left _ hm
      have hwithin := (Nodes.mem_marks hmark).2
      rwa [Nodes.length_leaf, Nodes.length_nil, Nat.add_zero] at hwithin
    refine List.pairwise_append.mpr ⟨?_, ih _, fun m hm n hn => ?_⟩
    · cases item with
      | markExpr e => exact List.pairwise_singleton _ _
      | _ => exact .nil
    · exact Nat.lt_of_lt_of_le (hitem m hm) (Nodes.mem_marks hn).1
  | foreach loop body rest ihbody ihrest =>
    refine List.pairwise_append.mpr ⟨ihbody _, ihrest _, fun m hm n hn => ?_⟩
    exact Nat.lt_of_lt_of_le (Nodes.mem_marks hm).2 (Nodes.mem_marks hn).1

variable {matched : ℕ} {l l' : List MarkExprRow}

theorem markRowFrom_append {absolute : ℕ} (h : ∀ m ∈ l, m.segmentIndex < row.firstSegment) :
    markRowFrom row absolute matched (l ++ l') = markRowFrom row absolute matched l' := by
  induction l with
  | nil => rfl
  | cons m l ih =>
    rw [List.cons_append, markRowFrom, if_pos (h m List.mem_cons_self)]
    exact ih fun n hn => h n (List.mem_cons_of_mem _ hn)

variable {m : MarkExprRow}

theorem markRowFrom_eq (hsorted : l.Pairwise fun m n => m.segmentIndex < n.segmentIndex)
    (hwithin : ∀ m ∈ l, row.firstSegment ≤ m.segmentIndex ∧
      m.segmentIndex < row.firstSegment + row.segmentCount)
    (hcount : matched + l.length ≤ row.dynamicMarkCount) (hm : m ∈ l) :
    markRowFrom row m.segmentIndex matched (l ++ l') = some m := by
  induction l generalizing matched with
  | nil => cases hm
  | cons n l ih =>
    obtain ⟨hlo, hhi⟩ := hwithin n List.mem_cons_self
    rw [List.pairwise_cons] at hsorted
    rw [List.cons_append, markRowFrom, if_neg (by omega), if_neg (by omega)]
    rcases List.mem_cons.mp hm with rfl | hmem
    · rw [if_pos rfl]
    · have hlt := hsorted.1 m hmem
      have hpos := List.length_pos_of_mem hmem
      rw [List.length_cons] at hcount
      rw [if_neg (by omega), if_neg (by omega)]
      exact ih hsorted.2 (fun k hk => hwithin k (List.mem_cons_of_mem _ hk)) (by omega) hmem

theorem Compiled.dynamicMarkRow_eq (h : Compiled P.toTables prompt nodes before after)
    (hm : m ∈ nodes.marks before.segments.length) :
    dynamicMarkRow P (promptRow before.position nodes) m.segmentIndex = some m := by
  have hcount : (promptRow before.position nodes).dynamicMarkCount =
      (nodes.marks before.segments.length).length := rfl
  have hpos := List.length_pos_of_mem hm
  rw [dynamicMarkRow, if_neg (by omega), h.markExprs, markRowFrom_append h.marksBefore]
  refine markRowFrom_eq (nodes.pairwise_marks _) (fun n hn => Nodes.mem_marks hn) ?_ hm
  rw [Nat.zero_add]
  exact Nat.le_refl _

/-! ## The tables of a prompt -/

theorem Compiled.foreachRows_eq (h : Compiled P.toTables prompt nodes before after) :
    P.foreachRows (promptRow before.position nodes) =
      (nodes.rows prompt none 0 before.position).zipIdx before.position.foreach := by
  have hlength : (nodes.rows prompt none 0 before.position).length = nodes.foreachCount :=
    nodes.length_rows ..
  rw [Program.foreachRows, h.foreach]
  have hfirst : (promptRow before.position nodes).firstForeach = before.foreach.length := rfl
  have hcount : (promptRow before.position nodes).foreachCount =
      (nodes.rows prompt none 0 before.position).length := hlength.symm
  rw [hfirst, hcount, List.drop_left, List.take_left]
  rfl

theorem getElem?_between {α : Type} {l m r : List α} {j : ℕ} (h : j < m.length) :
    (l ++ (m ++ r))[l.length + j]? = m[j]? := by
  rw [List.getElem?_append_right (Nat.le_add_right _ _), Nat.add_sub_cancel_left,
    List.getElem?_append_left h]

theorem Compiled.located (h : Compiled P.toTables prompt nodes before after) :
    Located P (promptRow before.position nodes) prompt nodes none 0 before.position where
  rows := by
    refine ⟨[], [], ?_, ?_, ?_⟩
    · rw [h.foreachRows_eq, List.nil_append, List.append_nil]
    · intro r hr
      cases hr
    · intro r hr
      cases hr
  parent_lt := by
    intro i hi
    cases hi
  segments := by
    intro j hj
    rw [h.segments]
    exact getElem?_between hj
  marks := fun m hm => h.dynamicMarkRow_eq hm

theorem Compiled.tabled (h : Compiled P.toTables prompt nodes before after) :
    Tabled P (promptRow before.position nodes) prompt nodes before.position where
  row_eq := rfl
  foreachRows := h.foreachRows_eq
  fallbacks := by
    intro j hj
    rw [h.fallbacks]
    exact getElem?_between (by rw [Nodes.length_fallbacks]; exact hj)

/-! ## Valid rows -/

/-- The rows of a part lie in a prompt, and their parent is a row of the tables that holds them. -/
structure Nested (P : Program) (row : PromptRow) (prompt : ℕ) (nodes : Nodes)
    (parent : Option ℕ) (depth : ℕ) (p : Position) : Prop where
  foreach : ∀ j, j < nodes.foreachCount →
    P.foreach[p.foreach + j]? = (nodes.rows prompt parent depth p)[j]?
  segment : row.firstSegment ≤ p.segment ∧
    p.segment + nodes.length ≤ row.firstSegment + row.segmentCount
  first : row.firstForeach ≤ p.foreach
  top : parent = none → depth = 0
  inner : ∀ i, parent = some i → i < p.foreach ∧ row.firstForeach ≤ i ∧
    ∃ q, P.foreach[i]? = some q ∧ q.prompt = prompt ∧ q.segmentCount ≠ 0 ∧ depth = q.depth ∧
      q.firstSegment ≤ p.segment ∧ p.segment + nodes.length ≤ q.firstSegment + q.segmentCount

variable {rest : Nodes}

theorem Nested.afterItem {item : Item} (h : Nested P row prompt (.leaf item rest) parent depth p) :
    Nested P row prompt rest parent depth (p.afterItem item) where
  foreach := h.foreach
  segment := by
    have hsegment := h.segment
    rw [Nodes.length_leaf] at hsegment
    simp only [Position.afterItem]
    omega
  first := h.first
  top := h.top
  inner := by
    intro i hi
    obtain ⟨hlt, hfirst, q, hq, hprompt, hcount, hdepth, hlo, hhi⟩ := h.inner i hi
    rw [Nodes.length_leaf] at hhi
    refine ⟨hlt, hfirst, q, hq, hprompt, hcount, hdepth, ?_, ?_⟩
    · simp only [Position.afterItem]
      omega
    · simp only [Position.afterItem]
      omega

variable {loop : Loop}

theorem Nested.body {body : Nodes} (hbody : body.length ≠ 0)
    (h : Nested P row prompt (.foreach loop body rest) parent depth p) :
    Nested P row prompt body (some p.foreach) (depth + 1) p.inLoop where
  foreach := by
    intro j hj
    have hrow := h.foreach (j + 1) (by rw [Nodes.foreachCount]; omega)
    rw [Nodes.rows, List.getElem?_cons_succ,
      List.getElem?_append_left (by rw [Nodes.length_rows]; exact hj)] at hrow
    rw [← hrow]
    simp only [Position.inLoop]
    congr 1
    omega
  segment := by
    have hsegment := h.segment
    rw [Nodes.length_foreach] at hsegment
    simp only [Position.inLoop]
    omega
  first := by
    have hfirst := h.first
    simp only [Position.inLoop]
    omega
  top := by
    intro hnone
    cases hnone
  inner := by
    intro i hi
    cases hi
    have hrow := h.foreach 0 (by rw [Nodes.foreachCount]; omega)
    exact ⟨Nat.lt_succ_self _, h.first, _, hrow, rfl, hbody, rfl, Nat.le_refl _, Nat.le_refl _⟩

theorem Nested.afterLoop {body : Nodes}
    (h : Nested P row prompt (.foreach loop body rest) parent depth p) :
    Nested P row prompt rest parent depth (p.inLoop.afterNodes body) where
  foreach := by
    intro j hj
    have hlength : (body.rows prompt (some p.foreach) (depth + 1) p.inLoop).length =
        body.foreachCount := body.length_rows ..
    have hrow := h.foreach (1 + body.foreachCount + j) (by rw [Nodes.foreachCount]; omega)
    have hindex : 1 + body.foreachCount + j = body.foreachCount + j + 1 := by omega
    rw [hindex, Nodes.rows, List.getElem?_cons_succ, List.getElem?_append_right (by omega),
      hlength, Nat.add_sub_cancel_left] at hrow
    rw [← hrow]
    simp only [Position.inLoop, Position.afterNodes]
    congr 1
    omega
  segment := by
    have hsegment := h.segment
    rw [Nodes.length_foreach] at hsegment
    simp only [Position.inLoop, Position.afterNodes]
    omega
  first := by
    have hfirst := h.first
    simp only [Position.inLoop, Position.afterNodes]
    omega
  top := h.top
  inner := by
    intro i hi
    obtain ⟨hlt, hfirst, q, hq, hprompt, hcount, hdepth, hlo, hhi⟩ := h.inner i hi
    rw [Nodes.length_foreach] at hhi
    refine ⟨?_, hfirst, q, hq, hprompt, hcount, hdepth, ?_, ?_⟩
    · simp only [Position.inLoop, Position.afterNodes]
      omega
    · simp only [Position.inLoop, Position.afterNodes]
      omega
    · simp only [Position.inLoop, Position.afterNodes]
      omega

theorem Nested.foreachRowValid {body : Nodes} (hbody : body.length ≠ 0)
    (hdeep : 0 < depth → P.options.maxPromptForeachDepth ≠ 0 ∧
      depth + 1 ≤ P.options.maxPromptForeachDepth)
    (h : Nested P row prompt (.foreach loop body rest) parent depth p) :
    foreachRowValid P prompt row (loopRow prompt parent depth p loop body) p.foreach = true := by
  have hsegment := h.segment
  rw [Nodes.length_foreach] at hsegment
  have hprompt : foreachRowInPrompt P prompt row (loopRow prompt parent depth p loop body) =
      true := by
    refine decide_eq_true ⟨rfl, Nat.succ_ne_zero _, hbody, hsegment.1, ?_, ?_, ?_⟩
    · change p.segment < row.firstSegment + row.segmentCount
      omega
    · change body.length ≤ row.firstSegment + row.segmentCount - p.segment
      omega
    · rintro ⟨hinner, hbound⟩
      have hpos : 0 < depth := Nat.lt_of_succ_lt_succ hinner
      obtain ⟨hne, hle⟩ := hdeep hpos
      have hlt : P.options.maxPromptForeachDepth < depth + 1 := hbound.resolve_left hne
      omega
  rw [Prompts.foreachRowValid, hprompt, Bool.true_and]
  cases parent with
  | none =>
    have hzero := h.top rfl
    subst hzero
    rfl
  | some i =>
    obtain ⟨hlt, hfirst, q, hq, hqprompt, hcount, hsame, hlo, hhi⟩ := h.inner i rfl
    rw [Nodes.length_foreach] at hhi
    have hparent : foreachRowInParent prompt (loopRow prompt (some i) depth p loop body) q =
        true := by
      refine decide_eq_true ⟨hqprompt, hcount, ?_, hlo, ?_, ?_⟩
      · change depth + 1 = q.depth + 1
        rw [hsame]
      · change p.segment < q.firstSegment + q.segmentCount
        omega
      · change body.length ≤ q.firstSegment + q.segmentCount - p.segment
        omega
    change (decide (row.firstForeach ≤ i ∧ i < p.foreach) &&
      (P.foreach[i]?).any (foreachRowInParent prompt _)) = true
    rw [hq, Option.any_some, hparent, Bool.and_true]
    exact decide_eq_true ⟨hfirst, hlt⟩

theorem foreachRowValid_of_nested (h : Nested P row prompt nodes parent depth p)
    (hproper : nodes.Proper) (hbounded : nodes.Bounded P.options depth) {r : ForeachRow × ℕ}
    (hr : r ∈ (nodes.rows prompt parent depth p).zipIdx p.foreach) :
    foreachRowValid P prompt row r.1 r.2 = true := by
  induction nodes generalizing parent depth p with
  | nil => cases hr
  | leaf item rest ih => exact ih h.afterItem hproper.2 hbounded.2 hr
  | foreach loop body rest ihbody ihrest =>
    obtain ⟨hnonempty, hbodyProper, hrestProper⟩ := hproper
    obtain ⟨hdeep, hbodyBounded, hrestBounded⟩ := hbounded
    rw [Nodes.rows, List.zipIdx_cons, List.zipIdx_append, Nodes.length_rows, List.mem_cons,
      List.mem_append] at hr
    rcases hr with rfl | hbody | hrest
    · exact h.foreachRowValid hnonempty hdeep
    · exact ihbody (h.body hnonempty) hbodyProper hbodyBounded hbody
    · exact ihrest h.afterLoop hrestProper hrestBounded hrest

theorem foreachTreeValid_of_compiled (h : Compiled P.toTables prompt nodes before after)
    (hbounded : nodes.Bounded P.options 0) :
    foreachTreeValid P prompt (promptRow before.position nodes) = true := by
  have hnested : Nested P (promptRow before.position nodes) prompt nodes none 0
      before.position := by
    refine ⟨?_, ⟨Nat.le_refl _, Nat.le_refl _⟩, Nat.le_refl _, fun _ => rfl, ?_⟩
    · intro j hj
      rw [h.foreach]
      exact getElem?_between (by rw [Nodes.length_rows]; exact hj)
    · intro i hi
      cases hi
  rw [foreachTreeValid, h.foreachRows_eq, List.all_eq_true]
  exact fun r hr => foreachRowValid_of_nested hnested h.proper hbounded hr

theorem Nodes.foreachCount_ne (h : nodes.hasForeach = true) : nodes.foreachCount ≠ 0 := by
  induction nodes with
  | nil => cases h
  | leaf item rest ih => exact ih h
  | foreach loop body rest ihbody ihrest =>
    rw [Nodes.foreachCount]
    omega

/-! ## The projection -/

def expected (o : Options) (host : Host σ V) (nodes : Nodes) (first : ℕ) (start : Option σ) :
    Except Status (List Segment × List Fallback) :=
  match start with
  | none => .error .allocationFailed
  | some staged =>
    match nodes.expand o host first 0 staged with
    | .error s => .error s
    | .ok (copies, _) => .ok (copies.map Copy.segment, fallbackRows copies)

def Batch.rows (b : Batch) : List Segment × List Fallback := (b.segments, b.fallbacks)

/-- The projection gives its expansion, and every snapshot element lives and dies once. -/
structure ProjectsExactly (P : Program) (host : Host σ V) (prompt : ℕ) (row : PromptRow)
    (nodes : Nodes) (generation : ℕ) (opened : Option σ) (profile : Profile σ) : Prop where
  result : (projectForeach P host prompt generation opened profile).2.1.map Batch.rows =
    (expected P.options host nodes row.firstSegment (profile.transaction.or opened)).mapError
      Halt.status
  lifetimes : Replays (fun _ => none)
    (projectForeach P host prompt generation opened profile).2.2.log fun _ => none

theorem replays_of_sound {s : Storage V} (h : s.Sound 0) (hcells : s.cells = fun _ => none) :
    Replays (fun _ => none) s.log fun _ => none := by
  have hreplays := h.replays
  have hlive : s.live = fun _ => none := by
    funext start
    rw [Storage.live, hcells]
    rfl
  rwa [hlive] at hreplays

theorem projectForeach_begin (host : Host σ V)
    (hcompiled : Compiled P.toTables prompt nodes before after)
    (hrow : P.prompts[prompt]? = some (promptRow before.position nodes))
    (hbounded : nodes.Bounded P.options 0) (hloop : nodes.hasForeach = true) (generation : ℕ)
    (opened : Option σ) (profile : Profile σ) :
    projectForeach P host prompt generation opened profile =
      ((profile.transaction.or opened).map fun staged =>
        projectExpanded P (promptRow before.position nodes) generation
          (expandRange P host (promptRow before.position nodes)
            (expandForeach P host prompt (promptRow before.position nodes)
              (nodes.foreachCount + 1)) none 0 (before.segments.length + nodes.length)
            nodes.length before.segments.length (Run.start staged))).getD
        (profile, .error (.status .allocationFailed), .empty) := by
  have hforeach : (promptRow before.position nodes).foreachCount ≠ 0 := Nodes.foreachCount_ne hloop
  have hforeachRange : before.foreach.length + nodes.foreachCount ≤ P.foreach.length := by
    rw [hcompiled.foreach, List.length_append, List.length_append, Nodes.length_rows]
    omega
  have hsegmentRange : before.segments.length + nodes.length ≤ P.segments.length := by
    rw [hcompiled.segments, List.length_append, List.length_append]
    exact Nat.add_le_add_left (Nat.le_add_right _ _) _
  have haccepted : ¬(P.foreach.length < (promptRow before.position nodes).firstForeach +
        (promptRow before.position nodes).foreachCount ∨
      P.segments.length < (promptRow before.position nodes).firstSegment +
        (promptRow before.position nodes).segmentCount ∨
      foreachTreeValid P prompt (promptRow before.position nodes) = false) := by
    rintro (hshort | hshort | hinvalid)
    · exact Nat.not_lt.mpr hforeachRange hshort
    · exact Nat.not_lt.mpr hsegmentRange hshort
    · rw [foreachTreeValid_of_compiled hcompiled hbounded] at hinvalid
      cases hinvalid
  rw [projectForeach, hrow]
  dsimp only
  rw [if_neg hforeach, if_neg haccepted]
  cases profile.transaction.or opened with
  | none => rfl
  | some staged => rfl

theorem zip_segments_sources (copies : List Copy) :
    (copies.map Copy.segment).zip (copies.map Copy.source) = projected copies := by
  induction copies with
  | nil => rfl
  | cons c rest ih => exact congrArg (List.cons _) ih

theorem projectFallbacks_iff {o : Options} {host : Host σ V} {first : ℕ} {staged staged' : σ}
    {copies : List Copy} {run' : Run σ V}
    (hcompiled : Compiled P.toTables prompt nodes before after)
    (hfirst : before.segments.length = first)
    (hexpand : nodes.expand o host first 0 staged = .ok (copies, staged'))
    (hcopied : Copied P (Run.start staged) copies staged' run')
    (hcapacity : copies.length ≤ P.segmentCapacity) :
    projectFallbacks P (promptRow before.position nodes) run' = .ok (fallbackRows copies) ↔
      Unclashed nodes first copies := by
  have hrange : ¬((promptRow before.position nodes).fallbackCount ≠ 0 ∧
      P.fallbacks.length < (promptRow before.position nodes).firstFallback +
        (promptRow before.position nodes).fallbackCount) := by
    rintro ⟨-, hshort⟩
    have hlt : P.fallbacks.length < before.fallbacks.length + nodes.fallbackCount := hshort
    rw [hcompiled.fallbacks, List.length_append, List.length_append,
      Nodes.length_fallbacks] at hlt
    omega
  have hsegments : run'.segments = copies.map Copy.segment := hcopied.segments
  have hsources : run'.sources = copies.map Copy.source := hcopied.sources
  have hsited := sited_expand first 0 hexpand
  subst hfirst
  rw [projectFallbacks, if_neg hrange, hsegments, hsources, zip_segments_sources,
    List.length_map]
  exact projectFallbacksFrom_iff hcompiled.tabled
    ⟨Nat.zero_add _, hsited.laid, fun c hc haudio => exists_site hexpand hc haudio⟩ hcapacity

/-- **Main.** The projection of a prompt of an accepted document is its expansion, with the fallback
of each copy, exactly when no copied audio clashes with a row of an inner loop. -/
theorem projectForeach_exact_iff {o : Options} {trees : List Nodes}
    (hcompile : compile o trees = .ok P) (hnodes : trees[prompt]? = some nodes)
    (hrow : P.prompts[prompt]? = some row) (hloop : nodes.hasForeach = true) (host : Host σ V)
    (hrestore : ∀ element v, host.restoreZero element (some v) = none) (generation : ℕ)
    (opened : Option σ) (profile : Profile σ) :
    ProjectsExactly P host prompt row nodes generation opened profile ↔
      ∀ staged copies staged', profile.transaction.or opened = some staged →
        nodes.expand o host row.firstSegment 0 staged = .ok (copies, staged') →
        Unclashed nodes row.firstSegment copies := by
  obtain ⟨rfl, hmeasure, before, after, hcompiled, hrow'⟩ := compile_compiled hcompile hnodes
  cases hrow.symm.trans hrow'
  obtain ⟨hbounded, hcount⟩ := measurePrompt_eq_ok hmeasure
  have hbegin := projectForeach_begin host hcompiled hrow hbounded hloop generation opened profile
  cases hstart : profile.transaction.or opened with
  | none =>
    rw [hstart] at hbegin
    refine iff_of_true ⟨?_, ?_⟩ ?_
    · rw [hbegin, hstart]
      rfl
    · rw [hbegin]
      exact .nil _
    · intro staged copies staged' hsome
      cases hsome
  | some staged =>
    rw [hstart] at hbegin
    have hready : Ready P (Run.start staged : Run σ V) 0
        (nodes.expandedCount P.options + 0) := by
      refine ⟨Storage.sound_empty 0, ?_, Nat.zero_le _⟩
      have hle := hcount hloop
      change 0 + (nodes.expandedCount P.options + 0) ≤ P.options.maxPromptExpandedSegments
      omega
    have hfollows : Follows P (Run.start staged) 0
        (nodes.expand P.options host before.segments.length 0 staged)
        (expandRange P host (promptRow before.position nodes)
          (expandForeach P host prompt (promptRow before.position nodes)
            (nodes.foreachCount + 1)) none 0 (before.segments.length + nodes.length)
          nodes.length before.segments.length (Run.start staged)) :=
      expandRange_follows hrestore rfl hcompiled.proper hbounded hcompiled.located
        (Nat.le_succ _) (Nat.le_refl _) (Nat.zero_le _) hready
    rw [Option.map_some, Option.getD_some] at hbegin
    generalize expandRange P host (promptRow before.position nodes) _ none 0
      (before.segments.length + nodes.length) nodes.length before.segments.length
      (Run.start staged) = outcome at hbegin hfollows
    obtain ⟨run', halt⟩ := outcome
    have hlifetimes := replays_of_sound hfollows.sound hfollows.cells
    have hposition : (promptRow before.position nodes).firstSegment = before.segments.length := rfl
    rw [hposition]
    cases hexpand : nodes.expand P.options host before.segments.length 0 staged with
    | error s =>
      have hhalt : halt = some (.status s) := hfollows.halted s hexpand
      subst hhalt
      refine iff_of_true ⟨?_, ?_⟩ ?_
      · rw [hbegin, hstart, hposition, expected, hexpand]
        rfl
      · rw [hbegin]
        exact hlifetimes
      · intro staged' copies staged'' hsome heq
        cases hsome
        rw [hexpand] at heq
        cases heq
    | ok r =>
      obtain ⟨copies, staged'⟩ := r
      obtain ⟨hnone, hcopied⟩ := hfollows.copied copies staged' hexpand
      have hhalt : halt = none := hnone
      subst hhalt
      have hcapacity : copies.length ≤ P.segmentCapacity :=
        Nat.le_trans (Nodes.length_expand hexpand) (hcount hloop)
      have hiff := projectFallbacks_iff hcompiled rfl hexpand hcopied hcapacity
      have hsegments : run'.segments = copies.map Copy.segment := hcopied.segments
      have hunclashed : (∀ s c s', some staged = some s →
          nodes.expand P.options host before.segments.length 0 s = .ok (c, s') →
          Unclashed nodes before.segments.length c) ↔
          Unclashed nodes before.segments.length copies := by
        constructor
        · exact fun h => h staged copies staged' rfl hexpand
        · intro h s c s' hsome heq
          cases hsome
          cases hexpand.symm.trans heq
          exact h
      rw [hunclashed, ← hiff]
      have hexpected : expected P.options host nodes before.segments.length (some staged) =
          .ok (copies.map Copy.segment, fallbackRows copies) := by
        rw [expected, hexpand]
      cases hrows : projectFallbacks P (promptRow before.position nodes) run' with
      | error s =>
        refine iff_of_false (fun hexact => ?_) (fun h => by cases h)
        have hresult := hexact.result
        rw [hbegin, hstart, hposition, hexpected, projectExpanded] at hresult
        rw [hrows] at hresult
        cases hresult
      | ok rows =>
        constructor
        · intro hexact
          have hresult := hexact.result
          rw [hbegin, hstart, hposition, hexpected, projectExpanded] at hresult
          rw [hrows] at hresult
          injection hresult with hpair
          have heq : rows = fallbackRows copies := congrArg Prod.snd hpair
          rw [heq]
        · intro heq
          injection heq with heq
          refine ⟨?_, ?_⟩
          · rw [hbegin, hstart, hposition, hexpected, projectExpanded]
            rw [hrows]
            change Except.ok (run'.segments, rows) = _
            rw [hsegments, heq]
            rfl
          · rw [hbegin, projectExpanded]
            rw [hrows]
            exact hlifetimes

/-! ## Two nested loops -/

def sampleOptions : Options := ⟨8, 2, 64, 16, 2⟩

def sampleLoop (collection : ℕ) : Loop := ⟨collection, 0, collection, ⟨4, 4, rfl⟩⟩

def sampleNodes (lead : Item) : Nodes :=
  .foreach (sampleLoop 0)
    (.leaf (.audio ['a'] []) <| .leaf (.text ⟨['t'], by decide⟩) <|
      .foreach (sampleLoop 1)
        (.leaf lead <| .leaf (.audio ['b'] [.text ⟨['f'], by decide⟩]) .nil) .nil)
    .nil

def sampleProgram (lead : Item) : Program :=
  match compile sampleOptions [sampleNodes lead] with
  | .ok P => P
  | .error _ => ⟨⟨[], [], [], []⟩, [], sampleOptions⟩

def sampleHost : Host Unit Unit where
  collection _ _ := .ok ([()], none)
  initZero _ _ := (none, ())
  copy _ _ _ := (none, ())
  restoreZero _ _ := none
  declareItem _ _ := .ok ()
  assignItem _ _ _ := .ok ()
  evaluate _ _ := (.ok none, ())

def sampleProfile : Profile Unit := ⟨none, 0, none, 0⟩

theorem projectForeach_exact_iff_sample :
    ProjectsExactly (sampleProgram (.text ⟨['s'], by decide⟩)) sampleHost 0 ⟨0, 5, 0, 1, 0, 0, 2⟩
      (sampleNodes (.text ⟨['s'], by decide⟩)) 1 (some ()) sampleProfile := by
  have hcompile : compile sampleOptions [sampleNodes (.text ⟨['s'], by decide⟩)] =
      .ok (sampleProgram (.text ⟨['s'], by decide⟩)) := rfl
  refine (projectForeach_exact_iff hcompile rfl rfl rfl sampleHost (fun _ _ => rfl) 1 (some ())
    sampleProfile).mpr ?_
  have hsites : ∀ s ∈ (sampleNodes (.text ⟨['s'], by decide⟩)).sites 0, s.clashes = false := by
    decide
  intro staged copies staged' hstart hexpand c hc haudio s hs hsource
  exact hsites s hs

/-- The audio without fallback gets that of the inner audio. -/
theorem not_projectsExactly :
    ¬∀ (o : Options) (trees : List Nodes) (P : Program) (prompt : ℕ) (nodes : Nodes)
      (row : PromptRow) (host : Host Unit Unit) (generation : ℕ) (opened : Option Unit)
      (profile : Profile Unit), compile o trees = .ok P → trees[prompt]? = some nodes →
      P.prompts[prompt]? = some row → nodes.hasForeach = true →
      (∀ element v, host.restoreZero element (some v) = none) →
      ProjectsExactly P host prompt row nodes generation opened profile := by
  intro h
  have hexact := h sampleOptions [sampleNodes .ignored] (sampleProgram .ignored) 0
    (sampleNodes .ignored) ⟨0, 4, 0, 1, 0, 0, 2⟩ sampleHost 1 (some ()) sampleProfile rfl rfl rfl
    rfl (fun _ _ => rfl)
  have hbatch : (projectForeach (sampleProgram .ignored) sampleHost 0 1 (some ())
      sampleProfile).2.1.map Batch.rows =
      .ok ([⟨.audio, ['a'], []⟩, ⟨.text, ['t'], []⟩, ⟨.audio, ['b'], []⟩, ⟨.text, ['f'], []⟩],
        [⟨0, 1, 1⟩, ⟨2, 3, 1⟩]) := rfl
  have hexpected : (expected (sampleProgram .ignored).options sampleHost (sampleNodes .ignored) 0
      (sampleProfile.transaction.or (some ()))).mapError Halt.status =
      .ok ([⟨.audio, ['a'], []⟩, ⟨.text, ['t'], []⟩, ⟨.audio, ['b'], []⟩, ⟨.text, ['f'], []⟩],
        [⟨2, 3, 1⟩]) := rfl
  injection hbatch.symm.trans (hexact.result.trans hexpected) with hrows
  exact absurd (congrArg Prod.snd hrows) (by decide)

end TurboScxml.Voice.Prompts
