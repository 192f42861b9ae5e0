import TurboScxml.Voice.PromptProjection

/-!
# The expansion of a prompt and its projection

The expansion copies the children of a prompt in order, and the body of a loop once for each element
of its collection.

* `Copy`, `Nodes.expand`: the expansion of a tree, with the limits on collections and snapshots;
* `Located`: the tables hold the rows of a part of the prompt;
* `Follows`: what a part of the projection leaves, given the expansion of that part;
* `expandRange_follows`: the projection of a range is its expansion, and clears its snapshots.
-/

namespace TurboScxml.Voice.Prompts

open Lifetimes
open Locations (aligned le_aligned)

variable {σ V : Type}

/-! ## The expansion -/

/-- A copied segment, its source, and the size of its fallback. -/
structure Copy where
  segment : Segment
  source : ℕ
  fallbacks : ℕ
  deriving DecidableEq

abbrev Expansion (σ : Type) := Except Status (List Copy × σ)

/-- One part after another. -/
def Expansion.andThen (e : Expansion σ) (next : σ → Expansion σ) : Expansion σ :=
  match e with
  | .error s => .error s
  | .ok (copies, staged) =>
    match next staged with
    | .error s => .error s
    | .ok (copies', staged') => .ok (copies ++ copies', staged')

def Item.copies (item : Item) (source : ℕ) : List Copy :=
  (item.segments.zipIdx source).map fun r =>
    ⟨r.1, r.2, if r.2 = source then item.fallbackCount else 0⟩

variable (o : Options) (host : Host σ V)

def Item.expand (source : ℕ) (item : Item) (staged : σ) : Expansion σ :=
  match item with
  | .markExpr expression =>
    match host.evaluate expression staged with
    | (.ok (some name), staged') =>
      if name = [] ∨ o.maxDynamicMarkNameBytes < name.length then .error .semanticError
      else .ok ([⟨⟨.mark, name, []⟩, source, 0⟩], staged')
    | _ => .error .semanticError
  | item => .ok (item.copies source, staged)

def copyElements (element : Element) : ℕ → List V → σ → Except MetaStatus σ
  | _, [], staged => .ok staged
  | 0, _ :: _, _ => .error .capacityExceeded
  | room + 1, v :: vs, staged =>
    match host.initZero element staged with
    | (some failure, _) => .error failure
    | (none, staged') =>
      match host.copy element v staged' with
      | (some failure, _) => .error failure
      | (none, staged'') => copyElements element room vs staged''

def Loop.elements (loop : Loop) (offset : ℕ) (staged : σ) : Except Status (List V × ℕ × σ) :=
  match host.collection loop staged with
  | .error s => .error s
  | .ok (elements, ending) =>
    let base := aligned offset loop.element.align
    let stride := aligned loop.element.size loop.element.align
    if o.maxPromptForeachSnapshotBytes < base + stride ∨ stride = 0 then .error .limitExceeded
    else
      match copyElements host loop.element
          (min o.maxPromptForeachItems ((o.maxPromptForeachSnapshotBytes - base) / stride))
          elements staged with
      | .error failure => .error (foreachMetaStatus failure)
      | .ok staged' =>
        match ending with
        | some failure => .error (foreachMetaStatus failure)
        | none => .ok (elements, base + elements.length * stride, staged')

/-- The body of a loop, once for each element. -/
def expandElements (loop : Loop) (body : σ → Expansion σ) : List V → σ → Expansion σ
  | [], staged => .ok ([], staged)
  | v :: vs, staged =>
    match host.assignItem loop (some v) staged with
    | .error s => .error s
    | .ok staged' => Expansion.andThen (body staged') (expandElements loop body vs)

def Loop.expand (loop : Loop) (body : ℕ → σ → Expansion σ) (offset : ℕ) (staged : σ) :
    Expansion σ :=
  match loop.elements o host offset staged with
  | .error s => .error s
  | .ok (elements, next, staged') =>
    match host.declareItem loop staged' with
    | .error s => .error s
    | .ok staged'' => expandElements host loop (body next) elements staged''

/-- The expansion of a part of a prompt whose first segment is `source`. -/
def Nodes.expand : Nodes → ℕ → ℕ → σ → Expansion σ
  | .nil, _, _, staged => .ok ([], staged)
  | .leaf item rest, source, offset, staged =>
    Expansion.andThen (item.expand o host source staged)
      (rest.expand (source + item.segments.length) offset)
  | .foreach loop body rest, source, offset, staged =>
    Expansion.andThen (loop.expand o host (body.expand source) offset staged)
      (rest.expand (source + body.length) offset)

variable {o host} {e : Expansion σ} {staged : σ} {copies : List Copy}

theorem Expansion.andThen_eq_ok {next : σ → Expansion σ}
    (h : Expansion.andThen e next = .ok (copies, staged)) :
    ∃ c s d, e = .ok (c, s) ∧ next s = .ok (d, staged) ∧ copies = c ++ d := by
  cases e with
  | error s => cases h
  | ok r =>
    obtain ⟨c, s⟩ := r
    rw [Expansion.andThen] at h
    cases hnext : next s with
    | error t =>
      rw [hnext] at h
      cases h
    | ok q =>
      rw [hnext] at h
      cases h
      exact ⟨c, s, q.1, rfl, hnext, rfl⟩

theorem Item.length_copies (item : Item) (source : ℕ) :
    (item.copies source).length = item.segments.length := by
  rw [Item.copies, List.length_map, List.length_zipIdx]

variable {item : Item} {source : ℕ} {staged' : σ}

theorem Item.length_expand (h : item.expand o host source staged = .ok (copies, staged')) :
    copies.length = item.segments.length := by
  cases item with
  | markExpr e =>
    rw [Item.expand] at h
    split at h
    next name s heval =>
      split at h
      next => cases h
      next =>
        cases h
        rfl
    next => cases h
  | ignored =>
    cases h
    exact Item.length_copies ..
  | text t =>
    cases h
    exact Item.length_copies ..
  | ssml t =>
    cases h
    exact Item.length_copies ..
  | mark name =>
    cases h
    exact Item.length_copies ..
  | audio src fallback =>
    cases h
    exact Item.length_copies ..

variable {vs : List V}

theorem length_le_of_copyElements {element : Element} {room : ℕ}
    (h : copyElements host element room vs staged = .ok staged') : vs.length ≤ room := by
  induction room, vs, staged using copyElements.induct host element with
  | case1 => exact Nat.zero_le _
  | case2 => cases h
  | case3 room v vs staged failure s hinit =>
    rw [copyElements, hinit] at h
    cases h
  | case4 room v vs staged s hinit failure s' hcopy =>
    rw [copyElements, hinit] at h
    dsimp only at h
    rw [hcopy] at h
    cases h
  | case5 room v vs staged s hinit s' hcopy ih =>
    rw [copyElements, hinit] at h
    dsimp only at h
    rw [hcopy] at h
    exact Nat.succ_le_succ (ih h)

variable {next offset : ℕ} {loop : Loop}

theorem Loop.elements_eq_ok (h : loop.elements o host offset staged = .ok (vs, next, staged')) :
    vs.length ≤ o.maxPromptForeachItems ∧ next ≤ o.maxPromptForeachSnapshotBytes ∧
      next = aligned offset loop.element.align +
        vs.length * aligned loop.element.size loop.element.align ∧
      aligned loop.element.size loop.element.align ≠ 0 := by
  rw [Loop.elements] at h
  split at h
  next => cases h
  next elements ending hcollection =>
    dsimp only at h
    split at h
    next => cases h
    next hroom =>
      split at h
      next => cases h
      next s hcopy =>
        split at h
        next => cases h
        next =>
          cases h
          have hlength := length_le_of_copyElements hcopy
          have hitems := Nat.le_trans hlength (Nat.min_le_left _ _)
          have hspace := Nat.le_trans hlength (Nat.min_le_right _ _)
          have hstride : 0 < aligned loop.element.size loop.element.align := by omega
          have hbytes := (Nat.le_div_iff_mul_le hstride).mp hspace
          exact ⟨hitems, by omega, rfl, by omega⟩

variable {n : ℕ}

theorem length_expandElements {body : σ → Expansion σ}
    (hbody : ∀ staged copies staged', body staged = .ok (copies, staged') → copies.length ≤ n)
    (h : expandElements host loop body vs staged = .ok (copies, staged')) :
    copies.length ≤ n * vs.length := by
  induction vs generalizing staged copies with
  | nil =>
    cases h
    exact Nat.zero_le _
  | cons v vs ih =>
    rw [expandElements] at h
    split at h
    next => cases h
    next s hassign =>
      obtain ⟨c, s', d, hc, hd, rfl⟩ := Expansion.andThen_eq_ok h
      have hfirst := hbody _ _ _ hc
      have hrest := ih hd
      rw [List.length_append, List.length_cons, Nat.mul_succ]
      omega

theorem Loop.length_expand {body : ℕ → σ → Expansion σ}
    (hbody : ∀ next staged copies staged', body next staged = .ok (copies, staged') →
      copies.length ≤ n)
    (h : loop.expand o host body offset staged = .ok (copies, staged')) :
    copies.length ≤ n * o.maxPromptForeachItems := by
  rw [Loop.expand] at h
  split at h
  next => cases h
  next vs next s helements =>
    split at h
    next => cases h
    next s' hdeclare =>
      have hitems := (Loop.elements_eq_ok helements).1
      exact Nat.le_trans (length_expandElements (hbody next) h) (Nat.mul_le_mul_left n hitems)

variable {nodes : Nodes}

theorem Nodes.length_expand (h : nodes.expand o host source offset staged = .ok (copies, staged')) :
    copies.length ≤ nodes.expandedCount o := by
  induction nodes generalizing source offset staged staged' copies with
  | nil =>
    cases h
    exact Nat.zero_le _
  | leaf item rest ih =>
    obtain ⟨c, s, d, hc, hd, rfl⟩ := Expansion.andThen_eq_ok h
    have hitem := Item.length_expand hc
    have hrest := ih hd
    rw [List.length_append, Nodes.expandedCount]
    omega
  | foreach loop body rest ihbody ihrest =>
    obtain ⟨c, s, d, hc, hd, rfl⟩ := Expansion.andThen_eq_ok h
    have hloop := Loop.length_expand (fun _ _ _ _ hbody => ihbody hbody) hc
    have hrest := ihrest hd
    rw [List.length_append, Nodes.expandedCount]
    omega

/-! ## Where the rows of a part lie -/

/-- The foreach rows of a tree lie in its segments. -/
theorem Nodes.mem_rows {prompt : ℕ} {parent : Option ℕ} {depth : ℕ} {p : Position} {r : ForeachRow}
    (h : r ∈ nodes.rows prompt parent depth p) :
    p.segment ≤ r.firstSegment ∧ r.firstSegment + r.segmentCount ≤ p.segment + nodes.length ∧
      (r.parentForeach = parent ∨ ∃ i, r.parentForeach = some i ∧ p.foreach ≤ i ∧
        i < p.foreach + nodes.foreachCount) := by
  induction nodes generalizing parent depth p with
  | nil => cases h
  | leaf item rest ih =>
    have hrest := ih h
    rw [Nodes.length_leaf, Nodes.foreachCount]
    simp only [Position.afterItem] at hrest
    refine ⟨by omega, by omega, hrest.2.2⟩
  | foreach loop body rest ihbody ihrest =>
    rw [Nodes.length_foreach, Nodes.foreachCount]
    rw [Nodes.rows, List.mem_cons, List.mem_append] at h
    rcases h with rfl | hbody | hrest
    · refine ⟨Nat.le_refl _, ?_, Or.inl rfl⟩
      change p.segment + body.length ≤ p.segment + (body.length + rest.length)
      omega
    · obtain ⟨hlo, hhi, hparent⟩ := ihbody hbody
      simp only [Position.inLoop] at hlo hhi hparent
      refine ⟨hlo, by omega, Or.inr ?_⟩
      rcases hparent with hself | ⟨i, hi, hle, hlt⟩
      · exact ⟨p.foreach, hself, Nat.le_refl _, by omega⟩
      · exact ⟨i, hi, by omega, by omega⟩
    · obtain ⟨hlo, hhi, hparent⟩ := ihrest hrest
      simp only [Position.inLoop, Position.afterNodes] at hlo hhi hparent
      refine ⟨by omega, by omega, ?_⟩
      rcases hparent with hself | ⟨i, hi, hle, hlt⟩
      · exact Or.inl hself
      · exact Or.inr ⟨i, hi, by omega, by omega⟩

variable (P : Program) (row : PromptRow)

def Outside (nodes : Nodes) (parent : Option ℕ) (p : Position) (r : ForeachRow) : Prop :=
  (∀ i, r.parentForeach = some i → i < p.foreach ∨ p.foreach + nodes.foreachCount ≤ i) ∧
    (r.parentForeach = parent →
      r.firstSegment < p.segment ∨ p.segment + nodes.length ≤ r.firstSegment)

structure Located (prompt : ℕ) (nodes : Nodes) (parent : Option ℕ) (depth : ℕ) (p : Position) :
    Prop where
  rows : ∃ pre post, P.foreachRows row =
      pre ++ ((nodes.rows prompt parent depth p).zipIdx p.foreach ++ post) ∧
    (∀ r ∈ pre, Outside nodes parent p r.1) ∧ ∀ r ∈ post, Outside nodes parent p r.1
  parent_lt : ∀ i, parent = some i → i < p.foreach
  segments : ∀ j, j < nodes.length → P.segments[p.segment + j]? = nodes.segments[j]?
  marks : ∀ m ∈ nodes.marks p.segment, dynamicMarkRow P row m.segmentIndex = some m

variable {P row} {prompt : ℕ} {parent : Option ℕ} {depth : ℕ} {p : Position} {rest : Nodes}

theorem Located.afterItem (h : Located P row prompt (.leaf item rest) parent depth p) :
    Located P row prompt rest parent depth (p.afterItem item) where
  rows := by
    obtain ⟨pre, post, hrows, hpre, hpost⟩ := h.rows
    have hsub : ∀ r, Outside (.leaf item rest) parent p r →
        Outside rest parent (p.afterItem item) r := by
      rintro r ⟨hparents, hself⟩
      refine ⟨hparents, fun hr => ?_⟩
      have hrange := hself hr
      rw [Nodes.length_leaf] at hrange
      simp only [Position.afterItem]
      omega
    exact ⟨pre, post, hrows, fun r hr => hsub _ (hpre r hr), fun r hr => hsub _ (hpost r hr)⟩
  parent_lt := h.parent_lt
  segments := by
    intro j hj
    have hsegment := h.segments (item.segments.length + j) (by rw [Nodes.length_leaf]; omega)
    rw [Nodes.segments, List.getElem?_append_right (Nat.le_add_right _ _),
      Nat.add_sub_cancel_left] at hsegment
    rw [← hsegment]
    simp only [Position.afterItem, Nat.add_assoc]
  marks := fun m hm => h.marks m (List.mem_append_right _ hm)

theorem Located.body {body : Nodes}
    (h : Located P row prompt (.foreach loop body rest) parent depth p) :
    Located P row prompt body (some p.foreach) (depth + 1) p.inLoop where
  rows := by
    obtain ⟨pre, post, hrows, hpre, hpost⟩ := h.rows
    have hsub : ∀ r, Outside (.foreach loop body rest) parent p r →
        Outside body (some p.foreach) p.inLoop r := by
      rintro r ⟨hparents, -⟩
      rw [Nodes.foreachCount] at hparents
      refine ⟨fun i hi => ?_, fun hr => ?_⟩
      · have hrange := hparents i hi
        simp only [Position.inLoop]
        omega
      · have hrange := hparents _ hr
        omega
    refine ⟨pre ++ [(loopRow prompt parent depth p loop body, p.foreach)],
      (rest.rows prompt parent depth (p.inLoop.afterNodes body)).zipIdx
        (p.foreach + 1 + body.foreachCount) ++ post, ?_, ?_, ?_⟩
    · rw [hrows, Nodes.rows, List.zipIdx_cons, List.zipIdx_append, Nodes.length_rows]
      simp [Position.inLoop]
    · intro r hr
      rcases List.mem_append.mp hr with hold | hloop
      · exact hsub _ (hpre r hold)
      · rw [List.mem_singleton] at hloop
        subst hloop
        refine ⟨fun i hi => Or.inl ?_, fun hr => ?_⟩
        · exact Nat.lt_succ_of_lt (h.parent_lt i hi)
        · have hlt := h.parent_lt p.foreach hr
          omega
    · intro r hr
      rcases List.mem_append.mp hr with hrest | hold
      · obtain ⟨-, -, hparent⟩ := Nodes.mem_rows (List.fst_mem_of_mem_zipIdx hrest)
        have hvalue : ∀ i, r.1.parentForeach = some i →
            i < p.foreach ∨ p.foreach + 1 + body.foreachCount ≤ i := by
          intro i hi
          rcases hparent with hself | ⟨k, hk, hle, -⟩
          · exact Or.inl (h.parent_lt i (hself.symm.trans hi))
          · cases hk.symm.trans hi
            exact Or.inr hle
        refine ⟨fun i hi => ?_, fun hr => ?_⟩
        · have hrange := hvalue i hi
          simp only [Position.inLoop]
          omega
        · have hrange := hvalue _ hr
          omega
      · exact hsub _ (hpost r hold)
  parent_lt := by
    intro i hi
    cases hi
    exact Nat.lt_succ_self _
  segments := by
    intro j hj
    have hsegment := h.segments j (by rw [Nodes.length_foreach]; omega)
    rwa [Nodes.segments, List.getElem?_append_left hj] at hsegment
  marks := fun m hm => h.marks m (List.mem_append_left _ hm)

theorem Located.afterLoop {body : Nodes} (hbody : body.length ≠ 0)
    (h : Located P row prompt (.foreach loop body rest) parent depth p) :
    Located P row prompt rest parent depth (p.inLoop.afterNodes body) where
  rows := by
    obtain ⟨pre, post, hrows, hpre, hpost⟩ := h.rows
    have hsub : ∀ r, Outside (.foreach loop body rest) parent p r →
        Outside rest parent (p.inLoop.afterNodes body) r := by
      rintro r ⟨hparents, hself⟩
      rw [Nodes.foreachCount] at hparents
      rw [Nodes.length_foreach] at hself
      simp only [Outside, Position.inLoop, Position.afterNodes]
      refine ⟨fun i hi => ?_, fun hr => ?_⟩
      · have hrange := hparents i hi
        omega
      · have hrange := hself hr
        omega
    refine ⟨pre ++ (loopRow prompt parent depth p loop body, p.foreach) ::
      (body.rows prompt (some p.foreach) (depth + 1) p.inLoop).zipIdx (p.foreach + 1), post,
      ?_, ?_, fun r hr => hsub _ (hpost r hr)⟩
    · rw [hrows, Nodes.rows, List.zipIdx_cons, List.zipIdx_append, Nodes.length_rows]
      simp [Position.inLoop, Position.afterNodes]
    · intro r hr
      rcases List.mem_append.mp hr with hold | hloop
      · exact hsub _ (hpre r hold)
      · rcases List.mem_cons.mp hloop with rfl | hinner
        · refine ⟨fun i hi => Or.inl ?_, fun _ => Or.inl ?_⟩
          · have hlt := h.parent_lt i hi
            simp only [Position.inLoop, Position.afterNodes]
            omega
          · change p.segment < p.segment + body.length
            omega
        · obtain ⟨-, -, hparent⟩ := Nodes.mem_rows (List.fst_mem_of_mem_zipIdx hinner)
          simp only [Position.inLoop] at hparent
          have hvalue : ∃ i, r.1.parentForeach = some i ∧ p.foreach ≤ i ∧
              i < p.foreach + 1 + body.foreachCount := by
            rcases hparent with hself | ⟨k, hk, hle, hlt⟩
            · exact ⟨p.foreach, hself, Nat.le_refl _, by omega⟩
            · exact ⟨k, hk, by omega, by omega⟩
          obtain ⟨k, hk, hle, hlt⟩ := hvalue
          refine ⟨fun i hi => Or.inl ?_, fun hr => ?_⟩
          · cases hk.symm.trans hi
            exact hlt
          · have hbefore := h.parent_lt k (hr.symm.trans hk)
            omega
  parent_lt := by
    intro i hi
    have hlt := h.parent_lt i hi
    simp only [Position.inLoop, Position.afterNodes]
    omega
  segments := by
    intro j hj
    have hsegment := h.segments (body.length + j) (by rw [Nodes.length_foreach]; omega)
    have hle : body.segments.length ≤ body.length + j := Nat.le_add_right _ _
    have hsub : body.length + j - body.segments.length = j := Nat.add_sub_cancel_left _ _
    rw [Nodes.segments, List.getElem?_append_right hle, hsub] at hsegment
    rw [← hsegment]
    simp only [Position.inLoop, Position.afterNodes, Nat.add_assoc]
  marks := fun m hm => h.marks m (List.mem_append_right _ hm)

theorem Located.filter_eq (h : Located P row prompt nodes parent depth p) {x : ℕ}
    (hlo : p.segment ≤ x) (hhi : x < p.segment + nodes.length) :
    ((P.foreachRows row).filter fun r =>
        r.1.parentForeach == parent && r.1.firstSegment == x) =
      ((nodes.rows prompt parent depth p).zipIdx p.foreach).filter fun r =>
        r.1.parentForeach == parent && r.1.firstSegment == x := by
  obtain ⟨pre, post, hrows, hpre, hpost⟩ := h.rows
  have hout : ∀ r : ForeachRow × ℕ, Outside nodes parent p r.1 →
      ¬(r.1.parentForeach == parent && r.1.firstSegment == x) = true := by
    rintro r ⟨-, hself⟩ hr
    rw [Bool.and_eq_true, beq_iff_eq, beq_iff_eq] at hr
    have hrange := hself hr.1
    omega
  rw [hrows, List.filter_append, List.filter_append,
    List.filter_eq_nil_iff.mpr fun r hr => hout r (hpre r hr),
    List.filter_eq_nil_iff.mpr fun r hr => hout r (hpost r hr), List.nil_append, List.append_nil]

theorem Located.directAtSource_item (h : Located P row prompt (.leaf item rest) parent depth p)
    {x : ℕ} (hlo : p.segment ≤ x) (hhi : x < p.segment + item.segments.length) :
    directAtSource P row parent x = .ok none := by
  have hempty : (((Nodes.leaf item rest).rows prompt parent depth p).zipIdx p.foreach).filter
      (fun r => r.1.parentForeach == parent && r.1.firstSegment == x) = [] := by
    refine List.filter_eq_nil_iff.mpr fun r hr hmatch => ?_
    rw [Bool.and_eq_true, beq_iff_eq, beq_iff_eq] at hmatch
    have hstart := (Nodes.mem_rows (p := p.afterItem item) (List.fst_mem_of_mem_zipIdx hr)).1
    simp only [Position.afterItem] at hstart
    omega
  rw [directAtSource, h.filter_eq hlo (by rw [Nodes.length_leaf]; omega), hempty]

theorem Located.directAtSource_loop {body : Nodes} (hbody : body.length ≠ 0)
    (h : Located P row prompt (.foreach loop body rest) parent depth p) :
    directAtSource P row parent p.segment =
      .ok (some (loopRow prompt parent depth p loop body, p.foreach)) := by
  have hinner : ((body.rows prompt (some p.foreach) (depth + 1) p.inLoop).zipIdx
      (p.foreach + 1)).filter
      (fun r => r.1.parentForeach == parent && r.1.firstSegment == p.segment) = [] := by
    refine List.filter_eq_nil_iff.mpr fun r hr hmatch => ?_
    rw [Bool.and_eq_true, beq_iff_eq, beq_iff_eq] at hmatch
    obtain ⟨-, -, hparent⟩ := Nodes.mem_rows (List.fst_mem_of_mem_zipIdx hr)
    rcases hparent with hself | ⟨k, hk, hle, -⟩
    · have hlt := h.parent_lt p.foreach (hmatch.1.symm.trans hself)
      omega
    · have hlt := h.parent_lt k (hmatch.1.symm.trans hk)
      simp only [Position.inLoop] at hle
      omega
  have hrest : ((rest.rows prompt parent depth (p.inLoop.afterNodes body)).zipIdx
      (p.foreach + 1 + body.foreachCount)).filter
      (fun r => r.1.parentForeach == parent && r.1.firstSegment == p.segment) = [] := by
    refine List.filter_eq_nil_iff.mpr fun r hr hmatch => ?_
    rw [Bool.and_eq_true, beq_iff_eq, beq_iff_eq] at hmatch
    have hstart := (Nodes.mem_rows (List.fst_mem_of_mem_zipIdx hr)).1
    simp only [Position.inLoop, Position.afterNodes] at hstart
    omega
  rw [directAtSource, h.filter_eq (Nat.le_refl _) (by rw [Nodes.length_foreach]; omega),
    Nodes.rows, List.zipIdx_cons, List.zipIdx_append, Nodes.length_rows, List.filter_cons,
    List.filter_append, hinner, hrest]
  simp [loopRow]

/-! ## Parts of a projection -/

structure Copied (P : Program) (run : Run σ V) (copies : List Copy) (staged : σ)
    (run' : Run σ V) : Prop where
  staged : run'.staged = staged
  segments : run'.segments = run.segments ++ copies.map Copy.segment
  sources : run'.sources = run.sources ++ copies.map Copy.source
  storage : run'.storageUsed ≤ run'.segments.length * P.options.maxDynamicMarkNameBytes

/-- What a part of the projection leaves when `e` is its expansion. -/
structure Follows (P : Program) (run : Run σ V) (offset : ℕ) (e : Expansion σ)
    (outcome : Outcome σ V) : Prop where
  cells : outcome.1.arena.cells = run.arena.cells
  sound : outcome.1.arena.Sound offset
  halted : ∀ s, e = .error s → outcome.2 = some (.status s)
  copied : ∀ copies staged, e = .ok (copies, staged) →
    outcome.2 = none ∧ Copied P run copies staged outcome.1

structure Ready (P : Program) (run : Run σ V) (offset n : ℕ) : Prop where
  sound : run.arena.Sound offset
  room : run.segments.length + n ≤ P.segmentCapacity
  storage : run.storageUsed ≤ run.segments.length * P.options.maxDynamicMarkNameBytes

variable {run : Run σ V}

theorem Follows.nothing (h : Ready P run offset n) :
    Follows P run offset (.ok ([], run.staged)) (run, none) where
  cells := rfl
  sound := h.sound
  halted s hs := by cases hs
  copied copies staged heq := by
    cases heq
    exact ⟨rfl, rfl, (List.append_nil _).symm, (List.append_nil _).symm, h.storage⟩

variable {m : ℕ}

theorem Copied.ready {run' : Run σ V} (h : Copied P run copies staged run')
    (hready : Ready P run offset (n + m)) (hlength : copies.length ≤ n)
    (hsound : run'.arena.Sound offset) :
    Ready P run' offset m where
  sound := hsound
  room := by
    have hroom := hready.room
    rw [h.segments, List.length_append, List.length_map]
    omega
  storage := h.storage

theorem Copied.trans {run' run'' : Run σ V} {copies copies' : List Copy}
    (h : Copied P run copies staged run') (h' : Copied P run' copies' staged' run'') :
    Copied P run (copies ++ copies') staged' run'' where
  staged := h'.staged
  segments := by rw [h'.segments, h.segments, List.map_append, List.append_assoc]
  sources := by rw [h'.sources, h.sources, List.map_append, List.append_assoc]
  storage := h'.storage

variable {outcome : Outcome σ V}

theorem Follows.andThen {next : σ → Expansion σ}
    {step : Run σ V → Outcome σ V} (h : Follows P run offset e outcome)
    (hnext : ∀ copies staged, e = .ok (copies, staged) → Copied P run copies staged outcome.1 →
      Follows P outcome.1 offset (next staged) (step outcome.1)) :
    Follows P run offset (Expansion.andThen e next) (Outcome.andThen outcome step) := by
  cases e with
  | error s =>
    have hhalt := h.halted s rfl
    rw [Outcome.andThen, hhalt]
    refine ⟨h.cells, h.sound, ?_, ?_⟩
    · intro t ht
      cases ht
      rfl
    · intro copies staged heq
      cases heq
  | ok r =>
    obtain ⟨c, s⟩ := r
    obtain ⟨hnone, hcopied⟩ := h.copied c s rfl
    have hrest := hnext c s rfl hcopied
    rw [Outcome.andThen, hnone, Expansion.andThen]
    refine ⟨hrest.cells.trans h.cells, hrest.sound, ?_, ?_⟩
    · intro t ht
      cases hs : next s with
      | error u =>
        rw [hs] at ht
        cases ht
        exact hrest.halted _ hs
      | ok q =>
        rw [hs] at ht
        cases ht
    · intro copies staged heq
      cases hs : next s with
      | error u =>
        rw [hs] at heq
        cases heq
      | ok q =>
        rw [hs] at heq
        cases heq
        obtain ⟨hdone, hcopied'⟩ := hrest.copied q.1 q.2 hs
        exact ⟨hdone, hcopied.trans hcopied'⟩

/-! ## Segments -/

def appendSegments (P : Program) (host : Host σ V) (row : PromptRow) :
    ℕ → ℕ → Run σ V → Outcome σ V
  | 0, _, run => (run, none)
  | n + 1, source, run =>
    Outcome.andThen (appendProjectedSegment P host row source run)
      (appendSegments P host row n (source + 1))

theorem Outcome.andThen_assoc (outcome : Outcome σ V) (f g : Run σ V → Outcome σ V) :
    Outcome.andThen (Outcome.andThen outcome f) g =
      Outcome.andThen outcome fun run => Outcome.andThen (f run) g := by
  obtain ⟨run, halt⟩ := outcome
  cases halt with
  | none => rfl
  | some t => rfl

theorem expandRange_append {enter : ℕ → ForeachRow → ℕ → Run σ V → Outcome σ V} {sourceEnd : ℕ}
    (k : ℕ) (run : Run σ V)
    (hdirect : ∀ x, source ≤ x → x < source + k → directAtSource P row parent x = .ok none)
    (hend : source + k ≤ sourceEnd) :
    expandRange P host row enter parent offset sourceEnd (n + k) source run =
      Outcome.andThen (appendSegments P host row k source run)
        (expandRange P host row enter parent offset sourceEnd n (source + k)) := by
  induction k generalizing source run with
  | zero => rfl
  | succ k ih =>
    rw [← Nat.add_assoc, expandRange, if_pos (by omega),
      hdirect source (Nat.le_refl _) (by omega), appendSegments, Outcome.andThen_assoc]
    dsimp only
    congr 1
    funext run'
    rw [ih run' (fun x hlo hhi => hdirect x (by omega) (by omega)) (by omega)]
    have hindex : source + 1 + k = source + (k + 1) := by omega
    rw [hindex]

theorem appendSegments_static (host : Host σ V) (row : PromptRow) {segs : List Segment}
    (run : Run σ V) (hsegments : ∀ j, j < segs.length → P.segments[source + j]? = segs[j]?)
    (hpayload : ∀ s ∈ segs, s.payload ≠ [])
    (hroom : run.segments.length + segs.length ≤ P.segmentCapacity) :
    ∃ run', appendSegments P host row segs.length source run = (run', none) ∧
      run'.arena = run.arena ∧ run'.staged = run.staged ∧ run'.storageUsed = run.storageUsed ∧
      run'.segments = run.segments ++ segs ∧
      run'.sources = run.sources ++ (segs.zipIdx source).map Prod.snd := by
  induction segs generalizing source run with
  | nil => exact ⟨run, rfl, rfl, rfl, rfl, (List.append_nil _).symm, (List.append_nil _).symm⟩
  | cons seg segs ih =>
    have hfirst : P.segments[source]? = some seg := hsegments 0 (Nat.succ_pos _)
    have hne : seg.payload ≠ [] := hpayload seg List.mem_cons_self
    have happend : appendProjectedSegment P host row source run =
        (run.append source seg, none) := by
      rw [List.length_cons] at hroom
      rw [appendProjectedSegment, hfirst]
      dsimp only
      rw [if_neg (by omega), if_neg (fun hmark => hne hmark.2), if_neg hne]
    obtain ⟨run', hrun', harena, hstaged, hstorage, hsegs, hsources⟩ :=
      @ih (source + 1) (run.append source seg)
        (fun j hj => by
          have hlater := hsegments (j + 1) (Nat.succ_lt_succ hj)
          rw [List.getElem?_cons_succ] at hlater
          rw [← hlater]
          congr 1
          omega)
        (fun s hs => hpayload s (List.mem_cons_of_mem _ hs))
        (by
          rw [List.length_cons] at hroom
          rw [Run.append, List.length_append, List.length_singleton]
          omega)
    refine ⟨run', ?_, harena, hstaged, hstorage, ?_, ?_⟩
    · rw [List.length_cons, appendSegments, happend]
      exact hrun'
    · rw [hsegs, Run.append, List.append_assoc]
      rfl
    · rw [hsources, Run.append, List.append_assoc, List.zipIdx_cons]
      rfl

theorem Item.payload_ne (hproper : item.Proper) (hmark : item.dynamicMark = false) {seg : Segment}
    (h : seg ∈ item.segments) : seg.payload ≠ [] := by
  cases item with
  | ignored => cases h
  | text t =>
    rw [List.mem_singleton.mp h]
    exact t.2
  | ssml t =>
    rw [List.mem_singleton.mp h]
    exact t.2
  | mark name =>
    rw [List.mem_singleton.mp h]
    exact hproper
  | markExpr e => cases hmark
  | audio src fallback =>
    rcases List.mem_cons.mp h with rfl | hpiece
    · exact hproper
    · obtain ⟨piece, -, hsegment⟩ := List.mem_filterMap.mp hpiece
      cases piece with
      | ignored => cases hsegment
      | text t =>
        cases hsegment
        exact t.2
      | ssml t =>
        cases hsegment
        exact t.2

theorem Item.segment_copies (item : Item) (source : ℕ) :
    (item.copies source).map Copy.segment = item.segments := by
  rw [Item.copies, List.map_map]
  exact List.zipIdx_map_fst ..

theorem Item.source_copies (item : Item) (source : ℕ) :
    (item.copies source).map Copy.source = (item.segments.zipIdx source).map Prod.snd := by
  rw [Item.copies, List.map_map]
  rfl

theorem appendSegments_item (hlocated : Located P row prompt (.leaf item rest) parent depth p)
    (hproper : item.Proper) (hmark : item.dynamicMark = false)
    (hready : Ready P run offset (item.segments.length + m)) :
    Follows P run offset (.ok (item.copies p.segment, run.staged))
      (appendSegments P host row item.segments.length p.segment run) := by
  obtain ⟨run', hrun', harena, hstaged, hstorage, hsegs, hsources⟩ :=
    appendSegments_static (P := P) host row run
      (fun j hj => by
        have hsegment := hlocated.segments j (by rw [Nodes.length_leaf]; omega)
        rwa [Nodes.segments, List.getElem?_append_left hj] at hsegment)
      (fun s hs => Item.payload_ne hproper hmark hs)
      (by
        have hroom := hready.room
        omega)
  rw [hrun']
  refine ⟨congrArg Storage.cells harena, harena ▸ hready.sound, ?_, ?_⟩
  · intro s hs
    cases hs
  · intro copies staged heq
    cases heq
    refine ⟨rfl, hstaged, ?_, ?_, ?_⟩
    · rw [hsegs, Item.segment_copies]
    · rw [hsources, Item.source_copies]
    · rw [hstorage, hsegs, List.length_append]
      exact Nat.le_trans hready.storage (Nat.mul_le_mul_right _ (Nat.le_add_right _ _))

theorem appendSegments_markExpr {expression : ℕ}
    (hlocated : Located P row prompt (.leaf (.markExpr expression) rest) parent depth p)
    (hbytes : P.options.maxDynamicMarkNameBytes ≠ 0) (hready : Ready P run offset (1 + m)) :
    Follows P run offset ((Item.markExpr expression).expand P.options host p.segment run.staged)
      (appendSegments P host row 1 p.segment run) := by
  have hsegment : P.segments[p.segment]? = some ⟨.mark, [], []⟩ :=
    hlocated.segments 0 (by rw [Nodes.length_leaf, Item.segments, List.length_singleton]; omega)
  have hrow : dynamicMarkRow P row p.segment = some ⟨p.segment, expression⟩ :=
    hlocated.marks ⟨p.segment, expression⟩ (List.mem_append_left _ List.mem_cons_self)
  have hroom := hready.room
  have hstorage : run.storageUsed + P.options.maxDynamicMarkNameBytes ≤ P.markStorageCapacity := by
    have hle : (run.segments.length + 1) * P.options.maxDynamicMarkNameBytes ≤
        P.options.maxPromptExpandedSegments * P.options.maxDynamicMarkNameBytes :=
      Nat.mul_le_mul_right _ (by rw [Program.segmentCapacity] at hroom; omega)
    rw [Nat.succ_mul] at hle
    have hused := hready.storage
    rw [Program.markStorageCapacity]
    omega
  have happend : appendSegments P host row 1 p.segment run =
      Outcome.andThen (appendProjectedSegment P host row p.segment run) fun run' => (run', none) :=
    rfl
  rw [happend, appendProjectedSegment, hsegment]
  dsimp only
  rw [if_neg (by omega), if_pos ⟨rfl, rfl⟩, projectMark, hrow]
  dsimp only
  rw [if_neg hbytes, Item.expand]
  cases heval : host.evaluate expression run.staged with
  | mk value staged =>
    cases value with
    | error s =>
      refine ⟨rfl, hready.sound, ?_, ?_⟩
      · intro t ht
        cases ht
        rfl
      · intro copies staged' heq
        cases heq
    | ok text =>
      cases text with
      | none =>
        refine ⟨rfl, hready.sound, ?_, ?_⟩
        · intro t ht
          cases ht
          rfl
        · intro copies staged' heq
          cases heq
      | some name =>
        dsimp only
        by_cases hname : name = [] ∨ P.options.maxDynamicMarkNameBytes < name.length
        · have hrefused : name = [] ∨ P.options.maxDynamicMarkNameBytes < name.length ∨
              P.markStorageCapacity < run.storageUsed ∨
              P.markStorageCapacity - run.storageUsed < name.length :=
            hname.elim Or.inl fun hlong => Or.inr (Or.inl hlong)
          rw [if_pos hname, if_pos hrefused]
          refine ⟨rfl, hready.sound, ?_, ?_⟩
          · intro t ht
            cases ht
            rfl
          · intro copies staged' heq
            cases heq
        · rw [not_or] at hname
          have haccepted : ¬(name = [] ∨ P.options.maxDynamicMarkNameBytes < name.length ∨
              P.markStorageCapacity < run.storageUsed ∨
              P.markStorageCapacity - run.storageUsed < name.length) := by
            rintro (hnil | hlong | hfull | hshort)
            · exact hname.1 hnil
            · exact hname.2 hlong
            · omega
            · omega
          rw [if_neg (not_or.mpr hname), if_neg haccepted]
          refine ⟨rfl, hready.sound, ?_, ?_⟩
          · intro t ht
            cases ht
          · intro copies staged' heq
            cases heq
            refine ⟨rfl, rfl, rfl, rfl, ?_⟩
            change run.storageUsed + name.length ≤ (run.segments ++ [_]).length * _
            rw [List.length_append, List.length_singleton, Nat.succ_mul]
            have hused := hready.storage
            omega

theorem appendSegments_follows (host : Host σ V)
    (hlocated : Located P row prompt (.leaf item rest) parent depth p) (hproper : item.Proper)
    (hbytes : item.dynamicMark = true → P.options.maxDynamicMarkNameBytes ≠ 0)
    (hready : Ready P run offset (item.segments.length + m)) :
    Follows P run offset (item.expand P.options host p.segment run.staged)
      (appendSegments P host row item.segments.length p.segment run) := by
  cases item with
  | markExpr e => exact appendSegments_markExpr hlocated (hbytes rfl) hready
  | ignored => exact appendSegments_item hlocated hproper rfl hready
  | text t => exact appendSegments_item hlocated hproper rfl hready
  | ssml t => exact appendSegments_item hlocated hproper rfl hready
  | mark name => exact appendSegments_item hlocated hproper rfl hready
  | audio src fallback => exact appendSegments_item hlocated hproper rfl hready

/-! ## Snapshots -/

def snapshotRoom (P : Program) (base stride : ℕ) : ℕ :=
  min P.options.maxPromptForeachItems ((P.snapshotCapacity - base) / stride)

variable {element : Element} {base stride : ℕ} {i : ℕ}

theorem snapshotVisit_full {v : V} (h : snapshotRoom P base stride ≤ i) :
    snapshotVisit P host element base stride i v run = (run, some .capacityExceeded) := by
  rw [snapshotRoom] at h
  rw [snapshotVisit]
  split
  next => rfl
  next hitems => rw [if_pos (by omega)]

theorem snapshotVisit_room {v : V} (h : i < snapshotRoom P base stride) :
    snapshotVisit P host element base stride i v run =
      match host.initZero element run.staged with
      | (some failure, staged) => ({ run with staged := staged }, some failure)
      | (none, staged) =>
        match host.copy element v staged with
        | (some failure, staged') =>
          ({ run with
            staged := staged'
            arena := (run.arena.construct (base + i * stride) element.size v).destroy
              (base + i * stride) element.size }, some failure)
        | (none, staged') =>
          ({ run with
            staged := staged', arena := run.arena.construct (base + i * stride) element.size v },
            none) := by
  rw [snapshotRoom] at h
  rw [snapshotVisit, if_neg (by omega)]
  refine (if_neg ?_).trans ?_
  · omega
  · rfl

theorem visitElements_ok (hroom : i + n = snapshotRoom P base stride)
    (h : copyElements host element n vs run.staged = .ok staged') :
    visitElements P host element base stride i vs run =
      (i + vs.length,
        { run with
          staged := staged'
          arena := run.arena.fillFrom base stride element.size i vs }, none) := by
  induction vs generalizing i n run with
  | nil =>
    rw [copyElements] at h
    cases h
    rfl
  | cons v vs ih =>
    cases n with
    | zero => cases h
    | succ n =>
      rw [copyElements] at h
      rw [visitElements, snapshotVisit_room (by omega)]
      cases hinit : host.initZero element run.staged with
      | mk failure s =>
        rw [hinit] at h
        cases failure with
        | some f => cases h
        | none =>
          dsimp only at h ⊢
          cases hcopy : host.copy element v s with
          | mk failure s' =>
            rw [hcopy] at h
            cases failure with
            | some f => cases h
            | none =>
              dsimp only at h ⊢
              rw [ih (i := i + 1) (n := n) (by omega) h, List.length_cons]
              have hcount : i + 1 + vs.length = i + (vs.length + 1) := by omega
              rw [hcount]
              rfl

theorem visitElements_error (hsize : 0 < element.size) (hle : element.size ≤ stride)
    {f : MetaStatus} (hroom : i + n = snapshotRoom P base stride)
    (hsound : run.arena.Sound (base + i * stride))
    (h : copyElements host element n vs run.staged = .error f) :
    ∃ us run', visitElements P host element base stride i vs run =
        (i + us.length, run', some f) ∧
      run'.arena.cells = (run.arena.fillFrom base stride element.size i us).cells ∧
      run'.arena.Sound (base + (i + us.length) * stride) := by
  induction vs generalizing i n run with
  | nil =>
    rw [copyElements] at h
    cases h
  | cons v vs ih =>
    cases n with
    | zero =>
      cases h
      refine ⟨[], run, ?_, rfl, hsound⟩
      rw [visitElements, snapshotVisit_full (by omega)]
      rfl
    | succ n =>
      rw [copyElements] at h
      rw [visitElements, snapshotVisit_room (by omega)]
      cases hinit : host.initZero element run.staged with
      | mk failure s =>
        rw [hinit] at h
        cases failure with
        | some g =>
          cases h
          exact ⟨[], _, rfl, rfl, hsound⟩
        | none =>
          dsimp only at h ⊢
          cases hcopy : host.copy element v s with
          | mk failure s' =>
            rw [hcopy] at h
            cases failure with
            | some g =>
              cases h
              -- the object that was begun is gone again
              obtain ⟨hcells, hgone⟩ := hsound.destroy_construct hsize v
              exact ⟨[], _, rfl, hcells, hgone⟩
            | none =>
              have hnext : (run.arena.construct (base + i * stride) element.size v).Sound
                  (base + (i + 1) * stride) := by
                refine (hsound.construct (Nat.le_refl _) hsize v).mono ?_
                rw [Nat.succ_mul]
                omega
              obtain ⟨us, run', hvisit, hcells, hsound'⟩ := @ih n
                { run with
                  staged := s'
                  arena := run.arena.construct (base + i * stride) element.size v }
                (i + 1) (by omega) hnext h
              have hcount : i + 1 + us.length = i + (v :: us).length := by
                rw [List.length_cons]
                omega
              rw [hcount] at hvisit hsound'
              exact ⟨v :: us, run', hvisit, hcells, hsound'⟩

theorem snapshotClear_eq (hrestore : ∀ element v, host.restoreZero element (some v) = none)
    (hstride : 0 < stride)
    (hlive : ∀ j, j < n → ∃ v, run.arena.load (base + (i + j) * stride) = some v) :
    snapshotClear host element base stride i n run =
      ({ run with arena := run.arena.clearFrom base stride element.size i n }, none) := by
  induction n generalizing i run with
  | zero => rfl
  | succ n ih =>
    obtain ⟨v, hv⟩ := hlive 0 (Nat.succ_pos _)
    rw [Nat.add_zero] at hv
    rw [snapshotClear, hv, hrestore]
    rw [ih]
    · rfl
    · intro j hj
      obtain ⟨w, hw⟩ := hlive (j + 1) (Nat.succ_lt_succ hj)
      have hindex : i + (j + 1) = i + 1 + j := by omega
      rw [hindex] at hw
      have hlt := Storage.start_lt_start base hstride (show i < i + 1 + j by omega)
      refine ⟨w, ?_⟩
      rw [Storage.load, Storage.cells_destroy, Function.update_of_ne (Nat.ne_of_gt hlt)]
      exact hw

theorem snapshotClear_filled (hrestore : ∀ element v, host.restoreZero element (some v) = none)
    (hsize : 0 < element.size) (hle : element.size ≤ stride) {s : Storage V} {bound : ℕ}
    {us : List V} (run : Run σ V) (hs : s.Sound offset) (hbase : offset ≤ base)
    (hrun : run.arena.Sound bound)
    (hcells : run.arena.cells = (s.fillFrom base stride element.size 0 us).cells) :
    ∃ arena, snapshotClear host element base stride 0 us.length run =
        ({ run with arena := arena }, none) ∧
      arena.cells = s.cells ∧ arena.Sound offset := by
  have hstride : 0 < stride := Nat.lt_of_lt_of_le hsize hle
  have hstart : s.Sound (base + 0 * stride) := hs.mono (by rw [Nat.zero_mul]; omega)
  obtain ⟨hback, hsound⟩ := hstart.clearFrom_fillFrom hsize hle hrun hcells
  refine ⟨_, snapshotClear_eq hrestore hstride ?_, hback, hs.of_cells hsound hback⟩
  intro j hj
  obtain ⟨v, hv⟩ : ∃ v, us[j]? = some v := ⟨us[j], List.getElem?_eq_getElem hj⟩
  refine ⟨v, ?_⟩
  rw [Storage.load, hcells, Storage.cells_fillFrom hstride s 0 hv]
  rfl

theorem pos_of_aligned_ne {size align : ℕ} (h : aligned size align ≠ 0) : 0 < size := by
  refine Nat.pos_of_ne_zero fun hzero => h ?_
  subst hzero
  rw [aligned, Nat.zero_add]
  rcases Nat.eq_zero_or_pos align with rfl | hpos
  · rfl
  · rw [Nat.div_eq_of_lt (by omega), Nat.zero_mul]

theorem Element.size_le_aligned (e : Element) : e.size ≤ aligned e.size e.align :=
  le_aligned e.align_pos

theorem snapshotCollection_ok (hoffset : offset ≤ P.snapshotCapacity)
    (h : loop.elements P.options host offset run.staged = .ok (vs, next, staged)) :
    snapshotCollection P host loop offset run =
      ({ run with
          staged := staged
          arena := run.arena.fillFrom (aligned offset loop.element.align)
            (aligned loop.element.size loop.element.align) loop.element.size 0 vs },
        .ok ⟨aligned offset loop.element.align, vs.length,
          aligned loop.element.size loop.element.align, next⟩) := by
  obtain ⟨-, hnext, heq, hstride⟩ := Loop.elements_eq_ok h
  rw [Loop.elements] at h
  rw [snapshotCollection, if_neg (by omega)]
  revert h
  rcases host.collection loop run.staged with t | ⟨elements, ending⟩
  · intro h
    cases h
  · intro h
    dsimp only at h ⊢
    split at h
    next => cases h
    next hroom =>
      split at h
      next => cases h
      next s hcopy =>
        split at h
        next => cases h
        next =>
          cases h
          rw [Program.snapshotCapacity, loop.element.valid, if_neg (by decide),
            if_neg (by omega), if_neg (by omega),
            visitElements_ok (i := 0) (by rw [Nat.zero_add]; rfl) hcopy]
          dsimp only [Option.or]
          rw [if_neg (by rw [Nat.zero_add]; omega), Nat.zero_add]

theorem snapshotCollection_error (hrestore : ∀ element v, host.restoreZero element (some v) = none)
    {s : Status} (hoffset : offset ≤ P.snapshotCapacity) (hsound : run.arena.Sound offset)
    (h : loop.elements P.options host offset run.staged = .error s) :
    ∃ run', snapshotCollection P host loop offset run = (run', .error s) ∧
      run'.arena.cells = run.arena.cells ∧ run'.arena.Sound offset := by
  rw [Loop.elements] at h
  rw [snapshotCollection, if_neg (by omega)]
  revert h
  rcases host.collection loop run.staged with t | ⟨elements, ending⟩
  · intro h
    cases h
    exact ⟨run, rfl, rfl, hsound⟩
  · intro h
    dsimp only at h ⊢
    rw [loop.element.valid, if_neg (by decide)]
    split at h
    next hroom =>
      cases h
      refine ⟨run, ?_, rfl, hsound⟩
      rw [Program.snapshotCapacity]
      split
      next => rfl
      next hbase => rw [if_pos (by omega)]
    next hroom =>
      have hstride : aligned loop.element.size loop.element.align ≠ 0 := by omega
      have hsize := pos_of_aligned_ne hstride
      have hle := loop.element.size_le_aligned
      have hbase : offset ≤ aligned offset loop.element.align := le_aligned loop.element.align_pos
      have hstart : run.arena.Sound (aligned offset loop.element.align +
          0 * aligned loop.element.size loop.element.align) :=
        hsound.mono (by rw [Nat.zero_mul]; omega)
      have hcap : P.snapshotCapacity = P.options.maxPromptForeachSnapshotBytes := rfl
      rw [if_neg (by omega), if_neg (by omega)]
      split at h
      next f hcopy =>
        cases h
        obtain ⟨us, run', hvisit, hcells, hsound'⟩ :=
          visitElements_error hsize hle (i := 0) (by rw [Nat.zero_add]; rfl) hstart hcopy
        rw [Nat.zero_add] at hvisit
        obtain ⟨arena, hclear, hback, hend⟩ :=
          snapshotClear_filled hrestore hsize hle run' hsound hbase hsound' hcells
        rw [hvisit]
        dsimp only [Option.or]
        rw [clearAfter, hclear]
        exact ⟨_, rfl, hback, hend⟩
      next staged hcopy =>
        split at h
        next f =>
          cases h
          have hvisit := visitElements_ok (P := P) (i := 0) (by rw [Nat.zero_add]; rfl) hcopy
          have hfilled := hstart.fillFrom hsize hle elements
          rw [Nat.zero_add] at hvisit
          obtain ⟨arena, hclear, hback, hend⟩ :=
            snapshotClear_filled hrestore hsize hle
              { run with
                staged := staged
                arena := run.arena.fillFrom (aligned offset loop.element.align)
                  (aligned loop.element.size loop.element.align) loop.element.size 0 elements }
              hsound hbase hfilled rfl
          rw [hvisit]
          dsimp only [Option.or]
          rw [clearAfter, hclear]
          exact ⟨_, rfl, hback, hend⟩
        next => cases h

/-! ## Ranges -/

theorem expandItems_follows {size : ℕ} {s : Storage V} {bodyExpansion : σ → Expansion σ}
    {body : Run σ V → Outcome σ V} (hstride : 0 < stride)
    (hlength : ∀ staged copies staged', bodyExpansion staged = .ok (copies, staged') →
      copies.length ≤ n)
    (hbody : ∀ run k, run.arena.cells = (s.fillFrom base stride size 0 vs).cells →
      Ready P run next (n + k) → Follows P run next (bodyExpansion run.staged) (body run))
    {us : List V} (hus : vs.drop i = us)
    (hcells : run.arena.cells = (s.fillFrom base stride size 0 vs).cells)
    (hready : Ready P run next (n * us.length + m)) :
    Follows P run next (expandElements host loop bodyExpansion us run.staged)
      (expandItems host loop ⟨base, vs.length, stride, next⟩ body i us.length run) := by
  induction us generalizing i run with
  | nil => exact Follows.nothing hready
  | cons u us ih =>
    have hu : vs[i]? = some u := by
      rw [← List.head?_drop, hus]
      rfl
    have hrest : vs.drop (i + 1) = us := by
      rw [← List.tail_drop, hus]
      rfl
    have hload : run.arena.load (base + i * stride) = some u := by
      have hcell : (s.fillFrom base stride size 0 vs).cells (base + (0 + i) * stride) =
          some (size, u) := Storage.cells_fillFrom hstride s 0 hu
      rw [Nat.zero_add] at hcell
      rw [Storage.load, hcells, hcell]
      rfl
    rw [List.length_cons, expandItems, hload, expandElements]
    have hsplit : n * (u :: us).length + m = n + (n * us.length + m) := by
      rw [List.length_cons, Nat.mul_succ]
      omega
    rw [hsplit] at hready
    cases hassign : host.assignItem loop (some u) run.staged with
    | error t =>
      refine ⟨rfl, hready.sound, ?_, ?_⟩
      · intro t' ht
        cases ht
        rfl
      · intro copies staged heq
        cases heq
    | ok staged =>
      have hassigned : Ready P { run with staged := staged } next (n + (n * us.length + m)) :=
        ⟨hready.sound, hready.room, hready.storage⟩
      have hfirst := hbody { run with staged := staged } _ hcells hassigned
      refine Follows.andThen ⟨hfirst.cells, hfirst.sound, hfirst.halted, ?_⟩ ?_
      · intro copies staged' heq
        obtain ⟨hnone, hcopied⟩ := hfirst.copied copies staged' heq
        exact ⟨hnone, hcopied.staged, hcopied.segments, hcopied.sources, hcopied.storage⟩
      · intro copies staged' heq hcopied
        have hsound := hfirst.sound
        have hready' := hcopied.ready hready (hlength _ _ _ heq) hsound
        have hfollows := ih hrest (hfirst.cells.trans hcells) hready'
        rw [hcopied.staged] at hfollows
        exact hfollows

variable (hrestore : ∀ element v, host.restoreZero element (some v) = none)
include hrestore

theorem clearBehind_follows
    (staged : σ) (hsize : 0 < element.size) (hle : element.size ≤ stride)
    (hsound : run.arena.Sound offset) (hbase : offset ≤ base) (h : Follows P
      { run with staged := staged, arena := run.arena.fillFrom base stride element.size 0 vs }
      next e outcome) :
    Follows P run offset e (clearBehind host element ⟨base, vs.length, stride, next⟩ outcome) := by
  obtain ⟨arena, hclear, hback, hend⟩ :=
    snapshotClear_filled hrestore hsize hle outcome.1 hsound hbase h.sound h.cells
  rw [clearBehind, hclear]
  refine ⟨hback, hend, h.halted, ?_⟩
  intro copies staged' heq
  obtain ⟨hnone, hcopied⟩ := h.copied copies staged' heq
  exact ⟨hnone, hcopied.staged, hcopied.segments, hcopied.sources, hcopied.storage⟩

/-- What a loop leaves when its body follows its expansion. -/
theorem expandForeach_follows
    {promptIndex fuel : ℕ} (row : PromptRow) (parent : Option ℕ) (depth : ℕ) (p : Position)
    (loop : Loop) {body : Nodes} (hprompt : promptIndex = prompt)
    (hoffset : offset ≤ P.snapshotCapacity)
    (hbody : ∀ (next : ℕ) (run' : Run σ V) (k : ℕ), next ≤ P.snapshotCapacity →
      Ready P run' next (body.expandedCount P.options + k) →
      Follows P run' next (body.expand P.options host p.segment next run'.staged)
        (expandRange P host row (expandForeach P host promptIndex row fuel) (some p.foreach) next
          (p.segment + body.length) body.length p.segment run')) (hready : Ready P run offset
      (body.expandedCount P.options * P.options.maxPromptForeachItems + m)) :
    Follows P run offset
      (loop.expand P.options host (body.expand P.options host p.segment) offset run.staged)
      (expandForeach P host promptIndex row (fuel + 1) p.foreach
        (loopRow prompt parent depth p loop body) offset run) := by
  rw [expandForeach, if_neg (fun hne => hne hprompt.symm), Loop.expand]
  have hloop : (loopRow prompt parent depth p loop body).toLoop = loop := rfl
  rw [hloop]
  cases helements : loop.elements P.options host offset run.staged with
  | error s =>
    obtain ⟨run', hsnapshot, hcells, hsound⟩ :=
      snapshotCollection_error hrestore hoffset hready.sound helements
    rw [hsnapshot]
    refine ⟨hcells, hsound, ?_, ?_⟩
    · intro t ht
      cases ht
      rfl
    · intro copies staged heq
      cases heq
  | ok r =>
    obtain ⟨vs, next, staged'⟩ := r
    obtain ⟨hitems, hnext, heq, hstride⟩ := Loop.elements_eq_ok helements
    rw [snapshotCollection_ok hoffset helements]
    dsimp only
    have hsize := pos_of_aligned_ne hstride
    have hle := loop.element.size_le_aligned
    have hbase : offset ≤ aligned offset loop.element.align := le_aligned loop.element.align_pos
    have hstart : run.arena.Sound (aligned offset loop.element.align +
        0 * aligned loop.element.size loop.element.align) :=
      hready.sound.mono (by rw [Nat.zero_mul]; omega)
    have hfilled := hstart.fillFrom hsize hle vs
    rw [Nat.zero_add, ← heq] at hfilled
    cases hdeclare : host.declareItem loop staged' with
    | error s =>
      refine clearBehind_follows hrestore staged' hsize hle hready.sound hbase
        ⟨rfl, hfilled, ?_, ?_⟩
      · intro t ht
        cases ht
        rfl
      · intro copies staged heq'
        cases heq'
    | ok staged'' =>
      refine clearBehind_follows hrestore staged'' hsize hle hready.sound hbase ?_
      have hroom := hready.room
      have hmul := Nat.mul_le_mul_left (body.expandedCount P.options) hitems
      exact expandItems_follows (m := m) (i := 0) (Nat.lt_of_lt_of_le hsize hle)
        (fun _ _ _ hcopies => Nodes.length_expand hcopies)
        (fun run' k _ hready' => hbody next run' k hnext hready') List.drop_zero rfl
        ⟨hfilled, by change run.segments.length + _ ≤ _; omega, hready.storage⟩

/-- **Main.** The projection of a range is the expansion of its tree, and every snapshot that it
takes is gone behind it. -/
theorem expandRange_follows
    {promptIndex fuel : ℕ} (hprompt : promptIndex = prompt) (hproper : nodes.Proper)
    (hbounded : nodes.Bounded P.options depth)
    (hlocated : Located P row prompt nodes parent depth p) (hfuel : nodes.foreachCount ≤ fuel)
    (hn : nodes.length ≤ n) (hoffset : offset ≤ P.snapshotCapacity)
    (hready : Ready P run offset (nodes.expandedCount P.options + m)) :
    Follows P run offset (nodes.expand P.options host p.segment offset run.staged)
      (expandRange P host row (expandForeach P host promptIndex row fuel) parent offset
        (p.segment + nodes.length) n p.segment run) := by
  induction nodes generalizing parent depth p fuel offset n m run with
  | nil =>
    have hstop : ¬p.segment < p.segment + Nodes.nil.length := by
      rw [Nodes.length_nil]
      omega
    cases n with
    | zero =>
      rw [expandRange, if_neg hstop]
      exact Follows.nothing hready
    | succ n =>
      rw [expandRange, if_neg hstop]
      exact Follows.nothing hready
  | leaf item rest ih =>
    rw [Nodes.length_leaf] at hn ⊢
    obtain ⟨k, rfl⟩ : ∃ k, n = k + item.segments.length :=
      ⟨n - item.segments.length, by omega⟩
    rw [expandRange_append _ _ (fun x hlo hhi => hlocated.directAtSource_item hlo hhi) (by omega),
      Nodes.expand]
    rw [Nodes.expandedCount, Nat.add_assoc] at hready
    have hitem := appendSegments_follows host hlocated hproper.1 hbounded.1 hready
    refine hitem.andThen ?_
    intro copies staged heq hcopied
    have hready' := hcopied.ready hready (Nat.le_of_eq (Item.length_expand heq)) hitem.sound
    have hrest := ih hproper.2 hbounded.2 hlocated.afterItem hfuel
      (show rest.length ≤ k by omega) hoffset hready'
    rw [hcopied.staged] at hrest
    have hend : (p.afterItem item).segment + rest.length =
        p.segment + (item.segments.length + rest.length) := Nat.add_assoc ..
    rw [hend] at hrest
    exact hrest
  | foreach loop body rest ihbody ihrest =>
    obtain ⟨hnonempty, hbodyProper, hrestProper⟩ := hproper
    obtain ⟨-, hbodyBounded, hrestBounded⟩ := hbounded
    rw [Nodes.length_foreach] at hn ⊢
    rw [Nodes.foreachCount] at hfuel
    obtain ⟨k, rfl⟩ : ∃ k, n = k + 1 := ⟨n - 1, by omega⟩
    obtain ⟨f, rfl⟩ : ∃ f, fuel = f + 1 := ⟨fuel - 1, by omega⟩
    have hcount : (loopRow prompt parent depth p loop body).segmentCount = body.length := rfl
    rw [expandRange, if_pos (by omega), hlocated.directAtSource_loop hnonempty]
    dsimp only
    rw [hcount, if_neg (by omega), Nodes.expand]
    rw [Nodes.expandedCount, Nat.add_assoc] at hready
    have hloop := expandForeach_follows hrestore row parent depth p loop hprompt hoffset
      (fun next run' j hnext hready' => ihbody (p := p.inLoop) hbodyProper hbodyBounded
        hlocated.body (show body.foreachCount ≤ f by omega) (Nat.le_refl _) hnext hready') hready
    refine hloop.andThen ?_
    intro copies staged heq hcopied
    have hready' := hcopied.ready hready
      (Loop.length_expand (fun _ _ _ _ hcopies => Nodes.length_expand hcopies) heq) hloop.sound
    have hrest := ihrest hrestProper hrestBounded (hlocated.afterLoop hnonempty)
      (show rest.foreachCount ≤ f + 1 by omega) (show rest.length ≤ k by omega) hoffset hready'
    rw [hcopied.staged] at hrest
    have hend : (p.inLoop.afterNodes body).segment + rest.length =
        p.segment + (body.length + rest.length) := Nat.add_assoc ..
    rw [hend] at hrest
    exact hrest

omit hrestore

end TurboScxml.Voice.Prompts
