import TurboScxml.Voice.PromptExpansion

/-!
# The fallback rows of a projection

A fallback row of the tables counts from the first segment of its innermost loop. The scan for an
audio in a loop also reads the rows of the loops inside of it.

* `fallbackRows`: the rows that the copies of an expansion should have;
* `Site`, `Nodes.sites`: the audio children of a prompt, with the rows that are scanned for each;
* `Site.clashes`: a row of an inner loop is taken for a row of the audio;
* `projectFallbacksFrom_eq`, `projectFallbacksFrom_lt`: the rows are right when no audio that is
  copied clashes, and too many otherwise.
-/

namespace TurboScxml.Voice.Prompts

variable {σ V : Type} {o : Options} {host : Host σ V}

def fallbackRowsFrom : ℕ → List Copy → List Fallback
  | _, [] => []
  | index, c :: rest =>
    (if c.fallbacks = 0 then [] else [⟨index, index + 1, c.fallbacks⟩]) ++
      fallbackRowsFrom (index + 1) rest

def fallbackRows (copies : List Copy) : List Fallback := fallbackRowsFrom 0 copies

/-! ## Sites -/

/-- An audio child: its segments of fallback and the rows that are scanned for it. -/
structure Site where
  source : ℕ
  fallbackCount : ℕ
  base : ℕ
  rows : List Fallback
  inner : List Fallback

def taken (base source : ℕ) (rows : List Fallback) : List Fallback :=
  rows.filter fun r => base + r.audioSegmentIndex == source

/-- A row of an inner loop is as far from its loop as the audio from its own. -/
def Site.clashes (s : Site) : Bool := !(taken s.base s.source s.inner).isEmpty

def Nodes.audios (i : ℕ) : Nodes → List (ℕ × ℕ)
  | .nil => []
  | .leaf (.audio src fallback) rest =>
    (i, (Item.audio src fallback).fallbackCount) ::
      rest.audios (i + (Item.audio src fallback).segments.length)
  | .leaf item rest => rest.audios (i + item.segments.length)
  | .foreach _ body rest => rest.audios (i + body.length)

def audioRows (a : ℕ × ℕ) : List Fallback := if a.2 = 0 then [] else [⟨a.1, a.1 + 1, a.2⟩]

def Nodes.ownFallbacks (i : ℕ) (nodes : Nodes) : List Fallback :=
  (nodes.audios i).flatMap audioRows

def Nodes.innerFallbacks : Nodes → List Fallback
  | .nil => []
  | .leaf _ rest => rest.innerFallbacks
  | .foreach _ body rest => body.fallbacks 0 ++ rest.innerFallbacks

/-- The sites in the loops of a part whose first segment is `source`. -/
def Nodes.loopSites (source : ℕ) : Nodes → List Site
  | .nil => []
  | .leaf item rest => rest.loopSites (source + item.segments.length)
  | .foreach _ body rest =>
    (body.audios 0).map (fun a =>
        ⟨source + a.1, a.2, source, body.fallbacks 0, body.innerFallbacks⟩) ++
      (body.loopSites source ++ rest.loopSites (source + body.length))

/-- The sites of a prompt. The rows of loops are skipped for an audio that is in none. -/
def Nodes.sites (source : ℕ) (nodes : Nodes) : List Site :=
  (nodes.audios 0).map (fun a => ⟨source + a.1, a.2, source, nodes.ownFallbacks 0, []⟩) ++
    nodes.loopSites source

theorem Nodes.ownFallbacks_leaf (item : Item) (rest : Nodes) (i : ℕ) :
    (Nodes.leaf item rest).ownFallbacks i =
      item.fallbacks i ++ rest.ownFallbacks (i + item.segments.length) := by
  cases item <;> rfl

theorem Nodes.fallbacks_perm (nodes : Nodes) (i : ℕ) :
    (nodes.fallbacks i).Perm (nodes.ownFallbacks i ++ nodes.innerFallbacks) := by
  induction nodes generalizing i with
  | nil => exact .nil
  | leaf item rest ih =>
    rw [Nodes.fallbacks, Nodes.ownFallbacks_leaf, List.append_assoc]
    exact (ih _).append_left _
  | foreach loop body rest ihbody ihrest =>
    refine ((ihrest _).append_left _).trans ?_
    exact List.perm_append_comm_assoc ..

variable {nodes : Nodes} {i : ℕ} {a : ℕ × ℕ}

theorem Nodes.mem_audios (h : a ∈ nodes.audios i) : i ≤ a.1 ∧ a.1 + a.2 < i + nodes.length := by
  induction nodes generalizing i with
  | nil => cases h
  | leaf item rest ih =>
    rw [Nodes.length_leaf]
    cases item with
    | audio src fallback =>
      rcases List.mem_cons.mp h with rfl | hrest
      · refine ⟨Nat.le_refl _, ?_⟩
        change i + (fallback.filterMap Piece.segment).length < _
        rw [Item.segments, List.length_cons]
        omega
      · have hwithin := ih hrest
        omega
    | _ =>
      have hwithin := ih h
      omega
  | foreach loop body rest ihbody ihrest =>
    rw [Nodes.length_foreach]
    have hwithin := ihrest h
    omega

variable {item : Item}

theorem Nodes.mem_audios_leaf {rest : Nodes} (h : a ∈ rest.audios (i + item.segments.length)) :
    a ∈ (Nodes.leaf item rest).audios i := by
  cases item with
  | audio src fallback => exact List.mem_cons_of_mem _ h
  | _ => exact h

theorem Nodes.nodup_audios (nodes : Nodes) (i : ℕ) : ((nodes.audios i).map Prod.fst).Nodup := by
  induction nodes generalizing i with
  | nil => exact .nil
  | leaf item rest ih =>
    cases item with
    | audio src fallback =>
      refine List.nodup_cons.mpr ⟨fun hmem => ?_, ih _⟩
      obtain ⟨a, ha, heq⟩ := List.mem_map.mp hmem
      have hle := (Nodes.mem_audios ha).1
      rw [Item.segments, List.length_cons] at hle
      omega
    | _ => exact ih _
  | foreach loop body rest ihbody ihrest => exact ihrest _

theorem taken_flatMap_audioRows (base : ℕ) {l : List (ℕ × ℕ)} (hnodup : (l.map Prod.fst).Nodup)
    (ha : a ∈ l) : taken base (base + a.1) (l.flatMap audioRows) = audioRows a := by
  have hself : taken base (base + a.1) (audioRows a) = audioRows a := by
    rw [audioRows]
    split
    · rfl
    · simp [taken]
  have hother : ∀ b : ℕ × ℕ, b.1 ≠ a.1 → taken base (base + a.1) (audioRows b) = [] := by
    intro b hne
    rw [audioRows]
    split
    · rfl
    · simp [taken, hne]
  induction l with
  | nil => cases ha
  | cons b l ih =>
    rw [List.map_cons, List.nodup_cons] at hnodup
    rw [List.flatMap_cons, taken, List.filter_append]
    rcases List.mem_cons.mp ha with rfl | hmem
    · have hrest : taken base (base + a.1) (l.flatMap audioRows) = [] := by
        refine List.filter_eq_nil_iff.mpr fun r hr hmatch => hnodup.1 ?_
        obtain ⟨c, hc, hrow⟩ := List.mem_flatMap.mp hr
        refine List.mem_map.mpr ⟨c, hc, ?_⟩
        by_contra hne
        exact List.filter_eq_nil_iff.mp (hother c hne) r hrow hmatch
      exact (congrArg₂ (· ++ ·) hself hrest).trans (List.append_nil _)
    · have hne : b.1 ≠ a.1 := by
        intro heq
        exact hnodup.1 (List.mem_map.mpr ⟨a, hmem, heq.symm⟩)
      exact (congrArg₂ (· ++ ·) (hother b hne) (ih hnodup.2 hmem)).trans (List.nil_append _)

/-- The rows taken are its own and those that clash. -/
structure Site.Proper (s : Site) : Prop where
  base_le : s.base ≤ s.source
  rows : (taken s.base s.source s.rows).Perm
    (audioRows (s.source - s.base, s.fallbackCount) ++ taken s.base s.source s.inner)

variable {s : Site}

theorem Site.Proper.taken_eq (h : s.Proper) (hclash : s.clashes = false) :
    taken s.base s.source s.rows = audioRows (s.source - s.base, s.fallbackCount) := by
  rw [Site.clashes, Bool.not_eq_false', List.isEmpty_iff] at hclash
  have hrows := h.rows
  rw [hclash, List.append_nil] at hrows
  by_cases hzero : s.fallbackCount = 0
  · have hnil : audioRows (s.source - s.base, s.fallbackCount) = [] := if_pos hzero
    rw [hnil] at hrows ⊢
    exact hrows.eq_nil
  · have hone : audioRows (s.source - s.base, s.fallbackCount) =
        [⟨s.source - s.base, s.source - s.base + 1, s.fallbackCount⟩] := if_neg hzero
    rw [hone] at hrows ⊢
    exact List.perm_singleton.mp hrows

theorem Site.Proper.length_taken (h : s.Proper) :
    (if s.fallbackCount = 0 then 0 else 1) + (if s.clashes then 1 else 0) ≤
      (taken s.base s.source s.rows).length := by
  rw [h.rows.length_eq, List.length_append, audioRows]
  refine Nat.add_le_add ?_ ?_
  · dsimp only
    split <;> simp
  · rw [Site.clashes]
    cases taken s.base s.source s.inner with
    | nil => simp
    | cons r rest => simp

variable {source : ℕ}

theorem Nodes.proper_loopSites (h : s ∈ nodes.loopSites source) : s.Proper := by
  induction nodes generalizing source with
  | nil => cases h
  | leaf item rest ih => exact ih h
  | foreach loop body rest ihbody ihrest =>
    rcases List.mem_append.mp h with hown | hlater
    · obtain ⟨a, ha, rfl⟩ := List.mem_map.mp hown
      have hindex : source + a.1 - source = a.1 := Nat.add_sub_cancel_left ..
      have hrows := taken_flatMap_audioRows source (body.nodup_audios 0) ha
      refine ⟨Nat.le_add_right _ _, ?_⟩
      rw [hindex, ← hrows]
      refine ((body.fallbacks_perm 0).filter _).trans ?_
      rw [List.filter_append]
      exact .refl _
    · rcases List.mem_append.mp hlater with hbody | hrest
      · exact ihbody hbody
      · exact ihrest hrest

theorem Nodes.proper_sites (h : s ∈ nodes.sites source) : s.Proper := by
  rcases List.mem_append.mp h with hown | hloops
  · obtain ⟨a, ha, rfl⟩ := List.mem_map.mp hown
    have hindex : source + a.1 - source = a.1 := Nat.add_sub_cancel_left ..
    have hrows := taken_flatMap_audioRows source (nodes.nodup_audios 0) ha
    refine ⟨Nat.le_add_right _ _, ?_⟩
    rw [hindex, ← hrows, Nodes.ownFallbacks]
    exact .of_eq (List.append_nil _).symm
  · exact Nodes.proper_loopSites hloops

theorem Nodes.mem_loopSites (h : s ∈ nodes.loopSites source) :
    source ≤ s.source ∧ s.source < source + nodes.length := by
  induction nodes generalizing source with
  | nil => cases h
  | leaf item rest ih =>
    rw [Nodes.length_leaf]
    have hwithin := ih h
    omega
  | foreach loop body rest ihbody ihrest =>
    rw [Nodes.length_foreach]
    rcases List.mem_append.mp h with hown | hlater
    · obtain ⟨a, ha, rfl⟩ := List.mem_map.mp hown
      have hwithin := Nodes.mem_audios ha
      dsimp only
      omega
    · rcases List.mem_append.mp hlater with hbody | hrest
      · have hwithin := ihbody hbody
        omega
      · have hwithin := ihrest hrest
        omega

/-- The segments of the sites of a part, where the part is the `i`-th of a range on. -/
def Nodes.sources (base i : ℕ) (nodes : Nodes) : List ℕ :=
  (nodes.audios i).map (fun a => base + a.1) ++ (nodes.loopSites (base + i)).map Site.source

variable {x : ℕ}

theorem Nodes.mem_sources {base : ℕ} (h : x ∈ nodes.sources base i) :
    base + i ≤ x ∧ x < base + i + nodes.length := by
  rcases List.mem_append.mp h with hown | hloops
  · obtain ⟨a, ha, rfl⟩ := List.mem_map.mp hown
    have hwithin := Nodes.mem_audios ha
    omega
  · obtain ⟨s, hs, rfl⟩ := List.mem_map.mp hloops
    exact Nodes.mem_loopSites hs

theorem Nodes.nodup_sources (nodes : Nodes) (base i : ℕ) : (nodes.sources base i).Nodup := by
  induction nodes generalizing base i with
  | nil => exact .nil
  | leaf item rest ih =>
    have hrest := ih base (i + item.segments.length)
    rw [Nodes.sources, ← Nat.add_assoc] at hrest
    cases item with
    | audio src fallback =>
      refine List.nodup_cons.mpr ⟨fun hmem => ?_, hrest⟩
      have hlater : base + i ∈
          rest.sources base (i + (Item.audio src fallback).segments.length) := by
        rw [Nodes.sources, ← Nat.add_assoc]
        exact hmem
      have hle := (Nodes.mem_sources hlater).1
      rw [Item.segments, List.length_cons] at hle
      omega
    | _ => exact hrest
  | foreach loop body rest ihbody ihrest =>
    have hbody := ihbody (base + i) 0
    have hrest := ihrest base (i + body.length)
    have hperm : ((Nodes.foreach loop body rest).sources base i).Perm
        (body.sources (base + i) 0 ++ rest.sources base (i + body.length)) := by
      simp only [Nodes.sources, Nodes.audios, Nodes.loopSites, List.map_append, List.map_map,
        Nat.add_zero, Nat.add_assoc, List.append_assoc]
      exact (List.perm_append_comm_assoc ..).trans ((List.perm_append_comm_assoc ..).append_left _)
    refine hperm.nodup_iff.mpr (List.nodup_append.mpr ⟨hbody, hrest, ?_⟩)
    rintro x hx y hy rfl
    have hbefore := Nodes.mem_sources hx
    have hbehind := Nodes.mem_sources hy
    omega

theorem Nodes.sources_sites (nodes : Nodes) (source : ℕ) :
    (nodes.sites source).map Site.source = nodes.sources source 0 := by
  rw [Nodes.sites, List.map_append, List.map_map]
  rfl

theorem Nodes.eq_of_source_eq {t : Site} (hs : s ∈ nodes.sites source)
    (ht : t ∈ nodes.sites source) (h : s.source = t.source) :
    s = t := by
  have hnodup := nodes.nodup_sources source 0
  rw [← Nodes.sources_sites] at hnodup
  exact List.inj_on_of_nodup_map hnodup hs ht h

/-! ## The copies of an expansion -/

structure Laid (copies : List Copy) : Prop where
  audio : ∀ c ∈ copies, c.segment.kind ≠ .audio → c.fallbacks = 0
  within : ∀ j c, copies[j]? = some c → j + c.fallbacks < copies.length

theorem laid_nil : Laid [] where
  audio := by
    intro c hc
    cases hc
  within := by
    intro j c hj
    cases hj

theorem Laid.append {l l' : List Copy} (h : Laid l) (h' : Laid l') : Laid (l ++ l') where
  audio := by
    intro c hc
    rcases List.mem_append.mp hc with hleft | hright
    · exact h.audio c hleft
    · exact h'.audio c hright
  within := by
    intro j c hj
    rw [List.length_append]
    by_cases hlt : j < l.length
    · rw [List.getElem?_append_left hlt] at hj
      have hwithin := h.within j c hj
      omega
    · rw [List.getElem?_append_right (by omega)] at hj
      have hwithin := h'.within _ c hj
      omega

theorem kind_ne_audio {fallback : List Piece} {s : Segment}
    (h : s ∈ fallback.filterMap Piece.segment) : s.kind ≠ .audio := by
  obtain ⟨piece, -, hsegment⟩ := List.mem_filterMap.mp h
  cases piece with
  | ignored => cases hsegment
  | text t =>
    cases hsegment
    exact Kind.noConfusion
  | ssml t =>
    cases hsegment
    exact Kind.noConfusion

theorem Item.getElem?_copies (item : Item) (source j : ℕ) :
    (item.copies source)[j]? =
      item.segments[j]?.map fun s => ⟨s, source + j, if j = 0 then item.fallbackCount else 0⟩ := by
  rw [Item.copies, List.getElem?_map, List.getElem?_zipIdx, Option.map_map]
  congr 1
  funext s
  rcases Nat.eq_zero_or_pos j with rfl | hpos
  · simp
  · simp [Nat.ne_of_gt hpos]

theorem Item.kind_of_fallbackCount (h : item.fallbackCount ≠ 0) {s : Segment}
    (hs : item.segments[0]? = some s) : s.kind = .audio := by
  cases item with
  | audio src fallback =>
    cases hs
    rfl
  | _ => exact absurd rfl h

theorem Item.fallbackCount_lt {s : Segment} (hs : item.segments[0]? = some s) :
    item.fallbackCount < item.segments.length := by
  cases item with
  | audio src fallback => exact Nat.lt_succ_self _
  | _ => exact (List.getElem?_eq_some_iff.mp hs).1

theorem Item.laid_copies (item : Item) (source : ℕ) : Laid (item.copies source) where
  audio := by
    intro c hc hkind
    obtain ⟨j, hj⟩ := List.mem_iff_getElem?.mp hc
    rw [item.getElem?_copies] at hj
    obtain ⟨s, hs, rfl⟩ := Option.map_eq_some_iff.mp hj
    split
    next hzero =>
      subst hzero
      by_contra hne
      exact hkind (Item.kind_of_fallbackCount hne hs)
    next => rfl
  within := by
    intro j c hj
    rw [item.getElem?_copies] at hj
    obtain ⟨s, hs, rfl⟩ := Option.map_eq_some_iff.mp hj
    rw [Item.length_copies]
    have hlt := (List.getElem?_eq_some_iff.mp hs).1
    dsimp only
    split
    next hzero =>
      subst hzero
      have hcount := Item.fallbackCount_lt hs
      omega
    next => omega

def Copy.isOf (c : Copy) (source fallbackCount : ℕ) : Prop :=
  c.source = source ∧ c.fallbacks = fallbackCount

variable {c : Copy}

theorem Item.audio_copies (hc : c ∈ item.copies source)
    (haudio : c.segment.kind = .audio) (rest : Nodes) (i : ℕ) :
    (i, item.fallbackCount) ∈ (Nodes.leaf item rest).audios i ∧
      c.isOf source item.fallbackCount := by
  obtain ⟨j, hj⟩ := List.mem_iff_getElem?.mp hc
  rw [item.getElem?_copies] at hj
  obtain ⟨s, hs, rfl⟩ := Option.map_eq_some_iff.mp hj
  cases item with
  | audio src fallback =>
    cases j with
    | zero => exact ⟨List.mem_cons_self, rfl, rfl⟩
    | succ j =>
      exact absurd haudio (kind_ne_audio (List.mem_of_getElem? hs))
  | ignored => cases hs
  | text t =>
    rw [List.mem_singleton.mp (List.mem_of_getElem? hs)] at haudio
    cases haudio
  | ssml t =>
    rw [List.mem_singleton.mp (List.mem_of_getElem? hs)] at haudio
    cases haudio
  | mark name =>
    rw [List.mem_singleton.mp (List.mem_of_getElem? hs)] at haudio
    cases haudio
  | markExpr e =>
    rw [List.mem_singleton.mp (List.mem_of_getElem? hs)] at haudio
    cases haudio

variable {staged staged' : σ} {copies : List Copy}

theorem Item.sited_expand
    (h : item.expand o host source staged = .ok (copies, staged')) (rest : Nodes) (i : ℕ) :
    Laid copies ∧ ∀ c ∈ copies, c.segment.kind = .audio →
      (i, item.fallbackCount) ∈ (Nodes.leaf item rest).audios i ∧
        c.isOf source item.fallbackCount := by
  cases item with
  | markExpr e =>
    rw [Item.expand] at h
    split at h
    next name s heval =>
      split at h
      next => cases h
      next =>
        cases h
        refine ⟨⟨fun c hc _ => ?_, fun j c hj => ?_⟩, fun c hc haudio => ?_⟩
        · rw [List.mem_singleton.mp hc]
        · have hlt := (List.getElem?_eq_some_iff.mp hj).1
          rw [List.mem_singleton.mp (List.mem_of_getElem? hj)]
          exact hlt
        · rw [List.mem_singleton.mp hc] at haudio
          cases haudio
    next => cases h
  | ignored =>
    cases h
    exact ⟨Item.laid_copies .., fun c hc haudio => Item.audio_copies hc haudio rest i⟩
  | text t =>
    cases h
    exact ⟨Item.laid_copies .., fun c hc haudio => Item.audio_copies hc haudio rest i⟩
  | ssml t =>
    cases h
    exact ⟨Item.laid_copies .., fun c hc haudio => Item.audio_copies hc haudio rest i⟩
  | mark name =>
    cases h
    exact ⟨Item.laid_copies .., fun c hc haudio => Item.audio_copies hc haudio rest i⟩
  | audio src fallback =>
    cases h
    exact ⟨Item.laid_copies .., fun c hc haudio => Item.audio_copies hc haudio rest i⟩

structure Sited (base i : ℕ) (nodes : Nodes) (copies : List Copy) : Prop where
  laid : Laid copies
  site : ∀ c ∈ copies, c.segment.kind = .audio →
    (∃ a ∈ nodes.audios i, c.isOf (base + a.1) a.2) ∨
      ∃ s ∈ nodes.loopSites (base + i), c.isOf s.source s.fallbackCount

theorem sited_expandElements {loop : Loop} {body : Nodes} {source next : ℕ} {vs : List V}
    (hbody : ∀ s c s', body.expand o host source next s = .ok (c, s') → Sited source 0 body c)
    (h : expandElements host loop (body.expand o host source next) vs staged =
      .ok (copies, staged')) : Sited source 0 body copies := by
  induction vs generalizing staged copies with
  | nil =>
    cases h
    exact ⟨laid_nil, fun c hc => by cases hc⟩
  | cons v vs ih =>
    rw [expandElements] at h
    split at h
    next => cases h
    next s hassign =>
      obtain ⟨c, s', d, hc, hd, rfl⟩ := Expansion.andThen_eq_ok h
      have hfirst := hbody _ _ _ hc
      have hrest := ih hd
      refine ⟨hfirst.laid.append hrest.laid, fun e he => ?_⟩
      rcases List.mem_append.mp he with hleft | hright
      · exact hfirst.site e hleft
      · exact hrest.site e hright

theorem sited_expand (base i : ℕ) {offset : ℕ}
    (h : nodes.expand o host (base + i) offset staged = .ok (copies, staged')) :
    Sited base i nodes copies := by
  induction nodes generalizing base i offset staged staged' copies with
  | nil =>
    cases h
    exact ⟨laid_nil, fun c hc => by cases hc⟩
  | leaf item rest ih =>
    obtain ⟨c, s, d, hc, hd, rfl⟩ := Expansion.andThen_eq_ok h
    rw [Nat.add_assoc] at hd
    have hrest := ih _ _ hd
    obtain ⟨hlaid, hitem⟩ := Item.sited_expand hc rest i
    refine ⟨hlaid.append hrest.laid, fun e he haudio => ?_⟩
    rcases List.mem_append.mp he with hleft | hright
    · obtain ⟨ha, hof⟩ := hitem e hleft haudio
      exact Or.inl ⟨_, ha, hof⟩
    · rcases hrest.site e hright haudio with ⟨a, ha, hof⟩ | ⟨t, ht, hof⟩
      · exact Or.inl ⟨a, Nodes.mem_audios_leaf ha, hof⟩
      · rw [← Nat.add_assoc] at ht
        exact Or.inr ⟨t, ht, hof⟩
  | foreach loop body rest ihbody ihrest =>
    obtain ⟨c, s, d, hc, hd, rfl⟩ := Expansion.andThen_eq_ok h
    rw [Nat.add_assoc] at hd
    have hrest := ihrest _ _ hd
    rw [Loop.expand] at hc
    split at hc
    next => cases hc
    next vs next t helements =>
      split at hc
      next => cases hc
      next t' hdeclare =>
        have hloop := sited_expandElements
          (fun s c s' hcopies => ihbody (base + i) 0 hcopies) hc
        refine ⟨hloop.laid.append hrest.laid, fun e he haudio => ?_⟩
        rcases List.mem_append.mp he with hleft | hright
        · right
          rcases hloop.site e hleft haudio with ⟨a, ha, hof⟩ | ⟨t, ht, hof⟩
          · exact ⟨_, List.mem_append_left _ (List.mem_map.mpr ⟨a, ha, rfl⟩), hof⟩
          · exact ⟨t, List.mem_append_right _ (List.mem_append_left _ ht), hof⟩
        · rcases hrest.site e hright haudio with hown | ⟨t, ht, hof⟩
          · exact Or.inl hown
          · rw [← Nat.add_assoc] at ht
            exact Or.inr
              ⟨t, List.mem_append_right _ (List.mem_append_right _ ht), hof⟩

theorem exists_site {source offset : ℕ}
    (h : nodes.expand o host source offset staged = .ok (copies, staged')) (hc : c ∈ copies)
    (haudio : c.segment.kind = .audio) :
    ∃ s ∈ nodes.sites source, c.isOf s.source s.fallbackCount := by
  have hsited := sited_expand source 0 h
  rcases hsited.site c hc haudio with ⟨a, ha, hof⟩ | ⟨s, hs, hof⟩
  · exact ⟨_, List.mem_append_left _ (List.mem_map.mpr ⟨a, ha, rfl⟩), hof⟩
  · exact ⟨s, List.mem_append_right _ hs, hof⟩

/-! ## The range of a segment -/

variable {P : Program} {row : PromptRow} {prompt : ℕ} {parent : Option ℕ} {depth : ℕ}
  {p : Position}

/-- The row of the innermost loop of a part that holds a segment. -/
def Nodes.owner (prompt : ℕ) : Option ℕ → ℕ → Position → ℕ → Nodes → Option ForeachRow
  | _, _, _, _, .nil => none
  | parent, depth, p, x, .leaf item rest => rest.owner prompt parent depth (p.afterItem item) x
  | parent, depth, p, x, .foreach loop body rest =>
    if (loopRow prompt parent depth p loop body).holds x then
      some ((body.owner prompt (some p.foreach) (depth + 1) p.inLoop x).getD
        (loopRow prompt parent depth p loop body))
    else rest.owner prompt parent depth (p.inLoop.afterNodes body) x

theorem ForeachRow.holds_iff (loop : ForeachRow) (x : ℕ) : loop.holds x = true ↔
    loop.firstSegment ≤ x ∧ x < loop.firstSegment + loop.segmentCount := by
  rw [ForeachRow.holds, decide_eq_true_iff]
  omega

variable {best : Option ForeachRow}

theorem foldl_deeper_of_not_holds {rows : List ForeachRow}
    (h : ∀ r ∈ rows, r.holds x = false) : rows.foldl (deeper x) best = best := by
  induction rows generalizing best with
  | nil => rfl
  | cons r rows ih =>
    have hfirst : deeper x best r = best := by
      rw [deeper, h r List.mem_cons_self]
      rfl
    rw [List.foldl_cons, hfirst]
    exact ih fun q hq => h q (List.mem_cons_of_mem _ hq)

theorem Nodes.not_holds (h : x < p.segment ∨ p.segment + nodes.length ≤ x) {r : ForeachRow}
    (hr : r ∈ nodes.rows prompt parent depth p) : r.holds x = false := by
  obtain ⟨hlo, hhi, -⟩ := Nodes.mem_rows hr
  rw [Bool.eq_false_iff, ne_eq, ForeachRow.holds_iff]
  omega

theorem Nodes.foldl_deeper (hbest : ∀ b, best = some b → b.depth ≤ depth) :
    (nodes.rows prompt parent depth p).foldl (deeper x) best =
      (nodes.owner prompt parent depth p x).or best := by
  induction nodes generalizing parent depth p best with
  | nil => rfl
  | leaf item rest ih => exact ih hbest
  | foreach loop body rest ihbody ihrest =>
    rw [Nodes.rows, List.foldl_cons, List.foldl_append, Nodes.owner]
    by_cases hholds : (loopRow prompt parent depth p loop body).holds x = true
    · -- the loop is deeper than the best so far, and what lies behind it does not hold the segment
      have hdeeper : deeper x best (loopRow prompt parent depth p loop body) =
          some (loopRow prompt parent depth p loop body) := by
        rw [deeper, hholds, Bool.true_and, if_pos]
        cases best with
        | none => rfl
        | some b =>
          have hdepth := hbest b rfl
          exact decide_eq_true (Nat.lt_succ_of_le hdepth)
      have hwithin := (ForeachRow.holds_iff _ x).mp hholds
      have hrest : ∀ r ∈ rest.rows prompt parent depth (p.inLoop.afterNodes body),
          r.holds x = false := by
        intro r hr
        refine Nodes.not_holds (Or.inl ?_) hr
        exact hwithin.2
      rw [if_pos hholds, hdeeper, ihbody, foldl_deeper_of_not_holds hrest]
      · cases body.owner prompt (some p.foreach) (depth + 1) p.inLoop x <;> rfl
      · intro b hb
        cases hb
        exact Nat.le_refl _
    · have hfalse := Bool.eq_false_iff.mpr hholds
      have hdeeper : deeper x best (loopRow prompt parent depth p loop body) = best := by
        rw [deeper, hfalse]
        rfl
      have hbody : ∀ r ∈ body.rows prompt (some p.foreach) (depth + 1) p.inLoop,
          r.holds x = false := by
        intro r hr
        refine Nodes.not_holds ?_ hr
        rw [ForeachRow.holds_iff] at hholds
        change x < p.segment ∨ p.segment + body.length ≤ x
        have hout : ¬(p.segment ≤ x ∧ x < p.segment + body.length) := hholds
        omega
      rw [if_neg hholds, hdeeper, foldl_deeper_of_not_holds hbody, ihrest hbest]

theorem Nodes.owner_of_outside (h : x < p.segment ∨ p.segment + nodes.length ≤ x) :
    nodes.owner prompt parent depth p x = none := by
  induction nodes generalizing parent depth p with
  | nil => rfl
  | leaf item rest ih =>
    rw [Nodes.length_leaf] at h
    refine ih ?_
    simp only [Position.afterItem]
    omega
  | foreach loop body rest ihbody ihrest =>
    rw [Nodes.length_foreach] at h
    have hnot : ¬(loopRow prompt parent depth p loop body).holds x = true := by
      rw [ForeachRow.holds_iff]
      change ¬(p.segment ≤ x ∧ x < p.segment + body.length)
      omega
    rw [Nodes.owner, if_neg hnot]
    refine ihrest ?_
    simp only [Position.inLoop, Position.afterNodes]
    omega

theorem Nodes.owner_of_audio (prompt : ℕ) (parent : Option ℕ) (depth : ℕ) (p : Position) {base : ℕ}
    (hp : p.segment = base + i) (ha : a ∈ nodes.audios i) :
    nodes.owner prompt parent depth p (base + a.1) = none := by
  induction nodes generalizing parent depth p i with
  | nil => cases ha
  | leaf item rest ih =>
    have hnext : (p.afterItem item).segment = base + (i + item.segments.length) := by
      rw [Position.afterItem, hp, Nat.add_assoc]
    cases item with
    | audio src fallback =>
      rcases List.mem_cons.mp ha with rfl | hrest
      · have hlt : base + i < (p.afterItem (.audio src fallback)).segment := by
          rw [hnext, Item.segments, List.length_cons]
          omega
        exact rest.owner_of_outside (Or.inl hlt)
      · exact ih _ _ _ hnext hrest
    | _ => exact ih _ _ _ hnext ha
  | foreach loop body rest ihbody ihrest =>
    have hle := (rest.mem_audios ha).1
    have hnot : ¬(loopRow prompt parent depth p loop body).holds (base + a.1) = true := by
      rw [ForeachRow.holds_iff]
      change ¬(p.segment ≤ base + a.1 ∧ base + a.1 < p.segment + body.length)
      omega
    rw [Nodes.owner, if_neg hnot]
    refine ihrest (i := i + body.length) _ _ _ ?_ ha
    simp only [Position.inLoop, Position.afterNodes]
    omega

structure Scanned (P : Program) (s : Site) (loop : ForeachRow) : Prop where
  base : loop.firstSegment = s.base
  count : loop.fallbackCount = s.rows.length
  rows : ∀ j, j < s.rows.length → P.fallbacks[loop.firstFallback + j]? = s.rows[j]?

theorem Nodes.owner_of_loopSite (prompt : ℕ) (parent : Option ℕ) (depth : ℕ)
    (hfallbacks : ∀ j, j < nodes.fallbackCount →
      P.fallbacks[p.fallback + j]? = (nodes.fallbacks i)[j]?) (hs : s ∈ nodes.loopSites p.segment) :
    ∃ loop, nodes.owner prompt parent depth p s.source = some loop ∧ Scanned P s loop := by
  induction nodes generalizing parent depth p i with
  | nil => cases hs
  | leaf item rest ih =>
    refine ih (p := p.afterItem item) (i := i + item.segments.length) _ _ ?_ hs
    intro j hj
    have hrow := hfallbacks ((item.fallbacks 0).length + j) (by rw [Nodes.fallbackCount]; omega)
    rw [Nodes.fallbacks, item.length_fallbacks 0 i,
      List.getElem?_append_right (Nat.le_add_right _ _), Nat.add_sub_cancel_left] at hrow
    rw [← hrow, Position.afterItem, item.length_fallbacks 0 i]
    rw [Nat.add_assoc]
  | foreach loop body rest ihbody ihrest =>
    have hlength := body.length_fallbacks 0
    have hbodyRows : ∀ j, j < body.fallbackCount →
        P.fallbacks[p.fallback + j]? = (body.fallbacks 0)[j]? := by
      intro j hj
      have hrow := hfallbacks j (by rw [Nodes.fallbackCount]; omega)
      rwa [Nodes.fallbacks, List.getElem?_append_left (by omega)] at hrow
    rw [Nodes.owner]
    rcases List.mem_append.mp hs with hown | hlater
    · obtain ⟨a, ha, rfl⟩ := List.mem_map.mp hown
      have hwithin := Nodes.mem_audios ha
      have hholds : (loopRow prompt parent depth p loop body).holds (p.segment + a.1) = true := by
        rw [ForeachRow.holds_iff]
        change p.segment ≤ p.segment + a.1 ∧ p.segment + a.1 < p.segment + body.length
        omega
      have hnone : body.owner prompt (some p.foreach) (depth + 1) p.inLoop (p.segment + a.1) =
          none :=
        Nodes.owner_of_audio _ _ _ _ (Nat.add_zero _).symm ha
      rw [if_pos hholds, hnone]
      exact ⟨_, rfl, rfl, hlength.symm, fun j hj => hbodyRows j (hlength ▸ hj)⟩
    · rcases List.mem_append.mp hlater with hbody | hrest
      · have hwithin := Nodes.mem_loopSites hbody
        have hholds : (loopRow prompt parent depth p loop body).holds s.source = true := by
          rw [ForeachRow.holds_iff]
          exact hwithin
        obtain ⟨inner, howner, hscanned⟩ := ihbody (p := p.inLoop) (i := 0) (some p.foreach)
          (depth + 1) hbodyRows hbody
        rw [if_pos hholds, howner]
        exact ⟨inner, rfl, hscanned⟩
      · have hwithin := Nodes.mem_loopSites hrest
        have hnot : ¬(loopRow prompt parent depth p loop body).holds s.source = true := by
          rw [ForeachRow.holds_iff]
          change ¬(p.segment ≤ s.source ∧ s.source < p.segment + body.length)
          omega
        rw [if_neg hnot]
        refine ihrest (p := p.inLoop.afterNodes body) (i := i + body.length) _ _ ?_ hrest
        intro j hj
        have hrow := hfallbacks (body.fallbackCount + j) (by rw [Nodes.fallbackCount]; omega)
        rw [Nodes.fallbacks, List.getElem?_append_right (by omega)] at hrow
        have hindex : body.fallbackCount + j - (body.fallbacks 0).length = j := by omega
        rw [hindex] at hrow
        rw [← hrow]
        simp only [Position.inLoop, Position.afterNodes, Nat.add_assoc]

def ForeachRow.owns (f : ℕ) (loop : ForeachRow) : Bool :=
  decide (loop.firstFallback ≤ f ∧ f - loop.firstFallback < loop.fallbackCount)

theorem ForeachRow.owns_iff (f : ℕ) (loop : ForeachRow) : loop.owns f = true ↔
    loop.firstFallback ≤ f ∧ f < loop.firstFallback + loop.fallbackCount := by
  rw [ForeachRow.owns, decide_eq_true_iff]
  omega

theorem Nodes.owns_within {f : ℕ} {r : ForeachRow} (hr : r ∈ nodes.rows prompt parent depth p)
    (h : r.owns f = true) :
    p.fallback ≤ f ∧ f < p.fallback + nodes.fallbackCount := by
  induction nodes generalizing parent depth p with
  | nil => cases hr
  | leaf item rest ih =>
    have hrest := ih hr
    rw [Nodes.fallbackCount]
    simp only [Position.afterItem] at hrest
    omega
  | foreach loop body rest ihbody ihrest =>
    rw [Nodes.fallbackCount]
    rw [Nodes.rows, List.mem_cons, List.mem_append] at hr
    rcases hr with rfl | hbody | hrest
    · rw [ForeachRow.owns_iff] at h
      have hwithin : p.fallback ≤ f ∧ f < p.fallback + body.fallbackCount := h
      omega
    · have hwithin := ihbody hbody
      simp only [Position.inLoop] at hwithin
      omega
    · have hwithin := ihrest hrest
      simp only [Position.inLoop, Position.afterNodes] at hwithin
      omega

theorem map_getElem?_range' {α : Type} {l m : List α} {start : ℕ}
    (h : ∀ j, j < m.length → l[start + j]? = m[j]?) :
    (List.range' start m.length).map (fun f => l[f]?) = m.map some := by
  induction m generalizing start with
  | nil => rfl
  | cons a m ih =>
    have hfirst := h 0 (Nat.succ_pos _)
    have hrest : ∀ j, j < m.length → l[start + 1 + j]? = m[j]? := by
      intro j hj
      have hlater := h (j + 1) (Nat.succ_lt_succ hj)
      rw [List.getElem?_cons_succ] at hlater
      rw [← hlater]
      congr 1
      omega
    rw [List.length_cons, List.range'_succ, List.map_cons, ih hrest, List.map_cons]
    congr 1

theorem Nodes.filter_unowned (owned : ℕ → Bool)
    (howned : ∀ f, p.fallback ≤ f → f < p.fallback + nodes.fallbackCount →
      owned f = (nodes.rows prompt parent depth p).any (ForeachRow.owns f))
    (hfallbacks : ∀ j, j < nodes.fallbackCount →
      P.fallbacks[p.fallback + j]? = (nodes.fallbacks i)[j]?) :
    ((List.range' p.fallback nodes.fallbackCount).filter fun f => !owned f).map
        (fun f => P.fallbacks[f]?) = (nodes.ownFallbacks i).map some := by
  induction nodes generalizing parent depth p i with
  | nil => rfl
  | leaf item rest ih =>
    have hlength : (item.fallbacks i).length = (item.fallbacks 0).length :=
      item.length_fallbacks i 0
    have hown : ((List.range' p.fallback (item.fallbacks 0).length).filter fun f => !owned f) =
        List.range' p.fallback (item.fallbacks 0).length := by
      refine List.filter_eq_self.mpr fun f hf => ?_
      obtain ⟨hlo, hhi⟩ := List.mem_range'_1.mp hf
      rw [howned f hlo (by rw [Nodes.fallbackCount]; omega), Bool.not_eq_true',
        List.any_eq_false]
      intro r hr howns
      have hwithin := Nodes.owns_within (p := p.afterItem item) hr howns
      simp only [Position.afterItem] at hwithin
      omega
    have hrest := ih (p := p.afterItem item) (i := i + item.segments.length)
      (fun f hlo hhi => by
        simp only [Position.afterItem] at hlo hhi
        exact howned f (by omega) (by rw [Nodes.fallbackCount]; omega))
      (fun j hj => by
        have hrow := hfallbacks ((item.fallbacks 0).length + j)
          (by rw [Nodes.fallbackCount]; omega)
        rw [Nodes.fallbacks, ← hlength, List.getElem?_append_right (Nat.le_add_right _ _),
          Nat.add_sub_cancel_left] at hrow
        rw [← hrow, Position.afterItem, hlength]
        rw [Nat.add_assoc])
    have hfirst : (List.range' p.fallback (item.fallbacks 0).length).map
        (fun f => P.fallbacks[f]?) = (item.fallbacks i).map some := by
      rw [← hlength]
      refine map_getElem?_range' fun j hj => ?_
      have hrow := hfallbacks j (by rw [Nodes.fallbackCount]; omega)
      rwa [Nodes.fallbacks, List.getElem?_append_left hj] at hrow
    simp only [Position.afterItem] at hrest
    rw [Nodes.fallbackCount, ← List.range'_append_1, List.filter_append, hown, List.map_append,
      hfirst, hrest, Nodes.ownFallbacks_leaf, List.map_append]
  | foreach loop body rest ihbody ihrest =>
    have hlength := body.length_fallbacks 0
    have hbody : ((List.range' p.fallback body.fallbackCount).filter fun f => !owned f) = [] := by
      refine List.filter_eq_nil_iff.mpr fun f hf => ?_
      obtain ⟨hlo, hhi⟩ := List.mem_range'_1.mp hf
      have howns : (loopRow prompt parent depth p loop body).owns f = true :=
        (ForeachRow.owns_iff ..).mpr ⟨hlo, hhi⟩
      rw [howned f hlo (by rw [Nodes.fallbackCount]; omega), Nodes.rows, List.any_cons, howns]
      simp
    have hrest := @ihrest (i + body.length) parent depth (p.inLoop.afterNodes body)
      (fun f hlo hhi => by
        simp only [Position.inLoop, Position.afterNodes] at hlo hhi
        have hloop : (loopRow prompt parent depth p loop body).owns f = false := by
          rw [Bool.eq_false_iff, ne_eq, ForeachRow.owns_iff]
          change ¬(p.fallback ≤ f ∧ f < p.fallback + body.fallbackCount)
          omega
        have hinner : (body.rows prompt (some p.foreach) (depth + 1) p.inLoop).any
            (ForeachRow.owns f) = false := by
          rw [List.any_eq_false]
          intro r hr howns
          have hwithin := Nodes.owns_within hr howns
          simp only [Position.inLoop] at hwithin
          omega
        rw [howned f (by omega) (by rw [Nodes.fallbackCount]; omega), Nodes.rows, List.any_cons,
          List.any_append, hloop, hinner, Bool.false_or, Bool.false_or])
      (fun j hj => by
        have hrow := hfallbacks (body.fallbackCount + j) (by rw [Nodes.fallbackCount]; omega)
        rw [Nodes.fallbacks, List.getElem?_append_right (by omega)] at hrow
        have hindex : body.fallbackCount + j - (body.fallbacks 0).length = j := by omega
        rw [hindex] at hrow
        rw [← hrow]
        simp only [Position.inLoop, Position.afterNodes, Nat.add_assoc])
    simp only [Position.inLoop, Position.afterNodes] at hrest
    rw [Nodes.fallbackCount, ← List.range'_append_1, List.filter_append, hbody, List.nil_append,
      hrest]
    rfl

/-! ## The scan -/

/-- `scanFallbacks` over the rows themselves. -/
def scanRows (P : Program) (base projectedCount index source : ℕ) :
    List Fallback → List Fallback → Except Status (List Fallback)
  | [], out => .ok out
  | fallback :: rest, out =>
    if base + fallback.audioSegmentIndex ≠ source then
      scanRows P base projectedCount index source rest out
    else if fallback.firstFallbackSegment < fallback.audioSegmentIndex then
      .error .invalidStructure
    else
      let first := index + (fallback.firstFallbackSegment - fallback.audioSegmentIndex)
      if fallback.fallbackSegmentCount = 0 ∨ projectedCount ≤ first ∨
          projectedCount - first < fallback.fallbackSegmentCount ∨
          P.segmentCapacity ≤ out.length then .error .invalidStructure
      else
        scanRows P base projectedCount index source rest
          (out ++ [⟨index, first, fallback.fallbackSegmentCount⟩])

variable {base projectedCount index source : ℕ} {rows out : List Fallback}

theorem scanFallbacks_eq {owner : Option ForeachRow} {indexes : List ℕ}
    (h : (indexes.filter fun f => !(owner.isNone && fallbackOwnedByForeach P row f)).map
      (fun f => P.fallbacks[f]?) = rows.map some) :
    scanFallbacks P row owner base projectedCount index source indexes out =
      scanRows P base projectedCount index source rows out := by
  induction indexes generalizing rows out with
  | nil =>
    have hnil : rows = [] := List.map_eq_nil_iff.mp h.symm
    rw [hnil]
    rfl
  | cons f indexes ih =>
    rw [scanFallbacks]
    by_cases hskip : owner = none ∧ fallbackOwnedByForeach P row f = true
    · rw [if_pos hskip]
      rw [List.filter_cons_of_neg (by rw [hskip.1, hskip.2]; decide)] at h
      exact ih h
    · have hkeep : (!(owner.isNone && fallbackOwnedByForeach P row f)) = true := by
        rw [Bool.not_eq_true', Bool.eq_false_iff, ne_eq, Bool.and_eq_true,
          Option.isNone_iff_eq_none]
        exact hskip
      rw [if_neg hskip]
      rw [List.filter_cons_of_pos (p := fun f =>
        !(owner.isNone && fallbackOwnedByForeach P row f)) hkeep, List.map_cons] at h
      cases rows with
      | nil => cases h
      | cons r rows =>
        rw [List.map_cons, List.cons.injEq] at h
        rw [h.1, scanRows]
        dsimp only
        split
        next => exact ih h.2
        next =>
          split
          next => rfl
          next =>
            split
            next => rfl
            next => exact ih h.2

theorem scanRows_taken (rows out : List Fallback) :
    scanRows P base projectedCount index source rows out =
      scanRows P base projectedCount index source (taken base source rows) out := by
  induction rows generalizing out with
  | nil => rfl
  | cons r rows ih =>
    by_cases hr : base + r.audioSegmentIndex = source
    · have hcons : taken base source (r :: rows) = r :: taken base source rows :=
        List.filter_cons_of_pos (beq_iff_eq.mpr hr)
      rw [hcons, scanRows, scanRows, ih]
      dsimp only
      rw [ih (out ++ _)]
    · have hcons : taken base source (r :: rows) = taken base source rows :=
        List.filter_cons_of_neg (fun h => hr (beq_iff_eq.mp h))
      rw [hcons, scanRows, if_pos hr, ih]

theorem length_scanRows {out' : List Fallback}
    (h : scanRows P base projectedCount index source rows out = .ok out') :
    out'.length = out.length + (taken base source rows).length := by
  induction rows generalizing out with
  | nil =>
    cases h
    rfl
  | cons r rows ih =>
    rw [scanRows] at h
    split at h
    next hne =>
      have hcons : taken base source (r :: rows) = taken base source rows :=
        List.filter_cons_of_neg (fun heq => hne (beq_iff_eq.mp heq))
      rw [hcons]
      exact ih h
    next heq =>
      have hcons : taken base source (r :: rows) = r :: taken base source rows :=
        List.filter_cons_of_pos (beq_iff_eq.mpr (not_not.mp heq))
      split at h
      next => cases h
      next =>
        dsimp only at h
        split at h
        next => cases h
        next =>
          rw [ih h, hcons, List.length_append, List.length_singleton, List.length_cons]
          omega

theorem scanRows_own (out : List Fallback) (htaken : taken base source rows = audioRows a)
    (hsource : base + a.1 = source) (hroom : a.2 ≠ 0 → index + a.2 < projectedCount)
    (hout : out.length < P.segmentCapacity) :
    scanRows P base projectedCount index source rows out =
      .ok (out ++ if a.2 = 0 then [] else [⟨index, index + 1, a.2⟩]) := by
  rw [scanRows_taken, htaken, audioRows]
  by_cases hzero : a.2 = 0
  · rw [if_pos hzero, if_pos hzero, List.append_nil]
    rfl
  · have hwithin := hroom hzero
    rw [if_neg hzero, if_neg hzero, scanRows]
    dsimp only
    rw [if_neg (not_not.mpr hsource), if_neg (by omega), if_neg (by omega), scanRows,
      Nat.add_sub_cancel_left]

/-! ## The rows of a projection -/

structure Tabled (P : Program) (row : PromptRow) (prompt : ℕ) (nodes : Nodes) (p : Position) :
    Prop where
  row_eq : row = promptRow p nodes
  foreachRows : P.foreachRows row = (nodes.rows prompt none 0 p).zipIdx p.foreach
  fallbacks : ∀ j, j < nodes.fallbackCount →
    P.fallbacks[p.fallback + j]? = (nodes.fallbacks 0)[j]?

variable (h : Tabled P row prompt nodes p)
include h

theorem Tabled.foreachForSourceSegment_eq (x : ℕ) :
    foreachForSourceSegment P row x = nodes.owner prompt none 0 p x := by
  have hfold : ∀ (l : List ForeachRow) (k : ℕ) (best : Option ForeachRow),
      (l.zipIdx k).foldl (fun b r => deeper x b r.1) best = l.foldl (deeper x) best := by
    intro l k best
    rw [← List.foldl_map, List.zipIdx_map_fst]
  rw [foreachForSourceSegment, h.foreachRows, hfold, Nodes.foldl_deeper, Option.or_none]
  intro b hb
  cases hb

theorem Tabled.fallbackOwnedByForeach_eq (f : ℕ) : fallbackOwnedByForeach P row f =
      (nodes.rows prompt none 0 p).any (ForeachRow.owns f) := by
  have hany : ∀ (l : List ForeachRow) (k : ℕ),
      ((l.zipIdx k).any fun r => ForeachRow.owns f r.1) = l.any (ForeachRow.owns f) := by
    intro l k
    have hmap := List.any_map (f := Prod.fst) (p := ForeachRow.owns f) (l := l.zipIdx k)
    rw [List.zipIdx_map_fst] at hmap
    exact hmap.symm
  rw [← hany _ p.foreach, ← h.foreachRows]
  rfl

theorem Tabled.scan_eq (hs : s ∈ nodes.sites p.segment) (out : List Fallback) :
    scanFallbacks P row (foreachForSourceSegment P row s.source)
        (fallbackRange row (foreachForSourceSegment P row s.source)).2.2 projectedCount index
        s.source
        (List.range' (fallbackRange row (foreachForSourceSegment P row s.source)).1
          (fallbackRange row (foreachForSourceSegment P row s.source)).2.1) out =
      scanRows P s.base projectedCount index s.source s.rows out := by
  rw [h.foreachForSourceSegment_eq]
  rcases List.mem_append.mp hs with hown | hloops
  · obtain ⟨a, ha, rfl⟩ := List.mem_map.mp hown
    have hnone := Nodes.owner_of_audio (i := 0) prompt none 0 p rfl ha
    rw [hnone, h.row_eq]
    refine scanFallbacks_eq ?_
    have hrows := Nodes.filter_unowned (i := 0) (fallbackOwnedByForeach P row)
      (fun f _ _ => h.fallbackOwnedByForeach_eq f) h.fallbacks
    rw [← h.row_eq]
    rw [h.row_eq] at hrows ⊢
    exact hrows
  · obtain ⟨loop, howner, hscanned⟩ := Nodes.owner_of_loopSite (i := 0) prompt none 0
      h.fallbacks hloops
    rw [howner, fallbackRange]
    rw [hscanned.base, hscanned.count]
    refine scanFallbacks_eq ?_
    have hall : ((List.range' loop.firstFallback s.rows.length).filter fun f =>
        !((some loop).isNone && fallbackOwnedByForeach P row f)) =
        List.range' loop.firstFallback s.rows.length :=
      List.filter_eq_self.mpr fun f _ => by simp
    rw [hall]
    exact map_getElem?_range' hscanned.rows

omit h

/-- No copied audio clashes with a row of an inner loop. -/
def Unclashed (nodes : Nodes) (source : ℕ) (copies : List Copy) : Prop :=
  ∀ c ∈ copies, c.segment.kind = .audio → ∀ s ∈ nodes.sites source, s.source = c.source →
    s.clashes = false

structure Remaining (nodes : Nodes) (source projectedCount index : ℕ) (copies : List Copy) :
    Prop where
  count : index + copies.length = projectedCount
  laid : Laid copies
  site : ∀ c ∈ copies, c.segment.kind = .audio →
    ∃ s ∈ nodes.sites source, c.isOf s.source s.fallbackCount

theorem Remaining.tail {rest : List Copy}
    (h : Remaining nodes source projectedCount index (c :: rest)) :
    Remaining nodes source projectedCount (index + 1) rest where
  count := by
    have hcount := h.count
    rw [List.length_cons] at hcount
    omega
  laid :=
    { audio := fun d hd => h.laid.audio d (List.mem_cons_of_mem _ hd)
      within := by
        intro j d hj
        have hwithin := h.laid.within (j + 1) d hj
        rw [List.length_cons] at hwithin
        omega }
  site := fun d hd => h.site d (List.mem_cons_of_mem _ hd)

def projected (copies : List Copy) : List (Segment × ℕ) :=
  copies.map fun c => (c.segment, c.source)

variable (h : Tabled P row prompt nodes p)
include h

theorem projectFallbacksFrom_eq (hremaining : Remaining nodes p.segment projectedCount index copies)
    (hunclashed : Unclashed nodes p.segment copies) (hout : out.length ≤ index)
    (hcapacity : projectedCount ≤ P.segmentCapacity) :
    projectFallbacksFrom P row projectedCount index (projected copies) out =
      .ok (out ++ fallbackRowsFrom index copies) := by
  induction copies generalizing index out with
  | nil => exact congrArg Except.ok (List.append_nil _).symm
  | cons c rest ih =>
    have hcount := hremaining.count
    rw [List.length_cons] at hcount
    have hrest := fun out hout => @ih (index + 1) out hremaining.tail
      (fun d hd => hunclashed d (List.mem_cons_of_mem _ hd)) hout
    change projectFallbacksFrom P row projectedCount index
      ((c.segment, c.source) :: projected rest) out = _
    rw [projectFallbacksFrom, fallbackRowsFrom]
    by_cases haudio : c.segment.kind = .audio
    · obtain ⟨s, hs, hsource, hfallbacks⟩ := hremaining.site c List.mem_cons_self haudio
      have hclash := hunclashed c List.mem_cons_self haudio s hs hsource.symm
      have hproper := Nodes.proper_sites hs
      have hwithin := hremaining.laid.within 0 c rfl
      rw [List.length_cons] at hwithin
      have hcounts : s.fallbackCount ≠ 0 → index + s.fallbackCount < projectedCount :=
        fun _ => by omega
      have hscan := scanRows_own (P := P) out (hproper.taken_eq hclash)
        (Nat.add_sub_cancel' hproper.base_le) hcounts (by omega)
      rw [if_neg (not_not.mpr haudio), hsource]
      dsimp only
      rw [h.scan_eq hs, hscan]
      dsimp only
      rw [hrest _ ?_, hfallbacks, List.append_assoc]
      split <;> simp <;> omega
    · rw [if_pos haudio, hremaining.laid.audio c List.mem_cons_self haudio, if_pos rfl,
        List.nil_append]
      exact hrest out (by omega)

theorem length_projectFallbacksFrom {out' : List Fallback}
    (hremaining : Remaining nodes p.segment projectedCount index copies)
    (hok : projectFallbacksFrom P row projectedCount index (projected copies) out = .ok out') :
    out.length + (fallbackRowsFrom index copies).length ≤ out'.length ∧
      (¬Unclashed nodes p.segment copies →
        out.length + (fallbackRowsFrom index copies).length < out'.length) := by
  induction copies generalizing index out with
  | nil =>
    cases hok
    refine ⟨Nat.le_refl _, fun hnot => absurd ?_ hnot⟩
    intro c hc
    cases hc
  | cons c rest ih =>
    have hrest := fun out hok => @ih (index + 1) out hremaining.tail hok
    change projectFallbacksFrom P row projectedCount index
      ((c.segment, c.source) :: projected rest) out = _ at hok
    rw [projectFallbacksFrom] at hok
    rw [fallbackRowsFrom, List.length_append]
    by_cases haudio : c.segment.kind = .audio
    · obtain ⟨s, hs, hsource, hfallbacks⟩ := hremaining.site c List.mem_cons_self haudio
      rw [if_neg (not_not.mpr haudio), hsource] at hok
      dsimp only at hok
      rw [h.scan_eq hs] at hok
      split at hok
      next t ht => cases hok
      next mid hmid =>
        have hlength := length_scanRows hmid
        have htaken := (Nodes.proper_sites hs).length_taken
        obtain ⟨hle, hlt⟩ := hrest mid hok
        have hown : (if c.fallbacks = 0 then ([] : List Fallback)
            else [⟨index, index + 1, c.fallbacks⟩]).length =
              if s.fallbackCount = 0 then 0 else 1 := by
          rw [hfallbacks]
          split <;> rfl
        refine ⟨by omega, fun hnot => ?_⟩
        by_cases hclash : s.clashes = true
        · rw [if_pos hclash] at htaken
          omega
        · -- the clash is behind this copy
          have hlater : ¬Unclashed nodes p.segment rest := by
            intro hrestUnclashed
            refine hnot fun d hd hkind t ht hsame => ?_
            rcases List.mem_cons.mp hd with rfl | hmem
            · rw [Nodes.eq_of_source_eq ht hs (hsame.trans hsource)]
              exact Bool.eq_false_iff.mpr hclash
            · exact hrestUnclashed d hmem hkind t ht hsame
          have hmore := hlt hlater
          omega
    · rw [if_pos haudio] at hok
      obtain ⟨hle, hlt⟩ := hrest out hok
      rw [hremaining.laid.audio c List.mem_cons_self haudio, if_pos rfl, List.length_nil,
        Nat.zero_add]
      refine ⟨hle, fun hnot => hlt fun hrestUnclashed => hnot fun d hd hkind t ht hsame => ?_⟩
      rcases List.mem_cons.mp hd with rfl | hmem
      · exact absurd hkind haudio
      · exact hrestUnclashed d hmem hkind t ht hsame

/-- The rows are right exactly when no copied audio clashes. -/
theorem projectFallbacksFrom_iff (hremaining : Remaining nodes p.segment copies.length 0 copies)
    (hcapacity : copies.length ≤ P.segmentCapacity) :
    projectFallbacksFrom P row copies.length 0 (projected copies) [] = .ok (fallbackRows copies) ↔
      Unclashed nodes p.segment copies := by
  constructor
  · intro hok
    by_contra hnot
    have hlt := (length_projectFallbacksFrom h hremaining hok).2 hnot
    rw [List.length_nil, Nat.zero_add, ← fallbackRows] at hlt
    exact Nat.lt_irrefl _ hlt
  · intro hunclashed
    exact projectFallbacksFrom_eq h hremaining hunclashed (Nat.zero_le _) hcapacity

end TurboScxml.Voice.Prompts
