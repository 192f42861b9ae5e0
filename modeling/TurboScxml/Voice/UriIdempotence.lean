import TurboScxml.Voice.UriNormalization
import Mathlib.Data.List.Induction

/-!
# Normalising twice

A normalised URI is its own cache key if the normaliser leaves it as it is. It does so unless a path
without a leading slash keeps a parent segment, as the output has a leading slash.

* `depth`, `Unpaired`: the number of segments that are kept, and a parent segment that stays;
* `normalizePath_again`: the paths that are normalised once and for all;
* **`normalizeAbsoluteUri_again`**: the URIs that are, and the resolved ones.
-/

namespace TurboScxml.Voice

open Uri

/-! ## Parent segments that stay -/

/-- The segments that are kept. -/
def depth : ℕ → List Text → ℕ
  | n, [] => n
  | n, s :: rest =>
    if s = [] ∨ s = ['.'] then depth n rest
    else if s = ['.', '.'] then depth (if n = 0 then 1 else n - 1) rest
    else depth (n + 1) rest

/-- A parent segment that nothing removes. -/
def Unpaired (segments : List Text) : Prop :=
  ∃ front rest, segments = front ++ ['.', '.'] :: rest ∧ depth 0 front = 0 ∧
    ∀ part, part <+: rest → depth 1 part ≠ 0

def KeepsParent (path : Text) : Prop := path.head? ≠ some '/' ∧ Unpaired (pathSegments path)

theorem depth_append (n : ℕ) (l l' : List Text) : depth n (l ++ l') = depth (depth n l) l' := by
  induction l generalizing n with
  | nil => rfl
  | cons s rest ih =>
    rw [List.cons_append, depth, depth]
    split_ifs
    · exact ih n
    · exact ih _
    · exact ih _
    · exact ih _

theorem length_normalizeWalk (stack segments : List Text) :
    (normalizeWalk false stack segments).length = depth stack.length segments := by
  induction segments generalizing stack with
  | nil => rfl
  | cons s rest ih =>
    have hstep := ih (normalizeStep false stack s)
    rw [depth]
    refine hstep.trans ?_
    unfold normalizeStep
    split_ifs with hskip hdotdot hroot hzero hzero
    · rfl
    · rfl
    · exact absurd (by rw [hroot.1]; rfl) hzero
    · exact absurd ⟨List.length_eq_zero_iff.mp hzero, rfl⟩ hroot
    · rw [List.length_tail]
    · rfl

structure Bottomed (segments stack : List Text) : Prop where
  bottom : stack.getLast? = some ['.', '.'] ↔ Unpaired segments
  above : ∀ s ∈ stack.dropLast, s ≠ ['.', '.']
  names : ∀ s ∈ stack, s ≠ ['.'] ∧ s ≠ []

theorem unpaired_concat (segments : List Text) (s : Text) :
    Unpaired (segments ++ [s]) ↔
      (Unpaired segments ∧ depth 0 (segments ++ [s]) ≠ 0) ∨
        (s = ['.', '.'] ∧ depth 0 segments = 0) := by
  constructor
  · rintro ⟨front, rest, heq, hfront, hrest⟩
    rcases List.eq_nil_or_concat rest with rfl | ⟨rest', t, rfl⟩
    · obtain ⟨rfl, hs⟩ := List.append_inj' heq rfl
      exact .inr ⟨List.singleton_inj.mp hs, hfront⟩
    · rw [List.concat_eq_append, ← List.cons_append, ← List.append_assoc] at heq
      obtain ⟨rfl, hs⟩ := List.append_inj' heq rfl
      refine .inl ⟨⟨front, rest', rfl, hfront, fun part hpart => hrest part ?_⟩, ?_⟩
      · rw [List.concat_eq_append]
        exact hpart.trans (List.prefix_append _ _)
      · rw [List.singleton_inj.mp hs, depth_append, depth_append, hfront]
        have hlast := hrest (rest'.concat t) (List.prefix_refl _)
        rw [List.concat_eq_append, depth_append] at hlast
        exact hlast
  · rintro (⟨⟨front, rest, rfl, hfront, hrest⟩, hdepth⟩ | ⟨rfl, hdepth⟩)
    · refine ⟨front, rest ++ [s], by simp, hfront, fun part hpart => ?_⟩
      rcases List.prefix_concat_iff.mp hpart with rfl | hpart
      · rw [List.append_assoc, depth_append, hfront] at hdepth
        exact hdepth
      · exact hrest part hpart
    · exact ⟨segments, [], rfl, hdepth, fun part hpart => by
        rw [List.prefix_nil.mp hpart]
        exact Nat.one_ne_zero⟩

theorem Unpaired.depth_ne {segments : List Text} (h : Unpaired segments) :
    depth 0 segments ≠ 0 := by
  obtain ⟨front, rest, rfl, hfront, hrest⟩ := h
  rw [depth_append, hfront]
  exact hrest rest (List.prefix_refl _)

section

variable {segments stack : List Text} {s : Text}

theorem Bottomed.skip (h : Bottomed segments stack) (hs : s = [] ∨ s = ['.']) :
    Bottomed (segments ++ [s]) stack where
  bottom := by
    rw [unpaired_concat, depth_append, depth, if_pos hs, depth, h.bottom]
    constructor
    · exact fun hunpaired => .inl ⟨hunpaired, hunpaired.depth_ne⟩
    · rintro (⟨hunpaired, -⟩ | ⟨rfl, -⟩)
      · exact hunpaired
      · rcases hs with hs | hs <;> cases hs
  above := h.above
  names := h.names

theorem bottomed_parent (hdepth : depth 0 segments = 0) :
    Bottomed (segments ++ [['.', '.']]) [['.', '.']] where
  bottom := iff_of_true rfl ((unpaired_concat _ _).mpr (.inr ⟨rfl, hdepth⟩))
  above := by simp
  names := by simp

theorem Bottomed.pop {t : Text} (h : Bottomed segments (t :: stack))
    (hdepth : depth 0 segments = stack.length + 1) :
    Bottomed (segments ++ [['.', '.']]) stack where
  bottom := by
    have hnext : depth 0 (segments ++ [['.', '.']]) = stack.length := by
      rw [depth_append, hdepth]
      rfl
    rw [unpaired_concat, hnext, hdepth, ← h.bottom]
    cases stack with
    | nil => simp
    | cons u stack => simp
  above := by
    intro u hu
    refine h.above u ?_
    cases stack with
    | nil => cases hu
    | cons v stack => exact List.mem_cons_of_mem t hu
  names := fun u hu => h.names u (List.mem_cons_of_mem t hu)

theorem Bottomed.push (h : Bottomed segments stack) (hdepth : depth 0 segments = stack.length)
    (hskip : ¬(s = [] ∨ s = ['.'])) (hparent : s ≠ ['.', '.']) :
    Bottomed (segments ++ [s]) (s :: stack) where
  bottom := by
    have hnext : depth 0 (segments ++ [s]) = stack.length + 1 := by
      rw [depth_append, hdepth, depth, if_neg hskip, if_neg hparent, depth]
    rw [unpaired_concat, hnext, ← h.bottom]
    cases stack with
    | nil => simp [hparent]
    | cons u stack => simp [hparent]
  above := by
    intro u hu
    cases stack with
    | nil => cases hu
    | cons v stack =>
      rcases List.mem_cons.mp hu with rfl | hu
      · exact hparent
      · exact h.above u hu
  names := by
    intro u hu
    rcases List.mem_cons.mp hu with rfl | hu
    · exact ⟨fun hdot => hskip (.inr hdot), fun hnil => hskip (.inl hnil)⟩
    · exact h.names u hu

end

/-- **The stack of the walk** for a path without a leading slash. -/
theorem bottomed_normalizeWalk (segments : List Text) :
    Bottomed segments (normalizeWalk false [] segments) := by
  induction segments using List.reverseRecOn with
  | nil =>
    refine ⟨iff_of_false (by simp [normalizeWalk]) ?_, by simp [normalizeWalk], by
      simp [normalizeWalk]⟩
    exact fun h => h.depth_ne rfl
  | append_singleton segments s ih =>
    have hdepth : depth 0 segments = (normalizeWalk false [] segments).length :=
      (length_normalizeWalk [] segments).symm
    have hwalk : normalizeWalk false [] (segments ++ [s]) =
        normalizeStep false (normalizeWalk false [] segments) s := List.foldl_append ..
    rw [hwalk]
    revert ih hdepth
    generalize normalizeWalk false [] segments = stack
    intro ih hdepth
    unfold normalizeStep
    split_ifs with hskip hdotdot hroot
    · exact ih.skip hskip
    · obtain ⟨rfl, -⟩ := hroot
      subst hdotdot
      exact bottomed_parent hdepth
    · subst hdotdot
      cases stack with
      | nil => exact absurd ⟨rfl, rfl⟩ hroot
      | cons t stack => exact ih.pop hdepth
    · exact ih.push hdepth hskip hdotdot

/-! ## Paths that are normalised once and for all -/

theorem normalizeWalk_rooted {stack : List Text} (segments : List Text)
    (h : ∀ s ∈ stack, s ≠ ['.', '.'] ∧ s ≠ ['.'] ∧ s ≠ []) :
    ∀ s ∈ normalizeWalk true stack segments, s ≠ ['.', '.'] ∧ s ≠ ['.'] ∧ s ≠ [] := by
  induction segments generalizing stack with
  | nil => exact h
  | cons s rest ih =>
    refine @ih (normalizeStep true stack s) fun t ht => ?_
    unfold normalizeStep at ht
    split_ifs at ht with hskip hdotdot hroot
    · exact h t ht
    · exact absurd hroot.2 (by decide)
    · exact h t (List.mem_of_mem_tail ht)
    · rcases List.mem_cons.mp ht with rfl | ht
      · exact ⟨hdotdot, fun hdot => hskip (.inr hdot), fun hnil => hskip (.inl hnil)⟩
      · exact h t ht

theorem normalizeWalk_names {segments : List Text} (stack : List Text)
    (h : ∀ s ∈ segments, s ≠ ['.', '.'] ∧ s ≠ ['.'] ∧ s ≠ []) :
    normalizeWalk true stack segments = segments.reverse ++ stack := by
  induction segments generalizing stack with
  | nil => rfl
  | cons s rest ih =>
    obtain ⟨hparent, hdot, hnil⟩ := h s List.mem_cons_self
    have hstep : normalizeStep true stack s = s :: stack := by
      unfold normalizeStep
      rw [if_neg (not_or.mpr ⟨hnil, hdot⟩), if_neg hparent]
    have hrest := ih (s :: stack) fun t ht => h t (List.mem_cons_of_mem s ht)
    refine (congrArg (fun st => normalizeWalk true st rest) hstep).trans ?_
    rw [hrest, List.reverse_cons, List.append_assoc]
    rfl

theorem normalizeWalk_reverse_iff {stack : List Text}
    (h : ∀ s ∈ stack, s ≠ ['.'] ∧ s ≠ []) :
    normalizeWalk true [] stack.reverse = stack ↔ ['.', '.'] ∉ stack := by
  constructor
  · intro heq hmem
    rw [← heq] at hmem
    exact (normalizeWalk_rooted stack.reverse (by simp) _ hmem).1 rfl
  · intro hparent
    rw [normalizeWalk_names, List.reverse_reverse, List.append_nil]
    intro s hs
    obtain ⟨hdot, hnil⟩ := h s (List.mem_reverse.mp hs)
    exact ⟨fun heq => hparent (heq ▸ List.mem_reverse.mp hs), hdot, hnil⟩

variable {l : List Text}

theorem pathSegments_slashed (hne : l ≠ []) (hl : ∀ s ∈ l, '/' ∉ s) :
    pathSegments (slashed l) = l := by
  cases l with
  | nil => exact absurd rfl hne
  | cons s rest =>
    have hpath := pathSegments_path (slashed (s :: rest))
    exact slashed_injective (pathSegments_not_mem _) hl hpath.symm

section

variable {stack : List Text} (hstack : ∀ s ∈ stack, s ≠ [] ∧ '/' ∉ s)

include hstack

theorem normalizePath_closed :
    normalizePath (slashed (stack.reverse ++ [[]])) =
      slashed ((normalizeWalk true [] stack.reverse).reverse ++ [[]]) := by
  have hslash : ∀ s ∈ stack.reverse ++ [[]], '/' ∉ s := by
    intro s hs
    rcases List.mem_append.mp hs with hs | hs
    · exact (hstack s (List.mem_reverse.mp hs)).2
    · rw [List.mem_singleton.mp hs]
      exact List.not_mem_nil
  have hhead : (slashed (stack.reverse ++ [[]])).head? = some '/' := by
    cases stack.reverse <;> rfl
  have hlast : (slashed (stack.reverse ++ [[]])).getLast? = some '/' := by
    rw [slashed_append, List.getLast?_append]
    rfl
  rw [normalizePath, hhead, hlast, pathSegments_slashed (by simp) hslash]
  have hwalk : normalizeWalk true [] (stack.reverse ++ [[]]) =
      normalizeWalk true [] stack.reverse := List.foldl_append ..
  rw [show (some '/' == some '/') = true from rfl, hwalk, normalizedPath, if_pos (.inl rfl)]

theorem normalizePath_open (hne : stack ≠ []) :
    normalizePath (slashed stack.reverse) =
      normalizedPath true false (normalizeWalk true [] stack.reverse) := by
  have hslash : ∀ s ∈ stack.reverse, '/' ∉ s := fun s hs =>
    (hstack s (List.mem_reverse.mp hs)).2
  obtain ⟨s, rest, rfl⟩ := List.exists_cons_of_ne_nil hne
  obtain ⟨hs, hslash'⟩ := hstack s List.mem_cons_self
  obtain ⟨c, hc, hlast⟩ := slashed_getLast? hs hslash' rest
  have hhead : (slashed (s :: rest).reverse).head? = some '/' := by
    rw [List.reverse_cons]
    cases rest.reverse <;> rfl
  have hopen : (some c == some '/') = false := by simpa using hc
  rw [normalizePath, hhead, hlast, pathSegments_slashed (by simp) hslash, hopen]
  rfl

/-- **The path of a stack** is normalised unless it has a parent segment. -/
theorem normalizePath_normalizedPath (hdot : ∀ s ∈ stack, s ≠ ['.']) (leading closed : Bool) :
    normalizePath (normalizedPath leading closed stack) = normalizedPath leading closed stack ↔
      ['.', '.'] ∉ stack := by
  rw [← normalizeWalk_reverse_iff fun s hs => ⟨hdot s hs, (hstack s hs).1⟩]
  have hplain : ∀ s ∈ normalizeWalk true [] stack.reverse, s ≠ [] ∧ '/' ∉ s :=
    normalizeWalk_nil_plain true fun s hs => (hstack s (List.mem_reverse.mp hs)).2
  have hrev : ∀ {l : List Text}, (∀ s ∈ l, s ≠ [] ∧ '/' ∉ s) → ∀ s ∈ l.reverse, '/' ∉ s :=
    fun hl s hs => (hl s (List.mem_reverse.mp hs)).2
  have hinjective : slashed (normalizeWalk true [] stack.reverse).reverse =
      slashed stack.reverse ↔ normalizeWalk true [] stack.reverse = stack :=
    ⟨fun heq => List.reverse_injective (slashed_injective (hrev hplain) (hrev hstack) heq),
      fun heq => by rw [heq]⟩
  rw [← hinjective]
  by_cases hclosed : closed = true ∨ (leading = true ∧ stack = [])
  · rw [normalizedPath, if_pos hclosed, normalizePath_closed hstack, slashed_append,
      slashed_append]
    exact List.append_left_inj _
  · rw [normalizedPath, if_neg hclosed]
    by_cases hne : stack = []
    · subst hne
      exact iff_of_true rfl rfl
    · rw [normalizePath_open hstack hne, normalizedPath]
      by_cases hnil : normalizeWalk true [] stack.reverse = []
      · rw [if_pos (.inr ⟨rfl, hnil⟩), hnil]
        refine iff_of_false (fun heq => ?_) fun heq => ?_
        · have hsame := slashed_injective (by simp) (hrev hstack) heq
          exact (hstack [] (List.mem_reverse.mp (hsame ▸ List.mem_singleton_self _))).1 rfl
        · exact hne (List.reverse_eq_nil_iff.mp (slashed_eq_nil.mp heq.symm))
      · rw [if_neg]
        rintro (hfalse | ⟨-, heq⟩)
        · cases hfalse
        · exact hnil heq

end

/-- **The paths that are normalised once and for all.** -/
theorem normalizePath_again (path : Text) :
    normalizePath (normalizePath path) = normalizePath path ↔ ¬KeepsParent path := by
  have hplain := fun leading =>
    normalizeWalk_nil_plain leading (pathSegments_not_mem path)
  have hpath : normalizePath path = normalizedPath (path.head? == some '/')
      (path.getLast? == some '/')
      (normalizeWalk (path.head? == some '/') [] (pathSegments path)) := rfl
  rw [hpath, KeepsParent]
  cases hleading : path.head? == some '/' with
  | true =>
    have hrooted := @normalizeWalk_rooted [] (pathSegments path) (by simp)
    rw [normalizePath_normalizedPath (hplain true) fun s hs => (hrooted s hs).2.1]
    refine iff_of_true (fun hmem => (hrooted _ hmem).1 rfl) fun hkeeps => hkeeps.1 ?_
    exact beq_iff_eq.mp hleading
  | false =>
    have hbottomed := bottomed_normalizeWalk (pathSegments path)
    rw [normalizePath_normalizedPath (hplain false) fun s hs => (hbottomed.names s hs).1,
      ← hbottomed.bottom, not_iff_not.symm, not_not, not_not]
    have hhead : path.head? ≠ some '/' := by simpa using hleading
    rw [and_iff_right hhead]
    constructor
    · intro hmem
      by_contra hlast
      rcases List.eq_nil_or_concat (normalizeWalk false [] (pathSegments path)) with
        hnil | ⟨l, s, h⟩
      · rw [hnil] at hmem
        cases hmem
      · rw [h, List.concat_eq_append] at hmem hlast
        rw [List.getLast?_concat] at hlast
        have habove := hbottomed.above
        rw [h, List.concat_eq_append, List.dropLast_concat] at habove
        rcases List.mem_append.mp hmem with hmem | hmem
        · exact habove _ hmem rfl
        · exact hlast (by rw [List.mem_singleton.mp hmem])
    · exact List.mem_of_getLast?

/-! ## URIs that are normalised once and for all -/

theorem mem_normalizeWalk (leading : Bool) {stack segments : List Text} {s : Text}
    (h : s ∈ normalizeWalk leading stack segments) :
    s ∈ stack ∨ s ∈ segments ∨ s = ['.', '.'] := by
  induction segments generalizing stack with
  | nil => exact .inl h
  | cons t rest ih =>
    rcases @ih (normalizeStep leading stack t) h with hstep | hrest | hparent
    · unfold normalizeStep at hstep
      split_ifs at hstep
      · exact .inl hstep
      · exact .inr (.inr (List.mem_singleton.mp hstep))
      · exact .inl (List.mem_of_mem_tail hstep)
      · rcases List.mem_cons.mp hstep with rfl | hstack
        · exact .inr (.inl List.mem_cons_self)
        · exact .inl hstack
    · exact .inr (.inl (List.mem_cons_of_mem t hrest))
    · exact .inr (.inr hparent)

variable {c : Char}

theorem mem_slashed (h : c ∈ slashed l) : c = '/' ∨ ∃ s ∈ l, c ∈ s := by
  obtain ⟨s, hs, hc⟩ := List.mem_flatMap.mp h
  rcases List.mem_cons.mp hc with rfl | hc
  · exact .inl rfl
  · exact .inr ⟨s, hs, hc⟩

variable {path : Text}

theorem mem_of_mem_pathSegments {s : Text} (hs : s ∈ pathSegments path) (hc : c ∈ s) :
    c ∈ path := by
  have hmem : ∀ l : List Text, s ∈ l → c ∈ slashed l := fun l hl =>
    List.mem_flatMap.mpr ⟨s, hl, List.mem_cons_of_mem _ hc⟩
  rw [pathSegments_path path]
  split_ifs
  · exact hmem _ hs
  · cases hsegments : pathSegments path with
    | nil =>
      rw [hsegments] at hs
      cases hs
    | cons t rest =>
      rw [hsegments] at hs
      rw [rootless, List.mem_append]
      rcases List.mem_cons.mp hs with rfl | hrest
      · exact .inl hc
      · exact .inr (hmem _ hrest)

theorem mem_normalizePath (h : c ∈ normalizePath path) : c ∈ path ∨ c = '/' ∨ c = '.' := by
  have hstack : ∀ {s : Text},
      s ∈ normalizeWalk (path.head? == some '/') [] (pathSegments path) → c ∈ s →
      c ∈ path ∨ c = '/' ∨ c = '.' := by
    intro s hs hc
    rcases mem_normalizeWalk _ hs with hnil | hsegment | rfl
    · cases hnil
    · exact .inl (mem_of_mem_pathSegments hsegment hc)
    · rcases List.mem_cons.mp hc with rfl | hc
      · exact .inr (.inr rfl)
      · exact .inr (.inr (List.mem_singleton.mp hc))
  rw [normalizePath, normalizedPath] at h
  split_ifs at h
  · rcases mem_slashed h with rfl | ⟨s, hs, hc⟩
    · exact .inr (.inl rfl)
    · rcases List.mem_append.mp hs with hs | hs
      · exact hstack (List.mem_reverse.mp hs) hc
      · rw [List.mem_singleton.mp hs] at hc
        cases hc
  · rcases mem_slashed h with rfl | ⟨s, hs, hc⟩
    · exact .inr (.inl rfl)
    · exact hstack (List.mem_reverse.mp hs) hc

theorem normalizePath_head (path : Text) :
    (normalizePath path = [] ∨ (normalizePath path).head? = some '/') ∧
      (normalizePath path).take 2 ≠ ['/', '/'] := by
  have hplain := normalizeWalk_nil_plain (path.head? == some '/') (pathSegments_not_mem path)
  have hslashed : ∀ {l : List Text}, (∀ s ∈ l, s ≠ [] ∧ '/' ∉ s) →
      (slashed l = [] ∨ (slashed l).head? = some '/') ∧ (slashed l).take 2 ≠ ['/', '/'] ∧
        (slashed (l ++ [[]])).head? = some '/' ∧ (slashed (l ++ [[]])).take 2 ≠ ['/', '/'] := by
    intro l hl
    cases l with
    | nil => exact ⟨.inl rfl, by simp, rfl, by simp⟩
    | cons s rest =>
      obtain ⟨hs, hslash⟩ := hl s List.mem_cons_self
      cases s with
      | nil => exact absurd rfl hs
      | cons c s =>
        have hc : c ≠ '/' := fun heq => hslash (heq ▸ List.mem_cons_self)
        exact ⟨.inr rfl, by simp [hc], rfl, by simp [hc]⟩
  have hreverse := hslashed (l := (normalizeWalk (path.head? == some '/') []
    (pathSegments path)).reverse) fun s hs => hplain s (List.mem_reverse.mp hs)
  rw [normalizePath, normalizedPath]
  split_ifs
  · exact ⟨.inr hreverse.2.2.1, hreverse.2.2.2⟩
  · exact ⟨hreverse.1, hreverse.2.1⟩

def UriParts.normalized (p : UriParts) : UriParts := { p with path := normalizePath p.path }

variable {uri : Text} {p : UriParts}

/-- **A normalised URI is parsed into the same parts.** -/
theorem parseAbsoluteUri_normalized (hparse : parseAbsoluteUri uri = some p) :
    parseAbsoluteUri (p.front ++ normalizePath p.path ++ p.query) = some p.normalized := by
  obtain ⟨hparsed, hvalid, hhash⟩ := parseAbsoluteUri_parsed hparse
  have hmem : ∀ c ∈ p.front ++ normalizePath p.path ++ p.query, c ∈ uri ∨ c = '/' ∨ c = '.' := by
    intro c hc
    rw [hparsed.eq]
    rcases List.mem_append.mp hc with hc | hquery
    · rcases List.mem_append.mp hc with hfront | hpath
      · exact .inl (List.mem_append_left _ (List.mem_append_left _ hfront))
      · rcases mem_normalizePath hpath with hpath | hmore
        · exact .inl (List.mem_append_left _ (List.mem_append_right _ hpath))
        · exact .inr hmore
    · exact .inl (List.mem_append_right _ hquery)
  refine parseAbsoluteUri_of_parsed (p := p.normalized) ?_ ?_ ?_
  · refine ⟨rfl, hparsed.scheme, hparsed.authority, fun hquestion => ?_, hparsed.query,
      fun _ => (normalizePath_head p.path).1, fun _ => (normalizePath_head p.path).2⟩
    rcases mem_normalizePath hquestion with hpath | heq | heq
    · exact hparsed.path hpath
    · exact absurd heq (by decide)
    · exact absurd heq (by decide)
  · simp only [uriBytesValid, Bool.and_eq_true, decide_eq_true_eq, List.all_eq_true] at hvalid ⊢
    refine ⟨by simp [hparsed.front_last.1], fun c hc => ?_⟩
    rcases hmem c hc with huri | rfl | rfl
    · exact hvalid.2 c huri
    · decide
    · decide
  · intro hc
    rcases hmem '#' hc with huri | heq | heq
    · exact hhash huri
    · exact absurd heq (by decide)
    · exact absurd heq (by decide)

/-! ### The buffer is long enough -/

variable {r : Text}

section

variable {capacity : ℕ} {out : Text}

theorem appendBytes_length {data : Text} (hout : out.length ≤ capacity)
    (h : appendBytes capacity out data = some r) : r.length ≤ capacity := by
  unfold appendBytes at h
  split_ifs at h
  cases h
  rw [List.length_append]
  omega

theorem separate_length (hout : out.length ≤ capacity) (h : separate capacity out = some r) :
    r.length ≤ capacity := by
  unfold separate at h
  split_ifs at h
  · exact appendBytes_length hout h
  · cases h
    exact hout

variable {n n' : Normalizer}

theorem pushSegment_length {s : Text} (hout : n.out.length ≤ capacity)
    (h : pushSegment capacity n s = some n') : n'.out.length ≤ capacity := by
  obtain ⟨out, hseparate, hpush⟩ := Option.bind_eq_some_iff.mp h
  obtain ⟨out', happend, heq⟩ := Option.map_eq_some_iff.mp hpush
  rw [← heq]
  exact appendBytes_length (separate_length hout hseparate) happend

variable {leading : Bool} {pathStart : ℕ}

theorem normalizeSegment_length {s : Text} (hout : n.out.length ≤ capacity)
    (h : normalizeSegment capacity leading pathStart n s = some n') :
    n'.out.length ≤ capacity := by
  unfold normalizeSegment at h
  split at h
  · cases h
    exact hout
  · split at h
    · split at h
      · cases h
        rw [List.length_take]
        exact Nat.le_trans (Nat.min_le_right _ _) hout
      · split at h
        · cases h
          exact hout
        · exact pushSegment_length hout h
    · exact pushSegment_length hout h

theorem normalizeSegments_length {segments : List Text} (hout : n.out.length ≤ capacity)
    (h : normalizeSegments capacity leading pathStart n segments = some n') :
    n'.out.length ≤ capacity := by
  induction segments generalizing n with
  | nil =>
    cases h
    exact hout
  | cons s rest ih =>
    obtain ⟨m, hm, hrest⟩ := Option.bind_eq_some_iff.mp h
    exact ih (normalizeSegment_length hout hm) hrest

theorem normalizeAbsoluteUri_length (h : normalizeAbsoluteUri capacity uri = some r) :
    r.length ≤ capacity := by
  obtain ⟨p, -, h⟩ := Option.bind_eq_some_iff.mp h
  obtain ⟨out₀, hout₀, h⟩ := Option.bind_eq_some_iff.mp h
  obtain ⟨out₁, hout₁, h⟩ := Option.bind_eq_some_iff.mp h
  obtain ⟨n, hn, h⟩ := Option.bind_eq_some_iff.mp h
  obtain ⟨out₂, hout₂, h⟩ := Option.bind_eq_some_iff.mp h
  have h₀ := appendBytes_length (Nat.zero_le _) hout₀
  have h₁ := appendBytes_length h₀ hout₁
  have h₂ := normalizeSegments_length (n := ⟨out₁, []⟩) h₁ hn
  have h₃ : out₂.length ≤ capacity := by
    unfold closePath at hout₂
    split_ifs at hout₂
    · exact separate_length h₂ hout₂
    · cases hout₂
      exact h₂
  exact appendBytes_length h₃ h

end

/-! ## Cache keys -/

variable {capacity : ℕ}

theorem normalizeAbsoluteUri_parses (h : normalizeAbsoluteUri capacity uri = some r) :
    ∃ p, parseAbsoluteUri uri = some p := by
  obtain ⟨p, hp, -⟩ := Option.bind_eq_some_iff.mp h
  exact ⟨p, hp⟩

theorem normalizeAbsoluteUri_normalized (hparse : parseAbsoluteUri uri = some p)
    (h : normalizeAbsoluteUri capacity uri = some r) :
    normalizeAbsoluteUri capacity r = some r ↔ ¬KeepsParent p.path := by
  have heq := normalizeAbsoluteUri_eq hparse h
  have hparse' := parseAbsoluteUri_normalized hparse
  have hlength := normalizeAbsoluteUri_length h
  rw [← normalizePath_again]
  rw [← heq] at hparse'
  have hfront : p.normalized.front ++ normalizePath p.normalized.path ++ p.normalized.query =
      p.front ++ normalizePath (normalizePath p.path) ++ p.query := rfl
  constructor
  · intro hagain
    have hsame := normalizeAbsoluteUri_eq hparse' hagain
    rw [hfront, heq] at hsame
    exact (List.append_cancel_left (List.append_cancel_right hsame)).symm
  · intro hpath
    have hvalue : p.normalized.front ++ normalizePath p.normalized.path ++ p.normalized.query =
        r := by
      rw [hfront, hpath, ← heq]
    have hfits := normalizeAbsoluteUri_fits hparse' hlength (by rw [hvalue]; exact hlength)
    rw [hvalue] at hfits
    exact hfits

def UriKeepsParent (uri : Text) : Prop := ∃ p, parseAbsoluteUri uri = some p ∧ KeepsParent p.path

def ResolveConfig.candidate (cfg : ResolveConfig) (documentUri reference : Text) : Option Text :=
  buildResolvedCandidate cfg.maxUriBytes (cfg.base documentUri)
    (reference.takeWhile fun c => c ≠ '#')

variable {documentUri reference u fragment : Text}

theorem resolve_eq_ok {cfg : ResolveConfig}
    (h : resolve cfg documentUri reference = .ok (u, fragment)) :
    ∃ candidate, cfg.candidate documentUri reference = some candidate ∧
      normalizeAbsoluteUri cfg.maxUriBytes candidate = some u := by
  unfold resolve at h
  dsimp only at h
  split_ifs at h
  cases hnormalized : (buildResolvedCandidate cfg.maxUriBytes (cfg.base documentUri)
      (reference.takeWhile fun c => c ≠ '#')).bind (normalizeAbsoluteUri cfg.maxUriBytes) with
  | none =>
    rw [hnormalized] at h
    cases h
  | some normalized =>
    rw [hnormalized, ResolveConfig.deliver] at h
    split_ifs at h
    cases h
    exact Option.bind_eq_some_iff.mp hnormalized

theorem normalizeAbsoluteUri_again_iff (h : normalizeAbsoluteUri capacity uri = some r) :
    normalizeAbsoluteUri capacity r = some r ↔ ¬UriKeepsParent uri := by
  obtain ⟨p, hp⟩ := normalizeAbsoluteUri_parses h
  rw [normalizeAbsoluteUri_normalized hp h, UriKeepsParent]
  refine not_congr ⟨fun hkeeps => ⟨p, hp, hkeeps⟩, ?_⟩
  rintro ⟨q, hq, hkeeps⟩
  cases hp.symm.trans hq
  exact hkeeps

/-- **Main.** A normalised URI is normalised once and for all, and a resolved URI is its own cache
key, exactly if no path keeps a parent segment behind no slash. -/
theorem normalizeAbsoluteUri_again (capacity : ℕ) (uri r : Text)
    (h : normalizeAbsoluteUri capacity uri = some r) :
    (normalizeAbsoluteUri capacity r = some r ↔ ¬UriKeepsParent uri) ∧
    ∀ (cfg : ResolveConfig) (documentUri reference u fragment : Text),
      resolve cfg documentUri reference = .ok (u, fragment) →
      ∃ candidate, cfg.candidate documentUri reference = some candidate ∧
        (normalizeAbsoluteUri cfg.maxUriBytes u = some u ↔ ¬UriKeepsParent candidate) := by
  refine ⟨normalizeAbsoluteUri_again_iff h, fun cfg documentUri reference u fragment hresolve => ?_⟩
  obtain ⟨candidate, hcandidate, hnormalized⟩ := resolve_eq_ok hresolve
  exact ⟨candidate, hcandidate, normalizeAbsoluteUri_again_iff hnormalized⟩

theorem normalizeAbsoluteUri_again_sample : ¬UriKeepsParent ['s', ':', 'a', '/', '.', '.'] :=
  (normalizeAbsoluteUri_again 8 ['s', ':', 'a', '/', '.', '.'] ['s', ':']
    (by decide +kernel)).1.mp (by decide +kernel)

/-- `s:..` is normalised to `s:/..`, and that to `s:/`. -/
theorem normalizeAbsoluteUri_parent :
    ¬∀ (capacity : ℕ) (uri r : Text), normalizeAbsoluteUri capacity uri = some r →
      normalizeAbsoluteUri capacity r = some r := by
  intro h
  have hagain := h 8 ['s', ':', '.', '.'] ['s', ':', '/', '.', '.'] (by decide +kernel)
  revert hagain
  decide +kernel

/-- **What is resolved is an absolute URI** that can be the base of later references. -/
theorem resolve_absolute {cfg : ResolveConfig}
    (h : resolve cfg documentUri reference = .ok (u, fragment)) :
    u.length ≤ cfg.maxUriBytes ∧ u.length < cfg.documentCapacity ∧ uriBytesValid u = true ∧
      '#' ∉ u ∧ ∃ p, parseAbsoluteUri u = some p ∧ (p.path = [] ∨ p.path.head? = some '/') ∧
        p.path.take 2 ≠ ['/', '/'] := by
  obtain ⟨candidate, -, hnormalized⟩ := resolve_eq_ok h
  obtain ⟨q, hq⟩ := normalizeAbsoluteUri_parses hnormalized
  have hparse := parseAbsoluteUri_normalized hq
  rw [← normalizeAbsoluteUri_eq hq hnormalized] at hparse
  obtain ⟨-, hvalid, hhash⟩ := parseAbsoluteUri_parsed hparse
  refine ⟨normalizeAbsoluteUri_length hnormalized, ?_, hvalid, hhash, q.normalized, hparse,
    normalizePath_head q.path⟩
  unfold resolve at h
  dsimp only at h
  split_ifs at h
  unfold ResolveConfig.deliver at h
  split at h
  · cases h
  · split_ifs at h with hcapacity
    cases h
    exact Nat.lt_of_not_le hcapacity

theorem resolve_absolute_sample :
    ∃ p, parseAbsoluteUri ['s', ':', '/', 'b'] = some p ∧
      (p.path = [] ∨ p.path.head? = some '/') ∧ p.path.take 2 ≠ ['/', '/'] :=
  (resolve_absolute (show resolve ⟨['s', ':', '/', 'a'], 8, 8, 8⟩ [] ['b', '#', 'c'] =
    .ok (['s', ':', '/', 'b'], ['c']) by decide +kernel)).2.2.2.2

end TurboScxml.Voice
