import TurboScxml.Voice.UriNormalization

/-!
# The normaliser and the removal of dot segments

The normaliser drops empty segments, and it writes a slash in front of a rootless path. Where its
path is the one of RFC 3986 nevertheless:

* `RootedOk`, `rooted_iff`: for paths with a leading slash;
* `RootlessOk`, `rootless_iff`: for other paths;
* `Undotted`, `undotted_iff`: where RFC 3986 keeps the path as it is.
-/

namespace TurboScxml.Voice

open Uri

/-! ## Conditions -/

def hollow (stack : List Text) : Bool := stack.all fun s => s = []

/-- No `..` has removed an empty segment lately. -/
def cleanWalk (stack : List Text) (clean : Bool) : List Text → Bool
  | [] => clean
  | s :: rest =>
    cleanWalk (dotStep stack s)
      (if s = ['.', '.'] then hollow stack.tail || (clean && stack.head? ≠ some []) else clean) rest

structure RootedOk (segments : List Text) : Prop where
  /-- The target has no empty segment but the last. -/
  full : ∀ s ∈ (dotOutput [] segments).tail, s ≠ []
  last : endsInDots segments = true → dotOutput [] segments = [[]]
  clean : cleanWalk [] true segments = true

/-- The `..` segments that find no segment to remove. -/
def escapes : ℕ → List Text → ℕ
  | _, [] => 0
  | depth, s :: rest =>
    if s = [] ∨ s = ['.'] then escapes depth rest
    else if s = ['.', '.'] then
      match depth with
      | 0 => escapes 0 rest + 1
      | depth + 1 => escapes depth rest
    else escapes (depth + 1) rest

/-- The condition on a path without a leading slash: empty, or dot segments with an even number of
`..`, or a first segment that is left for a rooted path. -/
def RootlessOk (segments : List Text) : Prop :=
  segments = [[]] ∨ (escapes 0 segments % 2 = 0 ∧
    ((∀ s ∈ segments, isDots s = true) ∨
      ∃ r, rootedRest segments = some r ∧ endsInDots r = false ∧ RootedOk r))

structure Undotted (segments : List Text) : Prop where
  dots : ∀ s ∈ segments, isDots s = false
  full : ∀ s ∈ segments.dropLast, s ≠ []

/-! ## The two walks -/

def solid (stack : List Text) : List Text := stack.filter fun s => s ≠ []

/-- The normaliser's stack has the same segments, or fewer. -/
def Trails (stack code : List Text) (clean : Bool) : Prop :=
  if clean then code = solid stack else code.length < (solid stack).length

variable {stack : List Text}

theorem hollow_iff : hollow stack = true ↔ solid stack = [] := by
  simp [hollow, solid, List.filter_eq_nil_iff]

variable {code : List Text} {clean : Bool}

/-- **One segment.** -/
theorem Trails.step (h : Trails stack code clean) (s : Text) :
    Trails (dotStep stack s) (normalizeStep true code s)
      (if s = ['.', '.'] then hollow stack.tail || (clean && stack.head? ≠ some []) else clean) := by
  by_cases hdotdot : s = ['.', '.']
  · subst hdotdot
    have hcode : normalizeStep true code ['.', '.'] = code.tail := by simp [normalizeStep]
    have hstack : dotStep stack ['.', '.'] = stack.tail := by simp [dotStep]
    rw [hcode, hstack, if_pos rfl]
    cases stack with
    | nil =>
      have hnil : code = [] := by
        cases clean with
        | true => simpa [Trails, solid] using h
        | false => simp [Trails, solid] at h
      simp [Trails, hollow, solid, hnil]
    | cons t stack =>
      simp only [List.tail_cons, List.head?_cons]
      by_cases hhollow : hollow stack = true
      · -- nothing is left in either stack
        have hsolid := hollow_iff.mp hhollow
        have hnil : code.tail = [] := by
          have hle : code.length ≤ 1 := by
            have hone : (solid (t :: stack)).length ≤ 1 := by
              by_cases ht : t = []
              · have heq : solid (t :: stack) = solid stack := by simp [solid, ht]
                simp [heq, hsolid]
              · have heq : solid (t :: stack) = t :: solid stack := by simp [solid, ht]
                simp [heq, hsolid]
            cases clean with
            | true =>
              have hsame : code = solid (t :: stack) := h
              rw [hsame]
              exact hone
            | false =>
              have hlt : code.length < (solid (t :: stack)).length := h
              omega
          exact List.length_eq_zero_iff.mp (by simp; omega)
        simp [Trails, hhollow, hnil, hsolid]
      · have hpos : 0 < (solid stack).length :=
          List.length_pos_of_ne_nil fun hnil => hhollow (hollow_iff.mpr hnil)
        simp only [hhollow, Bool.false_or]
        by_cases ht : t = []
        · -- an empty segment is removed, and a segment of the code's stack
          subst ht
          have hsolid : solid ([] :: stack) = solid stack := by simp [solid]
          simp only [ne_eq, not_true_eq_false, decide_false, Bool.and_false]
          have hle : code.length ≤ (solid stack).length := by
            cases clean with
            | true =>
              have hsame : code = solid ([] :: stack) := h
              rw [hsame, hsolid]
            | false =>
              have hlt : code.length < (solid ([] :: stack)).length := h
              rw [hsolid] at hlt
              omega
          change code.tail.length < (solid stack).length
          rw [List.length_tail]
          omega
        · have hsolid : solid (t :: stack) = t :: solid stack := by simp [solid, ht]
          cases clean with
          | true =>
            have hsame : code = solid (t :: stack) := h
            simp [Trails, ht, hsame, hsolid]
          | false =>
            have hlt : code.length < (solid (t :: stack)).length := h
            rw [hsolid, List.length_cons] at hlt
            change code.tail.length < (solid stack).length
            rw [List.length_tail]
            omega
  · rw [if_neg hdotdot]
    by_cases hdot : s = ['.']
    · simpa [dotStep, normalizeStep, hdot] using h
    by_cases hempty : s = []
    · subst hempty
      have hsolid : solid ([] :: stack) = solid stack := by simp [solid]
      simpa [dotStep, normalizeStep, Trails, hsolid] using h
    · have hsolid : solid (s :: stack) = s :: solid stack := by simp [solid, hempty]
      have hstack : dotStep stack s = s :: stack := by simp [dotStep, hdot, hdotdot]
      have hcode : normalizeStep true code s = s :: code := by
        simp [normalizeStep, hdot, hdotdot, hempty]
      rw [hstack, hcode]
      cases clean with
      | true =>
        have hsame : code = solid stack := h
        change s :: code = solid (s :: stack)
        rw [hsolid, hsame]
      | false =>
        have hlt : code.length < (solid stack).length := h
        change (s :: code).length < (solid (s :: stack)).length
        rw [hsolid]
        simpa using hlt

/-- **A walk.** -/
theorem Trails.walk (h : Trails stack code clean) (segments : List Text) :
    Trails (dotWalk stack segments) (normalizeWalk true code segments)
      (cleanWalk stack clean segments) := by
  induction segments generalizing stack code clean with
  | nil => exact h
  | cons s rest ih => exact ih (h.step s)

theorem trails_nil : Trails [] [] true := rfl

theorem Trails.eq_nil (h : Trails [] code clean) : code = [] := by
  cases clean with
  | true => exact h
  | false => exact absurd h (by simp [Trails, solid])

/-! ## Paths with a leading slash -/

/-- The segments written for a stack. -/
def closedStack (leading closed : Bool) (stack : List Text) : List Text :=
  if closed = true ∨ (leading = true ∧ stack = []) then [] :: stack else stack

theorem normalizedPath_eq (leading closed : Bool) (stack : List Text) :
    normalizedPath leading closed stack = slashed (closedStack leading closed stack).reverse := by
  unfold normalizedPath closedStack
  split_ifs <;> simp

variable {segments : List Text}

theorem dotWalk_kept (hsegments : ∀ s ∈ segments, '/' ∉ s)
    (hstack : ∀ s ∈ stack, '/' ∉ s ∧ isDots s = false) :
    ∀ s ∈ dotWalk stack segments, '/' ∉ s ∧ isDots s = false := by
  induction segments generalizing stack with
  | nil => exact hstack
  | cons s rest ih =>
    refine ih (fun t ht => hsegments t (List.mem_cons_of_mem _ ht)) fun t ht => ?_
    unfold dotStep at ht
    split_ifs at ht with hdot hdotdot
    · exact hstack t ht
    · exact hstack t (List.mem_of_mem_tail ht)
    · rcases List.mem_cons.mp ht with rfl | ht
      · exact ⟨hsegments t List.mem_cons_self, by simp [isDots, hdot, hdotdot]⟩
      · exact hstack t ht

theorem dotOutput_kept (hsegments : ∀ s ∈ segments, '/' ∉ s) :
    ∀ s ∈ dotOutput [] segments, '/' ∉ s ∧ isDots s = false := by
  have hwalk : ∀ s ∈ dotWalk [] segments, '/' ∉ s ∧ isDots s = false :=
    dotWalk_kept hsegments (by simp)
  intro s hs
  unfold dotOutput at hs
  split_ifs at hs
  · rcases List.mem_cons.mp hs with rfl | hs
    · simp [isDots]
    · exact hwalk s hs
  · exact hwalk s hs

theorem solid_eq_self (h : ∀ s ∈ stack, s ≠ []) : solid stack = stack := by
  simpa [solid, List.filter_eq_self] using h

/-- **The stacks at the end** agree exactly if the condition holds. -/
theorem closedStack_iff (hne : segments ≠ []) (hsegments : ∀ s ∈ segments, '/' ∉ s) :
    closedStack true (segments.getLast? == some []) (normalizeWalk true [] segments)
      = dotOutput [] segments ↔ RootedOk segments := by
  have htrails := trails_nil.walk segments
  have hplain := normalizeWalk_nil_plain true hsegments
  obtain ⟨front, s, rfl⟩ := (List.eq_nil_or_concat' segments).resolve_left hne
  have hlast : (front ++ [s]).getLast? = some s := by simp
  have hends : endsInDots (front ++ [s]) = isDots s := by simp [endsInDots]
  by_cases hdots : isDots s = true
  · -- the target ends with a slash, and the normaliser only writes one for an empty stack
    have hs : s ≠ [] := by
      rintro rfl
      simp [isDots] at hdots
    have houtput : dotOutput [] (front ++ [s]) = [] :: dotWalk [] (front ++ [s]) := by
      simp [dotOutput, hends, hdots]
    have hclosed : ((front ++ [s]).getLast? == some []) = false := by simp [hs]
    rw [hclosed, houtput]
    constructor
    · intro heq
      by_cases hnil : normalizeWalk true [] (front ++ [s]) = []
      · have hempty : dotWalk [] (front ++ [s]) = [] := by
          simpa [closedStack, hnil] using heq.symm
        refine ⟨by simp [houtput, hempty], fun _ => by rw [houtput, hempty], ?_⟩
        rw [hempty] at htrails
        by_contra hclean
        have hfalse : cleanWalk [] true (front ++ [s]) = false := by simpa using hclean
        rw [hfalse] at htrails
        exact absurd htrails (by simp [Trails, solid])
      · have hmem : ([] : Text) ∈ normalizeWalk true [] (front ++ [s]) := by
          have hsame : normalizeWalk true [] (front ++ [s]) = [] :: dotWalk [] (front ++ [s]) := by
            simpa [closedStack, hnil] using heq
          rw [hsame]
          exact List.mem_cons_self
        exact absurd rfl (hplain [] hmem).1
    · intro hok
      have hroot := hok.last (hends.trans hdots)
      rw [houtput] at hroot
      have hempty : dotWalk [] (front ++ [s]) = [] := (List.cons.inj hroot).2
      rw [hempty] at htrails
      simp [closedStack, htrails.eq_nil, hempty]
  · have hdot : s ≠ ['.'] := by rintro rfl; simp [isDots] at hdots
    have hdotdot : s ≠ ['.', '.'] := by rintro rfl; simp [isDots] at hdots
    have houtput : dotOutput [] (front ++ [s]) = s :: dotWalk [] front := by
      simp [dotOutput, hends, hdots, dotWalk, dotStep, hdot, hdotdot]
    have hwalk : dotWalk [] (front ++ [s]) = s :: dotWalk [] front := by
      simp [dotWalk, dotStep, hdot, hdotdot]
    have hcases : RootedOk (front ++ [s]) ↔
        (∀ t ∈ dotWalk [] front, t ≠ []) ∧ cleanWalk [] true (front ++ [s]) = true := by
      constructor
      · intro hok
        refine ⟨?_, hok.clean⟩
        have hfull := hok.full
        rwa [houtput] at hfull
      · rintro ⟨hfull, hclean⟩
        exact ⟨by rwa [houtput], fun h => absurd (hends.symm.trans h) hdots, hclean⟩
    rw [hcases, houtput]
    rw [hwalk] at htrails
    by_cases hs : s = []
    · -- a slash at the end
      subst hs
      have hcode : normalizeWalk true [] (front ++ [[]]) = normalizeWalk true [] front := by
        simp [normalizeWalk, normalizeStep]
      rw [hcode] at htrails ⊢
      have hsolid : solid ([] :: dotWalk [] front) = solid (dotWalk [] front) := by simp [solid]
      have hclosed : closedStack true ((front ++ [[]]).getLast? == some [])
          (normalizeWalk true [] front) = [] :: normalizeWalk true [] front := by
        simp [closedStack]
      rw [hclosed, List.cons.injEq, and_iff_right rfl]
      have hplain' := hplain
      rw [hcode] at hplain'
      constructor
      · intro heq
        have hfull : ∀ t ∈ dotWalk [] front, t ≠ [] := fun t ht => (hplain' t (heq ▸ ht)).1
        refine ⟨hfull, ?_⟩
        by_contra hclean
        have hfalse : cleanWalk [] true (front ++ [[]]) = false := by simpa using hclean
        rw [hfalse] at htrails
        have hlt : (normalizeWalk true [] front).length < (solid ([] :: dotWalk [] front)).length :=
          htrails
        rw [hsolid, solid_eq_self hfull, heq] at hlt
        exact Nat.lt_irrefl _ hlt
      · rintro ⟨hfull, hclean⟩
        rw [hclean] at htrails
        have hsame : normalizeWalk true [] front = solid ([] :: dotWalk [] front) := htrails
        rw [hsame, hsolid, solid_eq_self hfull]
    · have hcode : normalizeWalk true [] (front ++ [s]) = s :: normalizeWalk true [] front := by
        simp [normalizeWalk, normalizeStep, hs, hdot, hdotdot]
      have hsolid : solid (s :: dotWalk [] front) = s :: solid (dotWalk [] front) := by
        simp [solid, hs]
      have hclosed : closedStack true ((front ++ [s]).getLast? == some [])
          (normalizeWalk true [] (front ++ [s])) = s :: normalizeWalk true [] front := by
        simp [closedStack, hcode, hs]
      rw [hclosed, List.cons.injEq, and_iff_right rfl]
      rw [hcode] at htrails hplain
      constructor
      · intro heq
        have hfull : ∀ t ∈ dotWalk [] front, t ≠ [] := fun t ht =>
          (hplain t (List.mem_cons_of_mem _ (heq ▸ ht))).1
        refine ⟨hfull, ?_⟩
        by_contra hclean
        have hfalse : cleanWalk [] true (front ++ [s]) = false := by simpa using hclean
        rw [hfalse] at htrails
        have hlt : (s :: normalizeWalk true [] front).length
            < (solid (s :: dotWalk [] front)).length := htrails
        rw [hsolid, solid_eq_self hfull, heq] at hlt
        exact Nat.lt_irrefl _ hlt
      · rintro ⟨hfull, hclean⟩
        rw [hclean] at htrails
        have hsame : s :: normalizeWalk true [] front = solid (s :: dotWalk [] front) := htrails
        rw [hsolid, solid_eq_self hfull] at hsame
        exact (List.cons.inj hsame).2

theorem closedStack_not_mem {leading closed : Bool} (h : ∀ s ∈ stack, s ≠ [] ∧ '/' ∉ s) :
    ∀ s ∈ closedStack leading closed stack, '/' ∉ s := by
  intro s hs
  unfold closedStack at hs
  split_ifs at hs
  · rcases List.mem_cons.mp hs with rfl | hs
    · simp
    · exact (h s hs).2
  · exact (h s hs).2

/-- **A path with a leading slash.** -/
theorem rooted_iff (hne : segments ≠ []) (hsegments : ∀ s ∈ segments, '/' ∉ s) :
    normalizedPath true (segments.getLast? == some []) (normalizeWalk true [] segments)
      = removeDotSegments (slashed segments) ↔ RootedOk segments := by
  rw [← closedStack_iff hne hsegments, normalizedPath_eq, removeDotSegments_slashed hne hsegments]
  constructor
  · intro h
    refine List.reverse_injective (slashed_injective (fun s hs => ?_) (fun s hs => ?_) h)
    · exact closedStack_not_mem (normalizeWalk_nil_plain true hsegments) s
        (List.mem_reverse.mp hs)
    · exact (dotOutput_kept hsegments s (List.mem_reverse.mp hs)).1
  · intro h
    rw [h]

variable (h : ∀ s ∈ segments, isDots s = false)
include h

theorem dotWalk_of_undotted (stack : List Text) :
    dotWalk stack segments = segments.reverse ++ stack := by
  induction segments generalizing stack with
  | nil => rfl
  | cons s rest ih =>
    have hs := h s List.mem_cons_self
    have hdot : s ≠ ['.'] := by rintro rfl; simp [isDots] at hs
    have hdotdot : s ≠ ['.', '.'] := by rintro rfl; simp [isDots] at hs
    have hstep : dotStep stack s = s :: stack := by simp [dotStep, hdot, hdotdot]
    change dotWalk (dotStep stack s) rest = _
    rw [hstep, ih fun t ht => h t (List.mem_cons_of_mem _ ht)]
    simp

theorem dotOutput_of_undotted : dotOutput [] segments = segments.reverse := by
  have hends : endsInDots segments = false := by
    unfold endsInDots
    cases hlast : segments.getLast? with
    | none => rfl
    | some s => exact h s (List.mem_of_getLast? hlast)
  rw [dotOutput, hends, dotWalk_of_undotted h]
  simp

theorem cleanWalk_of_undotted (stack : List Text) : cleanWalk stack true segments = true := by
  induction segments generalizing stack with
  | nil => rfl
  | cons s rest ih =>
    have hs := h s List.mem_cons_self
    have hdotdot : s ≠ ['.', '.'] := by rintro rfl; simp [isDots] at hs
    rw [cleanWalk, if_neg hdotdot]
    exact ih (fun t ht => h t (List.mem_cons_of_mem _ ht)) _

omit h

theorem Undotted.rootedOk (h : Undotted segments) : RootedOk segments := by
  refine ⟨?_, fun hends => ?_, cleanWalk_of_undotted h.dots []⟩
  · rw [dotOutput_of_undotted h.dots, List.tail_reverse]
    exact fun s hs => h.full s (List.mem_reverse.mp hs)
  · unfold endsInDots at hends
    cases hlast : segments.getLast? with
    | none => simp [hlast] at hends
    | some s =>
      rw [hlast, Option.any_some, h.dots s (List.mem_of_getLast? hlast)] at hends
      cases hends

theorem normalizeWalk_undotted (hstack : ∀ s ∈ stack, isDots s = false) :
    ∀ s ∈ normalizeWalk true stack segments, isDots s = false := by
  induction segments generalizing stack with
  | nil => exact hstack
  | cons s rest ih =>
    refine ih fun t ht => ?_
    unfold normalizeStep at ht
    split_ifs at ht with hskip hdotdot hroot
    · exact hstack t ht
    · exact absurd hroot.2 (by simp)
    · exact hstack t (List.mem_of_mem_tail ht)
    · rcases List.mem_cons.mp ht with rfl | ht
      · simp only [not_or] at hskip
        simp [isDots, hskip.2, hdotdot]
      · exact hstack t ht

/-- **A path that is kept.** -/
theorem undotted_iff (hne : segments ≠ []) (hsegments : ∀ s ∈ segments, '/' ∉ s) :
    normalizedPath true (segments.getLast? == some []) (normalizeWalk true [] segments)
      = slashed segments ↔ Undotted segments := by
  have hplain := normalizeWalk_nil_plain true hsegments
  have hundotted : ∀ s ∈ normalizeWalk true [] segments, isDots s = false :=
    normalizeWalk_undotted (by simp)
  constructor
  · intro h
    rw [normalizedPath_eq] at h
    have hstack := slashed_injective (fun s hs => closedStack_not_mem hplain s
      (List.mem_reverse.mp hs)) hsegments h
    constructor
    · intro s hs
      rw [← hstack, List.mem_reverse] at hs
      unfold closedStack at hs
      split_ifs at hs
      · rcases List.mem_cons.mp hs with rfl | hs
        · simp [isDots]
        · exact hundotted s hs
      · exact hundotted s hs
    · intro s hs
      rw [← hstack, List.dropLast_reverse, List.mem_reverse] at hs
      unfold closedStack at hs
      split_ifs at hs
      · exact (hplain s hs).1
      · exact (hplain s (List.mem_of_mem_tail hs)).1
  · intro h
    rw [normalizedPath_eq, (closedStack_iff hne hsegments).mpr h.rootedOk,
      dotOutput_of_undotted h.dots, List.reverse_reverse]

/-! ## Paths without a leading slash -/

def bottom (present : Bool) : List Text := if present then [['.', '.']] else []

theorem normalizeWalk_bottom (stack segments : List Text) (present : Bool) :
    normalizeWalk false (stack ++ bottom present) segments
      = normalizeWalk true stack segments
        ++ bottom (present ^^ decide (escapes stack.length segments % 2 = 1)) := by
  induction segments generalizing stack present with
  | nil => simp [normalizeWalk, escapes]
  | cons s rest ih =>
    have hwalk : ∀ leading st, normalizeWalk leading st (s :: rest)
        = normalizeWalk leading (normalizeStep leading st s) rest := fun _ _ => rfl
    rw [hwalk, hwalk]
    by_cases hskip : s = [] ∨ s = ['.']
    · have hstep : ∀ leading st, normalizeStep leading st s = st := by
        intro leading st
        simp [normalizeStep, hskip]
      rw [hstep, hstep, ih]
      simp [escapes, hskip]
    by_cases hdotdot : s = ['.', '.']
    · cases stack with
      | nil =>
        have hfalse : normalizeStep false ([] ++ bottom present) s = [] ++ bottom (!present) := by
          cases present <;> simp [normalizeStep, hdotdot, bottom]
        have htrue : normalizeStep true [] s = [] := by simp [normalizeStep, hdotdot]
        rw [hfalse, htrue, ih]
        have hcount : escapes ([] : List Text).length (s :: rest) = escapes 0 rest + 1 := by
          simp [escapes, hdotdot]
        rw [hcount]
        congr 2
        rcases Nat.mod_two_eq_zero_or_one (escapes 0 rest) with hpar | hpar <;>
          cases present <;> simp [hpar, Nat.add_mod]
      | cons t stack =>
        have hstep : ∀ leading (st : List Text), normalizeStep leading (t :: st) s = st := by
          intro leading st
          simp [normalizeStep, hdotdot]
        rw [List.cons_append, hstep, hstep, ih]
        simp [escapes, hdotdot]
    · have hstep : ∀ leading st, normalizeStep leading st s = s :: st := by
        intro leading st
        simp [normalizeStep, hskip, hdotdot]
      rw [hstep, hstep, ← List.cons_append, ih]
      simp [escapes, hskip, hdotdot]

variable {r : List Text}

theorem walk_descend {root : Text} (h : Trails (stack ++ [root]) code clean)
    (hr : descend stack.length segments = some r) :
    normalizeWalk true code segments = normalizeWalk true [] r ∧
      endsInDots segments = endsInDots r ∧
      (segments.getLast? == some []) = (r.getLast? == some []) := by
  induction segments generalizing stack code clean with
  | nil => cases hr
  | cons s rest ih =>
    have hstep := h.step s
    by_cases hescape : s = ['.', '.'] ∧ stack = []
    · obtain ⟨rfl, rfl⟩ := hescape
      have hr : r = if rest = [] then [['.']] else rest := by
        simp only [descend, List.length_nil] at hr
        simpa using hr.symm
      have hnil : normalizeStep true code ['.', '.'] = [] := by
        exact hstep.eq_nil
      have hwalk : normalizeWalk true code (['.', '.'] :: rest)
          = normalizeWalk true [] rest := by
        change normalizeWalk true (normalizeStep true code ['.', '.']) rest = _
        rw [hnil]
      rw [hwalk, hr]
      split_ifs with hrest
      · subst hrest
        refine ⟨by simp [normalizeWalk, normalizeStep], by simp [endsInDots, isDots], by simp⟩
      · obtain ⟨t, more, rfl⟩ := List.exists_cons_of_ne_nil hrest
        exact ⟨rfl, by simp [endsInDots], by simp⟩
    · have hnext : descend (dotStep stack s).length rest = some r := by
        rwa [descend_cons hescape] at hr
      have hstack : dotStep (stack ++ [root]) s = dotStep stack s ++ [root] := by
        unfold dotStep
        split_ifs with hdot hdotdot
        · rfl
        · cases stack with
          | nil => exact absurd ⟨hdotdot, rfl⟩ hescape
          | cons t stack => rfl
        · rfl
      rw [hstack] at hstep
      obtain ⟨hwalk, hends, hlast⟩ := ih hstep hnext
      obtain ⟨t, more, rfl⟩ : ∃ t more, rest = t :: more := by
        cases rest with
        | nil => cases hnext
        | cons t more => exact ⟨t, more, rfl⟩
      refine ⟨hwalk, ?_, ?_⟩
      · rw [← hends]
        simp [endsInDots]
      · rw [← hlast]
        simp

theorem walk_rootedRest (h : rootedRest segments = some r) :
    normalizeWalk true [] segments = normalizeWalk true [] r ∧
      endsInDots segments = endsInDots r ∧
      (segments.getLast? == some []) = (r.getLast? == some []) := by
  induction segments using rootedRest.induct with
  | case1 => cases h
  | case2 s => cases h
  | case3 s t rest hdots ih =>
    rw [rootedRest, if_pos hdots] at h
    obtain ⟨hwalk, hends, hlast⟩ := ih h
    have hstep : normalizeStep true [] s = [] := by
      have hcase : s = ['.'] ∨ s = ['.', '.'] := by simpa [isDots] using hdots
      rcases hcase with rfl | rfl <;> simp [normalizeStep]
    refine ⟨?_, ?_, ?_⟩
    · change normalizeWalk true (normalizeStep true [] s) (t :: rest) = _
      rw [hstep, hwalk]
    · rw [← hends]
      simp [endsInDots]
    · rw [← hlast]
      simp
  | case4 t rest hdots =>
    cases h
    exact ⟨by simp [normalizeWalk, normalizeStep], by simp [endsInDots], by simp⟩
  | case5 s t rest hdots hne =>
    rw [rootedRest, if_neg hdots, if_neg hne] at h
    have hdot : s ≠ ['.'] := by rintro rfl; simp [isDots] at hdots
    have hdotdot : s ≠ ['.', '.'] := by rintro rfl; simp [isDots] at hdots
    have hpush : dotStep [] s = [] ++ [s] := by simp [dotStep, hdot, hdotdot]
    have htrails := trails_nil.step s
    rw [if_neg hdotdot, hpush] at htrails
    obtain ⟨hwalk, hends, hlast⟩ := walk_descend htrails h
    refine ⟨hwalk, ?_, ?_⟩
    · rw [← hends]
      simp [endsInDots]
    · rw [← hlast]
      simp

theorem walk_of_dots (h : ∀ s ∈ segments, isDots s = true ∨ s = []) :
    normalizeWalk true [] segments = [] := by
  induction segments with
  | nil => rfl
  | cons s rest ih =>
    have hstep : normalizeStep true [] s = [] := by
      rcases h s List.mem_cons_self with hdots | rfl
      · have hcase : s = ['.'] ∨ s = ['.', '.'] := by simpa [isDots] using hdots
        rcases hcase with rfl | rfl <;> simp [normalizeStep]
      · simp [normalizeStep]
    change normalizeWalk true (normalizeStep true [] s) rest = []
    rw [hstep]
    exact ih fun t ht => h t (List.mem_cons_of_mem _ ht)

theorem removeDotSegments_of_dots (h : ∀ s ∈ segments, isDots s = true) :
    removeDotSegments (rootless segments) = [] := by
  induction segments with
  | nil => exact loop_nil []
  | cons s rest ih =>
    rw [removeDotSegments, loop_front_dots (h s List.mem_cons_self)]
    exact ih fun t ht => h t (List.mem_cons_of_mem _ ht)

theorem dotOutput_last {front : List Text} {s : Text} (h : isDots s = false) :
    dotOutput [] (front ++ [s]) = s :: dotWalk [] front := by
  have hdot : s ≠ ['.'] := by rintro rfl; simp [isDots] at h
  have hdotdot : s ≠ ['.', '.'] := by rintro rfl; simp [isDots] at h
  simp [dotOutput, endsInDots, h, dotWalk, dotStep, hdot, hdotdot]

theorem normalizeWalk_bottom_plain (h : ∀ s ∈ segments, '/' ∉ s) (present : Bool) :
    ∀ s ∈ normalizeWalk true [] segments ++ bottom present, s ≠ [] ∧ '/' ∉ s := by
  intro s hs
  rcases List.mem_append.mp hs with hs | hs
  · exact normalizeWalk_nil_plain true h s hs
  · cases present with
    | false => simp [bottom] at hs
    | true =>
      rw [List.mem_singleton.mp hs]
      simp

theorem closedStack_bottom_iff (hne : r ≠ []) (hr : ∀ s ∈ r, '/' ∉ s) (present : Bool) :
    closedStack false (r.getLast? == some []) (normalizeWalk true [] r ++ bottom present)
        = dotOutput [] r ↔
      present = false ∧ endsInDots r = false ∧ RootedOk r := by
  have hplain := normalizeWalk_nil_plain true hr
  have hkept := dotOutput_kept hr
  rw [← closedStack_iff hne hr]
  obtain ⟨front, s, rfl⟩ := (List.eq_nil_or_concat' r).resolve_left hne
  have hends : endsInDots (front ++ [s]) = isDots s := by simp [endsInDots]
  have hclosed : ((front ++ [s]).getLast? == some []) = decide (s = []) := by cases s <;> simp
  rw [hends, hclosed]
  -- a stack with a segment does not depend on the leading slash
  have hagree : isDots s = false →
      (closedStack false (decide (s = [])) (normalizeWalk true [] (front ++ [s]))
        = dotOutput [] (front ++ [s]) ↔
      closedStack true (decide (s = [])) (normalizeWalk true [] (front ++ [s]))
        = dotOutput [] (front ++ [s])) := by
    intro hs
    rw [dotOutput_last hs]
    by_cases hnil : normalizeWalk true [] (front ++ [s]) = []
    · by_cases hempty : s = []
      · simp [closedStack, hempty]
      · simp only [closedStack, hnil, hempty]
        constructor
        · intro h
          simp at h
        · intro h
          simp at h
          exact absurd h.1 hempty
    · simp [closedStack, hnil]
  constructor
  · intro heq
    have hpresent : present = false := by
      cases present with
      | false => rfl
      | true =>
        have hmem : ['.', '.'] ∈ dotOutput [] (front ++ [s]) := by
          rw [← heq]
          unfold closedStack
          split_ifs <;> simp [bottom]
        exact absurd (hkept _ hmem).2 (by decide)
    subst hpresent
    rw [bottom, if_neg (by simp), List.append_nil] at heq
    have hs : isDots s = false := by
      by_contra hdots
      rw [Bool.not_eq_false] at hdots
      have hne' : s ≠ [] := by
        rintro rfl
        simp [isDots] at hdots
      have hmem : ([] : Text) ∈ normalizeWalk true [] (front ++ [s]) := by
        have hcode : closedStack false (decide (s = [])) (normalizeWalk true [] (front ++ [s]))
            = normalizeWalk true [] (front ++ [s]) := by simp [closedStack, hne']
        rw [← hcode, heq]
        simp [dotOutput, hends, hdots]
      exact (hplain [] hmem).1 rfl
    exact ⟨rfl, hs, (hagree hs).mp heq⟩
  · rintro ⟨rfl, hs, heq⟩
    rw [bottom, if_neg (by simp), List.append_nil]
    exact (hagree hs).mpr heq

theorem rootless_getLast? (hne : segments ≠ []) (hsegments : ∀ s ∈ segments, '/' ∉ s)
    (hhead : segments.head? ≠ some []) :
    ((rootless segments).getLast? == some '/') = (segments.getLast? == some []) := by
  obtain ⟨front, s, rfl⟩ := (List.eq_nil_or_concat' segments).resolve_left hne
  have hs := hsegments s (by simp)
  have hlast : ∀ root : Text, s ≠ [] → ((root ++ s).getLast? == some '/') = false := by
    intro root hempty
    rw [List.getLast?_append, List.getLast?_eq_some_getLast hempty]
    simp only [Option.some_or, beq_eq_false_iff_ne, ne_eq, Option.some.injEq]
    exact fun h => hs (h ▸ List.getLast_mem hempty)
  have hright : ((front ++ [s]).getLast? == some []) = decide (s = []) := by cases s <;> simp
  rw [hright]
  cases front with
  | nil =>
    have hempty : s ≠ [] := fun h => hhead (by simp [h])
    have hroot : rootless ([] ++ [s]) = [] ++ s := by simp [rootless]
    rw [hroot, hlast [] hempty]
    simp [hempty]
  | cons t front =>
    have hroot : rootless (t :: front ++ [s]) = (t ++ slashed front ++ ['/']) ++ s := by
      simp [rootless]
    by_cases hempty : s = []
    · subst hempty
      rw [hroot]
      simp
    · rw [hroot, hlast _ hempty]
      simp [hempty]

/-- **A path without a leading slash.** -/
theorem rootless_iff (hne : segments ≠ []) (hsegments : ∀ s ∈ segments, '/' ∉ s)
    (hhead : segments = [[]] ∨ segments.head? ≠ some []) :
    normalizedPath false ((rootless segments).getLast? == some '/')
        (normalizeWalk false [] segments)
      = removeDotSegments (rootless segments) ↔ RootlessOk segments := by
  rcases hhead with rfl | hhead
  · refine iff_of_true ?_ (.inl rfl)
    simp [normalizedPath, normalizeWalk, normalizeStep, rootless, removeDotSegments, loop_nil]
  have hproper : segments ≠ [[]] := by
    rintro rfl
    exact hhead rfl
  have hclosed := rootless_getLast? hne hsegments hhead
  have hwalk : normalizeWalk false [] segments
      = normalizeWalk true [] segments ++ bottom (decide (escapes 0 segments % 2 = 1)) := by
    simpa [bottom] using normalizeWalk_bottom [] segments false
  have hparity : decide (escapes 0 segments % 2 = 1) = false ↔ escapes 0 segments % 2 = 0 := by
    rw [decide_eq_false_iff_not]
    omega
  rw [hclosed, hwalk, normalizedPath_eq, RootlessOk, or_iff_right hproper, ← hparity]
  generalize decide (escapes 0 segments % 2 = 1) = present
  cases hrest : rootedRest segments with
  | some r =>
    obtain ⟨hrne, hr, hrfc⟩ := removeDotSegments_rootless hsegments hrest
    obtain ⟨hsame, -, hlast⟩ := walk_rootedRest hrest
    have hnot : ¬ ∀ s ∈ segments, isDots s = true := fun hall => by
      rw [rootedRest_of_dots hall] at hrest
      cases hrest
    rw [hrfc, hsame, hlast, or_iff_right hnot]
    have hiff := closedStack_bottom_iff hrne hr present
    constructor
    · intro h
      obtain ⟨hpresent, hok⟩ := hiff.mp (List.reverse_injective (slashed_injective
        (fun s hs => closedStack_not_mem (normalizeWalk_bottom_plain hr present) s
          (List.mem_reverse.mp hs))
        (fun s hs => (dotOutput_kept hr s (List.mem_reverse.mp hs)).1) h))
      exact ⟨hpresent, r, rfl, hok⟩
    · rintro ⟨hpresent, r', ⟨⟩, hok⟩
      rw [hiff.mpr ⟨hpresent, hok⟩]
  | none =>
    have hnone : ¬ ∃ r, none = some r ∧ endsInDots r = false ∧ RootedOk r := by
      rintro ⟨r, ⟨⟩, -⟩
    rw [or_iff_left hnone]
    rcases removeDotSegments_rootless_none hsegments hrest with ⟨hnil, hall⟩ | ⟨c, t, hc, hroot⟩
    · rw [hnil, walk_of_dots fun s hs => (hall s hs).imp_right And.left, List.nil_append]
      constructor
      · intro h
        have hstack : closedStack false (segments.getLast? == some []) (bottom present) = [] := by
          simpa using h
        have hlast : segments.getLast? ≠ some [] := by
          intro hlast
          simp [closedStack, hlast] at hstack
        have hpresent : present = false := by
          cases present with
          | false => rfl
          | true => simp [closedStack, hlast, bottom] at hstack
        exact ⟨hpresent, fun s hs => (hall s hs).resolve_right fun h => hlast h.2⟩
      · rintro ⟨rfl, hdots⟩
        have hlast : (segments.getLast? == some []) = false := by
          rw [beq_eq_false_iff_ne]
          intro hlast
          have hmem := hdots [] (List.mem_of_getLast? hlast)
          simp [isDots] at hmem
        simp [hlast, closedStack, bottom]
    · refine iff_of_false ?_ fun h => ?_
      · rw [hroot]
        cases (closedStack false (segments.getLast? == some [])
            (normalizeWalk true [] segments ++ bottom present)).reverse with
        | nil => simp
        | cons s rest =>
          simp only [slashed_cons, List.cons.injEq, not_and]
          exact fun h => absurd h.symm hc
      · rw [removeDotSegments_of_dots h.2] at hroot
        cases hroot

end TurboScxml.Voice
