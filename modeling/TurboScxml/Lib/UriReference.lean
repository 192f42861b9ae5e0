import Mathlib.Data.List.Basic
import Mathlib.Data.List.TakeWhile
import Mathlib.Tactic.SplitIfs
import Mathlib.Tactic.Tauto

/-!
# URI references

RFC 3986, sections 3 and 5, on lists of characters.

* `Reference`, `parse`, `recompose`: the five components (appendix B, section 5.3);
* `removeDotSegments`: the loop of section 5.2.4 on its two buffers;
* `transform`: the target of a reference (section 5.2.2), for any treatment of dot segments;
* `Reference.WellFormed`, `parse_wellFormed`, `recompose_parse`, `transform_wellFormed`: what holds
  of the components of every reference and of every target.
-/

namespace Uri

/-! ## Components -/

/-- A reference by its components. -/
structure Reference where
  scheme : Option (List Char)
  authority : Option (List Char)
  path : List Char
  query : Option (List Char)
  fragment : Option (List Char)
  deriving DecidableEq

def breakAt (c : Char) : List Char → List Char × Option (List Char)
  | [] => ([], none)
  | x :: rest => if x = c then ([], some rest) else (x :: (breakAt c rest).1, (breakAt c rest).2)

def isAlpha (c : Char) : Bool := ('A' ≤ c && c ≤ 'Z') || ('a' ≤ c && c ≤ 'z')

def isSchemeChar (c : Char) : Bool :=
  isAlpha c || ('0' ≤ c && c ≤ '9') || c == '+' || c == '-' || c == '.'

/-- `ALPHA *( ALPHA / DIGIT / "+" / "-" / "." )`. -/
def isScheme : List Char → Bool
  | [] => false
  | c :: rest => isAlpha c && rest.all isSchemeChar

def parseScheme (s : List Char) : Option (List Char) × List Char :=
  match breakAt ':' s with
  | (scheme, some rest) => if isScheme scheme then (some scheme, rest) else (none, s)
  | (_, none) => (none, s)

def parseHierarchy : List Char → Option (List Char) × List Char
  | '/' :: '/' :: rest =>
    match breakAt '/' rest with
    | (authority, some path) => (some authority, '/' :: path)
    | (authority, none) => (some authority, [])
  | s => (none, s)

def parse (s : List Char) : Reference where
  fragment := (breakAt '#' s).2
  query := (breakAt '?' (breakAt '#' s).1).2
  scheme := (parseScheme (breakAt '?' (breakAt '#' s).1).1).1
  authority := (parseHierarchy (parseScheme (breakAt '?' (breakAt '#' s).1).1).2).1
  path := (parseHierarchy (parseScheme (breakAt '?' (breakAt '#' s).1).1).2).2

def withPrefix (mark : List Char) : Option (List Char) → List Char
  | some s => mark ++ s
  | none => []

def schemeText : Option (List Char) → List Char
  | some s => s ++ [':']
  | none => []

def recompose (r : Reference) : List Char :=
  schemeText r.scheme ++ withPrefix ['/', '/'] r.authority ++ r.path ++ withPrefix ['?'] r.query ++
    withPrefix ['#'] r.fragment

/-! ## Dot segments -/

def removeLast (output : List Char) : List Char :=
  ((output.reverse.dropWhile fun c => c ≠ '/').drop 1).reverse

def removeDotSegmentsLoop (input output : List Char) : List Char :=
  if h : input = [] then output
  -- A
  else if input.take 3 = ['.', '.', '/'] then removeDotSegmentsLoop (input.drop 3) output
  else if input.take 2 = ['.', '/'] then removeDotSegmentsLoop (input.drop 2) output
  -- B
  else if input.take 3 = ['/', '.', '/'] then removeDotSegmentsLoop (input.drop 2) output
  else if input = ['/', '.'] then removeDotSegmentsLoop ['/'] output
  -- C
  else if input.take 4 = ['/', '.', '.', '/'] then
    removeDotSegmentsLoop (input.drop 3) (removeLast output)
  else if input = ['/', '.', '.'] then removeDotSegmentsLoop ['/'] (removeLast output)
  -- D
  else if input = ['.'] ∨ input = ['.', '.'] then output
  -- E
  else
    removeDotSegmentsLoop (input.tail.dropWhile fun c => c ≠ '/')
      (output ++ input.head h :: input.tail.takeWhile fun c => c ≠ '/')
termination_by input.length
decreasing_by
  all_goals have hpos : 0 < input.length := List.length_pos_of_ne_nil h
  · simp only [List.length_drop]; omega
  · simp only [List.length_drop]; omega
  · simp only [List.length_drop]; omega
  · simp [*]
  · simp only [List.length_drop]; omega
  · simp [*]
  · have hle := (List.dropWhile_sublist (fun c => decide (c ≠ '/')) (l := input.tail)).length_le
    simp only [List.length_tail] at hle
    omega

def removeDotSegments (path : List Char) : List Char := removeDotSegmentsLoop path []

/-! ## Transformation -/

def merge (base : Reference) (path : List Char) : List Char :=
  if base.authority.isSome ∧ base.path = [] then '/' :: path
  else (base.path.reverse.dropWhile fun c => c ≠ '/').reverse ++ path

/-- The target of a reference (section 5.2.2). -/
def transform (dots : List Char → List Char) (base r : Reference) : Reference :=
  if r.scheme.isSome then
    { r with path := dots r.path }
  else if r.authority.isSome then
    { r with scheme := base.scheme, path := dots r.path }
  else if r.path = [] then
    { base with query := if r.query.isSome then r.query else base.query, fragment := r.fragment }
  else if r.path.head? = some '/' then
    { r with scheme := base.scheme, authority := base.authority, path := dots r.path }
  else
    { r with
      scheme := base.scheme
      authority := base.authority
      path := dots (merge base r.path) }

/-! ## The components of a reference -/

structure Reference.WellFormed (r : Reference) : Prop where
  scheme : ∀ s, r.scheme = some s → isScheme s = true
  authority : ∀ a, r.authority = some a → '/' ∉ a ∧ '?' ∉ a ∧ '#' ∉ a
  path : '?' ∉ r.path ∧ '#' ∉ r.path
  query : ∀ q, r.query = some q → '#' ∉ q
  rooted : r.authority.isSome → r.path = [] ∨ r.path.head? = some '/'
  bare : r.authority = none → r.path.take 2 ≠ ['/', '/']

theorem breakAt_append (c : Char) (s : List Char) :
    (breakAt c s).1 ++ withPrefix [c] (breakAt c s).2 = s := by
  induction s with
  | nil => rfl
  | cons x rest ih =>
    unfold breakAt
    split_ifs with hx
    · simp [withPrefix, hx]
    · simpa using ih

theorem breakAt_not_mem (c : Char) (s : List Char) : c ∉ (breakAt c s).1 := by
  induction s with
  | nil => simp [breakAt]
  | cons x rest ih =>
    unfold breakAt
    split_ifs with hx
    · simp
    · simp only [List.mem_cons, not_or]
      exact ⟨fun h => hx h.symm, ih⟩

variable {c : Char} {front : List Char}

theorem breakAt_of_not_mem (h : c ∉ front) (rest : List Char) :
    breakAt c (front ++ c :: rest) = (front, some rest) := by
  induction front with
  | nil => simp [breakAt]
  | cons x front ih =>
    simp only [List.mem_cons, not_or] at h
    have hx : x ≠ c := fun heq => h.1 heq.symm
    simp [breakAt, hx, ih h.2]

variable {s : List Char}

theorem breakAt_eq_none (h : c ∉ s) : breakAt c s = (s, none) := by
  induction s with
  | nil => rfl
  | cons x rest ih =>
    simp only [List.mem_cons, not_or] at h
    have hx : x ≠ c := fun heq => h.1 heq.symm
    simp [breakAt, hx, ih h.2]

theorem breakAt_append_left (h : c ∉ front) (s : List Char) :
    (breakAt c (front ++ s)).1 = front ++ (breakAt c s).1 := by
  induction front with
  | nil => rfl
  | cons x front ih =>
    simp only [List.mem_cons, not_or] at h
    have hx : x ≠ c := fun heq => h.1 heq.symm
    simp [breakAt, hx, ih h.2]

variable {x : Char}

theorem mem_of_mem_breakAt (h : x ∈ (breakAt c s).1) : x ∈ s := by
  rw [← breakAt_append c s]
  exact List.mem_append_left _ h

theorem mem_of_mem_breakAt_rest {rest : List Char} (h : (breakAt c s).2 = some rest)
    (hx : x ∈ rest) :
    x ∈ s := by
  rw [← breakAt_append c s, h]
  exact List.mem_append_right _ (List.mem_cons_of_mem _ hx)

theorem parseScheme_append (s : List Char) :
    schemeText (parseScheme s).1 ++ (parseScheme s).2 = s := by
  have happend := breakAt_append ':' s
  unfold parseScheme
  cases hbreak : breakAt ':' s with
  | mk scheme rest =>
    rw [hbreak] at happend
    cases rest with
    | none => rfl
    | some rest =>
      simp only [withPrefix] at happend
      dsimp only
      split_ifs
      · simpa [schemeText] using happend
      · rfl

theorem parseScheme_scheme {scheme : List Char} (h : (parseScheme s).1 = some scheme) :
    isScheme scheme = true := by
  unfold parseScheme at h
  cases hbreak : breakAt ':' s with
  | mk front rest =>
    rw [hbreak] at h
    cases rest with
    | none => cases h
    | some rest =>
      dsimp only at h
      split_ifs at h with hscheme
      · cases h
        exact hscheme

theorem mem_of_mem_parseScheme (h : x ∈ (parseScheme s).2) : x ∈ s := by
  rw [← parseScheme_append s]
  exact List.mem_append_right _ h

theorem parseHierarchy_append (s : List Char) :
    withPrefix ['/', '/'] (parseHierarchy s).1 ++ (parseHierarchy s).2 = s := by
  unfold parseHierarchy
  split
  · rename_i rest
    have happend := breakAt_append '/' rest
    cases hbreak : breakAt '/' rest with
    | mk authority path =>
      rw [hbreak] at happend
      cases path with
      | none => simpa [withPrefix] using happend
      | some path => simpa [withPrefix] using happend
  · rfl

theorem parseHierarchy_shape (s : List Char) :
    (∀ a, (parseHierarchy s).1 = some a → '/' ∉ a) ∧
      ((parseHierarchy s).1.isSome → (parseHierarchy s).2 = [] ∨
        (parseHierarchy s).2.head? = some '/') ∧
      ((parseHierarchy s).1 = none → (parseHierarchy s).2.take 2 ≠ ['/', '/']) := by
  unfold parseHierarchy
  split
  · rename_i rest
    have hnot := breakAt_not_mem '/' rest
    cases hbreak : breakAt '/' rest with
    | mk authority path =>
      rw [hbreak] at hnot
      cases path with
      | none =>
        refine ⟨?_, fun _ => .inl rfl, fun h => by cases h⟩
        rintro a ⟨⟩
        exact hnot
      | some path =>
        refine ⟨?_, fun _ => .inr rfl, fun h => by cases h⟩
        rintro a ⟨⟩
        exact hnot
  · rename_i hbare
    refine ⟨fun a h => (by cases h), fun h => (by cases h), fun _ htake => ?_⟩
    obtain ⟨rest, hrest⟩ : ∃ rest, s = ['/', '/'] ++ rest :=
      ⟨s.drop 2, by rw [← htake, List.take_append_drop]⟩
    exact hbare rest hrest

theorem mem_of_mem_parseHierarchy :
    (x ∈ (parseHierarchy s).2 → x ∈ s) ∧
      ∀ a, (parseHierarchy s).1 = some a → x ∈ a → x ∈ s := by
  have happend := parseHierarchy_append s
  constructor
  · intro h
    rw [← happend]
    exact List.mem_append_right _ h
  · intro a ha hx
    rw [ha] at happend
    rw [← happend]
    refine List.mem_append_left _ ?_
    simp [withPrefix, hx]

/-- **The components put together** are the text. -/
theorem recompose_parse (s : List Char) : recompose (parse s) = s := by
  have hhash := breakAt_append '#' s
  have hquery := breakAt_append '?' (breakAt '#' s).1
  have hscheme := parseScheme_append (breakAt '?' (breakAt '#' s).1).1
  have hhierarchy := parseHierarchy_append (parseScheme (breakAt '?' (breakAt '#' s).1).1).2
  have hparts : recompose (parse s)
      = schemeText (parseScheme (breakAt '?' (breakAt '#' s).1).1).1 ++
          (withPrefix ['/', '/'] (parseHierarchy
              (parseScheme (breakAt '?' (breakAt '#' s).1).1).2).1 ++
            (parseHierarchy (parseScheme (breakAt '?' (breakAt '#' s).1).1).2).2) ++
          withPrefix ['?'] (breakAt '?' (breakAt '#' s).1).2 ++
          withPrefix ['#'] (breakAt '#' s).2 := by
    simp [recompose, parse]
  rw [hparts, hhierarchy, hscheme, hquery, hhash]

/-- **The components of a reference.** -/
theorem parse_wellFormed (s : List Char) : (parse s).WellFormed := by
  obtain ⟨hauthority, hrooted, hbare⟩ :=
    parseHierarchy_shape (parseScheme (breakAt '?' (breakAt '#' s).1).1).2
  have hquestion : '?' ∉ (parseScheme (breakAt '?' (breakAt '#' s).1).1).2 := fun h =>
    breakAt_not_mem _ _ (mem_of_mem_parseScheme h)
  have hhash : '#' ∉ (parseScheme (breakAt '?' (breakAt '#' s).1).1).2 := fun h =>
    breakAt_not_mem _ _ (mem_of_mem_breakAt (mem_of_mem_parseScheme h))
  exact {
    scheme := fun scheme h => parseScheme_scheme h
    authority := fun a ha =>
      ⟨hauthority a ha, fun h => hquestion (mem_of_mem_parseHierarchy.2 a ha h),
        fun h => hhash (mem_of_mem_parseHierarchy.2 a ha h)⟩
    path := ⟨fun h => hquestion (mem_of_mem_parseHierarchy.1 h),
      fun h => hhash (mem_of_mem_parseHierarchy.1 h)⟩
    query := fun q hq h => breakAt_not_mem _ _ (mem_of_mem_breakAt_rest hq h)
    rooted := hrooted
    bare := hbare }

theorem directory_append (path : List Char) :
    ∃ last, path = (path.reverse.dropWhile fun c => c ≠ '/').reverse ++ last := by
  refine ⟨(path.reverse.takeWhile fun c => c ≠ '/').reverse, ?_⟩
  rw [← List.reverse_append, List.takeWhile_append_dropWhile, List.reverse_reverse]

variable {path : List Char}

theorem directory_rooted (h : path.head? = some '/') :
    (path.reverse.dropWhile fun c => c ≠ '/').reverse.head? = some '/' := by
  obtain ⟨last, hlast⟩ := directory_append path
  have hne : (path.reverse.dropWhile fun c => c ≠ '/').reverse ≠ [] := by
    rw [Ne, List.reverse_eq_nil_iff, List.dropWhile_eq_nil_iff]
    obtain ⟨rest, rfl⟩ := List.head?_eq_some_iff.mp h
    intro hall
    simpa using hall '/' (by simp)
  rw [hlast, List.head?_append] at h
  obtain ⟨c, rest, hcons⟩ := List.exists_cons_of_ne_nil hne
  rw [hcons] at h ⊢
  simpa using h

theorem mem_of_mem_directory (h : x ∈ (path.reverse.dropWhile fun c => c ≠ '/').reverse) :
    x ∈ path := by
  obtain ⟨last, hlast⟩ := directory_append path
  rw [hlast]
  exact List.mem_append_left _ h

variable {base : Reference}

theorem merge_rooted (hbase : base.WellFormed) (h : base.authority.isSome) (path : List Char) :
    (merge base path).head? = some '/' := by
  unfold merge
  split_ifs with hempty
  · rfl
  · have hroot := (hbase.rooted h).resolve_left fun hnil => hempty ⟨h, hnil⟩
    rw [List.head?_append, directory_rooted hroot]
    rfl

theorem mem_of_mem_merge (hx : x ≠ '/') (h : x ∈ merge base path) : x ∈ base.path ∨ x ∈ path := by
  unfold merge at h
  split_ifs at h
  · exact .inr (List.mem_of_ne_of_mem hx h)
  · exact (List.mem_append.mp h).imp_left mem_of_mem_directory

variable {r : Reference}

/-- **The components of a target.** -/
theorem transform_wellFormed (hbase : base.WellFormed) (hauthority : base.authority.isSome)
    (hr : r.WellFormed) :
    (transform id base r).WellFormed := by
  unfold transform
  by_cases hscheme : r.scheme.isSome = true
  · rw [if_pos hscheme]
    exact ⟨hr.scheme, hr.authority, hr.path, hr.query, hr.rooted, hr.bare⟩
  rw [if_neg hscheme]
  by_cases hnetwork : r.authority.isSome = true
  · rw [if_pos hnetwork]
    exact ⟨hbase.scheme, hr.authority, hr.path, hr.query, hr.rooted, hr.bare⟩
  rw [if_neg hnetwork]
  have hbare : ∀ path : List Char, base.authority = none → path.take 2 ≠ ['/', '/'] :=
    fun _ hnone => by simp [hnone] at hauthority
  by_cases hempty : r.path = []
  · rw [if_pos hempty]
    refine ⟨hbase.scheme, hbase.authority, hbase.path, fun q hq => ?_, hbase.rooted, hbase.bare⟩
    by_cases hquery : r.query.isSome = true
    · rw [if_pos hquery] at hq
      exact hr.query q hq
    · rw [if_neg hquery] at hq
      exact hbase.query q hq
  rw [if_neg hempty]
  by_cases hroot : r.path.head? = some '/'
  · rw [if_pos hroot]
    exact ⟨hbase.scheme, hbase.authority, hr.path, hr.query, fun _ => .inr hroot, hbare _⟩
  · rw [if_neg hroot]
    have hpath : ∀ x, x ≠ '/' → x ∉ base.path → x ∉ r.path → x ∉ merge base r.path :=
      fun x hx hb hp h => (mem_of_mem_merge hx h).elim hb hp
    exact ⟨hbase.scheme, hbase.authority,
      ⟨hpath '?' (by decide) hbase.path.1 hr.path.1, hpath '#' (by decide) hbase.path.2 hr.path.2⟩,
      hr.query, fun _ => .inr (merge_rooted hbase hauthority r.path), hbare _⟩

def Reference.SameDocument (r : Reference) : Prop :=
  r.scheme = none ∧ r.authority = none ∧ r.path = []

instance (r : Reference) : Decidable r.SameDocument :=
  inferInstanceAs (Decidable (_ ∧ _ ∧ _))

theorem transform_dots (dots : List Char → List Char) (base r : Reference) :
    transform dots base r =
      { transform id base r with
        path := if r.SameDocument then (transform id base r).path
          else dots (transform id base r).path } := by
  unfold transform
  by_cases hscheme : r.scheme.isSome = true
  · have hnot : ¬ r.SameDocument := fun h => by simp [h.1] at hscheme
    simp only [if_pos hscheme, if_neg hnot, id]
  by_cases hnetwork : r.authority.isSome = true
  · have hnot : ¬ r.SameDocument := fun h => by simp [h.2.1] at hnetwork
    simp only [if_neg hscheme, if_pos hnetwork, if_neg hnot, id]
  by_cases hempty : r.path = []
  · have hsame : r.SameDocument :=
      ⟨by simpa using hscheme, by simpa using hnetwork, hempty⟩
    simp only [if_neg hscheme, if_neg hnetwork, if_pos hempty, if_pos hsame]
  · have hnot : ¬ r.SameDocument := fun h => hempty h.2.2
    by_cases hroot : r.path.head? = some '/'
    · simp only [if_neg hscheme, if_neg hnetwork, if_neg hempty, if_pos hroot, if_neg hnot, id]
    · simp only [if_neg hscheme, if_neg hnetwork, if_neg hempty, if_neg hroot, if_neg hnot, id]

def Reference.chars (r : Reference) : List Char :=
  r.scheme.getD [] ++ r.authority.getD [] ++ r.path ++ r.query.getD [] ++ r.fragment.getD []

theorem mem_recompose (h : x ∈ recompose r) : x ∈ r.chars ∨ x ∈ [':', '/', '?', '#'] := by
  obtain ⟨scheme, authority, path, query, fragment⟩ := r
  have hmark : ∀ {mark : List Char} {o : Option (List Char)}, x ∈ withPrefix mark o →
      x ∈ mark ∨ x ∈ o.getD [] := by
    intro mark o hx
    cases o with
    | none => simp [withPrefix] at hx
    | some s => simpa [withPrefix] using hx
  have hscheme : x ∈ schemeText scheme → x ∈ scheme.getD [] ∨ x = ':' := by
    intro hx
    cases scheme with
    | none => simp [schemeText] at hx
    | some s => simpa [schemeText] using hx
  simp only [recompose, List.mem_append] at h
  simp only [Reference.chars, List.mem_append, List.mem_cons, List.not_mem_nil, or_false]
  rcases h with (((h | h) | h) | h) | h
  · rcases hscheme h with h | h <;> simp [h]
  · rcases hmark h with h | h
    · simp_all
    · simp [h]
  · simp [h]
  · rcases hmark h with h | h
    · simp_all
    · simp [h]
  · rcases hmark h with h | h
    · simp_all
    · simp [h]

theorem mem_of_mem_chars (h : x ∈ (parse s).chars) : x ∈ s := by
  rw [← recompose_parse s]
  simp only [Reference.chars, List.mem_append] at h
  simp only [recompose, List.mem_append]
  have hmark : ∀ {mark : List Char} {o : Option (List Char)}, x ∈ o.getD [] →
      x ∈ withPrefix mark o := by
    intro mark o hx
    cases o with
    | none => simp at hx
    | some s => exact List.mem_append_right _ hx
  have hscheme : x ∈ (parse s).scheme.getD [] → x ∈ schemeText (parse s).scheme := by
    intro hx
    cases hs : (parse s).scheme with
    | none => simp [hs] at hx
    | some t =>
      rw [hs] at hx
      exact List.mem_append_left _ hx
  rcases h with (((h | h) | h) | h) | h
  · exact .inl (.inl (.inl (.inl (hscheme h))))
  · exact .inl (.inl (.inl (.inr (hmark h))))
  · exact .inl (.inl (.inr h))
  · exact .inl (.inr (hmark h))
  · exact .inr (hmark h)

theorem mem_transform (hx : x ≠ '/') (h : x ∈ (transform id base r).chars) :
    x ∈ base.chars ∨ x ∈ r.chars := by
  have hmerge : x ∈ merge base r.path → x ∈ base.path ∨ x ∈ r.path := mem_of_mem_merge hx
  unfold transform at h
  split_ifs at h <;>
    simp only [Reference.chars, List.mem_append, id] at h ⊢ <;> tauto

/-! ## Segments -/

def slashed (segments : List (List Char)) : List Char := segments.flatMap fun s => '/' :: s

def isDots (s : List Char) : Bool := s == ['.'] || s == ['.', '.']

/-- One segment of a path, on the stack of the output. -/
def dotStep (stack : List (List Char)) (s : List Char) : List (List Char) :=
  if s = ['.'] then stack else if s = ['.', '.'] then stack.tail else s :: stack

def dotWalk (stack segments : List (List Char)) : List (List Char) := segments.foldl dotStep stack

def endsInDots (segments : List (List Char)) : Bool := segments.getLast?.any isDots

def dotOutput (stack segments : List (List Char)) : List (List Char) :=
  if endsInDots segments then [] :: dotWalk stack segments else dotWalk stack segments

@[simp] theorem slashed_nil : slashed [] = [] := rfl

@[simp] theorem slashed_cons (s : List Char) (rest : List (List Char)) :
    slashed (s :: rest) = '/' :: (s ++ slashed rest) := rfl

@[simp] theorem slashed_append (l l' : List (List Char)) :
    slashed (l ++ l') = slashed l ++ slashed l' :=
  List.flatMap_append

@[simp] theorem dotOutput_cons (stack : List (List Char)) (s t : List Char)
    (rest : List (List Char)) :
    dotOutput stack (s :: t :: rest) = dotOutput (dotStep stack s) (t :: rest) := by
  rfl

@[simp] theorem slashed_eq_nil {l : List (List Char)} : slashed l = [] ↔ l = [] := by
  cases l <;> simp

theorem takeWhile_slashed (hs : '/' ∉ s) (rest : List (List Char)) :
    ((s ++ slashed rest).takeWhile fun c => c ≠ '/') = s := by
  rw [List.takeWhile_append_of_pos fun c hc => by
    simp only [ne_eq, decide_eq_true_eq]
    rintro rfl
    exact hs hc]
  cases rest <;> simp

theorem dropWhile_slashed (hs : '/' ∉ s) (rest : List (List Char)) :
    ((s ++ slashed rest).dropWhile fun c => c ≠ '/') = slashed rest := by
  rw [List.dropWhile_append_of_pos fun c hc => by
    simp only [ne_eq, decide_eq_true_eq]
    rintro rfl
    exact hs hc]
  cases rest <;> simp

theorem slashed_injective {l l' : List (List Char)} (hl : ∀ s ∈ l, '/' ∉ s)
    (hl' : ∀ s ∈ l', '/' ∉ s) (h : slashed l = slashed l') : l = l' := by
  induction l generalizing l' with
  | nil =>
    cases l' with
    | nil => rfl
    | cons s rest => simp at h
  | cons s rest ih =>
    cases l' with
    | nil => simp at h
    | cons s' rest' =>
      simp only [slashed_cons, List.cons.injEq, true_and] at h
      have hs := hl s List.mem_cons_self
      have hs' := hl' s' List.mem_cons_self
      have hhead : s = s' := by
        rw [← takeWhile_slashed hs rest, h, takeWhile_slashed hs' rest']
      have htail : slashed rest = slashed rest' := by
        rw [← dropWhile_slashed hs rest, h, dropWhile_slashed hs' rest']
      rw [hhead, ih (fun t ht => hl t (List.mem_cons_of_mem _ ht))
        (fun t ht => hl' t (List.mem_cons_of_mem _ ht)) htail]

theorem removeLast_append (root : List Char) (hs : '/' ∉ s) :
    removeLast (root ++ '/' :: s) = root := by
  have hdrop : ((root ++ '/' :: s).reverse.dropWhile fun c => c ≠ '/') = '/' :: root.reverse := by
    rw [List.reverse_append, List.reverse_cons, List.append_assoc, List.dropWhile_append_of_pos]
    · simp
    · intro c hc
      simp only [ne_eq, decide_eq_true_eq]
      rintro rfl
      exact hs (List.mem_reverse.mp hc)
  rw [removeLast, hdrop]
  simp

theorem removeLast_of_not_mem {root : List Char} (h : '/' ∉ root) : removeLast root = [] := by
  have hdrop : (root.reverse.dropWhile fun c => c ≠ '/') = [] := by
    rw [List.dropWhile_eq_nil_iff]
    intro c hc
    simp only [ne_eq, decide_eq_true_eq]
    rintro rfl
    exact h (List.mem_reverse.mp hc)
  rw [removeLast, hdrop]
  rfl

variable {stack : List (List Char)}

theorem removeLast_slashed (h : ∀ s ∈ stack, '/' ∉ s) :
    removeLast (slashed stack.reverse) = slashed stack.tail.reverse := by
  cases stack with
  | nil => rfl
  | cons s rest => simpa using removeLast_append (slashed rest.reverse) (h s List.mem_cons_self)

theorem loop_nil (output : List Char) : removeDotSegmentsLoop [] output = output := by
  rw [removeDotSegmentsLoop]
  simp

theorem loop_slash (output : List Char) : removeDotSegmentsLoop ['/'] output = output ++ ['/'] := by
  rw [removeDotSegmentsLoop]
  simp [loop_nil]

variable {t : List Char} {more : List (List Char)}

theorem segment_eq {rest : List Char} (hs : '/' ∉ s) (ht : '/' ∉ t)
    (h : s ++ slashed more = t ++ '/' :: rest) : s = t := by
  have htake := congrArg (List.takeWhile fun c => c ≠ '/') h
  rw [takeWhile_slashed hs, List.takeWhile_append_of_pos fun c hc => by
    simp only [ne_eq, decide_eq_true_eq]
    rintro rfl
    exact ht hc] at htake
  simpa using htake

theorem segment_eq_of_last (ht : '/' ∉ t) (h : s ++ slashed more = t) : s = t := by
  cases more with
  | nil => simpa using h
  | cons m more =>
    exfalso
    apply ht
    rw [← h]
    simp

theorem eq_append_of_take {input : List Char} {k : ℕ} (h : input.take k = front) :
    ∃ rest, input = front ++ rest :=
  ⟨input.drop k, by rw [← h, List.take_append_drop]⟩

theorem loop_segment (hs : '/' ∉ s) (hdots : isDots s = false) (rest : List (List Char))
    (output : List Char) :
    removeDotSegmentsLoop (slashed (s :: rest)) output
      = removeDotSegmentsLoop (slashed rest) (output ++ '/' :: s) := by
  have hdot : s ≠ ['.'] := by rintro rfl; simp [isDots] at hdots
  have hdotdot : s ≠ ['.', '.'] := by rintro rfl; simp [isDots] at hdots
  rw [removeDotSegmentsLoop, slashed_cons, dif_neg (by simp), if_neg, if_neg, if_neg, if_neg,
    if_neg, if_neg, if_neg]
  · simp only [List.tail_cons, List.head_cons]
    rw [dropWhile_slashed hs, takeWhile_slashed hs]
  · simp
  · intro h
    simp only [List.cons.injEq, true_and] at h
    exact hdotdot (segment_eq_of_last (by simp) h)
  · intro h
    obtain ⟨more, hmore⟩ := eq_append_of_take h
    simp only [List.cons_append, List.nil_append, List.cons.injEq, true_and] at hmore
    exact hdotdot (segment_eq hs (by simp) (t := ['.', '.']) hmore)
  · intro h
    simp only [List.cons.injEq, true_and] at h
    exact hdot (segment_eq_of_last (by simp) h)
  · intro h
    obtain ⟨more, hmore⟩ := eq_append_of_take h
    simp only [List.cons_append, List.nil_append, List.cons.injEq, true_and] at hmore
    exact hdot (segment_eq hs (by simp) (t := ['.']) hmore)
  · intro h
    simp at h
  · intro h
    simp at h

theorem loop_dots (rest : List (List Char)) (output : List Char) :
    removeDotSegmentsLoop (slashed (['.'] :: rest)) output
      = removeDotSegmentsLoop (if rest = [] then ['/'] else slashed rest) output := by
  rw [removeDotSegmentsLoop]
  cases rest <;> simp

theorem loop_dotdot (rest : List (List Char)) (output : List Char) :
    removeDotSegmentsLoop (slashed (['.', '.'] :: rest)) output
      = removeDotSegmentsLoop (if rest = [] then ['/'] else slashed rest) (removeLast output) := by
  rw [removeDotSegmentsLoop]
  cases rest <;> simp

theorem dotStep_not_mem (h : ∀ t ∈ stack, '/' ∉ t) (hs : '/' ∉ s) :
    ∀ t ∈ dotStep stack s, '/' ∉ t := by
  intro t ht
  unfold dotStep at ht
  split_ifs at ht
  · exact h t ht
  · exact h t (List.mem_of_mem_tail ht)
  · rcases List.mem_cons.mp ht with rfl | ht
    · exact hs
    · exact h t ht

variable {segments : List (List Char)}

/-- **A rooted path.** The loop is the walk. -/
theorem loop_slashed (hne : segments ≠ []) (hsegments : ∀ s ∈ segments, '/' ∉ s)
    (stack : List (List Char)) (hstack : ∀ s ∈ stack, '/' ∉ s) :
    removeDotSegmentsLoop (slashed segments) (slashed stack.reverse)
      = slashed (dotOutput stack segments).reverse := by
  induction segments generalizing stack with
  | nil => exact absurd rfl hne
  | cons s rest ih =>
    have hs := hsegments s List.mem_cons_self
    have hstep : removeDotSegmentsLoop (slashed (s :: rest)) (slashed stack.reverse)
        = removeDotSegmentsLoop (if isDots s ∧ rest = [] then ['/'] else slashed rest)
          (slashed (dotStep stack s).reverse) := by
      by_cases hdot : s = ['.']
      · subst hdot
        rw [loop_dots]
        simp [isDots, dotStep]
      by_cases hdotdot : s = ['.', '.']
      · subst hdotdot
        rw [loop_dotdot, removeLast_slashed hstack]
        simp [isDots, dotStep]
      · have hdots : isDots s = false := by simp [isDots, hdot, hdotdot]
        rw [loop_segment hs hdots, hdots]
        simp [dotStep, hdot, hdotdot]
    rw [hstep]
    cases rest with
    | nil =>
      by_cases hdots : isDots s = true
      · simp [hdots, loop_slash, dotOutput, endsInDots, dotWalk]
      · simp [hdots, loop_nil, dotOutput, endsInDots, dotWalk]
    | cons t rest =>
      rw [dotOutput_cons, if_neg (by simp)]
      exact ih (by simp) (fun u hu => hsegments u (List.mem_cons_of_mem _ hu)) _
        (dotStep_not_mem hstack hs)

theorem removeDotSegments_slashed (hne : segments ≠ []) (hsegments : ∀ s ∈ segments, '/' ∉ s) :
    removeDotSegments (slashed segments) = slashed (dotOutput [] segments).reverse :=
  loop_slashed hne hsegments [] (by simp)

/-! ## Rootless paths -/

def descend : ℕ → List (List Char) → Option (List (List Char))
  | _, [] => none
  | depth, s :: rest =>
    if s = ['.'] then descend depth rest
    else if s = ['.', '.'] then
      match depth with
      | 0 => some (if rest = [] then [['.']] else rest)
      | depth + 1 => descend depth rest
    else descend (depth + 1) rest

def rootedRest : List (List Char) → Option (List (List Char))
  | [] => none
  | [_] => none
  | s :: t :: rest =>
    if isDots s then rootedRest (t :: rest)
    else if s = [] then some (t :: rest)
    else descend 0 (t :: rest)

def rootless : List (List Char) → List Char
  | [] => []
  | s :: rest => s ++ slashed rest

theorem descend_cons (h : ¬ (s = ['.', '.'] ∧ stack = [])) (rest : List (List Char)) :
    descend stack.length (s :: rest) = descend (dotStep stack s).length rest := by
  by_cases hdot : s = ['.']
  · simp [descend, dotStep, hdot]
  by_cases hdotdot : s = ['.', '.']
  · cases stack with
    | nil => exact absurd ⟨hdotdot, rfl⟩ h
    | cons t stack => simp [descend, dotStep, hdotdot]
  · simp [descend, dotStep, hdot, hdotdot]

section Descend

variable {root : List Char}

theorem loop_above (hs : '/' ∉ s) (rest stack : List (List Char)) (hstack : ∀ t ∈ stack, '/' ∉ t)
    (h : s = ['.', '.'] → stack ≠ []) :
    removeDotSegmentsLoop (slashed (s :: rest)) (root ++ slashed stack.reverse)
      = removeDotSegmentsLoop (if isDots s ∧ rest = [] then ['/'] else slashed rest)
        (root ++ slashed (dotStep stack s).reverse) := by
  by_cases hdot : s = ['.']
  · subst hdot
    rw [loop_dots]
    simp [isDots, dotStep]
  by_cases hdotdot : s = ['.', '.']
  · subst hdotdot
    rw [loop_dotdot]
    cases stack with
    | nil => exact absurd rfl (h rfl)
    | cons t stack =>
      have hlast : removeLast (root ++ slashed (t :: stack).reverse)
          = root ++ slashed stack.reverse := by
        simpa using removeLast_append (root ++ slashed stack.reverse) (hstack t List.mem_cons_self)
      rw [hlast]
      simp [isDots, dotStep]
  · have hdots : isDots s = false := by simp [isDots, hdot, hdotdot]
    rw [loop_segment hs hdots, hdots]
    simp [dotStep, hdot, hdotdot]

theorem loop_descend (hroot : '/' ∉ root) {r : List (List Char)}
    (hsegments : ∀ s ∈ segments, '/' ∉ s) (stack : List (List Char)) (hstack : ∀ s ∈ stack, '/' ∉ s)
    (h : descend stack.length segments = some r) :
    r ≠ [] ∧ (∀ s ∈ r, '/' ∉ s) ∧
      removeDotSegmentsLoop (slashed segments) (root ++ slashed stack.reverse)
        = slashed (dotOutput [] r).reverse := by
  induction segments generalizing stack with
  | nil => cases h
  | cons s rest ih =>
    have hs := hsegments s List.mem_cons_self
    have hrest : ∀ t ∈ rest, '/' ∉ t := fun t ht => hsegments t (List.mem_cons_of_mem _ ht)
    by_cases hescape : s = ['.', '.'] ∧ stack = []
    · obtain ⟨rfl, rfl⟩ := hescape
      have hr : r = if rest = [] then [['.']] else rest := by
        simp only [descend, List.length_nil] at h
        simpa using h.symm
      rw [loop_dotdot]
      have hempty : removeLast (root ++ slashed ([] : List (List Char)).reverse) = [] := by
        simpa using removeLast_of_not_mem hroot
      rw [hempty, hr]
      split_ifs with hnil
      · exact ⟨by simp, by simp, by rw [loop_slash]; rfl⟩
      · exact ⟨hnil, hrest, by simpa using loop_slashed hnil hrest [] (by simp)⟩
    · rw [loop_above hs rest stack hstack fun hd hn => hescape ⟨hd, hn⟩]
      have hnext : descend (dotStep stack s).length rest = some r := by
        rwa [descend_cons hescape] at h
      have hne : rest ≠ [] := by
        rintro rfl
        cases hnext
      rw [if_neg (by simp [hne])]
      exact ih hrest _ (dotStep_not_mem hstack hs) hnext

theorem loop_descend_none (hsegments : ∀ s ∈ segments, '/' ∉ s) (stack : List (List Char))
    (hstack : ∀ s ∈ stack, '/' ∉ s) (h : descend stack.length segments = none) :
    ∃ t, removeDotSegmentsLoop (slashed segments) (root ++ slashed stack.reverse) = root ++ t := by
  induction segments generalizing stack with
  | nil => exact ⟨_, by rw [slashed_nil, loop_nil]⟩
  | cons s rest ih =>
    have hs := hsegments s List.mem_cons_self
    have hrest : ∀ t ∈ rest, '/' ∉ t := fun t ht => hsegments t (List.mem_cons_of_mem _ ht)
    have hescape : ¬ (s = ['.', '.'] ∧ stack = []) := by
      rintro ⟨rfl, rfl⟩
      simp [descend] at h
    rw [loop_above hs rest stack hstack fun hd hn => hescape ⟨hd, hn⟩]
    have hnext : descend (dotStep stack s).length rest = none := by
      rwa [descend_cons hescape] at h
    split_ifs with hlast
    · exact ⟨_, by rw [loop_slash, List.append_assoc]⟩
    · exact ih hrest _ (dotStep_not_mem hstack hs) hnext

end Descend

theorem loop_front_dots (hs : isDots s = true) (rest : List (List Char)) :
    removeDotSegmentsLoop (rootless (s :: rest)) [] = removeDotSegmentsLoop (rootless rest) [] := by
  have hcase : s = ['.'] ∨ s = ['.', '.'] := by simpa [isDots] using hs
  rw [removeDotSegmentsLoop]
  rcases hcase with rfl | rfl <;> cases rest <;> simp [rootless, loop_nil]

theorem loop_front (hs : '/' ∉ s) (hne : s ≠ []) (hdots : isDots s = false)
    (rest : List (List Char)) :
    removeDotSegmentsLoop (rootless (s :: rest)) [] = removeDotSegmentsLoop (slashed rest) s := by
  have hdot : s ≠ ['.'] := by rintro rfl; simp [isDots] at hdots
  have hdotdot : s ≠ ['.', '.'] := by rintro rfl; simp [isDots] at hdots
  obtain ⟨c, cs, rfl⟩ := List.exists_cons_of_ne_nil hne
  have hc : c ≠ '/' := by rintro rfl; simp at hs
  have hcs : '/' ∉ cs := fun hmem => hs (List.mem_cons_of_mem _ hmem)
  rw [removeDotSegmentsLoop, rootless, dif_neg (by simp), if_neg, if_neg, if_neg, if_neg,
    if_neg, if_neg, if_neg]
  · simp only [List.cons_append, List.tail_cons, List.head_cons, List.nil_append]
    rw [dropWhile_slashed hcs, takeWhile_slashed hcs]
  · rintro (h | h)
    · exact hdot (segment_eq_of_last (by simp) h)
    · exact hdotdot (segment_eq_of_last (by simp) h)
  · intro h
    simp [hc] at h
  · intro h
    obtain ⟨more, hmore⟩ := eq_append_of_take h
    simp [hc] at hmore
  · intro h
    simp [hc] at h
  · intro h
    obtain ⟨more, hmore⟩ := eq_append_of_take h
    simp [hc] at hmore
  · intro h
    obtain ⟨more, hmore⟩ := eq_append_of_take h
    exact hdot (segment_eq hs (by simp) (t := ['.']) hmore)
  · intro h
    obtain ⟨more, hmore⟩ := eq_append_of_take h
    exact hdotdot (segment_eq hs (by simp) (t := ['.', '.']) hmore)

theorem rootless_nil_cons (t : List Char) (rest : List (List Char)) :
    rootless ([] :: t :: rest) = slashed (t :: rest) := rfl

/-- **A rootless path** whose walk empties the output. -/
theorem removeDotSegments_rootless {r : List (List Char)} (hsegments : ∀ s ∈ segments, '/' ∉ s)
    (h : rootedRest segments = some r) :
    r ≠ [] ∧ (∀ s ∈ r, '/' ∉ s) ∧
      removeDotSegments (rootless segments) = slashed (dotOutput [] r).reverse := by
  induction segments using rootedRest.induct with
  | case1 => cases h
  | case2 s => cases h
  | case3 s t rest hdots ih =>
    rw [rootedRest, if_pos hdots] at h
    have hrest := ih (fun u hu => hsegments u (List.mem_cons_of_mem _ hu)) h
    rwa [removeDotSegments, loop_front_dots hdots]
  | case4 t rest hdots =>
    cases h
    have hrest : ∀ u ∈ t :: rest, '/' ∉ u := fun u hu => hsegments u (List.mem_cons_of_mem _ hu)
    exact ⟨by simp, hrest, removeDotSegments_slashed (by simp) hrest⟩
  | case5 s t rest hdots hne =>
    rw [rootedRest, if_neg hdots, if_neg hne] at h
    have hs := hsegments s List.mem_cons_self
    have hrest : ∀ u ∈ t :: rest, '/' ∉ u := fun u hu => hsegments u (List.mem_cons_of_mem _ hu)
    rw [removeDotSegments, loop_front hs hne (by simpa using hdots)]
    simpa using loop_descend hs hrest [] (by simp) h

theorem removeDotSegments_rootless_none (hsegments : ∀ s ∈ segments, '/' ∉ s)
    (h : rootedRest segments = none) :
    (removeDotSegments (rootless segments) = [] ∧
        ∀ s ∈ segments, isDots s = true ∨ (s = [] ∧ segments.getLast? = some [])) ∨
      ∃ c t, c ≠ '/' ∧ removeDotSegments (rootless segments) = c :: t := by
  induction segments using rootedRest.induct with
  | case1 => exact .inl ⟨loop_nil [], by simp⟩
  | case2 s =>
    have hs := hsegments s List.mem_cons_self
    by_cases hdots : isDots s = true
    · refine .inl ⟨?_, by simp [hdots]⟩
      rw [removeDotSegments, loop_front_dots hdots]
      exact loop_nil []
    by_cases hne : s = []
    · subst hne
      exact .inl ⟨loop_nil [], by simp⟩
    · obtain ⟨c, cs, rfl⟩ := List.exists_cons_of_ne_nil hne
      refine .inr ⟨c, cs, ?_, ?_⟩
      · rintro rfl
        simp at hs
      · rw [removeDotSegments, loop_front hs hne (by simpa using hdots)]
        exact loop_nil _
  | case3 s t rest hdots ih =>
    rw [rootedRest, if_pos hdots] at h
    have hrest := ih (fun u hu => hsegments u (List.mem_cons_of_mem _ hu)) h
    rw [removeDotSegments, loop_front_dots hdots]
    rcases hrest with ⟨hnil, hall⟩ | hroot
    · refine .inl ⟨hnil, fun u hu => ?_⟩
      rcases List.mem_cons.mp hu with rfl | hu
      · exact .inl hdots
      · simpa using hall u hu
    · exact .inr hroot
  | case4 t rest hdots =>
    cases h
  | case5 s t rest hdots hne =>
    rw [rootedRest, if_neg hdots, if_neg hne] at h
    have hs := hsegments s List.mem_cons_self
    have hrest : ∀ u ∈ t :: rest, '/' ∉ u := fun u hu => hsegments u (List.mem_cons_of_mem _ hu)
    obtain ⟨more, hmore⟩ : ∃ more, removeDotSegmentsLoop (slashed (t :: rest))
        (s ++ slashed ([] : List (List Char)).reverse) = s ++ more :=
      loop_descend_none hrest [] (by simp) h
    obtain ⟨c, cs, rfl⟩ := List.exists_cons_of_ne_nil hne
    refine .inr ⟨c, cs ++ more, ?_, ?_⟩
    · rintro rfl
      simp at hs
    · rw [removeDotSegments, loop_front hs hne (by simpa using hdots)]
      simpa using hmore

theorem rootedRest_of_dots (h : ∀ s ∈ segments, isDots s = true) : rootedRest segments = none := by
  induction segments using rootedRest.induct with
  | case1 => rfl
  | case2 s => rfl
  | case3 s t rest hdots ih =>
    rw [rootedRest, if_pos hdots]
    exact ih fun u hu => h u (List.mem_cons_of_mem _ hu)
  | case4 t rest hdots => exact absurd (h [] List.mem_cons_self) hdots
  | case5 s t rest hdots hne => exact absurd (h s List.mem_cons_self) hdots

/-! ## Lengths -/

theorem removeLast_length (output : List Char) : (removeLast output).length ≤ output.length := by
  have hle := (List.dropWhile_sublist (fun c => decide (c ≠ '/')) (l := output.reverse)).length_le
  rw [List.length_reverse] at hle
  rw [removeLast, List.length_reverse, List.length_drop]
  omega

theorem loop_length (input output : List Char) :
    (removeDotSegmentsLoop input output).length ≤ input.length + output.length := by
  induction input, output using removeDotSegmentsLoop.induct with
  | case1 output => simp [loop_nil]
  | case2 input output h hA ih =>
    rw [removeDotSegmentsLoop, dif_neg h, if_pos hA]
    rw [List.length_drop] at ih
    omega
  | case3 input output h hA₁ hA₂ ih =>
    rw [removeDotSegmentsLoop, dif_neg h, if_neg hA₁, if_pos hA₂]
    rw [List.length_drop] at ih
    omega
  | case4 input output h hA₁ hA₂ hB ih =>
    rw [removeDotSegmentsLoop, dif_neg h, if_neg hA₁, if_neg hA₂, if_pos hB]
    rw [List.length_drop] at ih
    omega
  | case5 output h hA₁ hA₂ hB₁ ih =>
    rw [removeDotSegmentsLoop, dif_neg h, if_neg hA₁, if_neg hA₂, if_neg hB₁, if_pos rfl]
    simp only [List.length_cons, List.length_nil] at ih ⊢
    omega
  | case6 input output h hA₁ hA₂ hB₁ hB₂ hC ih =>
    rw [removeDotSegmentsLoop, dif_neg h, if_neg hA₁, if_neg hA₂, if_neg hB₁, if_neg hB₂, if_pos hC]
    have hlast := removeLast_length output
    rw [List.length_drop] at ih
    omega
  | case7 output h hA₁ hA₂ hB₁ hB₂ hC₁ ih =>
    rw [removeDotSegmentsLoop, dif_neg h, if_neg hA₁, if_neg hA₂, if_neg hB₁, if_neg hB₂,
      if_neg hC₁, if_pos rfl]
    have hlast := removeLast_length output
    simp only [List.length_cons, List.length_nil] at ih ⊢
    omega
  | case8 input output h hA₁ hA₂ hB₁ hB₂ hC₁ hC₂ hD =>
    rw [removeDotSegmentsLoop, dif_neg h, if_neg hA₁, if_neg hA₂, if_neg hB₁, if_neg hB₂,
      if_neg hC₁, if_neg hC₂, if_pos hD]
    omega
  | case9 input output h hA₁ hA₂ hB₁ hB₂ hC₁ hC₂ hD ih =>
    rw [removeDotSegmentsLoop, dif_neg h, if_neg hA₁, if_neg hA₂, if_neg hB₁, if_neg hB₂,
      if_neg hC₁, if_neg hC₂, if_neg hD]
    have hsplit := congrArg List.length
      (List.takeWhile_append_dropWhile (p := fun c => decide (c ≠ '/')) (l := input.tail))
    have hpos := List.length_pos_of_ne_nil h
    simp only [List.length_append, List.length_cons, List.length_tail] at ih hsplit ⊢
    omega

theorem removeDotSegments_length (path : List Char) :
    (removeDotSegments path).length ≤ path.length := loop_length path []

/-! ## The segments of a path -/

theorem rootless_eq_intercalate : ∀ {segments : List (List Char)}, segments ≠ [] →
    rootless segments = ['/'].intercalate segments
  | [s], _ => by simp [rootless, List.intercalate]
  | s :: t :: rest, _ => by
    have ih := rootless_eq_intercalate (List.cons_ne_nil t rest)
    rw [rootless, slashed_cons, List.intercalate_cons_cons, ← ih, rootless]
    simp

theorem rootless_splitOn (s : List Char) : rootless (s.splitOn '/') = s := by
  rw [rootless_eq_intercalate (List.splitOn_ne_nil _ _), List.intercalate_splitOn]

theorem slashed_splitOn (s : List Char) : slashed (s.splitOn '/') = '/' :: s := by
  have h := rootless_splitOn s
  cases hsplit : s.splitOn '/' with
  | nil => exact absurd hsplit (List.splitOn_ne_nil _ _)
  | cons t rest =>
    rw [hsplit] at h
    rw [slashed_cons, ← h, rootless]

theorem not_mem_of_mem_splitOn (h : t ∈ s.splitOn '/') : '/' ∉ t := by
  induction s generalizing t with
  | nil =>
    rw [List.splitOn_nil, List.mem_singleton] at h
    simp [h]
  | cons c rest ih =>
    rw [List.splitOn_cons_eq_if_modifyHead] at h
    split_ifs at h with hc
    · rcases List.mem_cons.mp h with rfl | h
      · simp
      · exact ih h
    · cases hsplit : rest.splitOn '/' with
      | nil => exact absurd hsplit (List.splitOn_ne_nil _ _)
      | cons u more =>
        rw [hsplit, List.modifyHead_cons] at h
        rcases List.mem_cons.mp h with rfl | h
        · have hu := ih (t := u) (by simp [hsplit])
          simp only [List.mem_cons, not_or]
          exact ⟨fun heq => hc (by simp [← heq]), hu⟩
        · exact ih (by simp [hsplit, h])

end Uri
