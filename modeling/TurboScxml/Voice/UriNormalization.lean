import TurboScxml.Voice.Uri

/-!
# The normaliser as a walk

* `normalizeStep`, `normalizeWalk`: the stack of segments that the buffer and its cursors hold;
* `normalizeAbsoluteUri_eq`: the value of the normaliser, where it has one;
* `normalizeAbsoluteUri_fits`: it has one if the URI and the value fit the buffer.
-/

namespace TurboScxml.Voice

open Uri

/-! ## The walk -/

def normalizeStep (leading : Bool) (stack : List Text) (s : Text) : List Text :=
  if s = [] ∨ s = ['.'] then stack
  else if s = ['.', '.'] then
    if stack = [] ∧ leading = false then [['.', '.']] else stack.tail
  else s :: stack

def normalizeWalk (leading : Bool) (stack segments : List Text) : List Text :=
  segments.foldl (normalizeStep leading) stack

def pathSegments (path : Text) : List Text :=
  (if path.head? == some '/' then path.tail else path).splitOn '/'

def normalizedPath (leading closed : Bool) (stack : List Text) : Text :=
  if closed = true ∨ (leading = true ∧ stack = []) then slashed (stack.reverse ++ [[]])
  else slashed stack.reverse

def normalizePath (path : Text) : Text :=
  normalizedPath (path.head? == some '/') (path.getLast? == some '/')
    (normalizeWalk (path.head? == some '/') [] (pathSegments path))

/-! ## The buffer of a stack -/

section Buffer

variable (leading : Bool) (front : Text) (capacity : ℕ)

def render (stack : List Text) : Text :=
  front ++ if leading = true ∧ stack = [] then ['/'] else slashed stack.reverse

def positions : List Text → List ℕ
  | [] => []
  | _ :: stack => (front.length + (slashed stack.reverse).length + 1) :: positions stack

variable {leading front capacity} {stack : List Text} {s : Text}

theorem slashed_getLast? (hs : s ≠ []) (hslash : '/' ∉ s) (stack : List Text) :
    ∃ c, c ≠ '/' ∧ (slashed (s :: stack).reverse).getLast? = some c := by
  refine ⟨s.getLast hs, fun h => hslash (h ▸ List.getLast_mem hs), ?_⟩
  simp [List.getLast?_append, List.getLast?_cons, List.getLast?_eq_some_getLast hs]

variable {out data : Text}

theorem appendBytes_eq (capacity : ℕ) (h : data ≠ []) :
    appendBytes capacity out data
      = if capacity < (out ++ data).length then none else some (out ++ data) := by
  have hpos := List.length_pos_of_ne_nil h
  unfold appendBytes
  rw [List.length_append]
  split_ifs <;> first | rfl | omega

theorem appendBytes_of_le {capacity : ℕ} (h : (out ++ data).length ≤ capacity) :
    appendBytes capacity out data = some (out ++ data) := by
  rw [List.length_append] at h
  unfold appendBytes
  rw [if_neg (by omega)]

theorem appendBytes_eq_some {capacity : ℕ} {r : Text} (h : appendBytes capacity out data = some r) :
    r = out ++ data := by
  unfold appendBytes at h
  split_ifs at h
  exact (Option.some.inj h).symm

variable (hfront : front ≠ []) (hlast : front.getLast? ≠ some '/')

include hfront hlast

theorem separate_render (hstack : ∀ t ∈ stack, t ≠ [] ∧ '/' ∉ t) :
    separate capacity (render leading front stack)
      = if ¬ (leading = true ∧ stack = []) ∧
          capacity < (front ++ slashed stack.reverse ++ ['/']).length
        then none else some (front ++ slashed stack.reverse ++ ['/']) := by
  unfold separate render
  by_cases hroot : leading = true ∧ stack = []
  · obtain ⟨rfl, rfl⟩ := hroot
    simp
  · have hend : (front ++ slashed stack.reverse).getLast? ≠ some '/' := by
      cases stack with
      | nil => simpa using hlast
      | cons t stack =>
        obtain ⟨ht, hslash⟩ := hstack t List.mem_cons_self
        obtain ⟨c, hc, hget⟩ := slashed_getLast? ht hslash stack
        rw [List.getLast?_append, hget]
        simpa using hc
    rw [if_neg hroot, if_pos ⟨by simp [hfront], hend⟩, appendBytes_eq capacity (by simp)]
    simp only [hroot, not_false_eq_true, true_and]

theorem pushSegment_render (hstack : ∀ t ∈ stack, t ≠ [] ∧ '/' ∉ t) (hs : s ≠ []) :
    pushSegment capacity ⟨render leading front stack, positions front stack⟩ s
      = if capacity < (front ++ slashed (s :: stack).reverse).length then none
        else some ⟨render leading front (s :: stack), positions front (s :: stack)⟩ := by
  have hrender : render leading front (s :: stack)
      = front ++ slashed stack.reverse ++ ['/'] ++ s := by simp [render]
  have hlength : (front ++ slashed (s :: stack).reverse).length
      = (front ++ slashed stack.reverse ++ ['/']).length + s.length := by simp; omega
  unfold pushSegment
  rw [separate_render hfront hlast hstack]
  by_cases hfull : ¬ (leading = true ∧ stack = []) ∧
      capacity < (front ++ slashed stack.reverse ++ ['/']).length
  · rw [if_pos hfull, if_pos (by omega)]
    rfl
  · rw [if_neg hfull, Option.bind_some, appendBytes_eq capacity hs]
    have hsame : (front ++ slashed stack.reverse ++ ['/'] ++ s).length
        = (front ++ slashed (s :: stack).reverse).length := by simp
    rw [hsame, ← hrender]
    split_ifs
    · rfl
    · have hposition : (front ++ slashed stack.reverse ++ ['/']).length
          = front.length + (slashed stack.reverse).length + 1 := by simp; omega
      simp only [Option.map_some, positions, hposition]

omit hfront hlast in
theorem rolledBack_slash {pathStart cursor : ℕ} (hslash : out[cursor]? = some '/')
    (hroot : ¬ (leading = true ∧ cursor = pathStart)) :
    rolledBack out leading pathStart (cursor + 1) = cursor := by
  have hback : cursor + 1 ≠ 0 ∧ out[cursor + 1 - 1]? = some '/' ∧
      ¬ (leading = true ∧ cursor + 1 = pathStart + 1) :=
    ⟨Nat.succ_ne_zero _, hslash, fun h => hroot ⟨h.1, by omega⟩⟩
  unfold rolledBack
  rw [if_pos hback, Nat.add_sub_cancel, if_neg hroot]

omit hfront hlast in
theorem rolledBack_root (out : Text) (pathStart : ℕ) :
    rolledBack out true pathStart (pathStart + 1) = pathStart + 1 := by
  simp [rolledBack]

omit hfront hlast in
theorem take_rolledBack (t : Text) (stack : List Text) :
    (render leading front (t :: stack)).take
        (rolledBack (render leading front (t :: stack)) leading front.length
          (front.length + (slashed stack.reverse).length + 1))
      = render leading front stack := by
  have hbuffer : render leading front (t :: stack)
      = front ++ slashed stack.reverse ++ '/' :: t := by simp [render]
  by_cases hroot : leading = true ∧ stack = []
  · obtain ⟨rfl, rfl⟩ := hroot
    have hsplit : render true front [t] = (front ++ ['/']) ++ t := by simp [render]
    have hposition : front.length + (slashed ([] : List Text).reverse).length + 1
        = front.length + 1 := rfl
    rw [hposition, rolledBack_root, hsplit, List.take_left' (by simp)]
    simp [render]
  · have hslash : (render leading front (t :: stack))[front.length + (slashed stack.reverse).length]?
        = some '/' := by
      rw [hbuffer, ← List.length_append, List.getElem?_append_right (Nat.le_refl _)]
      simp
    rw [rolledBack_slash hslash]
    · rw [hbuffer, List.take_left' (by simp)]
      simp [render, hroot]
    · rintro ⟨hlead, hlength⟩
      refine hroot ⟨hlead, ?_⟩
      have hzero : slashed stack.reverse = [] := List.length_eq_zero_iff.mp (by omega)
      cases stack with
      | nil => rfl
      | cons u stack => simp at hzero

/-- **One round** is a step of the walk. -/
theorem normalizeSegment_render (hstack : ∀ t ∈ stack, t ≠ [] ∧ '/' ∉ t) :
    normalizeSegment capacity leading front.length
        ⟨render leading front stack, positions front stack⟩ s
      = if normalizeStep leading stack s = s :: stack ∧
          capacity < (front ++ slashed (s :: stack).reverse).length then none
        else some ⟨render leading front (normalizeStep leading stack s),
          positions front (normalizeStep leading stack s)⟩ := by
  have hgrow : stack ≠ s :: stack := fun h => by
    have := congrArg List.length h
    simp at this
  have hshrink : stack.tail ≠ s :: stack := fun h => by
    have := congrArg List.length h
    simp at this
  unfold normalizeSegment normalizeStep
  by_cases hskip : s = [] ∨ s = ['.']
  · simp only [hskip, if_true, hgrow, false_and, if_false]
  have hne : s ≠ [] := fun h => hskip (.inl h)
  simp only [hskip, if_false]
  by_cases hdotdot : s = ['.', '.']
  · subst hdotdot
    cases stack with
    | nil =>
      cases leading with
      | true => simp [positions]
      | false =>
        have hpush : pushSegment capacity ⟨render false front [], positions front []⟩ ['.', '.']
            = if capacity < (front ++ slashed [['.', '.']].reverse).length then none
              else some ⟨render false front [['.', '.']], positions front [['.', '.']]⟩ :=
          pushSegment_render hfront hlast hstack hne
        simpa [positions] using hpush
    | cons t stack =>
      simp only [positions]
      rw [take_rolledBack]
      simp at hshrink
      simp [hshrink]
  · simp only [hdotdot, if_false, true_and]
    exact pushSegment_render hfront hlast hstack hne

omit hfront hlast in
theorem normalizeStep_plain (leading : Bool) (hstack : ∀ t ∈ stack, t ≠ [] ∧ '/' ∉ t)
    (hs : '/' ∉ s) : ∀ t ∈ normalizeStep leading stack s, t ≠ [] ∧ '/' ∉ t := by
  intro t ht
  unfold normalizeStep at ht
  split_ifs at ht with hskip hdotdot hroot
  · exact hstack t ht
  · rw [List.mem_singleton.mp ht]
    simp
  · exact hstack t (List.mem_of_mem_tail ht)
  · rcases List.mem_cons.mp ht with rfl | ht
    · exact ⟨fun h => hskip (.inl h), hs⟩
    · exact hstack t ht

variable {segments : List Text}

omit hfront hlast in
theorem normalizeWalk_plain (leading : Bool) (hsegments : ∀ t ∈ segments, '/' ∉ t)
    (hstack : ∀ t ∈ stack, t ≠ [] ∧ '/' ∉ t) :
    ∀ t ∈ normalizeWalk leading stack segments, t ≠ [] ∧ '/' ∉ t := by
  induction segments generalizing stack with
  | nil => exact hstack
  | cons s rest ih =>
    exact ih (fun t ht => hsegments t (List.mem_cons_of_mem _ ht))
      (normalizeStep_plain leading hstack (hsegments s List.mem_cons_self))

omit hfront hlast in
theorem normalizeWalk_nil_plain (leading : Bool) (hsegments : ∀ t ∈ segments, '/' ∉ t) :
    ∀ t ∈ normalizeWalk leading [] segments, t ≠ [] ∧ '/' ∉ t :=
  normalizeWalk_plain leading hsegments (by simp)

theorem normalizeSegments_eq (hsegments : ∀ t ∈ segments, '/' ∉ t)
    (hstack : ∀ t ∈ stack, t ≠ [] ∧ '/' ∉ t) {n : Normalizer}
    (h : normalizeSegments capacity leading front.length
      ⟨render leading front stack, positions front stack⟩ segments = some n) :
    n.out = render leading front (normalizeWalk leading stack segments) := by
  induction segments generalizing stack with
  | nil =>
    cases h
    rfl
  | cons s rest ih =>
    rw [normalizeSegments, normalizeSegment_render hfront hlast hstack] at h
    split_ifs at h
    · cases h
    · exact ih (fun t ht => hsegments t (List.mem_cons_of_mem _ ht))
        (normalizeStep_plain leading hstack (hsegments s List.mem_cons_self)) h

theorem normalizeSegments_fits (hsegments : ∀ t ∈ segments, '/' ∉ t)
    (hstack : ∀ t ∈ stack, t ≠ [] ∧ '/' ∉ t)
    (hbudget : front.length + (slashed stack.reverse).length + (slashed segments).length
      ≤ capacity + 1)
    (hend : front.length + (slashed (normalizeWalk leading stack segments).reverse).length
      ≤ capacity) :
    ∃ n, normalizeSegments capacity leading front.length
        ⟨render leading front stack, positions front stack⟩ segments = some n := by
  induction segments generalizing stack with
  | nil => exact ⟨_, rfl⟩
  | cons s rest ih =>
    rw [normalizeSegments, normalizeSegment_render hfront hlast hstack]
    have hrest : ∀ t ∈ rest, '/' ∉ t := fun t ht => hsegments t (List.mem_cons_of_mem _ ht)
    have hplain := normalizeStep_plain leading hstack (hsegments s List.mem_cons_self)
    -- a step adds at most the segment and its slash
    have hstep : (slashed (normalizeStep leading stack s).reverse).length
        ≤ (slashed stack.reverse).length + 1 + s.length := by
      unfold normalizeStep
      split_ifs with hskip hdotdot hroot
      · omega
      · obtain ⟨rfl, -⟩ := hroot
        simp [hdotdot]
      · cases stack with
        | nil => simp
        | cons t stack => simp; omega
      · simp; omega
    have hlength : (slashed (s :: rest)).length = 1 + s.length + (slashed rest).length := by
      simp; omega
    rw [if_neg, Option.bind_some]
    · exact ih hrest hplain (by omega) hend
    · rintro ⟨hpush, hfull⟩
      have hsum : (front ++ slashed (s :: stack).reverse).length
          = front.length + (slashed stack.reverse).length + 1 + s.length := by simp; omega
      cases rest with
      | nil =>
        have hlast' : normalizeWalk leading stack [s] = s :: stack := hpush
        rw [hlast'] at hend
        rw [List.length_append] at hfull
        omega
      | cons t rest =>
        have hmore : 1 ≤ (slashed (t :: rest)).length := by simp
        omega

end Buffer

/-! ## The whole normaliser -/

variable {scheme rest : Text}

theorem scanScheme_eq_some {before s : Text} (h : scanScheme before s = some (scheme, rest)) :
    before ++ s = scheme ++ ':' :: rest ∧ schemeChars scheme = true := by
  induction s generalizing before with
  | nil => cases h
  | cons c more ih =>
    unfold scanScheme at h
    split_ifs at h with hcolon hvalid
    · cases h
      exact ⟨by rw [hcolon], hvalid⟩
    · obtain ⟨heq, hscheme⟩ := ih h
      exact ⟨by simpa using heq, hscheme⟩

variable {uri : Text}

theorem findScheme_eq_some (h : findScheme uri = some (scheme, rest)) :
    uri = scheme ++ ':' :: rest ∧ schemeChars scheme = true ∧ uriBytesValid uri = true := by
  unfold findScheme at h
  split_ifs at h with hvalid
  obtain ⟨heq, hscheme⟩ := scanScheme_eq_some h
  exact ⟨by simpa using heq, hscheme, hvalid⟩

structure Parsed (uri : Text) (p : UriParts) : Prop where
  eq : uri = p.front ++ p.path ++ p.query
  scheme : schemeChars p.scheme = true
  authority : ∀ a, p.authority = some a → a ≠ [] ∧ '/' ∉ a ∧ '?' ∉ a
  path : '?' ∉ p.path
  query : p.query = [] ∨ p.query.head? = some '?'
  rooted : p.authority.isSome → p.path = [] ∨ p.path.head? = some '/'
  bare : p.authority = none → p.path.take 2 ≠ ['/', '/']

theorem splitQuery_append (rest : Text) : (splitQuery rest).1 ++ (splitQuery rest).2 = rest :=
  List.takeWhile_append_dropWhile

theorem splitQuery_path (rest : Text) : '?' ∉ (splitQuery rest).1 := fun h => by
  simpa using List.mem_takeWhile_imp h

theorem dropWhile_head (p : Char → Bool) (s : Text) :
    s.dropWhile p = [] ∨ ∃ c rest, s.dropWhile p = c :: rest ∧ p c = false := by
  cases hdrop : s.dropWhile p with
  | nil => exact .inl rfl
  | cons c rest =>
    have hstop := List.head_dropWhile_not p (l := s) (by simp [hdrop])
    simp only [hdrop, List.head_cons] at hstop
    exact .inr ⟨c, rest, rfl, hstop⟩

theorem splitQuery_query (rest : Text) :
    (splitQuery rest).2 = [] ∨ (splitQuery rest).2.head? = some '?' := by
  rcases dropWhile_head (fun c => c ≠ '?') rest with hnil | ⟨c, more, hdrop, hc⟩
  · exact .inl hnil
  · refine .inr ?_
    have hc : c = '?' := by simpa using hc
    rw [splitQuery, hdrop, hc]
    rfl

theorem takeWhile_append_stop {p : Char → Bool} {s : Text} (rest : Text) (hs : ∀ c ∈ s, p c = true)
    (hrest : rest = [] ∨ ∃ c more, rest = c :: more ∧ p c = false) :
    (s ++ rest).takeWhile p = s ∧ (s ++ rest).dropWhile p = rest := by
  rw [List.takeWhile_append_of_pos hs, List.dropWhile_append_of_pos hs]
  rcases hrest with rfl | ⟨c, more, rfl, hc⟩
  · simp
  · simp [hc]

theorem splitQuery_eq {path query : Text} (hpath : '?' ∉ path)
    (hquery : query = [] ∨ query.head? = some '?') : splitQuery (path ++ query) = (path, query) := by
  have hscan := takeWhile_append_stop (p := fun c => c ≠ '?') (s := path) query
    (fun c hc => by
      simp only [ne_eq, decide_eq_true_eq]
      rintro rfl
      exact hpath hc)
    (by
      rcases hquery with rfl | hquery
      · exact .inl rfl
      · obtain ⟨more, rfl⟩ := List.head?_eq_some_iff.mp hquery
        exact .inr ⟨'?', more, rfl, by simp⟩)
  rw [splitQuery, hscan.1, hscan.2]

variable {p : UriParts}

theorem parseAbsoluteUri_parsed (h : parseAbsoluteUri uri = some p) :
    Parsed uri p ∧ uriBytesValid uri = true ∧ '#' ∉ uri := by
  unfold parseAbsoluteUri at h
  split at h
  · cases h
  rename_i scheme rest hfind
  obtain ⟨heq, hscheme, hvalid⟩ := findScheme_eq_some hfind
  split at h
  · cases h
  rename_i hhash
  refine ⟨?_, hvalid, hhash⟩
  split at h
  · rename_i more
    dsimp only at h
    split at h
    · cases h
    rename_i hempty
    cases h
    have hstop := dropWhile_head (fun c => c ≠ '/' && c ≠ '?') more
    have hauthority : ∀ c ∈ more.takeWhile (fun c => c ≠ '/' && c ≠ '?'), c ≠ '/' ∧ c ≠ '?' := by
      intro c hc
      simpa using List.mem_takeWhile_imp hc
    refine ⟨?_, hscheme, ?_, splitQuery_path _, splitQuery_query _, fun _ => ?_, fun h => by cases h⟩
    · rw [heq, List.append_assoc, splitQuery_append]
      simp [UriParts.front, List.takeWhile_append_dropWhile]
    · rintro a ⟨⟩
      exact ⟨hempty, fun hmem => (hauthority _ hmem).1 rfl, fun hmem => (hauthority _ hmem).2 rfl⟩
    · rcases hstop with hnil | ⟨c, tail, hdrop, hc⟩
      · rw [hnil]
        exact .inl rfl
      · rw [hdrop]
        have hcase : c = '/' ∨ c = '?' := by
          by_cases hslash : c = '/'
          · exact .inl hslash
          · exact .inr (by simpa [hslash] using hc)
        rcases hcase with rfl | rfl
        · exact .inr (by simp [splitQuery])
        · exact .inl (by simp [splitQuery])
  · rename_i hbare
    cases h
    refine ⟨?_, hscheme, fun a ha => (by cases ha), splitQuery_path _, splitQuery_query _,
      fun h => (by cases h), fun _ hslashes => ?_⟩
    · rw [heq, List.append_assoc, splitQuery_append]
      simp [UriParts.front]
    · obtain ⟨more, hmore⟩ := eq_append_of_take hslashes
      have hsplit := (splitQuery_append rest).symm
      have hpath : (splitQuery rest).1 = ['/', '/'] ++ more := hmore
      rw [hpath] at hsplit
      exact hbare (more ++ (splitQuery rest).2) hsplit

theorem scanScheme_of_chars (before rest : Text)
    (hscheme : ∀ c ∈ scheme, c ≠ ':' ∧ c ≠ '/' ∧ c ≠ '?' ∧ c ≠ '#')
    (hvalid : schemeChars (before ++ scheme) = true) :
    scanScheme before (scheme ++ ':' :: rest) = some (before ++ scheme, rest) := by
  induction scheme generalizing before with
  | nil =>
    rw [List.append_nil] at hvalid ⊢
    simp [scanScheme, hvalid]
  | cons c more ih =>
    obtain ⟨hcolon, hslash, hquestion, hhash⟩ := hscheme c List.mem_cons_self
    rw [List.cons_append, scanScheme, if_neg hcolon, if_neg (by simp [hslash, hquestion, hhash]),
      ih (before ++ [c]) (fun d hd => hscheme d (List.mem_cons_of_mem _ hd)) (by simpa using hvalid)]
    simp

theorem schemeChars_ne (h : schemeChars scheme = true) :
    ∀ c ∈ scheme, c ≠ ':' ∧ c ≠ '/' ∧ c ≠ '?' ∧ c ≠ '#' := by
  have hmark : ∀ c first, schemeChar c first = true → c ≠ ':' ∧ c ≠ '/' ∧ c ≠ '?' ∧ c ≠ '#' := by
    intro c first hc
    refine ⟨?_, ?_, ?_, ?_⟩ <;> rintro rfl <;> cases first <;> revert hc <;> decide
  cases scheme with
  | nil => simp
  | cons c rest =>
    simp only [schemeChars, Bool.and_eq_true, List.all_eq_true] at h
    intro d hd
    rcases List.mem_cons.mp hd with rfl | hd
    · exact hmark d true h.1
    · exact hmark d false (h.2 d hd)

theorem findScheme_of_chars (hscheme : schemeChars scheme = true)
    (hvalid : uriBytesValid (scheme ++ ':' :: rest) = true) :
    findScheme (scheme ++ ':' :: rest) = some (scheme, rest) := by
  rw [findScheme, if_pos hvalid, scanScheme_of_chars [] rest (schemeChars_ne hscheme) hscheme]
  rfl

theorem parseAbsoluteUri_of_parsed (h : Parsed uri p) (hvalid : uriBytesValid uri = true)
    (hhash : '#' ∉ uri) : parseAbsoluteUri uri = some p := by
  obtain ⟨scheme, authority, path, query⟩ := p
  obtain ⟨heq, hscheme, hauthority, hpath, hquery, hrooted, hbare⟩ := h
  cases authority with
  | none =>
    have huri : uri = scheme ++ ':' :: (path ++ query) := by
      rw [heq]
      simp [UriParts.front]
    have hfind : findScheme uri = some (scheme, path ++ query) := by
      rw [huri] at hvalid ⊢
      exact findScheme_of_chars hscheme hvalid
    have hnot : ∀ more, path ++ query ≠ '/' :: '/' :: more := by
      intro more hmore
      refine hbare rfl ?_
      match path, hpath with
      | [], _ =>
        rcases hquery with rfl | hquery
        · cases hmore
        · simp only [List.nil_append] at hmore
          rw [hmore] at hquery
          simp at hquery
      | [c], _ =>
        rcases hquery with rfl | hquery
        · simp at hmore
        · simp only [List.cons_append, List.nil_append, List.cons.injEq] at hmore
          rw [hmore.2] at hquery
          simp at hquery
      | c :: d :: rest, _ =>
        simp only [List.cons_append, List.cons.injEq] at hmore
        simp [hmore.1, hmore.2.1]
    unfold parseAbsoluteUri
    rw [hfind]
    simp only [hhash, if_false, splitQuery_eq hpath hquery]
  | some a =>
    obtain ⟨hne, hslash, hquestion⟩ := hauthority a rfl
    have huri : uri = scheme ++ ':' :: ('/' :: '/' :: (a ++ (path ++ query))) := by
      rw [heq]
      simp [UriParts.front]
    have hfind : findScheme uri = some (scheme, '/' :: '/' :: (a ++ (path ++ query))) := by
      rw [huri] at hvalid ⊢
      exact findScheme_of_chars hscheme hvalid
    have hscan := takeWhile_append_stop (p := fun c => c ≠ '/' && c ≠ '?') (s := a)
      (path ++ query)
      (fun c hc => by
        simp only [ne_eq, decide_not, Bool.and_eq_true, Bool.not_eq_true', decide_eq_false_iff_not]
        exact ⟨fun h => hslash (h ▸ hc), fun h => hquestion (h ▸ hc)⟩)
      (by
        rcases hrooted rfl with rfl | hroot
        · rcases hquery with rfl | hquery
          · exact .inl rfl
          · obtain ⟨more, rfl⟩ := List.head?_eq_some_iff.mp hquery
            exact .inr ⟨'?', more, rfl, by simp⟩
        · obtain ⟨more, rfl⟩ := List.head?_eq_some_iff.mp hroot
          exact .inr ⟨'/', more ++ query, rfl, by simp⟩)
    unfold parseAbsoluteUri
    rw [hfind]
    simp only [hhash, if_false, hscan.1, hscan.2, hne]
    rw [splitQuery_eq hpath hquery]

theorem Parsed.front_last (h : Parsed uri p) : p.front ≠ [] ∧ p.front.getLast? ≠ some '/' := by
  refine ⟨by simp [UriParts.front], ?_⟩
  cases hauthority : p.authority with
  | none => simp [UriParts.front, hauthority]
  | some a =>
    obtain ⟨hne, hslash, -⟩ := h.authority a hauthority
    have hfront : p.front = (p.scheme ++ [':', '/', '/']) ++ a := by
      simp [UriParts.front, hauthority]
    rw [hfront, List.getLast?_append, List.getLast?_eq_some_getLast hne]
    simp only [Option.some_or, ne_eq, Option.some.injEq]
    exact fun h => hslash (h ▸ List.getLast_mem hne)

theorem pathSegments_not_mem (path : Text) : ∀ s ∈ pathSegments path, '/' ∉ s := fun _ hs =>
  not_mem_of_mem_splitOn hs

theorem pathSegments_path (path : Text) :
    path = if path.head? == some '/' then slashed (pathSegments path)
      else rootless (pathSegments path) := by
  unfold pathSegments
  split_ifs with hlead
  · obtain ⟨rest, rfl⟩ := List.head?_eq_some_iff.mp (by simpa using hlead)
    exact (slashed_splitOn rest).symm
  · exact (rootless_splitOn path).symm

variable {capacity : ℕ}

theorem closePath_normalized (h : Parsed uri p) {leading closed : Bool}
    {stack : List Text} (hstack : ∀ t ∈ stack, t ≠ [] ∧ '/' ∉ t) :
    closePath capacity closed (render leading p.front stack)
      = if closed = true ∧ ¬ (leading = true ∧ stack = []) ∧
          capacity < (p.front ++ normalizedPath leading closed stack).length then none
        else some (p.front ++ normalizedPath leading closed stack) := by
  obtain ⟨hfront, hlast⟩ := h.front_last
  unfold closePath
  cases closed with
  | true =>
    rw [if_pos rfl, separate_render hfront hlast hstack]
    simp [normalizedPath, slashed]
  | false =>
    by_cases hroot : leading = true ∧ stack = []
    · obtain ⟨rfl, rfl⟩ := hroot
      simp [render, normalizedPath, slashed]
    · simp [render, normalizedPath, hroot]

/-- **The value of the normaliser.** -/
theorem normalizeAbsoluteUri_eq {r : Text} (hparse : parseAbsoluteUri uri = some p)
    (h : normalizeAbsoluteUri capacity uri = some r) :
    r = p.front ++ normalizePath p.path ++ p.query := by
  obtain ⟨hparsed, -, -⟩ := parseAbsoluteUri_parsed hparse
  obtain ⟨hfront, hlast⟩ := hparsed.front_last
  unfold normalizeAbsoluteUri at h
  simp only [hparse, Option.bind_eq_bind, Option.bind_some] at h
  obtain ⟨out₀, hout₀, h⟩ := Option.bind_eq_some_iff.mp h
  obtain ⟨out₁, hout₁, h⟩ := Option.bind_eq_some_iff.mp h
  obtain ⟨n, hn, h⟩ := Option.bind_eq_some_iff.mp h
  obtain ⟨out₂, hout₂, h⟩ := Option.bind_eq_some_iff.mp h
  have hstart : out₁ = render (p.path.head? == some '/') p.front [] := by
    rw [appendBytes_eq_some hout₁, appendBytes_eq_some hout₀]
    simp [render]
  rw [hstart] at hn
  have hend := normalizeSegments_eq hfront hlast (pathSegments_not_mem p.path) (by simp) hn
  have hplain := normalizeWalk_nil_plain (p.path.head? == some '/') (pathSegments_not_mem p.path)
  rw [hend, closePath_normalized hparsed hplain] at hout₂
  split_ifs at hout₂
  rw [appendBytes_eq_some h, ← Option.some.inj hout₂]
  rfl

/-- **The normaliser has a value** if it fits the buffer. -/
theorem normalizeAbsoluteUri_fits (hparse : parseAbsoluteUri uri = some p)
    (huri : uri.length ≤ capacity)
    (hfit : (p.front ++ normalizePath p.path ++ p.query).length ≤ capacity) :
    normalizeAbsoluteUri capacity uri = some (p.front ++ normalizePath p.path ++ p.query) := by
  obtain ⟨hparsed, -, -⟩ := parseAbsoluteUri_parsed hparse
  obtain ⟨hfront, hlast⟩ := hparsed.front_last
  have hlength : uri.length = p.front.length + p.path.length + p.query.length := by
    rw [hparsed.eq, List.length_append, List.length_append]
  simp only [List.length_append] at hfit
  have hplain := normalizeWalk_nil_plain (p.path.head? == some '/') (pathSegments_not_mem p.path)
  -- the segments take the bytes of the path, and one more for a path without a leading slash
  have hsegments : (slashed (pathSegments p.path)).length ≤ p.path.length + 1 := by
    have hpath := congrArg List.length (pathSegments_path p.path)
    split_ifs at hpath
    · omega
    · cases hsplit : pathSegments p.path with
      | nil => simp
      | cons s rest =>
        rw [hsplit] at hpath
        simp only [rootless, List.length_append] at hpath
        simp
        omega
  have hlead : (p.path.head? == some '/') = true → 1 ≤ p.path.length := by
    intro hlead
    obtain ⟨rest, hrest⟩ := List.head?_eq_some_iff.mp (by simpa using hlead)
    rw [hrest]
    simp
  have hwalk : (slashed (normalizeWalk (p.path.head? == some '/') []
      (pathSegments p.path)).reverse).length ≤ (normalizePath p.path).length := by
    unfold normalizePath normalizedPath
    split_ifs
    · simp
    · exact Nat.le_refl _
  obtain ⟨n, hn⟩ : ∃ n, normalizeSegments capacity (p.path.head? == some '/') p.front.length
      ⟨render (p.path.head? == some '/') p.front [], positions p.front []⟩ (pathSegments p.path)
        = some n :=
    normalizeSegments_fits hfront hlast (pathSegments_not_mem p.path) (by simp)
      (by simp; omega) (by omega)
  have hend := normalizeSegments_eq hfront hlast (pathSegments_not_mem p.path) (by simp) hn
  simp only [positions, pathSegments] at hn
  have hstart : appendBytes capacity p.front (if p.path.head? == some '/' then ['/'] else [])
      = some (render (p.path.head? == some '/') p.front []) := by
    rw [appendBytes_of_le]
    · simp [render]
    · split_ifs with h
      · have := hlead h
        simp
        omega
      · simp
        omega
  unfold normalizeAbsoluteUri
  simp only [hparse, Option.bind_eq_bind, Option.bind_some]
  rw [appendBytes_of_le (by simp; omega), List.nil_append, Option.bind_some, hstart,
    Option.bind_some, hn, Option.bind_some, hend, closePath_normalized hparsed hplain, if_neg,
    Option.bind_some, appendBytes_of_le]
  · rfl
  · rw [List.length_append]
    simp only [normalizePath] at hfit
    simp only [List.length_append]
    omega
  · rintro ⟨-, -, hfull⟩
    rw [List.length_append] at hfull
    simp only [normalizePath] at hfit
    omega

end TurboScxml.Voice
