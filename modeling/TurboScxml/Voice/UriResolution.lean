import TurboScxml.Voice.UriDots

/-!
# Resolution against RFC 3986

* `buildResolvedCandidate_eq`: the candidate is the target before dot segments are removed;
* `Faithful`, `resolve_iff`: when the target of RFC 3986 is returned.
-/

namespace TurboScxml.Voice

open Uri

/-! ## Parts and components -/

def partsOf (r : Reference) : UriParts where
  scheme := r.scheme.getD []
  authority := r.authority
  path := r.path
  query := withPrefix ['?'] r.query

theorem schemeChars_eq (s : Text) : schemeChars s = isScheme s := by
  cases s with
  | nil => rfl
  | cons c rest => rfl

theorem withPrefix_question (query : Option Text) :
    withPrefix ['?'] query = [] ∨ (withPrefix ['?'] query).head? = some '?' := by
  cases query with
  | none => exact .inl rfl
  | some q => exact .inr rfl

def unfragmented (r : Reference) : Reference := { r with fragment := none }

variable {r : Reference} {s : Text}

theorem recompose_unfragmented (h : r.scheme = some s) :
    recompose (unfragmented r)
      = (partsOf r).front ++ (partsOf r).path ++ (partsOf r).query := by
  cases hauthority : r.authority <;>
    simp [recompose, unfragmented, partsOf, UriParts.front, h, hauthority, withPrefix, schemeText]

theorem parsed_partsOf (hr : r.WellFormed) (hscheme : r.scheme = some s)
    (hauthority : r.authority ≠ some []) : Parsed (recompose (unfragmented r)) (partsOf r) where
  eq := recompose_unfragmented hscheme
  scheme := by
    rw [schemeChars_eq]
    simpa [partsOf, hscheme] using hr.scheme s hscheme
  authority := fun a ha => by
    obtain ⟨hslash, hquestion, -⟩ := hr.authority a ha
    refine ⟨?_, hslash, hquestion⟩
    rintro rfl
    exact hauthority ha
  path := hr.path.1
  query := withPrefix_question r.query
  rooted := hr.rooted
  bare := hr.bare

theorem isScheme_not_mem (h : isScheme s = true) : ∀ c ∈ s, c ≠ ':' ∧ c ≠ '/' ∧ c ≠ '?' ∧ c ≠ '#' :=
  schemeChars_ne ((schemeChars_eq s).trans h)

theorem hash_not_mem (hr : r.WellFormed) : '#' ∉ recompose (unfragmented r) := by
  have hscheme : '#' ∉ schemeText r.scheme := by
    cases hs : r.scheme with
    | none => simp [schemeText]
    | some s =>
      have hchars := isScheme_not_mem (hr.scheme s hs)
      simp only [schemeText, List.mem_append, List.mem_singleton, not_or]
      exact ⟨fun h => (hchars '#' h).2.2.2 rfl, by decide⟩
  have hauthority : '#' ∉ withPrefix ['/', '/'] r.authority := by
    cases ha : r.authority with
    | none => simp [withPrefix]
    | some a => simpa [withPrefix] using (hr.authority a ha).2.2
  have hquery : '#' ∉ withPrefix ['?'] r.query := by
    cases hq : r.query with
    | none => simp [withPrefix]
    | some q => simpa [withPrefix] using hr.query q hq
  simp only [recompose, unfragmented, withPrefix, List.mem_append, not_or]
  exact ⟨⟨⟨⟨hscheme, hauthority⟩, hr.path.2⟩, hquery⟩, by simp⟩

theorem parseAbsoluteUri_empty (hr : r.WellFormed) (hscheme : r.scheme = some s)
    (hauthority : r.authority = some [])
    (hvalid : uriBytesValid (recompose (unfragmented r)) = true) :
    parseAbsoluteUri (recompose (unfragmented r)) = none := by
  have hchars : schemeChars s = true := (schemeChars_eq s).trans (hr.scheme s hscheme)
  have htext : recompose (unfragmented r)
      = s ++ ':' :: ('/' :: '/' :: (r.path ++ withPrefix ['?'] r.query)) := by
    simp [recompose, unfragmented, hscheme, hauthority, withPrefix, schemeText]
  have hfind : findScheme (recompose (unfragmented r))
      = some (s, '/' :: '/' :: (r.path ++ withPrefix ['?'] r.query)) := by
    rw [htext] at hvalid ⊢
    exact findScheme_of_chars hchars hvalid
  have hstop : (r.path ++ withPrefix ['?'] r.query).takeWhile (fun c => c ≠ '/' && c ≠ '?') = [] := by
    rcases hr.rooted (by simp [hauthority]) with hnil | hroot
    · rw [hnil, List.nil_append]
      cases r.query with
      | none => rfl
      | some q => simp [withPrefix]
    · obtain ⟨rest, hrest⟩ := List.head?_eq_some_iff.mp hroot
      simp [hrest]
  unfold parseAbsoluteUri
  rw [hfind]
  simp only [hash_not_mem hr, if_false, hstop, if_true]

/-- **The parser on the text of a reference.** -/
theorem parseAbsoluteUri_recompose (hr : r.WellFormed) (hscheme : r.scheme = some s)
    (hvalid : uriBytesValid (recompose (unfragmented r)) = true) :
    parseAbsoluteUri (recompose (unfragmented r))
      = if r.authority = some [] then none else some (partsOf r) := by
  by_cases hauthority : r.authority = some []
  · rw [if_pos hauthority]
    exact parseAbsoluteUri_empty hr hscheme hauthority hvalid
  · rw [if_neg hauthority]
    exact parseAbsoluteUri_of_parsed (parsed_partsOf hr hscheme hauthority) hvalid (hash_not_mem hr)

/-! ## The reference -/

theorem breakAt_scan (c : Char) (s : Text) :
    (s.takeWhile fun x => x ≠ c) = (breakAt c s).1 ∧
      (s.dropWhile fun x => x ≠ c) = withPrefix [c] (breakAt c s).2 := by
  induction s with
  | nil => simp [breakAt, withPrefix]
  | cons x rest ih =>
    by_cases hx : x = c
    · simp [breakAt, withPrefix, hx]
    · simpa [breakAt, hx] using ih

theorem unfragmented_parse (s : Text) : unfragmented (parse s) = parse (breakAt '#' s).1 := by
  have hfront : breakAt '#' (breakAt '#' s).1 = ((breakAt '#' s).1, none) :=
    breakAt_eq_none (breakAt_not_mem '#' s)
  simp only [unfragmented, parse, hfront]

theorem findScheme_isSome (hvalid : uriBytesValid s = true) (hhash : '#' ∉ s) :
    (findScheme s).isSome = (parse s).scheme.isSome := by
  have hfragment : breakAt '#' s = (s, none) := breakAt_eq_none hhash
  cases hfind : findScheme s with
  | some found =>
    obtain ⟨scheme, rest⟩ := found
    obtain ⟨hs, hchars, -⟩ := findScheme_eq_some hfind
    have hscheme : isScheme scheme = true := (schemeChars_eq scheme).symm.trans hchars
    have hne := isScheme_not_mem hscheme
    have hquestion : '?' ∉ scheme := fun h => (hne '?' h).2.2.1 rfl
    have hcolon : ':' ∉ scheme := fun h => (hne ':' h).1 rfl
    have hfront : (breakAt '?' s).1 = scheme ++ ':' :: (breakAt '?' rest).1 := by
      rw [hs, breakAt_append_left hquestion]
      simp [breakAt]
    have hparse : (parse s).scheme = some scheme := by
      simp only [parse, hfragment, hfront]
      simp only [parseScheme, breakAt_of_not_mem hcolon, hscheme, if_true]
    rw [hparse]
    rfl
  | none =>
    cases hparse : (parse s).scheme with
    | none => rfl
    | some scheme =>
      have hchars := (schemeChars_eq scheme).trans ((parse_wellFormed s).scheme scheme hparse)
      obtain ⟨rest, hs⟩ : ∃ rest, s = scheme ++ ':' :: rest := by
        have htext := recompose_parse s
        rw [recompose, hparse] at htext
        exact ⟨_, by simpa [schemeText] using htext.symm⟩
      rw [hs] at hvalid hfind
      rw [findScheme_of_chars hchars hvalid] at hfind
      cases hfind

theorem take_slashes_iff (hr : r.WellFormed) (hscheme : r.scheme = none) :
    (recompose (unfragmented r)).take 2 = ['/', '/'] ↔ r.authority.isSome = true := by
  cases hauthority : r.authority with
  | some a => simp [recompose, unfragmented, hscheme, hauthority, withPrefix, schemeText]
  | none =>
    have htext : recompose (unfragmented r) = r.path ++ withPrefix ['?'] r.query := by
      simp [recompose, unfragmented, hscheme, hauthority, withPrefix, schemeText]
    rw [htext]
    refine iff_of_false (fun htake => hr.bare hauthority ?_) (by simp)
    -- a question mark is no slash
    have hquery := withPrefix_question r.query
    generalize withPrefix ['?'] r.query = query at htake hquery
    rcases hpath : r.path with _ | ⟨c, _ | ⟨d, rest⟩⟩
    · rw [hpath, List.nil_append] at htake
      rcases hquery with rfl | hquery
      · simp at htake
      · obtain ⟨rest, rfl⟩ := List.head?_eq_some_iff.mp hquery
        simp at htake
    · rw [hpath] at htake
      rcases hquery with rfl | hquery
      · simp at htake
      · obtain ⟨rest, rfl⟩ := List.head?_eq_some_iff.mp hquery
        simp at htake
    · rw [hpath] at htake
      simpa using htake

/-! ## The candidate -/

theorem appendBytes_append (capacity : ℕ) (front s : Text) :
    (appendBytes capacity [] front).bind (appendBytes capacity · s)
      = if capacity < (front ++ s).length then none else some (front ++ s) := by
  rw [List.length_append]
  unfold appendBytes
  by_cases hfront : capacity - ([] : Text).length < front.length
  · rw [if_pos hfront, if_pos (by simp at hfront; omega)]
    rfl
  · rw [if_neg hfront, Option.bind_some, List.nil_append]
    split_ifs <;> first | rfl | omega

theorem appendBytes_append_append (capacity : ℕ) (front mark s : Text) :
    ((appendBytes capacity [] front).bind fun out =>
        (appendBytes capacity out mark).bind (appendBytes capacity · s))
      = if capacity < (front ++ mark ++ s).length then none else some (front ++ mark ++ s) := by
  rw [← appendBytes_append, ← Option.bind_assoc, appendBytes_append]
  unfold appendBytes
  simp only [List.length_nil, Nat.sub_zero, List.nil_append]

/-- A base URI: it has a scheme and an authority that is not empty, and no fragment. -/
structure Base (base : Text) : Prop where
  scheme : (parse base).scheme.isSome = true
  authority : ∃ a, (parse base).authority = some a ∧ a ≠ []
  fragment : (parse base).fragment = none
  bytes : uriBytesValid base = true

variable {base : Text}

theorem Base.unfragmented (h : Base base) : unfragmented (parse base) = parse base := by
  have hfragment := h.fragment
  cases hparse : parse base
  simp only [hparse] at hfragment
  simp [Voice.unfragmented, hfragment]

theorem Base.parts (h : Base base) : parseAbsoluteUri base = some (partsOf (parse base)) := by
  obtain ⟨scheme, hscheme⟩ := Option.isSome_iff_exists.mp h.scheme
  obtain ⟨a, ha, hne⟩ := h.authority
  have htext : recompose (Voice.unfragmented (parse base)) = base := by
    rw [h.unfragmented, recompose_parse]
  have hparse := parseAbsoluteUri_recompose (parse_wellFormed base) hscheme
    (by rw [htext]; exact h.bytes)
  rwa [htext, if_neg (by rw [ha]; simpa using hne)] at hparse

theorem relativeCandidate_eq (h : Base base) (capacity : ℕ) (reference : Text) :
    relativeCandidate capacity (partsOf (parse base)) reference
      = if capacity < ((partsOf (parse base)).front ++ merge (parse base) [] ++ reference).length
        then none
        else some ((partsOf (parse base)).front ++ merge (parse base) [] ++ reference) := by
  obtain ⟨a, ha, hne⟩ := h.authority
  have hparsed := (parseAbsoluteUri_parsed h.parts).1
  obtain ⟨hfront, hlast⟩ := hparsed.front_last
  have hpath : (partsOf (parse base)).path = (parse base).path := rfl
  have hauthority : (partsOf (parse base)).authority = some a := ha
  generalize hp : partsOf (parse base) = p at *
  unfold relativeCandidate
  simp only [Option.bind_eq_bind, hauthority, Option.isSome_some, Bool.true_and]
  by_cases hempty : (parse base).path = []
  · -- a slash is written behind the authority
    have hdirectory : p.directory = [] := by simp [UriParts.directory, hpath, hempty]
    have hmerge : merge (parse base) [] = ['/'] := by simp [merge, ha, hempty]
    have hclose : (p.directory == []) = true := by simp [hdirectory]
    rw [hclose, hdirectory, hmerge, List.append_nil, ← appendBytes_append_append]
    unfold appendBytes
    by_cases hfull : capacity - ([] : Text).length < p.front.length
    · rw [if_pos hfull]
      rfl
    · rw [if_neg hfull, Option.bind_some, Option.bind_some, List.nil_append, closePath, if_pos rfl,
        separate, if_pos ⟨hfront, hlast⟩]
      rfl
  · have hdirectory : p.directory = merge (parse base) [] := by
      simp [UriParts.directory, merge, hpath, hempty]
    have hsome : (p.directory == []) = false := by
      rw [beq_eq_false_iff_ne, hdirectory]
      intro hnil
      have hrooted := merge_rooted (parse_wellFormed base) (by simp [ha]) []
      rw [hnil] at hrooted
      cases hrooted
    rw [hsome, hdirectory]
    exact appendBytes_append capacity _ reference

def merged (base reference : Text) : Reference :=
  unfragmented (transform id (parse base) (parse reference))

theorem merge_append (base : Reference) (path : Text) :
    merge base path = merge base [] ++ path := by
  unfold merge
  split_ifs <;> simp

theorem relative_text (hscheme : r.scheme = none) (hauthority : r.authority = none) :
    recompose (unfragmented r) = r.path ++ withPrefix ['?'] r.query := by
  simp [recompose, unfragmented, hscheme, hauthority, withPrefix, schemeText]

/-- **The candidate** is the target before dot segments are removed. -/
theorem buildResolvedCandidate_eq {fetch : Text} (h : Base base)
    (hfetch : fetch = [] ∨ uriBytesValid fetch = true) (hhash : '#' ∉ fetch) (capacity : ℕ) :
    buildResolvedCandidate capacity base fetch
      = if capacity < (recompose (merged base fetch)).length then none
        else some (recompose (merged base fetch)) := by
  obtain ⟨scheme, hscheme⟩ := Option.isSome_iff_exists.mp h.scheme
  have hr := parse_wellFormed fetch
  have hwhole : unfragmented (parse fetch) = parse fetch := by
    simp only [unfragmented, parse, breakAt_eq_none hhash]
  have htext : recompose (unfragmented (parse fetch)) = fetch := by
    rw [hwhole, recompose_parse]
  unfold buildResolvedCandidate merged
  rw [h.parts]
  dsimp only
  rw [if_neg fun hbad => by
    rcases hfetch with hnil | hvalid
    · exact hbad.1 hnil
    · simp [hvalid] at hbad]
  by_cases hempty : fetch = []
  · -- the base itself
    have htarget : recompose (unfragmented (transform id (parse base) (parse []))) = base := by
      have hsame : unfragmented (transform id (parse base) (parse [])) = parse base := by
        rw [← h.unfragmented]
        rfl
      rw [hsame, recompose_parse]
    subst hempty
    rw [if_pos rfl, htarget]
  have hvalid := hfetch.resolve_left hempty
  rw [if_neg hempty, findScheme_isSome hvalid hhash]
  by_cases hown : (parse fetch).scheme.isSome = true
  · have htarget : transform id (parse base) (parse fetch) = parse fetch := by
      simp only [transform, if_pos hown, id]
    rw [if_pos hown, htarget, htext]
  have hnone : (parse fetch).scheme = none := by simpa using hown
  have htake := take_slashes_iff hr hnone
  rw [htext] at htake
  rw [if_neg hown, appendBytes_append]
  by_cases hnetwork : (parse fetch).authority.isSome = true
  · -- the scheme of the base and the reference
    have htarget : recompose (unfragmented (transform id (parse base) (parse fetch)))
        = (partsOf (parse base)).scheme ++ [':'] ++ fetch := by
      calc recompose (unfragmented (transform id (parse base) (parse fetch)))
          = schemeText (parse base).scheme ++ recompose (unfragmented (parse fetch)) := by
            simp [transform, hnone, hnetwork, recompose, unfragmented, schemeText]
        _ = (partsOf (parse base)).scheme ++ [':'] ++ fetch := by
            rw [htext]
            simp [partsOf, hscheme, schemeText]
    rw [if_pos (htake.mpr hnetwork), htarget]
  have hlocal : (parse fetch).authority = none := by simpa using hnetwork
  have hrelative := relative_text hnone hlocal
  rw [htext] at hrelative
  rw [if_neg (htake.not.mpr hnetwork)]
  by_cases hpath : (parse fetch).path = []
  · -- the path of the base, and the query of the reference
    rw [hpath, List.nil_append] at hrelative
    obtain ⟨q, hq⟩ : ∃ q, (parse fetch).query = some q := by
      cases hquery : (parse fetch).query with
      | none =>
        rw [hquery] at hrelative
        exact absurd hrelative hempty
      | some q => exact ⟨q, rfl⟩
    have hhead : fetch.head? = some '?' := by
      rw [hrelative, hq]
      rfl
    have htarget : recompose (unfragmented (transform id (parse base) (parse fetch)))
        = (partsOf (parse base)).front ++ (partsOf (parse base)).path ++ fetch := by
      have hbase : (transform id (parse base) (parse fetch)).scheme = some scheme := by
        simp [transform, hnone, hlocal, hpath, hscheme]
      rw [recompose_unfragmented hbase]
      simp only [transform, hnone, hlocal, hpath, hq, Option.isSome_none, Bool.false_eq_true,
        if_false, if_true, Option.isSome_some]
      conv_rhs => rw [hrelative, hq]
      rfl
    rw [if_pos hhead, appendBytes_append, htarget]
  have hfirst : fetch.head? = (parse fetch).path.head? := by
    obtain ⟨c, rest, hcons⟩ := List.exists_cons_of_ne_nil hpath
    rw [hcons] at hrelative ⊢
    exact (congrArg List.head? hrelative).trans rfl
  have hquestion : fetch.head? ≠ some '?' := by
    rw [hfirst]
    intro hhead
    exact hr.path.1 (List.mem_of_head? hhead)
  rw [if_neg hquestion, hfirst]
  by_cases hroot : (parse fetch).path.head? = some '/'
  · have htarget : recompose (unfragmented (transform id (parse base) (parse fetch)))
        = (partsOf (parse base)).front ++ fetch := by
      have hbase : (transform id (parse base) (parse fetch)).scheme = some scheme := by
        simp [transform, hnone, hlocal, hpath, hroot, hscheme]
      rw [recompose_unfragmented hbase]
      simp only [transform, hnone, hlocal, hpath, hroot, Option.isSome_none, Bool.false_eq_true,
        if_false, if_true, List.append_assoc]
      conv_rhs => rw [hrelative]
      rfl
    rw [if_pos hroot, appendBytes_append, htarget]
  · have htarget : recompose (unfragmented (transform id (parse base) (parse fetch)))
        = (partsOf (parse base)).front ++ merge (parse base) [] ++ fetch := by
      have hbase : (transform id (parse base) (parse fetch)).scheme = some scheme := by
        simp [transform, hnone, hlocal, hpath, hroot, hscheme]
      rw [recompose_unfragmented hbase]
      simp only [transform, hnone, hlocal, hpath, hroot, Option.isSome_none, Bool.false_eq_true,
        if_false, id]
      conv_rhs => rw [hrelative]
      rw [merge_append]
      simp only [partsOf, UriParts.front, List.append_assoc]
    rw [if_neg hroot, relativeCandidate_eq h, htarget]

/-! ## The target -/

theorem merged_eq (base reference : Text) :
    merged base reference = merged base (breakAt '#' reference).1 := by
  unfold merged
  rw [← unfragmented_parse]
  unfold transform unfragmented
  split_ifs <;> rfl

theorem transform_scheme {base : Reference} (h : base.scheme.isSome = true) :
    (transform id base r).scheme.isSome = true := by
  unfold transform
  split_ifs <;> simp_all

theorem merged_valid {fetch : Text} (h : Base base)
    (hfetch : fetch = [] ∨ uriBytesValid fetch = true) :
    uriBytesValid (recompose (merged base fetch)) = true := by
  have hbytes : ∀ {s : Text}, uriBytesValid s = true → ∀ c ∈ s,
      (!(c.toNat ≤ 0x20 || c.toNat == 0x7f)) = true := fun hs c hc => by
    simp only [uriBytesValid, Bool.and_eq_true] at hs
    exact List.all_eq_true.mp hs.2 c hc
  obtain ⟨scheme, hscheme⟩ := Option.isSome_iff_exists.mp
    (transform_scheme (r := parse fetch) h.scheme)
  have hne : recompose (merged base fetch) ≠ [] := by
    simp [merged, recompose, unfragmented, hscheme, schemeText]
  simp only [uriBytesValid, Bool.and_eq_true, decide_eq_true_eq]
  refine ⟨hne, List.all_eq_true.mpr fun c hc => ?_⟩
  rcases mem_recompose hc with hc | hc
  · have hchars : c ∈ (transform id (parse base) (parse fetch)).chars := by
      simp only [merged, unfragmented, Reference.chars, Option.getD_none, List.append_nil] at hc
      exact List.mem_append_left _ hc
    by_cases hslash : c = '/'
    · subst hslash
      decide
    · rcases mem_transform hslash hchars with hmem | hmem
      · exact hbytes h.bytes c (mem_of_mem_chars hmem)
      · have hmem := mem_of_mem_chars hmem
        rcases hfetch with rfl | hvalid
        · simp at hmem
        · exact hbytes hvalid c hmem
  · simp only [List.mem_cons, List.not_mem_nil, or_false] at hc
    rcases hc with rfl | rfl | rfl | rfl <;> decide

/-- The condition on the path of a target before dot segments are removed. -/
def PathOk (path : Text) : Prop :=
  if path.head? = some '/' then RootedOk (pathSegments path) else RootlessOk (pathSegments path)

theorem pathSegments_ne_nil (path : Text) : pathSegments path ≠ [] := List.splitOn_ne_nil _ _

theorem slashed_getLast?_eq {segments : List Text} (hne : segments ≠ [])
    (hsegments : ∀ s ∈ segments, '/' ∉ s) :
    ((slashed segments).getLast? == some '/') = (segments.getLast? == some []) := by
  have hmem : ∀ s ∈ ['.'] :: segments, '/' ∉ s := by
    intro s hs
    rcases List.mem_cons.mp hs with rfl | hs
    · simp
    · exact hsegments s hs
  have hroot := rootless_getLast? (List.cons_ne_nil _ _) hmem (by simp)
  obtain ⟨s, rest, rfl⟩ := List.exists_cons_of_ne_nil hne
  simpa [rootless] using hroot

theorem normalizePath_rooted {path : Text} (h : path.head? = some '/') :
    normalizePath path = normalizedPath true ((pathSegments path).getLast? == some [])
      (normalizeWalk true [] (pathSegments path)) ∧ slashed (pathSegments path) = path := by
  have hlead : (path.head? == some '/') = true := by simp [h]
  have hpath := pathSegments_path path
  rw [if_pos hlead] at hpath
  have hlast := slashed_getLast?_eq (pathSegments_ne_nil path) (pathSegments_not_mem path)
  rw [← hpath] at hlast
  unfold normalizePath
  rw [hlead, hlast]
  exact ⟨rfl, hpath.symm⟩

/-- **Where the normaliser removes dot segments** as RFC 3986 does. -/
theorem normalizePath_iff (path : Text) :
    normalizePath path = removeDotSegments path ↔ PathOk path := by
  unfold PathOk
  by_cases hroot : path.head? = some '/'
  · obtain ⟨hnormal, hslashed⟩ := normalizePath_rooted hroot
    rw [if_pos hroot, hnormal, ← rooted_iff (pathSegments_ne_nil path) (pathSegments_not_mem path),
      hslashed]
  · have hlead : (path.head? == some '/') = false := by simpa using hroot
    have hpath := pathSegments_path path
    rw [hlead, if_neg (by simp)] at hpath
    have hhead : pathSegments path = [[]] ∨ (pathSegments path).head? ≠ some [] := by
      cases hsegments : pathSegments path with
      | nil => exact absurd hsegments (pathSegments_ne_nil path)
      | cons s rest =>
        cases s with
        | cons c s => exact .inr (by simp)
        | nil =>
          cases rest with
          | nil => exact .inl rfl
          | cons t rest =>
            rw [hsegments, rootless_nil_cons] at hpath
            exact absurd (by rw [hpath]; rfl) hroot
    have hiff := rootless_iff (pathSegments_ne_nil path) (pathSegments_not_mem path) hhead
    rw [← hpath] at hiff
    rw [if_neg hroot, ← hiff]
    unfold normalizePath
    rw [hlead]

/-- **Where the normaliser keeps a path.** -/
theorem normalizePath_eq_self_iff {path : Text} (h : path = [] ∨ path.head? = some '/') :
    normalizePath path = path ↔ path = [] ∨ Undotted (pathSegments path) := by
  rcases h with rfl | hroot
  · exact iff_of_true rfl (.inl rfl)
  · obtain ⟨hnormal, hslashed⟩ := normalizePath_rooted hroot
    have hne : path ≠ [] := by
      rintro rfl
      cases hroot
    have hiff := undotted_iff (pathSegments_ne_nil path) (pathSegments_not_mem path)
    rw [hslashed] at hiff
    rw [or_iff_right hne, hnormal, hiff]

def targetPath (reference path : Text) : Text :=
  if (parse reference).SameDocument then path else removeDotSegments path

theorem targetPath_length (reference path : Text) :
    (targetPath reference path).length ≤ path.length := by
  unfold targetPath
  split_ifs
  · exact Nat.le_refl _
  · exact removeDotSegments_length path

theorem target_eq (h : Base base) (reference : Text) :
    target base reference =
      ((partsOf (merged base reference)).front
        ++ targetPath reference (merged base reference).path
        ++ (partsOf (merged base reference)).query, (parse reference).fragment.getD []) := by
  obtain ⟨scheme, hscheme⟩ := Option.isSome_iff_exists.mp
    (transform_scheme (r := parse reference) h.scheme)
  unfold target
  dsimp only
  rw [transform_dots]
  have htext := recompose_unfragmented (s := scheme)
    (r := { transform id (parse base) (parse reference) with
      path := targetPath reference (transform id (parse base) (parse reference)).path }) hscheme
  exact Prod.ext htext rfl

structure Resolvable (cfg : ResolveConfig) (base reference : Text) : Prop where
  absolute : Base base
  bytes : (reference.takeWhile fun c => c ≠ '#') = [] ∨
    uriBytesValid (reference.takeWhile fun c => c ≠ '#') = true
  length : base.length ≤ cfg.maxUriBytes
  document : (target base reference).1.length < cfg.documentCapacity
  fragment : ∀ f, (parse reference).fragment = some f → f.length < cfg.fragmentCapacity

/-- The target has no empty authority, it fits the buffer, and the normaliser removes nothing but
its dot segments. -/
structure Faithful (cfg : ResolveConfig) (base reference : Text) : Prop where
  authority : (merged base reference).authority ≠ some []
  length : (recompose (merged base reference)).length ≤ cfg.maxUriBytes
  path : if (parse reference).SameDocument then
      (merged base reference).path = [] ∨ Undotted (pathSegments (merged base reference).path)
    else PathOk (merged base reference).path

theorem targetPath_iff (h : Base base) (reference : Text) :
    normalizePath (merged base reference).path
        = targetPath reference (merged base reference).path ↔
      if (parse reference).SameDocument then
        (merged base reference).path = [] ∨ Undotted (pathSegments (merged base reference).path)
      else PathOk (merged base reference).path := by
  unfold targetPath
  by_cases hsame : (parse reference).SameDocument
  · -- the path is the one of the base
    obtain ⟨a, ha, -⟩ := h.authority
    have hpath : (merged base reference).path = (parse base).path := by
      simp [merged, unfragmented, transform, hsame.1, hsame.2.1, hsame.2.2]
    rw [if_pos hsame, if_pos hsame, hpath]
    exact normalizePath_eq_self_iff ((parse_wellFormed base).rooted (by simp [ha]))
  · rw [if_neg hsame, if_neg hsame]
    exact normalizePath_iff _

variable {documentUri reference : Text}

theorem resolve_eq {cfg : ResolveConfig} (h : Resolvable cfg (cfg.base documentUri) reference) :
    resolve cfg documentUri reference =
      cfg.deliver ((parse reference).fragment.getD [])
        ((buildResolvedCandidate cfg.maxUriBytes (cfg.base documentUri)
          (breakAt '#' reference).1).bind (normalizeAbsoluteUri cfg.maxUriBytes)) := by
  have hscan : (reference.dropWhile fun c => c ≠ '#')
      = withPrefix ['#'] (parse reference).fragment := (breakAt_scan '#' reference).2
  have hhash : (withPrefix ['#'] (parse reference).fragment).tail
      = (parse reference).fragment.getD [] := by
    cases (parse reference).fragment <;> rfl
  have hroom : ¬ (withPrefix ['#'] (parse reference).fragment ≠ [] ∧
      cfg.fragmentCapacity ≤ (withPrefix ['#'] (parse reference).fragment).tail.length) := by
    rintro ⟨hne, hfull⟩
    cases hfragment : (parse reference).fragment with
    | none => simp [hfragment, withPrefix] at hne
    | some f =>
      rw [hfragment] at hfull
      exact absurd (h.fragment f hfragment) (Nat.not_lt.mpr hfull)
  have hbase : ¬ (uriBytesValid (cfg.base documentUri) = false ∨
      cfg.maxUriBytes < (cfg.base documentUri).length) := by
    rintro (hbytes | hlength)
    · rw [h.absolute.bytes] at hbytes
      cases hbytes
    · exact absurd h.length (Nat.not_le.mpr hlength)
  unfold resolve
  rw [if_neg hbase, hscan, if_neg hroom, hhash, (breakAt_scan '#' reference).1]

/-- **Main.** Within the limits, the store returns the target of RFC 3986 exactly if the condition
holds. -/
theorem resolve_iff {cfg : ResolveConfig} (h : Resolvable cfg (cfg.base documentUri) reference) :
    resolve cfg documentUri reference = .ok (target (cfg.base documentUri) reference) ↔
      Faithful cfg (cfg.base documentUri) reference := by
  have hbytes := h.bytes
  have hdocument := h.document
  rw [(breakAt_scan '#' reference).1] at hbytes
  have hbase := h.absolute
  have hfetch := buildResolvedCandidate_eq hbase hbytes (breakAt_not_mem '#' reference)
    cfg.maxUriBytes
  have hvalid := merged_valid hbase hbytes
  rw [← merged_eq] at hfetch hvalid
  obtain ⟨scheme, hscheme⟩ := Option.isSome_iff_exists.mp
    (transform_scheme (r := parse reference) hbase.scheme)
  obtain ⟨a, ha, -⟩ := hbase.authority
  have hwell := transform_wellFormed (parse_wellFormed (cfg.base documentUri)) (by simp [ha])
    (parse_wellFormed reference)
  have hparse : parseAbsoluteUri (recompose (merged (cfg.base documentUri) reference))
      = if (merged (cfg.base documentUri) reference).authority = some [] then none
        else some (partsOf (merged (cfg.base documentUri) reference)) :=
    parseAbsoluteUri_recompose hwell hscheme hvalid
  rw [resolve_eq h, hfetch]
  rw [target_eq hbase] at hdocument ⊢
  by_cases hlength : cfg.maxUriBytes < (recompose (merged (cfg.base documentUri) reference)).length
  · rw [if_pos hlength]
    exact iff_of_false (by simp [ResolveConfig.deliver])
      fun hok => absurd hok.length (Nat.not_le.mpr hlength)
  rw [if_neg hlength, Option.bind_some]
  have hfits := Nat.le_of_not_lt hlength
  by_cases hauthority : (merged (cfg.base documentUri) reference).authority = some []
  · have hnone : normalizeAbsoluteUri cfg.maxUriBytes
        (recompose (merged (cfg.base documentUri) reference)) = none := by
      rw [if_pos hauthority] at hparse
      unfold normalizeAbsoluteUri
      rw [hparse]
      rfl
    rw [hnone]
    exact iff_of_false (by simp [ResolveConfig.deliver]) fun hok => hok.authority hauthority
  rw [if_neg hauthority] at hparse
  have hpath := targetPath_iff hbase reference
  constructor
  · intro hresolve
    refine ⟨hauthority, hfits, hpath.mp ?_⟩
    cases hnormalized : normalizeAbsoluteUri cfg.maxUriBytes
        (recompose (merged (cfg.base documentUri) reference)) with
    | none =>
      rw [hnormalized] at hresolve
      cases hresolve
    | some normalized =>
      rw [hnormalized, ResolveConfig.deliver] at hresolve
      split_ifs at hresolve with hcapacity
      have hsame := congrArg Prod.fst (Except.ok.inj hresolve)
      rw [normalizeAbsoluteUri_eq hparse hnormalized] at hsame
      exact List.append_cancel_left (List.append_cancel_right hsame)
  · intro hok
    have heq := hpath.mpr hok.path
    have htext : recompose (merged (cfg.base documentUri) reference)
        = (partsOf (merged (cfg.base documentUri) reference)).front
          ++ (merged (cfg.base documentUri) reference).path
          ++ (partsOf (merged (cfg.base documentUri) reference)).query :=
      recompose_unfragmented hscheme
    have hshort := targetPath_length reference (merged (cfg.base documentUri) reference).path
    have hroom : ((partsOf (merged (cfg.base documentUri) reference)).front
        ++ normalizePath (merged (cfg.base documentUri) reference).path
        ++ (partsOf (merged (cfg.base documentUri) reference)).query).length
          ≤ cfg.maxUriBytes := by
      rw [htext] at hfits
      rw [heq]
      simp only [List.length_append] at hfits ⊢
      omega
    have hnormalized := normalizeAbsoluteUri_fits hparse hfits hroom
    have hsome : normalizeAbsoluteUri cfg.maxUriBytes
        (recompose (merged (cfg.base documentUri) reference))
        = some ((partsOf (merged (cfg.base documentUri) reference)).front
          ++ normalizePath (merged (cfg.base documentUri) reference).path
          ++ (partsOf (merged (cfg.base documentUri) reference)).query) := hnormalized
    rw [hsome, ResolveConfig.deliver, heq, if_neg (Nat.not_le.mpr hdocument)]

theorem target_length (h : Base base) (reference : Text) :
    (target base reference).1.length ≤ (recompose (merged base reference)).length := by
  obtain ⟨scheme, hscheme⟩ := Option.isSome_iff_exists.mp
    (transform_scheme (r := parse reference) h.scheme)
  have htext : recompose (merged base reference)
      = (partsOf (merged base reference)).front ++ (merged base reference).path
        ++ (partsOf (merged base reference)).query := recompose_unfragmented hscheme
  have hshort := targetPath_length reference (merged base reference).path
  rw [target_eq h, htext]
  simp only [List.length_append]
  omega

/-! ## Samples -/

def sampleConfig : ResolveConfig where
  applicationUri := "http://h/a/b/c".toList
  maxUriBytes := 64
  documentCapacity := 65
  fragmentCapacity := 8

theorem sample_base : Base (sampleConfig.base []) where
  scheme := by decide
  authority := ⟨['h'], by decide, by decide⟩
  fragment := by decide
  bytes := by decide

theorem sample_resolve : resolve sampleConfig [] "../d#top".toList
    = .ok (target (sampleConfig.base []) "../d#top".toList) := by
  refine (resolve_iff ⟨sample_base, .inr (by decide), by decide, ?_, ?_⟩).mpr
    ⟨by decide, by decide, ?_⟩
  · exact Nat.lt_of_le_of_lt (target_length sample_base _) (by decide)
  · intro f hf
    cases hf
    decide
  · rw [if_neg (by decide)]
    exact ⟨by decide, by decide, by decide⟩

/-- `..` loses the slash at its end. -/
theorem parent_not_resolved : ¬ ∀ (cfg : ResolveConfig) (documentUri reference : Text),
    Resolvable cfg (cfg.base documentUri) reference →
      resolve cfg documentUri reference = .ok (target (cfg.base documentUri) reference) := by
  intro h
  have hwithin : Resolvable sampleConfig (sampleConfig.base []) "..".toList :=
    ⟨sample_base, .inr (by decide), by decide,
      Nat.lt_of_le_of_lt (target_length sample_base _) (by decide), fun f hf => by cases hf⟩
  have hok := ((resolve_iff hwithin).mp (h _ _ _ hwithin)).path
  exact absurd (hok.last (by decide)) (by decide)

end TurboScxml.Voice
