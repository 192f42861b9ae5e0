import TurboScxml.Lib.Wildcard
import Mathlib.Data.List.TakeWhile
import Mathlib.Data.Nat.Notation
import Mathlib.Tactic.SplitIfs

/-!
# Event patterns of CCXML transitions

The matcher goes through the pattern and the name at once and remembers the last wildcard only: at a
mismatch that wildcard takes one more byte.

* `Cursor.Accepts`: the rest of the name is in the language of the rest of the pattern, now or with
  a longer last wildcard;
* **`eventPatternMatches_iff`**: the matcher decides the language of the pattern.
-/

namespace TurboScxml.Ccxml.EventPatterns

open Wildcard (Matches)

/-! ## The matcher -/

def asciiFold (value : UInt8) : UInt8 :=
  if 65 ≤ value ∧ value ≤ 90 then value + (97 - 65) else value

def isStar (byte : UInt8) : Bool := byte == 42

def sameLetter (a b : UInt8) : Bool := asciiFold a == asciiFold b

variable (pattern name : List UInt8)

def letterAt (patternIndex : ℕ) : Bool := (pattern[patternIndex]?).any fun p => !isStar p

def starAt (patternIndex : ℕ) : Bool := (pattern[patternIndex]?).any isStar

def letterMatches (patternIndex nameIndex : ℕ) : Bool :=
  match pattern[patternIndex]?, name[nameIndex]? with
  | some p, some c => !isStar p && sameLetter p c
  | _, _ => false

/-- The indexes of `event_pattern_matches`. -/
structure Cursor where
  patternIndex : ℕ
  nameIndex : ℕ
  wildcard : Option (ℕ × ℕ)
  inPattern : patternIndex ≤ pattern.length
  inName : nameIndex ≤ name.length
  letters : ∀ w ∈ wildcard, w.1 < patternIndex ∧ w.2 ≤ nameIndex ∧
    nameIndex - w.2 = patternIndex - (w.1 + 1) ∧
    ∀ k, w.1 < k → k < patternIndex → letterAt pattern k = true

variable {pattern name}

theorem letterMatches_eq_true {i j : ℕ} (h : letterMatches pattern name i j = true) :
    ∃ p c, pattern[i]? = some p ∧ name[j]? = some c ∧ isStar p = false ∧ sameLetter p c = true := by
  rw [letterMatches] at h
  split at h
  next p c hp hc =>
    rw [Bool.and_eq_true, Bool.not_eq_true'] at h
    exact ⟨p, c, hp, hc, h.1, h.2⟩
  next => cases h

theorem starAt_eq_true {i : ℕ} (h : starAt pattern i = true) :
    ∃ p, pattern[i]? = some p ∧ isStar p = true := by
  rw [starAt, Option.any_eq_true] at h
  obtain ⟨p, hp, hstar⟩ := h
  exact ⟨p, hp, hstar⟩

variable (s : Cursor pattern name)

def Cursor.consume
    (h : letterMatches pattern name s.patternIndex s.nameIndex = true) : Cursor pattern name where
  patternIndex := s.patternIndex + 1
  nameIndex := s.nameIndex + 1
  wildcard := s.wildcard
  inPattern := by
    obtain ⟨p, c, hp, -⟩ := letterMatches_eq_true h
    exact (List.getElem?_eq_some_iff.mp hp).1
  inName := by
    obtain ⟨p, c, -, hc, -⟩ := letterMatches_eq_true h
    exact (List.getElem?_eq_some_iff.mp hc).1
  letters := by
    intro w hw
    obtain ⟨hpattern, hname, hlength, hletters⟩ := s.letters w hw
    refine ⟨by omega, by omega, by omega, fun k hk hlt => ?_⟩
    by_cases hlast : k = s.patternIndex
    · obtain ⟨p, c, hp, -, hletter, -⟩ := letterMatches_eq_true h
      rw [hlast, letterAt, hp, Option.any_some, hletter]
      rfl
    · exact hletters k hk (by omega)

def Cursor.enterWildcard (h : starAt pattern s.patternIndex = true) : Cursor pattern name where
  patternIndex := s.patternIndex + 1
  nameIndex := s.nameIndex
  wildcard := some (s.patternIndex, s.nameIndex)
  inPattern := by
    obtain ⟨p, hp, -⟩ := starAt_eq_true h
    exact (List.getElem?_eq_some_iff.mp hp).1
  inName := s.inName
  letters := by
    intro w hw
    cases hw
    exact ⟨Nat.lt_succ_self _, Nat.le_refl _, by omega, fun k hk hlt => by omega⟩

def Cursor.backtrack (w : ℕ × ℕ) (hw : s.wildcard = some w)
    (h : s.nameIndex < name.length) : Cursor pattern name where
  patternIndex := w.1 + 1
  nameIndex := w.2 + 1
  wildcard := some (w.1, w.2 + 1)
  inPattern := Nat.le_trans (s.letters w hw).1 s.inPattern
  inName := Nat.lt_of_le_of_lt (s.letters w hw).2.1 h
  letters := by
    intro v hv
    cases hv
    exact ⟨Nat.lt_succ_self _, Nat.le_refl _, by omega, fun k hk hlt => by omega⟩

/-- One turn of the loop; `none` is its `return false`. -/
def Cursor.step (h : s.nameIndex < name.length) : Option (Cursor pattern name) :=
  if hletter : letterMatches pattern name s.patternIndex s.nameIndex = true then
    some (s.consume hletter)
  else if hstar : starAt pattern s.patternIndex = true then some (s.enterWildcard hstar)
  else
    match hw : s.wildcard with
    | some w => some (s.backtrack w hw h)
    | none => none

def Cursor.left : ℕ :=
  s.wildcard.elim (pattern.length + 1) fun w => pattern.length - w.1

def Cursor.untaken : ℕ :=
  s.wildcard.elim (name.length + 1) fun w => name.length - w.2

def Cursor.measure : ℕ × ℕ × ℕ :=
  (s.left, s.untaken, name.length - s.nameIndex)

theorem Cursor.measure_consume (h : letterMatches pattern name s.patternIndex s.nameIndex = true)
    (hname : s.nameIndex < name.length) :
    Prod.Lex (· < ·) (Prod.Lex (· < ·) (· < ·)) (s.consume h).measure s.measure := by
  refine Prod.Lex.right _ (Prod.Lex.right _ ?_)
  change name.length - (s.nameIndex + 1) < name.length - s.nameIndex
  omega

theorem Cursor.measure_enterWildcard (h : starAt pattern s.patternIndex = true) :
    Prod.Lex (· < ·) (Prod.Lex (· < ·) (· < ·)) (s.enterWildcard h).measure s.measure := by
  refine Prod.Lex.left _ _ ?_
  have hlt := (s.enterWildcard h).inPattern
  change s.patternIndex + 1 ≤ pattern.length at hlt
  change pattern.length - s.patternIndex < s.left
  rw [Cursor.left]
  cases hw : s.wildcard with
  | none =>
    change pattern.length - s.patternIndex < pattern.length + 1
    omega
  | some w =>
    have hbefore := (s.letters w hw).1
    change pattern.length - s.patternIndex < pattern.length - w.1
    omega

theorem Cursor.measure_backtrack (w : ℕ × ℕ) (hw : s.wildcard = some w)
    (h : s.nameIndex < name.length) :
    Prod.Lex (· < ·) (Prod.Lex (· < ·) (· < ·)) (s.backtrack w hw h).measure s.measure := by
  have hleft : (s.backtrack w hw h).left = s.left := by
    rw [Cursor.left, Cursor.left, hw]
    rfl
  have hbefore := (s.letters w hw).2.1
  rw [Cursor.measure, Cursor.measure, hleft]
  refine Prod.Lex.right _ (Prod.Lex.left _ _ ?_)
  rw [Cursor.untaken, Cursor.untaken, hw]
  change name.length - (w.2 + 1) < name.length - w.2
  omega

theorem Cursor.measure_step {s s' : Cursor pattern name} {h : s.nameIndex < name.length}
    (hstep : s.step h = some s') :
    Prod.Lex (· < ·) (Prod.Lex (· < ·) (· < ·)) s'.measure s.measure := by
  unfold Cursor.step at hstep
  split_ifs at hstep with hletter hstar
  · cases hstep
    exact s.measure_consume hletter h
  · cases hstep
    exact s.measure_enterWildcard hstar
  · split at hstep
    next w hw =>
      cases hstep
      exact s.measure_backtrack w hw h
    next => cases hstep

def onlyStars (pattern : List UInt8) (patternIndex : ℕ) : Bool :=
  decide (patternIndex + ((pattern.drop patternIndex).takeWhile isStar).length = pattern.length)

/-- The loop of `event_pattern_matches`. -/
def matchesFrom (s : Cursor pattern name) : Bool :=
  if h : s.nameIndex < name.length then
    match _hstep : s.step h with
    | some s' => matchesFrom s'
    | none => false
  else onlyStars pattern s.patternIndex
termination_by s.measure
decreasing_by exact s.measure_step _hstep

variable (pattern name) in
def Cursor.start : Cursor pattern name where
  patternIndex := 0
  nameIndex := 0
  wildcard := none
  inPattern := Nat.zero_le _
  inName := Nat.zero_le _
  letters := by
    intro w hw
    cases hw

def eventPatternMatches (pattern name : List UInt8) : Bool := matchesFrom (.start pattern name)

/-! ## The language of the rest -/

variable (s : Cursor pattern name)

/-- The rest of the pattern takes the rest of the name. -/
def Cursor.Accepts : Prop :=
  Matches isStar sameLetter (pattern.drop s.patternIndex) (name.drop s.nameIndex) ∨
    ∃ w ∈ s.wildcard, ∃ k, w.2 < k ∧ k ≤ name.length ∧
      Matches isStar sameLetter (pattern.drop (w.1 + 1)) (name.drop k)

/-- **A longer last wildcard leaves less of the name to the rest of the pattern.** -/
theorem Cursor.longer {w : ℕ × ℕ} (hw : s.wildcard = some w) {k : ℕ}
    (hk : w.2 < k) (hle : k ≤ name.length)
    (h : Matches isStar sameLetter (pattern.drop (w.1 + 1)) (name.drop k)) :
    ∃ j, s.nameIndex < j ∧ j ≤ name.length ∧
      Matches isStar sameLetter (pattern.drop s.patternIndex) (name.drop j) := by
  obtain ⟨hpattern, hname, hlength, hletters⟩ := s.letters w hw
  have hin := s.inPattern
  have hsplit : pattern.drop (w.1 + 1) =
      (pattern.drop (w.1 + 1)).take (s.patternIndex - (w.1 + 1)) ++
        pattern.drop s.patternIndex := by
    conv_lhs => rw [← List.take_append_drop (s.patternIndex - (w.1 + 1)) (pattern.drop (w.1 + 1))]
    rw [List.drop_drop, show w.1 + 1 + (s.patternIndex - (w.1 + 1)) = s.patternIndex by omega]
  have husize : ((pattern.drop (w.1 + 1)).take (s.patternIndex - (w.1 + 1))).length =
      s.patternIndex - (w.1 + 1) := by
    rw [List.length_take, List.length_drop]
    omega
  rw [hsplit] at h
  obtain ⟨hroom, hrest⟩ := h.drop_letters (by
    intro u hu
    obtain ⟨i, hi, rfl⟩ := List.mem_iff_getElem.mp hu
    have hletter := hletters (w.1 + 1 + i) (by omega) (by omega)
    rw [List.getElem_take, List.getElem_drop]
    rw [letterAt, List.getElem?_eq_getElem (by omega), Option.any_some,
      Bool.not_eq_true'] at hletter
    exact hletter)
  rw [husize, List.length_drop] at hroom
  rw [husize, List.drop_drop] at hrest
  exact ⟨k + (s.patternIndex - (w.1 + 1)), by omega, by omega, hrest⟩

/-! ## The turns of the loop -/

theorem Cursor.accepts_consume (h : letterMatches pattern name s.patternIndex s.nameIndex = true) :
    (s.consume h).Accepts ↔ s.Accepts := by
  obtain ⟨p, c, hp, hc, hletter, hsame⟩ := letterMatches_eq_true h
  obtain ⟨hpattern, rfl⟩ := List.getElem?_eq_some_iff.mp hp
  obtain ⟨hname, rfl⟩ := List.getElem?_eq_some_iff.mp hc
  have hrest : Matches isStar sameLetter (pattern.drop s.patternIndex) (name.drop s.nameIndex) ↔
      Matches isStar sameLetter (pattern.drop (s.patternIndex + 1))
        (name.drop (s.nameIndex + 1)) := by
    rw [List.drop_eq_getElem_cons hpattern, List.drop_eq_getElem_cons hname,
      Wildcard.matches_letter hletter]
    exact and_iff_right hsame
  exact or_congr hrest.symm Iff.rfl

theorem Cursor.accepts_enterWildcard
    (h : starAt pattern s.patternIndex = true) : (s.enterWildcard h).Accepts ↔ s.Accepts := by
  obtain ⟨p, hp, hstar⟩ := starAt_eq_true h
  obtain ⟨hpattern, rfl⟩ := List.getElem?_eq_some_iff.mp hp
  have hin := s.inName
  have hwild : Matches isStar sameLetter (pattern.drop s.patternIndex) (name.drop s.nameIndex) ↔
      ∃ k, s.nameIndex ≤ k ∧ k ≤ name.length ∧
        Matches isStar sameLetter (pattern.drop (s.patternIndex + 1)) (name.drop k) := by
    rw [List.drop_eq_getElem_cons hpattern, Wildcard.matches_wildcard hstar]
    constructor
    · rintro ⟨k, hk, hrest⟩
      rw [List.length_drop] at hk
      rw [List.drop_drop] at hrest
      exact ⟨s.nameIndex + k, by omega, by omega, hrest⟩
    · rintro ⟨k, hle, hk, hrest⟩
      refine ⟨k - s.nameIndex, ?_, ?_⟩
      · rw [List.length_drop]
        omega
      · rw [List.drop_drop, show s.nameIndex + (k - s.nameIndex) = k by omega]
        exact hrest
  have hnew : (s.enterWildcard h).Accepts ↔
      Matches isStar sameLetter (pattern.drop s.patternIndex) (name.drop s.nameIndex) := by
    rw [hwild]
    constructor
    · rintro (hrest | ⟨w, hw, k, hlt, hk, hrest⟩)
      · exact ⟨s.nameIndex, Nat.le_refl _, hin, hrest⟩
      · cases hw
        exact ⟨k, Nat.le_of_lt hlt, hk, hrest⟩
    · rintro ⟨k, hle, hk, hrest⟩
      rcases Nat.eq_or_lt_of_le hle with rfl | hlt
      · exact .inl hrest
      · exact .inr ⟨_, rfl, k, hlt, hk, hrest⟩
  rw [hnew]
  constructor
  · exact .inl
  · rintro (hrest | ⟨w, hw, k, hlt, hk, hrest⟩)
    · exact hrest
    · -- the star can take what a longer earlier wildcard would have taken
      obtain ⟨j, hlt', hj, hrest'⟩ := s.longer hw hlt hk hrest
      rw [List.drop_eq_getElem_cons hpattern, Wildcard.matches_wildcard hstar] at hrest'
      obtain ⟨i, hi, hrest''⟩ := hrest'
      rw [List.length_drop] at hi
      rw [List.drop_drop] at hrest''
      rw [hwild]
      exact ⟨j + i, by omega, by omega, hrest''⟩

theorem Cursor.not_matches (h : s.nameIndex < name.length)
    (hletter : ¬letterMatches pattern name s.patternIndex s.nameIndex = true)
    (hstar : ¬starAt pattern s.patternIndex = true) :
    ¬Matches isStar sameLetter (pattern.drop s.patternIndex) (name.drop s.nameIndex) := by
  rw [List.drop_eq_getElem_cons h]
  by_cases hend : s.patternIndex < pattern.length
  · rw [starAt, List.getElem?_eq_getElem hend, Option.any_some, Bool.not_eq_true] at hstar
    rw [List.drop_eq_getElem_cons hend, Wildcard.matches_letter hstar]
    rintro ⟨hsame, -⟩
    rw [letterMatches, List.getElem?_eq_getElem hend, List.getElem?_eq_getElem h] at hletter
    dsimp only at hletter
    rw [hstar, hsame] at hletter
    exact hletter rfl
  · rw [List.drop_eq_nil_of_le (Nat.le_of_not_lt hend)]
    exact Wildcard.not_matches_nil

theorem Cursor.accepts_backtrack (w : ℕ × ℕ)
    (hw : s.wildcard = some w) (h : s.nameIndex < name.length)
    (hmismatch :
      ¬Matches isStar sameLetter (pattern.drop s.patternIndex) (name.drop s.nameIndex)) :
    (s.backtrack w hw h).Accepts ↔ s.Accepts := by
  have hbefore := (s.letters w hw).2.1
  constructor
  · rintro (hrest | ⟨v, hv, k, hlt, hk, hrest⟩)
    · exact .inr ⟨w, hw, w.2 + 1, Nat.lt_succ_self _, by omega, hrest⟩
    · cases hv
      exact .inr ⟨w, hw, k, Nat.lt_of_succ_lt hlt, hk, hrest⟩
  · rintro (hrest | ⟨v, hv, k, hlt, hk, hrest⟩)
    · exact absurd hrest hmismatch
    · have hsame : v = w := Option.some.inj (hv.symm.trans hw)
      subst hsame
      rcases Nat.eq_or_lt_of_le hlt with heq | hlater
      · refine .inl ?_
        rw [← heq] at hrest
        exact hrest
      · exact .inr ⟨_, rfl, k, hlater, hk, hrest⟩

/-- **A turn of the loop keeps what is accepted.** -/
theorem Cursor.accepts_step {s s' : Cursor pattern name} {h : s.nameIndex < name.length}
    (hstep : s.step h = some s') : s'.Accepts ↔ s.Accepts := by
  unfold Cursor.step at hstep
  split_ifs at hstep with hletter hstar
  · cases hstep
    exact s.accepts_consume hletter
  · cases hstep
    exact s.accepts_enterWildcard hstar
  · split at hstep
    next w hw =>
      cases hstep
      exact s.accepts_backtrack w hw h (s.not_matches h hletter hstar)
    next => cases hstep

theorem Cursor.not_accepts {s : Cursor pattern name} {h : s.nameIndex < name.length}
    (hstep : s.step h = none) : ¬s.Accepts := by
  unfold Cursor.step at hstep
  split_ifs at hstep with hletter hstar
  split at hstep
  next => cases hstep
  next hw =>
    rintro (hrest | ⟨w, hw', -⟩)
    · exact s.not_matches h hletter hstar hrest
    · rw [hw] at hw'
      cases hw'

theorem onlyStars_iff (pattern : List UInt8) {i : ℕ} (hi : i ≤ pattern.length) :
    onlyStars pattern i = true ↔ Matches isStar sameLetter (pattern.drop i) [] := by
  rw [onlyStars, decide_eq_true_eq, Wildcard.matches_nil, ← List.takeWhile_eq_self_iff]
  have hlength : (pattern.drop i).length = pattern.length - i := List.length_drop
  constructor
  · intro h
    refine (List.takeWhile_prefix isStar).eq_of_length ?_
    omega
  · intro h
    rw [h]
    omega

theorem Cursor.accepts_end (h : ¬s.nameIndex < name.length) :
    onlyStars pattern s.patternIndex = true ↔ s.Accepts := by
  have hend : s.nameIndex = name.length := Nat.le_antisymm s.inName (Nat.le_of_not_lt h)
  rw [onlyStars_iff pattern s.inPattern]
  constructor
  · intro hstars
    refine .inl ?_
    rw [hend, List.drop_length]
    exact hstars
  · rintro (hrest | ⟨w, hw, k, hlt, hk, hrest⟩)
    · rw [hend, List.drop_length] at hrest
      exact hrest
    · obtain ⟨j, hlt', hj, -⟩ := s.longer hw hlt hk hrest
      omega

/-! ## The matcher and the language -/

theorem matchesFrom_iff : matchesFrom s = true ↔ s.Accepts := by
  fun_induction matchesFrom s with
  | case1 s h s' hstep ih => rw [ih, s.accepts_step hstep]
  | case2 s h hstep => exact iff_of_false (by decide) (Cursor.not_accepts hstep)
  | case3 s h => exact s.accepts_end h

/-- **Main.** The names in the language of the pattern are accepted, and no others. -/
theorem eventPatternMatches_iff (pattern name : List UInt8) :
    eventPatternMatches pattern name = true ↔ Matches isStar sameLetter pattern name := by
  rw [eventPatternMatches, matchesFrom_iff]
  constructor
  · rintro (h | ⟨w, hw, -⟩)
    · exact h
    · cases hw
  · exact .inl

end TurboScxml.Ccxml.EventPatterns
