import Mathlib.Logic.Basic
import Mathlib.Tactic.Push

/-!
# Patterns with wildcards

A pattern is a list of symbols. A symbol is a wildcard, which stands for any list, or a letter,
which stands for one letter that is the same.

* `Matches`: the lists in the language of a pattern;
* `Matches.drop_letters`: letters at the front of a pattern use up as many letters of the list.
-/

namespace TurboScxml.Wildcard

variable {α : Type*} {wildcard : α → Bool} {same : α → α → Bool}

inductive Matches (wildcard : α → Bool) (same : α → α → Bool) : List α → List α → Prop
  | nil : Matches wildcard same [] []
  | letter {p c : α} {ps cs : List α} :
    wildcard p = false → same p c = true → Matches wildcard same ps cs →
      Matches wildcard same (p :: ps) (c :: cs)
  | any {p : α} {ps cs : List α} (w : List α) :
    wildcard p = true → Matches wildcard same ps cs → Matches wildcard same (p :: ps) (w ++ cs)

variable {p : α} {ps cs : List α}

theorem matches_wildcard (hp : wildcard p = true) :
    Matches wildcard same (p :: ps) cs ↔
      ∃ k ≤ cs.length, Matches wildcard same ps (cs.drop k) := by
  constructor
  · intro h
    cases h with
    | letter hletter _ _ => exact absurd (hp.symm.trans hletter) (by decide)
    | any w _ hrest =>
      refine ⟨w.length, ?_, ?_⟩
      · rw [List.length_append]
        exact Nat.le_add_right _ _
      · rw [List.drop_left]
        exact hrest
  · rintro ⟨k, -, hrest⟩
    rw [← List.take_append_drop k cs]
    exact .any (cs.take k) hp hrest

variable {c : α}

theorem matches_letter (hp : wildcard p = false) :
    Matches wildcard same (p :: ps) (c :: cs) ↔
      same p c = true ∧ Matches wildcard same ps cs := by
  constructor
  · intro h
    generalize hname : c :: cs = name at h
    cases h with
    | letter _ hsame hrest =>
      cases hname
      exact ⟨hsame, hrest⟩
    | any _ hany _ => exact absurd (hany.symm.trans hp) (by decide)
  · rintro ⟨hsame, hrest⟩
    exact .letter hp hsame hrest

theorem not_matches_letter_nil (hp : wildcard p = false) : ¬Matches wildcard same (p :: ps) [] := by
  intro h
  generalize hname : ([] : List α) = name at h
  cases h with
  | letter _ _ _ => cases hname
  | any _ hany _ => exact absurd (hany.symm.trans hp) (by decide)

theorem not_matches_nil : ¬Matches wildcard same [] (c :: cs) := by
  intro h
  cases h

theorem matches_nil : Matches wildcard same ps [] ↔ ∀ p ∈ ps, wildcard p = true := by
  induction ps with
  | nil => exact iff_of_true .nil (by simp)
  | cons p ps ih =>
    cases hp : wildcard p with
    | false =>
      refine iff_of_false (not_matches_letter_nil hp) fun hall => ?_
      exact absurd ((hall p List.mem_cons_self).symm.trans hp) (by decide)
    | true =>
      rw [matches_wildcard hp]
      simp [ih, hp]

variable {us : List α}

/-- **Letters use up as many letters of the list.** -/
theorem Matches.drop_letters (h : Matches wildcard same (us ++ ps) cs)
    (hus : ∀ u ∈ us, wildcard u = false) :
    us.length ≤ cs.length ∧ Matches wildcard same ps (cs.drop us.length) := by
  induction us generalizing cs with
  | nil => exact ⟨Nat.zero_le _, h⟩
  | cons u us ih =>
    have hu := hus u List.mem_cons_self
    cases cs with
    | nil => exact absurd h (not_matches_letter_nil hu)
    | cons c cs =>
      obtain ⟨hlength, hrest⟩ :=
        ih ((matches_letter hu).mp h).2 fun v hv => hus v (List.mem_cons_of_mem u hv)
      exact ⟨Nat.succ_le_succ hlength, hrest⟩

end TurboScxml.Wildcard
