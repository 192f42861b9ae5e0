import Mathlib.Data.List.Nodup
import Mathlib.Data.List.Range
import Mathlib.Logic.Function.Basic

/-!
# Tokens in custody

Tokens are numbered in the order in which they are handed out. Each of them is in one place, or was
released once.

* `Custody`: the numbers below `next` are the tokens that are held or were released;
* `Custody.acquire`, `Custody.release`, `Custody.move`, `Custody.pass`: the steps that keep it;
* `Custody.count`: the tokens are the released ones and the held ones.
-/

namespace Tokens

open Function

variable {P : Type*}

structure Custody (next : ℕ) (released : List ℕ) (held : P → Option ℕ) : Prop where
  nodup : released.Nodup
  known : ∀ t, t < next ↔ t ∈ released ∨ ∃ p, held p = some t
  apart : ∀ p t, held p = some t → t ∉ released
  unique : ∀ p q t, held p = some t → held q = some t → p = q

variable {next : ℕ} {released : List ℕ} {held : P → Option ℕ}

theorem Custody.empty : Custody 0 [] (fun _ : P => none) := by
  constructor <;> simp

variable (h : Custody next released held)
include h

theorem Custody.held_lt {p : P} {t : ℕ} (hp : held p = some t) : t < next :=
  (h.known t).mpr (.inr ⟨p, hp⟩)

theorem Custody.fresh (p : P) : held p ≠ some next := fun hp =>
  Nat.lt_irrefl next (h.held_lt hp)

theorem Custody.fresh_released : next ∉ released := fun hmem =>
  Nat.lt_irrefl next ((h.known next).mpr (.inl hmem))

theorem Custody.pass : Custody (next + 1) (next :: released) held := by
  constructor
  · exact List.nodup_cons.mpr ⟨h.fresh_released, h.nodup⟩
  · intro t
    rw [Nat.lt_succ_iff_lt_or_eq, h.known t, List.mem_cons]
    tauto
  · intro p t hp hmem
    rcases List.mem_cons.mp hmem with rfl | hmem
    · exact h.fresh p hp
    · exact h.apart p t hp hmem
  · exact h.unique

omit h

section Places

variable [DecidableEq P] (h : Custody next released held)
include h

theorem Custody.acquire {p : P} (hp : held p = none) :
    Custody (next + 1) released (update held p (some next)) := by
  have hback : ∀ q t, update held p (some next) q = some t →
      (q = p ∧ t = next) ∨ held q = some t := by
    intro q t hq
    rw [update_apply] at hq
    split_ifs at hq with hqp
    · exact .inl ⟨hqp, (Option.some_inj.mp hq).symm⟩
    · exact .inr hq
  constructor
  · exact h.nodup
  · intro t
    rw [Nat.lt_succ_iff_lt_or_eq, h.known t]
    constructor
    · rintro ((hmem | ⟨q, hq⟩) | rfl)
      · exact .inl hmem
      · refine .inr ⟨q, ?_⟩
        rw [update_of_ne, hq]
        rintro rfl
        rw [hp] at hq
        cases hq
      · exact .inr ⟨p, update_self _ _ _⟩
    · rintro (hmem | ⟨q, hq⟩)
      · exact .inl (.inl hmem)
      · rcases hback q t hq with ⟨-, rfl⟩ | hq
        · exact .inr rfl
        · exact .inl (.inr ⟨q, hq⟩)
  · intro q t hq hmem
    rcases hback q t hq with ⟨-, rfl⟩ | hq
    · exact h.fresh_released hmem
    · exact h.apart q t hq hmem
  · intro q r t hq hr
    rcases hback q t hq with ⟨hqp, ht⟩ | hq <;> rcases hback r t hr with ⟨hrp, ht'⟩ | hr
    · exact hqp.trans hrp.symm
    · exact absurd (ht ▸ hr) (h.fresh r)
    · exact absurd (ht' ▸ hq) (h.fresh q)
    · exact h.unique q r t hq hr

theorem Custody.release {p : P} {t : ℕ} (hp : held p = some t) :
    Custody next (t :: released) (update held p none) := by
  have hback : ∀ q u, update held p none q = some u → q ≠ p ∧ held q = some u := by
    intro q u hq
    rw [update_apply] at hq
    split_ifs at hq with hqp
    exact ⟨hqp, hq⟩
  constructor
  · exact List.nodup_cons.mpr ⟨h.apart p t hp, h.nodup⟩
  · intro u
    rw [h.known u, List.mem_cons]
    constructor
    · rintro (hmem | ⟨q, hq⟩)
      · exact .inl (.inr hmem)
      · by_cases hqp : q = p
        · rw [hqp, hp] at hq
          exact .inl (.inl (Option.some_inj.mp hq).symm)
        · exact .inr ⟨q, by rw [update_of_ne hqp, hq]⟩
    · rintro ((rfl | hmem) | ⟨q, hq⟩)
      · exact .inr ⟨p, hp⟩
      · exact .inl hmem
      · exact .inr ⟨q, (hback q u hq).2⟩
  · intro q u hq hmem
    obtain ⟨hqp, hq⟩ := hback q u hq
    rcases List.mem_cons.mp hmem with rfl | hmem
    · exact hqp (h.unique q p u hq hp)
    · exact h.apart q u hq hmem
  · exact fun q r u hq hr => h.unique q r u (hback q u hq).2 (hback r u hr).2

theorem Custody.stay {p : P} {t : Option ℕ} (hp : t = held p) :
    Custody next released (update held p t) := by
  rw [hp, update_eq_self]
  exact h

theorem Custody.drop (p : P) : Custody next ((held p).toList ++ released) (update held p none) := by
  cases hp : held p with
  | none => exact h.stay hp.symm
  | some t => exact h.release hp

theorem Custody.move {p q : P} {t : ℕ} (hp : held p = some t) (hq : held q = none) :
    Custody next released (update (update held p none) q (some t)) := by
  have hback : ∀ r u, update (update held p none) q (some t) r = some u →
      (r = q ∧ u = t) ∨ (r ≠ q ∧ r ≠ p ∧ held r = some u) := by
    intro r u hr
    rw [update_apply] at hr
    split_ifs at hr with hrq
    · exact .inl ⟨hrq, (Option.some_inj.mp hr).symm⟩
    · rw [update_apply] at hr
      split_ifs at hr with hrp
      exact .inr ⟨hrq, hrp, hr⟩
  constructor
  · exact h.nodup
  · intro u
    rw [h.known u]
    constructor
    · rintro (hmem | ⟨r, hr⟩)
      · exact .inl hmem
      · by_cases hrp : r = p
        · rw [hrp, hp] at hr
          exact .inr ⟨q, by rw [update_self, hr]⟩
        · refine .inr ⟨r, ?_⟩
          rw [update_of_ne, update_of_ne hrp, hr]
          rintro rfl
          rw [hq] at hr
          cases hr
    · rintro (hmem | ⟨r, hr⟩)
      · exact .inl hmem
      · rcases hback r u hr with ⟨-, rfl⟩ | ⟨-, -, hr⟩
        · exact .inr ⟨p, hp⟩
        · exact .inr ⟨r, hr⟩
  · intro r u hr hmem
    rcases hback r u hr with ⟨-, rfl⟩ | ⟨-, -, hr⟩
    · exact h.apart p u hp hmem
    · exact h.apart r u hr hmem
  · intro r r' u hr hr'
    rcases hback r u hr with ⟨hrq, hu⟩ | ⟨-, hrp, hr⟩ <;>
      rcases hback r' u hr' with ⟨hrq', hu'⟩ | ⟨-, hrp', hr'⟩
    · exact hrq.trans hrq'.symm
    · exact absurd (h.unique r' p u hr' (hu ▸ hp)) hrp'
    · exact absurd (h.unique r p u hr (hu' ▸ hp)) hrp
    · exact h.unique r r' u hr hr'

omit h

end Places

theorem Custody.count (h : Custody next released held) {places : List P} (hnodup : places.Nodup)
    (hall : ∀ p t, held p = some t → p ∈ places) :
    next = released.length + (places.filterMap held).length := by
  have hheld : (places.filterMap held).Nodup :=
    hnodup.filterMap fun p q t hp hq => h.unique p q t hp hq
  have hnodup : (released ++ places.filterMap held).Nodup := by
    refine List.nodup_append'.mpr ⟨h.nodup, hheld, ?_⟩
    intro t hmem hplaces
    obtain ⟨p, -, hp⟩ := List.mem_filterMap.mp hplaces
    exact h.apart p t hp hmem
  have hperm : (released ++ places.filterMap held).Perm (List.range next) := by
    refine (List.perm_ext_iff_of_nodup hnodup List.nodup_range).mpr fun t => ?_
    rw [List.mem_append, List.mem_range, h.known t, List.mem_filterMap]
    constructor
    · rintro (hmem | ⟨p, -, hp⟩)
      · exact .inl hmem
      · exact .inr ⟨p, hp⟩
    · rintro (hmem | ⟨p, hp⟩)
      · exact .inl hmem
      · exact .inr ⟨p, hall p t hp, hp⟩
  rw [← List.length_append, hperm.length_eq, List.length_range]

end Tokens
