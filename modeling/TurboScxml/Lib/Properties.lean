import Mathlib.Data.List.Nodup
import Mathlib.Logic.Function.Basic

/-!
# Properties that can be defined once

A heap of objects gives each object and name at most one property, and a frozen property cannot be
defined again.

* `define`, `defineAll`: one definition and a list of them, the first refusal stops;
* `defineAll_isSome_iff`: all are accepted when no key comes twice and none is frozen before.
-/

namespace Properties

variable {κ ρ : Type} [DecidableEq κ]

abbrev Heap (κ ρ : Type) := κ → Option ρ

def define (frozen : ρ → Bool) (heap : Heap κ ρ) (key : κ) (property : ρ) : Option (Heap κ ρ) :=
  if (heap key).any frozen then none else some (Function.update heap key (some property))

def defineAll (frozen : ρ → Bool) (heap : Heap κ ρ) : List (κ × ρ) → Option (Heap κ ρ)
  | [] => some heap
  | (key, property) :: rest => do
    let heap ← define frozen heap key property
    defineAll frozen heap rest

variable {frozen : ρ → Bool} {heap heap' : Heap κ ρ} {definitions more : List (κ × ρ)}

theorem defineAll_append :
    defineAll frozen heap (definitions ++ more) =
      (defineAll frozen heap definitions).bind fun heap => defineAll frozen heap more := by
  induction definitions generalizing heap with
  | nil => rfl
  | cons first rest ih =>
    rw [List.cons_append, defineAll, defineAll]
    cases define frozen heap first.1 first.2 with
    | none => rfl
    | some next => exact ih

theorem define_eq_some {key : κ} {property : ρ} (h : define frozen heap key property = some heap') :
    (heap key).any frozen = false ∧ heap' = Function.update heap key (some property) := by
  unfold define at h
  split at h
  next => cases h
  next hfrozen =>
    cases h
    exact ⟨by simpa using hfrozen, rfl⟩

theorem defineAll_of_notMem (h : defineAll frozen heap definitions = some heap') {key : κ}
    (hkey : key ∉ definitions.map Prod.fst) : heap' key = heap key := by
  induction definitions generalizing heap with
  | nil =>
    cases h
    rfl
  | cons first rest ih =>
    obtain ⟨next, hnext, hrest⟩ := Option.bind_eq_some_iff.mp h
    obtain ⟨-, rfl⟩ := define_eq_some hnext
    rw [List.map_cons, List.mem_cons, not_or] at hkey
    rw [ih hrest hkey.2, Function.update_of_ne hkey.1]

/-- All are accepted when no key comes twice and none is frozen. -/
theorem defineAll_isSome_iff (hfrozen : ∀ d ∈ definitions, frozen d.2 = true) :
    (defineAll frozen heap definitions).isSome ↔
      (definitions.map Prod.fst).Nodup ∧ ∀ d ∈ definitions, (heap d.1).any frozen = false := by
  induction definitions generalizing heap with
  | nil => simp [defineAll]
  | cons first rest ih =>
    have hhead : frozen first.2 = true := hfrozen first (by simp)
    have htail : ∀ d ∈ rest, frozen d.2 = true := fun d hd => hfrozen d (by simp [hd])
    rw [defineAll, define]
    by_cases hfirst : (heap first.1).any frozen = true
    · rw [if_pos hfirst]
      refine iff_of_false (by simp) fun h => ?_
      rw [h.2 first (by simp)] at hfirst
      cases hfirst
    · rw [if_neg hfirst, Option.bind_eq_bind, Option.bind_some, ih htail]
      rw [Bool.not_eq_true] at hfirst
      simp only [List.map_cons, List.nodup_cons, List.mem_map, not_exists, not_and,
        List.forall_mem_cons]
      constructor
      · rintro ⟨hnodup, hrest⟩
        have hapart : ∀ d ∈ rest, d.1 ≠ first.1 := by
          intro d hd heq
          have := hrest d hd
          rw [heq, Function.update_self, Option.any_some, hhead] at this
          cases this
        refine ⟨⟨hapart, hnodup⟩, hfirst, fun d hd => ?_⟩
        have := hrest d hd
        rwa [Function.update_of_ne (hapart d hd)] at this
      · rintro ⟨⟨hapart, hnodup⟩, -, hrest⟩
        refine ⟨hnodup, fun d hd => ?_⟩
        rw [Function.update_of_ne (hapart d hd)]
        exact hrest d hd

theorem defineAll_of_mem (hfrozen : ∀ d ∈ definitions, frozen d.2 = true)
    (h : defineAll frozen heap definitions = some heap') {key : κ} {property : ρ}
    (hmem : (key, property) ∈ definitions) : heap' key = some property := by
  induction definitions generalizing heap with
  | nil => cases hmem
  | cons first rest ih =>
    have htail : ∀ d ∈ rest, frozen d.2 = true := fun d hd => hfrozen d (by simp [hd])
    obtain ⟨next, hnext, hrest⟩ := Option.bind_eq_some_iff.mp h
    obtain ⟨-, rfl⟩ := define_eq_some hnext
    rcases List.mem_cons.mp hmem with hfirst | hin
    · cases hfirst
      have hapart : key ∉ rest.map Prod.fst := by
        intro hin
        obtain ⟨d, hd, hkey⟩ := List.mem_map.mp hin
        have hsome := (defineAll_isSome_iff htail).mp (Option.isSome_iff_exists.mpr ⟨_, hrest⟩)
        have := hsome.2 d hd
        rw [hkey, Function.update_self, Option.any_some, hfrozen _ (by simp)] at this
        cases this
      rw [defineAll_of_notMem hrest hapart, Function.update_self]
    · exact ih htail hrest hin

end Properties
