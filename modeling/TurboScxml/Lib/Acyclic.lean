import Mathlib.Logic.Relation

/-!
# Acyclic relations

A pointer structure is acyclic when no path of one or more steps returns to its start.

* `Acyclic.mono`: removing edges keeps a relation acyclic;
* **`Acyclic.addEdge`**: so does adding the edge `c → p` when `p` does not lead to `c`.
-/

namespace Pointers

open Relation

variable {α : Type*}

def Acyclic (R : α → α → Prop) : Prop := ∀ x, ¬ TransGen R x x

variable {R R' : α → α → Prop}

theorem Acyclic.mono (h : Acyclic R) (hsub : ∀ x y, R' x y → R x y) : Acyclic R' :=
  fun x hx => h x (TransGen.mono hsub x x hx)

/-- A path that may use `c → p` avoids it, or splits at it. -/
theorem transGen_addEdge {c p : α}
    (hsub : ∀ x y, R' x y → R x y ∨ x = c ∧ y = p) {x y : α} (h : TransGen R' x y) :
    TransGen R x y ∨ ReflTransGen R x c ∧ ReflTransGen R p y := by
  induction h with
  | single hxy =>
    rcases hsub _ _ hxy with hR | ⟨rfl, rfl⟩
    · exact .inl (.single hR)
    · exact .inr ⟨.refl, .refl⟩
  | tail _ hbz ih =>
    rcases hsub _ _ hbz with hR | ⟨rfl, rfl⟩
    · rcases ih with hpath | ⟨hxc, hpb⟩
      · exact .inl (hpath.tail hR)
      · exact .inr ⟨hxc, hpb.tail hR⟩
    · rcases ih with hpath | ⟨hxc, -⟩
      · exact .inr ⟨hpath.to_reflTransGen, .refl⟩
      · exact .inr ⟨hxc, .refl⟩

/-- **Adding an edge.** -/
theorem Acyclic.addEdge {c p : α} (h : Acyclic R)
    (hpc : ¬ ReflTransGen R p c) (hsub : ∀ x y, R' x y → R x y ∨ x = c ∧ y = p) : Acyclic R' := by
  intro x hx
  rcases transGen_addEdge hsub hx with hpath | ⟨hxc, hpx⟩
  · exact h x hpath
  · exact hpc (hpx.trans hxc)

end Pointers
