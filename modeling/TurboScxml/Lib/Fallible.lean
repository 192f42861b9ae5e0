/-!
# Computations that may fail

What a sequence of computations in `Except` gives when it does not fail.
-/

namespace Fallible

variable {ε α β : Type}

theorem bind_eq_ok {x : Except ε α} {f : α → Except ε β} {b : β} :
    x >>= f = .ok b ↔ ∃ a, x = .ok a ∧ f a = .ok b := by
  cases x with
  | error e =>
    refine iff_of_false (fun h => ?_) ?_
    · cases h
    · rintro ⟨a, ha, -⟩
      cases ha
  | ok a =>
    constructor
    · exact fun h => ⟨a, rfl, h⟩
    · rintro ⟨a', ha, h⟩
      cases ha
      exact h

theorem eq_ok_of_forM {f : α → Except ε Unit} {l : List α} (h : forM l f = .ok ()) {a : α}
    (ha : a ∈ l) : f a = .ok () := by
  induction l with
  | nil => cases ha
  | cons b l ih =>
    rw [List.forM_cons, bind_eq_ok] at h
    obtain ⟨⟨⟩, hb, hl⟩ := h
    rcases List.mem_cons.mp ha with rfl | hmem
    · exact hb
    · exact ih hl hmem

end Fallible
