import Mathlib.Logic.Function.Basic

/-!
# Parties that hold cells

Each party holds at most one cell, in some stage, and each cell is held by at most one party or has
another use.

* `Use`: what a cell is used for;
* `Matched`: the cells that the parties hold are those whose use says so;
* `Matched.write`: a party and a cell that nobody else holds are written; `Matched.take`,
  `Matched.move` and `Matched.give` are its cases.
-/

namespace Parties

open Function

variable {W R Stage X : Type*}

inductive Use (W Stage X : Type*)
  | held (party : W) (stage : Stage)
  | other (x : X)
  deriving DecidableEq

/-- The held cells are those whose use says so. -/
def Matched (grip : W → Option (R × Stage)) (use : R → Use W Stage X) : Prop :=
  ∀ w r stage, grip w = some (r, stage) ↔ use r = .held w stage

variable {grip : W → Option (R × Stage)} {use : R → Use W Stage X} {w w' : W} {r r' : R}
  {stage stage' : Stage}

theorem Matched.ne (h : Matched grip use) (hw : grip w = some (r, stage))
    (hw' : grip w' = some (r', stage')) (hne : w ≠ w') : r ≠ r' := by
  rintro rfl
  have huse := ((h w r stage).mp hw).symm.trans ((h w' r stage').mp hw')
  cases huse
  exact hne rfl

theorem Matched.ne_of_use (h : Matched grip use) (hw : grip w = some (r, stage)) {x : X}
    (hr : use r' = .other x) : r ≠ r' := by
  rintro rfl
  have huse := ((h w r stage).mp hw).symm.trans hr
  cases huse

theorem Matched.relabel (h : Matched grip use) {use' : R → Use W Stage X}
    (hsame : ∀ r w stage, use' r = .held w stage ↔ use r = .held w stage) : Matched grip use' :=
  fun w r stage => (h w r stage).trans (hsame r w stage).symm

section Writes

variable [DecidableEq W] [DecidableEq R]

variable (h : Matched grip use)
include h

/-- A write of a party and of a cell that nobody else holds. -/
theorem Matched.write {held : Option (R × Stage)} {now : Use W Stage X}
    (hcell : ∀ w' stage, use r = .held w' stage → w' = w)
    (hparty : ∀ r' stage, grip w = some (r', stage) → r' = r)
    (hnow : ∀ w' stage, now = .held w' stage → w' = w)
    (hheld : ∀ r' stage, held = some (r', stage) → r' = r)
    (hsame : ∀ stage, held = some (r, stage) ↔ now = .held w stage) :
    Matched (update grip w held) (update use r now) := by
  intro w' r' stage
  by_cases hww : w' = w <;> by_cases hrr : r' = r
  · subst hww hrr
    rw [update_self, update_self]
    exact hsame stage
  · subst hww
    rw [update_self, update_of_ne hrr, ← h w' r' stage]
    exact iff_of_false (fun hh => hrr (hheld r' stage hh)) fun hg => hrr (hparty r' stage hg)
  · subst hrr
    rw [update_self, update_of_ne hww, h w' r' stage]
    exact iff_of_false (fun hu => hww (hcell w' stage hu)) fun hn => hww (hnow w' stage hn)
  · rw [update_of_ne hww, update_of_ne hrr]
    exact h w' r' stage

theorem Matched.take (hw : grip w = none) {x : X} (hr : use r = .other x) (stage : Stage) :
    Matched (update grip w (some (r, stage))) (update use r (.held w stage)) := by
  apply h.write <;> simp +contextual [hw, hr, eq_comm]

omit [DecidableEq R] in
theorem Matched.stay (hw : grip w = some (r, stage)) :
    Matched (update grip w (some (r, stage))) use := by
  rw [← hw, update_eq_self]
  exact h

theorem Matched.move (hw : grip w = some (r, stage)) (stage' : Stage) :
    Matched (update grip w (some (r, stage'))) (update use r (.held w stage')) := by
  have hr := (h w r stage).mp hw
  apply h.write <;> simp +contextual [hw, hr]

theorem Matched.give (hw : grip w = some (r, stage)) (x : X) :
    Matched (update grip w none) (update use r (.other x)) := by
  have hr := (h w r stage).mp hw
  apply h.write <;> simp +contextual [hw, hr]

end Writes

end Parties
