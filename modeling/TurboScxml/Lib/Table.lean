import Mathlib.Algebra.BigOperators.Fin
import Mathlib.Algebra.Order.BigOperators.Group.Finset
import Mathlib.Algebra.BigOperators.Ring.Finset
import Mathlib.Data.List.FinRange

/-!
# Fixed tables of slots

A table is a function on `Fin n`. A program that keeps a table also keeps counters of its slots in
some state and scans it in index order.

* `total`, `tally`: the weight of all slots and the number of slots with a property, and what one
  write does to them (`total_update`, `tally_update`);
* `sweep`: a loop over all slots in index order, with its invariant rule (`sweep_induction`) and
  the rule for two loops (`sweep_rel`);
* `bestSlot`: the loop that keeps the first best candidate (`bestSlot_eligible`, `bestSlot_best`).
-/

namespace Slots

open Function

variable {n : ℕ} {α S : Type*}

/-! ## Counting slots -/

/-- The sum of the weights of the slots of `t`. -/
def total (w : α → ℕ) (t : Fin n → α) : ℕ := ∑ i, w (t i)

/-- **One write.** The total without the slot stays. -/
theorem total_update (w : α → ℕ) (t : Fin n → α) (i : Fin n) (a : α) :
    total w (update t i a) + w (t i) = total w t + w a := by
  have hrest : ∑ j ∈ Finset.univ.erase i, w (update t i a j)
      = ∑ j ∈ Finset.univ.erase i, w (t j) :=
    Finset.sum_congr rfl fun j hj => by rw [update_of_ne (Finset.ne_of_mem_erase hj)]
  have hnew := Finset.add_sum_erase Finset.univ (fun j => w (update t i a j))
    (Finset.mem_univ i)
  have hold := Finset.add_sum_erase Finset.univ (fun j => w (t j)) (Finset.mem_univ i)
  simp only [update_self] at hnew
  simp only [total]
  omega

variable {t u : Fin n → α}

theorem total_congr {v w : α → ℕ} (h : ∀ i, v (t i) = w (u i)) : total v t = total w u :=
  Finset.sum_congr rfl fun i _ => h i

theorem total_mono {v w : α → ℕ} (h : ∀ i, v (t i) ≤ w (u i)) : total v t ≤ total w u :=
  Finset.sum_le_sum fun i _ => h i

theorem le_total (w : α → ℕ) (t : Fin n → α) (i : Fin n) : w (t i) ≤ total w t :=
  Finset.single_le_sum (f := fun j => w (t j)) (fun _ _ => Nat.zero_le _) (Finset.mem_univ i)

/-- The number of slots with property `p`. -/
def tally (p : α → Bool) (t : Fin n → α) : ℕ := ∑ i, (p (t i)).toNat

theorem tally_update (p : α → Bool) (t : Fin n → α) (i : Fin n) (a : α) :
    tally p (update t i a) + (p (t i)).toNat = tally p t + (p a).toNat :=
  total_update (fun a => (p a).toNat) t i a

variable {p : α → Bool}

theorem tally_congr {q : α → Bool} (h : ∀ i, p (t i) = q (u i)) : tally p t = tally q u :=
  Finset.sum_congr rfl fun i _ => by rw [h i]

theorem tally_le (p : α → Bool) (t : Fin n → α) : tally p t ≤ n := by
  calc tally p t ≤ ∑ _i : Fin n, 1 := Finset.sum_le_sum fun i _ => Bool.toNat_le (p (t i))
    _ = n := by simp

variable {i : Fin n}

theorem tally_pos (h : p (t i) = true) : 0 < tally p t := by
  have := Finset.single_le_sum (f := fun j => (p (t j)).toNat) (fun _ _ => Nat.zero_le _)
    (Finset.mem_univ i)
  simp only [h, Bool.toNat_true] at this
  exact this

theorem tally_eq_zero (h : ∀ i, p (t i) = false) : tally p t = 0 :=
  Finset.sum_eq_zero fun i _ => by rw [h i]; rfl

theorem eq_false_of_tally_eq_zero (h : tally p t = 0) (i : Fin n) : p (t i) = false := by
  by_contra hi
  have := tally_pos (Bool.eq_true_of_not_eq_false hi)
  omega

theorem exists_of_tally_lt (h : tally p t < n) : ∃ i, p (t i) = false := by
  by_contra hall
  push Not at hall
  have hfull : tally p t = ∑ _i : Fin n, 1 :=
    Finset.sum_congr rfl fun i _ => by rw [Bool.eq_true_of_not_eq_false (hall i)]; rfl
  simp at hfull
  omega

/-! ## Loops over the slots -/

/-- The loop `for (i = 0; i < n; ++i) s = f(s, i)`. -/
def sweep (f : S → Fin n → S) (s : S) : S := Fin.foldl n f s

/-- **The invariant rule of a loop over the slots.** -/
theorem sweep_induction (P : ℕ → S → Prop) {f : S → Fin n → S} {s : S} (h0 : P 0 s)
    (hstep : ∀ (i : Fin n) s, P i s → P (i + 1) (f s i)) : P n (sweep f s) := by
  induction n generalizing s P with
  | zero => simpa [sweep] using h0
  | succ n ih =>
    rw [sweep, Fin.foldl_succ]
    exact ih (fun k => P (k + 1)) (hstep 0 s h0) fun i s h => hstep i.succ s (by simpa using h)

/-- **Two loops** that keep their states related. -/
theorem sweep_rel {T : Type*} (R : S → T → Prop) {f : S → Fin n → S} {g : T → Fin n → T} {s : S}
    {t : T} (h : R s t) (hstep : ∀ i s t, R s t → R (f s i) (g t i)) :
    R (sweep f s) (sweep g t) := by
  induction n generalizing s t with
  | zero => simpa [sweep] using h
  | succ n ih =>
    simp only [sweep, Fin.foldl_succ]
    exact ih (hstep 0 s t h) fun i => hstep i.succ

def bestSlot (eligible : Fin n → Bool) (better : Fin n → Fin n → Bool) : Option (Fin n) :=
  sweep (fun best i =>
    if eligible i && best.all (better i) then some i else best) none

variable {eligible : Fin n → Bool} {better : Fin n → Fin n → Bool}

theorem bestSlot_eligible (h : bestSlot eligible better = some i) : eligible i = true := by
  have hinv := sweep_induction (n := n) (s := none)
    (f := fun best i => if eligible i && best.all (better i) then some i else best)
    (fun _ best => ∀ j, best = some j → eligible j = true) (by simp)
    fun k best ih j hj => by
      split_ifs at hj with hk
      · simp only [Option.some.injEq] at hj
        simp_all
      · exact ih j hj
  exact hinv i h

theorem bestSlot_eq_none (h : bestSlot eligible better = none) (i : Fin n) :
    eligible i = false := by
  have hinv := sweep_induction (n := n) (s := none)
    (f := fun best i => if eligible i && best.all (better i) then some i else best)
    (fun k best => best = none → ∀ j : Fin n, (j : ℕ) < k → eligible j = false) (by simp)
    fun k best ih hnone j hj => by
      split_ifs at hnone with hk
      subst hnone
      rcases Nat.lt_succ_iff_lt_or_eq.mp hj with hlt | heq
      · exact ih rfl j hlt
      · obtain rfl : j = k := Fin.ext heq
        simpa using hk
  exact hinv h i i.2

/-- **No eligible slot is better.** -/
theorem bestSlot_best (hirrefl : ∀ i, better i i = false)
    (htrans : ∀ i j k, better i j = true → better j k = true → better i k = true)
    (h : bestSlot eligible better = some i) (j : Fin n) (hj : eligible j = true) :
    better j i = false := by
  have hinv := sweep_induction (n := n) (s := none)
    (f := fun best i => if eligible i && best.all (better i) then some i else best)
    (fun k best => ∀ j : Fin n, (j : ℕ) < k → eligible j = true →
      ∃ b, best = some b ∧ better j b = false) (by simp)
    fun k best ih j hj hel => by
      rcases Nat.lt_succ_iff_lt_or_eq.mp hj with hlt | heq
      · obtain ⟨b, hbest, hjb⟩ := ih j hlt hel
        split
        · rename_i hreplaced
          refine ⟨k, rfl, Bool.eq_false_of_not_eq_true fun hc => ?_⟩
          simp only [hbest, Option.all_some, Bool.and_eq_true] at hreplaced
          rw [htrans j k b hc hreplaced.2] at hjb
          cases hjb
        · exact ⟨b, hbest, hjb⟩
      · obtain rfl : j = k := Fin.ext heq
        split
        · exact ⟨j, rfl, hirrefl j⟩
        · rename_i hkept
          rw [hel, Bool.true_and] at hkept
          cases best with
          | none => exact absurd rfl hkept
          | some b => exact ⟨b, rfl, by simpa using hkept⟩
  obtain ⟨b, hbest, hjb⟩ := hinv j j.2 hj
  have hsame : bestSlot eligible better = some b := hbest
  rw [h] at hsame
  cases hsame
  exact hjb

end Slots
