import Mathlib.Data.Finset.Card
import Mathlib.Data.Nat.Notation

/-!
# Orbits of partial functions

The values that a partial function takes from a start, one after another, until it stops.

* `orbit`: the value behind `n` steps, if there is one;
* `Repeats`: the orbit comes back to a value;
* **`repeats_iff`**: in a finite set an orbit comes back exactly if it has more values than the set.
-/

namespace TurboScxml.Orbits

variable {α : Type*} {next : α → Option α} {a : α}

/-- The value behind `n` steps. -/
def orbit (next : α → Option α) (a : α) : ℕ → Option α
  | 0 => some a
  | n + 1 => (orbit next a n).bind next

def Repeats (next : α → Option α) (a : α) : Prop :=
  ∃ m n x, m < n ∧ orbit next a m = some x ∧ orbit next a n = some x

theorem orbit_add (next : α → Option α) (a : α) (m n : ℕ) :
    orbit next a (m + n) = (orbit next a m).bind fun x => orbit next x n := by
  induction n with
  | zero =>
    cases orbit next a m <;> rfl
  | succ n ih =>
    rw [← Nat.add_assoc, orbit, ih, Option.bind_assoc]
    rfl

theorem isSome_orbit_of_le {m n : ℕ} (h : (orbit next a n).isSome) (hle : m ≤ n) :
    (orbit next a m).isSome := by
  obtain ⟨k, rfl⟩ := Nat.exists_eq_add_of_le hle
  rw [orbit_add] at h
  cases hm : orbit next a m with
  | none =>
    rw [hm] at h
    cases h
  | some x => rfl

theorem Repeats.isSome (h : Repeats next a) (k : ℕ) : (orbit next a k).isSome := by
  obtain ⟨m, n, x, hlt, hm, hn⟩ := h
  have hperiod : orbit next x (n - m) = some x := by
    rw [show n = m + (n - m) by omega, orbit_add, hm] at hn
    exact hn
  have hperiods : ∀ j, orbit next x ((n - m) * j) = some x := by
    intro j
    induction j with
    | zero => rfl
    | succ j ih =>
      rw [Nat.mul_succ, orbit_add, ih]
      exact hperiod
  have hfar : (orbit next a (m + (n - m) * k)).isSome := by
    rw [orbit_add, hm, Option.bind_some, hperiods k]
    rfl
  refine isSome_orbit_of_le hfar ?_
  have hle : 1 * k ≤ (n - m) * k := Nat.mul_le_mul_right k (by omega)
  omega

theorem repeats_of_isSome {S : Finset α} (hmem : ∀ k x, orbit next a k = some x → x ∈ S)
    (h : (orbit next a S.card).isSome) : Repeats next a := by
  have hvalue : ∀ k ∈ Finset.range (S.card + 1), ∃ x, orbit next a k = some x := by
    intro k hk
    exact Option.isSome_iff_exists.mp
      (isSome_orbit_of_le h (Nat.le_of_lt_succ (Finset.mem_range.mp hk)))
  have hmaps : ∀ k ∈ Finset.range (S.card + 1),
      (orbit next a k) ∈ S.map Function.Embedding.some := by
    intro k hk
    obtain ⟨x, hx⟩ := hvalue k hk
    rw [hx, Finset.mem_map]
    exact ⟨x, hmem k x hx, rfl⟩
  obtain ⟨i, hi, j, -, hne, heq⟩ := Finset.exists_ne_map_eq_of_card_lt_of_maps_to
    (by rw [Finset.card_map, Finset.card_range]; exact Nat.lt_succ_self _) hmaps
  obtain ⟨x, hx⟩ := hvalue i hi
  rcases Nat.lt_or_gt_of_ne hne with hlt | hlt
  · exact ⟨i, j, x, hlt, hx, heq.symm.trans hx⟩
  · exact ⟨j, i, x, hlt, heq.symm.trans hx, hx⟩

/-- **An orbit in a finite set comes back exactly if it has more values than the set.** -/
theorem repeats_iff {S : Finset α} (hmem : ∀ k x, orbit next a k = some x → x ∈ S) :
    Repeats next a ↔ (orbit next a S.card).isSome :=
  ⟨fun h => h.isSome S.card, repeats_of_isSome hmem⟩

theorem exists_last {n : ℕ} (h : (orbit next a n).isSome = false) :
    ∃ m x, m < n ∧ orbit next a m = some x ∧ next x = none := by
  induction n with
  | zero => cases h
  | succ n ih =>
    cases hn : orbit next a n with
    | none =>
      obtain ⟨m, x, hlt, hm, hx⟩ := ih (by rw [hn]; rfl)
      exact ⟨m, x, Nat.lt_succ_of_lt hlt, hm, hx⟩
    | some x =>
      rw [orbit, hn, Option.bind_some, Option.isSome_eq_false_iff, Option.isNone_iff_eq_none] at h
      exact ⟨n, x, Nat.lt_succ_self n, hn, h⟩

end TurboScxml.Orbits
