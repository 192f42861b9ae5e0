import Mathlib.Data.Fintype.Basic
import Mathlib.Data.Nat.ModEq

/-!
# Ring buffers

A bounded queue in a table that is used around: a head and a number of cells in use.

* `RingBuffer.push`, `RingBuffer.pop`: one cell more at the end, one less at the front;
* `RingBuffer.contents`: the cells in use, the oldest first.
-/

open Function

variable {α : Type*} {n : ℕ}

/-- `count` cells from `head` on are in use. -/
structure RingBuffer (α : Type*) (n : ℕ) where
  cells : Fin n → α
  head : Fin n
  count : ℕ
  count_le : count ≤ n

namespace RingBuffer

variable (r : RingBuffer α n) (a : α)

/-- The cell `k` places behind the head. -/
def place (k : ℕ) : Fin n := ⟨(r.head + k) % n, Nat.mod_lt _ r.head.pos⟩

def contents : List α := (List.range r.count).map fun k => r.cells (r.place k)

def push (room : r.count < n) : RingBuffer α n :=
  { r with cells := update r.cells (r.place r.count) a, count := r.count + 1, count_le := room }

def pop : RingBuffer α n where
  cells := update r.cells r.head a
  head := r.place 1
  count := r.count - 1
  count_le := (Nat.sub_le _ _).trans r.count_le

@[simp] theorem length_contents : r.contents.length = r.count := by simp [contents]

theorem place_zero : r.place 0 = r.head := Fin.ext (Nat.mod_eq_of_lt r.head.2)

/-- Places before a whole turn are different cells. -/
theorem place_inj {j k : ℕ} (hj : j < n) (hk : k < n) (h : r.place j = r.place k) : j = k := by
  have hmod : j ≡ k [MOD n] := Nat.ModEq.add_left_cancel' r.head (congrArg Fin.val h)
  rwa [Nat.ModEq, Nat.mod_eq_of_lt hj, Nat.mod_eq_of_lt hk] at hmod

/-- **Push.** The new element is the last one. -/
theorem contents_push (room : r.count < n) : (r.push a room).contents = r.contents ++ [a] := by
  have hold : ∀ k ∈ List.range r.count,
      update r.cells (r.place r.count) a (r.place k) = r.cells (r.place k) := by
    intro k hk
    have hlt : k < r.count := List.mem_range.mp hk
    refine update_of_ne (fun hc => ?_) _ _
    exact hlt.ne (r.place_inj (hlt.trans room) room hc)
  calc (r.push a room).contents
      = (List.range (r.count + 1)).map fun k =>
          update r.cells (r.place r.count) a (r.place k) := rfl
    _ = r.contents ++ [a] := by
        rw [List.range_succ, List.map_append, List.map_congr_left hold, List.map_singleton,
          update_self, contents]

/-- **Pop.** The front leaves, and the others stay in order. -/
theorem contents_pop (h : r.count ≠ 0) :
    r.contents = r.cells r.head :: (r.pop a).contents := by
  obtain ⟨m, hm⟩ := Nat.exists_eq_succ_of_ne_zero h
  have hle : m < n := by have := r.count_le; omega
  have hrest : ∀ k ∈ List.range m,
      r.cells (r.place (k + 1)) = (r.pop a).cells ((r.pop a).place k) := by
    intro k hk
    have hlt : k < m := List.mem_range.mp hk
    have hplace : (r.pop a).place k = r.place (k + 1) := by
      refine Fin.ext ?_
      simp only [place, pop, Nat.mod_add_mod]
      rw [Nat.add_assoc, Nat.add_comm 1 k]
    rw [hplace]
    refine (update_of_ne (fun hc => ?_) _ _).symm
    rw [← r.place_zero] at hc
    exact absurd (r.place_inj (by omega) (by omega) hc) (Nat.succ_ne_zero k)
  have hcount : (r.pop a).count = m := Nat.sub_eq_of_eq_add hm
  rw [contents, contents, hcount, hm, List.range_succ_eq_map, List.map_cons, place_zero,
    List.map_map]
  exact congrArg (r.cells r.head :: ·) (List.map_congr_left hrest)

end RingBuffer
