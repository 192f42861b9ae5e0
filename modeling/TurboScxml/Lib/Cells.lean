import Mathlib.Data.List.Basic
import Mathlib.Algebra.Group.Nat.Defs

/-!
# Stretches of a memory

A memory gives a cell to each address, and an object is a stretch of cells.

* `read`, `write`, `fill`: the cells of a stretch, and a memory after they change;
* `Apart`: two stretches without a common address;
* `encode`, `decode`: numbers as base-256 digits, the lowest first.
-/

namespace Cells

variable {α : Type}

abbrev Memory (α : Type) := ℕ → α

def read (m : Memory α) (start size : ℕ) : List α := (List.range size).map fun i => m (start + i)

def write (m : Memory α) (start : ℕ) (cells : List α) : Memory α := fun i =>
  if start ≤ i then (cells[i - start]?).getD (m i) else m i

def fill (m : Memory α) (start size : ℕ) (a : α) : Memory α := fun i =>
  if start ≤ i ∧ i < start + size then a else m i

def Apart (start size start' size' : ℕ) : Prop := start + size ≤ start' ∨ start' + size' ≤ start

instance (start size start' size' : ℕ) : Decidable (Apart start size start' size') :=
  inferInstanceAs (Decidable (_ ∨ _))

variable {start size start' size' : ℕ}

theorem Apart.symm (h : Apart start size start' size') :
    Apart start' size' start size := Or.symm h

variable {m : Memory α}

variable {i : ℕ} {cells : List α}

variable {a : α}

/-- The lowest base-256 digits, the lowest first. -/
def encode : ℕ → ℕ → List ℕ
  | 0, _ => []
  | n + 1, v => v % 256 :: encode n (v / 256)

def decode : List ℕ → ℕ
  | [] => 0
  | digit :: digits => digit + 256 * decode digits

theorem decode_encode {n v : ℕ} (h : v < 256 ^ n) : decode (encode n v) = v := by
  induction n generalizing v with
  | zero =>
    have hzero : v = 0 := by simpa using h
    rw [hzero]
    rfl
  | succ n ih =>
    have hdiv : v / 256 < 256 ^ n := by omega
    rw [encode, decode, ih hdiv]
    omega

end Cells
