import Mathlib.Logic.Function.Basic
import TurboScxml.Lib.Cells

/-!
# Lifetimes of the objects in a storage

* `Event`, `Replays`: what happens to the objects of a storage, and the logs in which an object is
  constructed only apart from the live ones and destroyed only while it lives;
* `Storage.Sound`: the log is such a log, and the live objects end below a bound;
* `fillFrom`, `clearFrom`: a row of objects is constructed and destroyed, and
  `Sound.clearFrom_fillFrom`: afterwards the storage holds what it held before.
-/

namespace Lifetimes

open Cells

inductive Event
  | construct (start size : ℕ)
  | destroy (start size : ℕ)
deriving DecidableEq

/-- A log leads from live objects to live objects. -/
inductive Replays : (ℕ → Option ℕ) → List Event → (ℕ → Option ℕ) → Prop
  | nil (live : ℕ → Option ℕ) : Replays live [] live
  | construct {live live' : ℕ → Option ℕ} {log : List Event} {start size : ℕ} (hsize : 0 < size)
      (hapart : ∀ start' size', live start' = some size' → Apart start size start' size')
      (h : Replays (Function.update live start (some size)) log live') :
      Replays live (.construct start size :: log) live'
  | destroy {live live' : ℕ → Option ℕ} {log : List Event} {start size : ℕ}
      (hlive : live start = some size)
      (h : Replays (Function.update live start none) log live') :
      Replays live (.destroy start size :: log) live'

theorem Replays.append {live live' live'' : ℕ → Option ℕ} {log log' : List Event}
    (h : Replays live log live') (h' : Replays live' log' live'') :
    Replays live (log ++ log') live'' := by
  induction h with
  | nil => exact h'
  | construct hsize hapart _ ih => exact .construct hsize hapart (ih h')
  | destroy hlive _ ih => exact .destroy hlive (ih h')

variable {α : Type}

/-- The live objects by their addresses, and what happened. -/
structure Storage (α : Type) where
  cells : ℕ → Option (ℕ × α)
  log : List Event

namespace Storage

def empty : Storage α := ⟨fun _ => none, []⟩

variable (s : Storage α)

def construct (start size : ℕ) (a : α) : Storage α where
  cells := Function.update s.cells start (some (size, a))
  log := s.log ++ [.construct start size]

def destroy (start size : ℕ) : Storage α where
  cells := Function.update s.cells start none
  log := s.log ++ [.destroy start size]

def load (start : ℕ) : Option α := (s.cells start).map Prod.snd

def live : ℕ → Option ℕ := fun start => (s.cells start).map Prod.fst

@[simp]
theorem cells_construct (start size : ℕ) (a : α) :
    (s.construct start size a).cells = Function.update s.cells start (some (size, a)) := rfl

@[simp]
theorem cells_destroy (start size : ℕ) :
    (s.destroy start size).cells = Function.update s.cells start none := rfl

theorem live_construct (start size : ℕ) (a : α) :
    (s.construct start size a).live = Function.update s.live start (some size) := by
  funext i
  by_cases hi : i = start
  · subst hi
    simp [live]
  · simp [live, hi]

theorem live_destroy (start size : ℕ) :
    (s.destroy start size).live = Function.update s.live start none := by
  funext i
  by_cases hi : i = start
  · subst hi
    simp [live]
  · simp [live, hi]

/-- The log is in order and the objects end at the bound. -/
structure Sound (s : Storage α) (bound : ℕ) : Prop where
  replays : Replays (fun _ => none) s.log s.live
  within : ∀ start size a, s.cells start = some (size, a) → 0 < size ∧ start + size ≤ bound

theorem sound_empty (bound : ℕ) : (empty : Storage α).Sound bound where
  replays := .nil _
  within := by
    intro start size a h
    cases h

variable {s : Storage α} {bound bound' : ℕ} (h : s.Sound bound)
include h

theorem Sound.mono (hle : bound ≤ bound') : s.Sound bound' where
  replays := h.replays
  within start size a hcell :=
    ⟨(h.within start size a hcell).1, Nat.le_trans (h.within start size a hcell).2 hle⟩

variable {s' : Storage α}

theorem Sound.of_cells (h' : s'.Sound bound') (hcells : s'.cells = s.cells) : s'.Sound bound where
  replays := h'.replays
  within start size a hcell := h.within start size a (hcells ▸ hcell)

variable {start : ℕ}

theorem Sound.cells_of_le (hle : bound ≤ start) : s.cells start = none := by
  cases hcell : s.cells start with
  | none => rfl
  | some o =>
    have hwithin := h.within start o.1 o.2 hcell
    omega

theorem Sound.construct {size : ℕ} (hle : bound ≤ start) (hsize : 0 < size) (a : α) :
    (s.construct start size a).Sound (start + size) where
  replays := by
    rw [live_construct]
    refine h.replays.append (.construct hsize ?_ (.nil _))
    intro start' size' hlive
    obtain ⟨o, hcell, rfl⟩ := Option.map_eq_some_iff.mp hlive
    have hwithin := h.within start' o.1 o.2 hcell
    exact Or.inr (by omega)
  within := by
    intro start' size' a' hcell
    by_cases hstart : start' = start
    · subst hstart
      rw [cells_construct, Function.update_self] at hcell
      cases hcell
      exact ⟨hsize, Nat.le_refl _⟩
    · rw [cells_construct, Function.update_of_ne hstart] at hcell
      have hwithin := h.within start' size' a' hcell
      omega

variable {a : α}

theorem Sound.destroy {size : ℕ} (hcell : s.cells start = some (size, a)) :
    (s.destroy start size).Sound bound where
  replays := by
    rw [live_destroy]
    refine h.replays.append (.destroy ?_ (.nil _))
    rw [live, hcell]
    rfl
  within := by
    intro start' size' a' hcell'
    by_cases hstart : start' = start
    · subst hstart
      rw [cells_destroy, Function.update_self] at hcell'
      cases hcell'
    · rw [cells_destroy, Function.update_of_ne hstart] at hcell'
      exact h.within start' size' a' hcell'

theorem Sound.destroy_construct {size : ℕ} (hsize : 0 < size) (a : α) :
    ((s.construct bound size a).destroy bound size).cells = s.cells ∧
      ((s.construct bound size a).destroy bound size).Sound bound := by
  have hcells : ((s.construct bound size a).destroy bound size).cells = s.cells := by
    funext start
    by_cases hstart : start = bound
    · subst hstart
      rw [cells_destroy, Function.update_self, h.cells_of_le (Nat.le_refl _)]
    · rw [cells_destroy, cells_construct, Function.update_of_ne hstart,
        Function.update_of_ne hstart]
  have hlive : (s.construct bound size a).cells bound = some (size, a) := by
    rw [cells_construct, Function.update_self]
  exact ⟨hcells, h.of_cells ((h.construct (Nat.le_refl _) hsize a).destroy hlive) hcells⟩

omit h

/-! ## Rows of objects -/

variable {base stride size : ℕ}

def fillFrom (s : Storage α) (base stride size : ℕ) : ℕ → List α → Storage α
  | _, [] => s
  | i, a :: as => (s.construct (base + i * stride) size a).fillFrom base stride size (i + 1) as

def clearFrom (s : Storage α) (base stride size : ℕ) : ℕ → ℕ → Storage α
  | _, 0 => s
  | i, n + 1 => (s.destroy (base + i * stride) size).clearFrom base stride size (i + 1) n

variable {i j : ℕ}

theorem start_lt_start (base : ℕ) (hstride : 0 < stride) (h : i < j) :
    base + i * stride < base + j * stride :=
  Nat.add_lt_add_left (Nat.mul_lt_mul_of_pos_right h hstride) base

theorem cells_fillFrom_of_lt (hstride : 0 < stride) (s : Storage α) (i : ℕ) (as : List α)
    (h : start < base + i * stride) :
    (s.fillFrom base stride size i as).cells start = s.cells start := by
  induction as generalizing s i with
  | nil => rfl
  | cons a as ih =>
    have hnext := start_lt_start base hstride (Nat.lt_add_one i)
    rw [fillFrom, ih _ _ (Nat.lt_trans h hnext), cells_construct,
      Function.update_of_ne (Nat.ne_of_lt h)]

theorem cells_fillFrom_congr {t : Storage α} (h : s.cells start = t.cells start) (i : ℕ)
    (as : List α) :
    (s.fillFrom base stride size i as).cells start =
      (t.fillFrom base stride size i as).cells start := by
  induction as generalizing s t i with
  | nil => exact h
  | cons a as ih =>
    refine ih ?_ (i + 1)
    rw [cells_construct, cells_construct]
    by_cases hstart : start = base + i * stride
    · subst hstart
      rw [Function.update_self, Function.update_self]
    · rw [Function.update_of_ne hstart, Function.update_of_ne hstart, h]

variable {as : List α}

theorem cells_fillFrom (hstride : 0 < stride) (s : Storage α) (i : ℕ) (h : as[j]? = some a) :
    (s.fillFrom base stride size i as).cells (base + (i + j) * stride) = some (size, a) := by
  induction as generalizing s i j with
  | nil => cases h
  | cons b as ih =>
    cases j with
    | zero =>
      cases h
      have hnext := start_lt_start base hstride (Nat.lt_add_one i)
      change ((s.construct (base + i * stride) size a).fillFrom base stride size (i + 1) as).cells
        (base + i * stride) = _
      rw [cells_fillFrom_of_lt hstride _ _ _ hnext, cells_construct, Function.update_self]
    | succ j =>
      have hindex : i + (j + 1) = i + 1 + j := by omega
      rw [hindex]
      exact ih _ _ h

theorem Sound.fillFrom (hsize : 0 < size) (hle : size ≤ stride) (h : s.Sound (base + i * stride))
    (as : List α) :
    (s.fillFrom base stride size i as).Sound (base + (i + as.length) * stride) := by
  induction as generalizing s i with
  | nil => exact h
  | cons a as ih =>
    have hnext : (s.construct (base + i * stride) size a).Sound (base + (i + 1) * stride) := by
      refine (h.construct (Nat.le_refl _) hsize a).mono ?_
      rw [Nat.succ_mul]
      omega
    have hindex : i + (a :: as).length = i + 1 + as.length := by
      rw [List.length_cons]
      omega
    rw [hindex]
    exact ih hnext

/-- Destroying a row that was filled gives back the cells. -/
theorem Sound.clearFrom_fillFrom (hsize : 0 < size) (hle : size ≤ stride)
    (h : s.Sound (base + i * stride)) (h' : s'.Sound bound)
    (hcells : s'.cells = (s.fillFrom base stride size i as).cells) :
    (s'.clearFrom base stride size i as.length).cells = s.cells ∧
      (s'.clearFrom base stride size i as.length).Sound bound := by
  have hstride : 0 < stride := Nat.lt_of_lt_of_le hsize hle
  induction as generalizing s s' i with
  | nil => exact ⟨hcells, h'⟩
  | cons a as ih =>
    -- the first object of the row is destroyed; what is left is a row over the old storage
    have hfirst : s'.cells (base + i * stride) = some (size, a) := by
      rw [hcells]
      exact cells_fillFrom (j := 0) hstride s i (show (a :: as)[0]? = some a from rfl)
    have hlt := start_lt_start base hstride (Nat.lt_add_one i)
    have hsound : s.Sound (base + (i + 1) * stride) := h.mono (Nat.le_of_lt hlt)
    refine ih hsound (h'.destroy hfirst) ?_
    funext start
    by_cases hstart : start = base + i * stride
    · subst hstart
      rw [cells_destroy, Function.update_self, cells_fillFrom_of_lt hstride _ _ _ hlt,
        h.cells_of_le (Nat.le_refl _)]
    · rw [cells_destroy, Function.update_of_ne hstart, hcells, Storage.fillFrom]
      refine cells_fillFrom_congr ?_ _ _
      rw [cells_construct, Function.update_of_ne hstart]

end Storage

end Lifetimes
