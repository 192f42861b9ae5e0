import Mathlib.Data.List.Basic

/-!
# Texts that are copied to the start of one buffer

A buffer is written at its start again and again, and a reader still looks at the place where an
older text stood.

* `overlay`, `overlays`: the buffer after one write and after several;
* `Survives`: no position of a text is overwritten by another symbol;
* `take_overlays_iff`: the reader finds the older text exactly when it survives.
-/

namespace Overlay

variable {α : Type}

def overlay (text buffer : List α) : List α := text ++ buffer.drop text.length

variable (buffer : List α)

/-- The buffer after several texts, the oldest first. -/
def overlays (texts : List (List α)) : List α :=
  texts.foldl (fun buffer text => overlay text buffer) buffer

@[simp]
theorem overlays_cons (buffer text : List α) (texts : List (List α)) :
    overlays buffer (text :: texts) = overlays (overlay text buffer) texts := rfl

theorem overlays_append (texts more : List (List α)) :
    overlays buffer (texts ++ more) = overlays (overlays buffer texts) more :=
  List.foldl_append

def lastCover (k : ℕ) : List (List α) → Option α
  | [] => none
  | text :: rest => (lastCover k rest).or text[k]?

/-- No position is overwritten by another symbol. -/
def Survives (text : List α) (later : List (List α)) : Prop :=
  ∀ k < text.length, ∀ a ∈ lastCover k later, text[k]? = some a

instance [DecidableEq α] (text : List α) (later : List (List α)) :
    Decidable (Survives text later) :=
  inferInstanceAs (Decidable (∀ k < text.length, ∀ a ∈ lastCover k later, text[k]? = some a))

@[simp]
theorem survives_nil (text : List α) : Survives text [] := by
  intro k _ a ha
  simp [lastCover] at ha

theorem getElem?_overlay (text buffer : List α) (k : ℕ) :
    (overlay text buffer)[k]? = text[k]?.or buffer[k]? := by
  rw [overlay]
  by_cases hk : k < text.length
  · rw [List.getElem?_append_left hk, List.getElem?_eq_getElem hk, Option.some_or]
  · have hle : text.length ≤ k := by omega
    rw [List.getElem?_append_right hle, List.getElem?_drop, List.getElem?_eq_none hle,
      Option.none_or]
    congr 1
    omega

theorem getElem?_overlays (texts : List (List α)) (k : ℕ) :
    (overlays buffer texts)[k]? = (lastCover k texts).or buffer[k]? := by
  induction texts generalizing buffer with
  | nil => rfl
  | cons text rest ih => rw [overlays_cons, ih, getElem?_overlay, lastCover, Option.or_assoc]

theorem length_overlay {text buffer : List α} (h : text.length ≤ buffer.length) :
    (overlay text buffer).length = buffer.length := by
  rw [overlay, List.length_append, List.length_drop]
  omega

theorem take_overlays_iff {text buffer : List α} (h : buffer.take text.length = text)
    (later : List (List α)) :
    (overlays buffer later).take text.length = text ↔ Survives text later := by
  have hbuffer : ∀ k < text.length, buffer[k]? = text[k]? := by
    intro k hk
    rw [← List.getElem?_take_of_lt hk, h]
  constructor
  · intro htake k hk a ha
    rw [← htake, List.getElem?_take_of_lt hk, getElem?_overlays, Option.mem_def.mp ha,
      Option.some_or]
  · intro hsurvives
    refine List.ext_getElem? fun k => ?_
    by_cases hk : k < text.length
    · rw [List.getElem?_take_of_lt hk, getElem?_overlays]
      cases hcover : lastCover k later with
      | none => rw [Option.none_or, hbuffer k hk]
      | some a => rw [Option.some_or, hsurvives k hk a hcover]
    · have hle : text.length ≤ k := by omega
      rw [List.getElem?_eq_none hle, List.getElem?_eq_none]
      rw [List.length_take]
      omega

end Overlay
