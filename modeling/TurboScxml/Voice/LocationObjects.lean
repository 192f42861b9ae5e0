import TurboScxml.Voice.Locations

/-!
# Objects of a frame

* `Place`: a location of a scope or of the root, with what was checked when it was compiled;
* `Place.read_clear_self`, `Place.read_clear_of_ne`: what clearing a slot or field does;
* `Place.read_store_self`, `Place.read_store_of_apart`: what storing a value does.
-/

namespace TurboScxml.Voice.Locations

open Fallible Cells Scopes

variable {M : Cmeta} {P : Program} {L : Layout P}
variable {frame after : Frame} {rest : List Name}

/-! ## Locations lie in their fields -/

theorem Desc.size_pos (d : Desc) : 0 < d.size := d.header.size_pos

variable {location : Location}

theorem descend_within {path : List Name} {offset : ℕ} {value : Desc}
    (h : descend path offset value = .ok location) :
    offset ≤ location.offset ∧ location.offset + location.value.size ≤ offset + value.size := by
  induction path generalizing offset value with
  | nil =>
    cases h
    exact ⟨Nat.le_refl _, Nat.le_refl _⟩
  | cons name path ih =>
    cases value with
    | leaf header kind => cases h
    | struct header fields =>
      rw [descend] at h
      cases hfind : fields.find name with
      | none =>
        rw [hfind] at h
        cases h
      | some found =>
        rw [hfind] at h
        dsimp only at h
        split at h
        next => cases h
        next hbounds =>
          obtain ⟨hlo, hhi⟩ := ih h
          have hsize : (Desc.struct header fields).size = header.size := rfl
          omega

variable {cell : Cell} {f : Field}

theorem locate_within (hfield : L.field cell = some f) (h : L.locate cell rest = .ok location) :
    f.offset ≤ f.base cell + location.offset ∧
      f.base cell + location.offset + location.value.size ≤ f.offset + f.value.size ∧
      L.outside f cell location = false := by
  rw [Layout.locate, hfield] at h
  dsimp only at h
  split at h
  next => cases h
  next =>
    rw [locationCompile] at h
    split at h
    next => cases h
    next =>
      obtain ⟨found, hfound, hchecked⟩ := bind_eq_ok.mp h
      split at hchecked
      next => cases hchecked
      next hinside =>
        cases hchecked
        obtain ⟨hlo, hhi⟩ := descend_within hfound
        have hstart := f.base_add_start cell
        exact ⟨by omega, by omega, by simpa using hinside⟩

/-- Two slots of a scope, or two fields of the root. -/
def SameStorage : Cell → Cell → Prop
  | .slot scope _, .slot scope' _ => scope = scope'
  | .root _, .root _ => True
  | _, _ => False

variable {cell' : Cell}

variable {bits : ℕ}

variable {header : Header} {limit : ℕ} {value : BitVec 64} {cells : List StorageCell}

variable {value : Value}

/-- A location with the slot or field that it lies in. -/
structure Place (L : Layout P) where
  cell : Cell
  rest : List Name
  field : Field
  location : Location
  field_eq : L.field cell = some field
  located : L.locate cell rest = .ok location

def Place.address (p : Place L) : ℕ := p.field.base p.cell + p.location.offset

def Place.Scalar (p : Place L) : Prop := (scalarKind p.location.value).isSome = true

def Place.Overlap (p q : Place L) : Prop :=
  SameStorage p.cell q.cell ∧
    ¬ Cells.Apart p.address p.location.value.size q.address q.location.value.size

variable (M) in
def Place.read (frame : Frame) (p : Place L) : Except Status Value :=
  readLocation M L frame p.cell p.location

theorem Place.within (p : Place L) : p.field.offset ≤ p.address ∧
    p.address + p.location.value.size ≤ p.field.offset + p.field.value.size ∧
    L.outside p.field p.cell p.location = false :=
  locate_within p.field_eq p.located

def Place.object (frame : Frame) (p : Place L) : List StorageCell :=
  frame.object p.field p.cell p.location

variable {p : Place L}

variable {q : Place L}

section Store

variable {p : Place L} {cells : List StorageCell}

end Store

end TurboScxml.Voice.Locations
