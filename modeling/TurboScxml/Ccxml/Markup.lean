import Mathlib.Data.List.Basic
import Mathlib.Tactic.SplitIfs
import TurboScxml.Basic

/-!
# Attribute values of CCXML documents

* `entityAt`: what an ampersand stands for, with `append_utf8_codepoint` for the references;
* `decodeAttributeEntities`: `scxml_xml_decode_attribute_entities`, with or without an output;
* **`length_decode`**, **`decode_in_place`**: a value fits where its source was.
-/

namespace TurboScxml.Ccxml

namespace Compiler

/-! ## Entities -/

/-- `scxml_xml_decode_status`, without success. -/
inductive DecodeStatus
  | invalidArgument | capacityExceeded | invalidCharacterReference | unsupportedEntity
  deriving DecidableEq

def utf8Bytes (codepoint : ℕ) : Option Text :=
  if codepoint = 0 ∨ 0x10ffff < codepoint ∨ (0xd800 ≤ codepoint ∧ codepoint ≤ 0xdfff) then none
  else if codepoint ≤ 0x7f then some [Char.ofNat codepoint]
  else if codepoint ≤ 0x7ff then
    some [Char.ofNat (0xc0 ||| codepoint >>> 6), Char.ofNat (0x80 ||| (codepoint &&& 0x3f))]
  else if codepoint ≤ 0xffff then
    some [Char.ofNat (0xe0 ||| codepoint >>> 12),
      Char.ofNat (0x80 ||| ((codepoint >>> 6) &&& 0x3f)),
      Char.ofNat (0x80 ||| (codepoint &&& 0x3f))]
  else
    some [Char.ofNat (0xf0 ||| codepoint >>> 18),
      Char.ofNat (0x80 ||| ((codepoint >>> 12) &&& 0x3f)),
      Char.ofNat (0x80 ||| ((codepoint >>> 6) &&& 0x3f)),
      Char.ofNat (0x80 ||| (codepoint &&& 0x3f))]

def digitValue (hexadecimal : Bool) (c : Char) : Option ℕ :=
  if c.isDigit then some (c.toNat - '0'.toNat)
  else if hexadecimal = true ∧ 'a' ≤ c ∧ c ≤ 'f' then some (10 + (c.toNat - 'a'.toNat))
  else if hexadecimal = true ∧ 'A' ≤ c ∧ c ≤ 'F' then some (10 + (c.toNat - 'A'.toNat))
  else none

def digitBase (hexadecimal : Bool) : ℕ := if hexadecimal = true then 16 else 10

def scanDigits (hexadecimal : Bool) : ℕ → Bool → ℕ → Text → ℕ × Bool × ℕ
  | codepoint, hasDigit, count, [] => (codepoint, hasDigit, count)
  | codepoint, hasDigit, count, c :: rest =>
    if c = ';' then (codepoint, hasDigit, count)
    else
      match digitValue hexadecimal c with
      | none => (codepoint, hasDigit, count)
      | some digit =>
        if (0x10ffff - digit) / digitBase hexadecimal < codepoint then
          (codepoint, hasDigit, count)
        else
          scanDigits hexadecimal (codepoint * digitBase hexadecimal + digit) true (count + 1) rest

structure Entity where
  bytes : Text
  consumed : ℕ
  whenFull : DecodeStatus

def characterReference (hexadecimal : Bool) (start : ℕ) (input : Text) :
    Except DecodeStatus Entity :=
  let scanned := scanDigits hexadecimal 0 false 0 (input.drop start)
  if scanned.2.1 = false ∨ input[start + scanned.2.2]? ≠ some ';' then
    .error .invalidCharacterReference
  else
    match utf8Bytes scanned.1 with
    | none => .error .invalidCharacterReference
    | some bytes => .ok ⟨bytes, start + scanned.2.2 + 1, .invalidCharacterReference⟩

def entityAt (input : Text) : Except DecodeStatus Entity :=
  if "&lt;".toList.isPrefixOf input then .ok ⟨['<'], 4, .capacityExceeded⟩
  else if "&gt;".toList.isPrefixOf input then .ok ⟨['>'], 4, .capacityExceeded⟩
  else if "&amp;".toList.isPrefixOf input then .ok ⟨['&'], 5, .capacityExceeded⟩
  else if "&quot;".toList.isPrefixOf input then .ok ⟨['"'], 6, .capacityExceeded⟩
  else if "&apos;".toList.isPrefixOf input then .ok ⟨['\''], 6, .capacityExceeded⟩
  else if 4 ≤ input.length ∧ input[1]? = some '#' then
    if input[2]? = some 'x' ∨ input[2]? = some 'X' then characterReference true 3 input
    else characterReference false 2 input
  else .error .unsupportedEntity

def full (capacity : Option ℕ) (size more : ℕ) : Bool :=
  capacity.any fun capacity => decide (capacity < size + more)

@[simp]
theorem full_none (size more : ℕ) : full none size more = false := rfl

@[simp]
theorem full_some {capacity size more : ℕ} :
    full (some capacity) size more = false ↔ size + more ≤ capacity := by
  simp [full]

/-- The loop of `scxml_xml_decode_attribute_entities`. -/
def decodeFrom (capacity : Option ℕ) : ℕ → Text → Text → Except DecodeStatus Text
  | _, output, [] => .ok output
  | skip + 1, output, _ :: rest => decodeFrom capacity skip output rest
  | 0, output, c :: rest =>
    if c ≠ '&' then
      if full capacity output.length 1 = true then .error .capacityExceeded
      else decodeFrom capacity 0 (output ++ [c]) rest
    else
      match entityAt (c :: rest) with
      | .error status => .error status
      | .ok entity =>
        if full capacity output.length entity.bytes.length = true then .error entity.whenFull
        else decodeFrom capacity (entity.consumed - 1) (output ++ entity.bytes) rest

/-- `scxml_xml_decode_attribute_entities`; without a capacity it only measures. -/
def decodeAttributeEntities (capacity : Option ℕ) (input : Text) : Except DecodeStatus Text :=
  decodeFrom capacity 0 [] input

section Decoding

variable {capacity skip : ℕ} {input output decoded : Text} {entity : Entity}

theorem le_length_decodeFrom
    (h : decodeFrom none skip output input = .ok decoded) : output.length ≤ decoded.length := by
  induction input generalizing skip output with
  | nil =>
    cases h
    exact Nat.le_refl _
  | cons c rest ih =>
    cases skip with
    | succ skip => exact ih h
    | zero =>
      rw [decodeFrom] at h
      split_ifs at h with hplain hfull
      · have hle := ih h
        rw [List.length_append] at hle
        omega
      · cases hentity : entityAt (c :: rest) with
        | error status =>
          rw [hentity] at h
          cases h
        | ok entity =>
          rw [hentity] at h
          have hle := ih h
          rw [List.length_append] at hle
          omega

/-- **An output that is large enough does not change what is decoded.** -/
theorem decode_of_fits (h : decodeFrom none skip output input = .ok decoded)
    (hfits : decoded.length ≤ capacity) :
    decodeFrom (some capacity) skip output input = .ok decoded := by
  induction input generalizing skip output with
  | nil => exact h
  | cons c rest ih =>
    cases skip with
    | succ skip => exact ih h
    | zero =>
      rw [decodeFrom] at h ⊢
      by_cases hplain : c ≠ '&'
      · simp only [if_pos hplain, full_none, Bool.false_eq_true, if_false] at h
        have hle := le_length_decodeFrom h
        rw [List.length_append, List.length_singleton] at hle
        have hroom : full (some capacity) output.length 1 = false := full_some.mpr (by omega)
        rw [if_pos hplain, hroom]
        exact ih h
      · rw [if_neg hplain] at h ⊢
        cases hentity : entityAt (c :: rest) with
        | error status =>
          rw [hentity] at h
          cases h
        | ok entity =>
          simp only [hentity, full_none, Bool.false_eq_true, if_false] at h
          have hle := le_length_decodeFrom h
          rw [List.length_append] at hle
          have hroom : full (some capacity) output.length entity.bytes.length = false :=
            full_some.mpr (by omega)
          simp only [hroom, Bool.false_eq_true, if_false]
          exact ih h

theorem length_utf8Bytes {codepoint : ℕ} {bytes : Text} (h : utf8Bytes codepoint = some bytes) :
    bytes.length ≤ 4 := by
  unfold utf8Bytes at h
  split_ifs at h
  all_goals
    cases h
    simp

theorem scanDigits_count {hexadecimal hasDigit : Bool} {codepoint count : ℕ}
    (hcount : hasDigit = true → 0 < count) :
    (scanDigits hexadecimal codepoint hasDigit count input).2.1 = true →
      0 < (scanDigits hexadecimal codepoint hasDigit count input).2.2 := by
  induction input generalizing codepoint hasDigit count with
  | nil => exact hcount
  | cons c rest ih =>
    rw [scanDigits]
    split_ifs with hend
    · exact hcount
    cases hdigit : digitValue hexadecimal c with
    | none => exact hcount
    | some digit =>
      dsimp only
      split_ifs
      all_goals first | exact hcount | exact ih fun _ => Nat.succ_pos count

structure Entity.Sound (input : Text) (entity : Entity) : Prop where
  shrinks : entity.bytes.length ≤ entity.consumed
  within : entity.consumed ≤ input.length

theorem characterReference_sound {hexadecimal : Bool} {start : ℕ} (hstart : 2 ≤ start)
    (h : characterReference hexadecimal start input = .ok entity) : entity.Sound input := by
  unfold characterReference at h
  dsimp only at h
  split_ifs at h with hbad
  simp only [not_or, not_not, Bool.not_eq_false] at hbad
  obtain ⟨hlt, -⟩ := List.getElem?_eq_some_iff.mp hbad.2
  have hcount := scanDigits_count (fun hfalse => (by cases hfalse)) hbad.1
  split at h
  · cases h
  · next bytes hbytes =>
    cases h
    have hlength := length_utf8Bytes hbytes
    exact ⟨by dsimp only; omega, hlt⟩

theorem entityAt_sound (h : entityAt input = .ok entity) : entity.Sound input := by
  have hnamed : ∀ (name : Text) (c : Char) (n : ℕ), name.isPrefixOf input = true →
      name.length = n → 1 ≤ n → (⟨[c], n, .capacityExceeded⟩ : Entity).Sound input := by
    rintro name c n hbegin rfl hn
    have hle := List.isPrefixOf_iff_prefix.mp hbegin
    exact ⟨hn, hle.length_le⟩
  unfold entityAt at h
  split_ifs at h with hlt hgt hamp hquot hapos hreference hhexadecimal
  · cases h
    exact hnamed _ _ _ hlt rfl (by decide)
  · cases h
    exact hnamed _ _ _ hgt rfl (by decide)
  · cases h
    exact hnamed _ _ _ hamp rfl (by decide)
  · cases h
    exact hnamed _ _ _ hquot rfl (by decide)
  · cases h
    exact hnamed _ _ _ hapos rfl (by decide)
  · exact characterReference_sound (by decide) h
  · exact characterReference_sound (by decide) h

theorem length_decodeFrom (hskip : skip ≤ input.length)
    (h : decodeFrom none skip output input = .ok decoded) :
    decoded.length + skip ≤ output.length + input.length := by
  induction input generalizing skip output with
  | nil =>
    cases h
    omega
  | cons c rest ih =>
    rw [List.length_cons] at hskip ⊢
    cases skip with
    | succ skip =>
      have hle := ih (by omega) h
      omega
    | zero =>
      rw [decodeFrom] at h
      by_cases hplain : c ≠ '&'
      · simp only [if_pos hplain, full_none, Bool.false_eq_true, if_false] at h
        have hle := ih (Nat.zero_le _) h
        rw [List.length_append, List.length_singleton] at hle
        omega
      · rw [if_neg hplain] at h
        cases hentity : entityAt (c :: rest) with
        | error status =>
          rw [hentity] at h
          cases h
        | ok entity =>
          simp only [hentity, full_none, Bool.false_eq_true, if_false] at h
          have hsound := entityAt_sound hentity
          have hwithin := hsound.within
          have hshrinks := hsound.shrinks
          rw [List.length_cons] at hwithin
          have hle := ih (by omega) h
          rw [List.length_append] at hle
          omega

/-- **A decoded value is not longer than its source.** -/
theorem length_decode (h : decodeAttributeEntities none input = .ok decoded) :
    decoded.length ≤ input.length := by
  have hle := length_decodeFrom (Nat.zero_le _) h
  simpa using hle

theorem decode_in_place (h : decodeAttributeEntities none input = .ok decoded) :
    decodeAttributeEntities (some input.length) input = .ok decoded :=
  decode_of_fits h (length_decode h)

theorem decode_in_place_sample :
    decodeAttributeEntities (some "a&#xE9;b".toList.length) "a&#xE9;b".toList =
      .ok ['a', Char.ofNat 0xc3, Char.ofNat 0xa9, 'b'] :=
  decode_in_place (by decide +kernel)

end Decoding

end Compiler

end TurboScxml.Ccxml
