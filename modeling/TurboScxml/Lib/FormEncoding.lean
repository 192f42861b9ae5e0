import TurboScxml.Lib.Percent

/-!
# Url-encoded forms

The fields of a form as bytes: a name and a value, percent-encoded with an equals sign between them,
and an ampersand between fields.

* `decode`: the fields that bytes stand for, empty pieces left out;
* `encodeFields`: fields as bytes;
* `decode_encodeFields`: fields are read back.
-/

namespace FormEncoding

open Percent

abbrev Field := List UInt8 × List UInt8

def ampersand : UInt8 := 0x26

def equalsSign : UInt8 := 0x3D

/-! ## Decoding -/

/-- What a percent-encoded text stands for. -/
def unescape : List UInt8 → List UInt8
  | [] => []
  | c :: rest =>
    if c = plusSign then blank :: unescape rest
    else if c = percentSign then
      match rest with
      | high :: low :: rest' =>
        match hexValue high, hexValue low with
        | some h, some l => UInt8.ofNat (h * 16 + l) :: unescape rest'
        | _, _ => c :: unescape (high :: low :: rest')
      | [low] => c :: unescape [low]
      | [] => [c]
    else c :: unescape rest

def decodePiece (piece : List UInt8) : Field :=
  (unescape (cut equalsSign piece).1, unescape ((cut equalsSign piece).2.getD []))

def decode (bytes : List UInt8) : List Field :=
  ((bytes.splitOn ampersand).filter fun piece => !piece.isEmpty).map decodePiece

theorem decode_append (front rest : List UInt8) :
    decode (front ++ ampersand :: rest) = decode front ++ decode rest := by
  rw [decode, List.splitOn_append_cons_self, List.filter_append, List.map_append]
  rfl

/-! ## Encoding -/

variable {safe : UInt8 → Bool}

def encodeField (safe : UInt8 → Bool) (field : Field) : List UInt8 :=
  encode safe field.1 ++ equalsSign :: encode safe field.2

def encodeFields (safe : UInt8 → Bool) (fields : List Field) : List UInt8 :=
  [ampersand].intercalate (fields.map (encodeField safe))

theorem unescape_plus (rest : List UInt8) :
    unescape (plusSign :: rest) = blank :: unescape rest := by
  rw [unescape.eq_def]
  exact if_pos rfl

theorem unescape_plain {c : UInt8} (hplus : c ≠ plusSign) (hpercent : c ≠ percentSign)
    (rest : List UInt8) : unescape (c :: rest) = c :: unescape rest := by
  rw [unescape.eq_def]
  dsimp only
  rw [if_neg hplus, if_neg hpercent]

theorem unescape_digits {h l : ℕ} (hh : h < 16) (hl : l < 16) (rest : List UInt8) :
    unescape (percentSign :: hexDigit h :: hexDigit l :: rest) =
      UInt8.ofNat (h * 16 + l) :: unescape rest := by
  rw [unescape, if_neg (by decide), if_pos rfl]
  simp only [hexValue_hexDigit h hh, hexValue_hexDigit l hl]

theorem unescape_encodeByte (h : Admissible safe) (b : UInt8) (rest : List UInt8) :
    unescape (encodeByte safe b ++ rest) = b :: unescape rest := by
  unfold encodeByte
  split
  next hsafe =>
    refine unescape_plain ?_ ?_ rest
    · rintro rfl
      rw [h.2] at hsafe
      cases hsafe
    · rintro rfl
      rw [h.1] at hsafe
      cases hsafe
  next =>
    split
    next hblank =>
      rw [hblank]
      exact unescape_plus rest
    next =>
      have hlt := b.toNat_lt
      have hbyte : UInt8.ofNat (b.toNat / 16 * 16 + b.toNat % 16) = b := by
        rw [Nat.div_add_mod']
        exact UInt8.ofNat_toNat
      refine (unescape_digits (by omega) (by omega) rest).trans ?_
      rw [hbyte]

/-- **What was encoded is read back.** -/
theorem unescape_encode (h : Admissible safe) (bytes : List UInt8) :
    unescape (encode safe bytes) = bytes := by
  induction bytes with
  | nil => rfl
  | cons b bytes ih => rw [encode_cons, unescape_encodeByte h, ih]

structure Separable (safe : UInt8 → Bool) : Prop where
  admissible : Admissible safe
  ampersand : safe ampersand = false
  equalsSign : safe equalsSign = false

variable (h : Separable safe)
include h

theorem Separable.not_mem (bytes : List UInt8) :
    FormEncoding.ampersand ∉ encode safe bytes ∧ FormEncoding.equalsSign ∉ encode safe bytes :=
  ⟨not_mem_encode h.ampersand (by decide) (by decide) (by decide) bytes,
    not_mem_encode h.equalsSign (by decide) (by decide) (by decide) bytes⟩

theorem decodePiece_encodeField (field : Field) : decodePiece (encodeField safe field) = field := by
  rw [decodePiece, encodeField, cut_append (h.not_mem field.1).2, Option.getD_some,
    unescape_encode h.admissible, unescape_encode h.admissible]

theorem ampersand_not_mem_encodeField (field : Field) : ampersand ∉ encodeField safe field := by
  rw [encodeField, List.mem_append, List.mem_cons]
  rintro (hname | heq | hvalue)
  · exact (h.not_mem field.1).1 hname
  · exact absurd heq (by decide)
  · exact (h.not_mem field.2).1 hvalue

/-- **Fields are read back.** -/
theorem decode_encodeFields (fields : List Field) : decode (encodeFields safe fields) = fields := by
  cases fields with
  | nil => rfl
  | cons field rest =>
    have hpieces : ∀ piece ∈ (field :: rest).map (encodeField safe), ampersand ∉ piece := by
      intro piece hpiece
      obtain ⟨f, -, rfl⟩ := List.mem_map.mp hpiece
      exact ampersand_not_mem_encodeField h f
    rw [decode, encodeFields, List.splitOn_intercalate ampersand hpieces (by simp),
      List.filter_eq_self.mpr, List.map_map]
    · refine (List.map_congr_left fun f _ => decodePiece_encodeField h f).trans ?_
      exact List.map_id _
    · intro piece hpiece
      obtain ⟨f, -, rfl⟩ := List.mem_map.mp hpiece
      rw [encodeField]
      cases encode safe f.1 <;> rfl

end FormEncoding
