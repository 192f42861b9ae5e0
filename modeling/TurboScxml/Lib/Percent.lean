import Mathlib.Data.List.Basic
import Mathlib.Data.Nat.Notation

/-!
# Percent-encoding

Bytes written with a set of safe bytes: a safe byte stands for itself, a blank is written as a plus
sign, and any other byte as a percent sign and two hexadecimal digits.

* `encode`, `decode`: bytes and what they are written as;
* `decode_encode`: what was encoded is decoded;
* `Escaped`, `decode_eq_some`: what can be decoded, and to what.
-/

namespace Percent

def percentSign : UInt8 := 0x25

def plusSign : UInt8 := 0x2B

def blank : UInt8 := 0x20

/-! ## Hexadecimal digits -/

def hexDigit (n : ℕ) : UInt8 := UInt8.ofNat (if n < 10 then 0x30 + n else 0x37 + n)

def hexValue (c : UInt8) : Option ℕ :=
  if 0x30 ≤ c ∧ c ≤ 0x39 then some (c.toNat - 0x30)
  else if 0x41 ≤ c ∧ c ≤ 0x46 then some (c.toNat - 0x41 + 10)
  else if 0x61 ≤ c ∧ c ≤ 0x66 then some (c.toNat - 0x61 + 10)
  else none

theorem hexValue_hexDigit : ∀ n < 16, hexValue (hexDigit n) = some n := by decide

/-! ## Encoding and decoding -/

def encodeByte (safe : UInt8 → Bool) (b : UInt8) : List UInt8 :=
  if safe b then [b]
  else if b = blank then [plusSign]
  else [percentSign, hexDigit (b.toNat / 16), hexDigit (b.toNat % 16)]

def encode (safe : UInt8 → Bool) (bytes : List UInt8) : List UInt8 :=
  bytes.flatMap (encodeByte safe)

/-- The bytes written, if each percent sign has two digits. -/
def decode : List UInt8 → Option (List UInt8)
  | [] => some []
  | c :: rest =>
    if c = plusSign then (decode rest).map (blank :: ·)
    else if c = percentSign then
      match rest with
      | high :: low :: rest =>
        match hexValue high, hexValue low with
        | some h, some l => (decode rest).map (UInt8.ofNat (h * 16 + l) :: ·)
        | _, _ => none
      | _ => none
    else (decode rest).map (c :: ·)

def Admissible (safe : UInt8 → Bool) : Prop := safe percentSign = false ∧ safe plusSign = false

variable {safe : UInt8 → Bool}

theorem encode_cons (b : UInt8) (bytes : List UInt8) :
    encode safe (b :: bytes) = encodeByte safe b ++ encode safe bytes := rfl

theorem decode_plus (rest : List UInt8) :
    decode (plusSign :: rest) = (decode rest).map (blank :: ·) := by
  rw [decode.eq_def]
  exact if_pos rfl

variable {c : UInt8}

theorem decode_safe (hplus : c ≠ plusSign) (hpercent : c ≠ percentSign) (rest : List UInt8) :
    decode (c :: rest) = (decode rest).map (c :: ·) := by
  rw [decode.eq_def]
  dsimp only
  rw [if_neg hplus, if_neg hpercent]

variable {high low : UInt8}

theorem decode_pair {h l : ℕ} (hh : hexValue high = some h) (hl : hexValue low = some l)
    (rest : List UInt8) :
    decode (percentSign :: high :: low :: rest) =
      (decode rest).map (UInt8.ofNat (h * 16 + l) :: ·) := by
  rw [decode, if_neg (by decide), if_pos rfl]
  simp only [hh, hl]

variable {rest : List UInt8}

theorem decode_noDigits (h : ∀ m n, hexValue high = some m → hexValue low = some n → False) :
    decode (percentSign :: high :: low :: rest) = none := by
  rw [decode, if_neg (by decide), if_pos rfl]
  cases hhigh : hexValue high with
  | none => rfl
  | some m =>
    cases hlow : hexValue low with
    | none => rfl
    | some n => exact absurd hlow (h m n hhigh)

theorem decode_short (h : ∀ high low rest', rest = high :: low :: rest' → False) :
    decode (percentSign :: rest) = none := by
  rw [decode.eq_def]
  simp only [if_neg (show percentSign ≠ plusSign by decide), if_pos]

/-- **One byte.** -/
theorem decode_encodeByte (h : Admissible safe) (b : UInt8) (rest : List UInt8) :
    decode (encodeByte safe b ++ rest) = (decode rest).map (b :: ·) := by
  unfold encodeByte
  split
  · rename_i hsafe
    refine decode_safe ?_ ?_ rest
    · rintro rfl
      rw [h.2] at hsafe
      cases hsafe
    · rintro rfl
      rw [h.1] at hsafe
      cases hsafe
  · split
    · rename_i hblank
      rw [hblank]
      exact decode_plus rest
    · have hlt := b.toNat_lt
      have hbyte : UInt8.ofNat (b.toNat / 16 * 16 + b.toNat % 16) = b := by
        rw [Nat.div_add_mod']
        exact UInt8.ofNat_toNat
      refine (decode_pair (hexValue_hexDigit _ (by omega)) (hexValue_hexDigit _ (by omega))
        rest).trans ?_
      rw [hbyte]

/-- **What was encoded is decoded.** -/
theorem decode_encode (h : Admissible safe) (bytes : List UInt8) :
    decode (encode safe bytes) = some bytes := by
  induction bytes with
  | nil => rfl
  | cons b bytes ih =>
    rw [encode_cons, decode_encodeByte h, ih]
    rfl

inductive Escaped : List UInt8 → List UInt8 → Prop
  | nil : Escaped [] []
  | plus {source text : List UInt8} (h : Escaped source text) :
    Escaped (plusSign :: source) (blank :: text)
  | digits {source text : List UInt8} {high low : UInt8} {m n : ℕ} (hhigh : hexValue high = some m)
    (hlow : hexValue low = some n) (h : Escaped source text) :
    Escaped (percentSign :: high :: low :: source) (UInt8.ofNat (m * 16 + n) :: text)
  | plain {source text : List UInt8} {c : UInt8} (hplus : c ≠ plusSign) (hpercent : c ≠ percentSign)
    (h : Escaped source text) : Escaped (c :: source) (c :: text)

/-- **The texts with escapes** are those that can be decoded. -/
theorem decode_eq_some {source text : List UInt8} :
    decode source = some text ↔ Escaped source text := by
  constructor
  · intro h
    induction source using decode.induct generalizing text with
    | case1 =>
      cases h
      exact .nil
    | case2 rest ih =>
      rw [decode_plus] at h
      obtain ⟨tail, htail, rfl⟩ := Option.map_eq_some_iff.mp h
      exact .plus (ih htail)
    | case3 high low rest m n hlow hhigh _ ih =>
      rw [decode_pair hhigh hlow] at h
      obtain ⟨tail, htail, rfl⟩ := Option.map_eq_some_iff.mp h
      exact .digits hhigh hlow (ih htail)
    | case4 high low rest hdigits _ =>
      rw [decode_noDigits hdigits] at h
      cases h
    | case5 rest hshort _ =>
      rw [decode_short hshort] at h
      cases h
    | case6 c rest hplus hpercent ih =>
      rw [decode_safe hplus hpercent] at h
      obtain ⟨tail, htail, rfl⟩ := Option.map_eq_some_iff.mp h
      exact .plain hplus hpercent (ih htail)
  · intro h
    induction h with
    | nil => rfl
    | plus _ ih => rw [decode_plus, ih, Option.map_some]
    | digits hhigh hlow _ ih => rw [decode_pair hhigh hlow, ih, Option.map_some]
    | plain hplus hpercent _ ih => rw [decode_safe hplus hpercent, ih, Option.map_some]

theorem mem_encodeByte {b : UInt8} (h : c ∈ encodeByte safe b) :
    safe c = true ∨ c = plusSign ∨ c = percentSign ∨ ∃ n < 16, c = hexDigit n := by
  unfold encodeByte at h
  split at h
  · obtain rfl := List.mem_singleton.mp h
    exact .inl ‹_›
  · split at h
    · exact .inr (.inl (List.mem_singleton.mp h))
    · have hlt := b.toNat_lt
      simp only [List.mem_cons, List.not_mem_nil, or_false] at h
      rcases h with hc | hc | hc
      · exact .inr (.inr (.inl hc))
      · exact .inr (.inr (.inr ⟨_, by omega, hc⟩))
      · exact .inr (.inr (.inr ⟨_, by omega, hc⟩))

theorem not_mem_encode (hsafe : safe c = false) (hplus : c ≠ plusSign) (hpercent : c ≠ percentSign)
    (hdigit : ∀ n < 16, c ≠ hexDigit n) (bytes : List UInt8) :
    c ∉ encode safe bytes := by
  intro hc
  obtain ⟨b, -, hb⟩ := List.mem_flatMap.mp hc
  rcases mem_encodeByte hb with h | h | h | ⟨n, hn, h⟩
  · rw [hsafe] at h
    cases h
  · exact hplus h
  · exact hpercent h
  · exact hdigit n hn h

/-! ## Separators -/

/-- The bytes in front of the first `c`, and those after it. -/
def cut (c : UInt8) : List UInt8 → List UInt8 × Option (List UInt8)
  | [] => ([], none)
  | b :: rest => if b = c then ([], some rest) else (b :: (cut c rest).1, (cut c rest).2)

variable {part : List UInt8}

theorem cut_append (h : c ∉ part) (rest : List UInt8) :
    cut c (part ++ c :: rest) = (part, some rest) := by
  induction part with
  | nil => exact if_pos rfl
  | cons b part ih =>
    obtain ⟨hb, hpart⟩ := List.ne_and_not_mem_of_not_mem_cons h
    rw [List.cons_append, cut, if_neg (Ne.symm hb), ih hpart]

theorem cut_of_not_mem (h : c ∉ part) : cut c part = (part, none) := by
  induction part with
  | nil => rfl
  | cons b part ih =>
    obtain ⟨hb, hpart⟩ := List.ne_and_not_mem_of_not_mem_cons h
    rw [cut, if_neg (Ne.symm hb), ih hpart]

theorem not_mem_cut (c : UInt8) (bytes : List UInt8) : c ∉ (cut c bytes).1 := by
  induction bytes with
  | nil => exact List.not_mem_nil
  | cons b rest ih =>
    rw [cut]
    split
    · exact List.not_mem_nil
    next hb => exact List.not_mem_cons_of_ne_of_not_mem (Ne.symm hb) ih

theorem cut_join (c : UInt8) (bytes : List UInt8) :
    (cut c bytes).1 ++ ((cut c bytes).2.map (c :: ·)).getD [] = bytes := by
  induction bytes with
  | nil => rfl
  | cons b rest ih =>
    rw [cut]
    split
    next hb =>
      rw [hb]
      rfl
    next => exact congrArg (b :: ·) ih

theorem splitOn_cut (c : UInt8) (bytes : List UInt8) :
    bytes.splitOn c =
      (cut c bytes).1 :: ((cut c bytes).2.map (List.splitOn c)).getD [] := by
  have hmem := not_mem_cut c bytes
  have hjoin := cut_join c bytes
  cases hrest : (cut c bytes).2 with
  | none =>
    rw [hrest, Option.map_none, Option.getD_none, List.append_nil] at hjoin
    rw [hjoin] at hmem ⊢
    exact List.splitOn_eq_singleton hmem
  | some rest =>
    rw [hrest] at hjoin
    exact (congrArg (List.splitOn c) hjoin.symm).trans
      (List.splitOn_append_cons_self_of_not_mem hmem rest)

theorem cut_length {bytes : List UInt8} (h : (cut c bytes).2 = some rest) :
    rest.length < bytes.length := by
  induction bytes with
  | nil => cases h
  | cons b bytes ih =>
    rw [cut] at h
    split at h
    · cases h
      exact Nat.lt_succ_self _
    · exact Nat.lt_succ_of_lt (ih h)

end Percent
