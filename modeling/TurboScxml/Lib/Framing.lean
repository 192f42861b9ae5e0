import Mathlib.Data.List.Basic
import Mathlib.Algebra.Order.Group.Nat

/-!
# Length-prefixed framing

A stream of frames, each after its size in two bytes, the high byte first. A size of zero or above a
bound is invalid.

* `sizePrefix`, `encode`, `encodeAll`: the bytes of frames;
* `decode`: the frames of a stream and what its last bytes are (`Tail`);
* `decode_encodeAll`: the frames in front of a stream are decoded one by one.
-/

namespace Framing

def sizePrefix (n : ℕ) : List UInt8 := [UInt8.ofNat (n / 256), UInt8.ofNat n]

def prefixedSize (high low : UInt8) : ℕ := high.toNat * 256 + low.toNat

def encode (frame : List UInt8) : List UInt8 := sizePrefix frame.length ++ frame

def encodeAll (frames : List (List UInt8)) : List UInt8 := frames.flatMap encode

inductive Tail
  | clean
  | size (high : UInt8)
  | frame (expected : ℕ) (bytes : List UInt8)
  | zero (rest : List UInt8)
  /-- A size above the bound and all bytes after it. -/
  | oversized (expected : ℕ) (rest : List UInt8)
  deriving DecidableEq

/-- The stream stops inside a size or a frame. -/
def Tail.truncated : Tail → Bool
  | .size _ | .frame _ _ => true
  | _ => false

def Tail.invalid : Tail → Bool
  | .zero _ | .oversized _ _ => true
  | _ => false

/-- The frames of a stream, and its last bytes. -/
def decode (max : ℕ) : List UInt8 → List (List UInt8) × Tail
  | [] => ([], .clean)
  | [high] => ([], .size high)
  | high :: low :: rest =>
    let n := prefixedSize high low
    if n = 0 then ([], .zero rest)
    else if max < n then ([], .oversized n rest)
    else if rest.length < n then ([], .frame n rest)
    else
      let decoded := decode max (rest.drop n)
      (rest.take n :: decoded.1, decoded.2)
  termination_by stream => stream.length
  decreasing_by simp only [List.length_drop, List.length_cons]; omega

theorem prefixedSize_lt (high low : UInt8) : prefixedSize high low < 65536 := by
  have hh := high.toNat_lt
  have hl := low.toNat_lt
  unfold prefixedSize
  omega

theorem sizePrefix_prefixedSize (high low : UInt8) :
    sizePrefix (prefixedSize high low) = [high, low] := by
  have hl := low.toNat_lt
  have hhigh : prefixedSize high low / 256 = high.toNat := by
    unfold prefixedSize
    omega
  have hlow : UInt8.ofNat (prefixedSize high low) = low := by
    apply UInt8.toNat_inj.mp
    simp only [UInt8.toNat_ofNat', prefixedSize]
    omega
  rw [sizePrefix, hhigh, hlow, UInt8.ofNat_toNat]

theorem encode_eq {high low : UInt8} {frame : List UInt8}
    (h : frame.length = prefixedSize high low) : encode frame = high :: low :: frame := by
  rw [encode, h, sizePrefix_prefixedSize]
  rfl

@[simp] theorem encodeAll_nil : encodeAll [] = [] := rfl

theorem encodeAll_append (frames frames' : List (List UInt8)) :
    encodeAll (frames ++ frames') = encodeAll frames ++ encodeAll frames' :=
  List.flatMap_append

theorem encodeAll_singleton (frame : List UInt8) : encodeAll [frame] = encode frame := by
  simp [encodeAll]

variable {max : ℕ}

theorem decode_nil : decode max [] = ([], .clean) := by simp [decode]

theorem decode_size (high : UInt8) : decode max [high] = ([], .size high) := by simp [decode]

section Sized

variable {high low : UInt8} {rest : List UInt8}

theorem decode_zero (h : prefixedSize high low = 0) :
    decode max (high :: low :: rest) = ([], .zero rest) := by
  rw [decode]
  exact if_pos h

theorem decode_oversized (h : max < prefixedSize high low) :
    decode max (high :: low :: rest) = ([], .oversized (prefixedSize high low) rest) := by
  have hpos : prefixedSize high low ≠ 0 := by omega
  rw [decode]
  simp only [hpos, if_false, h, if_true]

theorem decode_frame (hpos : prefixedSize high low ≠ 0) (hmax : prefixedSize high low ≤ max)
    (h : rest.length < prefixedSize high low) :
    decode max (high :: low :: rest) = ([], .frame (prefixedSize high low) rest) := by
  rw [decode]
  simp only [hpos, if_false, not_lt.mpr hmax, h, if_true]

end Sized

def Fits (max : ℕ) (frame : List UInt8) : Prop :=
  0 < frame.length ∧ frame.length ≤ max ∧ frame.length < 65536

theorem prefixedSize_sizePrefix {n : ℕ} (h : n < 65536) :
    prefixedSize (UInt8.ofNat (n / 256)) (UInt8.ofNat n) = n := by
  simp only [prefixedSize, UInt8.toNat_ofNat']
  omega

theorem decode_encode {frame : List UInt8} (h : Fits max frame) (rest : List UInt8) :
    decode max (encode frame ++ rest) =
      (frame :: (decode max rest).1, (decode max rest).2) := by
  obtain ⟨hpos, hmax, hlt⟩ := h
  have hsize := prefixedSize_sizePrefix hlt
  have hshort : ¬ (frame ++ rest).length < frame.length := by
    rw [List.length_append]
    omega
  show decode max (_ :: _ :: (frame ++ rest)) = _
  rw [decode, hsize]
  simp only [hpos.ne', if_false, not_lt.mpr hmax, hshort, List.drop_left, List.take_left]

/-- **Complete frames are decoded one by one.** -/
theorem decode_encodeAll {frames : List (List UInt8)} (h : ∀ frame ∈ frames, Fits max frame)
    (rest : List UInt8) :
    decode max (encodeAll frames ++ rest) =
      (frames ++ (decode max rest).1, (decode max rest).2) := by
  induction frames with
  | nil => simp
  | cons frame frames ih =>
    have hcons : encodeAll (frame :: frames) ++ rest = encode frame ++ (encodeAll frames ++ rest) :=
      by simp [encodeAll]
    rw [hcons, decode_encode (h frame List.mem_cons_self),
      ih fun frame' hmem => h frame' (List.mem_cons_of_mem _ hmem)]
    rfl

end Framing
