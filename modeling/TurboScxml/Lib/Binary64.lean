import Mathlib

/-!
# Doubles and integers

What the comparison of doubles and their conversions from and to integers compute, in units of
the smallest double.

* `scaled`: the value of a finite double times `2 ^ 1074`, an integer;
* `compare_scaled`: finite doubles are compared as their values;
* `toInt_scaled`: a double is converted to an integer by dropping its fraction;
* `ofInt_scaled`: an integer with at most 53 significant bits is converted exactly.
-/

namespace Binary64

open Float.Model Float.Model.UnpackedFloat

/-! ## Values -/

def fractionBits : ℕ :=
  1074

/-- How often the smallest double goes into one. -/
def scale : ℕ :=
  2 ^ fractionBits

theorem scale_pos : 0 < scale :=
  Nat.two_pow_pos fractionBits

/-- What the bits of a double hold. -/
def Canonical : UnpackedFloat → Prop
  | .finite _ m e _ => m < 2 ^ 53 ∧ (2 ^ 52 ≤ m ∨ e = -1074) ∧ -1074 ≤ e ∧ e ≤ 971
  | _ => True

/-- `m * 2 ^ e` in units of the smallest double. -/
def magnitude (m : ℕ) (e : ℤ) : ℕ :=
  m * 2 ^ (e + 1074).toNat

def Bounded : UnpackedFloat → Prop
  | .finite _ _ e _ => -1074 ≤ e
  | _ => True

theorem Canonical.bounded {a : UnpackedFloat} (h : Canonical a) : Bounded a := by
  cases a with
  | finite s m e hm => exact h.2.2.1
  | _ => trivial

/-- A finite double in units of the smallest one. -/
def scaled : UnpackedFloat → ℤ
  | .finite s m e _ => s.apply (magnitude m e)
  | _ => 0

/-! ## Formats -/

variable {f : Format} {m n : ℕ} {e : ℤ} {s : Sign}

def maxExponent (f : Format) : ℤ :=
  f.exponentBias - f.mantissaBitsWithoutImplicit

theorem two_pow_exponentBits (f : Format) : 2 ^ f.exponentBits = 2 * (f.exponentBias + 1) := by
  have hhalf := Nat.two_pow_pred_mul_two f.he
  have hpos : 0 < 2 ^ (f.exponentBits - 1) := Nat.two_pow_pos _
  rw [Format.exponentBias]
  omega

theorem minExponent_eq (f : Format) :
    f.minExponent = 1 - f.exponentBias - f.mantissaBitsWithoutImplicit := by
  have hpos : 0 < 2 ^ (f.exponentBits - 1) := Nat.two_pow_pos _
  have hcast : ((2 ^ (f.exponentBits - 1) : ℕ) : ℤ) = 2 ^ (f.exponentBits - 1) := by
    rw [Nat.cast_pow, Nat.cast_ofNat]
  rw [Format.minExponent, ← hcast, Format.exponentBias, Format.mantissaBits]
  omega

/-- What the bits of a format hold. -/
structure Within (f : Format) (m : ℕ) (e : ℤ) : Prop where
  bits : m < 2 ^ f.mantissaBits
  normal : 2 ^ f.mantissaBitsWithoutImplicit ≤ m ∨ e = f.minExponent
  low : f.minExponent ≤ e
  high : e ≤ maxExponent f

theorem unpackSign_packComponents {x : BitVec f.exponentBits}
    {v : BitVec f.mantissaBitsWithoutImplicit} :
    unpackSign (packComponents f s x v) = s.toBitVec := by
  ext i hi
  obtain rfl : i = 0 := by omega
  simp [unpackSign, packComponents, BitVec.getLsbD_append, BitVec.getElem_append]

theorem implicitBit_append {w : ℕ} (hlow : 2 ^ w ≤ m) (hhigh : m < 2 ^ (1 + w)) :
    (1#1 ++ BitVec.ofNat w m).toNat = m := by
  have hbits := (BitVec.ofNat w m).isLt
  rw [Nat.pow_add] at hhigh
  have hrest : m % 2 ^ w = m - 2 ^ w := by
    rw [Nat.mod_eq_sub_mod hlow, Nat.mod_eq_of_lt (by omega)]
  rw [BitVec.toNat_append, ← Nat.shiftLeft_add_eq_or_of_lt hbits, Nat.shiftLeft_eq,
    BitVec.toNat_ofNat, BitVec.toNat_ofNat, hrest]
  omega

theorem unpack_pack (hm : 0 < m) (h : Within f m e) :
    UnpackedFloat.unpack f (UnpackedFloat.pack f (.finite s m e hm)) = .finite s m e hm := by
  obtain ⟨hbits, hnormal, hlow, hhigh⟩ := h
  rw [maxExponent] at hhigh
  have hpow := two_pow_exponentBits f
  have hminimum := minExponent_eq f
  have hwidth : f.mantissaBits = 1 + f.mantissaBitsWithoutImplicit := rfl
  have hsign : Sign.ofBitVec s.toBitVec = s := by
    cases s <;> rfl
  obtain ⟨b, hb⟩ : ∃ b, b = (e + f.exponentBias + f.mantissaBitsWithoutImplicit).toNat := ⟨_, rfl⟩
  have hexponent : (BitVec.ofNat f.exponentBits b).toNat = b := by
    rw [BitVec.toNat_ofNat, Nat.mod_eq_of_lt (by omega)]
  have hones : (-1#f.exponentBits).toNat = 2 ^ f.exponentBits - 1 := by
    rw [BitVec.neg_one_eq_allOnes, BitVec.toNat_allOnes]
  rw [UnpackedFloat.pack, ← hb, if_neg (by omega)]
  by_cases hfull : m.log2 + 1 = f.mantissaBits
  · rw [if_pos hfull, UnpackedFloat.unpack]
    simp only [unpackExponent_packComponents, unpackMantissa_packComponents,
      unpackSign_packComponents, hsign]
    obtain ⟨hle, hlt⟩ := (Nat.log2_eq_iff (Nat.ne_of_gt hm)).mp rfl
    rw [if_neg ?_, if_neg ?_]
    · congr 1
      · exact implicitBit_append
          (by rwa [show m.log2 = f.mantissaBitsWithoutImplicit by omega] at hle) (hwidth ▸ hbits)
      · rw [hexponent]
        omega
    · intro hzero
      have := congrArg BitVec.toNat hzero
      rw [hexponent, BitVec.toNat_zero] at this
      omega
    · intro h
      have := congrArg BitVec.toNat h
      omega
  · have hlog : m.log2 < f.mantissaBits := (Nat.log2_lt (Nat.ne_of_gt hm)).mpr hbits
    have hlt : m < 2 ^ f.mantissaBitsWithoutImplicit :=
      (Nat.log2_lt (Nat.ne_of_gt hm)).mp (by omega)
    have hmantissa : (BitVec.ofNat f.mantissaBitsWithoutImplicit m).toNat = m := by
      rw [BitVec.toNat_ofNat, Nat.mod_eq_of_lt hlt]
    have hnonzero : BitVec.ofNat f.mantissaBitsWithoutImplicit m ≠ 0#_ := by
      intro hzero
      have := congrArg BitVec.toNat hzero
      rw [hmantissa, BitVec.toNat_zero] at this
      omega
    rw [if_neg hfull, UnpackedFloat.unpack]
    simp only [unpackExponent_packComponents, unpackMantissa_packComponents,
      unpackSign_packComponents, hsign]
    rw [if_neg ?_, if_pos trivial, dif_neg hnonzero]
    · congr 1
      rw [BitVec.toNat_zero, hnormal.resolve_left (by omega)]
      omega
    · intro h
      have := congrArg BitVec.toNat h
      rw [BitVec.toNat_zero, hones] at this
      omega

theorem unpack_within {bits : BitVec f.numBits} {hm : 0 < m} (hbias : 0 < f.exponentBias)
    (h : UnpackedFloat.unpack f bits = .finite s m e hm) : Within f m e := by
  have hpow := two_pow_exponentBits f
  have hminimum := minExponent_eq f
  have hwidth : f.mantissaBits = 1 + f.mantissaBitsWithoutImplicit := rfl
  have hv := (unpackMantissa bits).isLt
  unfold UnpackedFloat.unpack at h
  dsimp only at h
  split_ifs at h with hinf hnan hzero hmantissa
  · obtain ⟨-, rfl, rfl⟩ := UnpackedFloat.finite.inj h
    have hsmall : 2 ^ f.mantissaBitsWithoutImplicit ≤ 2 ^ f.mantissaBits :=
      Nat.pow_le_pow_right (by decide) (by omega)
    rw [hzero, BitVec.toNat_zero]
    refine ⟨by omega, .inr ?_, ?_, ?_⟩
    · omega
    · omega
    · rw [maxExponent]
      omega
  · obtain ⟨-, rfl, rfl⟩ := UnpackedFloat.finite.inj h
    have hnonzero : (unpackExponent bits).toNat ≠ 0 := fun h => hzero (BitVec.eq_of_toNat_eq h)
    have hfinite : (unpackExponent bits).toNat ≠ 2 ^ f.exponentBits - 1 := by
      intro h
      refine hinf (BitVec.eq_of_toNat_eq ?_)
      rw [h, BitVec.neg_one_eq_allOnes, BitVec.toNat_allOnes]
    have hdouble : 2 ^ f.mantissaBits = 2 * 2 ^ f.mantissaBitsWithoutImplicit := by
      rw [hwidth, Nat.pow_add]
    rw [BitVec.toNat_append, ← Nat.shiftLeft_add_eq_or_of_lt hv, Nat.shiftLeft_eq]
    change Within f (1 * _ + _) _
    refine ⟨by omega, .inl (by omega), by omega, ?_⟩
    rw [maxExponent]
    omega

theorem unpack_canonical (f : Float.Model) : Canonical f.unpack := by
  cases h : f.unpack with
  | infinity s => trivial
  | notANumber => trivial
  | zero s => trivial
  | finite s m e hm =>
    obtain ⟨hbits, hnormal, hlow, hhigh⟩ := unpack_within (f := .binary64) (by decide) h
    exact ⟨hbits, hnormal, hlow, hhigh⟩

/-! ## Comparison -/

variable {m : ℕ}

theorem magnitude_pos (hm : 0 < m) (e : ℤ) : 0 < magnitude m e :=
  Nat.mul_pos hm (Nat.two_pow_pos _)

variable {m₁ m₂ : ℕ} {e₁ e₂ : ℤ}

theorem magnitude_lt (hm₁ : m₁ < 2 ^ 53) (hm₂ : 2 ^ 52 ≤ m₂) (he₁ : -1074 ≤ e₁) (he : e₁ < e₂) :
    magnitude m₁ e₁ < magnitude m₂ e₂ := by
  obtain ⟨k, hk⟩ : ∃ k, (e₂ + 1074).toNat = (e₁ + 1074).toNat + 1 + k :=
    ⟨(e₂ - e₁ - 1).toNat, by omega⟩
  calc m₁ * 2 ^ (e₁ + 1074).toNat
    _ < 2 ^ 53 * 2 ^ (e₁ + 1074).toNat := Nat.mul_lt_mul_of_pos_right hm₁ (Nat.two_pow_pos _)
    _ = 2 ^ 52 * 2 ^ ((e₁ + 1074).toNat + 1) := by rw [Nat.pow_succ]; omega
    _ ≤ m₂ * 2 ^ ((e₁ + 1074).toNat + 1) := Nat.mul_le_mul_right _ hm₂
    _ ≤ m₂ * 2 ^ (e₂ + 1074).toNat := by
      rw [hk]
      exact Nat.mul_le_mul_left _ (Nat.pow_le_pow_right (by decide) (Nat.le_add_right _ _))

theorem compare_magnitude {s₁ s₂ : Sign} {h₁ : 0 < m₁} {h₂ : 0 < m₂}
    (hc₁ : Canonical (.finite s₁ m₁ e₁ h₁)) (hc₂ : Canonical (.finite s₂ m₂ e₂ h₂)) :
    (compare e₁ e₂).then (compare m₁ m₂) = compare (magnitude m₁ e₁) (magnitude m₂ e₂) := by
  obtain ⟨hm₁, hn₁, hl₁, -⟩ := hc₁
  obtain ⟨hm₂, hn₂, hl₂, -⟩ := hc₂
  rcases Int.lt_trichotomy e₁ e₂ with he | rfl | he
  · rw [Int.compare_eq_lt.mpr he, Nat.compare_eq_lt.mpr
      (magnitude_lt hm₁ (hn₂.resolve_right (by omega)) hl₁ he)]
    rfl
  · have hscale : 0 < 2 ^ (e₁ + 1074).toNat := Nat.two_pow_pos _
    rw [Int.compare_eq_eq.mpr rfl, Ordering.eq_then, magnitude, magnitude]
    rcases Nat.lt_trichotomy m₁ m₂ with hm | rfl | hm
    · rw [Nat.compare_eq_lt.mpr hm, Nat.compare_eq_lt.mpr (Nat.mul_lt_mul_of_pos_right hm hscale)]
    · rw [Nat.compare_eq_eq.mpr rfl, Nat.compare_eq_eq.mpr rfl]
    · rw [Nat.compare_eq_gt.mpr hm, Nat.compare_eq_gt.mpr (Nat.mul_lt_mul_of_pos_right hm hscale)]
  · rw [Int.compare_eq_gt.mpr he, Nat.compare_eq_gt.mpr
      (magnitude_lt hm₂ (hn₁.resolve_right (by omega)) hl₂ he)]
    rfl

theorem compare_cast (a b : ℕ) : compare (a : ℤ) (b : ℤ) = compare a b := by
  rcases Nat.lt_trichotomy a b with h | rfl | h
  · rw [Nat.compare_eq_lt.mpr h, Int.compare_eq_lt.mpr (Int.ofNat_lt.mpr h)]
  · rw [Nat.compare_eq_eq.mpr rfl, Int.compare_eq_eq.mpr rfl]
  · rw [Nat.compare_eq_gt.mpr h, Int.compare_eq_gt.mpr (Int.ofNat_lt.mpr h)]

theorem compare_neg (a b : ℤ) : compare (-a) (-b) = (compare a b).swap := by
  rcases Int.lt_trichotomy a b with h | rfl | h
  · rw [Int.compare_eq_lt.mpr h, Int.compare_eq_gt.mpr (Int.neg_lt_neg h)]
    rfl
  · rw [Int.compare_eq_eq.mpr rfl, Int.compare_eq_eq.mpr rfl]
    rfl
  · rw [Int.compare_eq_gt.mpr h, Int.compare_eq_lt.mpr (Int.neg_lt_neg h)]
    rfl

variable {a : UnpackedFloat}

/-- **Finite doubles are compared as their values.** -/
theorem compare_scaled {b : UnpackedFloat} (ha : Canonical a) (hb : Canonical b)
    (hfa : a.isFinite = true) (hfb : b.isFinite = true) :
    a.compare b = some (compare (scaled a) (scaled b)) := by
  cases a with
  | infinity s => cases hfa
  | notANumber => cases hfa
  | zero s =>
    cases b with
    | infinity s' => cases hfb
    | notANumber => cases hfb
    | zero s' => rfl
    | finite s' m e hm =>
      have hpos : (0 : ℤ) < magnitude m e := Int.natCast_pos.mpr (magnitude_pos hm e)
      cases s' with
      | positive => exact congrArg some (Int.compare_eq_lt.mpr hpos).symm
      | negative => exact congrArg some (Int.compare_eq_gt.mpr (Int.neg_neg_of_pos hpos)).symm
  | finite s m e hm =>
    have hpos : (0 : ℤ) < magnitude m e := Int.natCast_pos.mpr (magnitude_pos hm e)
    cases b with
    | infinity s' => cases hfb
    | notANumber => cases hfb
    | zero s' =>
      cases s with
      | positive => exact congrArg some (Int.compare_eq_gt.mpr hpos).symm
      | negative => exact congrArg some (Int.compare_eq_lt.mpr (Int.neg_neg_of_pos hpos)).symm
    | finite s' m' e' hm' =>
      have hpos' : (0 : ℤ) < magnitude m' e' := Int.natCast_pos.mpr (magnitude_pos hm' e')
      have hcompare := compare_magnitude ha hb
      cases s with
      | positive =>
        cases s' with
        | positive => exact congrArg some (hcompare.trans (compare_cast _ _).symm)
        | negative =>
          exact congrArg some (Int.compare_eq_gt.mpr
            (Int.lt_trans (Int.neg_neg_of_pos hpos') hpos)).symm
      | negative =>
        cases s' with
        | positive =>
          exact congrArg some (Int.compare_eq_lt.mpr
            (Int.lt_trans (Int.neg_neg_of_pos hpos) hpos')).symm
        | negative =>
          refine congrArg some ((congrArg Ordering.swap hcompare).trans ?_)
          rw [← compare_cast, ← compare_neg]
          rfl

/-! ## To an integer -/

theorem shiftRight_mantissa (em : ExtendedMantissa) (k : ℕ) :
    (em >>> k).mantissa = em.mantissa / 2 ^ k := by
  induction k with
  | zero => simp [HShiftRight.hShiftRight, Nat.repeat]
  | succ k ih =>
    change (em >>> k).mantissa / 2 = _
    rw [ih, Nat.div_div_eq_div_mul, Nat.pow_succ]

variable {e : ℤ}

theorem magnitude_div (he : -1074 ≤ e) :
    magnitude m e / scale = m * 2 ^ e.toNat / 2 ^ (-e).toNat := by
  have hexponents : (e + 1074).toNat + (-e).toNat = e.toNat + fractionBits := by
    rw [fractionBits]
    omega
  calc m * 2 ^ (e + 1074).toNat / scale
    _ = m * 2 ^ (e + 1074).toNat * 2 ^ (-e).toNat / (scale * 2 ^ (-e).toNat) :=
      (Nat.mul_div_mul_right _ _ (Nat.two_pow_pos _)).symm
    _ = m * 2 ^ e.toNat * scale / (2 ^ (-e).toNat * scale) := by
      rw [Nat.mul_assoc, ← Nat.pow_add, hexponents, Nat.pow_add, ← Nat.mul_assoc,
        Nat.mul_comm scale]
      rfl
    _ = m * 2 ^ e.toNat / 2 ^ (-e).toNat := Nat.mul_div_mul_right _ _ scale_pos

theorem apply_tdiv (s : Sign) (n d : ℕ) : (s.apply n).tdiv d = s.apply ((n / d : ℕ) : ℤ) := by
  cases s with
  | positive => exact Int.ofNat_tdiv n d
  | negative => exact (Int.neg_tdiv _ _).trans (congrArg Neg.neg (Int.ofNat_tdiv n d))

/-- **A finite double is converted by dropping its fraction.** -/
theorem toInt_scaled (ha : Canonical a) (hfinite : a.isFinite = true) (lower upper : ℤ) :
    a.toInt lower upper = (scaled a).tdiv scale := by
  cases a with
  | infinity s => cases hfinite
  | notANumber => cases hfinite
  | zero s => exact (Int.zero_tdiv _).symm
  | finite s m e hm =>
    change s.apply ((ExtendedMantissa.mk (m <<< (e - 0).toNat) false false >>>
      (0 - (e - (e - 0).toNat)).toNat).mantissa : ℤ) = (s.apply (magnitude m e)).tdiv scale
    have hshift : (0 - (e - (e - 0).toNat)).toNat = (-e).toNat := by omega
    rw [shiftRight_mantissa, hshift, Int.sub_zero, apply_tdiv, magnitude_div ha.2.2.1,
      Nat.shiftLeft_eq]

/-! ## From an integer -/

def Representable (n : ℕ) : Prop :=
  ∃ m k, m < 2 ^ 53 ∧ n = m * 2 ^ k

theorem tdiv_representable (ha : Canonical a) : Representable ((scaled a).tdiv scale).natAbs := by
  have hzero : Representable ((0 : ℤ).tdiv scale).natAbs :=
    ⟨0, 0, by decide, by rw [Int.zero_tdiv]; rfl⟩
  cases a with
  | infinity s => exact hzero
  | notANumber => exact hzero
  | zero s => exact hzero
  | finite s m e hm =>
    obtain ⟨hbits, -, hlow, -⟩ := ha
    have habs : ((scaled (.finite s m e hm)).tdiv scale).natAbs =
        m * 2 ^ e.toNat / 2 ^ (-e).toNat := by
      rw [scaled, apply_tdiv, magnitude_div hlow]
      cases s with
      | positive => rfl
      | negative => exact Int.natAbs_neg _
    rw [habs]
    rcases Int.le_total 0 e with he | he
    · have hzero : (-e).toNat = 0 := by omega
      rw [hzero, Nat.pow_zero, Nat.div_one]
      exact ⟨m, e.toNat, hbits, rfl⟩
    · have hzero : e.toNat = 0 := by omega
      rw [hzero, Nat.pow_zero, Nat.mul_one]
      exact ⟨m / 2 ^ (-e).toNat, 0, Nat.lt_of_le_of_lt (Nat.div_le_self _ _) hbits,
        (Nat.mul_one _).symm⟩

theorem shiftRight_exact {k : ℕ} (h : 2 ^ k ∣ n) :
    ExtendedMantissa.mk n false false >>> k = ExtendedMantissa.mk (n / 2 ^ k) false false := by
  induction k with
  | zero => simp [HShiftRight.hShiftRight, Nat.repeat]
  | succ k ih =>
    obtain ⟨q, rfl⟩ := h
    have hstep := ih ⟨2 * q, by rw [Nat.pow_succ, Nat.mul_assoc]⟩
    have hquotient : 2 ^ (k + 1) * q / 2 ^ k = 2 * q := by
      rw [Nat.pow_succ, Nat.mul_assoc, Nat.mul_div_cancel_left _ (Nat.two_pow_pos k)]
    change ExtendedMantissa.shiftRightOne
      (ExtendedMantissa.mk (2 ^ (k + 1) * q) false false >>> k) = _
    rw [hstep, hquotient, Nat.mul_div_cancel_left _ (Nat.two_pow_pos (k + 1))]
    simp [ExtendedMantissa.shiftRightOne]

theorem log2_mul_two_pow {n : ℕ} (hn : 0 < n) (k : ℕ) : (n * 2 ^ k).log2 = n.log2 + k := by
  obtain ⟨hlow, hhigh⟩ := (Nat.log2_eq_iff (Nat.ne_of_gt hn)).mp rfl
  refine (Nat.log2_eq_iff (Nat.ne_of_gt (Nat.mul_pos hn (Nat.two_pow_pos k)))).mpr ⟨?_, ?_⟩
  · rw [Nat.pow_add]
    exact Nat.mul_le_mul_right _ hlow
  · rw [Nat.add_right_comm, Nat.pow_add]
    exact Nat.mul_lt_mul_of_pos_right hhigh (Nat.two_pow_pos k)

theorem shiftToTargetExponent_exact {t : ℤ} {q : ℕ}
    (ht : f.targetExponent (totalExponent n e) = t) (he : e ≤ t) (hq : n = q * 2 ^ (t - e).toNat) :
    shiftToTargetExponent f n e .exact = (⟨q, false, false⟩, t) := by
  rw [shiftToTargetExponent, ht, shiftToExponent]
  refine Prod.ext ?_ ?_
  · refine (shiftRight_exact (hq ▸ Nat.dvd_mul_left _ _)).trans ?_
    rw [hq, Nat.mul_div_cancel _ (Nat.two_pow_pos _)]
  · dsimp only
    omega

theorem round_exact {M : ℕ} {E : ℤ} (s : Sign) (hn : 0 < n) (he : -1074 ≤ e)
    (hmin : -1074 ≤ f.minExponent) (h : M < 2 ^ f.mantissaBits)
    (hE : f.minExponent ≤ E) (hE' : E ≤ maxExponent f)
    (hsame : magnitude n e = magnitude M E) :
    ∃ m x hm, UnpackedFloat.round f s n e = .finite s m x hm ∧
      magnitude m x = magnitude n e ∧ Within f m x := by
  obtain ⟨t, ht⟩ : ∃ t, f.targetExponent (totalExponent n e) = t := ⟨_, rfl⟩
  have hM : 0 < M := by
    have hpos : 0 < magnitude n e := Nat.mul_pos hn (Nat.two_pow_pos _)
    rw [hsame] at hpos
    exact Nat.pos_of_mul_pos_right hpos
  have hlog : (n.log2 : ℤ) + e = M.log2 + E := by
    have := congrArg Nat.log2 hsame
    rw [magnitude, magnitude, log2_mul_two_pow hn, log2_mul_two_pow hM] at this
    omega
  have hbits : M.log2 < f.mantissaBits := (Nat.log2_lt (Nat.ne_of_gt hM)).mpr h
  rw [Format.targetExponent, totalExponent] at ht
  obtain ⟨q, hq⟩ : ∃ q, q = M * 2 ^ (E - t).toNat := ⟨_, rfl⟩
  have hqpos : 0 < q := hq ▸ Nat.mul_pos hM (Nat.two_pow_pos _)
  have hqlog : q.log2 = M.log2 + (E - t).toNat := by rw [hq, log2_mul_two_pow hM]
  have hmagnitude : magnitude q t = magnitude n e := by
    rw [hsame, magnitude, magnitude, hq, Nat.mul_assoc, ← Nat.pow_add]
    congr 2
    omega
  have hagain : f.targetExponent (totalExponent q t) = t := by
    rw [Format.targetExponent, totalExponent]
    omega
  obtain ⟨a, ha⟩ : ∃ a, a = n * 2 ^ (e - t).toNat := ⟨_, rfl⟩
  obtain ⟨x, hx⟩ : ∃ x : ℤ, x = e - (e - t).toNat := ⟨_, rfl⟩
  have hapos : a = q * 2 ^ (t - x).toNat := by
    refine Nat.eq_of_mul_eq_mul_right (Nat.two_pow_pos (x + 1074).toNat) ?_
    have h1 : a * 2 ^ (x + 1074).toNat = magnitude n e := by
      rw [ha, magnitude, Nat.mul_assoc, ← Nat.pow_add]
      congr 2
      omega
    rw [h1, ← hmagnitude, magnitude, Nat.mul_assoc, ← Nat.pow_add]
    congr 2
    omega
  have halog : a.log2 = n.log2 + (e - t).toNat := by rw [ha, log2_mul_two_pow hn]
  have hstart : f.targetExponent (totalExponent a x) = t := by
    rw [Format.targetExponent, totalExponent]
    omega
  have hrounded : ExtendedMantissa.roundedMantissa ⟨q, false, false⟩ = q := rfl
  refine ⟨q, t, hqpos, ?_, hmagnitude, ?_, ?_, ?_, ?_⟩
  · rw [UnpackedFloat.round, Format.targetExponent, totalExponent, ht, decreaseExponent,
      Nat.shiftLeft_eq, ← ha, ← hx]
    dsimp only
    rw [roundWithAccuracy, shiftToTargetExponent_exact hstart (by omega) hapos]
    dsimp only
    rw [hrounded]
    rw [shiftToTargetExponent_exact (q := q) hagain (Int.le_refl _) (by simp)]
    rw [dif_neg (Nat.ne_of_gt hqpos)]
  · refine (Nat.log2_lt (Nat.ne_of_gt hqpos)).mp ?_
    omega
  · rcases Int.lt_or_le f.minExponent t with h | h
    · refine .inl (Nat.le_trans ?_ (Nat.log2_self_le (Nat.ne_of_gt hqpos)))
      have : f.mantissaBits = 1 + f.mantissaBitsWithoutImplicit := rfl
      refine Nat.pow_le_pow_right (by decide) ?_
      omega
    · exact .inr (by omega)
  · omega
  · omega

theorem unpack_pack_round {M : ℕ} {E : ℤ} (s : Sign) (hn : 0 < n) (he : -1074 ≤ e)
    (hmin : -1074 ≤ f.minExponent) (hbits : M < 2 ^ f.mantissaBits) (hlow : f.minExponent ≤ E)
    (hhigh : E ≤ maxExponent f) (hsame : magnitude n e = magnitude M E) :
    ∃ m x hm, UnpackedFloat.unpack f (UnpackedFloat.pack f (UnpackedFloat.round f s n e)) =
      .finite s m x hm ∧ magnitude m x = magnitude n e ∧ f.minExponent ≤ x := by
  obtain ⟨m, x, hm, hround, hmagnitude, hwithin⟩ :=
    round_exact s hn he hmin hbits hlow hhigh hsame
  rw [hround, unpack_pack hm hwithin]
  exact ⟨m, x, hm, rfl, hmagnitude, hwithin.low⟩

theorem pack_round_scaled (s : Sign) (hn : 0 < n) (hbound : n < 2 ^ 64) (h : Representable n) :
    (pack (UnpackedFloat.round Format.binary64 s n 0)).isFinite = true ∧
      scaled (pack (UnpackedFloat.round Format.binary64 s n 0)).unpack = s.apply n * scale := by
  obtain ⟨M, k, hM, heq⟩ := h
  have hk : k < 64 := by
    refine (Nat.pow_lt_pow_iff_right (by decide : 1 < 2)).mp (Nat.lt_of_le_of_lt ?_ hbound)
    rw [heq]
    exact Nat.le_mul_of_pos_left _ (Nat.pos_of_mul_pos_right (heq ▸ hn))
  have hsame : magnitude n 0 = magnitude M k := by
    have hzero : ((0 : ℤ) + 1074).toNat = fractionBits := rfl
    have hsum : ((k : ℤ) + 1074).toNat = k + fractionBits := by
      omega
    rw [magnitude, magnitude, hzero, heq, hsum, Nat.pow_add, Nat.mul_assoc]
  obtain ⟨m, x, hm, hround, hmagnitude, -⟩ := unpack_pack_round (f := .binary64) s hn (by decide)
    (by decide) hM (by change -1074 ≤ _; omega) (by change _ ≤ 971; omega) hsame
  have hunpack : (pack (UnpackedFloat.round Format.binary64 s n 0)).unpack = .finite s m x hm :=
    hround
  rw [Float.Model.isFinite, hunpack]
  have hzero : ((0 : ℤ) + 1074).toNat = fractionBits := rfl
  refine ⟨rfl, ?_⟩
  rw [scaled, hmagnitude, magnitude, hzero, ← scale]
  cases s with
  | positive => exact Int.natCast_mul _ _
  | negative => exact (congrArg Neg.neg (Int.natCast_mul _ _)).trans (Int.neg_mul _ _).symm

/-- **A representable integer is converted exactly.** -/
theorem ofInt_scaled {n : ℤ} (h : Representable n.natAbs) (hbound : n.natAbs < 2 ^ 64) :
    (Float.Model.ofInt n).isFinite = true ∧
      scaled (Float.Model.ofInt n).unpack = n * scale := by
  rw [Float.Model.ofInt, UnpackedFloat.ofInt, UnpackedFloat.normalize]
  rcases Int.lt_trichotomy n 0 with hn | rfl | hn
  · have habs : (-n).toNat = n.natAbs := by omega
    have hsign : Sign.negative.apply n.natAbs = n := by
      change -(n.natAbs : ℤ) = n
      omega
    have hround := pack_round_scaled .negative (by omega) hbound h
    rw [hsign] at hround
    rw [Int.compare_eq_lt.mpr hn]
    rw [habs]
    exact hround
  · exact ⟨rfl, (Int.zero_mul _).symm⟩
  · have habs : n.toNat = n.natAbs := by omega
    have hsign : Sign.positive.apply n.natAbs = n := by
      change (n.natAbs : ℤ) = n
      omega
    have hround := pack_round_scaled .positive (by omega) hbound h
    rw [hsign] at hround
    rw [Int.compare_eq_gt.mpr hn]
    rw [habs]
    exact hround

end Binary64
