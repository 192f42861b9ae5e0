import Mathlib.Algebra.Order.Field.Basic
import Mathlib.Algebra.Order.Ring.Rat
import Mathlib.Algebra.Order.Ring.Cast
import TurboScxml.Expr.Arithmetic

/-!
# Comparison of numbers

* `numericCompare_eq`: two numbers are ordered as their values;
* `Exact`: what is expected of the operators of an evaluator;
* **`exprBinary_exact`**: both evaluators meet it, up to the refused remainder.
-/

namespace TurboScxml.Expr

open Float.Model Float.Model.UnpackedFloat Binary64

/-! ## Values -/

/-- The value of an unpacked double: `± m * 2 ^ e`. -/
def unpackedValue : UnpackedFloat → ℚ
  | .finite s m e _ => s.apply m * 2 ^ e
  | _ => 0

/-- The exact value of a number; infinities and NaN have none. -/
def rational : Value → Option ℚ
  | .sint integer => some integer.toInt
  | .uint uinteger => some uinteger.toNat
  | .float number => if number.isFinite then some (unpackedValue number.toModel.unpack) else none
  | _ => none

def Relation.holds : Relation → ℚ → ℚ → Prop
  | .eq, x, y => x = y
  | .ne, x, y => x ≠ y
  | .lt, x, y => x < y
  | .le, x, y => x ≤ y
  | .gt, x, y => x > y
  | .ge, x, y => x ≥ y

instance (rel : Relation) (x y : ℚ) : Decidable (rel.holds x y) := by
  cases rel <;> unfold Relation.holds <;> infer_instance

theorem unpackedValue_eq {a : UnpackedFloat} (ha : Bounded a) :
    unpackedValue a = (scaled a : ℚ) / (scale : ℕ) := by
  cases a with
  | infinity s => exact (zero_div _).symm
  | notANumber => exact (zero_div _).symm
  | zero s => exact (zero_div _).symm
  | finite s m e hm =>
    have hlow : -1074 ≤ e := ha
    have hsplit : ((e + 1074).toNat : ℤ) = e + (fractionBits : ℕ) := by
      rw [fractionBits]
      omega
    have hpow : (2 : ℚ) ^ (e + 1074).toNat = 2 ^ e * (scale : ℕ) := by
      rw [← zpow_natCast, hsplit, zpow_add₀ two_ne_zero, zpow_natCast, scale, Nat.cast_pow]
      rfl
    have hscale : ((scale : ℕ) : ℚ) ≠ 0 := Nat.cast_ne_zero.mpr (Nat.ne_of_gt scale_pos)
    rw [eq_div_iff hscale, unpackedValue, scaled, magnitude]
    cases s with
    | positive =>
      change ((m : ℤ) : ℚ) * 2 ^ e * _ = (((m * 2 ^ (e + 1074).toNat : ℕ) : ℤ) : ℚ)
      rw [Int.cast_natCast, Int.cast_natCast, Nat.cast_mul, Nat.cast_pow, Nat.cast_ofNat, hpow,
        mul_assoc]
    | negative =>
      change ((-m : ℤ) : ℚ) * 2 ^ e * _ = ((-((m * 2 ^ (e + 1074).toNat : ℕ) : ℤ) : ℤ) : ℚ)
      rw [Int.cast_neg, Int.cast_neg, Int.cast_natCast, Int.cast_natCast, Nat.cast_mul,
        Nat.cast_pow, Nat.cast_ofNat, hpow, mul_assoc, neg_mul]

/-! ## The order of two numbers -/

def orderOf (x y : ℤ) : ℤ :=
  if x < y then -1 else if y < x then 1 else 0

variable {x y : ℤ}

theorem orderOf_of_lt (h : x < y) : orderOf x y = -1 :=
  if_pos h

theorem orderOf_of_gt (h : y < x) : orderOf x y = 1 := by
  rw [orderOf, if_neg (by omega), if_pos h]

theorem neg_orderOf (x y : ℤ) : -orderOf x y = orderOf y x := by
  unfold orderOf
  split_ifs <;> omega

theorem scale_pos_int : (0 : ℤ) < scale :=
  Int.natCast_pos.mpr scale_pos

theorem orderOf_mul (x y : ℤ) : orderOf (x * scale) (y * scale) = orderOf x y := by
  simp only [orderOf, Int.mul_lt_mul_right scale_pos_int]

def key : Value → Option ℤ
  | .sint integer => some (integer.toInt * scale)
  | .uint uinteger => some (uinteger.toNat * scale)
  | .float number => if number.isFinite then some (scaled number.toModel.unpack) else none
  | _ => none

theorem finite_lt {x y : Float} (hx : x.isFinite = true) (hy : y.isFinite = true) :
    x < y ↔ scaled x.toModel.unpack < scaled y.toModel.unpack := by
  change decide ((x.toModel.unpack.compare y.toModel.unpack == some .lt) = true) = true ↔ _
  rw [compare_scaled (unpack_canonical _) (unpack_canonical _) hx hy, decide_eq_true_iff,
    beq_iff_eq, Option.some_inj, Int.compare_eq_lt]

theorem finite_le {x y : Float} (hx : x.isFinite = true) (hy : y.isFinite = true) :
    x ≤ y ↔ scaled x.toModel.unpack ≤ scaled y.toModel.unpack := by
  change decide ((x.toModel.unpack.compare y.toModel.unpack).any (·.isLE) = true) = true ↔ _
  rw [compare_scaled (unpack_canonical _) (unpack_canonical _) hx hy, decide_eq_true_iff,
    Option.any_some, Int.isLE_compare]

theorem isNaN_of_finite {x : Float} (h : x.isFinite = true) : x.isNaN = false := by
  change x.toModel.unpack.isFinite = true at h
  change x.toModel.unpack.isNaN = false
  cases hx : x.toModel.unpack with
  | infinity s => rfl
  | notANumber =>
    rw [hx] at h
    cases h
  | zero s => rfl
  | finite s m e hm => rfl

variable {n t : ℤ}

theorem orderOf_truncated (ht : t = x.tdiv scale) :
    (if n < t then -1 else if t < n then 1 else orderOf (t * scale) x) = orderOf (n * scale) x := by
  have hpos := scale_pos_int
  have hdivision := Int.mul_tdiv_add_tmod x scale
  rw [← ht, Int.mul_comm] at hdivision
  have hlow := Int.lt_tmod_of_pos x hpos
  have hhigh := Int.tmod_lt_of_pos x hpos
  split_ifs with hless hmore
  · have hmul : n * scale ≤ (t - 1) * scale := Int.mul_le_mul_of_nonneg_right (by omega) (by omega)
    rw [Int.sub_mul, Int.one_mul] at hmul
    exact (orderOf_of_lt (by omega)).symm
  · have hmul : (t + 1) * scale ≤ n * scale := Int.mul_le_mul_of_nonneg_right (by omega) (by omega)
    rw [Int.add_mul, Int.one_mul] at hmul
    exact (orderOf_of_gt (by omega)).symm
  · have heq : n = t := by omega
    rw [heq]

variable {b : ℤ}

theorem tdiv_lt_of_lt (hb : 0 < b) (h : x < b * scale) : x.tdiv scale < b := by
  have hpos := scale_pos_int
  rcases Int.le_total x 0 with hx | hx
  · exact Int.lt_of_le_of_lt ((Int.tdiv_le_tdiv hpos hx).trans (Int.zero_tdiv _).le) hb
  · by_contra hle
    have hmul : b * scale ≤ x.tdiv scale * scale :=
      Int.mul_le_mul_of_nonneg_right (by omega) hpos.le
    have hdivision := Int.mul_tdiv_add_tmod x scale
    rw [Int.mul_comm] at hdivision
    have hrest := Int.tmod_nonneg scale hx
    omega

theorem scaled_power {k : ℕ} {h : 0 < 2 ^ 52} :
    scaled (.finite .positive (2 ^ 52) k h) = 2 ^ (52 + k) * scale := by
  have hexponent : ((k : ℤ) + 1074).toNat = k + fractionBits := by
    rw [fractionBits]
    omega
  change ((2 ^ 52 * 2 ^ ((k : ℤ) + 1074).toNat : ℕ) : ℤ) = _
  rw [hexponent, Nat.pow_add, ← Nat.mul_assoc, ← Nat.pow_add, Int.natCast_mul, Int.natCast_pow]
  rfl

theorem scaled_sint64UpperBound : scaled sint64UpperBound.toModel.unpack = 2 ^ 63 * scale := by
  exact scaled_power (k := 11)

theorem scaled_neg_sint64UpperBound :
    scaled (-sint64UpperBound).toModel.unpack = -(2 ^ 63 * scale) := by
  exact congrArg Neg.neg (scaled_power (k := 11) (h := by decide))

theorem scaled_uint64UpperBound : scaled uint64UpperBound.toModel.unpack = 2 ^ 64 * scale := by
  exact scaled_power (k := 12)

theorem order_truncated {p q r s : Prop} [Decidable p] [Decidable q] [Decidable r] [Decidable s]
    (ht : t = x.tdiv scale) (hp : p ↔ n < t) (hq : q ↔ t < n) (hr : r ↔ t * scale < x)
    (hs : s ↔ x < t * scale) :
    (if p then ⟨-1, false⟩ else if q then ⟨1, false⟩
      else ⟨if r then -1 else if s then 1 else 0, false⟩) =
        Order.mk (orderOf (n * scale) x) false := by
  simp only [hp, hq, hr, hs]
  rw [← orderOf_truncated ht, orderOf]
  split_ifs <;> rfl

variable {number : Float}

theorem castSint_toInt (h : number.isFinite = true)
    (hlow : -(2 ^ 63 * (scale : ℤ)) ≤ scaled number.toModel.unpack)
    (hhigh : scaled number.toModel.unpack < 2 ^ 63 * scale) :
    (castSint number).toInt = (scaled number.toModel.unpack).tdiv scale := by
  have hupper := tdiv_lt_of_lt (b := 2 ^ 63) (by decide) hhigh
  have hlower : -2 ^ 63 ≤ (scaled number.toModel.unpack).tdiv scale :=
    Int.le_tdiv_of_mul_le scale_pos_int (by rw [Int.neg_mul]; exact hlow)
  change (Int64.ofIntClamp (number.toModel.unpack.toInt _ _)).toInt = _
  rw [toInt_scaled (unpack_canonical _) h,
    Int64.toInt_ofIntClamp (by rw [Int64.toInt_minValue]; exact hlower)
      (by rw [Int64.toInt_maxValue]; omega)]

/-- The same for the range of `uint64_t`. -/
theorem castUint_toNat (h : number.isFinite = true) (hlow : 0 ≤ scaled number.toModel.unpack)
    (hhigh : scaled number.toModel.unpack < 2 ^ 64 * scale) :
    (number.toUInt64.toNat : ℤ) = (scaled number.toModel.unpack).tdiv scale := by
  have hupper := tdiv_lt_of_lt (b := 2 ^ 64) (by decide) hhigh
  have hlower : 0 ≤ (scaled number.toModel.unpack).tdiv scale :=
    Int.tdiv_nonneg hlow scale_pos_int.le
  have hsize : ((scaled number.toModel.unpack).tdiv scale).toNat < UInt64.size := by
    change _ < 2 ^ 64
    omega
  change ((UInt64.ofNatClamp (number.toModel.unpack.toInt _ _).toNat).toNat : ℤ) = _
  rw [toInt_scaled (unpack_canonical _) h, UInt64.ofNatClamp, dif_pos hsize,
    UInt64.toNat_ofNatLT]
  omega

theorem compareSintFloat_eq {integer : Int64} (h : number.isFinite = true) :
    compareSintFloat integer number =
      ⟨orderOf (integer.toInt * scale) (scaled number.toModel.unpack), false⟩ := by
  have hcanonical := unpack_canonical number.toModel
  have hpos := scale_pos_int
  obtain ⟨hmin, hmax⟩ := fits_toInt integer
  rw [compareSintFloat, if_neg (by rw [isNaN_of_finite h]; decide)]
  simp only [finite_le (x := sint64UpperBound) rfl h, finite_lt (y := -sint64UpperBound) h rfl,
    scaled_sint64UpperBound, scaled_neg_sint64UpperBound]
  by_cases hhigh : 2 ^ 63 * (scale : ℤ) ≤ scaled number.toModel.unpack
  · rw [if_pos hhigh, orderOf_of_lt]
    exact Int.lt_of_lt_of_le (Int.mul_lt_mul_of_pos_right hmax hpos) hhigh
  rw [if_neg hhigh]
  by_cases hlow : scaled number.toModel.unpack < -(2 ^ 63 * (scale : ℤ))
  · rw [if_pos hlow, orderOf_of_gt]
    refine Int.lt_of_lt_of_le hlow ?_
    rw [← Int.neg_mul]
    exact Int.mul_le_mul_of_nonneg_right hmin hpos.le
  rw [if_neg hlow]
  have htruncated := castSint_toInt h (Int.not_lt.mp hlow) (Int.not_le.mp hhigh)
  have hintegral := ofInt_scaled (n := (castSint number).toInt)
    (htruncated ▸ tdiv_representable hcanonical) (by
      obtain ⟨hlower, hupper⟩ := fits_toInt (castSint number)
      omega)
  refine order_truncated htruncated ?_ ?_ ?_ ?_
  · exact Int64.lt_iff_toInt_lt
  · exact Int64.lt_iff_toInt_lt
  · rw [← hintegral.2]
    exact finite_lt hintegral.1 h
  · rw [← hintegral.2]
    exact finite_lt h hintegral.1

theorem scaled_zero : scaled (0.0 : Float).toModel.unpack = 0 := by
  rfl

theorem compareUintFloat_eq {integer : UInt64} (h : number.isFinite = true) :
    compareUintFloat integer number =
      ⟨orderOf (integer.toNat * scale) (scaled number.toModel.unpack), false⟩ := by
  have hcanonical := unpack_canonical number.toModel
  have hpos := scale_pos_int
  have hmax : (integer.toNat : ℤ) < 2 ^ 64 := by
    have := integer.toNat_lt
    omega
  rw [compareUintFloat, if_neg (by rw [isNaN_of_finite h]; decide)]
  simp only [finite_le (x := uint64UpperBound) rfl h, finite_lt (y := 0.0) h rfl,
    scaled_uint64UpperBound, scaled_zero]
  by_cases hhigh : 2 ^ 64 * (scale : ℤ) ≤ scaled number.toModel.unpack
  · rw [if_pos hhigh, orderOf_of_lt]
    exact Int.lt_of_lt_of_le (Int.mul_lt_mul_of_pos_right hmax hpos) hhigh
  rw [if_neg hhigh]
  by_cases hlow : scaled number.toModel.unpack < 0
  · rw [if_pos hlow, orderOf_of_gt]
    exact Int.lt_of_lt_of_le hlow (Int.mul_nonneg (Int.natCast_nonneg _) hpos.le)
  rw [if_neg hlow]
  have htruncated := castUint_toNat h (Int.not_lt.mp hlow) (Int.not_le.mp hhigh)
  have hintegral := ofInt_scaled (n := number.toUInt64.toNat)
    (htruncated ▸ tdiv_representable hcanonical) number.toUInt64.toNat_lt
  refine order_truncated htruncated ?_ ?_ ?_ ?_
  · rw [UInt64.lt_iff_toNat_lt, Int.ofNat_lt]
  · rw [UInt64.lt_iff_toNat_lt, Int.ofNat_lt]
  · rw [← hintegral.2]
    exact finite_lt hintegral.1 h
  · rw [← hintegral.2]
    exact finite_lt h hintegral.1

theorem key_float (h : key (.float number) = some x) :
    number.isFinite = true ∧ scaled number.toModel.unpack = x := by
  rw [key] at h
  split_ifs at h with hfinite
  exact ⟨hfinite, Option.some_inj.mp h⟩

theorem toNat_toUInt64 {a : Int64} (h : 0 ≤ a.toInt) : (a.toUInt64.toNat : ℤ) = a.toInt := by
  rw [Int64.toNat_toUInt64_of_le (Int64.le_iff_toInt_le.mpr (by rw [Int64.toInt_zero]; exact h))]
  exact Int.toNat_of_nonneg h

theorem orderOf_sint_uint (a : Int64) (b : UInt64) :
    (if a < 0 then -1 else if a.toUInt64 < b then -1 else if b < a.toUInt64 then 1 else 0) =
      orderOf a.toInt b.toNat := by
  simp only [Int64.lt_iff_toInt_lt, Int64.toInt_zero, UInt64.lt_iff_toNat_lt]
  by_cases hneg : a.toInt < 0
  · rw [if_pos hneg, orderOf_of_lt (by omega)]
  · rw [if_neg hneg, ← toNat_toUInt64 (by omega), orderOf]
    simp only [Int.ofNat_lt]

theorem orderOf_uint_sint (a : UInt64) (b : Int64) :
    (if b < 0 then 1 else if a < b.toUInt64 then -1 else if b.toUInt64 < a then 1 else 0) =
      orderOf a.toNat b.toInt := by
  simp only [Int64.lt_iff_toInt_lt, Int64.toInt_zero, UInt64.lt_iff_toNat_lt]
  by_cases hneg : b.toInt < 0
  · rw [if_pos hneg, orderOf_of_gt (by omega)]
  · rw [if_neg hneg, ← toNat_toUInt64 (by omega), orderOf]
    simp only [Int.ofNat_lt]

variable {left right : Value}

/-- **Two numbers are ordered as their values.** -/
theorem numericCompare_eq (hx : key left = some x) (hy : key right = some y) :
    numericCompare left right = some ⟨orderOf x y, false⟩ := by
  cases left with
  | undefined => cases hx
  | bool left => cases hx
  | string left => cases hx
  | sint left =>
    cases hx
    cases right with
    | undefined => cases hy
    | bool right => cases hy
    | string right => cases hy
    | sint right =>
      cases hy
      rw [orderOf_mul]
      simp only [numericCompare, Int64.lt_iff_toInt_lt]
      rfl
    | uint right =>
      cases hy
      rw [orderOf_mul, ← orderOf_sint_uint]
      rfl
    | float right =>
      obtain ⟨hfinite, rfl⟩ := key_float hy
      exact congrArg some (compareSintFloat_eq hfinite)
  | uint left =>
    cases hx
    cases right with
    | undefined => cases hy
    | bool right => cases hy
    | string right => cases hy
    | sint right =>
      cases hy
      rw [orderOf_mul, ← orderOf_uint_sint]
      rfl
    | uint right =>
      cases hy
      rw [orderOf_mul]
      simp only [numericCompare, UInt64.lt_iff_toNat_lt, ← Int.ofNat_lt]
      rfl
    | float right =>
      obtain ⟨hfinite, rfl⟩ := key_float hy
      exact congrArg some (compareUintFloat_eq hfinite)
  | float left =>
    obtain ⟨hfinite, rfl⟩ := key_float hx
    cases right with
    | undefined => cases hy
    | bool right => cases hy
    | string right => cases hy
    | sint right =>
      cases hy
      simp only [numericCompare, compareSintFloat_eq hfinite, neg_orderOf]
    | uint right =>
      cases hy
      simp only [numericCompare, compareUintFloat_eq hfinite, neg_orderOf]
    | float right =>
      obtain ⟨hfinite', rfl⟩ := key_float hy
      simp only [numericCompare, isNaN_of_finite hfinite, isNaN_of_finite hfinite',
        finite_lt hfinite hfinite', finite_lt hfinite' hfinite]
      rfl

/-! ## Relations -/

theorem rational_eq {v : Value} {x : ℚ} (h : rational v = some x) :
    ∃ k : ℤ, key v = some k ∧ x = k / (scale : ℕ) := by
  have hscale : ((scale : ℕ) : ℚ) ≠ 0 := Nat.cast_ne_zero.mpr (Nat.ne_of_gt scale_pos)
  cases v with
  | undefined => cases h
  | bool b => cases h
  | string s => cases h
  | sint integer =>
    cases h
    refine ⟨_, rfl, ?_⟩
    rw [Int.cast_mul, Int.cast_natCast, mul_div_cancel_right₀ _ hscale]
  | uint uinteger =>
    cases h
    refine ⟨_, rfl, ?_⟩
    rw [Int.cast_mul, Int.cast_natCast, Int.cast_natCast, mul_div_cancel_right₀ _ hscale]
  | float number =>
    rw [rational] at h
    split_ifs at h with hfinite
    cases h
    exact ⟨_, if_pos hfinite, unpackedValue_eq (unpack_canonical _).bounded⟩

theorem div_scale_lt {a : ℤ} : (a : ℚ) / (scale : ℕ) < b / (scale : ℕ) ↔ a < b := by
  rw [div_lt_div_iff_of_pos_right (Nat.cast_pos.mpr scale_pos), Int.cast_lt]

/-- **A relation of numbers is that of their values.** -/
theorem comparisonResult_holds (rel : Relation) (a b : ℤ) :
    comparisonResult rel.comparison ⟨orderOf a b, false⟩ =
      decide (rel.holds (a / (scale : ℕ)) (b / (scale : ℕ))) := by
  have hlt := div_scale_lt (a := a) (b := b)
  have hgt := div_scale_lt (a := b) (b := a)
  rcases Int.lt_trichotomy a b with h | rfl | h
  · have hq := hlt.mpr h
    rw [orderOf_of_lt h]
    cases rel with
    | eq => exact (decide_eq_false hq.ne).symm
    | ne => exact (decide_eq_true hq.ne).symm
    | lt => exact (decide_eq_true hq).symm
    | le => exact (decide_eq_true hq.le).symm
    | gt => exact (decide_eq_false hq.asymm).symm
    | ge => exact (decide_eq_false (not_le.mpr hq)).symm
  · have hself : orderOf a a = 0 := by
      rw [orderOf, if_neg (lt_irrefl a), if_neg (lt_irrefl a)]
    rw [hself]
    cases rel with
    | eq => exact (decide_eq_true rfl).symm
    | ne => exact (decide_eq_false (not_not.mpr rfl)).symm
    | lt => exact (decide_eq_false (lt_irrefl _)).symm
    | le => exact (decide_eq_true (le_refl _)).symm
    | gt => exact (decide_eq_false (lt_irrefl _)).symm
    | ge => exact (decide_eq_true (le_refl _)).symm
  · have hq := hgt.mpr h
    rw [orderOf_of_gt h]
    cases rel with
    | eq => exact (decide_eq_false hq.ne').symm
    | ne => exact (decide_eq_true hq.ne').symm
    | lt => exact (decide_eq_false hq.asymm).symm
    | le => exact (decide_eq_false (not_le.mpr hq)).symm
    | gt => exact (decide_eq_true hq).symm
    | ge => exact (decide_eq_true hq.le).symm

def Value.isNumeric : Value → Bool
  | .sint _ | .uint _ | .float _ => true
  | _ => false

def Value.isNaN : Value → Bool
  | .float number => number.isNaN
  | _ => false

theorem numericCompare_nan (hl : left.isNumeric = true) (hr : right.isNumeric = true)
    (h : (left.isNaN || right.isNaN) = true) :
    numericCompare left right = some ⟨0, true⟩ := by
  cases left with
  | undefined => cases hl
  | bool left => cases hl
  | string left => cases hl
  | sint left =>
    cases right with
    | undefined => cases hr
    | bool right => cases hr
    | string right => cases hr
    | sint right => cases h
    | uint right => cases h
    | float right => exact congrArg some (if_pos h)
  | uint left =>
    cases right with
    | undefined => cases hr
    | bool right => cases hr
    | string right => cases hr
    | sint right => cases h
    | uint right => cases h
    | float right => exact congrArg some (if_pos h)
  | float left =>
    cases right with
    | undefined => cases hr
    | bool right => cases hr
    | string right => cases hr
    | sint right =>
      have hnan : left.isNaN = true := (Bool.or_false _).symm.trans h
      rw [numericCompare, compareSintFloat, if_pos hnan]
      rfl
    | uint right =>
      have hnan : left.isNaN = true := (Bool.or_false _).symm.trans h
      rw [numericCompare, compareUintFloat, if_pos hnan]
      rfl
    | float right =>
      have hnan : (left.isNaN || right.isNaN) = true := h
      rw [numericCompare, if_pos hnan]

theorem comparisonResult_unordered (rel : Relation) :
    comparisonResult rel.comparison ⟨0, true⟩ = decide (rel = .ne) := by
  cases rel <;> rfl

/-! ## The operators of an evaluator -/

/-- What is expected: a result exactly when it is defined and in range, but for a remainder of the
least integer by `-1`. -/
structure Exact (binary : Opcode → UInt32 → Value → Value → Option Value) : Prop where
  sint {op : Opcode} (hop : arithmeticOpcode op = true) (arg : UInt32) (a b : Int64) (v : Value) :
    binary op arg (.sint a) (.sint b) = some v ↔
      ∃ r : Int64, v = .sint r ∧ exact op a.toInt b.toInt = some r.toInt ∧
        ¬(op = .mod ∧ a = Int64.minValue ∧ b = -1)
  uint {op : Opcode} (hop : arithmeticOpcode op = true) (arg : UInt32) (a b : UInt64) (v : Value) :
    binary op arg (.uint a) (.uint b) = some v ↔
      ∃ r : UInt64, v = .uint r ∧ exact op a.toNat b.toNat = some (r.toNat : ℤ)
  mixed {op : Opcode} (hop : arithmeticOpcode op = true) (arg : UInt32) (a : Int64) (b : UInt64) :
    binary op arg (.sint a) (.uint b) = none ∧ binary op arg (.uint b) (.sint a) = none
  related (rel : Relation) {left right : Value} {x y : ℚ} (hx : rational left = some x)
    (hy : rational right = some y) :
    binary .cmp rel.comparison left right = some (.bool (decide (rel.holds x y)))
  unordered (rel : Relation) {left right : Value} (hl : left.isNumeric = true)
    (hr : right.isNumeric = true) (h : (left.isNaN || right.isNaN) = true) :
    binary .cmp rel.comparison left right = some (.bool (decide (rel = .ne)))

theorem exprBinary_arithmetic {op : Opcode} (hop : arithmeticOpcode op = true) (arg : UInt32)
    (left right : Value) :
    Scxml.exprBinary op arg left right = exprArithmeticBinary op left right :=
  if_pos hop

theorem exprBinary_compare (rel : Relation) {found : Order}
    (h : numericCompare left right = some found) :
    Scxml.exprBinary .cmp rel.comparison left right =
      some (.bool (comparisonResult rel.comparison found)) := by
  have harg : ¬(Opcode.cmp ≠ .cmp ∨ 5 < rel.comparison) := by
    cases rel <;> decide
  rw [Scxml.exprBinary, if_neg (by decide), if_neg (by decide), if_neg harg]
  split
  · cases h
  · cases h
  · rw [h]
    rfl

theorem voice_exprBinary (failed : Bool) (op : Opcode) (arg : UInt32) (left right : Value) :
    (Voice.exprBinary failed op arg left right).1 = Scxml.exprBinary op arg left right := by
  simp only [Voice.exprBinary, Scxml.exprBinary]
  by_cases harithmetic : arithmeticOpcode op = true
  · rw [if_pos harithmetic, if_pos harithmetic]
  rw [if_neg harithmetic, if_neg harithmetic]
  by_cases hlogical : op = .band ∨ op = .bor
  · rw [if_pos hlogical, if_pos hlogical]
  rw [if_neg hlogical, if_neg hlogical]
  by_cases hcompare : op = .cmp ∧ arg ≤ 5
  · rw [if_pos hcompare, if_neg (not_or.mpr ⟨not_not.mpr hcompare.1, UInt32.not_lt.mpr hcompare.2⟩)]
    have hmap : ∀ found : Option Order,
        (found.map fun found => Value.bool (comparisonResult arg found)) =
          found.bind fun found => some (.bool (comparisonResult arg found)) := fun found => by
      cases found <;> rfl
    refine (hmap _).trans ?_
    cases left with
    | undefined => rfl
    | sint left => rfl
    | uint left => rfl
    | float left => rfl
    | string left => cases right <;> rfl
    | bool left =>
      cases right with
      | undefined => rfl
      | sint right => rfl
      | uint right => rfl
      | float right => rfl
      | string right => rfl
      | bool right =>
        dsimp only
        by_cases harg : arg ≤ 1
        · rw [if_pos harg, if_neg (UInt32.not_lt.mpr harg)]
          rfl
        · rw [if_neg harg, if_pos (UInt32.not_le.mp harg)]
          rfl
  · have hrefused : op ≠ .cmp ∨ 5 < arg := by
      rw [← UInt32.not_le]
      tauto
    rw [if_neg hcompare, if_pos hrefused]

/-- **Main.** The operators of both evaluators are exact. -/
theorem exprBinary_exact : Exact Scxml.exprBinary ∧
    ∀ failed, Exact fun op arg left right => (Voice.exprBinary failed op arg left right).1 := by
  have hscxml : Exact Scxml.exprBinary := by
    constructor
    · intro op hop arg a b v
      rw [exprBinary_arithmetic hop, exprArithmeticBinary, Option.map_eq_some_iff]
      constructor
      · rintro ⟨r, hr, rfl⟩
        exact ⟨r, rfl, (evaluateSintArithmetic_eq_some hop).mp hr⟩
      · rintro ⟨r, rfl, hr⟩
        exact ⟨r, (evaluateSintArithmetic_eq_some hop).mpr hr, rfl⟩
    · intro op hop arg a b v
      rw [exprBinary_arithmetic hop, exprArithmeticBinary, Option.map_eq_some_iff]
      constructor
      · rintro ⟨r, hr, rfl⟩
        exact ⟨r, rfl, (evaluateUintArithmetic_eq_some hop).mp hr⟩
      · rintro ⟨r, rfl, hr⟩
        exact ⟨r, (evaluateUintArithmetic_eq_some hop).mpr hr, rfl⟩
    · intro op hop arg a b
      rw [exprBinary_arithmetic hop, exprBinary_arithmetic hop]
      exact ⟨rfl, rfl⟩
    · intro rel left right x y hx hy
      obtain ⟨a, ha, rfl⟩ := rational_eq hx
      obtain ⟨b, hb, rfl⟩ := rational_eq hy
      rw [exprBinary_compare rel (numericCompare_eq ha hb), comparisonResult_holds]
    · intro rel left right hl hr h
      rw [exprBinary_compare rel (numericCompare_nan hl hr h), comparisonResult_unordered]
  refine ⟨hscxml, fun failed => ?_⟩
  have hvoice : (fun op arg left right => (Voice.exprBinary failed op arg left right).1) =
      Scxml.exprBinary := by
    funext op arg left right
    exact voice_exprBinary failed op arg left right
  rw [hvoice]
  exact hscxml

/-- Both the remainder and the mixed sum are refused. -/
theorem exprBinary_refuses :
    (Scxml.exprBinary .mod 0 (.sint Int64.minValue) (.sint (-1)) = none ∧
      exact .mod Int64.minValue.toInt (-1 : Int64).toInt = some 0) ∧
    Scxml.exprBinary .add 0 (.sint 1) (.uint 1) = none := by
  refine ⟨⟨?_, ?_⟩, ?_⟩ <;> decide

end TurboScxml.Expr
