import TurboScxml.Expr.Operators

/-!
# Checked arithmetic

* `exact`: the result of an arithmetic operator in the integers;
* `evaluateSintArithmetic_eq_some`: signed results are exact, and refused when out of range.
-/

namespace TurboScxml.Expr

/-- The exact result; none when the divisor is zero. -/
def exact (op : Opcode) (left right : ℤ) : Option ℤ :=
  match op with
  | .add => some (left + right)
  | .sub => some (left - right)
  | .mul => some (left * right)
  | .div => if right = 0 then none else some (left.tdiv right)
  | .mod => if right = 0 then none else some (left.tmod right)
  | _ => none

/-! ## Signed integers -/

/-- An integer that is in the range of `int64_t`. -/
def Fits (x : ℤ) : Prop :=
  -2 ^ 63 ≤ x ∧ x < 2 ^ 63

theorem fits_toInt (a : Int64) : Fits a.toInt :=
  ⟨a.le_toInt, a.toInt_lt⟩

variable {x : ℤ}

theorem Fits.bmod_eq (h : Fits x) : x.bmod (2 ^ 64) = x :=
  Int.bmod_eq_of_le (by have := h.1; omega) (by have := h.2; omega)

variable {a b : Int64}

theorem toInt_sub (h : Fits (a.toInt - b.toInt)) : (a - b).toInt = a.toInt - b.toInt := by
  rw [Int64.toInt_sub, h.bmod_eq]

theorem toInt_add (h : Fits (a.toInt + b.toInt)) : (a + b).toInt = a.toInt + b.toInt := by
  rw [Int64.toInt_add, h.bmod_eq]

variable {r : Int64}

theorem guarded_eq_some {p : Prop} [Decidable p] {result : Int64} (hguard : p ↔ ¬Fits x)
    (hresult : result.toInt = x.bmod (2 ^ 64)) :
    (if p then none else some result) = some r ↔ x = r.toInt := by
  by_cases hp : p
  · rw [if_pos hp]
    refine iff_of_false (fun h => by cases h) ?_
    rintro rfl
    exact hguard.mp hp (fits_toInt r)
  · have hfits : Fits x := not_not.mp (mt hguard.mpr hp)
    rw [if_neg hp, Option.some_inj, ← Int64.toInt_inj, hresult, hfits.bmod_eq]

theorem add_guard (a b : Int64) :
    ((0 < b ∧ Int64.maxValue - b < a) ∨ (b < 0 ∧ a < Int64.minValue - b)) ↔
      ¬Fits (a.toInt + b.toInt) := by
  obtain ⟨hb₁, hb₂⟩ := fits_toInt b
  obtain ⟨ha₁, ha₂⟩ := fits_toInt a
  simp only [Int64.lt_iff_toInt_lt, Int64.toInt_zero, Fits]
  rcases Int.lt_trichotomy b.toInt 0 with h | h | h
  · have hlow : (Int64.minValue - b).toInt = -2 ^ 63 - b.toInt := by
      refine toInt_sub ⟨?_, ?_⟩ <;> rw [Int64.toInt_minValue] <;> omega
    omega
  · omega
  · have hhigh : (Int64.maxValue - b).toInt = 2 ^ 63 - 1 - b.toInt := by
      refine toInt_sub ⟨?_, ?_⟩ <;> rw [Int64.toInt_maxValue] <;> omega
    omega

theorem sub_guard (a b : Int64) :
    ((0 < b ∧ a < Int64.minValue + b) ∨ (b < 0 ∧ Int64.maxValue + b < a)) ↔
      ¬Fits (a.toInt - b.toInt) := by
  obtain ⟨hb₁, hb₂⟩ := fits_toInt b
  obtain ⟨ha₁, ha₂⟩ := fits_toInt a
  simp only [Int64.lt_iff_toInt_lt, Int64.toInt_zero, Fits]
  rcases Int.lt_trichotomy b.toInt 0 with h | h | h
  · have hhigh : (Int64.maxValue + b).toInt = 2 ^ 63 - 1 + b.toInt := by
      refine toInt_add ⟨?_, ?_⟩ <;> rw [Int64.toInt_maxValue] <;> omega
    omega
  · omega
  · have hlow : (Int64.minValue + b).toInt = -2 ^ 63 + b.toInt := by
      refine toInt_add ⟨?_, ?_⟩ <;> rw [Int64.toInt_minValue] <;> omega
    omega

theorem toInt_div (h : b ≠ -1 ∨ a ≠ Int64.minValue) : (a / b).toInt = a.toInt.tdiv b.toInt := by
  rcases h with hb | ha
  · exact Int64.toInt_div_of_ne_right a b hb
  · exact Int64.toInt_div_of_ne_left a b ha

variable {n d : ℤ}

theorem tdiv_lt_iff (hn : 0 ≤ n) (hd : 0 < d) : n.tdiv d < x ↔ n < d * x := by
  rw [Int.tdiv_eq_ediv_of_nonneg hn, Int.ediv_lt_iff_lt_mul hd, Int.mul_comm]

theorem lt_neg_tdiv_iff (hn : 0 ≤ n) (hd : 0 < d) : x < -n.tdiv d ↔ d * x < -n := by
  have h := tdiv_lt_iff (x := -x) hn hd
  rw [Int.mul_neg] at h
  omega

theorem toInt_min_div (h : a ≠ -1) : (Int64.minValue / a).toInt = -Int.tdiv (2 ^ 63) a.toInt := by
  rw [toInt_div (.inl h), Int64.toInt_minValue, Int.neg_tdiv]

theorem toInt_max_div (a : Int64) : (Int64.maxValue / a).toInt = Int.tdiv (2 ^ 63 - 1) a.toInt := by
  rw [toInt_div (.inr (by decide)), Int64.toInt_maxValue]

theorem ne_neg_one (ha : 0 < a.toInt) : a ≠ -1 := by
  rintro rfl
  exact absurd ha (by decide)

theorem mul_guard_pos (ha : 0 < a.toInt) :
    ((0 < b ∧ Int64.maxValue / b < a) ∨ (b < 0 ∧ b < Int64.minValue / a)) ↔
      ¬Fits (a.toInt * b.toInt) := by
  simp only [Int64.lt_iff_toInt_lt, Int64.toInt_zero, toInt_max_div, toInt_min_div (ne_neg_one ha),
    lt_neg_tdiv_iff (show (0 : ℤ) ≤ 2 ^ 63 by decide) ha, Fits]
  rcases Int.lt_trichotomy b.toInt 0 with h | h | h
  · have hneg := Int.mul_neg_of_pos_of_neg ha h
    omega
  · rw [h, Int.mul_zero]
    omega
  · have hpos := Int.mul_pos ha h
    rw [tdiv_lt_iff (by decide) h, Int.mul_comm b.toInt]
    omega

theorem mul_guard_neg (ha : a.toInt < 0) :
    ((0 < b ∧ a < Int64.minValue / b) ∨ (b < 0 ∧ b < Int64.maxValue / a)) ↔
      ¬Fits (a.toInt * b.toInt) := by
  have hmax : b.toInt < Int.tdiv (2 ^ 63 - 1) a.toInt ↔ 2 ^ 63 - 1 < a.toInt * b.toInt := by
    have h := lt_neg_tdiv_iff (n := 2 ^ 63 - 1) (d := -a.toInt) (x := b.toInt) (by decide)
      (by omega)
    rw [Int.tdiv_neg, Int.neg_neg, Int.neg_mul] at h
    omega
  simp only [Int64.lt_iff_toInt_lt, Int64.toInt_zero, toInt_max_div, hmax, Fits]
  rcases Int.lt_trichotomy b.toInt 0 with h | h | h
  · have hpos := Int.mul_pos_of_neg_of_neg ha h
    omega
  · rw [h, Int.mul_zero]
    omega
  · have hneg := Int.mul_neg_of_neg_of_pos ha h
    rw [toInt_min_div (ne_neg_one h), lt_neg_tdiv_iff (by decide) h, Int.mul_comm b.toInt]
    omega

theorem checkedSintMultiply_eq_some :
    checkedSintMultiply a b = some r ↔ a.toInt * b.toInt = r.toInt := by
  have hresult := Int64.toInt_mul a b
  unfold checkedSintMultiply
  rcases Int.lt_trichotomy a.toInt 0 with ha | ha | ha
  · rw [if_neg (by rw [Int64.lt_iff_toInt_lt, Int64.toInt_zero]; omega),
      if_pos (by rw [Int64.lt_iff_toInt_lt, Int64.toInt_zero]; exact ha)]
    exact guarded_eq_some (mul_guard_neg ha) hresult
  · rw [if_neg (by rw [Int64.lt_iff_toInt_lt, Int64.toInt_zero]; omega),
      if_neg (by rw [Int64.lt_iff_toInt_lt, Int64.toInt_zero]; omega), Option.some_inj,
      ← Int64.toInt_inj, hresult, ha, Int.zero_mul]
    rfl
  · rw [if_pos (by rw [Int64.lt_iff_toInt_lt, Int64.toInt_zero]; exact ha)]
    exact guarded_eq_some (mul_guard_pos ha) hresult

theorem div_guard (hb : b ≠ 0) : (a = Int64.minValue ∧ b = -1) ↔ ¬Fits (a.toInt.tdiv b.toInt) := by
  constructor
  · rintro ⟨rfl, rfl⟩
    exact fun h => absurd h.2 (by decide)
  · intro hfits
    by_contra hmin
    have hquotient := toInt_div (a := a) (b := b) (by tauto)
    exact hfits (hquotient ▸ fits_toInt (a / b))

variable {op : Opcode}

/-- **Signed arithmetic is exact or refused.** -/
theorem evaluateSintArithmetic_eq_some (hop : arithmeticOpcode op = true) :
    evaluateSintArithmetic op a b = some r ↔
      exact op a.toInt b.toInt = some r.toInt ∧
        ¬(op = .mod ∧ a = Int64.minValue ∧ b = -1) := by
  have hzero : b.toInt = 0 ↔ b = 0 := by rw [← Int64.toInt_inj, Int64.toInt_zero]
  cases op with
  | add =>
    simp only [evaluateSintArithmetic, exact, Option.some_inj]
    rw [guarded_eq_some (add_guard a b) (Int64.toInt_add a b)]
    exact ⟨fun h => ⟨h, by rintro ⟨⟨⟩, -⟩⟩, And.left⟩
  | sub =>
    simp only [evaluateSintArithmetic, exact, Option.some_inj]
    rw [guarded_eq_some (sub_guard a b) (Int64.toInt_sub a b)]
    exact ⟨fun h => ⟨h, by rintro ⟨⟨⟩, -⟩⟩, And.left⟩
  | mul =>
    simp only [evaluateSintArithmetic, exact, Option.some_inj]
    rw [checkedSintMultiply_eq_some]
    exact ⟨fun h => ⟨h, by rintro ⟨⟨⟩, -⟩⟩, And.left⟩
  | div =>
    simp only [evaluateSintArithmetic, exact, hzero]
    by_cases hb : b = 0
    · rw [if_pos (.inl hb), if_pos hb]
      exact iff_of_false (fun h => by cases h) fun h => by cases h.1
    · simp only [hb, false_or, if_false, Option.some_inj]
      rw [guarded_eq_some (div_guard hb) (Int64.toInt_div a b)]
      exact ⟨fun h => ⟨h, by rintro ⟨⟨⟩, -⟩⟩, And.left⟩
  | mod =>
    simp only [evaluateSintArithmetic, exact, hzero]
    by_cases hb : b = 0
    · rw [if_pos (.inl hb), if_pos hb]
      exact iff_of_false (fun h => by cases h) fun h => by cases h.1
    · simp only [hb, false_or, if_false, Option.some_inj]
      by_cases hmin : a = Int64.minValue ∧ b = -1
      · rw [if_pos hmin]
        exact iff_of_false (fun h => by cases h) fun h => h.2 ⟨trivial, hmin⟩
      · rw [if_neg hmin, Option.some_inj, ← Int64.toInt_inj, Int64.toInt_mod]
        exact ⟨fun h => ⟨h, fun h => hmin h.2⟩, And.left⟩
  | neg => cases hop
  | band => cases hop
  | bor => cases hop
  | cmp => cases hop

/-! ## Unsigned integers -/

/-- **Unsigned arithmetic is exact or refused.** -/
theorem evaluateUintArithmetic_eq_some (hop : arithmeticOpcode op = true) {a b r : UInt64} :
    evaluateUintArithmetic op a b = some r ↔
      exact op a.toNat b.toNat = some (r.toNat : ℤ) := by
  have ha := a.toNat_lt
  have hb := b.toNat_lt
  have hr := r.toNat_lt
  have hmax : uint64Max.toNat = 2 ^ 64 - 1 := rfl
  have hzero : (b.toNat : ℤ) = 0 ↔ b = 0 := by
    rw [Int.natCast_eq_zero, ← UInt64.toNat_inj]
    rfl
  cases op with
  | add =>
    have hsub : (uint64Max - b).toNat = 2 ^ 64 - 1 - b.toNat :=
      UInt64.toNat_sub_of_le _ _ (UInt64.le_iff_toNat_le.mpr (by omega))
    simp only [evaluateUintArithmetic, exact, Option.some_inj, UInt64.lt_iff_toNat_lt, hsub]
    split_ifs with h
    · exact iff_of_false (fun h => by cases h) (by omega)
    · rw [Option.some_inj, ← UInt64.toNat_inj, UInt64.toNat_add]
      omega
  | sub =>
    simp only [evaluateUintArithmetic, exact, Option.some_inj, UInt64.lt_iff_toNat_lt]
    split_ifs with h
    · exact iff_of_false (fun h => by cases h) (by omega)
    · rw [Option.some_inj, ← UInt64.toNat_inj,
        UInt64.toNat_sub_of_le _ _ (UInt64.le_iff_toNat_le.mpr (by omega))]
      omega
  | mul =>
    have hfits : (b ≠ 0 ∧ uint64Max / b < a) ↔ 2 ^ 64 ≤ a.toNat * b.toNat := by
      rw [UInt64.lt_iff_toNat_lt, UInt64.toNat_div, hmax]
      by_cases hb : b = 0
      · rw [hb]
        simp
      · have hpos : 0 < b.toNat := Nat.pos_of_ne_zero fun h => hb (UInt64.toNat_inj.mp h)
        rw [and_iff_right hb, Nat.div_lt_iff_lt_mul hpos]
        omega
    simp only [evaluateUintArithmetic, exact, Option.some_inj, hfits, ← Int.natCast_mul,
      Int.natCast_inj]
    split_ifs with h
    · exact iff_of_false (fun h => by cases h) (by omega)
    · rw [Option.some_inj, ← UInt64.toNat_inj, UInt64.toNat_mul]
      omega
  | div =>
    simp only [evaluateUintArithmetic, exact, hzero, ← Int.ofNat_tdiv]
    split_ifs
    · rfl
    · rw [Option.some_inj, Option.some_inj, ← UInt64.toNat_inj, UInt64.toNat_div, Int.natCast_inj]
  | mod =>
    simp only [evaluateUintArithmetic, exact, hzero, ← Int.ofNat_tmod]
    split_ifs
    · rfl
    · rw [Option.some_inj, Option.some_inj, ← UInt64.toNat_inj, UInt64.toNat_mod, Int.natCast_inj]
  | neg => cases hop
  | band => cases hop
  | bor => cases hop
  | cmp => cases hop

end TurboScxml.Expr
