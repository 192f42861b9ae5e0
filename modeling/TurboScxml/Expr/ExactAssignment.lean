import TurboScxml.Expr.Assignment

/-!
# Exact assignments

An assignment stores a value just when its destination has a place for it, and keeps what lies
there when it stores nothing, with the exceptions that `assignApply_exact_iff` names: an enum or a
string is cleared before its operations refuse a value, and a NaN is not converted to 32 bits.

* `Value.meaning`, `Destination.Contains`: what a value stands for, and what has a place;
* `Stores`, `Outcome`: what becomes of a value, and of the object at its destination.
-/

namespace TurboScxml.Expr

open Float.Model Float.Model.UnpackedFloat Binary64

/-! ## What values and objects mean -/

/-- What a value or an object stands for. -/
inductive Meaning where
  | bool (boolean : Bool)
  | number (value : ℚ)
  | infinity (sign : Sign)
  | nan
  | string (bytes : List UInt8)

def floatMeaning : UnpackedFloat → Meaning
  | .infinity s => .infinity s
  | .notANumber => .nan
  | u => .number (unpackedValue u)

def Value.meaning : Value → Option Meaning
  | .undefined => none
  | .bool truth => some (.bool truth)
  | .sint integer => some (.number integer.toInt)
  | .uint uinteger => some (.number uinteger.toNat)
  | .float number => some (floatMeaning number.toModel.unpack)
  | .string str => some (.string str)

def Object.scalar : Object → Option Meaning
  | .bool value => some (.bool value)
  | .int8 value => some (.number value.toInt)
  | .int16 value => some (.number value.toInt)
  | .int32 value => some (.number value.toInt)
  | .int64 value => some (.number value.toInt)
  | .uint8 value => some (.number value.toNat)
  | .uint16 value => some (.number value.toNat)
  | .uint32 value => some (.number value.toNat)
  | .uint64 value => some (.number value.toNat)
  | .single value => some (floatMeaning value.toModel.unpack)
  | .double value => some (floatMeaning value.toModel.unpack)
  | .custom _ => none

def Destination.meaning (object : Object) : Destination → Option Meaning
  | .enum ops => some (.number (ops.read object).toInt)
  | .string ops => some (.string (ops.read object))
  | _ => object.scalar

def IsWidth (bits : UInt8) : Prop := bits = 8 ∨ bits = 16 ∨ bits = 32 ∨ bits = 64

def SignedFits (bits : UInt8) (n : ℤ) : Prop :=
  IsWidth bits ∧ -2 ^ (bits.toNat - 1) ≤ n ∧ n < 2 ^ (bits.toNat - 1)

def UnsignedFits (bits : UInt8) (n : ℤ) : Prop := IsWidth bits ∧ 0 ≤ n ∧ n < 2 ^ bits.toNat

def Destination.Contains (maxStringBytes : ℕ) : Destination → Meaning → Prop
  | .bool, .bool _ => True
  | .sint bits, .number q => ∃ n : ℤ, q = n ∧ SignedFits bits n
  | .uint bits, .number q => ∃ n : ℤ, q = n ∧ UnsignedFits bits n
  | .float bits, meaning =>
    (bits = 32 ∧ ∃ x : Float32, floatMeaning x.toModel.unpack = meaning) ∨
      (bits = 64 ∧ ∃ x : Float, floatMeaning x.toModel.unpack = meaning)
  | .enum ops, .number q => ∃ n : Int64, q = n.toInt ∧ ops.values n = true
  | .string _, .string bytes => bytes.length ≤ maxStringBytes
  | _, _ => False

/-! ## Floats -/

theorem div_scale_inj {a b : ℤ} : (a : ℚ) / (scale : ℕ) = b / (scale : ℕ) ↔ a = b := by
  rw [div_left_inj' (Nat.cast_ne_zero.mpr (Nat.ne_of_gt scale_pos)), Int.cast_inj]

variable {a b : UnpackedFloat}

theorem floatMeaning_finite (hfinite : a.isFinite = true) :
    floatMeaning a = .number (unpackedValue a) := by
  cases a with
  | infinity s => cases hfinite
  | notANumber => cases hfinite
  | zero s => rfl
  | finite s m e hm => rfl

theorem floatMeaning_int (ha : Bounded a) (n : ℤ) :
    floatMeaning a = .number n ↔ a.isFinite = true ∧ scaled a = n * scale := by
  have hscale : ((scale : ℕ) : ℚ) ≠ 0 := Nat.cast_ne_zero.mpr (Nat.ne_of_gt scale_pos)
  by_cases hfinite : a.isFinite = true
  · rw [floatMeaning_finite hfinite, unpackedValue_eq ha, Meaning.number.injEq, div_eq_iff hscale,
      ← Int.cast_natCast, ← Int.cast_mul, Int.cast_inj]
    exact (and_iff_right hfinite).symm
  · refine iff_of_false (fun h => hfinite ?_) (fun h => hfinite h.1)
    cases a with
    | infinity s => cases h
    | notANumber => cases h
    | zero s => rfl
    | finite s m e hm => rfl

theorem compare_eq_iff (ha : Canonical a) (hb : Canonical b) :
    a.compare b = some .eq ↔ floatMeaning a = floatMeaning b ∧ floatMeaning a ≠ .nan := by
  by_cases hfinite : a.isFinite = true ∧ b.isFinite = true
  · rw [compare_scaled ha hb hfinite.1 hfinite.2, floatMeaning_finite hfinite.1,
      floatMeaning_finite hfinite.2, unpackedValue_eq ha.bounded, unpackedValue_eq hb.bounded,
      Option.some_inj, Int.compare_eq_eq, Meaning.number.injEq, div_scale_inj]
    exact (and_iff_left Meaning.noConfusion).symm
  · have hsame : ∀ s : Sign, compare s s = .eq := by
      intro s
      cases s <;> rfl
    cases a with
    | notANumber => exact iff_of_false (fun h => by cases h) fun h => h.2 rfl
    | infinity s =>
      cases b with
      | infinity s' => cases s <;> cases s' <;> simp [UnpackedFloat.compare, floatMeaning, hsame]
      | _ => cases s <;> simp [UnpackedFloat.compare, floatMeaning]
    | _ =>
      cases b with
      | infinity s' => cases s' <;> simp [UnpackedFloat.compare, floatMeaning]
      | notANumber => simp [UnpackedFloat.compare, floatMeaning]
      | _ => exact absurd ⟨rfl, rfl⟩ hfinite

theorem beq_iff {x y : Float} : (x == y) = true ↔
    floatMeaning x.toModel.unpack = floatMeaning y.toModel.unpack ∧
      floatMeaning x.toModel.unpack ≠ .nan := by
  rw [← compare_eq_iff (unpack_canonical _) (unpack_canonical _)]
  change (x.toModel.unpack.compare y.toModel.unpack == some .eq) = true ↔ _
  rw [beq_iff_eq]

theorem floatMeaning_convert {f : Format} (hmin : -1074 ≤ f.minExponent) (ha : Bounded a)
    (hspecial : (∀ s m e hm, a ≠ .finite s m e hm) →
      UnpackedFloat.unpack f (UnpackedFloat.pack f a) = a)
    (hplace : ∀ s m e hm, a = .finite s m e hm → ∃ (M : ℕ) (E : ℤ), M < 2 ^ f.mantissaBits ∧
      f.minExponent ≤ E ∧ E ≤ maxExponent f ∧ magnitude m e = magnitude M E) :
    floatMeaning (UnpackedFloat.unpack f (UnpackedFloat.pack f (convert f a))) =
      floatMeaning a := by
  cases a with
  | infinity s => exact congrArg floatMeaning (hspecial fun _ _ _ _ => UnpackedFloat.noConfusion)
  | notANumber => exact congrArg floatMeaning (hspecial fun _ _ _ _ => UnpackedFloat.noConfusion)
  | zero s => exact congrArg floatMeaning (hspecial fun _ _ _ _ => UnpackedFloat.noConfusion)
  | finite s m e hm =>
    obtain ⟨M, E, hbits, hlow, hhigh, hsame⟩ := hplace s m e hm rfl
    obtain ⟨m', x, hm', hunpack, hmagnitude, hx⟩ :=
      unpack_pack_round s hm ha hmin hbits hlow hhigh hsame
    have hbounded : Bounded (.finite s m' x hm') := hmin.trans hx
    rw [convert, hunpack, floatMeaning_finite rfl, floatMeaning_finite rfl,
      unpackedValue_eq hbounded, unpackedValue_eq ha, scaled, scaled, hmagnitude]

theorem unpack_pack_special (h : ∀ s m e hm, a ≠ .finite s m e hm) :
    UnpackedFloat.unpack .binary64 (UnpackedFloat.pack .binary64 a) = a ∧
      UnpackedFloat.unpack .binary32 (UnpackedFloat.pack .binary32 a) = a := by
  cases a with
  | finite s m e hm => exact absurd rfl (h s m e hm)
  | notANumber => exact ⟨rfl, rfl⟩
  | infinity s => cases s <;> exact ⟨rfl, rfl⟩
  | zero s => cases s <;> exact ⟨rfl, rfl⟩

theorem single_within {x : Float32} {s : Sign} {m : ℕ} {e : ℤ} {hm : 0 < m}
    (h : x.toModel.unpack = .finite s m e hm) : Within .binary32 m e :=
  unpack_within (by decide) h

theorem single_bounded (x : Float32) : Bounded x.toModel.unpack := by
  cases h : x.toModel.unpack with
  | finite s m e hm => exact Int.le_trans (by decide) (single_within h).low
  | _ => trivial

/-- A `float` is widened without change. -/
theorem floatMeaning_widen (x : Float32) :
    floatMeaning (widen x).toModel.unpack = floatMeaning x.toModel.unpack := by
  refine floatMeaning_convert (f := .binary64) (by decide) (single_bounded x)
    (fun h => (unpack_pack_special h).1) fun s m e hm h => ?_
  obtain ⟨hbits, -, hlow, hhigh⟩ := single_within h
  exact ⟨m, e, Nat.lt_trans hbits (by decide), Int.le_trans (by decide) hlow,
    Int.le_trans hhigh (by decide), rfl⟩

theorem floatMeaning_castSingle {x : Float} {y : Float32}
    (h : floatMeaning y.toModel.unpack = floatMeaning x.toModel.unpack) :
    floatMeaning (castSingle x).toModel.unpack = floatMeaning x.toModel.unpack := by
  refine floatMeaning_convert (f := .binary32) (by decide) (unpack_canonical _).bounded
    (fun h => (unpack_pack_special h).2) fun s m e hm hx => ?_
  have hbounded := (unpack_canonical x.toModel).bounded
  rw [hx] at h hbounded
  have hpos := magnitude_pos hm e
  have hscaled : y.toModel.unpack.isFinite = true → scaled y.toModel.unpack =
      s.apply (magnitude m e) := by
    intro hfinite
    rw [floatMeaning_finite hfinite, floatMeaning_finite rfl, Meaning.number.injEq,
      unpackedValue_eq (single_bounded y), unpackedValue_eq hbounded, div_scale_inj] at h
    exact h
  have hnatAbs : ∀ (s : Sign) (k : ℕ), (s.apply k).natAbs = k := by
    intro s k
    cases s with
    | positive => rfl
    | negative => exact Int.natAbs_neg _
  cases hy : y.toModel.unpack with
  | infinity s => rw [hy] at h; cases h
  | notANumber => rw [hy] at h; cases h
  | zero s' =>
    rw [hy] at hscaled
    have := congrArg Int.natAbs (hscaled rfl)
    rw [hnatAbs] at this
    exact absurd this (Nat.ne_of_lt hpos)
  | finite s' M E hM =>
    obtain ⟨hbits, -, hlow, hhigh⟩ := single_within hy
    rw [hy] at hscaled
    have := congrArg Int.natAbs (hscaled rfl)
    rw [scaled, hnatAbs, hnatAbs] at this
    exact ⟨M, E, hbits, hlow, hhigh, this.symm⟩

/-! ## Conversions -/

variable {v : Value} {x : Float}

theorem trunc_beq (hfinite : x.isFinite = true)
    (hbound : ((scaled x.toModel.unpack).tdiv scale).natAbs < 2 ^ 64) :
    (trunc x == x) = true ↔
      scaled x.toModel.unpack = (scaled x.toModel.unpack).tdiv scale * scale := by
  have hcanonical := unpack_canonical x.toModel
  obtain ⟨hfinite', hscaled⟩ := ofInt_scaled (tdiv_representable hcanonical) hbound
  have hx := floatMeaning_int hcanonical.bounded ((scaled x.toModel.unpack).tdiv scale)
  have ht := (floatMeaning_int (unpack_canonical _).bounded _).mpr ⟨hfinite', hscaled⟩
  rw [beq_iff, trunc, if_pos hfinite]
  change floatMeaning (Float.Model.ofInt _).unpack = _ ∧
    floatMeaning (Float.Model.ofInt _).unpack ≠ _ ↔ _
  rw [ht, eq_comm, hx]
  exact ⟨fun h => h.1.2, fun h => ⟨⟨hfinite, h⟩, Meaning.noConfusion⟩⟩

theorem converted_iff {inRange : Prop} {lower upper c n : ℤ} (hfinite : x.isFinite = true)
    (hrange : inRange ↔ lower * scale ≤ scaled x.toModel.unpack ∧
      scaled x.toModel.unpack < upper * scale)
    (hcast : inRange → c = (scaled x.toModel.unpack).tdiv scale) (hc : c.natAbs < 2 ^ 64)
    (hlower : lower ≤ n) (hupper : n < upper) :
    (trunc x == x) = true ∧ inRange ∧ c = n ↔ floatMeaning x.toModel.unpack = .number n := by
  have hpos := scale_pos_int
  have hfinite' : x.toModel.unpack.isFinite = true := hfinite
  rw [floatMeaning_int (unpack_canonical _).bounded, and_iff_right hfinite']
  constructor
  · rintro ⟨htrunc, hin, rfl⟩
    have heq := hcast hin
    rw [heq]
    exact (trunc_beq hfinite (heq ▸ hc)).mp htrunc
  · intro heq
    have hin : inRange := hrange.mpr (heq ▸ ⟨Int.mul_le_mul_of_nonneg_right hlower hpos.le,
      Int.mul_lt_mul_of_pos_right hupper hpos⟩)
    have htdiv : (scaled x.toModel.unpack).tdiv scale = n := by
      rw [heq, Int.mul_tdiv_cancel _ hpos.ne']
    refine ⟨(trunc_beq hfinite ?_).mpr ?_, hin, (hcast hin).trans htdiv⟩
    · rwa [← hcast hin]
    · rw [htdiv, heq]

theorem not_finite_meaning (h : ¬a.isFinite = true) (q : ℚ) : floatMeaning a ≠ .number q := by
  intro heq
  cases a with
  | infinity s => cases heq
  | notANumber => cases heq
  | zero s => exact h rfl
  | finite s m e hm => exact h rfl

theorem assignSintValue_eq_some {n : Int64} :
    assignSintValue v = some n ↔ v.meaning = some (.number n.toInt) := by
  cases v with
  | sint a =>
    rw [assignSintValue, Value.meaning, Option.some_inj, Option.some_inj, Meaning.number.injEq,
      Int.cast_inj, Int64.toInt_inj]
  | uint a =>
    have hbound : 9223372036854775807 < a ↔ 9223372036854775807 < a.toNat :=
      UInt64.lt_iff_toNat_lt
    rw [assignSintValue, Value.meaning, Option.some_inj, Meaning.number.injEq, ← Int.cast_natCast,
      Int.cast_inj]
    split_ifs with h
    · refine iff_of_false (fun h => by cases h) fun heq => ?_
      have := hbound.mp h
      have := n.toInt_lt
      omega
    · have htoInt : a.toInt64.toInt = a.toNat :=
        BitVec.toInt_eq_toNat_of_lt (x := a.toBitVec) (by
          have := mt hbound.mpr h
          change 2 * a.toNat < 2 ^ 64
          omega)
      rw [Option.some_inj, ← Int64.toInt_inj, htoInt]
  | float x =>
    obtain ⟨hlower, hupper⟩ := fits_toInt n
    rw [assignSintValue, Value.meaning, Option.some_inj]
    by_cases hfinite : x.isFinite = true
    · obtain ⟨hc, hc'⟩ := fits_toInt (castSint x)
      have hrange : -sint64UpperBound ≤ x ∧ x < sint64UpperBound ↔
          -2 ^ 63 * scale ≤ scaled x.toModel.unpack ∧
            scaled x.toModel.unpack < 2 ^ 63 * scale := by
        rw [finite_le rfl hfinite, finite_lt hfinite rfl, scaled_neg_sint64UpperBound,
          scaled_sint64UpperBound, Int.neg_mul]
      rw [← converted_iff hfinite hrange (c := (castSint x).toInt)
        (fun h => castSint_toInt hfinite (Int.neg_mul _ _ ▸ (hrange.mp h).1) (hrange.mp h).2)
        (by omega) hlower hupper, hfinite, ite_eq_iff]
      simp [Int64.toInt_inj, and_assoc]
    · rw [if_neg (by simp [hfinite])]
      exact iff_of_false (fun h => by cases h) (not_finite_meaning hfinite _)
  | _ => exact iff_of_false (fun h => by cases h) fun h => by cases h

theorem assignUintValue_eq_some {n : UInt64} :
    assignUintValue v = some n ↔ v.meaning = some (.number n.toNat) := by
  have hn := n.toNat_lt
  cases v with
  | uint a =>
    rw [assignUintValue, Value.meaning, Option.some_inj, Option.some_inj, Meaning.number.injEq,
      Nat.cast_inj, UInt64.toNat_inj]
  | sint a =>
    have hneg : a < 0 ↔ a.toInt < 0 := Int64.lt_iff_toInt_lt
    rw [assignUintValue, Value.meaning, Option.some_inj, Meaning.number.injEq, ← Int.cast_natCast,
      Int.cast_inj]
    split_ifs with h
    · have := hneg.mp h
      exact iff_of_false (fun h => by cases h) fun heq => by omega
    · have := mt hneg.mpr h
      rw [Option.some_inj, ← UInt64.toNat_inj, ← Int.ofNat_inj, toNat_toUInt64 (by omega)]
  | float x =>
    rw [assignUintValue, Value.meaning, Option.some_inj]
    by_cases hfinite : x.isFinite = true
    · have hrange : 0.0 ≤ x ∧ x < uint64UpperBound ↔
          0 * scale ≤ scaled x.toModel.unpack ∧ scaled x.toModel.unpack < 2 ^ 64 * scale := by
        rw [finite_le rfl hfinite, finite_lt hfinite rfl, scaled_zero, scaled_uint64UpperBound,
          Int.zero_mul]
      rw [← Int.cast_natCast, ← converted_iff hfinite hrange (c := x.toUInt64.toNat)
        (fun h => castUint_toNat hfinite (Int.zero_mul _ ▸ (hrange.mp h).1) (hrange.mp h).2)
        x.toUInt64.toNat_lt (Int.natCast_nonneg _) (by omega), hfinite, ite_eq_iff]
      simp [UInt64.toNat_inj, and_assoc]
    · rw [if_neg (by simp [hfinite])]
      exact iff_of_false (fun h => by cases h) (not_finite_meaning hfinite _)
  | _ => exact iff_of_false (fun h => by cases h) fun h => by cases h

variable {n : ℤ}

theorem castDouble_exact {y : Float} (hx : x.toModel = .ofInt n) (hn : n.natAbs < 2 ^ 64)
    (h : floatMeaning y.toModel.unpack = .number n) :
    x.isFinite = true ∧ scaled x.toModel.unpack = n * scale := by
  change x.toModel.isFinite = true ∧ _
  obtain ⟨-, hscaled⟩ := (floatMeaning_int (unpack_canonical _).bounded n).mp h
  rw [hx]
  refine ofInt_scaled ?_ hn
  rw [← Int.mul_tdiv_cancel n scale_pos_int.ne', ← hscaled]
  exact tdiv_representable (unpack_canonical _)

theorem castDouble_back (hx : x.toModel = .ofInt n) (hn : n.natAbs < 2 ^ 64)
    (hback : n = (scaled x.toModel.unpack).tdiv scale) :
    floatMeaning x.toModel.unpack = .number n := by
  have hexact := ofInt_scaled (hback ▸ tdiv_representable (unpack_canonical _)) hn
  rw [hx]
  exact (floatMeaning_int (unpack_canonical _).bounded _).mpr hexact

theorem cast_not_finite (h : ¬x.isFinite = true) :
    (sint64UpperBound ≤ x ∧ uint64UpperBound ≤ x) ∨
      ((x < -sint64UpperBound ∨ castSint x = 0) ∧ x.toUInt64 = 0) := by
  have hle : ∀ y : Float, y ≤ x ↔
      decide ((y.toModel.unpack.compare x.toModel.unpack).any (·.isLE) = true) = true :=
    fun _ => Iff.rfl
  have hlt : ∀ y : Float, x < y ↔
      decide ((x.toModel.unpack.compare y.toModel.unpack == some .lt) = true) = true :=
    fun _ => Iff.rfl
  have hsint : castSint x = Int64.ofIntClamp (x.toModel.unpack.toInt _ _) := rfl
  have huint : x.toUInt64 = UInt64.ofNatClamp (x.toModel.unpack.toInt _ _).toNat := rfl
  change ¬x.toModel.unpack.isFinite = true at h
  rw [hle, hle, hlt, hsint, huint]
  cases hx : x.toModel.unpack with
  | notANumber => exact .inr ⟨.inr rfl, rfl⟩
  | infinity s =>
    cases s with
    | positive => exact .inl ⟨rfl, rfl⟩
    | negative => exact .inr ⟨.inl rfl, rfl⟩
  | _ =>
    rw [hx] at h
    exact absurd rfl h

theorem castDouble_guarded (lower upper : ℤ) {p : Prop} (hx : x.toModel = .ofInt n)
    (hn : n.natAbs < 2 ^ 64) (hlower : lower ≤ n) (hupper : n < upper)
    (hfinite : ¬p → x.isFinite = true)
    (hp : x.isFinite = true → (¬p ↔ (lower * scale ≤ scaled x.toModel.unpack ∧
      scaled x.toModel.unpack < upper * scale) ∧ (scaled x.toModel.unpack).tdiv scale = n)) :
    (¬p → floatMeaning x.toModel.unpack = .number n) ∧
      ∀ y : Float, floatMeaning y.toModel.unpack = .number n → ¬p := by
  have hpos := scale_pos_int
  refine ⟨fun h => castDouble_back hx hn ((hp (hfinite h)).mp h).2.symm, fun y hy => ?_⟩
  obtain ⟨hfinite', hscaled⟩ := castDouble_exact hx hn hy
  rw [hp hfinite', hscaled]
  exact ⟨⟨Int.mul_le_mul_of_nonneg_right hlower hpos.le, Int.mul_lt_mul_of_pos_right hupper hpos⟩,
    Int.mul_tdiv_cancel _ hpos.ne'⟩

theorem castDouble_sint (n : Int64) {p : Prop} (hp : p ↔ castDouble n < -sint64UpperBound ∨
      sint64UpperBound ≤ castDouble n ∨ castSint (castDouble n) ≠ n) :
    (¬p → floatMeaning (castDouble n).toModel.unpack = .number n.toInt) ∧
      ∀ y : Float, floatMeaning y.toModel.unpack = .number n.toInt → ¬p := by
  obtain ⟨hlower, hupper⟩ := fits_toInt n
  refine castDouble_guarded _ _ rfl (by omega) hlower hupper (fun h => ?_) fun hfinite => ?_
  · rw [hp, not_or, not_or, not_not] at h
    by_contra hnot
    rcases cast_not_finite hnot with hhigh | ⟨hlow | hzero, -⟩
    · exact h.2.1 hhigh.1
    · exact h.1 hlow
    · obtain rfl := h.2.2.symm.trans hzero
      exact hnot rfl
  · rw [hp, not_or, not_or, not_not, finite_lt hfinite rfl, finite_le rfl hfinite,
      scaled_neg_sint64UpperBound, scaled_sint64UpperBound, Int.not_lt, Int.not_le, ← and_assoc,
      Int.neg_mul]
    exact and_congr_right fun hrange => by
      rw [← Int64.toInt_inj, castSint_toInt hfinite hrange.1 hrange.2]

theorem castDouble_uint (n : UInt64) {p : Prop} (hp : p ↔ uint64UpperBound ≤ n.toFloat ∨
      n.toFloat.toUInt64 ≠ n) :
    (¬p → floatMeaning n.toFloat.toModel.unpack = .number (n.toNat : ℤ)) ∧
      ∀ y : Float, floatMeaning y.toModel.unpack = .number (n.toNat : ℤ) → ¬p := by
  have hupper := n.toNat_lt
  refine castDouble_guarded 0 (2 ^ 64) rfl hupper (Int.natCast_nonneg _)
    (by omega) (fun h => ?_) fun hfinite => ?_
  · rw [hp, not_or, not_not] at h
    by_contra hnot
    rcases cast_not_finite hnot with hhigh | ⟨-, hzero⟩
    · exact h.1 hhigh.2
    · obtain rfl := h.2.symm.trans hzero
      exact hnot rfl
  · have hback : 0 ≤ scaled n.toFloat.toModel.unpack →
        scaled n.toFloat.toModel.unpack < 2 ^ 64 * scale →
        (n.toFloat.toUInt64 = n ↔ (scaled n.toFloat.toModel.unpack).tdiv scale = n.toNat) :=
      fun hlow hhigh => by
        rw [← UInt64.toNat_inj, ← Int.ofNat_inj, castUint_toNat hfinite hlow hhigh]
    rw [hp, not_or, not_not, finite_le rfl hfinite, scaled_uint64UpperBound, Int.not_le,
      Int.zero_mul]
    constructor
    · rintro ⟨hhigh, hcast⟩
      suffices hlow : 0 ≤ scaled n.toFloat.toModel.unpack from
        ⟨⟨hlow, hhigh⟩, (hback hlow hhigh).mp hcast⟩
      by_contra hneg
      have hnonpos : (scaled n.toFloat.toModel.unpack).tdiv scale ≤ 0 :=
        (Int.tdiv_le_tdiv scale_pos_int (by omega)).trans (Int.zero_tdiv _).le
      have hzero : n.toFloat.toUInt64 = 0 := by
        change UInt64.ofNatClamp (n.toFloat.toModel.unpack.toInt _ _).toNat = 0
        rw [toInt_scaled (unpack_canonical _) hfinite, Int.toNat_of_nonpos hnonpos]
        rfl
      obtain rfl := hcast.symm.trans hzero
      exact hneg (Int.le_refl 0)
    · rintro ⟨⟨hlow, hhigh⟩, hcast⟩
      exact ⟨hhigh, (hback hlow hhigh).mpr hcast⟩

theorem assignFloatValue_eq_some (h : assignFloatValue v = some x) :
    v.meaning = some (floatMeaning x.toModel.unpack) := by
  cases v with
  | float y =>
    cases h
    rfl
  | sint a =>
    obtain ⟨hexact, heq⟩ := Option.ite_none_left_eq_some.mp h
    obtain rfl := Option.some_inj.mp heq
    exact congrArg some ((castDouble_sint a Iff.rfl).1 hexact).symm
  | uint a =>
    obtain ⟨hexact, heq⟩ := Option.ite_none_left_eq_some.mp h
    obtain rfl := Option.some_inj.mp heq
    rw [(castDouble_uint a Iff.rfl).1 hexact, Int.cast_natCast]
    rfl
  | _ => cases h

theorem assignFloatValue_isSome (h : v.meaning = some (floatMeaning x.toModel.unpack)) :
    ∃ y, assignFloatValue v = some y := by
  cases v with
  | float y => exact ⟨y, rfl⟩
  | sint a => exact ⟨_, if_neg ((castDouble_sint a Iff.rfl).2 x (Option.some_inj.mp h).symm)⟩
  | uint a =>
    exact ⟨_, if_neg ((castDouble_uint a Iff.rfl).2 x (Option.some_inj.mp h).symm)⟩
  | undefined => cases h
  | _ => cases hx : x.toModel.unpack <;> rw [hx] at h <;> cases h

/-! ## Stores -/

def Stores (fits : Prop) (meaning : Meaning) (result : Option Object) : Prop :=
  (fits ∧ ∃ object, result = some object ∧ object.scalar = some meaning) ∨ (¬fits ∧ result = none)

theorem bmod_eq_iff (k : ℕ) (z : ℤ) : z.bmod (2 ^ (k + 1)) = z ↔ -2 ^ k ≤ z ∧ z < 2 ^ k := by
  have hpow : ((2 ^ (k + 1) : ℕ) : ℤ) = 2 * 2 ^ k := by
    rw [Nat.cast_pow, Nat.cast_ofNat, pow_succ']
  constructor
  · intro h
    have hlow := Int.le_bmod (x := z) (m := 2 ^ (k + 1)) (Nat.two_pow_pos _)
    have hhigh := Int.bmod_lt (x := z) (m := 2 ^ (k + 1)) (Nat.two_pow_pos _)
    omega
  · rintro ⟨hlow, hhigh⟩
    exact Int.bmod_eq_of_le (by rw [hpow]; omega) (by rw [hpow]; omega)

variable {object : Object}

theorem stores_guarded {p fits : Prop} [Decidable p] {n c : ℤ}
    (hfits : fits ↔ c = n) (hp : p ↔ c ≠ n) (hobject : object.scalar = some (.number c)) :
    Stores fits (.number n) (if p then none else some object) := by
  by_cases heq : c = n
  · exact .inl ⟨hfits.mpr heq, object, if_neg (mt hp.mp (not_not.mpr heq)), heq ▸ hobject⟩
  · exact .inr ⟨mt hfits.mp heq, if_pos (hp.mpr heq)⟩

theorem signedFits_iff {bits : UInt8} {k : ℕ} {n c : ℤ} (hwidth : IsWidth bits)
    (hk : bits.toNat - 1 = k) (hc : c = n.bmod (2 ^ (k + 1))) : SignedFits bits n ↔ c = n := by
  rw [hc, bmod_eq_iff, SignedFits, hk]
  exact and_iff_right hwidth

variable (bits : UInt8)

theorem assignStoreSint_stores (n : Int64) :
    Stores (SignedFits bits n.toInt) (.number n.toInt) (assignStoreSint bits n) := by
  unfold assignStoreSint
  split_ifs with h₁ h₂ h₃ h₄
  · subst h₁
    exact stores_guarded (signedFits_iff (.inl rfl) rfl (Int64.toInt_toInt8 n))
      (not_congr (Int64.toInt_inj.symm.trans (by rw [Int8.toInt_toInt64]))) rfl
  · subst h₂
    exact stores_guarded (signedFits_iff (.inr (.inl rfl)) rfl (Int64.toInt_toInt16 n))
      (not_congr (Int64.toInt_inj.symm.trans (by rw [Int16.toInt_toInt64]))) rfl
  · subst h₃
    exact stores_guarded (signedFits_iff (.inr (.inr (.inl rfl))) rfl (Int64.toInt_toInt32 n))
      (not_congr (Int64.toInt_inj.symm.trans (by rw [Int32.toInt_toInt64]))) rfl
  · subst h₄
    exact .inl ⟨⟨.inr (.inr (.inr rfl)), fits_toInt n⟩, _, rfl, rfl⟩
  · refine .inr ⟨fun h => ?_, rfl⟩
    rcases h.1 with h | h | h | h
    all_goals contradiction

theorem unsignedFits_iff {bits : UInt8} {n c : ℕ} (hwidth : IsWidth bits)
    (hc : c = n % 2 ^ bits.toNat) : UnsignedFits bits n ↔ (c : ℤ) = n := by
  rw [hc, Int.ofNat_inj, Nat.mod_eq_iff_lt (Nat.two_pow_pos _).ne', UnsignedFits,
    and_iff_right hwidth, and_iff_right (Int.natCast_nonneg _)]
  exact_mod_cast Iff.rfl

theorem assignStoreUint_stores (n : UInt64) :
    Stores (UnsignedFits bits n.toNat) (.number n.toNat) (assignStoreUint bits n) := by
  have hback : ∀ {m : UInt64} {k : ℕ}, m.toNat = k → (m ≠ n ↔ (k : ℤ) ≠ n.toNat) := by
    rintro m _ rfl
    rw [Ne, Ne, Int.ofNat_inj, UInt64.toNat_inj]
  unfold assignStoreUint
  split_ifs with h₁ h₂ h₃ h₄
  · subst h₁
    exact stores_guarded (unsignedFits_iff (.inl rfl) (UInt64.toNat_toUInt8 n))
      (hback (UInt8.toNat_toUInt64 _)) rfl
  · subst h₂
    exact stores_guarded (unsignedFits_iff (.inr (.inl rfl)) (UInt64.toNat_toUInt16 n))
      (hback (UInt16.toNat_toUInt64 _)) rfl
  · subst h₃
    exact stores_guarded (unsignedFits_iff (.inr (.inr (.inl rfl))) (UInt64.toNat_toUInt32 n))
      (hback (UInt32.toNat_toUInt64 _)) rfl
  · subst h₄
    have hfits : (n.toNat : ℤ) < 2 ^ 64 := by exact_mod_cast n.toNat_lt
    exact .inl ⟨⟨.inr (.inr (.inr rfl)), Int.natCast_nonneg _, hfits⟩, _, rfl, rfl⟩
  · refine .inr ⟨fun h => ?_, rfl⟩
    rcases h.1 with h | h | h | h
    all_goals contradiction

theorem assignStoreFloat_stores (hnan : bits = 32 → floatMeaning x.toModel.unpack ≠ .nan) :
    Stores ((Destination.float bits).Contains 0 (floatMeaning x.toModel.unpack))
      (floatMeaning x.toModel.unpack) (assignStoreFloat bits x) := by
  rw [assignStoreFloat]
  by_cases h₁ : bits = 32
  · subst h₁
    by_cases hsame : (widen (castSingle x) == x) = true
    · have hequal := (floatMeaning_widen _).symm.trans (beq_iff.mp hsame).1
      exact .inl ⟨.inl ⟨rfl, castSingle x, hequal⟩, _, if_pos hsame, congrArg some hequal⟩
    · refine .inr ⟨fun h => hsame ?_, if_neg hsame⟩
      rcases h with ⟨-, y, hy⟩ | ⟨h, -⟩
      · have hequal := floatMeaning_castSingle hy
        rw [beq_iff, floatMeaning_widen, hequal]
        exact ⟨rfl, hnan rfl⟩
      · cases h
  · rw [if_neg h₁]
    by_cases h₂ : bits = 64
    · subst h₂
      exact .inl ⟨.inr ⟨rfl, x, rfl⟩, _, if_pos rfl, rfl⟩
    · refine .inr ⟨fun h => ?_, if_neg h₂⟩
      rcases h with ⟨h, -⟩ | ⟨h, -⟩
      all_goals contradiction

theorem Stores.bind {α : Type} (fits : Meaning → Prop) (meaning : α → Meaning) {m : Meaning}
    {converted : Option α} {store : α → Option Object}
    (hconverted : ∀ a, converted = some a → m = meaning a)
    (hfits : fits m → ∃ a, converted = some a)
    (hstore : ∀ a, converted = some a → Stores (fits (meaning a)) (meaning a) (store a)) :
    Stores (fits m) m (converted.bind store) := by
  cases h : converted with
  | none =>
    refine .inr ⟨fun hm => ?_, rfl⟩
    obtain ⟨a, ha⟩ := hfits hm
    cases h.symm.trans ha
  | some a =>
    obtain rfl := hconverted a h
    exact hstore a h

variable {limit : ℕ} {m : Meaning}

theorem contains_sint {bits : UInt8} :
    (Destination.sint bits).Contains limit (.number n) ↔ SignedFits bits n := by
  refine ⟨?_, fun h => ⟨n, rfl, h⟩⟩
  rintro ⟨n', heq, h⟩
  exact Int.cast_inj.mp heq ▸ h

theorem contains_uint {bits : UInt8} :
    (Destination.uint bits).Contains limit (.number n) ↔ UnsignedFits bits n := by
  refine ⟨?_, fun h => ⟨n, rfl, h⟩⟩
  rintro ⟨n', heq, h⟩
  exact Int.cast_inj.mp heq ▸ h

theorem pow_width_le {bits : UInt8} (hwidth : IsWidth bits) : bits.toNat ≤ 64 := by
  rcases hwidth with rfl | rfl | rfl | rfl <;> decide

theorem stores_sint (hm : v.meaning = some m) : Stores ((Destination.sint bits).Contains limit m) m
      ((assignSintValue v).bind (assignStoreSint bits)) := by
  refine Stores.bind ((Destination.sint bits).Contains limit) (fun n : Int64 => .number n.toInt)
    (fun n h => Option.some_inj.mp (hm.symm.trans (assignSintValue_eq_some.mp h))) ?_ ?_
  · intro hfits
    cases m with
    | number q =>
      obtain ⟨n, rfl, hwidth, hlow, hhigh⟩ := hfits
      have hpow : (2 : ℤ) ^ (bits.toNat - 1) ≤ 2 ^ 63 :=
        pow_le_pow_right₀ (by decide) (Nat.sub_le_sub_right (pow_width_le hwidth) 1)
      refine ⟨Int64.ofInt n, assignSintValue_eq_some.mpr ?_⟩
      rw [hm, Int64.toInt_ofInt_of_le (by omega) (by omega)]
    | _ => cases hfits
  · intro n _
    rw [contains_sint]
    exact assignStoreSint_stores bits n

theorem stores_uint (hm : v.meaning = some m) : Stores ((Destination.uint bits).Contains limit m) m
      ((assignUintValue v).bind (assignStoreUint bits)) := by
  refine Stores.bind ((Destination.uint bits).Contains limit) (fun n : UInt64 => .number n.toNat)
    (fun n h => Option.some_inj.mp (hm.symm.trans (assignUintValue_eq_some.mp h))) ?_ ?_
  · intro hfits
    cases m with
    | number q =>
      obtain ⟨n, rfl, hwidth, hlow, hhigh⟩ := hfits
      have hpow : (2 : ℤ) ^ bits.toNat ≤ 2 ^ 64 :=
        pow_le_pow_right₀ (by decide) (pow_width_le hwidth)
      refine ⟨UInt64.ofNat n.toNat, assignUintValue_eq_some.mpr ?_⟩
      rw [hm, UInt64.toNat_ofNat_of_lt' (by change _ < 2 ^ 64; omega), ← Int.cast_natCast,
        Int.toNat_of_nonneg hlow]
    | _ => cases hfits
  · intro n _
    have hcontains : (Destination.uint bits).Contains limit (.number (n.toNat : ℤ)) ↔ _ :=
      contains_uint
    rw [Int.cast_natCast] at hcontains
    rw [hcontains]
    exact assignStoreUint_stores bits n

theorem stores_float (hm : v.meaning = some m) (hnan : bits = 32 → m ≠ .nan) :
    Stores ((Destination.float bits).Contains limit m) m
      ((assignFloatValue v).bind (assignStoreFloat bits)) := by
  have hconverted : ∀ x, assignFloatValue v = some x → m = floatMeaning x.toModel.unpack :=
    fun x h => Option.some_inj.mp (hm.symm.trans (assignFloatValue_eq_some h))
  refine Stores.bind ((Destination.float bits).Contains limit) _ hconverted ?_ ?_
  · rintro (⟨-, x, rfl⟩ | ⟨-, x, rfl⟩)
    · exact assignFloatValue_isSome (x := widen x) (by rw [hm, floatMeaning_widen])
    · exact assignFloatValue_isSome hm
  · intro x hx
    exact assignStoreFloat_stores bits fun h => hconverted x hx ▸ hnan h

/-! ## The assignment -/

structure Outcome (fits memory : Prop) (meaning : Meaning) (shown : Object → Option Meaning)
    (object : Object) (result : Status × Object) : Prop where
  stores : result.1 = .ok → fits ∧ shown result.2 = some meaning
  succeeds : fits → memory → result.1 = .ok
  keeps : result.1 ≠ .ok → result.2 = object

variable {fits memory : Prop}

theorem Outcome.of_stores {result : Option Object} (h : Stores fits m result) :
    Outcome fits memory m Object.scalar object (stored object result) := by
  rcases h with ⟨hfits, after, rfl, hafter⟩ | ⟨hfits, rfl⟩
  · exact ⟨fun _ => ⟨hfits, hafter⟩, fun _ _ => rfl, fun h => absurd rfl h⟩
  · exact ⟨Status.noConfusion, fun h => absurd h hfits, fun _ => rfl⟩

variable {shown : Object → Option Meaning}

theorem Outcome.cleared_iff (zero : Object) {result : Status × Object} (hfits : ¬(fits ∧ memory))
    (hresult : result = (.evaluationError, zero)) :
    Outcome fits memory m shown object result ↔ object = zero := by
  subst hresult
  refine ⟨fun h => (h.keeps Status.noConfusion).symm, ?_⟩
  rintro rfl
  exact ⟨Status.noConfusion, fun h h' => absurd ⟨h, h'⟩ hfits, fun _ => rfl⟩

theorem Outcome.refused {status : Status} (hfits : ¬(fits ∧ memory)) (hstatus : status ≠ .ok) :
    Outcome fits memory m shown object (status, object) :=
  ⟨fun h => absurd h hstatus, fun h h' => absurd ⟨h, h'⟩ hfits, fun _ => rfl⟩

def Destination.Memory (copied : Bool) : Destination → Meaning → Prop
  | .string ops, .string bytes =>
    (ops.owned = true → bytes ≠ [] → copied = true) ∧ ops.available bytes = true
  | _, _ => True

/-- The assignment succeeds when the destination has a place for the value, stores it, and keeps
what was there otherwise. -/
structure AssignsExactly (program : AssignProgram) (call : Call) (object : Object) : Prop where
  stores : (assignApply program call object).1 = .ok → ∃ v m, program.prepare call = .ok v ∧
    v.meaning = some m ∧ program.destination.Contains program.maxStringBytes m ∧
    program.destination.meaning (assignApply program call object).2 = some m
  succeeds : ∀ v m, program.prepare call = .ok v → v.meaning = some m →
    program.destination.Contains program.maxStringBytes m →
    program.destination.Memory call.copied m → (assignApply program call object).1 = .ok
  keeps : (assignApply program call object).1 ≠ .ok → (assignApply program call object).2 = object

/-- No NaN is stored in 32 bits, and nothing is cleared for a value that is then refused. -/
def Destination.Spares (limit : ℕ) (copied : Bool) (object : Object) : Destination → Meaning → Prop
  | .float bits, m => bits = 32 → m ≠ .nan
  | .enum ops, m => ∀ n : Int64, m = .number n.toInt → ops.values n = false → object = ops.zero
  | .string ops, m => ∀ bytes, m = .string bytes → bytes.length ≤ limit →
    (ops.owned = true → bytes ≠ [] → copied = true) → ops.available bytes = false →
    object = ops.zero
  | _, _ => True

variable {program : AssignProgram} {call : Call} {object : Object}

theorem assignsExactly_iff_outcome (hv : program.prepare call = .ok v) (hm : v.meaning = some m) :
    AssignsExactly program call object ↔
      Outcome (program.destination.Contains program.maxStringBytes m)
        (program.destination.Memory call.copied m) m program.destination.meaning object
        (assignApply program call object) := by
  constructor
  · intro h
    refine ⟨fun hok => ?_, h.succeeds v m hv hm, h.keeps⟩
    obtain ⟨v', m', hv', hm', hfits, hafter⟩ := h.stores hok
    obtain rfl := Except.ok.inj (hv.symm.trans hv')
    obtain rfl := Option.some_inj.mp (hm.symm.trans hm')
    exact ⟨hfits, hafter⟩
  · intro h
    refine ⟨fun hok => ⟨v, m, hv, hm, h.stores hok⟩, fun v' m' hv' hm' => ?_, h.keeps⟩
    obtain rfl := Except.ok.inj (hv.symm.trans hv')
    obtain rfl := Option.some_inj.mp (hm.symm.trans hm')
    exact h.succeeds

theorem assignEnum_outcome (ops : EnumOps) (n : Int64) {memory : Prop} :
    Outcome ((Destination.enum ops).Contains limit (.number n.toInt)) memory (.number n.toInt)
      (fun object => (Destination.enum ops).meaning object) object (assignEnum ops object n) ↔
      (ops.values n = false → object = ops.zero) := by
  have hfits : (Destination.enum ops).Contains limit (.number n.toInt) ↔ ops.values n = true := by
    refine ⟨?_, fun h => ⟨n, rfl, h⟩⟩
    rintro ⟨n', heq, h⟩
    rwa [Int64.toInt_inj.mp (Int.cast_inj.mp heq)]
  cases hn : ops.values n with
  | false =>
    rw [hn] at hfits
    have hresult : assignEnum ops object n = (.evaluationError, ops.zero) := by
      simp [assignEnum, ops.restoreZero_eq, ops.assign_other n hn]
    rw [Outcome.cleared_iff _ (fun h => Bool.noConfusion (hfits.mp h.1)) hresult]
    exact ⟨fun h _ => h, fun h => h rfl⟩
  | true =>
    obtain ⟨hassigned, hread⟩ := ops.assign_value n hn
    refine iff_of_true ?_ Bool.noConfusion
    have hok : (assignEnum ops object n).1 = .ok := by
      simp [assignEnum, ops.restoreZero_eq, hassigned]
    refine ⟨fun _ => ⟨hfits.mpr hn, ?_⟩, fun _ _ => hok, fun h => absurd hok h⟩
    simp [assignEnum, ops.restoreZero_eq, Destination.meaning, hread]

theorem assignString_outcome (ops : BufferOps) (copied : Bool) (bytes : List UInt8) :
    Outcome ((Destination.string ops).Contains limit (.string bytes))
      ((Destination.string ops).Memory copied (.string bytes)) (.string bytes)
      (fun object => (Destination.string ops).meaning object) object
      (assignString ops limit copied object bytes) ↔
      (bytes.length ≤ limit → (ops.owned = true → bytes ≠ [] → copied = true) →
        ops.available bytes = false → object = ops.zero) := by
  have hcopies : (ops.owned && !bytes.isEmpty && !copied) = true ↔
      ¬(ops.owned = true → bytes ≠ [] → copied = true) := by simp [and_assoc]
  by_cases hlimit : bytes.length ≤ limit
  · rw [assignString, if_neg (Nat.not_lt.mpr hlimit), ops.restoreZero_eq]
    by_cases hcopy : ops.owned = true → bytes ≠ [] → copied = true
    · rw [if_neg (not_not.mpr hcopy |> mt hcopies.mp)]
      cases havailable : ops.available bytes with
      | false =>
        have hmemory : ¬(Destination.string ops).Memory copied (.string bytes) :=
          fun h => Bool.noConfusion (havailable.symm.trans h.2)
        rw [Outcome.cleared_iff ops.zero (fun h => hmemory h.2)
          (by simp [ops.assign_exhausted bytes limit havailable])]
        exact ⟨fun h _ _ _ => h, fun h => h hlimit hcopy rfl⟩
      | true =>
        obtain ⟨hassigned, hread⟩ := ops.assign_available bytes limit hlimit havailable
        refine iff_of_true ?_ fun _ _ => Bool.noConfusion
        simp only [Bool.not_true, hassigned, if_true]
        exact ⟨fun _ => ⟨hlimit, congrArg (some ∘ Meaning.string) hread⟩, fun _ _ => rfl,
          fun h => absurd rfl h⟩
    · rw [if_pos (hcopies.mpr hcopy)]
      exact iff_of_true (Outcome.refused (fun h => hcopy h.2.1) Status.noConfusion)
        fun _ h => absurd h hcopy
  · rw [assignString, if_pos (Nat.lt_of_not_le hlimit)]
    exact iff_of_true (Outcome.refused (fun h => hlimit h.1) Status.noConfusion)
      fun h => absurd h hlimit

theorem stores_nan (limit : ℕ) {bits : UInt8} (hm : v.meaning = some .nan) (hbits : bits = 32) :
    (Destination.float bits).Contains limit .nan ∧
      (assignFloatValue v).bind (assignStoreFloat bits) = none := by
  subst hbits
  refine ⟨.inl ⟨rfl, .ofModel (.pack .notANumber), rfl⟩, ?_⟩
  cases h : assignFloatValue v with
  | none => rfl
  | some x =>
    have hx := Option.some_inj.mp (hm.symm.trans (assignFloatValue_eq_some h))
    change assignStoreFloat 32 x = none
    exact if_neg fun h => (beq_iff.mp h).2 ((beq_iff.mp h).1.trans hx.symm)

theorem assignApply_outcome (hv : program.prepare call = .ok v) (hm : v.meaning = some m)
    (haccepts : assignDestinationAccepts program.destination v = true) :
    Outcome (program.destination.Contains program.maxStringBytes m)
        (program.destination.Memory call.copied m) m program.destination.meaning object
        (assignApply program call object) ↔
      program.destination.Spares program.maxStringBytes call.copied object m := by
  unfold assignApply
  rw [hv]
  cases hdestination : program.destination with
  | bool =>
    rw [hdestination] at haccepts
    cases v with
    | bool b =>
      obtain rfl := Option.some_inj.mp hm
      exact iff_of_true ⟨fun _ => ⟨trivial, rfl⟩, fun _ _ => rfl, fun h => absurd rfl h⟩ trivial
    | _ => cases haccepts
  | sint bits => exact iff_of_true (.of_stores (stores_sint bits hm)) trivial
  | uint bits => exact iff_of_true (.of_stores (stores_uint bits hm)) trivial
  | float bits =>
    by_cases hnan : bits = 32 → m ≠ .nan
    · exact iff_of_true (.of_stores (stores_float bits hm hnan)) hnan
    · refine iff_of_false (fun h => ?_) hnan
      obtain ⟨hbits, hm'⟩ := Classical.not_imp.mp hnan
      obtain rfl := not_not.mp hm'
      obtain ⟨hfits, hnone⟩ := stores_nan program.maxStringBytes hm hbits
      have hok := h.succeeds hfits trivial
      change (stored object ((assignFloatValue v).bind (assignStoreFloat bits))).1 = .ok at hok
      rw [hnone] at hok
      cases hok
  | enum ops =>
    dsimp only
    cases h : assignSintValue v with
    | none =>
      have hnot : ∀ n : Int64, m ≠ .number n.toInt := by
        rintro n rfl
        cases h.symm.trans (assignSintValue_eq_some.mpr hm)
      refine iff_of_true (Outcome.refused (fun hfits => ?_) Status.noConfusion)
        fun n heq => absurd heq (hnot n)
      cases m with
      | number q =>
        obtain ⟨⟨n, rfl, -⟩, -⟩ := hfits
        exact hnot n rfl
      | _ => exact hfits.1
    | some n =>
      obtain rfl := Option.some_inj.mp (hm.symm.trans (assignSintValue_eq_some.mp h))
      refine Iff.trans (assignEnum_outcome ops n) ⟨?_, fun h => h n rfl⟩
      intro hzero n' heq
      rwa [← Int64.toInt_inj.mp (Int.cast_inj.mp (Meaning.number.inj heq))]
  | string ops =>
    rw [hdestination] at haccepts
    cases v with
    | string bytes =>
      obtain rfl := Option.some_inj.mp hm
      refine Iff.trans (assignString_outcome ops call.copied bytes) ⟨?_, fun h => h bytes rfl⟩
      rintro hzero bytes' heq
      obtain rfl := Meaning.string.inj heq
      exact hzero
    | _ => cases haccepts
  | other =>
    rw [hdestination] at haccepts
    cases haccepts

theorem not_accepts_undefined (destination : Destination) :
    assignDestinationAccepts destination .undefined = false := by
  cases destination <;> rfl

theorem guard_ne {c : Prop} [Decidable c] {status : Status} {rest : Except Status Value}
    (hstatus : c → status ≠ .ok) (hrest : rest ≠ .error .ok) :
    (if c then .error status else rest) ≠ .error .ok := by
  split_ifs with hc
  · exact fun h => hstatus hc (Except.error.inj h)
  · exact hrest

theorem prepare_ne (program : AssignProgram) (call : Call) : program.prepare call ≠ .error .ok := by
  refine guard_ne (fun _ => Status.noConfusion) (guard_ne (fun _ => Status.noConfusion)
    (guard_ne (fun _ => Status.noConfusion) (guard_ne (fun _ => Status.noConfusion)
      (guard_ne (fun h => ?_) ?_))))
  · exact of_decide_eq_true ((Bool.and_eq_true _ _).mp h).2
  · cases program.source with
    | external => exact fun h => by cases h
    | stringLiteral bytes => exact guard_ne (fun _ => Status.noConfusion) fun h => by cases h
    | expression =>
      exact guard_ne id (guard_ne (fun _ => Status.noConfusion) fun h => by cases h)

/-- **An assignment is exact, but where a destination is not spared.** -/
theorem assignApply_exact_iff (program : AssignProgram) (call : Call) (object : Object)
    (haccepts : ∀ v, program.prepare call = .ok v →
      assignDestinationAccepts program.destination v = true) :
    AssignsExactly program call object ↔
      ∀ v m, program.prepare call = .ok v → v.meaning = some m →
        program.destination.Spares program.maxStringBytes call.copied object m := by
  cases hv : program.prepare call with
  | error status =>
    have hresult : assignApply program call object = (status, object) := by rw [assignApply, hv]
    have hstatus : status ≠ .ok := by
      rintro rfl
      exact prepare_ne _ _ hv
    refine iff_of_true ⟨?_, fun v m hv' => ?_, ?_⟩ fun v m hv' => ?_
    · rw [hresult]
      exact fun h => absurd h hstatus
    · cases hv.symm.trans hv'
    · rw [hresult]
      exact fun _ => rfl
    · cases hv'
  | ok v =>
    cases hm : v.meaning with
    | none =>
      cases v with
      | undefined =>
        cases (not_accepts_undefined _).symm.trans (haccepts _ hv)
      | _ => cases hm
    | some m =>
      rw [assignsExactly_iff_outcome hv hm, assignApply_outcome hv hm (haccepts v hv)]
      refine ⟨?_, fun h => h v m rfl hm⟩
      intro h v' m' hv' hm'
      obtain rfl := Except.ok.inj hv'
      obtain rfl := Option.some_inj.mp (hm.symm.trans hm')
      exact h

def binaryEnum : EnumOps where
  values value := value == 0 || value == 1
  zero := .int64 0
  restoreZero _ := (true, .int64 0)
  assign object value :=
    if value == 0 || value == 1 then (true, .int64 value) else (false, object)
  read
    | .int64 value => value
    | _ => 0
  restoreZero_eq _ := rfl
  assign_value value h := by rw [if_pos h]; exact ⟨rfl, rfl⟩
  assign_other value h := if_neg (by rw [h]; decide)

/-- `<assign>` to a location of the enum. -/
def binaryProgram : AssignProgram where
  destination := .enum binaryEnum
  maxStringBytes := 0
  destinationKind := .mutable
  source := .expression

def fiveCall : Call where
  arguments := true
  checkDestinationBinding := true
  storage := true
  requireDataBound := .ok
  evaluate := (.ok, .sint 5)
  slotBound := false
  copied := true

theorem assignApply_exact_cleared : AssignsExactly binaryProgram fiveCall (.int64 0) := by
  refine (assignApply_exact_iff binaryProgram fiveCall (.int64 0) ?_).mpr fun _ _ _ _ _ _ _ => rfl
  rintro v ⟨⟩
  rfl

theorem assignApply_clears :
    assignApply binaryProgram fiveCall (.int64 1) = (.evaluationError, .int64 0) ∧
      ¬AssignsExactly binaryProgram fiveCall (.int64 1) := by
  have hresult : assignApply binaryProgram fiveCall (.int64 1) = (.evaluationError, .int64 0) := rfl
  refine ⟨hresult, fun h => ?_⟩
  have hkeeps := h.keeps (by rw [hresult]; exact Status.noConfusion)
  exact absurd (Object.int64.inj hkeeps) (by decide)

end TurboScxml.Expr
