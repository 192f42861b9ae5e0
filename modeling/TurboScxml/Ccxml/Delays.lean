import TurboScxml.Ccxml.Program
import TurboScxml.Lib.Decimals

/-!
# The delays of events

* `Number`, `Delay`: the texts of a delay, with the milliseconds they stand for;
* **`parseTimeMs_eq_some_iff`**: these are read, as far as 64 bits hold the milliseconds.
-/

namespace TurboScxml.Ccxml

open Numerals Decimals

/-- A point may come in a number of seconds only, with three digits behind it. -/
abbrev delayRules (seconds : Bool) : Rules := ⟨seconds, true, 3, uint64Max, by decide⟩

/-- The milliseconds that a number stands for. -/
def worth (seconds : Bool) (d : Decimal) : ℕ :=
  if seconds then d.whole * 1000 + d.fraction * 10 ^ (3 - d.fractionDigits) else d.whole

inductive Number (seconds : Bool) : Text → ℕ → Prop
  | intro (sign body : Text) (d : Decimal) (hsign : sign = [] ∨ sign = ['+']) (hbody : body ≠ [])
      (hwritten : Written (delayRules seconds) body d) :
      Number seconds (sign ++ body) (worth seconds d)

inductive Delay : Text → ℕ → Prop
  | milliseconds (number : Text) (v : ℕ) (h : Number false number v) :
      Delay (number ++ ['m', 's']) v
  | seconds (number : Text) (v : ℕ) (h : Number true number v) : Delay (number ++ ['s']) v

/-! ## The loop -/

theorem isDigit_eq (c : Char) : c.isDigit = isDigit c := rfl

theorem digit_eq (c : Char) : c.toNat - '0'.toNat = digit c := rfl

theorem scanTime_eq (seconds : Bool) : ∀ (text : Text) (s : TimeScan),
    scanTime seconds s text =
      (scan (delayRules seconds) ⟨s.dot, s.fractionDigits, s.digitCount, s.whole, s.fraction⟩
        text).toOption.map fun d => ⟨d.point, d.fractionDigits, d.digitCount, d.whole, d.fraction⟩
  | [], s => rfl
  | c :: rest, s => by
    have ih := scanTime_eq seconds rest
    unfold scanTime scan
    simp only [ih, isDigit_eq, digit_eq, delayRules, Bool.true_eq_false, false_and, false_or,
      apply_ite Except.toOption, apply_ite (Option.map _), Bool.not_eq_true]
    split_ifs <;> rfl

theorem milliseconds_eq_some_iff {seconds : Bool} {s : TimeScan} {v : ℕ}
    (hdigits : s.digitCount ≠ 0) (hfraction : s.fraction * 10 ^ (3 - s.fractionDigits) < 1000) :
    s.milliseconds seconds = some v ↔
      v = worth seconds ⟨s.dot, s.fractionDigits, s.digitCount, s.whole, s.fraction⟩ ∧
        (seconds = true → v ≤ uint64Max) := by
  have hmax : uint64Max = 18446744073709551615 := rfl
  rw [TimeScan.milliseconds, if_neg hdigits]
  cases seconds with
  | false => simp [worth, eq_comm]
  | true =>
    simp only [worth, Bool.true_eq_false, if_false, if_true, forall_true_left]
    split_ifs
    · exact iff_of_false (fun h => by cases h) (fun h => by omega)
    · exact iff_of_false (fun h => by cases h) (fun h => by omega)
    · rw [Option.some.injEq]
      omega

theorem valueFrom_lt : ∀ (digits : Text) (value : ℕ), (∀ c ∈ digits, isDigit c = true) →
    valueFrom value digits < (value + 1) * 10 ^ digits.length
  | [], value, _ => by simp [valueFrom]
  | c :: digits, value, h => by
    have hc := digit_lt (h c (by simp))
    have hrest := valueFrom_lt digits (10 * value + digit c) fun d hd => h d (by simp [hd])
    rw [List.length_cons, Nat.pow_succ']
    calc valueFrom (10 * value + digit c) digits
        < (10 * value + digit c + 1) * 10 ^ digits.length := hrest
      _ ≤ (value + 1) * (10 * 10 ^ digits.length) := by
          rw [← Nat.mul_assoc]
          exact Nat.mul_le_mul_right _ (by omega)

variable {seconds : Bool} {body number text : Text} {d : Decimal} {v : ℕ}

theorem counted (h : Written (delayRules seconds) body d) (hbody : body ≠ []) :
    d.digitCount ≠ 0 := by
  cases h with
  | whole => exact fun h => hbody (List.length_eq_zero_iff.mp h)
  | fraction digits fraction _ hfraction =>
    have := List.length_pos_iff.mpr hfraction.1
    simp only
    omega

theorem fraction_lt (h : Written (delayRules seconds) body d) :
    d.fraction * 10 ^ (3 - d.fractionDigits) < 1000 := by
  cases h with
  | whole => simp
  | fraction digits fraction _ hfraction _ _ hlimit =>
    have hlt := valueFrom_lt fraction 0 hfraction.2
    rw [Nat.zero_add, Nat.one_mul] at hlt
    calc digitsValue fraction * 10 ^ (3 - fraction.length)
        < 10 ^ fraction.length * 10 ^ (3 - fraction.length) :=
          Nat.mul_lt_mul_of_pos_right hlt (Nat.pow_pos (by decide))
      _ = 1000 := by
          rw [← Nat.pow_add, Nat.add_sub_cancel' hlimit]
          rfl

theorem scanned_eq_some_iff (hbody : body ≠ []) :
    (scanTime seconds ⟨false, 0, 0, 0, 0⟩ body).bind (·.milliseconds seconds) = some v ↔
      ∃ d, Written (delayRules seconds) body d ∧ v = worth seconds d ∧ v ≤ uint64Max := by
  rw [scanTime_eq]
  constructor
  · intro h
    change ((scan (delayRules seconds) .start body).toOption.map _).bind _ = _ at h
    cases hscan : scan (delayRules seconds) .start body with
    | error f =>
      rw [hscan] at h
      cases h
    | ok d =>
      obtain ⟨hwritten, hwhole⟩ := scan_eq_ok_iff.mp hscan
      rw [hscan] at h
      obtain ⟨rfl, hv⟩ :=
        (milliseconds_eq_some_iff (counted hwritten hbody) (fraction_lt hwritten)).mp h
      refine ⟨d, hwritten, rfl, ?_⟩
      cases seconds with
      | false => exact hwhole
      | true => exact hv rfl
  · rintro ⟨d, hwritten, rfl, hv⟩
    have hwhole : d.whole ≤ uint64Max := by
      unfold worth at hv
      split at hv <;> omega
    have hscan := hwritten.scan_eq hwhole
    change ((scan (delayRules seconds) .start body).toOption.map _).bind _ = _
    rw [hscan]
    exact (milliseconds_eq_some_iff (counted hwritten hbody) (fraction_lt hwritten)).mpr
      ⟨rfl, fun _ => hv⟩

theorem head_ne_plus (h : Written (delayRules seconds) body d) : body.head? ≠ some '+' := by
  intro hplus
  obtain hc | hc := h.mem (List.mem_of_mem_head? hplus)
  · exact absurd hc (by decide)
  · exact absurd hc (by decide)

/-! ## The units -/

theorem parseTimeNumber_eq_some_iff :
    parseTimeNumber seconds number = some v ↔ Number seconds number v ∧ v ≤ uint64Max := by
  unfold parseTimeNumber
  constructor
  · intro h
    split_ifs at h with hempty hplus
    · simp only [not_or] at hempty
      obtain ⟨rest, rfl⟩ : ∃ rest, number = '+' :: rest := by
        cases number with
        | nil => cases hplus
        | cons c rest => exact ⟨rest, by simpa using hplus⟩
      have hbody : rest ≠ [] := fun h => hempty.2 (by rw [h])
      obtain ⟨d, hwritten, rfl, hv⟩ := (scanned_eq_some_iff hbody).mp h
      exact ⟨.intro ['+'] rest d (.inr rfl) hbody hwritten, hv⟩
    · simp only [not_or] at hempty
      obtain ⟨d, hwritten, rfl, hv⟩ := (scanned_eq_some_iff hempty.1).mp h
      exact ⟨.intro [] number d (.inl rfl) hempty.1 hwritten, hv⟩
  · rintro ⟨⟨sign, body, d, rfl | rfl, hbody, hwritten⟩, hv⟩
    · have hhead := head_ne_plus hwritten
      rw [List.nil_append, if_neg (by rintro (h | rfl) <;> simp_all), if_neg hhead]
      exact (scanned_eq_some_iff hbody).mpr ⟨d, hwritten, rfl, hv⟩
    · rw [if_neg (by simpa using hbody)]
      exact (scanned_eq_some_iff hbody).mpr ⟨d, hwritten, rfl, hv⟩

theorem Number.ne_nil (h : Number seconds number v) : number ≠ [] := by
  cases h with
  | intro sign body d _ hbody => exact List.append_ne_nil_of_right_ne_nil _ hbody

theorem Number.not_mem (h : Number seconds number v) : 'm' ∉ number := by
  cases h with
  | intro sign body d hsign _ hwritten =>
    intro hm
    obtain hm | hm := List.mem_append.mp hm
    · obtain rfl | rfl := hsign
      · cases hm
      · exact absurd hm (by decide)
    · obtain hc | hc := hwritten.mem hm
      · exact absurd hc (by decide)
      · exact absurd hc (by decide)

/-- **Exactly the delays are read** whose milliseconds are held by 64 bits. -/
theorem parseTimeMs_eq_some_iff : parseTimeMs text = some v ↔ Delay text v ∧ v ≤ uint64Max := by
  unfold parseTimeMs
  constructor
  · intro h
    split_ifs at h with hshort hunit hlast
    · obtain ⟨hnumber, hv⟩ := parseTimeNumber_eq_some_iff.mp h
      have hdelay := Delay.milliseconds _ _ hnumber
      rw [← hunit.2, List.take_append_drop] at hdelay
      exact ⟨hdelay, hv⟩
    · obtain ⟨hnumber, hv⟩ := parseTimeNumber_eq_some_iff.mp h
      have hdelay := Delay.seconds _ _ hnumber
      obtain ⟨number, rfl⟩ := List.getLast?_eq_some_iff.mp hlast
      simp only [List.length_append, List.length_singleton, Nat.add_sub_cancel,
        List.take_left'] at hdelay
      exact ⟨hdelay, hv⟩
  · rintro ⟨⟨number, v, hnumber⟩ | ⟨number, v, hnumber⟩, hv⟩
    · have hlength := List.length_pos_iff.mpr hnumber.ne_nil
      rw [if_neg (by simp), if_pos ⟨by simpa, by simp⟩]
      simpa using parseTimeNumber_eq_some_iff.mpr ⟨hnumber, hv⟩
    · have hlength := List.length_pos_iff.mpr hnumber.ne_nil
      rw [if_neg (by rw [List.length_append, List.length_singleton]; omega), if_neg, if_pos (by simp)]
      · simpa using parseTimeNumber_eq_some_iff.mpr ⟨hnumber, hv⟩
      rintro ⟨-, hunit⟩
      have hm : 'm' ∈ (number ++ ['s']).drop ((number ++ ['s']).length - 2) := by rw [hunit]; simp
      obtain hm | hm := List.mem_append.mp (List.mem_of_mem_drop hm)
      · exact hnumber.not_mem hm
      · exact absurd hm (by decide)

end TurboScxml.Ccxml
