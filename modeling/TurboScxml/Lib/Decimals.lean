import Mathlib.Tactic.SplitIfs
import TurboScxml.Lib.Numerals

/-!
# Scanning a decimal number

The digits in front of the point are added up in a bounded type; of those behind it a number is
admitted.

* `Written`: a number in decimal notation;
* **`scan_eq_ok_iff`**: exactly the numbers that are written so, and not too large, are accepted.
-/

namespace Decimals

open Numerals

structure Rules where
  fractional : Bool
  leadingPoint : Bool
  limit : ℕ
  greatest : ℕ
  digit_le : 9 ≤ greatest

inductive Fault
  | point | character | overflow | precision
  deriving DecidableEq

structure Decimal where
  point : Bool
  fractionDigits : ℕ
  digitCount : ℕ
  whole : ℕ
  fraction : ℕ
  deriving DecidableEq

def Decimal.start : Decimal := ⟨false, 0, 0, 0, 0⟩

def digit (c : Char) : ℕ := c.toNat - 48

def scan (r : Rules) : Decimal → List Char → Except Fault Decimal
  | d, [] => .ok d
  | d, c :: rest =>
    if c = '.' then
      if r.fractional = false ∨ d.point = true ∨ (r.leadingPoint = false ∧ d.digitCount = 0) ∨
          rest = [] then .error .point
      else scan r { d with point := true } rest
    else if isDigit c = false then .error .character
    else if d.point = false then
      if (r.greatest - digit c) / 10 < d.whole then .error .overflow
      else scan r
        { d with digitCount := d.digitCount + 1, whole := d.whole * 10 + digit c } rest
    else if r.limit < d.fractionDigits + 1 then .error .precision
    else scan r
      { d with
        digitCount := d.digitCount + 1
        fractionDigits := d.fractionDigits + 1
        fraction := d.fraction * 10 + digit c } rest

/-! ## Runs of digits -/

def valueFrom (value : ℕ) (digits : List Char) : ℕ :=
  digits.foldl (fun value c => 10 * value + (c.toNat - 48)) value

theorem le_valueFrom : ∀ (digits : List Char) (value : ℕ), value ≤ valueFrom value digits
  | [], _ => le_rfl
  | c :: digits, value => by
    have hnext := le_valueFrom digits (10 * value + (c.toNat - 48))
    have heq : valueFrom value (c :: digits) = valueFrom (10 * value + (c.toNat - 48)) digits := rfl
    omega

variable {c : Char}

theorem digit_lt (h : isDigit c = true) : digit c < 10 := by
  rw [isDigit, Bool.and_eq_true, decide_eq_true_eq, decide_eq_true_eq] at h
  unfold digit
  omega

theorem ne_point (h : isDigit c = true) : c ≠ '.' := by
  rintro rfl
  exact absurd h (by decide)

variable {r : Rules} {digits rest : List Char}

theorem scan_whole (rest : List Char) (hdigits : ∀ c ∈ digits, isDigit c = true) :
    ∀ {d : Decimal}, d.point = false → d.whole ≤ r.greatest →
      scan r d (digits ++ rest) =
        if r.greatest < valueFrom d.whole digits then .error .overflow
        else scan r
          { d with
            digitCount := d.digitCount + digits.length
            whole := valueFrom d.whole digits } rest := by
  induction digits with
  | nil =>
    intro d _ hwhole
    exact (if_neg (Nat.not_lt.mpr hwhole)).symm
  | cons c digits ih =>
    intro d hpoint hwhole
    have hc : isDigit c = true := hdigits c (by simp)
    have hlt := digit_lt hc
    have hgreatest := r.digit_le
    have hadded : d.whole * 10 + digit c = 10 * d.whole + (c.toNat - 48) := by
      unfold digit
      omega
    have hvalue : valueFrom d.whole (c :: digits) = valueFrom (d.whole * 10 + digit c) digits := by
      rw [hadded]
      rfl
    rw [List.cons_append, scan, if_neg (ne_point hc), if_neg (by simp [hc]), if_pos hpoint, hvalue]
    by_cases hover : (r.greatest - digit c) / 10 < d.whole
    · have := le_valueFrom digits (d.whole * 10 + digit c)
      rw [if_pos hover, if_pos (by omega)]
    · have hnext := ih (fun c' hc' => hdigits c' (List.mem_cons_of_mem _ hc'))
        (d := ⟨d.point, d.fractionDigits, d.digitCount + 1, d.whole * 10 + digit c, d.fraction⟩)
        hpoint (by simp only; omega)
      rw [if_neg hover, hnext, List.length_cons]
      simp only [Nat.add_assoc, Nat.add_comm 1]

theorem scan_fraction (rest : List Char) (hdigits : ∀ c ∈ digits, isDigit c = true) :
    ∀ {d : Decimal}, d.point = true → d.fractionDigits ≤ r.limit →
      scan r d (digits ++ rest) =
        if r.limit < d.fractionDigits + digits.length then .error .precision
        else scan r
          { d with
            digitCount := d.digitCount + digits.length
            fractionDigits := d.fractionDigits + digits.length
            fraction := valueFrom d.fraction digits } rest := by
  induction digits with
  | nil =>
    intro d _ hlimit
    exact (if_neg (Nat.not_lt.mpr hlimit)).symm
  | cons c digits ih =>
    intro d hpoint hlimit
    have hc : isDigit c = true := hdigits c (by simp)
    have hvalue : valueFrom d.fraction (c :: digits) =
        valueFrom (d.fraction * 10 + digit c) digits := by
      rw [Nat.mul_comm]
      rfl
    rw [List.cons_append, scan, if_neg (ne_point hc), if_neg (by simp [hc]),
      if_neg (by simp [hpoint]), hvalue]
    by_cases hover : r.limit < d.fractionDigits + 1
    · rw [if_pos hover, if_pos (by rw [List.length_cons]; omega)]
    · have hnext := ih (fun c' hc' => hdigits c' (List.mem_cons_of_mem _ hc'))
        (d := ⟨d.point, d.fractionDigits + 1, d.digitCount + 1, d.whole,
          d.fraction * 10 + digit c⟩) hpoint (by simp only; omega)
      rw [if_neg hover, hnext, List.length_cons]
      simp only [Nat.add_assoc, Nat.add_comm 1]

theorem isDigit_of_dropWhile {text tail : List Char}
    (h : text.dropWhile isDigit = c :: tail) : isDigit c = false := by
  have hhead := List.head?_dropWhile_not isDigit text
  rw [h] at hhead
  exact hhead

theorem takeWhile_digits (text : List Char) : ∀ c ∈ text.takeWhile isDigit, isDigit c = true :=
  fun _ hc => List.mem_takeWhile_imp hc

/-! ## What is accepted -/

inductive Written (r : Rules) : List Char → Decimal → Prop
  | whole (digits : List Char) (hdigits : ∀ c ∈ digits, isDigit c = true) :
      Written r digits ⟨false, 0, digits.length, digitsValue digits, 0⟩
  | fraction (digits fraction : List Char) (hdigits : ∀ c ∈ digits, isDigit c = true)
      (hfraction : Digits fraction) (hfractional : r.fractional = true)
      (hleading : digits = [] → r.leadingPoint = true) (hlimit : fraction.length ≤ r.limit) :
      Written r (digits ++ '.' :: fraction)
        ⟨true, fraction.length, digits.length + fraction.length, digitsValue digits,
          digitsValue fraction⟩

variable {text : List Char} {d : Decimal}

theorem Written.mem (h : Written r text d) (hc : c ∈ text) : c = '.' ∨ isDigit c = true := by
  cases h with
  | whole _ hdigits => exact .inr (hdigits c hc)
  | fraction digits fraction hdigits hfraction =>
    obtain hc | hc := List.mem_append.mp hc
    · exact .inr (hdigits c hc)
    · exact (List.mem_cons.mp hc).imp_right (hfraction.2 c)

/-- Too large, or too many digits behind the point. -/
def Exceeds (r : Rules) (text : List Char) : Prop :=
  r.greatest < digitsValue (text.takeWhile isDigit) ∨
    ∃ tail, text.dropWhile isDigit = '.' :: tail ∧ r.fractional = true ∧
      (text.takeWhile isDigit = [] → r.leadingPoint = true) ∧
      r.limit < (tail.takeWhile isDigit).length

inductive Scanned (r : Rules) (text : List Char) : Except Fault Decimal → Prop
  | accepted (d : Decimal) (hwritten : Written r text d) (hwhole : d.whole ≤ r.greatest)
      (hfits : ¬ Exceeds r text) : Scanned r text (.ok d)
  | exceeding (f : Fault) (hfault : f = .overflow ∨ f = .precision) (hexceeds : Exceeds r text) :
      Scanned r text (.error f)
  | malformed (f : Fault) (hfault : f = .point ∨ f = .character) (hfits : ¬ Exceeds r text) :
      Scanned r text (.error f)

theorem scan_start (rest : List Char) (hdigits : ∀ c ∈ digits, isDigit c = true) :
    scan r .start (digits ++ rest) =
      if r.greatest < digitsValue digits then .error .overflow
      else scan r ⟨false, 0, digits.length, digitsValue digits, 0⟩ rest := by
  have hscan := scan_whole (r := r) rest hdigits (d := .start) rfl (Nat.zero_le _)
  simp only [Decimal.start, Nat.zero_add] at hscan
  exact hscan

theorem scan_tail (count whole : ℕ) (rest : List Char) (hdigits : ∀ c ∈ digits, isDigit c = true) :
    scan r ⟨true, 0, count, whole, 0⟩ (digits ++ rest) =
      if r.limit < digits.length then .error .precision
      else scan r ⟨true, digits.length, count + digits.length, whole, digitsValue digits⟩ rest := by
  have hscan := scan_fraction (r := r) rest hdigits (d := ⟨true, 0, count, whole, 0⟩) rfl
    (Nat.zero_le _)
  rw [Nat.zero_add] at hscan
  exact hscan

theorem scan_scanned (text : List Char) : Scanned r text (scan r .start text) := by
  have hsplit := List.takeWhile_append_dropWhile (p := isDigit) (l := text)
  have hscan := scan_start (r := r) (text.dropWhile isDigit) (takeWhile_digits text)
  rw [hsplit] at hscan
  rw [hscan]
  by_cases hover : r.greatest < digitsValue (text.takeWhile isDigit)
  · rw [if_pos hover]
    exact .exceeding _ (.inl rfl) (.inl hover)
  rw [if_neg hover]
  cases hdrop : text.dropWhile isDigit with
  | nil =>
    rw [hdrop, List.append_nil] at hsplit
    rw [hsplit] at hover ⊢
    refine .accepted _ (.whole text (hsplit ▸ takeWhile_digits _)) (Nat.le_of_not_lt hover) ?_
    rintro (h | ⟨tail, htail, -⟩)
    · exact hover (hsplit ▸ h)
    · rw [hdrop] at htail
      cases htail
  | cons c tail =>
    by_cases hpoint : c = '.'
    · subst hpoint
      rw [hdrop] at hsplit
      rw [scan, if_pos rfl]
      by_cases hform : r.fractional = false ∨ false = true ∨ (r.leadingPoint = false ∧
          (text.takeWhile isDigit).length = 0) ∨ tail = []
      · rw [if_pos hform]
        refine .malformed _ (.inl rfl) ?_
        rintro (h | ⟨tail', htail, hfractional, hleading, hlimit⟩)
        · exact hover h
        rw [hdrop] at htail
        cases htail
        obtain h | h | ⟨h, hnone⟩ | h := hform
        · simp [h] at hfractional
        · cases h
        · simp [hleading (List.length_eq_zero_iff.mp hnone)] at h
        · simp [h] at hlimit
      simp only [not_or, Bool.not_eq_false, not_and, List.length_eq_zero_iff] at hform
      obtain ⟨hfractional, -, hleading, htail⟩ := hform
      have hleading' : text.takeWhile isDigit = [] → r.leadingPoint = true := fun h =>
        Bool.not_eq_false _ ▸ fun hl => hleading hl h
      have htailSplit := List.takeWhile_append_dropWhile (p := isDigit) (l := tail)
      have hscan := scan_tail (r := r) (text.takeWhile isDigit).length
        (digitsValue (text.takeWhile isDigit)) (tail.dropWhile isDigit)
        (takeWhile_digits tail)
      rw [htailSplit] at hscan
      rw [if_neg (by simpa [hfractional, htail] using hleading), hscan]
      by_cases hlimit : r.limit < (tail.takeWhile isDigit).length
      · rw [if_pos hlimit]
        exact .exceeding _ (.inr rfl) (.inr ⟨tail, hdrop, hfractional, hleading', hlimit⟩)
      rw [if_neg hlimit]
      have hfits : ¬ Exceeds r text := by
        rintro (h | ⟨tail', htail', -, -, h⟩)
        · exact hover h
        · rw [hdrop] at htail'
          cases htail'
          exact hlimit h
      cases hrest : tail.dropWhile isDigit with
      | nil =>
        rw [hrest, List.append_nil] at htailSplit
        rw [htailSplit] at hlimit ⊢
        refine .accepted _ ?_ (Nat.le_of_not_lt hover) hfits
        have hwritten := Written.fraction (r := r) (text.takeWhile isDigit) tail (takeWhile_digits _)
          ⟨htail, htailSplit ▸ takeWhile_digits _⟩ hfractional hleading' (Nat.le_of_not_lt hlimit)
        rw [hsplit] at hwritten
        exact hwritten
      | cons c rest =>
        have hc := isDigit_of_dropWhile hrest
        by_cases hagain : c = '.'
        · rw [scan, if_pos hagain, if_pos (.inr (.inl rfl))]
          exact .malformed _ (.inl rfl) hfits
        · rw [scan, if_neg hagain, if_pos hc]
          exact .malformed _ (.inr rfl) hfits
    · rw [scan, if_neg hpoint, if_pos (isDigit_of_dropWhile hdrop)]
      refine .malformed _ (.inr rfl) ?_
      rintro (h | ⟨tail', htail, -⟩)
      · exact hover h
      · rw [hdrop] at htail
        exact hpoint (List.cons.inj htail).1

theorem Written.scan_eq (h : Written r text d)
    (hwhole : d.whole ≤ r.greatest) : scan r .start text = .ok d := by
  cases h with
  | whole digits hdigits =>
    have hscan := scan_start (r := r) [] hdigits
    rw [if_neg (Nat.not_lt.mpr hwhole), List.append_nil] at hscan
    exact hscan
  | fraction digits fraction hdigits hfraction hfractional hleading hlimit =>
    have htail := scan_tail (r := r) digits.length (digitsValue digits) [] hfraction.2
    rw [List.append_nil, if_neg (Nat.not_lt.mpr hlimit)] at htail
    rw [scan_start _ hdigits, if_neg (Nat.not_lt.mpr hwhole), scan, if_pos rfl, if_neg, htail,
      scan]
    rintro (h | h | ⟨h, hnone⟩ | h)
    · simp [h] at hfractional
    · cases h
    · simp [hleading (List.length_eq_zero_iff.mp hnone)] at h
    · exact hfraction.1 h

theorem Written.exceeds (h : Written r text d)
    (hwhole : r.greatest < d.whole) : Exceeds r text := by
  cases h with
  | whole digits hdigits =>
    refine .inl ?_
    rw [List.takeWhile_eq_self_iff.mpr hdigits]
    exact hwhole
  | fraction digits fraction hdigits =>
    refine .inl ?_
    rw [List.takeWhile_append_of_pos hdigits]
    simpa [isDigit] using hwhole

/-- **Exactly the numbers in decimal notation** that are not too large. -/
theorem scan_eq_ok_iff : scan r .start text = .ok d ↔ Written r text d ∧ d.whole ≤ r.greatest := by
  refine ⟨fun h => ?_, fun h => h.1.scan_eq h.2⟩
  have hscanned := scan_scanned (r := r) text
  rw [h] at hscanned
  cases hscanned with
  | accepted _ hwritten hwhole _ => exact ⟨hwritten, hwhole⟩

end Decimals
