import Mathlib.Algebra.Group.Int.Defs
import Mathlib.Algebra.Group.Nat.Defs
import Mathlib.Data.Int.Notation
import Mathlib.Data.List.TakeWhile

/-!
# Decimal numerals and their C conversions

* `Sign`, `scanNumeral`: blanks, a sign, then the longest run of digits;
* `strtoll`, `strtoull`: the value, the rest of the text and whether it was out of range;
* `scanNumeral_eq_some_iff`: what a scan accepts as a whole.
-/

namespace Numerals

def isBlank (c : Char) : Bool := c = ' ' || (9 ≤ c.toNat && c.toNat ≤ 13)

def isDigit (c : Char) : Bool := 48 ≤ c.toNat && c.toNat ≤ 57

def digitsValue (digits : List Char) : ℕ :=
  digits.foldl (fun value c => 10 * value + (c.toNat - 48)) 0

inductive Sign
  | none | plus | minus
  deriving DecidableEq

def Sign.text : Sign → List Char
  | .none => []
  | .plus => ['+']
  | .minus => ['-']

def Digits (digits : List Char) : Prop := digits ≠ [] ∧ ∀ c ∈ digits, isDigit c = true

def splitSign : List Char → Sign × List Char
  | [] => (.none, [])
  | c :: rest => if c = '+' then (.plus, rest) else if c = '-' then (.minus, rest)
    else (.none, c :: rest)

/-- A numeral at the start of a text. -/
def scanNumeral (text : List Char) : Option (Sign × List Char × List Char) :=
  let (sign, rest) := splitSign (text.dropWhile isBlank)
  if rest.takeWhile isDigit = [] then none
  else some (sign, rest.takeWhile isDigit, rest.dropWhile isDigit)

structure Conversion (α : Type) where
  value : α
  rest : List Char
  /-- The conversion was made: `end` moved. -/
  moved : Bool
  outOfRange : Bool
  deriving DecidableEq

def Conversion.whole {α : Type} (conversion : Conversion α) : Bool :=
  !conversion.outOfRange && conversion.moved && conversion.rest.isEmpty

def strtoll (text : List Char) : Conversion ℤ :=
  match scanNumeral text with
  | none => ⟨0, text, false, false⟩
  | some (sign, digits, rest) =>
    let value : ℤ := if sign = .minus then -(digitsValue digits : ℤ) else digitsValue digits
    if value < -2 ^ 63 then ⟨-2 ^ 63, rest, true, true⟩
    else if 2 ^ 63 ≤ value then ⟨2 ^ 63 - 1, rest, true, true⟩
    else ⟨value, rest, true, false⟩

def strtoull (text : List Char) : Conversion ℕ :=
  match scanNumeral text with
  | none => ⟨0, text, false, false⟩
  | some (sign, digits, rest) =>
    if 2 ^ 64 ≤ digitsValue digits then ⟨2 ^ 64 - 1, rest, true, true⟩
    else if sign = .minus then ⟨(2 ^ 64 - digitsValue digits) % 2 ^ 64, rest, true, false⟩
    else ⟨digitsValue digits, rest, true, false⟩

/-! ## What a scan accepts -/

theorem isDigit_of_sign {c : Char} (h : c = '+' ∨ c = '-') : isDigit c = false := by
  rcases h with rfl | rfl <;> decide

theorem not_isBlank_of_isDigit {c : Char} (h : isDigit c = true) : isBlank c = false := by
  rw [isDigit, Bool.and_eq_true, decide_eq_true_eq, decide_eq_true_eq] at h
  rw [isBlank, Bool.or_eq_false_iff, Bool.and_eq_false_iff, decide_eq_false_iff_not,
    decide_eq_false_iff_not, decide_eq_false_iff_not]
  refine ⟨?_, .inr (by omega)⟩
  rintro rfl
  exact absurd h.1 (by decide)

theorem dropWhile_isBlank {blanks rest : List Char} (hblanks : ∀ c ∈ blanks, isBlank c = true)
    (hrest : ∀ c ∈ rest.head?, isBlank c = false) : (blanks ++ rest).dropWhile isBlank = rest := by
  induction blanks with
  | nil =>
    cases rest with
    | nil => rfl
    | cons c rest => rw [List.nil_append, List.dropWhile_cons_of_neg (by simp [hrest c (by simp)])]
  | cons c blanks ih =>
    rw [List.cons_append, List.dropWhile_cons_of_pos (hblanks c (by simp))]
    exact ih fun d hd => hblanks d (by simp [hd])

theorem splitSign_append (sign : Sign) {digits : List Char} (h : Digits digits) :
    splitSign (sign.text ++ digits) = (sign, digits) := by
  cases sign with
  | plus => rfl
  | minus => rfl
  | none =>
    obtain ⟨hne, hdigits⟩ := h
    cases digits with
    | nil => exact absurd rfl hne
    | cons c rest =>
      have hc : isDigit c = true := hdigits c (by simp)
      have hplus : c ≠ '+' := fun hsame => by
        rw [isDigit_of_sign (.inl hsame)] at hc
        cases hc
      have hminus : c ≠ '-' := fun hsame => by
        rw [isDigit_of_sign (.inr hsame)] at hc
        cases hc
      simp [Sign.text, splitSign, hplus, hminus]

theorem splitSign_text (text : List Char) :
    (splitSign text).1.text ++ (splitSign text).2 = text := by
  cases text with
  | nil => rfl
  | cons c rest =>
    rw [splitSign]
    split
    next h => simp [Sign.text, h]
    next =>
      split
      next h => simp [Sign.text, h]
      next => rfl

theorem scanNumeral_eq_some_iff {text digits : List Char} {sign : Sign} :
    scanNumeral text = some (sign, digits, []) ↔
      Digits digits ∧ ∃ blanks, (∀ c ∈ blanks, isBlank c = true) ∧
        text = blanks ++ (sign.text ++ digits) := by
  constructor
  · intro h
    rw [scanNumeral] at h
    dsimp only at h
    split at h
    next => cases h
    next hne =>
      rw [Option.some.injEq, Prod.mk.injEq, Prod.mk.injEq] at h
      obtain ⟨hsign, hdigits, hrest⟩ := h
      have hall : (splitSign (text.dropWhile isBlank)).2 = digits := by
        have := List.takeWhile_append_dropWhile (p := isDigit)
          (l := (splitSign (text.dropWhile isBlank)).2)
        rw [hdigits, hrest, List.append_nil] at this
        exact this.symm
      refine ⟨⟨hdigits ▸ hne, fun c hc => ?_⟩, text.takeWhile isBlank, ?_, ?_⟩
      · rw [← hdigits] at hc
        exact List.mem_takeWhile_imp hc
      · intro c hc
        exact List.mem_takeWhile_imp hc
      · rw [← hsign, ← hall, splitSign_text, List.takeWhile_append_dropWhile]
  · rintro ⟨hdigits, blanks, hblanks, rfl⟩
    have hhead : ∀ c ∈ (sign.text ++ digits).head?, isBlank c = false := by
      intro c hc
      cases sign with
      | plus =>
        cases hc
        decide
      | minus =>
        cases hc
        decide
      | none =>
        exact not_isBlank_of_isDigit (hdigits.2 c (List.mem_of_mem_head? hc))
    have htake : digits.takeWhile isDigit = digits :=
      List.takeWhile_eq_self_iff.mpr hdigits.2
    have hdrop : digits.dropWhile isDigit = [] := by
      have := List.takeWhile_append_dropWhile (p := isDigit) (l := digits)
      rw [htake] at this
      simpa using this
    rw [scanNumeral, dropWhile_isBlank hblanks hhead, splitSign_append sign hdigits]
    dsimp only
    rw [htake, hdrop, if_neg hdigits.1]

end Numerals
