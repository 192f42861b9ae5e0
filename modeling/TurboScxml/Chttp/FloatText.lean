import TurboScxml.Chttp.Codec

/-!
# The text of a double

`canonicalize_float_text` rewrites the text of `snprintf` in the storage it stands in.

* `canonicalizeInPlace_eq`: the writes never overtake the reads, so that the result is that of
  `canonicalizeFloatText`, which builds a new text;
* **`canonicalizeInPlace_exact`**: what the function does with every text.
-/

namespace TurboScxml.Chttp

/-! ## In place -/

/-- The storage with `read_index` and `write_index`. -/
structure FloatCursor where
  storage : Bytes
  readIndex : ℕ
  writeIndex : ℕ

namespace FloatCursor

variable (size : ℕ) (c : FloatCursor)

/-- `storage[read_index]`, while `read_index < size`. -/
def head : Option UInt8 := (c.storage.take size)[c.readIndex]?

/-- `storage[write_index++] = value`. -/
def put (value : UInt8) : FloatCursor :=
  { c with storage := c.storage.set c.writeIndex value, writeIndex := c.writeIndex + 1 }

/-- `++read_index`. -/
def skip : FloatCursor := { c with readIndex := c.readIndex + 1 }

theorem readIndex_lt {b : UInt8} (h : c.head size = some b) : c.readIndex < size := by
  obtain ⟨hlt, -⟩ := List.getElem?_eq_some_iff.mp h
  rw [List.length_take] at hlt
  omega

def copySign : FloatCursor :=
  match c.head size with
  | some b => if b == 0x2B || b == 0x2D then (c.put b).skip else c
  | none => c

def copyDigits (c : FloatCursor) : FloatCursor :=
  match _h : c.head size with
  | some b => if isDigit b then copyDigits (c.put b).skip else c
  | none => c
termination_by size - c.readIndex
decreasing_by
  have := c.readIndex_lt size ‹_›
  change size - (c.readIndex + 1) < _
  omega

def skipRadix (c : FloatCursor) : FloatCursor :=
  match _h : c.head size with
  | some b => if !isDigit b && !isExponent b then skipRadix c.skip else c
  | none => c
termination_by size - c.readIndex
decreasing_by
  have := c.readIndex_lt size ‹_›
  change size - (c.readIndex + 1) < _
  omega

def digits : Option FloatCursor :=
  if (c.head size).any isDigit then some (c.copyDigits size) else none

def fraction : Option FloatCursor :=
  match c.head size with
  | some b => if isExponent b then some c else ((c.put 0x2E).skipRadix size).digits size
  | none => some c

def exponent : Option FloatCursor :=
  match c.head size with
  | some b => if isExponent b then ((c.put 0x65).skip.copySign size).digits size else some c
  | none => some c

end FloatCursor

/-- `canonicalize_float_text`. -/
def canonicalizeInPlace (storage : Bytes) (size : ℕ) : Option (Bytes × ℕ) := do
  let c := (FloatCursor.mk storage 0 0).copySign size
  let c ← c.digits size
  let c ← c.fraction size
  let c ← c.exponent size
  if c.readIndex ≠ size then none
  else some (c.storage.set c.writeIndex 0, c.writeIndex)

structure Shows (size : ℕ) (c : FloatCursor) (out rest : Bytes) : Prop where
  written : c.storage.take c.writeIndex = out
  left : (c.storage.take size).drop c.readIndex = rest
  behind : c.writeIndex ≤ c.readIndex
  inside : c.readIndex ≤ size
  room : size < c.storage.length

namespace Shows

variable {size : ℕ} {c : FloatCursor} {out rest : Bytes} {b : UInt8}

theorem head_eq (h : Shows size c out rest) : c.head size = rest.head? := by
  rw [← h.left, List.head?_drop]
  rfl

theorem lt (h : Shows size c out (b :: rest)) : c.readIndex < size :=
  c.readIndex_lt size h.head_eq

theorem length_eq (h : Shows size c out rest) : out.length = c.writeIndex := by
  have := h.behind
  have := h.inside
  have := h.room
  rw [← h.written, List.length_take]
  omega

theorem rest_eq_nil (h : Shows size c out rest) : rest = [] ↔ c.readIndex = size := by
  have := h.inside
  have := h.room
  rw [← h.left, List.drop_eq_nil_iff, List.length_take]
  omega

theorem take_set (h : Shows size c out rest) (value : UInt8) :
    (c.storage.set c.writeIndex value).take (c.writeIndex + 1) = out ++ [value] := by
  have hlt : c.writeIndex < (c.storage.set c.writeIndex value).length := by
    rw [List.length_set]
    have := h.behind
    have := h.inside
    have := h.room
    omega
  rw [List.take_add_one, List.take_set_of_le (Nat.le_refl _), h.written,
    List.getElem?_eq_getElem hlt, List.getElem_set_self]
  rfl

theorem skip (h : Shows size c out (b :: rest)) : Shows size c.skip out rest where
  written := h.written
  left := by
    change (c.storage.take size).drop (c.readIndex + 1) = rest
    rw [← List.drop_drop, h.left]
    rfl
  behind := Nat.le_succ_of_le h.behind
  inside := h.lt
  room := h.room

theorem put (h : Shows size c out (b :: rest)) (value : UInt8) :
    Shows size (c.put value).skip (out ++ [value]) rest where
  written := h.take_set value
  left := by
    have hbehind := h.behind
    change ((c.storage.set c.writeIndex value).take size).drop (c.readIndex + 1) = rest
    rw [List.take_set, List.drop_set_of_lt (by omega)]
    exact h.skip.left
  behind := Nat.succ_le_succ h.behind
  inside := h.lt
  room := by
    change size < (c.storage.set c.writeIndex value).length
    rw [List.length_set]
    exact h.room

theorem copySign (h : Shows size c out rest) :
    Shows size (c.copySign size) (out ++ (takeSign rest).1) (takeSign rest).2 := by
  rw [FloatCursor.copySign, h.head_eq]
  cases rest with
  | nil => simpa only [List.head?_nil, takeSign, List.append_nil] using h
  | cons b rest =>
    simp only [List.head?_cons, takeSign]
    split_ifs with hsign
    · exact h.put b
    · simpa only [List.append_nil] using h

theorem copyDigits (h : Shows size c out rest) :
    Shows size (c.copyDigits size) (out ++ rest.takeWhile isDigit) (rest.dropWhile isDigit) := by
  induction rest generalizing c out with
  | nil =>
    rw [FloatCursor.copyDigits]
    split
    next hhead => rw [h.head_eq] at hhead; cases hhead
    next => simpa only [List.takeWhile_nil, List.dropWhile_nil, List.append_nil] using h
  | cons b rest ih =>
    rw [FloatCursor.copyDigits]
    split
    next d hhead =>
      obtain rfl : b = d := Option.some_inj.mp (h.head_eq.symm.trans hhead)
      split_ifs with hdigit
      · rw [List.takeWhile_cons_of_pos hdigit, List.dropWhile_cons_of_pos hdigit,
          List.append_cons]
        exact ih (h.put b)
      · rwa [List.takeWhile_cons_of_neg hdigit, List.dropWhile_cons_of_neg hdigit,
          List.append_nil]
    next hhead => rw [h.head_eq] at hhead; cases hhead

theorem skipRadix (h : Shows size c out rest) :
    Shows size (c.skipRadix size) out
      (rest.dropWhile fun b => !isDigit b && !isExponent b) := by
  induction rest generalizing c with
  | nil =>
    rw [FloatCursor.skipRadix]
    split
    next hhead => rw [h.head_eq] at hhead; cases hhead
    next => exact h
  | cons b rest ih =>
    rw [FloatCursor.skipRadix]
    split
    next d hhead =>
      obtain rfl : b = d := Option.some_inj.mp (h.head_eq.symm.trans hhead)
      split_ifs with hradix
      · rw [List.dropWhile_cons, if_pos hradix]
        exact ih h.skip
      · rwa [List.dropWhile_cons, if_neg hradix]
    next hhead => rw [h.head_eq] at hhead; cases hhead

theorem skipRadix_put (h : Shows size c out (b :: rest))
    (hradix : (!isDigit b && !isExponent b) = true) :
    (c.put 0x2E).skipRadix size = (c.put 0x2E).skip.skipRadix size := by
  have hhead : ∃ d, (c.put 0x2E).head size = some d ∧ (!isDigit d && !isExponent d) = true := by
    have hlt := h.lt
    have hroom := h.room
    change ∃ d, ((c.storage.set c.writeIndex 0x2E).take size)[c.readIndex]? = some d ∧ _
    rw [List.getElem?_take_of_lt hlt]
    by_cases hsame : c.writeIndex = c.readIndex
    · rw [hsame, List.getElem?_set_self (by omega)]
      exact ⟨_, rfl, by decide⟩
    · have hb : c.head size = some b := h.head_eq
      rw [FloatCursor.head, List.getElem?_take_of_lt hlt] at hb
      rw [List.getElem?_set_ne hsame]
      exact ⟨b, hb, hradix⟩
  obtain ⟨d, hd, hskipped⟩ := hhead
  rw [FloatCursor.skipRadix]
  split
  next d' hd' =>
    obtain rfl : d' = d := Option.some_inj.mp (hd'.symm.trans hd)
    rw [if_pos hskipped]
  next hnone => rw [hd] at hnone; cases hnone

/-- A part of the text is written behind the output, or refused. -/
def Follows (size : ℕ) (out : Bytes) (found : Option (Bytes × Bytes)) (next : Option FloatCursor) :
    Prop :=
  (found = none ∧ next = none) ∨
    ∃ part c, found = some part ∧ next = some c ∧ Shows size c (out ++ part.1) part.2

theorem Follows.behind {pre : Bytes} {found : Option (Bytes × Bytes)} {next : Option FloatCursor}
    (h : Follows size (out ++ pre) found next) :
    Follows size out (found.map fun part => (pre ++ part.1, part.2)) next := by
  rcases h with ⟨rfl, rfl⟩ | ⟨part, c, rfl, rfl, hshows⟩
  · exact .inl ⟨rfl, rfl⟩
  · exact .inr ⟨_, c, rfl, rfl, by rwa [List.append_assoc] at hshows⟩

variable (h : Shows size c out rest)
include h

theorem digits : Follows size out (if rest.takeWhile isDigit = [] then none
      else some (rest.takeWhile isDigit, rest.dropWhile isDigit)) (c.digits size) := by
  rw [FloatCursor.digits, h.head_eq]
  cases rest with
  | nil => exact .inl ⟨rfl, if_neg Bool.false_ne_true⟩
  | cons b rest =>
    by_cases hdigit : isDigit b = true
    · rw [if_neg (by simp [hdigit]), List.head?_cons, Option.any_some, if_pos hdigit]
      exact .inr ⟨_, _, rfl, rfl, h.copyDigits⟩
    · rw [if_pos (List.takeWhile_cons_of_neg hdigit), List.head?_cons, Option.any_some,
        if_neg hdigit]
      exact .inl ⟨rfl, rfl⟩

theorem fraction (hrest : rest.head?.any isDigit = false) :
    Follows size out (takeFraction rest) (c.fraction size) := by
  rw [FloatCursor.fraction, h.head_eq]
  cases rest with
  | nil => exact .inr ⟨([], []), c, rfl, rfl, by rwa [List.append_nil]⟩
  | cons b rest =>
    simp only [List.head?_cons, takeFraction, List.span_eq_takeWhile_dropWhile]
    by_cases hmark : isExponent b = true
    · rw [if_pos hmark, if_pos hmark]
      exact .inr ⟨([], b :: rest), c, rfl, rfl, by rwa [List.append_nil]⟩
    · have hdigit : isDigit b = false := hrest
      have hradix : (!isDigit b && !isExponent b) = true := by
        rw [hdigit, Bool.eq_false_of_not_eq_true hmark]
        rfl
      have hdigits := (h.put 0x2E).skipRadix.digits.behind
      rw [apply_ite (Option.map _)] at hdigits
      rw [if_neg hmark, if_neg hmark, h.skipRadix_put hradix, List.dropWhile_cons, if_pos hradix]
      exact hdigits

theorem exponent : Follows size out (takeExponent rest) (c.exponent size) := by
  rw [FloatCursor.exponent, h.head_eq]
  cases rest with
  | nil => exact .inr ⟨([], []), c, rfl, rfl, by rwa [List.append_nil]⟩
  | cons b rest =>
    simp only [List.head?_cons, takeExponent, List.span_eq_takeWhile_dropWhile]
    by_cases hmark : isExponent b = true
    · have hdigits := (h.put 0x65).copySign.digits
      rw [List.append_assoc] at hdigits
      have hbehind := hdigits.behind
      rw [apply_ite (Option.map _)] at hbehind
      rw [if_pos hmark, if_pos hmark]
      exact hbehind
    · rw [if_neg hmark, if_neg hmark]
      exact .inr ⟨([], b :: rest), c, rfl, rfl, by rwa [List.append_nil]⟩

end Shows

theorem head_dropWhile (p : UInt8 → Bool) (text : Bytes) :
    (text.dropWhile p).head?.any p = false := by
  have := List.head?_dropWhile_not p text
  cases hhead : (text.dropWhile p).head? with
  | none => rfl
  | some b =>
    rw [hhead] at this
    exact this

/-- **The text is rewritten in place as if into a new one.** -/
theorem canonicalizeInPlace_eq (text tail : Bytes) :
    (canonicalizeFloatText text = none ∧
      canonicalizeInPlace (text ++ 0 :: tail) text.length = none) ∨
    ∃ out after, canonicalizeFloatText text = some out ∧
      canonicalizeInPlace (text ++ 0 :: tail) text.length = some (after, out.length) ∧
      after.take (out.length + 1) = out ++ [0] ∧ out.length ≤ text.length := by
  have hstart : Shows text.length ⟨text ++ 0 :: tail, 0, 0⟩ [] text :=
    ⟨rfl, List.take_left, Nat.le_refl _, Nat.zero_le _, by simp⟩
  simp only [canonicalizeFloatText, canonicalizeInPlace, List.span_eq_takeWhile_dropWhile,
    Option.bind_eq_bind]
  rcases hstart.copySign.digits with ⟨hnone, hnext⟩ | ⟨part, c, hpart, hnext, hwhole⟩
  · rw [hnext, if_pos (by_contra fun hne => by rw [if_neg hne] at hnone; cases hnone)]
    exact .inl ⟨rfl, rfl⟩
  · split_ifs at hpart with hnil
    cases hpart
    rw [hnext, if_neg hnil, Option.bind_some]
    rcases hwhole.fraction (head_dropWhile _ _) with
      ⟨hnone, hnext⟩ | ⟨part, c, hpart, hnext, hfraction⟩
    · rw [hnone, hnext]
      exact .inl ⟨rfl, rfl⟩
    · rw [hpart, hnext, Option.bind_some, Option.bind_some]
      rcases hfraction.exponent with ⟨hnone, hnext⟩ | ⟨part, c, hpart, hnext, h⟩
      · rw [hnone, hnext]
        exact .inl ⟨rfl, rfl⟩
      · rw [hpart, hnext, Option.bind_some, Option.bind_some]
        by_cases hend : part.2 = []
        · have hlength := h.length_eq
          rw [if_pos hend, if_neg (not_not.mpr (h.rest_eq_nil.mp hend))]
          refine .inr ⟨_, c.storage.set c.writeIndex 0, rfl, ?_, ?_, ?_⟩
          · rw [← hlength]
            rfl
          · exact (congrArg (fun n => List.take (n + 1) _) hlength).trans (h.take_set 0)
          · exact Nat.le_trans (Nat.le_of_eq hlength) (Nat.le_trans h.behind h.inside)
        · rw [if_neg hend, if_pos (mt h.rest_eq_nil.mpr hend)]
          exact .inl ⟨rfl, rfl⟩

/-! ## What is accepted -/

def IsSign (sign : Bytes) : Prop := sign = [] ∨ sign = [0x2B] ∨ sign = [0x2D]

def Digits (digits : Bytes) : Prop := digits ≠ [] ∧ ∀ b ∈ digits, isDigit b = true

/-- A radix and the digits behind it, or neither. -/
def IsFraction (radix digits : Bytes) : Prop :=
  (radix = [] ∧ digits = []) ∨
    (radix ≠ [] ∧ (∀ b ∈ radix, (!isDigit b && !isExponent b) = true) ∧ Digits digits)

def IsExponentPart (mark sign digits : Bytes) : Prop :=
  (mark = [] ∧ sign = [] ∧ digits = []) ∨
    ((∃ b, mark = [b] ∧ isExponent b = true) ∧ IsSign sign ∧ Digits digits)

def rewritten (part : Bytes) (value : UInt8) : Bytes := if part = [] then [] else [value]

/-- The parts of a text. -/
structure FloatParts where
  sign : Bytes
  whole : Bytes
  radix : Bytes
  fraction : Bytes
  mark : Bytes
  exponentSign : Bytes
  exponent : Bytes

namespace FloatParts

variable (p : FloatParts)

def text : Bytes :=
  p.sign ++ (p.whole ++ (p.radix ++ (p.fraction ++ (p.mark ++ (p.exponentSign ++ p.exponent)))))

structure Valid : Prop where
  sign : IsSign p.sign
  whole : Digits p.whole
  fraction : IsFraction p.radix p.fraction
  exponent : IsExponentPart p.mark p.exponentSign p.exponent

def canonical : FloatParts :=
  { p with radix := rewritten p.radix 0x2E, mark := rewritten p.mark 0x65 }

end FloatParts

variable {sign digits rest text : Bytes} {part : Bytes × Bytes}

theorem takeSign_append (rest : Bytes) (hsign : IsSign sign) (hdigits : Digits digits) :
    takeSign (sign ++ (digits ++ rest)) = (sign, digits ++ rest) := by
  obtain ⟨hne, hall⟩ := hdigits
  obtain ⟨d, digits, rfl⟩ := List.exists_cons_of_ne_nil hne
  rcases hsign with rfl | rfl | rfl
  · have hd := hall d List.mem_cons_self
    refine if_neg fun hsign => ?_
    rcases Bool.or_eq_true_iff.mp hsign with h | h
    all_goals
      rw [beq_iff_eq.mp h] at hd
      cases hd
  · rfl
  · rfl

theorem isSign_takeSign (text : Bytes) :
    IsSign (takeSign text).1 ∧ (takeSign text).1 ++ (takeSign text).2 = text := by
  cases text with
  | nil => exact ⟨.inl rfl, rfl⟩
  | cons b rest =>
    rw [takeSign]
    split_ifs with hsign
    · rcases Bool.or_eq_true_iff.mp hsign with h | h
      · exact ⟨.inr (.inl (by rw [beq_iff_eq.mp h])), rfl⟩
      · exact ⟨.inr (.inr (by rw [beq_iff_eq.mp h])), rfl⟩
    · exact ⟨.inl rfl, rfl⟩

theorem takeWhile_digits (hdigits : Digits digits) (hrest : rest.head?.any isDigit = false) :
    (digits ++ rest).takeWhile isDigit = digits ∧ (digits ++ rest).dropWhile isDigit = rest := by
  rw [List.takeWhile_append_of_pos hdigits.2, List.dropWhile_append_of_pos hdigits.2]
  cases rest with
  | nil => exact ⟨List.append_nil _, rfl⟩
  | cons b rest =>
    have hb : ¬isDigit b = true := Bool.eq_false_iff.mp hrest
    rw [List.takeWhile_cons_of_neg hb, List.dropWhile_cons_of_neg hb]
    exact ⟨List.append_nil _, rfl⟩

theorem not_digit_of_exponent (h : text.head?.all isExponent = true) :
    text.head?.any isDigit = false := by
  cases text with
  | nil => rfl
  | cons b rest =>
    rcases Bool.or_eq_true_iff.mp h with h | h
    all_goals
      rw [beq_iff_eq.mp h]
      rfl

theorem digits_takeWhile (h : text.takeWhile isDigit ≠ []) : Digits (text.takeWhile isDigit) :=
  ⟨h, fun _ hb => List.all_eq_true.mp List.all_takeWhile _ hb⟩

theorem takeFraction_append {radix : Bytes} (h : IsFraction radix digits)
    (hrest : rest.head?.all isExponent = true) :
    takeFraction (radix ++ (digits ++ rest)) = some (rewritten radix 0x2E ++ digits, rest) := by
  rcases h with ⟨rfl, rfl⟩ | ⟨hne, hradix, hdigits⟩
  · cases rest with
    | nil => rfl
    | cons b rest => exact if_pos hrest
  · obtain ⟨b, radix, rfl⟩ := List.exists_cons_of_ne_nil hne
    have hb : ¬isExponent b = true := by
      have := hradix b List.mem_cons_self
      rw [Bool.and_eq_true_iff, Bool.not_eq_true', Bool.not_eq_true'] at this
      exact Bool.eq_false_iff.mp this.2
    obtain ⟨htake, hdrop⟩ := takeWhile_digits hdigits (not_digit_of_exponent hrest)
    have hskip : ((b :: radix) ++ (digits ++ rest)).dropWhile
        (fun b => !isDigit b && !isExponent b) = digits ++ rest := by
      rw [List.dropWhile_append_of_pos hradix]
      obtain ⟨d, digits, rfl⟩ := List.exists_cons_of_ne_nil hdigits.1
      refine List.dropWhile_cons_of_neg ?_
      rw [hdigits.2 d List.mem_cons_self]
      exact Bool.false_ne_true
    change (if isExponent b = true then _ else _) = _
    rw [if_neg hb, hskip]
    simp only [List.span_eq_takeWhile_dropWhile, htake, hdrop]
    rw [if_neg hdigits.1]
    rfl

theorem takeFraction_inv (h : takeFraction text = some part)
    (htext : text.head?.any isDigit = false) :
    ∃ radix digits, IsFraction radix digits ∧ radix ++ (digits ++ part.2) = text ∧
      part.1 = rewritten radix 0x2E ++ digits := by
  cases text with
  | nil =>
    cases h
    exact ⟨[], [], .inl ⟨rfl, rfl⟩, rfl, rfl⟩
  | cons b rest =>
    simp only [takeFraction, List.span_eq_takeWhile_dropWhile] at h
    split_ifs at h with hmark hnil
    · cases h
      exact ⟨[], [], .inl ⟨rfl, rfl⟩, rfl, rfl⟩
    · cases h
      have hb : isDigit b = false := htext
      have hne : (b :: rest).takeWhile (fun b => !isDigit b && !isExponent b) ≠ [] := by
        rw [List.takeWhile_cons, hb, Bool.eq_false_of_not_eq_true hmark]
        exact List.cons_ne_nil _ _
      refine ⟨_, _, .inr ⟨hne, List.all_eq_true.mp List.all_takeWhile, digits_takeWhile hnil⟩,
        ?_, ?_⟩
      · rw [List.takeWhile_append_dropWhile, List.takeWhile_append_dropWhile]
      · rw [rewritten, if_neg hne]
        rfl

theorem takeExponent_append {mark : Bytes} (h : IsExponentPart mark sign digits) :
    takeExponent (mark ++ (sign ++ digits)) =
      some (rewritten mark 0x65 ++ (sign ++ digits), []) := by
  rcases h with ⟨rfl, rfl, rfl⟩ | ⟨⟨b, rfl, hb⟩, hsign, hdigits⟩
  · rfl
  · have htext := takeSign_append [] hsign hdigits
    have hnil : ([] : Bytes).head?.any isDigit = false := rfl
    obtain ⟨htake, hdrop⟩ := takeWhile_digits hdigits hnil
    rw [List.append_nil] at htext htake hdrop
    rw [List.singleton_append, takeExponent, if_pos hb]
    simp only [htext, List.span_eq_takeWhile_dropWhile, htake, hdrop]
    rw [if_neg hdigits.1]
    rfl

theorem takeExponent_inv (h : takeExponent text = some part) (hend : part.2 = []) :
    ∃ mark sign digits, IsExponentPart mark sign digits ∧ mark ++ (sign ++ digits) = text ∧
      part.1 = rewritten mark 0x65 ++ (sign ++ digits) := by
  cases text with
  | nil =>
    cases h
    exact ⟨[], [], [], .inl ⟨rfl, rfl, rfl⟩, rfl, rfl⟩
  | cons b rest =>
    simp only [takeExponent, List.span_eq_takeWhile_dropWhile] at h
    split_ifs at h with hmark hnil
    · cases h
      obtain ⟨hsign, htext⟩ := isSign_takeSign rest
      have hdigits := List.takeWhile_append_dropWhile (p := isDigit) (l := (takeSign rest).2)
      rw [show ((takeSign rest).2).dropWhile isDigit = [] from hend, List.append_nil] at hdigits
      refine ⟨[b], _, _, .inr ⟨⟨b, rfl, hmark⟩, hsign, digits_takeWhile hnil⟩, ?_, rfl⟩
      rw [hdigits, htext]
      rfl
    · cases h
      cases hend

/-- **The texts that are accepted, and what is made of them.** -/
theorem canonicalizeFloatText_eq_some_iff {out : Bytes} : canonicalizeFloatText text = some out ↔
    ∃ p : FloatParts, p.Valid ∧ p.text = text ∧ p.canonical.text = out := by
  simp only [canonicalizeFloatText, List.span_eq_takeWhile_dropWhile, Option.bind_eq_bind]
  constructor
  · intro h
    split_ifs at h with hnil
    obtain ⟨fraction, hfraction, h⟩ := Option.bind_eq_some_iff.mp h
    obtain ⟨exponent, hexponent, h⟩ := Option.bind_eq_some_iff.mp h
    split_ifs at h with hend
    cases h
    obtain ⟨hsign, htext⟩ := isSign_takeSign text
    obtain ⟨radix, digits, hvalid, hrest, hout⟩ :=
      takeFraction_inv hfraction (head_dropWhile _ _)
    obtain ⟨mark, sign, power, hpower, hlast, hout'⟩ := takeExponent_inv hexponent hend
    refine ⟨⟨_, _, radix, digits, mark, sign, power⟩,
      ⟨hsign, digits_takeWhile hnil, hvalid, hpower⟩, ?_, ?_⟩
    · rw [FloatParts.text, hlast, hrest, List.takeWhile_append_dropWhile, htext]
    · rw [hout, hout']
      simp only [FloatParts.text, FloatParts.canonical, List.append_assoc]
  · rintro ⟨p, ⟨hsign, hwhole, hfraction, hexponent⟩, rfl, rfl⟩
    have hmark : (p.mark ++ (p.exponentSign ++ p.exponent)).head?.all isExponent = true := by
      rcases hexponent with ⟨hm, hs, he⟩ | ⟨⟨b, hm, hb⟩, -, -⟩
      · rw [hm, hs, he]
        rfl
      · rw [hm]
        exact hb
    have hradix : (p.radix ++ (p.fraction ++ (p.mark ++ (p.exponentSign ++ p.exponent)))).head?.any
        isDigit = false := by
      rcases hfraction with ⟨hr, hf⟩ | ⟨hne, hr, -⟩
      · rw [hr, hf]
        exact not_digit_of_exponent hmark
      · obtain ⟨b, radix, heq⟩ := List.exists_cons_of_ne_nil hne
        have := hr b (by rw [heq]; exact List.mem_cons_self)
        rw [Bool.and_eq_true_iff, Bool.not_eq_true'] at this
        rw [heq]
        exact this.1
    obtain ⟨htake, hdrop⟩ := takeWhile_digits hwhole hradix
    rw [FloatParts.text, takeSign_append _ hsign hwhole, htake, hdrop, if_neg hwhole.1,
      takeFraction_append hfraction hmark, Option.bind_some, takeExponent_append hexponent]
    simp [FloatParts.text, FloatParts.canonical]

theorem length_rewritten (part : Bytes) (value : UInt8) :
    (rewritten part value).length ≤ part.length := by
  rw [rewritten]
  split_ifs with h
  · exact Nat.zero_le _
  · exact List.length_pos_iff.mpr h

theorem rewritten_rewritten (part : Bytes) (value : UInt8) :
    rewritten (rewritten part value) value = rewritten part value := by
  cases part <;> rfl

namespace FloatParts

variable {p : FloatParts}

theorem canonical_canonical : p.canonical.canonical = p.canonical := by
  rw [canonical, canonical, rewritten_rewritten, rewritten_rewritten]

theorem length_canonical : p.canonical.text.length ≤ p.text.length := by
  have hradix := length_rewritten p.radix 0x2E
  have hmark := length_rewritten p.mark 0x65
  simp only [text, canonical, List.length_append]
  omega

theorem Valid.canonical (h : p.Valid) : p.canonical.Valid where
  sign := h.sign
  whole := h.whole
  fraction := by
    rcases h.fraction with ⟨hradix, hfraction⟩ | ⟨hne, -, hdigits⟩
    · exact .inl ⟨if_pos hradix, hfraction⟩
    · have hpoint : p.canonical.radix = [0x2E] := if_neg hne
      refine .inr ⟨hpoint ▸ List.cons_ne_nil _ _, fun b hb => ?_, hdigits⟩
      rw [hpoint, List.mem_singleton] at hb
      exact hb ▸ rfl
  exponent := by
    rcases h.exponent with ⟨hmark, hrest⟩ | ⟨⟨b, hmark, -⟩, hrest⟩
    · exact .inl ⟨if_pos hmark, hrest⟩
    · exact .inr ⟨⟨0x65, by rw [FloatParts.canonical, hmark]; rfl, rfl⟩, hrest⟩

end FloatParts

/-- **Main.** A sign, digits, a radix with digits and an exponent are accepted, the sign and the
last two optional, and rewritten with a point and an `e` into no longer a text; every other text is
refused. -/
theorem canonicalizeInPlace_exact (text tail : Bytes) :
    (∀ p : FloatParts, p.Valid → p.text = text → ∃ after,
      canonicalizeInPlace (text ++ 0 :: tail) text.length =
        some (after, p.canonical.text.length) ∧
      after.take (p.canonical.text.length + 1) = p.canonical.text ++ [0] ∧
      p.canonical.text.length ≤ text.length ∧
      p.canonical.Valid ∧ p.canonical.canonical = p.canonical) ∧
    ((∀ p : FloatParts, p.Valid → p.text ≠ text) →
      canonicalizeInPlace (text ++ 0 :: tail) text.length = none) := by
  rcases canonicalizeInPlace_eq text tail with
    ⟨hnone, hplace⟩ | ⟨out, after, hsome, hplace, htake, -⟩
  · refine ⟨fun p hp htext => ?_, fun _ => hplace⟩
    rw [canonicalizeFloatText_eq_some_iff.mpr ⟨p, hp, htext, rfl⟩] at hnone
    cases hnone
  · refine ⟨fun p hp htext => ?_, fun hall => ?_⟩
    · rw [canonicalizeFloatText_eq_some_iff.mpr ⟨p, hp, htext, rfl⟩] at hsome
      cases hsome
      exact ⟨after, hplace, htake, htext ▸ p.length_canonical, hp.canonical, p.canonical_canonical⟩
    · obtain ⟨p, hp, htext, -⟩ := canonicalizeFloatText_eq_some_iff.mp hsome
      exact absurd htext (hall p hp)

theorem canonicalizeInPlace_semicolon : ¬∀ text tail : Bytes,
    canonicalizeInPlace (text ++ 0 :: tail) text.length ≠ none →
      ∀ b ∈ text, isDigit b ∨ isExponent b ∨ b ∈ [0x2B, 0x2D, 0x2E, 0x2C] ∨ 0x80 ≤ b := by
  intro hall
  refine absurd (hall [0x31, 0x3B, 0x35] [] ?_ 0x3B (by decide)) (by decide)
  rcases canonicalizeInPlace_eq [0x31, 0x3B, 0x35] [] with ⟨hnone, -⟩ | ⟨out, after, -, hplace, -⟩
  · cases hnone
  · rw [hplace]
    exact Option.some_ne_none _

end TurboScxml.Chttp
