import Mathlib.Algebra.Group.Nat.Defs
import TurboScxml.Ccxml.Markup

/-!
# The grammar of attribute values

* `Piece`, `Piece.Valid`: a character or a reference, what it stands for, and which are valid;
* `Proper`: what is expected of the decoder for an input and a capacity;
* **`proper_iff`**: it is met exactly when the room does not run out at a character reference.
-/

namespace TurboScxml.Ccxml

namespace Compiler

/-! ## Pieces -/

inductive EntityName
  | lt | gt | amp | quot | apos
  deriving DecidableEq

def EntityName.source : EntityName → Text
  | .lt => "&lt;".toList
  | .gt => "&gt;".toList
  | .amp => "&amp;".toList
  | .quot => "&quot;".toList
  | .apos => "&apos;".toList

def EntityName.char : EntityName → Char
  | .lt => '<'
  | .gt => '>'
  | .amp => '&'
  | .quot => '"'
  | .apos => '\''

/-- How the digits of a character reference begin. -/
inductive Radix
  | decimal | lower | upper
  deriving DecidableEq

namespace Radix

def hexadecimal : Radix → Bool
  | decimal => false
  | lower | upper => true

def mark : Radix → Text
  | decimal => ['&', '#']
  | lower => ['&', '#', 'x']
  | upper => ['&', '#', 'X']

end Radix

inductive Piece
  | plain (c : Char)
  | named (entity : EntityName)
  | numeric (radix : Radix) (digits : Text)
  deriving DecidableEq

def digitsValue (hexadecimal : Bool) (value : ℕ) (digits : Text) : ℕ :=
  digits.foldl (fun value c =>
    value * digitBase hexadecimal + (digitValue hexadecimal c).getD 0) value

def ScalarValue (codepoint : ℕ) : Prop :=
  codepoint ≠ 0 ∧ codepoint ≤ 0x10ffff ∧ ¬(0xd800 ≤ codepoint ∧ codepoint ≤ 0xdfff)

/-- The UTF-8 encoding of a code point, one `Char` a byte. -/
def utf8 (codepoint : ℕ) : Text :=
  (String.utf8EncodeChar (Char.ofNat codepoint)).map fun b => Char.ofNat b.toNat

namespace Piece

def source : Piece → Text
  | plain c => [c]
  | named entity => entity.source
  | numeric radix digits => radix.mark ++ digits ++ [';']

def text : Piece → Text
  | plain c => [c]
  | named entity => [entity.char]
  | numeric radix digits => utf8 (digitsValue radix.hexadecimal 0 digits)

def Valid : Piece → Prop
  | plain c => c ≠ '&'
  | named _ => True
  | numeric radix digits =>
    digits ≠ [] ∧ (∀ c ∈ digits, (digitValue radix.hexadecimal c).isSome = true) ∧
      ScalarValue (digitsValue radix.hexadecimal 0 digits)

def isNumeric : Piece → Bool
  | numeric _ _ => true
  | _ => false

def whenFull (p : Piece) : DecodeStatus :=
  if p.isNumeric = true then .invalidCharacterReference else .capacityExceeded

end Piece

/-! ## Code points -/

theorem or_eq_add {k c low : ℕ} (h : low < 2 ^ k) : 2 ^ k * c ||| low = low + 2 ^ k * c := by
  rw [← Nat.two_pow_add_eq_or_of_lt h, Nat.add_comm]

theorem continuation_eq (codepoint : ℕ) :
    0x80 ||| (codepoint &&& 0x3f) = codepoint % 0x40 + 0x80 := by
  have hlow : codepoint &&& 0x3f = codepoint % 0x40 := Nat.and_two_pow_sub_one_eq_mod codepoint 6
  rw [hlow]
  exact @or_eq_add 6 2 _ (Nat.mod_lt _ (by decide))

theorem ofNat_toNat_uint8 {n : ℕ} (h : n < 256) :
    Char.ofNat (UInt8.ofNat n).toNat = Char.ofNat n := by
  rw [UInt8.toNat_ofNat', Nat.mod_eq_of_lt h]

theorem toNat_ofNat_of_scalar {codepoint : ℕ} (h : ScalarValue codepoint) :
    (Char.ofNat codepoint).val.toNat = codepoint := by
  obtain ⟨-, hmax, hsurrogate⟩ := h
  have hvalid : codepoint.isValidChar := by
    by_cases hlow : codepoint < 0xd800
    · exact .inl hlow
    · exact .inr ⟨by omega, by omega⟩
  rw [Char.ofNat, dif_pos hvalid]
  rfl

/-- **The bytes that are stored are the UTF-8 encoding.** -/
theorem utf8Bytes_eq_some {codepoint : ℕ} {bytes : Text} :
    utf8Bytes codepoint = some bytes ↔ ScalarValue codepoint ∧ utf8 codepoint = bytes := by
  by_cases hscalar : ScalarValue codepoint
  · have hnot : ¬(codepoint = 0 ∨ 0x10ffff < codepoint ∨
        (0xd800 ≤ codepoint ∧ codepoint ≤ 0xdfff)) := by
      obtain ⟨hzero, hmax, hsurrogate⟩ := hscalar
      omega
    have hbytes : utf8Bytes codepoint = some (utf8 codepoint) := by
      unfold utf8Bytes utf8 String.utf8EncodeChar
      rw [if_neg hnot, toNat_ofNat_of_scalar hscalar]
      simp only [Nat.shiftRight_eq_div_pow, continuation_eq]
      split_ifs with h1 h2 h3
      · simp only [List.map_cons, List.map_nil]
        rw [ofNat_toNat_uint8 (by omega)]
      · have hlead : 0xc0 ||| codepoint / 2 ^ 6 = codepoint / 64 % 0x20 + 0xc0 := by
          rw [Nat.mod_eq_of_lt (by omega)]
          exact @or_eq_add 5 6 _ (by omega)
        simp only [List.map_cons, List.map_nil, hlead]
        rw [ofNat_toNat_uint8 (by omega), ofNat_toNat_uint8 (by omega)]
      · have hlead : 0xe0 ||| codepoint / 2 ^ 12 = codepoint / 4096 % 0x10 + 0xe0 := by
          rw [Nat.mod_eq_of_lt (by omega)]
          exact @or_eq_add 4 14 _ (by omega)
        simp only [List.map_cons, List.map_nil, hlead]
        rw [ofNat_toNat_uint8 (by omega), ofNat_toNat_uint8 (by omega),
          ofNat_toNat_uint8 (by omega)]
      · have hlead : 0xf0 ||| codepoint / 2 ^ 18 = codepoint / 262144 % 0x08 + 0xf0 := by
          rw [Nat.mod_eq_of_lt (by omega)]
          exact @or_eq_add 3 30 _ (by omega)
        simp only [List.map_cons, List.map_nil, hlead]
        rw [ofNat_toNat_uint8 (by omega), ofNat_toNat_uint8 (by omega),
          ofNat_toNat_uint8 (by omega), ofNat_toNat_uint8 (by omega)]
    rw [hbytes, Option.some.injEq]
    exact ⟨fun h => ⟨hscalar, h⟩, fun h => h.2⟩
  · have hnot : codepoint = 0 ∨ 0x10ffff < codepoint ∨
        (0xd800 ≤ codepoint ∧ codepoint ≤ 0xdfff) := by
      by_contra hall
      exact hscalar ⟨by omega, by omega, by omega⟩
    rw [utf8Bytes, if_pos hnot]
    exact iff_of_false (fun hnone => by cases hnone) fun h => hscalar h.1

/-! ## Digits -/

section Digits

variable {hexadecimal : Bool} {c : Char} {digit codepoint : ℕ}

theorem digitValue_le (h : digitValue hexadecimal c = some digit) : digit ≤ 15 := by
  unfold digitValue at h
  split_ifs at h with hdigit hlower hupper
  · have hle : c.toNat ≤ '9'.toNat := by
      rw [Char.isDigit, Bool.and_eq_true, decide_eq_true_eq, decide_eq_true_eq] at hdigit
      exact hdigit.2
    have hnine : '9'.toNat = 57 := rfl
    have hzero : '0'.toNat = 48 := rfl
    cases h
    omega
  · have hle : c.toNat ≤ 'f'.toNat := hlower.2.2
    have hf : 'f'.toNat = 102 := rfl
    have ha : 'a'.toNat = 97 := rfl
    cases h
    omega
  · have hle : c.toNat ≤ 'F'.toNat := hupper.2.2
    have hf : 'F'.toNat = 70 := rfl
    have ha : 'A'.toNat = 65 := rfl
    cases h
    omega

theorem digitValue_semicolon : digitValue hexadecimal ';' = none := by
  cases hexadecimal <;> decide

theorem digitBase_pos : 0 < digitBase hexadecimal := by
  cases hexadecimal <;> decide

theorem guard_iff (hdigit : digit ≤ 15) :
    (0x10ffff - digit) / digitBase hexadecimal < codepoint ↔
      0x10ffff < codepoint * digitBase hexadecimal + digit := by
  rw [Nat.div_lt_iff_lt_mul digitBase_pos]
  omega

theorem le_digitsValue (digits : Text) (value : ℕ) :
    value ≤ digitsValue hexadecimal value digits := by
  induction digits generalizing value with
  | nil => exact Nat.le_refl _
  | cons c digits ih =>
    refine Nat.le_trans ?_ (ih _)
    exact Nat.le_trans (Nat.le_mul_of_pos_right _ digitBase_pos) (Nat.le_add_right _ _)

theorem scanDigits_digits {digits : Text} (rest : Text) {hasDigit : Bool} {count : ℕ}
    (hdigits : ∀ c ∈ digits, (digitValue hexadecimal c).isSome = true)
    (hmax : digitsValue hexadecimal codepoint digits ≤ 0x10ffff) :
    scanDigits hexadecimal codepoint hasDigit count (digits ++ ';' :: rest)
      = (digitsValue hexadecimal codepoint digits, hasDigit || !digits.isEmpty,
          count + digits.length) := by
  induction digits generalizing codepoint hasDigit count with
  | nil => simp [scanDigits, digitsValue]
  | cons c digits ih =>
    rw [List.forall_mem_cons] at hdigits
    obtain ⟨digit, hdigit⟩ := Option.isSome_iff_exists.mp hdigits.1
    have hsemicolon : c ≠ ';' := by
      rintro rfl
      rw [digitValue_semicolon] at hdigit
      cases hdigit
    have hvalue : digitsValue hexadecimal codepoint (c :: digits)
        = digitsValue hexadecimal (codepoint * digitBase hexadecimal + digit) digits := by
      rw [digitsValue, List.foldl_cons, hdigit]
      rfl
    rw [hvalue] at hmax ⊢
    have hsmall : ¬(0x10ffff - digit) / digitBase hexadecimal < codepoint := by
      rw [guard_iff (digitValue_le hdigit)]
      exact Nat.not_lt.mpr (Nat.le_trans (@le_digitsValue hexadecimal _ _) hmax)
    rw [List.cons_append, scanDigits, if_neg hsemicolon, hdigit]
    dsimp only
    rw [if_neg hsmall, ih hdigits.2 hmax]
    simp [Nat.add_assoc, Nat.add_comm 1]

theorem scanDigits_inv {input : Text} {hasDigit : Bool} {count : ℕ} (hmax : codepoint ≤ 0x10ffff) :
    ∃ digits rest, input = digits ++ rest ∧
      (∀ c ∈ digits, (digitValue hexadecimal c).isSome = true) ∧
      scanDigits hexadecimal codepoint hasDigit count input
        = (digitsValue hexadecimal codepoint digits, hasDigit || !digits.isEmpty,
            count + digits.length) := by
  induction input generalizing codepoint hasDigit count with
  | nil => exact ⟨[], [], rfl, List.forall_mem_nil _, by simp [scanDigits, digitsValue]⟩
  | cons c input ih =>
    have hstop : ∃ digits rest, c :: input = digits ++ rest ∧
        (∀ c ∈ digits, (digitValue hexadecimal c).isSome = true) ∧
        (codepoint, hasDigit, count)
          = (digitsValue hexadecimal codepoint digits, hasDigit || !digits.isEmpty,
              count + digits.length) :=
      ⟨[], c :: input, rfl, List.forall_mem_nil _, by simp [digitsValue]⟩
    rw [scanDigits]
    split_ifs with hsemicolon
    · exact hstop
    cases hdigit : digitValue hexadecimal c with
    | none => exact hstop
    | some digit =>
      dsimp only
      split_ifs with hguard
      · exact hstop
      rw [guard_iff (digitValue_le hdigit), Nat.not_lt] at hguard
      obtain ⟨digits, rest, rfl, hdigits, hscan⟩ := @ih _ true (count + 1) hguard
      refine ⟨c :: digits, rest, rfl, List.forall_mem_cons.mpr ⟨by rw [hdigit]; rfl, hdigits⟩, ?_⟩
      rw [hscan, digitsValue, digitsValue, List.foldl_cons, hdigit]
      simp [Nat.add_assoc, Nat.add_comm 1]

end Digits

/-! ## One piece -/

section Pieces

variable {capacity : Option ℕ} {input output decoded rest : Text} {p : Piece}

theorem decodeFrom_skip (skipped : Text) :
    decodeFrom capacity skipped.length output (skipped ++ rest)
      = decodeFrom capacity 0 output rest := by
  induction skipped with
  | nil => rfl
  | cons c skipped ih =>
    exact ih

theorem entityAt_named (entity : EntityName) (rest : Text) :
    entityAt (entity.source ++ rest)
      = .ok ⟨[entity.char], entity.source.length, .capacityExceeded⟩ := by
  cases entity <;> rfl

theorem characterReference_digits {hexadecimal : Bool} {digits : Text} (front rest : Text)
    (hne : digits ≠ []) (hdigits : ∀ c ∈ digits, (digitValue hexadecimal c).isSome = true)
    (hscalar : ScalarValue (digitsValue hexadecimal 0 digits)) :
    characterReference hexadecimal front.length (front ++ (digits ++ ';' :: rest))
      = .ok ⟨utf8 (digitsValue hexadecimal 0 digits), front.length + digits.length + 1,
          .invalidCharacterReference⟩ := by
  have hend : (front ++ (digits ++ ';' :: rest))[front.length + digits.length]? = some ';' := by
    simp
  have hdigit : (!digits.isEmpty) = true := by simpa using hne
  unfold characterReference
  rw [List.drop_left, scanDigits_digits rest hdigits hscalar.2.1, hdigit]
  dsimp only [Bool.false_or]
  rw [Nat.zero_add, hend, utf8Bytes_eq_some.mpr ⟨hscalar, rfl⟩]
  rfl

theorem entityAt_sign {tail : Text} (h : 2 ≤ tail.length) :
    entityAt ('&' :: '#' :: tail)
      = if tail.head? = some 'x' ∨ tail.head? = some 'X' then
          characterReference true 3 ('&' :: '#' :: tail)
        else characterReference false 2 ('&' :: '#' :: tail) := by
  have hsign : 4 ≤ ('&' :: '#' :: tail).length ∧ ('&' :: '#' :: tail)[1]? = some '#' :=
    ⟨by simpa using h, rfl⟩
  have hhead : ('&' :: '#' :: tail)[2]? = tail.head? := by
    rw [List.head?_eq_getElem?]
    rfl
  have hlt : ("&lt;".toList.isPrefixOf ('&' :: '#' :: tail)) = false := rfl
  have hgt : ("&gt;".toList.isPrefixOf ('&' :: '#' :: tail)) = false := rfl
  have hamp : ("&amp;".toList.isPrefixOf ('&' :: '#' :: tail)) = false := rfl
  have hquot : ("&quot;".toList.isPrefixOf ('&' :: '#' :: tail)) = false := rfl
  have hapos : ("&apos;".toList.isPrefixOf ('&' :: '#' :: tail)) = false := rfl
  unfold entityAt
  rw [hlt, hgt, hamp, hquot, hapos, if_pos hsign, hhead]
  rfl

/-- **A character reference.** -/
theorem entityAt_numeric {radix : Radix} {digits : Text} (h : (Piece.numeric radix digits).Valid)
    (rest : Text) :
    entityAt ((Piece.numeric radix digits).source ++ rest)
      = .ok ⟨(Piece.numeric radix digits).text, (Piece.numeric radix digits).source.length,
          .invalidCharacterReference⟩ := by
  obtain ⟨hne, hdigits, hscalar⟩ := h
  have hreference := fun front => characterReference_digits front rest hne hdigits hscalar
  have hsize : (Piece.numeric radix digits).source.length
      = radix.mark.length + digits.length + 1 := by
    simp [Piece.source, Nat.add_assoc]
  have hsource : (Piece.numeric radix digits).source ++ rest
      = radix.mark ++ (digits ++ ';' :: rest) := by
    simp [Piece.source]
  rw [hsize, hsource]
  cases radix with
  | decimal =>
    obtain ⟨c, digits, rfl⟩ := List.exists_cons_of_ne_nil hne
    have hc := hdigits c List.mem_cons_self
    rw [Radix.mark, List.cons_append, List.cons_append, List.nil_append,
      entityAt_sign (by simp; omega), if_neg]
    · exact hreference ['&', '#']
    · rintro (hx | hx)
      all_goals
        obtain rfl := Option.some.inj hx
        cases hc
  | lower =>
    rw [Radix.mark, List.cons_append, List.cons_append, entityAt_sign (by simp; omega),
      if_pos (.inl rfl)]
    exact hreference ['&', '#', 'x']
  | upper =>
    rw [Radix.mark, List.cons_append, List.cons_append, entityAt_sign (by simp; omega),
      if_pos (.inr rfl)]
    exact hreference ['&', '#', 'X']

theorem decodeFrom_reference {tail text : Text} {whenFull : DecodeStatus} (rest : Text)
    (h : entityAt ('&' :: tail ++ rest) = .ok ⟨text, ('&' :: tail).length, whenFull⟩) :
    decodeFrom capacity 0 output ('&' :: tail ++ rest)
      = if full capacity output.length text.length = true then .error whenFull
        else decodeFrom capacity 0 (output ++ text) rest := by
  rw [List.cons_append] at h ⊢
  rw [decodeFrom, if_neg (not_not.mpr rfl), h]
  dsimp only
  rw [List.length_cons, Nat.add_sub_cancel, decodeFrom_skip]

/-- **A valid piece is taken** if there is room. -/
theorem decodeFrom_piece (h : p.Valid) (rest : Text) :
    decodeFrom capacity 0 output (p.source ++ rest)
      = if full capacity output.length p.text.length = true then .error p.whenFull
        else decodeFrom capacity 0 (output ++ p.text) rest := by
  cases p with
  | plain c =>
    have hplain : c ≠ '&' := h
    rw [Piece.source, List.singleton_append, decodeFrom, if_pos hplain]
    rfl
  | named entity =>
    have hentity := entityAt_named entity rest
    cases entity
    all_goals exact decodeFrom_reference rest hentity
  | numeric radix digits =>
    have hentity := entityAt_numeric h rest
    cases radix
    all_goals exact decodeFrom_reference rest hentity

theorem characterReference_inv {hexadecimal : Bool} {front tail : Text} {entity : Entity}
    (h : characterReference hexadecimal front.length (front ++ tail) = .ok entity) :
    ∃ digits rest, tail = digits ++ ';' :: rest ∧ digits ≠ [] ∧
      (∀ c ∈ digits, (digitValue hexadecimal c).isSome = true) ∧
      ScalarValue (digitsValue hexadecimal 0 digits) := by
  obtain ⟨digits, rest, rfl, hdigits, hscan⟩ :=
    @scanDigits_inv hexadecimal 0 tail false 0 (Nat.zero_le _)
  unfold characterReference at h
  rw [List.drop_left, hscan] at h
  dsimp only at h
  split_ifs at h with hbad
  rw [Bool.false_or, Nat.zero_add, not_or, not_not] at hbad
  obtain ⟨hne, hend⟩ := hbad
  have hsemicolon : rest[0]? = some ';' := by
    rw [← hend, ← List.append_assoc, List.getElem?_append_right (by simp)]
    simp
  cases rest with
  | nil => cases hsemicolon
  | cons c rest =>
    obtain rfl := Option.some.inj hsemicolon
    refine ⟨digits, rest, rfl, by simpa using hne, hdigits, ?_⟩
    split at h
    · cases h
    · next bytes hbytes => exact (utf8Bytes_eq_some.mp hbytes).1

theorem entityAt_inv {entity : Entity} (h : entityAt ('&' :: input) = .ok entity) :
    ∃ (p : Piece) (rest : Text), p.Valid ∧ '&' :: input = p.source ++ rest := by
  have hnamed : ∀ entity : EntityName, entity.source.isPrefixOf ('&' :: input) = true →
      ∃ (p : Piece) (rest : Text), p.Valid ∧ '&' :: input = p.source ++ rest := by
    intro entity hbegin
    obtain ⟨rest, hrest⟩ := List.isPrefixOf_iff_prefix.mp hbegin
    exact ⟨.named entity, rest, trivial, hrest.symm⟩
  have hnumeric : ∀ (radix : Radix) (tail : Text), '&' :: input = radix.mark ++ tail →
      characterReference radix.hexadecimal radix.mark.length (radix.mark ++ tail) = .ok entity →
      ∃ (p : Piece) (rest : Text), p.Valid ∧ '&' :: input = p.source ++ rest := by
    intro radix tail hinput hreference
    obtain ⟨digits, rest, rfl, hvalid⟩ := characterReference_inv hreference
    exact ⟨.numeric radix digits, rest, hvalid, by rw [hinput]; simp [Piece.source]⟩
  have hsharp : ('&' :: input)[1]? = some '#' → ∃ tail, input = '#' :: tail := by
    intro hsign
    cases input with
    | nil => cases hsign
    | cons c tail => exact ⟨tail, by rw [Option.some.inj hsign]⟩
  have hletter : ∀ (tail : Text) (c : Char), ('&' :: '#' :: tail)[2]? = some c →
      ∃ rest, tail = c :: rest := by
    intro tail c hmark
    cases tail with
    | nil => cases hmark
    | cons d rest => exact ⟨rest, by rw [Option.some.inj hmark]⟩
  unfold entityAt at h
  split_ifs at h with hlt hgt hamp hquot hapos hsign hmark
  · exact hnamed .lt hlt
  · exact hnamed .gt hgt
  · exact hnamed .amp hamp
  · exact hnamed .quot hquot
  · exact hnamed .apos hapos
  · obtain ⟨tail, rfl⟩ := hsharp hsign.2
    rcases hmark with hmark | hmark
    · obtain ⟨rest, rfl⟩ := hletter _ _ hmark
      exact hnumeric .lower rest rfl h
    · obtain ⟨rest, rfl⟩ := hletter _ _ hmark
      exact hnumeric .upper rest rfl h
  · obtain ⟨tail, rfl⟩ := hsharp hsign.2
    exact hnumeric .decimal tail rfl h

/-- **What is decoded begins with a valid piece.** -/
theorem decodeFrom_inv {c : Char} (h : decodeFrom capacity 0 output (c :: input) = .ok decoded) :
    ∃ (p : Piece) (rest : Text), p.Valid ∧ c :: input = p.source ++ rest ∧
      full capacity output.length p.text.length = false ∧
      decodeFrom capacity 0 (output ++ p.text) rest = .ok decoded := by
  have hpiece : ∀ (p : Piece) (rest : Text), p.Valid → c :: input = p.source ++ rest →
      full capacity output.length p.text.length = false ∧
        decodeFrom capacity 0 (output ++ p.text) rest = .ok decoded := by
    intro p rest hvalid hsource
    rw [hsource, decodeFrom_piece hvalid] at h
    split_ifs at h with hfull
    exact ⟨Bool.eq_false_iff.mpr hfull, h⟩
  by_cases hplain : c = '&'
  · rw [decodeFrom, if_neg (not_not.mpr hplain)] at h
    cases hentity : entityAt (c :: input) with
    | error status =>
      rw [hentity] at h
      cases h
    | ok entity =>
      subst hplain
      obtain ⟨p, rest, hvalid, hsource⟩ := entityAt_inv hentity
      exact ⟨p, rest, hvalid, hsource, hpiece p rest hvalid hsource⟩
  · exact ⟨.plain c, input, hplain, rfl, hpiece (.plain c) input hplain rfl⟩

end Pieces

/-! ## Values -/

def source (pieces : List Piece) : Text := pieces.flatMap Piece.source

def meaning (pieces : List Piece) : Text := pieces.flatMap Piece.text

section Values

variable {capacity : ℕ} {input output decoded : Text} {pieces : List Piece}

theorem full_add {capacity : Option ℕ} (size first second : ℕ) :
    full capacity size (first + second) = full capacity (size + first) second := by
  rw [full, full, Nat.add_assoc]

theorem decodeFrom_pieces {capacity : Option ℕ} (rest : Text) (hvalid : ∀ p ∈ pieces, p.Valid)
    (hroom : full capacity output.length (meaning pieces).length = false) :
    decodeFrom capacity 0 output (source pieces ++ rest)
      = decodeFrom capacity 0 (output ++ meaning pieces) rest := by
  induction pieces generalizing output with
  | nil => simp [source, meaning]
  | cons p pieces ih =>
    rw [List.forall_mem_cons] at hvalid
    have hsource : source (p :: pieces) ++ rest = p.source ++ (source pieces ++ rest) := by
      simp [source]
    have hmeaning : meaning (p :: pieces) = p.text ++ meaning pieces := by
      simp [meaning]
    rw [hmeaning] at hroom ⊢
    rw [hsource, decodeFrom_piece hvalid.1]
    cases capacity with
    | none =>
      rw [full_none, if_neg (by decide), ih hvalid.2 rfl, List.append_assoc]
    | some capacity =>
      rw [full_some, List.length_append] at hroom
      have hfirst : full (some capacity) output.length p.text.length = false :=
        full_some.mpr (by omega)
      rw [hfirst, if_neg (by decide), ih hvalid.2 (full_some.mpr (by
        rw [List.length_append]
        omega)), List.append_assoc]

theorem source_pos (p : Piece) : 0 < p.source.length := by
  cases p with
  | plain c => exact Nat.one_pos
  | named entity => cases entity <;> decide
  | numeric radix digits =>
    rw [Piece.source, List.length_append]
    exact Nat.succ_pos _

theorem decodeFrom_eq_ok {capacity : Option ℕ} (hout : full capacity output.length 0 = false)
    (h : decodeFrom capacity 0 output input = .ok decoded) :
    ∃ pieces, (∀ p ∈ pieces, p.Valid) ∧ source pieces = input ∧
      decoded = output ++ meaning pieces ∧
      full capacity output.length (meaning pieces).length = false := by
  induction hlength : input.length using Nat.strongRecOn generalizing input output with
  | ind n ih =>
    cases input with
    | nil =>
      cases h
      exact ⟨[], List.forall_mem_nil _, rfl, by simp [meaning], hout⟩
    | cons c input =>
      obtain ⟨p, rest, hvalid, hsource, hroom, hrest⟩ := decodeFrom_inv h
      have hshorter : rest.length < n := by
        have hpos := source_pos p
        rw [← hlength, hsource, List.length_append]
        omega
      have hout' : full capacity (output ++ p.text).length 0 = false := by
        rw [List.length_append, ← full_add]
        exact hroom
      obtain ⟨pieces, hpieces, rfl, rfl, hfull⟩ := ih _ hshorter hout' hrest rfl
      refine ⟨p :: pieces, List.forall_mem_cons.mpr ⟨hvalid, hpieces⟩, ?_, ?_, ?_⟩
      · rw [hsource]
        rfl
      · simp [meaning]
      · rw [List.length_append, ← full_add] at hfull
        simpa [meaning] using hfull

/-- The room runs out at a valid piece. -/
def RunsOut (capacity : ℕ) (input : Text) (p : Piece) : Prop :=
  ∃ before rest, (∀ q ∈ before, q.Valid) ∧ p.Valid ∧ input = source before ++ (p.source ++ rest) ∧
    (meaning before).length ≤ capacity ∧ capacity < (meaning before).length + p.text.length

/-- What is expected of `scxml_xml_decode_attribute_entities`. -/
structure Proper (capacity : ℕ) (input : Text) : Prop where
  accepts : ∀ decoded, decodeAttributeEntities (some capacity) input = .ok decoded ↔
    ∃ pieces, (∀ p ∈ pieces, p.Valid) ∧ source pieces = input ∧ meaning pieces = decoded ∧
      decoded.length ≤ capacity
  measures : ∀ decoded, decodeAttributeEntities none input = .ok decoded ↔
    ∃ pieces, (∀ p ∈ pieces, p.Valid) ∧ source pieces = input ∧ meaning pieces = decoded
  agrees : ∀ measured written, decodeAttributeEntities none input = .ok measured →
    decodeAttributeEntities (some capacity) input = .ok written → measured.length = written.length
  shrinks : ∀ decoded, decodeAttributeEntities none input = .ok decoded →
    decoded.length ≤ input.length
  reports : ∀ p, RunsOut capacity input p →
    decodeAttributeEntities (some capacity) input = .error .capacityExceeded

theorem decode_none_iff : decodeAttributeEntities none input = .ok decoded ↔
    ∃ pieces, (∀ p ∈ pieces, p.Valid) ∧ source pieces = input ∧ meaning pieces = decoded := by
  constructor
  · intro h
    obtain ⟨pieces, hvalid, hsource, hmeaning, -⟩ := decodeFrom_eq_ok rfl h
    exact ⟨pieces, hvalid, hsource, hmeaning.symm⟩
  · rintro ⟨pieces, hvalid, rfl, rfl⟩
    have h := @decodeFrom_pieces [] pieces none [] hvalid rfl
    rwa [List.append_nil, List.nil_append] at h

theorem decode_some_iff : decodeAttributeEntities (some capacity) input = .ok decoded ↔
    ∃ pieces, (∀ p ∈ pieces, p.Valid) ∧ source pieces = input ∧ meaning pieces = decoded ∧
      decoded.length ≤ capacity := by
  constructor
  · intro h
    obtain ⟨pieces, hvalid, hsource, hmeaning, hfull⟩ :=
      decodeFrom_eq_ok (full_some.mpr (Nat.zero_le _)) h
    rw [full_some, List.length_nil, Nat.zero_add] at hfull
    exact ⟨pieces, hvalid, hsource, hmeaning.symm, hmeaning ▸ hfull⟩
  · rintro ⟨pieces, hvalid, rfl, rfl, hroom⟩
    have h := @decodeFrom_pieces [] pieces (some capacity) [] hvalid
      (full_some.mpr (by rwa [List.length_nil, Nat.zero_add]))
    rwa [List.append_nil, List.nil_append] at h

theorem decode_runsOut {p : Piece} (h : RunsOut capacity input p) :
    decodeAttributeEntities (some capacity) input = .error p.whenFull := by
  obtain ⟨before, rest, hbefore, hvalid, rfl, hroom, hfull⟩ := h
  have hfits : full (some capacity) ([] : Text).length (meaning before).length = false :=
    full_some.mpr (by rwa [List.length_nil, Nat.zero_add])
  rw [decodeAttributeEntities, decodeFrom_pieces (p.source ++ rest) hbefore hfits, List.nil_append,
    decodeFrom_piece hvalid, if_pos]
  rw [← Bool.not_eq_false, full_some]
  omega

/-- **Main.** The decoder does what is expected exactly when the room does not run out at a
character reference. -/
theorem proper_iff (capacity : ℕ) (input : Text) :
    Proper capacity input ↔ ∀ p, RunsOut capacity input p → p.isNumeric = false := by
  constructor
  · intro h p hout
    by_contra hnumeric
    have hreport := h.reports p hout
    rw [decode_runsOut hout, Piece.whenFull, if_pos (by simpa using hnumeric)] at hreport
    cases hreport
  · intro h
    refine ⟨fun _ => decode_some_iff, fun _ => decode_none_iff, fun measured written hm hw => ?_,
      fun _ => length_decode, fun p hout => ?_⟩
    · obtain ⟨pieces, hvalid, hsource, rfl, -⟩ := decode_some_iff.mp hw
      have hsame := decode_none_iff.mpr ⟨pieces, hvalid, hsource, rfl⟩
      rw [Except.ok.inj (hm.symm.trans hsame)]
    · rw [decode_runsOut hout, Piece.whenFull, h p hout, if_neg (by decide)]

theorem not_proper_reference : ¬Proper 0 "&#65;".toList := by
  intro h
  have hvalid : (Piece.numeric .decimal ['6', '5']).Valid :=
    ⟨by decide, List.forall_mem_cons.mpr ⟨by decide, List.forall_mem_singleton.mpr (by decide)⟩,
      by decide +kernel, by decide +kernel, by decide +kernel⟩
  have hreport := h.reports (.numeric .decimal ['6', '5'])
    ⟨[], [], List.forall_mem_nil _, hvalid, rfl, Nat.le_refl _, by decide⟩
  revert hreport
  decide

end Values

end Compiler

end TurboScxml.Ccxml
