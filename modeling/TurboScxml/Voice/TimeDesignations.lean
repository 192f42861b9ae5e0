import TurboScxml.Ccxml.Markup
import TurboScxml.Lib.Decimals

/-!
# Time designations and cache ages

Each of the two compilers has a scanner of its own for a time designation and for a cache age.

* `parseTimeDesignation`, `cmetaParsePromptTimeout`: the scanners of a time designation;
* `parseNonnegativeSeconds`, `cmetaParseNonnegativeSeconds`: the scanners of a cache age;
* `Designation`, `Excessive`: the texts of the grammar; those whose scan meets a number that is too
  large or too precise, whatever comes behind it;
* **`scanners_agree`**: what is accepted, and with which status a text is refused.
-/

namespace TurboScxml.Voice.Times

open Numerals Decimals
open Ccxml.Compiler (digitValue digitBase utf8Bytes)

/-! ## Attribute values -/

def isXmlCharacter (codepoint : ℕ) : Bool :=
  codepoint = 0x9 || codepoint = 0xa || codepoint = 0xd ||
    (0x20 ≤ codepoint && codepoint ≤ 0xd7ff) ||
    (0xe000 ≤ codepoint && codepoint ≤ 0xfffd) || (0x10000 ≤ codepoint && codepoint ≤ 0x10ffff)

/-- The bytes of `decode_utf8` behind the first one. -/
def continuation (least : ℕ) : ℕ → ℕ → Text → Option (ℕ × Text)
  | 0, value, rest =>
    if value < least ∨ (0xd800 ≤ value ∧ value ≤ 0xdfff) ∨ 0x10ffff < value then none
    else some (value, rest)
  | _ + 1, _, [] => none
  | n + 1, value, c :: rest =>
    if c.toNat &&& 0xc0 ≠ 0x80 then none
    else continuation least n (value <<< 6 ||| c.toNat &&& 0x3f) rest

/-- `decode_utf8`. -/
def decodeUtf8 : Text → Option (ℕ × Text)
  | [] => none
  | c :: rest =>
    if c.toNat ≤ 0x7f then some (c.toNat, rest)
    else if 0xc2 ≤ c.toNat ∧ c.toNat ≤ 0xdf then continuation 0 1 (c.toNat &&& 0x1f) rest
    else if 0xe0 ≤ c.toNat ∧ c.toNat ≤ 0xef then continuation 0x800 2 (c.toNat &&& 0x0f) rest
    else if 0xf0 ≤ c.toNat ∧ c.toNat ≤ 0xf4 then continuation 0x10000 3 (c.toNat &&& 0x07) rest
    else none

def referenceDigits (hexadecimal : Bool) : ℕ → Bool → Text → Option (ℕ × Text)
  | _, _, [] => none
  | codepoint, hasDigit, c :: rest =>
    if c = ';' then if hasDigit && isXmlCharacter codepoint then some (codepoint, rest) else none
    else
      match digitValue hexadecimal c with
      | none => none
      | some digit =>
        if (0x10ffff - digit) / digitBase hexadecimal < codepoint then none
        else referenceDigits hexadecimal (codepoint * digitBase hexadecimal + digit) true rest

def namedReferences : List (Text × ℕ) :=
  [("&lt;".toList, 0x3c), ("&gt;".toList, 0x3e), ("&amp;".toList, 0x26), ("&quot;".toList, 0x22),
    ("&apos;".toList, 0x27)]

def decodeReference (input : Text) : Option (ℕ × Text) :=
  match namedReferences.find? fun reference => reference.1.isPrefixOf input with
  | some (name, codepoint) => some (codepoint, input.drop name.length)
  | none =>
    if 4 ≤ input.length ∧ input[1]? = some '#' then
      if input[2]? = some 'x' ∨ input[2]? = some 'X' then
        referenceDigits true 0 false (input.drop 3)
      else referenceDigits false 0 false (input.drop 2)
    else none

/-- `next_normalized_codepoint`. -/
def nextCodepoint (input : Text) : Option (ℕ × Text) :=
  if input.head? = some '&' then decodeReference input
  else (decodeUtf8 input).filter fun r => isXmlCharacter r.1

/-- The loop of `decode_entities`. -/
def decodeFrom : ℕ → Text → Option Text
  | _, [] => some []
  | n + 1, _ :: rest => decodeFrom n rest
  | 0, c :: rest =>
    (nextCodepoint (c :: rest)).bind fun (codepoint, after) =>
      if isXmlCharacter codepoint then
        (utf8Bytes codepoint).bind fun bytes =>
          (decodeFrom (rest.length - after.length) rest).map (bytes ++ ·)
      else none

/-- `decode_entities` and `cmeta_decode_entities`. -/
def decodeEntities (input : Text) : Option Text := decodeFrom 0 input

/-! ## The scanners -/

/-- `vxml_status` without `VXML_OK`, as far as the scanners use it. -/
inductive Status
  | invalidArgument | invalidStructure | limitExceeded | allocationFailed
  deriving DecidableEq

/-- A status, with the message that is reported. -/
structure Failure where
  status : Status
  message : Option String
  deriving DecidableEq

/-- The messages of a scanner of time designations. -/
structure Messages where
  undecodable : String
  allocation : String
  missingUnit : String
  missingNumber : String
  invalidDecimal : String
  invalidDigit : String
  overflow : String
  precision : String
  tooLarge : String

abbrev timeRules (limit : ℕ) : Rules := ⟨true, false, limit, uint64Max, Nat.le_of_ble_eq_true rfl⟩

/-- The microseconds of a unit and the digits of a fraction. -/
def unitOf (text : Text) : Option (ℕ × ℕ × Text) :=
  if 2 ≤ text.length ∧ text.drop (text.length - 2) = ['m', 's'] then
    some (1000, 3, text.take (text.length - 2))
  else if text.getLast? = some 's' then some (1000000, 6, text.take (text.length - 1))
  else none

def convert (m : Messages) (unit : ℕ) (d : Decimal) : Except Failure ℕ :=
  if d.digitCount = 0 ∨ uint64Max / unit < d.whole then .error ⟨.limitExceeded, m.tooLarge⟩
  else if d.fractionDigits = 0 then .ok (d.whole * unit)
  else
    -- a loop divides by ten once for each digit
    let scale := unit / 10 ^ d.fractionDigits
    if (uint64Max - d.whole * unit) / scale < d.fraction then .error ⟨.limitExceeded, m.tooLarge⟩
    else .ok (d.whole * unit + d.fraction * scale)

def designation (m : Messages) (text : Text) : Except Failure ℕ :=
  match unitOf text with
  | none => .error ⟨.invalidStructure, m.missingUnit⟩
  | some (unit, limit, number) =>
    if number = [] then .error ⟨.invalidStructure, m.missingNumber⟩
    else
      match scan (timeRules limit) .start number with
      | .error .point => .error ⟨.invalidStructure, m.invalidDecimal⟩
      | .error .character => .error ⟨.invalidStructure, m.invalidDigit⟩
      | .error .overflow => .error ⟨.limitExceeded, m.overflow⟩
      | .error .precision => .error ⟨.limitExceeded, m.precision⟩
      | .ok d => convert m unit d

/-- What a scanner makes of an attribute. -/
def scanAttribute (undecodable allocation : String) (decoded : Option Text) (allocated : Bool)
    (scanText : Text → Except Failure ℕ) : Except Failure (Option ℕ) :=
  match decoded with
  | none => .error ⟨.invalidStructure, undecodable⟩
  | some text =>
    if allocated then (scanText text).map some else .error ⟨.allocationFailed, allocation⟩

def timeMessages : Messages where
  undecodable := "VoiceXML time designation is invalid"
  allocation := "VoiceXML attribute decoding allocation failed"
  missingUnit := "VoiceXML time designation requires ms or s units"
  missingNumber := "VoiceXML time designation is missing its numeric value"
  invalidDecimal := "VoiceXML time designation has an invalid decimal form"
  invalidDigit := "VoiceXML time designation must be non-negative"
  overflow := "VoiceXML time designation overflows"
  precision := "VoiceXML time designation exceeds microsecond precision"
  tooLarge := "VoiceXML time designation exceeds uint64 microseconds"

def parseTimeDesignation (value : Option Text) (allocated : Bool) : Except Failure (Option ℕ) :=
  match value with
  | none => .error ⟨.invalidArgument, none⟩
  | some raw => scanAttribute timeMessages.undecodable timeMessages.allocation (decodeEntities raw)
      allocated (designation timeMessages)

def timeoutMessages : Messages where
  undecodable := "VoiceXML prompt timeout must be a non-negative time designation"
  allocation := "VoiceXML prompt timeout decoding allocation failed"
  missingUnit := "VoiceXML prompt timeout requires ms or s units"
  missingNumber := "VoiceXML prompt timeout is missing its numeric value"
  invalidDecimal := "VoiceXML prompt timeout has an invalid decimal form"
  invalidDigit := "VoiceXML prompt timeout must be a non-negative decimal"
  overflow := "VoiceXML prompt timeout numeric value overflows"
  precision := "VoiceXML prompt timeout exceeds microsecond precision"
  tooLarge := "VoiceXML prompt timeout exceeds uint64 microseconds"

/-- `cmeta_parse_prompt_timeout`. -/
def cmetaParsePromptTimeout (value : Option Text) (allocated : Bool) : Except Failure (Option ℕ) :=
  match value with
  | none => .ok none
  | some raw => scanAttribute timeoutMessages.undecodable timeoutMessages.allocation
      ((decodeEntities raw).filter (2 ≤ ·.length)) allocated (designation timeoutMessages)

def ageMessage : String := "VoiceXML cache age must be a non-negative integer"

def scanAge : ℕ → Text → Except Failure ℕ
  | value, [] => .ok value
  | value, c :: rest =>
    if isDigit c = false then .error ⟨.invalidStructure, ageMessage⟩
    else if (uint64Max - digit c) / 10 < value then
      .error ⟨.limitExceeded, "VoiceXML cache age exceeds uint64 seconds"⟩
    else scanAge (value * 10 + digit c) rest

def parseNonnegativeSeconds (value : Option Text) (allocated : Bool) : Except Failure (Option ℕ) :=
  match value with
  | none => .error ⟨.invalidArgument, none⟩
  | some raw => scanAttribute ageMessage "VoiceXML attribute decoding allocation failed"
      (decodeEntities raw) allocated fun text =>
        if text = [] then .error ⟨.invalidStructure, ageMessage⟩ else scanAge 0 text

def cmetaParseNonnegativeSeconds (value : Option Text) (allocated : Bool) :
    Except Failure (Option ℕ) :=
  match value with
  | none => .ok none
  | some raw => scanAttribute ageMessage "VoiceXML cache age decoding allocation failed"
      ((decodeEntities raw).filter (· ≠ [])) allocated (scanAge 0)

/-! ## The grammar -/

def microseconds (unit : ℕ) (d : Decimal) : ℕ :=
  d.whole * unit + d.fraction * (unit / 10 ^ d.fractionDigits)

inductive Designation : Text → ℕ → Prop
  | milliseconds (number : Text) (d : Decimal) (hnumber : number ≠ [])
      (hwritten : Written (timeRules 3) number d) :
      Designation (number ++ ['m', 's']) (microseconds 1000 d)
  | seconds (number : Text) (d : Decimal) (hnumber : number ≠ [])
      (hwritten : Written (timeRules 6) number d) :
      Designation (number ++ ['s']) (microseconds 1000000 d)

def Excessive (text : Text) : Prop :=
  ∃ unit limit number, unitOf text = some (unit, limit, number) ∧ number ≠ [] ∧
    (Exceeds (timeRules limit) number ∨
      ∃ d, Written (timeRules limit) number d ∧ uint64Max < microseconds unit d)

variable {m : Messages} {unit limit : ℕ} {number text : Text} {d : Decimal} {v : ℕ} {f : Failure}

theorem convert_eq (hcount : d.digitCount ≠ 0) (hscale : 10 ^ d.fractionDigits ≤ unit)
    (hnone : d.fractionDigits = 0 → d.fraction = 0) :
    convert m unit d = if uint64Max < microseconds unit d then .error ⟨.limitExceeded, m.tooLarge⟩
      else .ok (microseconds unit d) := by
  have hten : 0 < 10 ^ d.fractionDigits := Nat.pow_pos (by decide)
  have hwhole := Nat.div_lt_iff_lt_mul (x := uint64Max) (y := d.whole)
    (Nat.lt_of_lt_of_le hten hscale)
  have hfraction := Nat.div_lt_iff_lt_mul (x := uint64Max - d.whole * unit) (y := d.fraction)
    (Nat.div_pos hscale hten)
  unfold convert microseconds
  by_cases hover : uint64Max / unit < d.whole
  · have := hwhole.mp hover
    rw [if_pos (.inr hover), if_pos (by omega)]
  rw [if_neg (by simp [hcount, hover])]
  rw [hwhole] at hover
  by_cases hdigits : d.fractionDigits = 0
  · rw [if_pos hdigits, hnone hdigits, Nat.zero_mul, Nat.add_zero, if_neg hover]
  rw [if_neg hdigits]
  by_cases hlarge : (uint64Max - d.whole * unit) / (unit / 10 ^ d.fractionDigits) < d.fraction
  · have := hfraction.mp hlarge
    rw [if_pos hlarge, if_pos (by omega)]
  · rw [if_neg hlarge, if_neg]
    omega

theorem Written.converts (hnumber : number ≠ []) (hwritten : Written (timeRules limit) number d)
    (hunit : 10 ^ limit ≤ unit) :
    convert m unit d = if uint64Max < microseconds unit d then .error ⟨.limitExceeded, m.tooLarge⟩
      else .ok (microseconds unit d) := by
  cases hwritten with
  | whole =>
    exact convert_eq (fun h => hnumber (List.length_eq_zero_iff.mp h))
      (Nat.le_trans (Nat.pow_pos (by decide)) hunit) fun _ => rfl
  | fraction digits fraction _ hfraction _ _ hlimit =>
    have hpos := List.length_pos_iff.mpr hfraction.1
    exact convert_eq (by simp only; omega)
      (Nat.le_trans (Nat.pow_le_pow_right (by decide) hlimit) hunit)
      fun h => absurd h (by simp only; omega)

theorem unitOf_eq_some (h : unitOf text = some (unit, limit, number)) :
    10 ^ limit ≤ unit ∧ (unit = 1000 ∧ limit = 3 ∧ text = number ++ ['m', 's'] ∨
      unit = 1000000 ∧ limit = 6 ∧ text = number ++ ['s']) := by
  unfold unitOf at h
  split_ifs at h with hunit hlast
  · cases h
    refine ⟨by decide, .inl ⟨rfl, rfl, ?_⟩⟩
    rw [← hunit.2, List.take_append_drop]
  · cases h
    obtain ⟨number, rfl⟩ := List.getLast?_eq_some_iff.mp hlast
    refine ⟨by decide, .inr ⟨rfl, rfl, ?_⟩⟩
    simp

theorem Designation.unitOf_eq (h : Designation text v) : ∃ unit limit number d,
    unitOf text = some (unit, limit, number) ∧ number ≠ [] ∧ Written (timeRules limit) number d ∧
      v = microseconds unit d := by
  cases h with
  | milliseconds number d hnumber hwritten =>
    refine ⟨1000, 3, number, d, ?_, hnumber, hwritten, rfl⟩
    simp [unitOf]
  | seconds number d hnumber hwritten =>
    refine ⟨1000000, 6, number, d, ?_, hnumber, hwritten, rfl⟩
    rw [unitOf, if_neg, if_pos (by simp)]
    · simp
    rintro ⟨-, hunit⟩
    have hm : 'm' ∈ (number ++ ['s']).drop ((number ++ ['s']).length - 2) := by
      rw [hunit]
      simp
    obtain hm | hm := List.mem_append.mp (List.mem_of_mem_drop hm)
    · obtain hm | hm := hwritten.mem hm
      · exact absurd hm (by decide)
      · exact absurd hm (by decide)
    · exact absurd hm (by decide)

/-- What a scan of a decoded text comes to. -/
inductive Scanned (text : Text) : Except Failure ℕ → Prop
  | accepted (v : ℕ) (hdesignation : Designation text v) (hv : v ≤ uint64Max) : Scanned text (.ok v)
  | excessive (message : Option String) (h : Excessive text) :
      Scanned text (.error ⟨.limitExceeded, message⟩)
  | malformed (message : Option String) (h : ¬ Excessive text) :
      Scanned text (.error ⟨.invalidStructure, message⟩)

theorem designation_scanned (m : Messages) (text : Text) : Scanned text (designation m text) := by
  unfold designation
  cases hunit : unitOf text with
  | none =>
    refine .malformed _ ?_
    rintro ⟨unit, limit, number, h, -⟩
    rw [hunit] at h
    cases h
  | some x =>
    obtain ⟨unit, limit, number⟩ := x
    obtain ⟨hlimit, hform⟩ := unitOf_eq_some hunit
    dsimp only
    by_cases hnumber : number = []
    · rw [if_pos hnumber]
      refine .malformed _ ?_
      rintro ⟨unit', limit', number', h, hne, -⟩
      rw [hunit] at h
      cases h
      exact hne hnumber
    rw [if_neg hnumber]
    have hscanned := scan_scanned (r := timeRules limit) number
    cases hscan : scan (timeRules limit) .start number with
    | ok d =>
      rw [hscan] at hscanned
      cases hscanned with
      | accepted _ hwritten hwhole hfits =>
      dsimp only
      rw [Written.converts hnumber hwritten hlimit]
      split_ifs with hlarge
      · exact .excessive _ ⟨unit, limit, number, hunit, hnumber, .inr ⟨d, hwritten, hlarge⟩⟩
      · refine .accepted _ ?_ (Nat.le_of_not_lt hlarge)
        obtain ⟨rfl, rfl, rfl⟩ | ⟨rfl, rfl, rfl⟩ := hform
        · exact .milliseconds number d hnumber hwritten
        · exact .seconds number d hnumber hwritten
    | error fault =>
      rw [hscan] at hscanned
      cases hscanned with
      | exceeding _ hfault hexceeds =>
        have hexcessive : Excessive text := ⟨unit, limit, number, hunit, hnumber, .inl hexceeds⟩
        obtain rfl | rfl := hfault
        · exact .excessive _ hexcessive
        · exact .excessive _ hexcessive
      | malformed _ hfault hfits =>
        have hmalformed : ¬ Excessive text := by
          rintro ⟨unit', limit', number', h, -, hlarge⟩
          rw [hunit] at h
          cases h
          obtain h | ⟨d, hwritten, -⟩ := hlarge
          · exact hfits h
          by_cases hwhole : d.whole ≤ uint64Max
          · rw [hwritten.scan_eq hwhole] at hscan
            cases hscan
          · exact hfits (hwritten.exceeds (Nat.lt_of_not_le hwhole))
        obtain rfl | rfl := hfault
        · exact .malformed _ hmalformed
        · exact .malformed _ hmalformed

theorem Designation.accepted (h : Designation text v) (hv : v ≤ uint64Max) :
    designation m text = .ok v := by
  obtain ⟨unit, limit, number, d, hunit, hnumber, hwritten, rfl⟩ := h.unitOf_eq
  have hlimit := (unitOf_eq_some hunit).1
  have hwhole : d.whole ≤ uint64Max := by
    have hpos : 0 < unit := Nat.lt_of_lt_of_le (Nat.pow_pos (by decide)) hlimit
    have := Nat.le_mul_of_pos_right d.whole hpos
    unfold microseconds at hv
    omega
  have hscan := hwritten.scan_eq hwhole
  unfold designation
  rw [hunit]
  dsimp only
  rw [if_neg hnumber, hscan]
  dsimp only
  rw [Written.converts hnumber hwritten hlimit, if_neg (Nat.not_lt.mpr hv)]

theorem scanAge_eq_ok : ∀ (text : Text) (value : ℕ), value ≤ uint64Max →
    (scanAge value text = .ok v ↔
      (∀ c ∈ text, isDigit c = true) ∧ v = valueFrom value text ∧ v ≤ uint64Max)
  | [], value, hvalue => by
    simp only [scanAge, valueFrom, Except.ok.injEq, List.foldl_nil]
    constructor
    · rintro rfl
      exact ⟨by simp, rfl, hvalue⟩
    · exact fun h => h.2.1.symm
  | c :: rest, value, hvalue => by
    unfold scanAge
    by_cases hc : isDigit c = true
    · have hdigit := digit_lt hc
      have hmax : uint64Max = 18446744073709551615 := rfl
      have hstep : valueFrom value (c :: rest) = valueFrom (value * 10 + digit c) rest := by
        rw [Nat.mul_comm]
        rfl
      have hall : (∀ c' ∈ c :: rest, isDigit c' = true) ↔ ∀ c' ∈ rest, isDigit c' = true := by
        simp [hc]
      rw [if_neg (by simp [hc]), hstep, hall]
      by_cases hover : (uint64Max - digit c) / 10 < value
      · have := le_valueFrom rest (value * 10 + digit c)
        rw [if_pos hover]
        exact iff_of_false (fun h => by cases h) fun h => by omega
      · rw [if_neg hover, scanAge_eq_ok rest _ (by omega)]
    · rw [if_pos (by simpa using hc)]
      exact iff_of_false (fun h => by cases h) fun h => hc (h.1 c (by simp))

theorem map_some_eq_ok {result : Except Failure ℕ} {v : Option ℕ} :
    result.map some = .ok v ↔ ∃ n, result = .ok n ∧ v = some n := by
  cases result with
  | ok n => simp [Except.map, eq_comm]
  | error f => simp [Except.map]

theorem scanAge_eq_some {value : Option ℕ} (htext : text ≠ []) :
    (scanAge 0 text).map some = .ok value ↔
      Digits text ∧ digitsValue text ≤ uint64Max ∧ value = some (digitsValue text) := by
  rw [map_some_eq_ok]
  constructor
  · rintro ⟨v, hv, rfl⟩
    obtain ⟨hdigits, rfl, hmax⟩ := (scanAge_eq_ok text 0 (Nat.zero_le _)).mp hv
    exact ⟨⟨htext, hdigits⟩, hmax, rfl⟩
  · rintro ⟨hdigits, hmax, rfl⟩
    exact ⟨_, (scanAge_eq_ok text 0 (Nat.zero_le _)).mpr ⟨hdigits.2, rfl, hmax⟩, rfl⟩

theorem mapError_map (result : Except Failure ℕ) : (result.map some).mapError Failure.status =
    (result.mapError Failure.status).map some := by
  cases result <;> rfl

theorem designation_status (m m' : Messages) (text : Text) :
    (designation m text).mapError Failure.status =
      (designation m' text).mapError Failure.status := by
  unfold designation convert
  cases unitOf text with
  | none => rfl
  | some x =>
    dsimp only
    split_ifs
    · rfl
    · split
      all_goals first | rfl | (split_ifs <;> rfl)

theorem designation_short (m : Messages) (h : text.length < 2) :
    (designation m text).mapError Failure.status = .error .invalidStructure := by
  cases text with
  | nil => rfl
  | cons c rest =>
    obtain rfl : rest = [] := List.length_eq_zero_iff.mp (by rw [List.length_cons] at h; omega)
    unfold designation unitOf
    by_cases hc : c = 's'
    · subst hc
      rfl
    · simp [hc, Except.mapError]

/-- **The scanners agree**: they accept the designations held by 64 bits, and refuse the others
alike. -/
theorem scanners_agree (raw : Text) :
    (∀ v, parseTimeDesignation (some raw) true = .ok v ↔ ∃ text us,
      decodeEntities raw = some text ∧ Designation text us ∧ us ≤ uint64Max ∧ v = some us) ∧
    (cmetaParsePromptTimeout (some raw) true).mapError Failure.status =
      (parseTimeDesignation (some raw) true).mapError Failure.status ∧
    (∀ f, parseTimeDesignation (some raw) true = .error f →
      (f.status = .limitExceeded ∧ ∃ text, decodeEntities raw = some text ∧ Excessive text) ∨
        (f.status = .invalidStructure ∧
          ¬ ∃ text, decodeEntities raw = some text ∧ Excessive text)) ∧
    (∀ v, parseNonnegativeSeconds (some raw) true = .ok v ↔ ∃ text,
      decodeEntities raw = some text ∧ Digits text ∧ digitsValue text ≤ uint64Max ∧
        v = some (digitsValue text)) ∧
    ∀ v, cmetaParseNonnegativeSeconds (some raw) true = .ok v ↔ ∃ text,
      decodeEntities raw = some text ∧ Digits text ∧ digitsValue text ≤ uint64Max ∧
        v = some (digitsValue text) := by
  unfold parseTimeDesignation cmetaParsePromptTimeout parseNonnegativeSeconds
    cmetaParseNonnegativeSeconds
  dsimp only
  cases decodeEntities raw with
  | none => simp [scanAttribute, Except.mapError]
  | some text =>
    have hscanned := designation_scanned timeMessages text
    simp only [scanAttribute, if_true, Option.some.injEq, exists_and_left, exists_eq_left']
    refine ⟨fun v => ?_, ?_, fun f hf => ?_, fun v => ?_, fun v => ?_⟩
    · rw [map_some_eq_ok]
      constructor
      · rintro ⟨n, hn, rfl⟩
        rw [hn] at hscanned
        cases hscanned with
        | accepted _ hdesignation hv => exact ⟨n, hdesignation, hv, rfl⟩
      · rintro ⟨us, hdesignation, hv, rfl⟩
        exact ⟨us, hdesignation.accepted hv, rfl⟩
    · by_cases hlength : 2 ≤ text.length
      · rw [Option.filter_some_pos (by simpa using hlength)]
        rw [mapError_map, designation_status timeoutMessages timeMessages, mapError_map]
      · rw [Option.filter_some_neg (by simpa using hlength), mapError_map,
          designation_short timeMessages (Nat.lt_of_not_le hlength)]
        rfl
    · cases hresult : designation timeMessages text with
      | ok us =>
        rw [hresult] at hf
        cases hf
      | error f' =>
        rw [hresult] at hf hscanned
        cases hf
        cases hscanned with
        | excessive _ h => exact .inl ⟨rfl, h⟩
        | malformed _ h => exact .inr ⟨rfl, h⟩
    · by_cases htext : text = []
      · simp [htext, Digits, Except.map]
      · rw [if_neg htext, scanAge_eq_some htext]
    · by_cases htext : text = []
      · rw [htext, Option.filter_some_neg (by simp)]
        simp [Digits]
      · rw [Option.filter_some_pos (by simpa using htext)]
        exact scanAge_eq_some htext

/-- A decimal number and a unit. -/
def Designated (text : Text) : Prop :=
  ∃ number unit d, text = number ++ unit ∧ (unit = ['m', 's'] ∨ unit = ['s']) ∧
    Written (timeRules number.length) number d

def overflowing : Text := List.replicate 20 '9' ++ ['x', 's']

theorem overflowing_exceeds : ¬ ∀ raw f, parseTimeDesignation (some raw) true = .error f →
    f.status = .limitExceeded → ∃ text, decodeEntities raw = some text ∧ Designated text := by
  intro h
  obtain ⟨text, htext, number, unit, d, hsplit, hunit, hwritten⟩ :=
    h overflowing ⟨.limitExceeded, timeMessages.overflow⟩ (by decide +kernel) rfl
  have hdecoded : decodeEntities overflowing = some overflowing := by decide +kernel
  obtain rfl := Option.some.inj (hdecoded.symm.trans htext)
  have hx : 'x' ∈ overflowing := by decide
  rw [hsplit] at hx
  obtain hx | hx := List.mem_append.mp hx
  · obtain hx | hx := hwritten.mem hx
    · exact absurd hx (by decide)
    · exact absurd hx (by decide)
  · obtain rfl | rfl := hunit
    · exact absurd hx (by decide)
    · exact absurd hx (by decide)

end TurboScxml.Voice.Times
