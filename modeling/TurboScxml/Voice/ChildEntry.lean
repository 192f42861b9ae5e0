import Mathlib.Logic.Function.Basic
import TurboScxml.Basic
import TurboScxml.Lib.Fallible
import TurboScxml.Lib.Numerals

/-!
# Literal parameters of a child session

* `Target`, `Value`, `Object`: what a declaration can hold, what a literal converts to, and the
  stored bits;
* `BufferOps`: the operations of a string type;
* `childLiteralValue`, `storeSint`, `storeUint`, `assignScalarObject`: the conversion and the store;
* `Denotes`: the value that a literal denotes for a target;
* `importLoop_stores`: a literal that is imported reaches its slot;
* `child_literal_exact_iff`: a literal is imported exactly as it should be.
-/

namespace TurboScxml.Voice.Children

open Fallible Numerals

/-! ## Values -/

/-- The widths of `cmeta_data_integer_shape`. -/
inductive Width
  | w8 | w16 | w32 | w64
  deriving DecidableEq

def Width.bits : Width → ℕ
  | .w8 => 8
  | .w16 => 16
  | .w32 => 32
  | .w64 => 64

/-- `vxml_status` as far as an entry uses it. -/
inductive Status
  | invalidStructure | limitExceeded | semanticError | allocationFailed
  deriving DecidableEq

/-- The scalar kinds of a `cmeta_data_desc`. -/
inductive Target
  | bool
  | sint (width : Width)
  | uint (width : Width)
  | string (type : ℕ)
  | other (kind : ℕ)
  deriving DecidableEq

/-- `vxml_cmeta_value_view`. -/
inductive Value
  | undefined
  | bool (value : Bool)
  | sint (value : ℤ)
  | uint (value : ℕ)
  | string (text : Text)
  | other (kind : ℕ)
  deriving DecidableEq

inductive Object
  | bool (value : Bool)
  | sint (width : Width) (bits : BitVec width.bits)
  | uint (width : Width) (bits : BitVec width.bits)
  | string (text : Text)
  | other (kind : ℕ)
  deriving DecidableEq

/-- `cmeta_status` as far as buffers use it. -/
inductive BufferFailure
  | outOfMemory | capacityExceeded | failed
  deriving DecidableEq

/-- `cmeta_data_buffer_ops` of a string type: an assigned text is what the object holds. -/
structure BufferOps where
  owned : Bool
  /-- The operation on the object of the slot, if it has one. -/
  restoreZero : Option Object → Option BufferFailure
  assign : Text → ℕ → Except BufferFailure Text
  assign_text : ∀ text limit held, assign text limit = .ok held → held = text

/-- What is supplied from elsewhere: the operations of the string types, and the kinds that are
neither integers nor bools nor strings. -/
structure Supplied where
  buffer : ℕ → BufferOps
  convert : ℕ → Text → Except Status Value
  store : ℕ → Value → Except Status Object

variable (K : Supplied)

def convertLiteral (literal : Text) : Target → Except Status Value
  | .string _ => .ok (.string literal)
  | .bool =>
    if literal = "true".toList then .ok (.bool true)
    else if literal = "false".toList then .ok (.bool false)
    else .error .semanticError
  | .sint _ =>
    if (strtoll literal).whole then .ok (.sint (strtoll literal).value)
    else .error .semanticError
  | .uint _ =>
    if literal.head? = some '-' then .error .semanticError
    else if (strtoull literal).whole then .ok (.uint (strtoull literal).value)
    else .error .semanticError
  | .other kind => if literal = [] then .error .semanticError else K.convert kind literal

def childLiteralValue (target : Target) (literal : Text) (maxLiteralBytes : ℕ) :
    Except Status Value :=
  if literal.contains '\x00' || maxLiteralBytes = 0 || maxLiteralBytes < literal.length then
    .error (if maxLiteralBytes < literal.length then .limitExceeded else .semanticError)
  else convertLiteral K literal target

/-- `store_sint`. -/
def storeSint (width : Width) (value : ℤ) : Option Object :=
  let converted := BitVec.ofInt width.bits value
  if converted.toInt = value then some (.sint width converted) else none

def storeUint (width : Width) (value : ℕ) : Option Object :=
  let converted := BitVec.ofNat width.bits value
  if converted.toNat = value then some (.uint width converted) else none

def bufferStatus : BufferFailure → Status
  | .outOfMemory => .allocationFailed
  | .capacityExceeded => .limitExceeded
  | .failed => .semanticError

/-- The string case of `assign_scalar_object`. -/
def assignString (ops : BufferOps) (old : Option Object) (text : Text) (maxStringBytes : ℕ) :
    Except Status Object :=
  if !ops.owned then .error .semanticError
  else
    match ops.restoreZero old with
    | some failure => .error (bufferStatus failure)
    | none =>
      match ops.assign text maxStringBytes with
      | .error failure => .error (bufferStatus failure)
      | .ok held => .ok (.string held)

/-- `assign_scalar_object` over the object that the slot has. -/
def assignScalarObject (old : Option Object) (target : Target) (value : Value)
    (maxStringBytes : ℕ) : Except Status Object :=
  match target, value with
  | _, .undefined => .error .invalidStructure
  | .bool, .bool b => .ok (.bool b)
  | .sint width, .sint value => (storeSint width value).elim (.error .semanticError) .ok
  | .uint width, .uint value => (storeUint width value).elim (.error .semanticError) .ok
  | .string type, .string text => assignString (K.buffer type) old text maxStringBytes
  | .other kind, value => K.store kind value
  | _, _ => .error .semanticError

/-! ## Entries -/

/-- `vxml_cmeta_declaration_row`. -/
structure Declaration where
  name : Text
  scope : ℕ
  slot : ℕ
  initialized : Bool
  deriving DecidableEq

structure Form where
  scope : ℕ
  declarations : List Declaration
  slots : List Target
  maxSubdialogParamValueBytes : ℕ
  maxStringBytes : ℕ
  /-- A scope has one slot for each name. -/
  slots_named : ∀ row ∈ declarations, ∀ other ∈ declarations,
    row.scope = other.scope → row.slot = other.slot → row.name = other.name

/-- `vxml_cmeta_subdialog_param_source`. -/
inductive Source
  | typed | literal | other
  deriving DecidableEq

/-- `vxml_cmeta_subdialog_param_v1`. -/
structure Param where
  name : Option Text
  source : Source
  literal : Option Text
  value : Value
  deriving DecidableEq

abbrev Scopes := ℕ → ℕ → Option Object

variable (form : Form)

def childFormParameter (name : Text) : Option Declaration :=
  form.declarations.find? fun row => row.scope == form.scope && row.name == name

def literalLimit : ℕ :=
  if form.maxSubdialogParamValueBytes ≠ 0 then form.maxSubdialogParamValueBytes
  else form.maxStringBytes

def paramValue (target : Target) (param : Param) : Except Status Value :=
  match param.source with
  | .typed =>
    if param.literal.isSome || param.value = .undefined then .error .semanticError
    else .ok param.value
  | .literal =>
    if param.value ≠ .undefined then .error .semanticError
    else childLiteralValue K target (param.literal.getD []) (literalLimit form)
  | .other => .error .semanticError

def paramSlot (earlier : List Param) (param : Param) : Except Status (ℕ × Target) :=
  match param.name with
  | none => .error .semanticError
  | some name =>
    if name = [] || name.contains '\x00' then .error .semanticError
    else if earlier.any fun other => other.name == some name then .error .semanticError
    else
      match childFormParameter form name with
      | none => .error .semanticError
      | some row =>
        match form.slots[row.slot]? with
        | none => .error .semanticError
        | some target => .ok (row.slot, target)

/-- The first loop of `import_child_entry_parameters`. -/
def importLoop (earlier : List Param) (staged : Scopes) : List Param → Option Status × Scopes
  | [] => (none, staged)
  | param :: rest =>
    match paramSlot form earlier param with
    | .error status => (some status, staged)
    | .ok (slot, target) =>
      match paramValue K form target param with
      | .error status => (some status, staged)
      | .ok value =>
        match assignScalarObject K (staged form.scope slot) target value form.maxStringBytes with
        | .error status => (some status, staged)
        | .ok object =>
          importLoop (earlier ++ [param])
            (Function.update staged form.scope
              (Function.update (staged form.scope) slot (some object))) rest

def missingParameter (params : List Param) : Option Status :=
  form.declarations.findSome? fun row =>
    if row.scope ≠ form.scope || form.slots.length ≤ row.slot || row.name = [] then
      some .invalidStructure
    else if !row.initialized && !params.any fun param => param.name == some row.name then
      some .semanticError
    else none

def importChildEntryParameters (staged : Scopes) (params : List Param) : Option Status × Scopes :=
  if form.declarations.length < params.length then (some .semanticError, staged)
  else
    match importLoop K form [] staged params with
    | (some status, staged) => (some status, staged)
    | (none, staged) => (missingParameter form params, staged)

structure Session where
  committed : Scopes
  staged : Scopes
  failed : Option Status

/-- `cmeta_session_start_profile_at_entry` up to its commit. -/
def startAtEntry (initializeForm : Scopes → Option Status × Scopes) (session : Session)
    (params : List Param) : Session :=
  let begun := { session with staged := session.committed }
  match initializeForm begun.staged with
  | (some status, _) => { begun with staged := fun _ _ => none, failed := some status }
  | (none, staged) =>
    match importChildEntryParameters K form staged params with
    | (some status, _) => { begun with staged := fun _ _ => none, failed := some status }
    | (none, staged) => { begun with committed := staged, staged := fun _ _ => none }

/-! ## What a literal denotes -/

def signed (sign : Sign) (value : ℕ) : ℤ := if sign = .minus then -(value : ℤ) else value

/-- The object that a literal denotes: a bool, a string without NUL, or a decimal numeral in range.
-/
inductive Denotes : Target → Text → Object → Prop
  | true : Denotes .bool "true".toList (.bool true)
  | false : Denotes .bool "false".toList (.bool false)
  | string {type : ℕ} {text : Text} (h : '\x00' ∉ text) :
      Denotes (.string type) text (.string text)
  | sint {width : Width} {bits : BitVec width.bits} {sign : Sign} {digits : List Char}
      (hdigits : Digits digits) (hvalue : bits.toInt = signed sign (digitsValue digits)) :
      Denotes (.sint width) (sign.text ++ digits) (.sint width bits)
  | uint {width : Width} {bits : BitVec width.bits} {digits : List Char}
      (hdigits : Digits digits) (hvalue : bits.toNat = digitsValue digits) :
      Denotes (.uint width) digits (.uint width bits)

def Target.scalar : Target → Bool
  | .other _ => false
  | _ => true

def Blanks (blanks : List Char) : Prop := blanks ≠ [] ∧ ∀ c ∈ blanks, isBlank c = true

def wrapped (sign : Sign) (value : ℕ) : ℕ :=
  if sign = .minus then (2 ^ 64 - value) % 2 ^ 64 else value

/-- What is accepted beyond: blanks before a numeral, or a sign on an unsigned one. -/
inductive Lax : Target → Text → Object → Prop
  | sint {width : Width} {bits : BitVec width.bits} {blanks : List Char} {sign : Sign}
      {digits : List Char} (hblanks : Blanks blanks) (hdigits : Digits digits)
      (hvalue : bits.toInt = signed sign (digitsValue digits)) :
      Lax (.sint width) (blanks ++ (sign.text ++ digits)) (.sint width bits)
  | plus {width : Width} {bits : BitVec width.bits} {digits : List Char} (hdigits : Digits digits)
      (hvalue : bits.toNat = digitsValue digits) :
      Lax (.uint width) ('+' :: digits) (.uint width bits)
  | uint {width : Width} {bits : BitVec width.bits} {blanks : List Char} {sign : Sign}
      {digits : List Char} (hblanks : Blanks blanks) (hdigits : Digits digits)
      (hrange : digitsValue digits < 2 ^ 64)
      (hvalue : bits.toNat = wrapped sign (digitsValue digits)) :
      Lax (.uint width) (blanks ++ (sign.text ++ digits)) (.uint width bits)

/-- The operations take a text over the object of the slot. -/
structure BufferOps.Takes (ops : BufferOps) (old : Option Object) (text : Text) (limit : ℕ) :
    Prop where
  owned : ops.owned = true
  restored : ops.restoreZero old = none
  assigned : ops.assign text limit = .ok text

/-- A text is within the limits, and the string type of the target takes it. -/
def Within (form : Form) (old : Option Object) (target : Target) (text : Text) : Prop :=
  0 < literalLimit form ∧ text.length ≤ literalLimit form ∧
    ∀ type, target = .string type → (K.buffer type).Takes old text form.maxStringBytes

def importLiteral (old : Option Object) (target : Target) (text : Text) : Except Status Object := do
  let value ← childLiteralValue K target text (literalLimit form)
  assignScalarObject K old target value form.maxStringBytes

section

variable {K form} {old : Option Object} {target : Target} {text : Text} {object : Object}

/-! ## Stores -/

variable {width : Width}

theorem storeSint_eq_some {value : ℤ} :
    storeSint width value = some object ↔
      ∃ bits : BitVec width.bits, bits.toInt = value ∧ object = .sint width bits := by
  rw [storeSint]
  constructor
  · intro h
    split at h
    next hvalue =>
      cases h
      exact ⟨_, hvalue, rfl⟩
    next => cases h
  · rintro ⟨bits, rfl, rfl⟩
    rw [BitVec.ofInt_toInt, if_pos rfl]

theorem storeUint_eq_some {value : ℕ} :
    storeUint width value = some object ↔
      ∃ bits : BitVec width.bits, bits.toNat = value ∧ object = .uint width bits := by
  rw [storeUint]
  constructor
  · intro h
    split at h
    next hvalue =>
      cases h
      exact ⟨_, hvalue, rfl⟩
    next => cases h
  · rintro ⟨bits, rfl, rfl⟩
    rw [BitVec.ofNat_toNat, BitVec.setWidth_eq, if_pos rfl]

theorem Width.bits_le (width : Width) : width.bits ≤ 64 := by
  cases width <;> decide

theorem toInt_range (bits : BitVec width.bits) : -2 ^ 63 ≤ bits.toInt ∧ bits.toInt < 2 ^ 63 := by
  have hlow := BitVec.le_two_mul_toInt (x := bits)
  have hhigh := BitVec.two_mul_toInt_lt (x := bits)
  generalize bits.toInt = value at hlow hhigh
  cases width <;> simp only [Width.bits] at hlow hhigh <;> omega

theorem toNat_range (bits : BitVec width.bits) : bits.toNat < 2 ^ 64 :=
  Nat.lt_of_lt_of_le bits.isLt (Nat.pow_le_pow_right (by decide) width.bits_le)

/-! ## Conversions -/

theorem strtoll_accepts {value : ℤ} :
    (strtoll text).whole = true ∧ (strtoll text).value = value ↔
      ∃ sign digits, scanNumeral text = some (sign, digits, []) ∧
        signed sign (digitsValue digits) = value ∧ -2 ^ 63 ≤ value ∧ value < 2 ^ 63 := by
  cases hscan : scanNumeral text with
  | none => simp [strtoll, hscan, Conversion.whole]
  | some found =>
    obtain ⟨sign, digits, rest⟩ := found
    have hconversion : strtoll text =
        if signed sign (digitsValue digits) < -2 ^ 63 then ⟨-2 ^ 63, rest, true, true⟩
        else if 2 ^ 63 ≤ signed sign (digitsValue digits) then ⟨2 ^ 63 - 1, rest, true, true⟩
        else ⟨signed sign (digitsValue digits), rest, true, false⟩ := by
      rw [strtoll, hscan]
      rfl
    rw [hconversion]
    simp only [Option.some.injEq, Prod.mk.injEq]
    generalize hvalue : signed sign (digitsValue digits) = number
    split
    next hlow =>
      refine iff_of_false (by simp [Conversion.whole]) ?_
      rintro ⟨_, _, ⟨rfl, rfl, -⟩, rfl, hrange⟩
      omega
    next hlow =>
      split
      next hhigh =>
        refine iff_of_false (by simp [Conversion.whole]) ?_
        rintro ⟨_, _, ⟨rfl, rfl, -⟩, rfl, hrange⟩
        omega
      next hhigh =>
        constructor
        · rintro ⟨hrest, hnumber⟩
          change number = value at hnumber
          exact ⟨sign, digits, ⟨rfl, rfl, by simpa [Conversion.whole] using hrest⟩,
            hvalue.trans hnumber, by omega, by omega⟩
        · rintro ⟨_, _, ⟨rfl, rfl, hrest⟩, hsame, -⟩
          exact ⟨by simpa [Conversion.whole] using hrest, hvalue.symm.trans hsame⟩

theorem strtoull_accepts {value : ℕ} :
    (strtoull text).whole = true ∧ (strtoull text).value = value ↔
      ∃ sign digits, scanNumeral text = some (sign, digits, []) ∧
        wrapped sign (digitsValue digits) = value ∧ digitsValue digits < 2 ^ 64 := by
  cases hscan : scanNumeral text with
  | none => simp [strtoull, hscan, Conversion.whole]
  | some found =>
    obtain ⟨sign, digits, rest⟩ := found
    have hconversion : strtoull text =
        if 2 ^ 64 ≤ digitsValue digits then ⟨2 ^ 64 - 1, rest, true, true⟩
        else ⟨wrapped sign (digitsValue digits), rest, true, false⟩ := by
      rw [strtoull, hscan, wrapped]
      dsimp only
      split
      next => rfl
      next => split <;> rfl
    rw [hconversion]
    simp only [Option.some.injEq, Prod.mk.injEq]
    split
    next hlarge =>
      refine iff_of_false (by simp [Conversion.whole]) ?_
      rintro ⟨_, _, ⟨rfl, rfl, -⟩, -, hrange⟩
      omega
    next hlarge =>
      constructor
      · rintro ⟨hrest, rfl⟩
        exact ⟨sign, digits, ⟨rfl, rfl, by simpa [Conversion.whole] using hrest⟩, rfl, by omega⟩
      · rintro ⟨_, _, ⟨rfl, rfl, hrest⟩, hsame, -⟩
        exact ⟨by simpa [Conversion.whole] using hrest, hsame⟩

/-! ## Texts without NUL -/

variable {digits : List Char}

theorem nul_notMem_digits (h : Digits digits) : '\x00' ∉ digits := by
  intro hmem
  exact absurd (h.2 _ hmem) (by decide)

variable {blanks : List Char}

theorem nul_notMem_blanks (h : ∀ c ∈ blanks, isBlank c = true) : '\x00' ∉ blanks := by
  intro hmem
  exact absurd (h _ hmem) (by decide)

theorem nul_notMem_numeral {sign : Sign} (hblanks : ∀ c ∈ blanks, isBlank c = true)
    (hdigits : Digits digits) :
    '\x00' ∉ blanks ++ (sign.text ++ digits) := by
  rw [List.mem_append, List.mem_append, not_or, not_or]
  refine ⟨nul_notMem_blanks hblanks, ?_, nul_notMem_digits hdigits⟩
  cases sign <;> simp [Sign.text]

/-! ## Imports -/

theorem childLiteralValue_eq_ok {maxLiteralBytes : ℕ} {value : Value} :
    childLiteralValue K target text maxLiteralBytes = .ok value ↔
      '\x00' ∉ text ∧ 0 < maxLiteralBytes ∧ text.length ≤ maxLiteralBytes ∧
        convertLiteral K text target = .ok value := by
  rw [childLiteralValue]
  split
  next hchecks =>
    refine iff_of_false (fun h => by cases h) ?_
    rintro ⟨hnul, hzero, hlength, -⟩
    have hcontains : text.contains '\x00' = false := by simpa using hnul
    simp only [hcontains, Bool.false_or, Bool.or_eq_true, decide_eq_true_eq] at hchecks
    omega
  next hchecks =>
    simp only [Bool.or_eq_true, not_or, decide_eq_true_eq, List.contains_iff_mem] at hchecks
    have hzero : 0 < maxLiteralBytes := Nat.pos_of_ne_zero hchecks.1.2
    have hlength : text.length ≤ maxLiteralBytes := by omega
    exact ⟨fun h => ⟨hchecks.1.1, hzero, hlength, h⟩, fun h => h.2.2.2⟩

theorem elim_eq_ok {status : Status} {stored : Option Object} :
    stored.elim (.error status) .ok = (.ok object : Except Status Object) ↔
      stored = some object := by
  cases stored with
  | none => exact iff_of_false (fun h => by cases h) (by simp)
  | some other => simp

theorem importLiteral_sint :
    importLiteral K form old (.sint width) text = .ok object ↔
      Within K form old (.sint width) text ∧
        ∃ (blanks : List Char) (sign : Sign) (digits : List Char)
        (bits : BitVec width.bits), (∀ c ∈ blanks, isBlank c = true) ∧ Digits digits ∧
        text = blanks ++ (sign.text ++ digits) ∧
        bits.toInt = signed sign (digitsValue digits) ∧ object = .sint width bits := by
  rw [importLiteral, bind_eq_ok]
  constructor
  · rintro ⟨value, hvalue, hstore⟩
    obtain ⟨hnul, hzero, hlength, hvalue⟩ := childLiteralValue_eq_ok.mp hvalue
    rw [convertLiteral] at hvalue
    split at hvalue
    next haccepts =>
      cases hvalue
      obtain ⟨sign, digits, hscan, hsigned, -⟩ :=
        strtoll_accepts.mp ⟨haccepts, rfl⟩
      obtain ⟨bits, hbits, hobject⟩ := storeSint_eq_some.mp (elim_eq_ok.mp hstore)
      obtain ⟨hdigits, blanks, hblanks, htext⟩ := scanNumeral_eq_some_iff.mp hscan
      exact ⟨⟨hzero, hlength, by simp⟩, blanks, sign, digits, bits, hblanks, hdigits, htext,
        hbits.trans hsigned.symm, hobject⟩
    next => cases hvalue
  · rintro ⟨⟨hzero, hlength, -⟩, blanks, sign, digits, bits, hblanks, hdigits, htext, hbits, rfl⟩
    have hnul : '\x00' ∉ text := htext ▸ nul_notMem_numeral hblanks hdigits
    have hscan := scanNumeral_eq_some_iff.mpr ⟨hdigits, blanks, hblanks, htext⟩
    obtain ⟨hlow, hhigh⟩ := toInt_range bits
    obtain ⟨hwhole, hvalue⟩ :=
      strtoll_accepts.mpr ⟨sign, digits, hscan, hbits.symm, hlow, hhigh⟩
    refine ⟨.sint bits.toInt, ?_, elim_eq_ok.mpr (storeSint_eq_some.mpr ⟨bits, rfl, rfl⟩)⟩
    refine childLiteralValue_eq_ok.mpr ⟨hnul, hzero, hlength, ?_⟩
    rw [convertLiteral, if_pos hwhole, hvalue]

theorem importLiteral_uint :
    importLiteral K form old (.uint width) text = .ok object ↔
      Within K form old (.uint width) text ∧ text.head? ≠ some '-' ∧
        ∃ (blanks : List Char) (sign : Sign) (digits : List Char) (bits : BitVec width.bits),
          (∀ c ∈ blanks, isBlank c = true) ∧ Digits digits ∧
          text = blanks ++ (sign.text ++ digits) ∧ digitsValue digits < 2 ^ 64 ∧
          bits.toNat = wrapped sign (digitsValue digits) ∧ object = .uint width bits := by
  rw [importLiteral, bind_eq_ok]
  constructor
  · rintro ⟨value, hvalue, hstore⟩
    obtain ⟨hnul, hzero, hlength, hvalue⟩ := childLiteralValue_eq_ok.mp hvalue
    rw [convertLiteral] at hvalue
    split at hvalue
    next => cases hvalue
    next hminus =>
      split at hvalue
      next haccepts =>
        cases hvalue
        obtain ⟨sign, digits, hscan, hwrapped, hrange⟩ :=
          strtoull_accepts.mp ⟨haccepts, rfl⟩
        obtain ⟨bits, hbits, hobject⟩ := storeUint_eq_some.mp (elim_eq_ok.mp hstore)
        obtain ⟨hdigits, blanks, hblanks, htext⟩ := scanNumeral_eq_some_iff.mp hscan
        exact ⟨⟨hzero, hlength, by simp⟩, hminus, blanks, sign, digits, bits, hblanks, hdigits,
          htext, hrange, hbits.trans hwrapped.symm, hobject⟩
      next => cases hvalue
  · rintro ⟨⟨hzero, hlength, -⟩, hminus, blanks, sign, digits, bits, hblanks, hdigits, htext,
      hrange, hbits, rfl⟩
    have hnul : '\x00' ∉ text := htext ▸ nul_notMem_numeral hblanks hdigits
    have hscan := scanNumeral_eq_some_iff.mpr ⟨hdigits, blanks, hblanks, htext⟩
    obtain ⟨hwhole, hvalue⟩ :=
      strtoull_accepts.mpr ⟨sign, digits, hscan, hbits.symm, hrange⟩
    refine ⟨.uint bits.toNat, ?_, elim_eq_ok.mpr (storeUint_eq_some.mpr ⟨bits, rfl, rfl⟩)⟩
    refine childLiteralValue_eq_ok.mpr ⟨hnul, hzero, hlength, ?_⟩
    rw [convertLiteral, if_neg hminus, if_pos hwhole, hvalue]

theorem importLiteral_bool :
    importLiteral K form old .bool text = .ok object ↔
      Within K form old .bool text ∧ Denotes .bool text object := by
  rw [importLiteral, bind_eq_ok]
  constructor
  · rintro ⟨value, hvalue, hstore⟩
    obtain ⟨hnul, hzero, hlength, hvalue⟩ := childLiteralValue_eq_ok.mp hvalue
    rw [convertLiteral] at hvalue
    refine ⟨⟨hzero, hlength, by simp⟩, ?_⟩
    split at hvalue
    next htext =>
      cases hvalue
      cases hstore
      exact htext ▸ Denotes.true
    next =>
      split at hvalue
      next htext =>
        cases hvalue
        cases hstore
        exact htext ▸ Denotes.false
      next => cases hvalue
  · rintro ⟨⟨hzero, hlength, -⟩, hdenotes⟩
    cases hdenotes with
    | true =>
      refine ⟨.bool true, ?_, rfl⟩
      refine childLiteralValue_eq_ok.mpr ⟨(by decide), hzero, hlength, ?_⟩
      rfl
    | false =>
      refine ⟨.bool false, ?_, rfl⟩
      refine childLiteralValue_eq_ok.mpr ⟨(by decide), hzero, hlength, ?_⟩
      rfl

theorem assignString_eq_ok {ops : BufferOps} {limit : ℕ} :
    assignString ops old text limit = .ok object ↔
      ops.Takes old text limit ∧ object = .string text := by
  rw [assignString]
  split
  next howned =>
    refine iff_of_false (fun h => by cases h) fun h => ?_
    rw [h.1.owned] at howned
    cases howned
  next howned =>
    have howned : ops.owned = true := by simpa using howned
    cases hrestore : ops.restoreZero old with
    | some failure =>
      refine iff_of_false (fun h => by cases h) fun h => ?_
      rw [h.1.restored] at hrestore
      cases hrestore
    | none =>
      cases hassign : ops.assign text limit with
      | error failure =>
        refine iff_of_false (fun h => by cases h) fun h => ?_
        rw [h.1.assigned] at hassign
        cases hassign
      | ok held =>
        obtain rfl := ops.assign_text _ _ _ hassign
        constructor
        · rintro ⟨⟩
          exact ⟨⟨howned, hrestore, hassign⟩, rfl⟩
        · rintro ⟨-, rfl⟩
          rfl

theorem importLiteral_string {type : ℕ} :
    importLiteral K form old (.string type) text = .ok object ↔
      Within K form old (.string type) text ∧ Denotes (.string type) text object := by
  rw [importLiteral, bind_eq_ok]
  constructor
  · rintro ⟨value, hvalue, hstore⟩
    obtain ⟨hnul, hzero, hlength, hvalue⟩ := childLiteralValue_eq_ok.mp hvalue
    rw [convertLiteral] at hvalue
    cases hvalue
    obtain ⟨htakes, rfl⟩ := assignString_eq_ok.mp hstore
    refine ⟨⟨hzero, hlength, fun other htype => ?_⟩, .string hnul⟩
    cases htype
    exact htakes
  · rintro ⟨⟨hzero, hlength, htakes⟩, hdenotes⟩
    cases hdenotes with
    | string hnul =>
      refine ⟨.string text, ?_, assignString_eq_ok.mpr ⟨htakes type rfl, rfl⟩⟩
      exact childLiteralValue_eq_ok.mpr ⟨hnul, hzero, hlength, rfl⟩

/-! ## Exactness -/

theorem head?_of_digits (h : Digits digits) : ∃ c, digits.head? = some c ∧ isDigit c = true := by
  obtain ⟨hne, hdigits⟩ := h
  cases digits with
  | nil => exact absurd rfl hne
  | cons c rest => exact ⟨c, rfl, hdigits c (by simp)⟩

theorem head?_of_blanks (h : Blanks blanks) (rest : List Char) :
    ∃ c, (blanks ++ rest).head? = some c ∧ isBlank c = true := by
  obtain ⟨hne, hblanks⟩ := h
  cases blanks with
  | nil => exact absurd rfl hne
  | cons c blanks => exact ⟨c, rfl, hblanks c (by simp)⟩

theorem head?_of_signed (sign : Sign) (h : Digits digits) {c : Char}
    (hc : (sign.text ++ digits).head? = some c) : isBlank c = false := by
  obtain ⟨d, hd, hdigit⟩ := head?_of_digits h
  cases sign with
  | none =>
    rw [Sign.text, List.nil_append, hd] at hc
    cases hc
    exact not_isBlank_of_isDigit hdigit
  | plus =>
    cases hc
    decide
  | minus =>
    cases hc
    decide

theorem Lax.head? (h : Lax target text object) :
    ∃ c, text.head? = some c ∧ (isBlank c = true ∨ c = '+' ∧ ∃ width, target = .uint width) := by
  cases h with
  | @sint _ _ _ sign digits hblanks =>
    obtain ⟨c, hc, hblank⟩ := head?_of_blanks hblanks (sign.text ++ digits)
    exact ⟨c, hc, .inl hblank⟩
  | @plus width => exact ⟨'+', rfl, .inr ⟨rfl, width, rfl⟩⟩
  | @uint _ _ _ sign digits hblanks =>
    obtain ⟨c, hc, hblank⟩ := head?_of_blanks hblanks (sign.text ++ digits)
    exact ⟨c, hc, .inl hblank⟩

theorem Lax.not_denotes {other : Object} (h : Lax target text object) :
    ¬ Denotes target text other := by
  intro hdenotes
  obtain ⟨c, hc, hbegin⟩ := h.head?
  cases hdenotes with
  | true => cases h
  | false => cases h
  | string => cases h
  | @sint _ _ sign _ hdigits _ =>
    rcases hbegin with hblank | ⟨-, width, hwidth⟩
    · rw [head?_of_signed sign hdigits hc] at hblank
      cases hblank
    · cases hwidth
  | uint hdigits _ =>
    obtain ⟨d, hd, hdigit⟩ := head?_of_digits hdigits
    rw [hc] at hd
    cases hd
    rcases hbegin with hblank | ⟨rfl, -⟩
    · rw [not_isBlank_of_isDigit hdigit] at hblank
      cases hblank
    · exact absurd hdigit (by decide)

theorem importLiteral_eq_ok (hscalar : target.scalar = true) :
    importLiteral K form old target text = .ok object ↔
      Within K form old target text ∧ (Denotes target text object ∨ Lax target text object) := by
  cases target with
  | other kind => cases hscalar
  | bool =>
    rw [importLiteral_bool]
    refine and_congr_right fun _ => (or_iff_left ?_).symm
    intro h
    cases h
  | string type =>
    rw [importLiteral_string]
    refine and_congr_right fun _ => (or_iff_left ?_).symm
    intro h
    cases h
  | sint width =>
    rw [importLiteral_sint]
    refine and_congr_right fun _ => ?_
    constructor
    · rintro ⟨blanks, sign, digits, bits, hblanks, hdigits, rfl, hbits, rfl⟩
      by_cases hne : blanks = []
      · subst hne
        exact .inl (.sint hdigits hbits)
      · exact .inr (.sint ⟨hne, hblanks⟩ hdigits hbits)
    · rintro (h | h)
      · cases h with
        | sint hdigits hvalue => exact ⟨[], _, _, _, by simp, hdigits, rfl, hvalue, rfl⟩
      · cases h with
        | sint hblanks hdigits hvalue =>
          exact ⟨_, _, _, _, hblanks.2, hdigits, rfl, hvalue, rfl⟩
  | uint width =>
    rw [importLiteral_uint]
    refine and_congr_right fun _ => ?_
    constructor
    · rintro ⟨hminus, blanks, sign, digits, bits, hblanks, hdigits, rfl, hrange, hbits, rfl⟩
      by_cases hne : blanks = []
      · subst hne
        cases sign with
        | none => exact .inl (.uint hdigits hbits)
        | plus => exact .inr (.plus hdigits hbits)
        | minus => exact absurd rfl hminus
      · exact .inr (.uint ⟨hne, hblanks⟩ hdigits hrange hbits)
    · rintro (h | h)
      · cases h with
        | @uint _ bits _ hdigits hvalue =>
          obtain ⟨c, hc, hdigit⟩ := head?_of_digits hdigits
          refine ⟨?_, [], .none, _, bits, by simp, hdigits, rfl, hvalue ▸ toNat_range bits,
            hvalue, rfl⟩
          rw [hc]
          rintro ⟨⟩
          exact absurd hdigit (by decide)
      · cases h with
        | @plus _ bits digits hdigits hvalue =>
          exact ⟨by simp, [], .plus, digits, bits, by simp, hdigits, rfl,
            hvalue ▸ toNat_range bits, hvalue, rfl⟩
        | @uint _ bits blanks sign digits hblanks hdigits hrange hvalue =>
          obtain ⟨c, hc, hblank⟩ := head?_of_blanks hblanks (sign.text ++ digits)
          refine ⟨?_, blanks, sign, digits, bits, hblanks.2, hdigits, rfl, hrange, hvalue, rfl⟩
          rw [hc]
          rintro ⟨⟩
          exact absurd hblank (by decide)

/-! ## Entries with a literal -/

/-- The parameter gives the literal to the declaration of its name, whose slot is of the target. -/
structure Gives (form : Form) (target : Target) (text : Text) (param : Param) (row : Declaration) :
    Prop where
  source : param.source = .literal
  literal : param.literal.getD [] = text
  declared : param.name.bind (childFormParameter form) = some row
  slot : form.slots[row.slot]? = some target

variable {param : Param} {row : Declaration}

theorem paramSlot_eq_ok {earlier : List Param} {slot : ℕ} {found : Target}
    (h : paramSlot form earlier param = .ok (slot, found)) :
    ∃ row, param.name.bind (childFormParameter form) = some row ∧ row.slot = slot ∧
      form.slots[row.slot]? = some found ∧ ∀ other ∈ earlier, other.name ≠ param.name := by
  rw [paramSlot] at h
  split at h
  next => cases h
  next name hname =>
    split at h
    next => cases h
    next =>
      split at h
      next => cases h
      next hfirst =>
        split at h
        next => cases h
        next row hrow =>
          split at h
          next => cases h
          next target htarget =>
            cases h
            refine ⟨row, by rw [hname]; exact hrow, rfl, htarget, fun other hother heq => hfirst ?_⟩
            rw [List.any_eq_true]
            exact ⟨other, hother, by rw [heq, hname]; exact beq_self_eq_true _⟩

theorem name_of_declared (h : param.name.bind (childFormParameter form) = some row) :
    param.name = some row.name ∧ row ∈ form.declarations ∧ row.scope = form.scope := by
  obtain ⟨name, hname, hrow⟩ := Option.bind_eq_some_iff.mp h
  have hfound := List.find?_some hrow
  rw [Bool.and_eq_true, beq_iff_eq, beq_iff_eq] at hfound
  exact ⟨by rw [hname, hfound.2], List.mem_of_find?_eq_some hrow, hfound.1⟩

theorem Gives.paramSlot {earlier : List Param} (h : Gives form target text param row) {slot : ℕ}
    {found : Target} (hslot : paramSlot form earlier param = .ok (slot, found)) :
    slot = row.slot ∧ found = target := by
  obtain ⟨other, hother, rfl, hfound, -⟩ := paramSlot_eq_ok hslot
  rw [h.declared] at hother
  cases hother
  rw [h.slot] at hfound
  cases hfound
  exact ⟨rfl, rfl⟩

theorem Gives.importLiteral (h : Gives form target text param row) {value : Value}
    (hvalue : paramValue K form target param = .ok value)
    (hstore : assignScalarObject K old target value form.maxStringBytes = .ok object) :
    importLiteral K form old target text = .ok object := by
  rw [Children.importLiteral, bind_eq_ok]
  refine ⟨value, ?_, hstore⟩
  rw [paramValue, h.source] at hvalue
  dsimp only at hvalue
  split at hvalue
  next => cases hvalue
  next => rwa [h.literal] at hvalue

variable {staged staged' : Scopes}

/-- One turn of the loop that does not end it. -/
theorem importLoop_cons {earlier rest : List Param}
    (h : importLoop K form earlier staged (param :: rest) = (none, staged')) :
    ∃ slot found value object, paramSlot form earlier param = .ok (slot, found) ∧
      paramValue K form found param = .ok value ∧
      assignScalarObject K (staged form.scope slot) found value form.maxStringBytes = .ok object ∧
      importLoop K form (earlier ++ [param]) (Function.update staged form.scope
        (Function.update (staged form.scope) slot (some object))) rest = (none, staged') := by
  rw [importLoop] at h
  split at h
  next => cases h
  next slot found hslot =>
    split at h
    next => cases h
    next value hvalue =>
      split at h
      next => cases h
      next object hstore => exact ⟨slot, found, value, object, hslot, hvalue, hstore, h⟩

variable {earlier params : List Param}

/-- A slot is not written again: the parameters behind it have other names. -/
theorem importLoop_keeps
    (hearlier : param ∈ earlier) (hrow : param.name.bind (childFormParameter form) = some row)
    (h : importLoop K form earlier staged params = (none, staged')) :
    staged' form.scope row.slot = staged form.scope row.slot := by
  induction params generalizing earlier staged with
  | nil =>
    cases h
    rfl
  | cons first rest ih =>
    obtain ⟨slot, found, value, object, hslot, -, -, hrest⟩ := importLoop_cons h
    rw [ih (List.mem_append_left _ hearlier) hrest, Function.update_self, Function.update_of_ne]
    rintro rfl
    obtain ⟨other, hother, hsame, -, hnames⟩ := paramSlot_eq_ok hslot
    obtain ⟨hname, hmem, hscope⟩ := name_of_declared hrow
    obtain ⟨hname', hmem', hscope'⟩ := name_of_declared hother
    refine hnames param hearlier ?_
    rw [hname, hname', form.slots_named row hmem other hmem' (hscope.trans hscope'.symm) hsame.symm]

/-- **The loop.** The slot of a literal holds what the literal was imported as. -/
theorem importLoop_stores (hmem : param ∈ params) (hgives : Gives form target text param row)
    (h : importLoop K form earlier staged params = (none, staged')) :
    ∃ old object, importLiteral K form old target text = .ok object ∧
      staged' form.scope row.slot = some object := by
  induction params generalizing earlier staged with
  | nil => cases hmem
  | cons first rest ih =>
    obtain ⟨slot, found, value, object, hslot, hvalue, hstore, hrest⟩ := importLoop_cons h
    rcases List.mem_cons.mp hmem with rfl | hin
    · obtain ⟨rfl, rfl⟩ := hgives.paramSlot hslot
      refine ⟨_, object, hgives.importLiteral hvalue hstore, ?_⟩
      rw [importLoop_keeps (List.mem_append_right _ List.mem_cons_self) hgives.declared hrest,
        Function.update_self, Function.update_self]
    · exact ih hin hrest

/-- An entry fails and commits nothing, or it commits what its loop has staged. -/
theorem startAtEntry_cases (initializeForm : Scopes → Option Status × Scopes) (session : Session)
    (params : List Param) :
    ((startAtEntry K form initializeForm session params).failed.isSome ∧
      (startAtEntry K form initializeForm session params).committed = session.committed) ∨
    ∃ staged, importLoop K form [] staged params =
      (none, (startAtEntry K form initializeForm session params).committed) := by
  rw [startAtEntry]
  dsimp only
  cases hform : initializeForm session.committed with
  | mk status staged =>
    cases status with
    | some status => exact .inl ⟨rfl, rfl⟩
    | none =>
      dsimp only
      cases hentry : importChildEntryParameters K form staged params with
      | mk status staged' =>
        cases status with
        | some status => exact .inl ⟨rfl, rfl⟩
        | none =>
          rw [importChildEntryParameters] at hentry
          split at hentry
          next => cases hentry
          next =>
            cases hloop : importLoop K form [] staged params with
            | mk status staged'' =>
              rw [hloop] at hentry
              cases status with
              | some status => cases hentry
              | none =>
                refine .inr ⟨staged, ?_⟩
                rw [(Prod.mk.inj hentry).2] at hloop
                exact hloop

end

/-- What the literal denotes is imported and reaches its slot; one that denotes nothing fails the
entry. -/
structure Exactly (target : Target) (text : Text) : Prop where
  imports : ∀ old object, importLiteral K form old target text = .ok object ↔
    Denotes target text object
  refuses : (∀ object, ¬ Denotes target text object) →
    ∀ (initializeForm : Scopes → Option Status × Scopes) (session : Session) (params : List Param),
      ∀ param ∈ params, ∀ row, Gives form target text param row →
        (startAtEntry K form initializeForm session params).failed.isSome ∧
          (startAtEntry K form initializeForm session params).committed = session.committed
  stores : ∀ (initializeForm : Scopes → Option Status × Scopes) (session : Session)
    (params : List Param), ∀ param ∈ params, ∀ row, Gives form target text param row →
      (startAtEntry K form initializeForm session params).failed = none →
        ∃ object, Denotes target text object ∧
          (startAtEntry K form initializeForm session params).committed form.scope row.slot =
            some object

/-- **Main.** For every scalar target and text, a literal is imported exactly unless the text is out
of bounds, or not taken by its string type, or one of those accepted beyond. -/
theorem child_literal_exact_iff {target : Target} (hscalar : target.scalar = true) (text : Text) :
    Exactly K form target text ↔
      (∀ object, Denotes target text object → ∀ old, Within K form old target text) ∧
        ∀ old, Within K form old target text → ∀ object, ¬ Lax target text object := by
  constructor
  · intro hexact
    refine ⟨fun object hdenotes old => ?_, fun old hwithin object hlax => ?_⟩
    · exact ((importLiteral_eq_ok hscalar).mp ((hexact.imports old object).mpr hdenotes)).1
    · refine hlax.not_denotes ((hexact.imports old object).mp ?_)
      exact (importLiteral_eq_ok hscalar).mpr ⟨hwithin, .inr hlax⟩
  · rintro ⟨hwithin, hlax⟩
    have himports : ∀ old object, importLiteral K form old target text = .ok object ↔
        Denotes target text object := by
      intro old object
      rw [importLiteral_eq_ok hscalar]
      constructor
      · rintro ⟨hbounds, hdenotes | hbeyond⟩
        · exact hdenotes
        · exact absurd hbeyond (hlax old hbounds object)
      · exact fun hdenotes => ⟨hwithin object hdenotes old, .inl hdenotes⟩
    have hstored : ∀ {params param row staged staged'}, param ∈ params →
        Gives form target text param row →
        importLoop K form [] staged params = (none, staged') →
          ∃ object, Denotes target text object ∧ staged' form.scope row.slot = some object := by
      intro params param row staged staged' hmem hgives hloop
      obtain ⟨old, object, himport, hslot⟩ := importLoop_stores hmem hgives hloop
      exact ⟨object, (himports old object).mp himport, hslot⟩
    refine ⟨himports, fun hnothing initializeForm session params param hmem row hgives => ?_,
      fun initializeForm session params param hmem row hgives hok => ?_⟩
    · refine (startAtEntry_cases initializeForm session params).resolve_right ?_
      rintro ⟨staged, hloop⟩
      obtain ⟨object, hdenotes, -⟩ := hstored hmem hgives hloop
      exact hnothing object hdenotes
    · rcases startAtEntry_cases initializeForm session params with ⟨hfailed, -⟩ | ⟨staged, hloop⟩
      · rw [hok] at hfailed
        cases hfailed
      · exact hstored hmem hgives hloop

/-- Strings of at most 16 bytes, as the sessions of the tests have them. -/
def shortStrings : BufferOps where
  owned := true
  restoreZero _ := none
  assign text limit :=
    if limit < text.length ∨ 16 < text.length then .error .capacityExceeded else .ok text
  assign_text := by
    intro text limit held h
    split at h
    next => cases h
    next =>
      cases h
      rfl

def sampleSupplied : Supplied :=
  ⟨fun _ => shortStrings, fun _ _ => .error .semanticError, fun _ _ => .error .semanticError⟩

def sampleForm (target : Target) : Form where
  scope := 1
  declarations := [⟨"n".toList, 1, 0, false⟩]
  slots := [target]
  maxSubdialogParamValueBytes := 32
  maxStringBytes := 32
  slots_named := by
    intro row hrow other hother _ _
    rw [List.mem_singleton.mp hrow, List.mem_singleton.mp hother]

theorem child_literal_exact_sample :
    Exactly sampleSupplied (sampleForm (.uint .w8)) (.uint .w8) "255".toList := by
  refine (child_literal_exact_iff _ _ rfl _).mpr
    ⟨fun _ _ _ => ⟨by decide, by decide, fun _ htype => by cases htype⟩, ?_⟩
  intro _ _ object hlax
  obtain ⟨c, hc, hbegin⟩ := hlax.head?
  cases hc
  rcases hbegin with hblank | ⟨hplus, -⟩
  · exact absurd hblank (by decide)
  · exact absurd hplus (by decide)

theorem not_child_literal_exact :
    ¬ Exactly sampleSupplied (sampleForm (.uint .w64)) (.uint .w64) " -5".toList := by
  intro hexact
  have himport : importLiteral sampleSupplied (sampleForm (.uint .w64)) none (.uint .w64)
      " -5".toList = .ok (.uint .w64 18446744073709551611#64) := rfl
  have himports := hexact.imports none
  generalize htext : " -5".toList = text at himports himport
  cases (himports _).mp himport with
  | uint hdigits _ =>
    obtain ⟨c, hc, hdigit⟩ := head?_of_digits hdigits
    rw [← htext] at hc
    cases hc
    exact absurd hdigit (by decide)

end TurboScxml.Voice.Children
