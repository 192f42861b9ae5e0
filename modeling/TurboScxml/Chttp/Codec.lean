import TurboScxml.Lib.Percent
import TurboScxml.Session.Sends

/-!
# The HTTP form codec

`chttp_event_io_codec.c`: a send request becomes the body of a POST request, and the body of a form
that was posted becomes an event with its entries.

* `SendRequest`, `CodecLimits`: what the codec reads;
* `encode`: `scxml_chttp_codec_encode`, a pass that measures the fields and one that writes them;
* `decodeForm`: `scxml_chttp_codec_decode_form`.
-/

namespace TurboScxml.Chttp

abbrev Bytes := List UInt8

def ascii (text : Text) : Bytes := text.map fun c => UInt8.ofNat c.toNat

def sizeMax : ℕ := uint64Max

structure Platform where
  utf8Valid : Bytes → Bool
  /-- What `"%.17g"` prints for these bits. -/
  formatG17 : UInt64 → Bytes

/-! ## Requests -/

/-- `scxml_payload_value`. A double is given by its bits. -/
inductive PayloadValue
  | invalid
  | bool (boolean : Bool)
  | sint (sint : Int64)
  | uint (uint : UInt64)
  | float (bits : UInt64)
  | string (data : Bytes)
  deriving DecidableEq

inductive ContentView
  | invalid
  | scalar (value : PayloadValue)
  | textUtf8 (bytes : Bytes)
  | xmlUtf8 (bytes : Bytes)
  | cmeta
  deriving DecidableEq

structure PayloadEntry where
  name : Bytes
  value : ContentView
  deriving DecidableEq

/-- `scxml_payload_view`. -/
inductive Payload
  | none
  | content (content : ContentView)
  | named (entries : List PayloadEntry)
  deriving DecidableEq

/-- What the codec reads of a `scxml_send_request`. -/
structure SendRequest where
  event : Option Bytes
  payload : Payload
  deriving DecidableEq

/-- `event`, empty for a `NULL` pointer. -/
def SendRequest.eventName (request : SendRequest) : Bytes := request.event.getD []

/-- The entries of a NAMED payload. -/
def SendRequest.entries (request : SendRequest) : List PayloadEntry :=
  match request.payload with
  | .named entries => entries
  | _ => []

/-- `scxml_chttp_codec_limits`. -/
structure CodecLimits where
  maxEventNameBytes : ℕ
  maxFormEntryCount : ℕ
  maxFormNameBytes : ℕ
  maxFormValueBytes : ℕ
  maxEncodedBodyBytes : ℕ

inductive MediaType
  | form | text | xml
  deriving DecidableEq

/-- `scxml_chttp_encoded_body`. -/
structure EncodedBody where
  mediaType : MediaType
  bodySize : ℕ
  body : Bytes
  deriving DecidableEq

/-- `scxml_chttp_decode_status`, without OK. -/
inductive DecodeError
  | badRequest | limitExceeded
  deriving DecidableEq

/-- `scxml_chttp_decoded_form`. -/
structure DecodedForm where
  event : Bytes
  entries : List (Bytes × Bytes)
  deriving DecidableEq

def reservedEventName : Bytes :=
  ascii ['_', 's', 'c', 'x', 'm', 'l', 'e', 'v', 'e', 'n', 't', 'n', 'a', 'm', 'e']

def defaultEventName : Bytes := ascii ['H', 'T', 'T', 'P', '.', 'P', 'O', 'S', 'T']

def ampersand : UInt8 := 0x26

def equalsSign : UInt8 := 0x3D

/-! ## Encoding -/

def checkedAdd (left right : ℕ) : Option ℕ :=
  if left > sizeMax - right then none else some (left + right)

def formUnreserved (value : UInt8) : Bool :=
  (0x41 ≤ value && value ≤ 0x5A) || (0x61 ≤ value && value ≤ 0x7A) ||
    (0x30 ≤ value && value ≤ 0x39) || value == 0x2D || value == 0x2E || value == 0x5F ||
    value == 0x7E

def formEncode (data : Bytes) : Bytes := Percent.encode formUnreserved data

/-- What `form_encoded_size` counts for a byte. -/
def formWidth (value : UInt8) : ℕ := if formUnreserved value || value == Percent.blank then 1 else 3

def isDigit (c : UInt8) : Bool := 0x30 ≤ c && c ≤ 0x39

def isExponent (c : UInt8) : Bool := c == 0x65 || c == 0x45

def takeSign : Bytes → Bytes × Bytes
  | c :: rest => if c == 0x2B || c == 0x2D then ([c], rest) else ([], c :: rest)
  | [] => ([], [])

/-- The fraction of `canonicalize_float_text`. -/
def takeFraction (text : Bytes) : Option (Bytes × Bytes) :=
  match text with
  | [] => some ([], [])
  | c :: _ =>
    if isExponent c then some ([], text)
    else
      let digits := (text.dropWhile fun c => !isDigit c && !isExponent c).span isDigit
      if digits.1 = [] then none else some (0x2E :: digits.1, digits.2)

/-- The exponent of `canonicalize_float_text`. -/
def takeExponent (text : Bytes) : Option (Bytes × Bytes) :=
  match text with
  | [] => some ([], [])
  | c :: rest =>
    if isExponent c then
      let sign := takeSign rest
      let digits := sign.2.span isDigit
      if digits.1 = [] then none else some (0x65 :: sign.1 ++ digits.1, digits.2)
    else some ([], text)

def canonicalizeFloatText (text : Bytes) : Option Bytes := do
  let sign := takeSign text
  let whole := sign.2.span isDigit
  if whole.1 = [] then none
  else
    let fraction ← takeFraction whole.2
    let exponent ← takeExponent fraction.2
    if exponent.2 = [] then some (sign.1 ++ whole.1 ++ fraction.1 ++ exponent.1) else none

def isFinite (bits : UInt64) : Bool := (bits >>> 52) &&& 0x7FF != 0x7FF

/-- `"%llu"`. -/
def decimal (n : ℕ) : Bytes := ascii (Nat.toDigits 10 n)

def signedDecimal (n : ℤ) : Bytes := if n < 0 then 0x2D :: decimal n.natAbs else decimal n.natAbs

/-- What `snprintf` leaves in a storage of 64 bytes. -/
def printed (text : Bytes) : Option Bytes := if text.length < 64 then some text else none

namespace Platform

variable (p : Platform)

def codecUtf8Valid (data : Bytes) : Bool := data.isEmpty || (!data.contains 0 && p.utf8Valid data)

def scalarText : PayloadValue → Option Bytes
  | .string data => if p.codecUtf8Valid data then some data else none
  | .bool boolean =>
    printed (ascii (if boolean then ['t', 'r', 'u', 'e'] else ['f', 'a', 'l', 's', 'e']))
  | .sint sint => printed (signedDecimal sint.toInt)
  | .uint uint => printed (decimal uint.toNat)
  | .float bits =>
    if isFinite bits then (printed (p.formatG17 bits)).bind canonicalizeFloatText else none
  | .invalid => none

def formEncodedSize (data : Bytes) (limit : ℕ) : Option ℕ :=
  if data.length > limit || !p.codecUtf8Valid data then none
  else data.foldlM (fun required value => checkedAdd required (formWidth value)) 0

/-- The ampersand of `add_form_field_size`. -/
def addSeparator (total : ℕ) (hasPrior : Bool) : Option ℕ :=
  if hasPrior then checkedAdd total 1 else some total

def addFormFieldSize (total : ℕ) (hasPrior : Bool) (name : Bytes) (nameLimit : ℕ) (value : Bytes)
    (valueLimit : ℕ) : Option ℕ :=
  if name = [] then none
  else do
    let encodedName ← p.formEncodedSize name nameLimit
    let encodedValue ← p.formEncodedSize value valueLimit
    let required ← addSeparator total hasPrior
    let required ← checkedAdd required encodedName
    let required ← checkedAdd required 1
    checkedAdd required encodedValue

structure Sizes where
  required : ℕ
  fieldCount : ℕ
  hasReservedEvent : Bool

def sizeEntries (limits : CodecLimits) (sizes : Sizes) : List PayloadEntry → Option Sizes
  | [] => some sizes
  | entry :: rest =>
    let isReserved := entry.name == reservedEventName
    match entry.value with
    | .scalar scalar =>
      match p.scalarText scalar with
      | some value =>
        if (isReserved && sizes.hasReservedEvent) || (isReserved && value.isEmpty) then none
        else
          match p.addFormFieldSize sizes.required (sizes.fieldCount != 0) entry.name
            (if isReserved then reservedEventName.length else limits.maxFormNameBytes) value
            (if isReserved then limits.maxEventNameBytes else limits.maxFormValueBytes) with
          | some required =>
            sizeEntries limits ⟨required, sizes.fieldCount + 1, sizes.hasReservedEvent || isReserved⟩
              rest
          | none => none
      | none => none
    | _ => none

variable (limits : CodecLimits)

def sizeEvent (request : SendRequest) : Option Sizes :=
  if request.eventName ≠ [] then
    if limits.maxFormEntryCount = 0 then none
    else
      (p.addFormFieldSize 0 false reservedEventName reservedEventName.length request.eventName
        limits.maxEventNameBytes).map (⟨·, 1, true⟩)
  else if request.event = none then some ⟨0, 0, false⟩
  else none

/-- The first pass of `scxml_chttp_codec_encode`. -/
def measure (request : SendRequest) : Option Sizes := do
  let sizes ← p.sizeEvent limits request
  if request.entries.length > limits.maxFormEntryCount - sizes.fieldCount then none
  else p.sizeEntries limits sizes request.entries

def writeFormField (hasPrior : Bool) (name value : Bytes) : Bytes :=
  (if hasPrior then [ampersand] else []) ++ formEncode name ++ equalsSign :: formEncode value

def writeEntries (fieldCount : ℕ) : List PayloadEntry → Option Bytes
  | [] => some []
  | entry :: rest =>
    match entry.value with
    | .scalar scalar => do
      let value ← p.scalarText scalar
      let written ← writeEntries (fieldCount + 1) rest
      some (writeFormField (fieldCount != 0) entry.name value ++ written)
    | _ => none

/-- The second pass of `scxml_chttp_codec_encode`. -/
def write (request : SendRequest) : Option Bytes :=
  if request.eventName ≠ [] then
    (p.writeEntries 1 request.entries).map
      (writeFormField false reservedEventName request.eventName ++ ·)
  else p.writeEntries 0 request.entries

def contentBody : ContentView → Option (MediaType × Bytes)
  | .scalar scalar => (p.scalarText scalar).map fun data => (.text, data)
  | .textUtf8 bytes => if p.codecUtf8Valid bytes then some (.text, bytes) else none
  | .xmlUtf8 bytes => if p.codecUtf8Valid bytes then some (.xml, bytes) else none
  | _ => none

/-- `scxml_chttp_codec_encode`: the required size, and the body or the status. -/
def encode (bodyCapacity : ℕ) (request : SendRequest) :
    ℕ × Except Session.AdapterStatus EncodedBody :=
  match request.payload with
  | .content content =>
    match p.contentBody content with
    | none => (0, .error .errorExecution)
    | some (mediaType, data) =>
      (data.length,
        if data.length > limits.maxEncodedBodyBytes then .error .errorExecution
        else if data.length > bodyCapacity then .error .full
        else .ok ⟨mediaType, data.length, data⟩)
  | _ =>
    match p.measure limits request with
    | none => (0, .error .errorExecution)
    | some sizes =>
      if sizes.fieldCount = 0 then (0, .error .errorExecution)
      else
        (sizes.required,
          if sizes.required > limits.maxEncodedBodyBytes then .error .errorExecution
          else if sizes.required > bodyCapacity then .error .full
          else
            match p.write request with
            | none => .error .invalidContract
            | some body => .ok ⟨.form, sizes.required, body⟩)

/-! ## Decoding -/

def decodeComponent (source : Bytes) : Option Bytes :=
  (Percent.decode source).filter fun text => !text.contains 0 && p.codecUtf8Valid text

structure FormState where
  totalEntries : ℕ
  /-- The value of the reserved field. -/
  event : Option Bytes
  entries : List (Bytes × Bytes)

def addField (entryCapacity : ℕ) (form : FormState) (name value : Bytes) :
    Except DecodeError FormState :=
  if name = reservedEventName then
    if form.event.isSome || value.isEmpty then .error .badRequest
    else if value.length > limits.maxEventNameBytes then .error .limitExceeded
    else .ok { form with event := some value }
  else if name.length > limits.maxFormNameBytes ∨ value.length > limits.maxFormValueBytes ∨
      form.entries.length ≥ entryCapacity then .error .limitExceeded
  else .ok { form with entries := form.entries ++ [(name, value)] }

def decodeField (entryCapacity : ℕ) (form : FormState) (field : Bytes) :
    Except DecodeError FormState :=
  if field = [] then .error .badRequest
  else if form.totalEntries + 1 > limits.maxFormEntryCount then .error .limitExceeded
  else
    let halves := Percent.cut equalsSign field
    match p.decodeComponent halves.1 with
    | none => .error .badRequest
    | some name =>
      if name = [] then .error .badRequest
      else
        match p.decodeComponent (halves.2.getD []) with
        | none => .error .badRequest
        | some value =>
          addField limits entryCapacity { form with totalEntries := form.totalEntries + 1 } name
            value

def decodeFields (limits : CodecLimits) (entryCapacity : ℕ) (form : FormState) (source : Bytes) :
    Except DecodeError FormState :=
  if source = [] then .ok form
  else
    match p.decodeField limits entryCapacity form (Percent.cut ampersand source).1 with
    | .error error => .error error
    | .ok form =>
      match _hrest : (Percent.cut ampersand source).2 with
      | none => .ok form
      | some [] => .error .badRequest
      | some rest => decodeFields limits entryCapacity form rest
  termination_by source.length
  decreasing_by exact Percent.cut_length _hrest

def decodeForm (entryCapacity textCapacity : ℕ) (body : Bytes) : Except DecodeError DecodedForm :=
  if body.length > limits.maxEncodedBodyBytes ∨ body.length > textCapacity then
    .error .limitExceeded
  else
    (p.decodeFields limits entryCapacity ⟨0, none, []⟩ body).map fun form =>
      ⟨form.event.getD defaultEventName, form.entries⟩

end Platform

end TurboScxml.Chttp
