import TurboScxml.Chttp.CodecRoundTrip
import TurboScxml.Voice.SubmitEncoding

/-!
# The BasicHTTP ingress handler

`chttp_event_io_ingress.c`: a POST request becomes an event of the Session that is bound to its
endpoint.

* `isXmlNmtoken`: the event names that `scxml_analyze.c` admits;
* `ingressHandler`: the reply to a request and the event that the Session is sent;
* `plain_formEncode`, `plain_canonicalizeFloatText`: what is encoded is ASCII, and so passes the
  UTF-8 check of the receiver;
* **`ingress_encode`**: what a Session sends by BasicHTTP is received;
* **`ingress_submit`**: so is what a dialog submits by a POST.
-/

namespace TurboScxml.Chttp

/-! ## Event names -/

/-- The width of a character of `decode_utf8`, and the bits in its lead. -/
def leadBits (lead : UInt8) : Option (ℕ × ℕ) :=
  if lead ≤ 0x7F then some (1, lead.toNat)
  else if 0xC2 ≤ lead ∧ lead ≤ 0xDF then some (2, (lead &&& 0x1F).toNat)
  else if 0xE0 ≤ lead ∧ lead ≤ 0xEF then some (3, (lead &&& 0x0F).toNat)
  else if 0xF0 ≤ lead ∧ lead ≤ 0xF4 then some (4, (lead &&& 0x07).toNat)
  else none

def continuations (value : ℕ) : ℕ → Bytes → Option (ℕ × Bytes)
  | 0, rest => some (value, rest)
  | _ + 1, [] => none
  | width + 1, c :: rest =>
    if c &&& 0xC0 = 0x80 then continuations (value * 64 + (c &&& 0x3F).toNat) width rest else none

/-- `decode_utf8`: a character, and the bytes behind it. -/
def decodeUtf8 (lead : UInt8) (rest : Bytes) : Option (ℕ × Bytes) := do
  let (width, bits) ← leadBits lead
  let (value, rest) ← continuations bits (width - 1) rest
  if (width = 3 ∧ value < 0x800) ∨ (width = 4 ∧ value < 0x10000) ∨
      (0xD800 ≤ value ∧ value ≤ 0xDFFF) ∨ value > 0x10FFFF then none
  else some (value, rest)

def ncnameStartRanges : List (ℕ × ℕ) :=
  [(0x5F, 0x5F), (0x41, 0x5A), (0x61, 0x7A), (0xC0, 0xD6), (0xD8, 0xF6), (0xF8, 0x2FF),
    (0x370, 0x37D), (0x37F, 0x1FFF), (0x200C, 0x200D), (0x2070, 0x218F), (0x2C00, 0x2FEF),
    (0x3001, 0xD7FF), (0xF900, 0xFDCF), (0xFDF0, 0xFFFD), (0x10000, 0xEFFFF)]

def ncnameCharRanges : List (ℕ × ℕ) :=
  [(0x2D, 0x2D), (0x2E, 0x2E), (0x30, 0x39), (0xB7, 0xB7), (0x300, 0x36F), (0x203F, 0x2040)]

def isNcnameChar (codepoint : ℕ) : Bool :=
  (ncnameStartRanges ++ ncnameCharRanges).any fun range =>
    range.1 ≤ codepoint && codepoint ≤ range.2

/-- The loop of `scxml_analyze_is_xml_nmtoken`. -/
def nmtokenFrom : ℕ → Bytes → Bool
  | _, [] => true
  | 0, _ :: _ => false
  | fuel + 1, lead :: rest =>
    match decodeUtf8 lead rest with
    | some (codepoint, rest) =>
      (isNcnameChar codepoint || codepoint == 0x3A) && nmtokenFrom fuel rest
    | none => false

def isXmlNmtoken (token : Bytes) : Bool := !token.isEmpty && nmtokenFrom token.length token

/-! ## The handler -/

/-- `FORM_MEDIA_TYPE`. -/
def formMediaType : Bytes := Voice.Submit.bytesOf Voice.Submit.urlencodedType

/-- `media_type` of an encoded body. -/
def mediaTypeText : MediaType → Bytes
  | .form => formMediaType
  | .text => Voice.Submit.bytesOf "text/plain; charset=utf-8".toList
  | .xml => Voice.Submit.bytesOf "application/xml; charset=utf-8".toList

def toLower (c : UInt8) : UInt8 := if 0x41 ≤ c && c ≤ 0x5A then c + 0x20 else c

def isFormContentType : Option Bytes → Bool
  | none => false
  | some contentType =>
    let size := formMediaType.length
    (contentType.take size).map toLower == formMediaType.map toLower &&
      match (contentType.drop size).dropWhile fun c => c == 0x20 || c == 0x09 with
      | [] => true
      | c :: _ => c == 0x3B

/-- `scxml_chttp_decode_status`, but for OK. -/
inductive DecodeFailure
  | badRequest | unsupportedMedia | limitExceeded | failed | other
  deriving DecidableEq

def DecodeError.toFailure : DecodeError → DecodeFailure
  | .badRequest => .badRequest
  | .limitExceeded => .limitExceeded

def decodeStatusToHttp : DecodeFailure → ℕ
  | .badRequest | .limitExceeded => 400
  | .unsupportedMedia => 415
  | .failed => 422
  | .other => 500

def mailboxStatusToHttp : MailboxStatus → ℕ
  | .ok => 204
  | .full => 503
  | .closed | .cancelled => 410
  | .invalidArgument | .typeMismatch | .bufferTooSmall => 422
  | .allocationFailed | .empty => 500

/-- `scxml_chttp_ingress_view`. -/
structure IngressView where
  content : Bytes
  entries : List (Bytes × Bytes)
  deriving DecidableEq

structure IngressEvent where
  name : Bytes
  originType : Text
  data : ContentView
  deriving DecidableEq

/-- `scxml_chttp_binding_impl`. -/
structure BindingImpl where
  active : Bool
  decode : Option (IngressView → Except DecodeFailure ContentView)
  /-- `scxml_session_try_send_named_with_metadata`. -/
  trySend : IngressEvent → MailboxStatus

/-- `scxml_chttp_endpoint_row`. -/
structure EndpointRow where
  endpoint : Bytes
  binding : Option BindingImpl

/-- `chttp_server_request_view`. -/
structure ServerRequest where
  endpoint : Option Bytes
  contentType : Option Bytes
  body : Bytes

structure Reply where
  status : ℕ
  sent : Option IngressEvent
  deriving DecidableEq

def basicHttpProcessorUri : Text := "http://www.w3.org/TR/scxml/#BasicHTTPEventProcessor".toList

def findBinding (endpoint : Bytes) (rows : List EndpointRow) : Option BindingImpl :=
  (rows.find? fun row => row.binding.isSome && row.endpoint == endpoint).bind (·.binding)

namespace Platform

variable (p : Platform)

def ingressData (binding : BindingImpl) (view : IngressView) : Except ℕ ContentView :=
  match binding.decode with
  | some decode => (decode view).mapError decodeStatusToHttp
  | none =>
    if p.codecUtf8Valid view.content = false then .error 422
    else .ok (if view.content = [] then .invalid else .textUtf8 view.content)

/-- The handler behind the form. -/
def deliver (binding : BindingImpl) (event : Bytes) (view : IngressView) : Reply :=
  if isXmlNmtoken event = false then ⟨400, none⟩
  else
    match p.ingressData binding view with
    | .error status => ⟨status, none⟩
    | .ok data =>
      let posted := ⟨event, basicHttpProcessorUri, data⟩
      ⟨mailboxStatusToHttp (binding.trySend posted), some posted⟩

def receive (limits : CodecLimits) (textCapacity : ℕ) (binding : BindingImpl)
    (request : ServerRequest) : Reply :=
  if isFormContentType request.contentType then
    match p.decodeForm limits limits.maxFormEntryCount textCapacity request.body with
    | .error error => ⟨decodeStatusToHttp error.toFailure, none⟩
    | .ok form => p.deliver binding form.event ⟨request.body, form.entries⟩
  else p.deliver binding defaultEventName ⟨request.body, []⟩

def ingressHandler (limits : CodecLimits) (textCapacity : ℕ) (rows : List EndpointRow)
    (request : ServerRequest) : Reply :=
  match request.endpoint.bind fun endpoint => findBinding endpoint rows with
  | none => ⟨404, none⟩
  | some binding =>
    if binding.active = false then ⟨410, none⟩
    else p.receive limits textCapacity binding request

end Platform

/-! ## Deliveries -/

/-- The data of an event: the decoder's, or else the body as text. -/
def BindingImpl.Reads (binding : BindingImpl) (view : IngressView) (data : ContentView) : Prop :=
  match binding.decode with
  | some decode => decode view = .ok data
  | none => data = if view.content = [] then .invalid else .textUtf8 view.content

/-- The Session is sent the event, and the reply is what its mailbox says. -/
def BindingImpl.post (binding : BindingImpl) (event : Bytes) (data : ContentView) : Reply :=
  ⟨mailboxStatusToHttp (binding.trySend ⟨event, basicHttpProcessorUri, data⟩),
    some ⟨event, basicHttpProcessorUri, data⟩⟩

/-- The reply to a body with a name and entries: only the name and the decoder can refuse it. -/
structure Delivers (binding : BindingImpl) (event : Bytes) (view : IngressView) (reply : Reply) :
    Prop where
  posted : isXmlNmtoken event = true → ∀ data, binding.Reads view data →
    reply = binding.post event data
  undecoded : isXmlNmtoken event = true → ∀ decode failure, binding.decode = some decode →
    decode view = .error failure → reply = ⟨decodeStatusToHttp failure, none⟩
  unnamed : isXmlNmtoken event = false → reply = ⟨400, none⟩

theorem Platform.delivers_deliver {p : Platform} {view : IngressView}
    (hvalid : p.codecUtf8Valid view.content = true) (binding : BindingImpl) (event : Bytes) :
    Delivers binding event view (p.deliver binding event view) := by
  refine ⟨fun hname data hdata => ?_, fun hname decode failure hdecode hfailure => ?_,
    fun hname => if_pos hname⟩
  · have hread : p.ingressData binding view = .ok data := by
      rw [BindingImpl.Reads.eq_def] at hdata
      rw [Platform.ingressData.eq_def]
      cases hdecode : binding.decode with
      | none =>
        rw [hdecode] at hdata
        dsimp only at hdata ⊢
        rw [hvalid, if_neg Bool.true_eq_false_eq_False, hdata]
      | some decode =>
        rw [hdecode] at hdata
        dsimp only at hdata ⊢
        rw [hdata]
        rfl
    rw [Platform.deliver, hname, if_neg Bool.true_eq_false_eq_False, hread]
    rfl
  · have hread : p.ingressData binding view = .error (decodeStatusToHttp failure) := by
      rw [Platform.ingressData, hdecode]
      dsimp only
      rw [hfailure]
      rfl
    rw [Platform.deliver, hname, if_neg Bool.true_eq_false_eq_False, hread]

/-! ## Plain text -/

/-- Text that every UTF-8 check accepts. -/
def Plain (data : Bytes) : Prop := ∀ c ∈ data, 0 < c ∧ c < 0x80

/-- What `vstr_utf8_valid` is relied on for: ASCII is UTF-8. -/
def Platform.AcceptsPlain (p : Platform) : Prop := ∀ data, Plain data → p.utf8Valid data = true

theorem Platform.AcceptsPlain.valid {p : Platform} (hp : p.AcceptsPlain) {data : Bytes}
    (h : Plain data) : p.codecUtf8Valid data = true := by
  have hzero : data.contains 0 = false := by
    rw [← Bool.not_eq_true, List.contains_iff_mem]
    exact fun hmem => absurd (h 0 hmem).1 (by decide)
  rw [Platform.codecUtf8Valid, hzero, hp data h, Bool.not_false, Bool.and_true, Bool.or_true]

theorem Plain.append {front rest : Bytes} (hfront : Plain front) (hrest : Plain rest) :
    Plain (front ++ rest) :=
  fun c hc => (List.mem_append.mp hc).elim (hfront c) (hrest c)

theorem Plain.cons {c : UInt8} {rest : Bytes} (hc : 0 < c ∧ c < 0x80) (hrest : Plain rest) :
    Plain (c :: rest) :=
  Plain.append (List.forall_mem_singleton.mpr hc) hrest

theorem plain_nil : Plain [] := fun _ hc => absurd hc List.not_mem_nil

theorem plain_formEncode (data : Bytes) : Plain (formEncode data) := by
  have hsafe (c : UInt8) (h : formUnreserved c = true) : 0 < c ∧ c < 0x80 := by
    simp only [formUnreserved, Bool.or_eq_true, Bool.and_eq_true, decide_eq_true_eq, beq_iff_eq,
      UInt8.le_iff_toNat_le, UInt8.lt_iff_toNat_lt, ← UInt8.toNat_inj, UInt8.reduceToNat] at h ⊢
    omega
  have hdigit : ∀ n < 16, 0 < Percent.hexDigit n ∧ Percent.hexDigit n < 0x80 := by decide
  intro c hc
  obtain ⟨b, -, hb⟩ := List.mem_flatMap.mp hc
  rcases Percent.mem_encodeByte hb with h | rfl | rfl | ⟨n, hn, rfl⟩
  · exact hsafe c h
  · decide
  · decide
  · exact hdigit n hn

theorem plain_decimal (n : ℕ) : Plain (decimal n) := by
  intro c hc
  obtain ⟨d, hd, rfl⟩ := List.mem_map.mp hc
  have hdigit := Nat.isDigit_of_mem_toDigits (by decide) (by decide) hd
  simp only [Char.isDigit, Bool.and_eq_true, decide_eq_true_eq, UInt32.le_iff_toNat_le] at hdigit
  have hlow : 48 ≤ d.toNat := hdigit.1
  have hhigh : d.toNat ≤ 57 := hdigit.2
  rw [UInt8.lt_iff_toNat_lt, UInt8.lt_iff_toNat_lt, UInt8.toNat_ofNat_of_lt' (by
    rw [UInt8.size]
    omega)]
  exact ⟨Nat.lt_of_lt_of_le (by decide) hlow, Nat.lt_of_le_of_lt hhigh (by decide)⟩

theorem plain_digits (text : Bytes) : Plain (text.span isDigit).1 := by
  have hdigit (c : UInt8) (h : isDigit c = true) : 0 < c ∧ c < 0x80 := by
    simp only [isDigit, Bool.and_eq_true, decide_eq_true_eq, UInt8.le_iff_toNat_le,
      UInt8.lt_iff_toNat_lt, UInt8.reduceToNat] at h ⊢
    omega
  rw [List.span_eq_takeWhile_dropWhile]
  exact fun c hc => hdigit c (List.mem_takeWhile_imp hc)

theorem plain_takeSign (text : Bytes) : Plain (takeSign text).1 := by
  have hsign (c : UInt8) (h : (c == 0x2B || c == 0x2D) = true) : 0 < c ∧ c < 0x80 := by
    rw [Bool.or_eq_true, beq_iff_eq, beq_iff_eq] at h
    rcases h with rfl | rfl <;> decide
  cases text with
  | nil => exact plain_nil
  | cons c rest =>
    rw [takeSign]
    split
    next h => exact .cons (hsign c h) plain_nil
    next => exact plain_nil

theorem plain_takeFraction {text : Bytes} {fraction : Bytes × Bytes}
    (h : takeFraction text = some fraction) : Plain fraction.1 := by
  cases text with
  | nil =>
    cases h
    exact plain_nil
  | cons c rest =>
    rw [takeFraction] at h
    split at h
    · cases h
      exact plain_nil
    · dsimp only at h
      split at h
      · cases h
      · cases h
        exact .cons (by decide) (plain_digits _)

theorem plain_takeExponent {text : Bytes} {exponent : Bytes × Bytes}
    (h : takeExponent text = some exponent) : Plain exponent.1 := by
  cases text with
  | nil =>
    cases h
    exact plain_nil
  | cons c rest =>
    rw [takeExponent] at h
    split at h
    · dsimp only at h
      split at h
      · cases h
      · cases h
        exact (Plain.cons (by decide) (plain_takeSign _)).append (plain_digits _)
    · cases h
      exact plain_nil

theorem plain_canonicalizeFloatText {text out : Bytes} (h : canonicalizeFloatText text = some out) :
    Plain out := by
  rw [canonicalizeFloatText] at h
  split at h
  · cases h
  · obtain ⟨fraction, hfraction, h⟩ := Option.bind_eq_some_iff.mp h
    obtain ⟨exponent, hexponent, h⟩ := Option.bind_eq_some_iff.mp h
    split at h
    · cases h
      exact (((plain_takeSign _).append (plain_digits _)).append
        (plain_takeFraction hfraction)).append (plain_takeExponent hexponent)
    · cases h

/-! ## Forms that are received -/

structure CodecLimits.Within (sender receiver : CodecLimits) : Prop where
  eventName : sender.maxEventNameBytes ≤ receiver.maxEventNameBytes
  entryCount : sender.maxFormEntryCount ≤ receiver.maxFormEntryCount
  name : sender.maxFormNameBytes ≤ receiver.maxFormNameBytes
  value : sender.maxFormValueBytes ≤ receiver.maxFormValueBytes
  body : sender.maxEncodedBodyBytes ≤ receiver.maxEncodedBodyBytes

namespace Platform

variable {p : Platform} {sender limits : CodecLimits} {event : Bool} {fields : List (Bytes × Bytes)}

theorem Acceptable.mono (hlimits : sender.Within limits) (h : Acceptable p sender event fields) :
    Acceptable p limits event fields := by
  induction fields generalizing event with
  | nil => trivial
  | cons field fields ih =>
    obtain ⟨hfield, hrest⟩ := h
    refine ⟨{ hfield with reserved := fun hreserved => ?_, entry := fun hentry => ?_ }, ih hrest⟩
    · obtain ⟨hfirst, hsome, hlength⟩ := hfield.reserved hreserved
      exact ⟨hfirst, hsome, hlength.trans hlimits.eventName⟩
    · obtain ⟨hname, hvalue⟩ := hfield.entry hentry
      exact ⟨hname.trans hlimits.name, hvalue.trans hlimits.value⟩

theorem plain_writeField (field : Bytes × Bytes) : Plain (writeField field) :=
  (plain_formEncode _).append (.cons (by decide) (plain_formEncode _))

theorem plain_writeFrom (count : ℕ) (fields : List (Bytes × Bytes)) :
    Plain (writeFrom count fields) := by
  have hrest (fields : List (Bytes × Bytes)) : Plain (writeFields fields) := by
    intro c hc
    obtain ⟨field, -, hfield⟩ := List.mem_flatMap.mp hc
    exact Plain.cons (by decide) (plain_writeField field) c hfield
  cases count with
  | zero =>
    cases fields with
    | nil => exact plain_nil
    | cons field fields => exact (plain_writeField field).append (hrest fields)
  | succ count => exact hrest fields

variable {textCapacity : ℕ} {rows : List EndpointRow} {endpoint : Bytes} {binding : BindingImpl}

theorem ingressHandler_form {contentType : Option Bytes}
    (hfind : findBinding endpoint rows = some binding) (hactive : binding.active = true)
    (hform : isFormContentType contentType = true) (h : Acceptable p limits false fields)
    (hcount : fields.length ≤ limits.maxFormEntryCount)
    (hbody : (writeFrom 0 fields).length ≤ limits.maxEncodedBodyBytes)
    (htext : (writeFrom 0 fields).length ≤ textCapacity) :
    p.ingressHandler limits textCapacity rows ⟨some endpoint, contentType, writeFrom 0 fields⟩ =
      p.deliver binding ((reservedValue fields).getD defaultEventName)
        ⟨writeFrom 0 fields, applicationEntries fields⟩ := by
  have hread : p.decodeForm limits limits.maxFormEntryCount textCapacity (writeFrom 0 fields) =
      .ok ⟨(reservedValue fields).getD defaultEventName, applicationEntries fields⟩ := by
    by_cases hsome : fields = []
    · subst hsome
      have hempty : FormBody p limits limits.maxFormEntryCount [] [] :=
        ⟨.inl ⟨rfl, rfl⟩, h, hcount, Nat.zero_le _⟩
      exact decodeForm_eq_ok.mpr ⟨hbody, htext, [], hempty, rfl⟩
    · exact decodeForm_written hsome h hcount ((List.length_filter_le _ _).trans hcount) hbody htext
  rw [ingressHandler, Option.bind_some, hfind]
  dsimp only
  rw [hactive, if_neg Bool.true_eq_false_eq_False, receive, hform, if_pos rfl]
  dsimp only
  rw [hread]

/-! ## Between two Sessions -/

variable {request : SendRequest} {encoded : EncodedBody} {bodyCapacity required : ℕ}

theorem valid_printed (hp : p.AcceptsPlain) {text data : Bytes} (h : printed text = some data)
    (htext : Plain text) : p.codecUtf8Valid data = true := by
  rw [printed] at h
  split at h
  · cases h
    exact hp.valid htext
  · cases h

theorem valid_scalarText (hp : p.AcceptsPlain) {scalar : PayloadValue} {data : Bytes}
    (h : p.scalarText scalar = some data) : p.codecUtf8Valid data = true := by
  cases scalar with
  | invalid => cases h
  | bool boolean =>
    refine valid_printed hp h ?_
    rw [Plain]
    cases boolean <;> decide +kernel
  | sint sint =>
    refine valid_printed hp h ?_
    rw [signedDecimal]
    split
    · exact .cons (by decide) (plain_decimal _)
    · exact plain_decimal _
  | uint uint => exact valid_printed hp h (plain_decimal _)
  | float bits =>
    rw [scalarText] at h
    split at h
    · obtain ⟨text, -, htext⟩ := Option.bind_eq_some_iff.mp h
      exact hp.valid (plain_canonicalizeFloatText htext)
    · cases h
  | string text =>
    rw [scalarText] at h
    split at h
    next hvalid =>
      cases h
      exact hvalid
    next => cases h

theorem valid_contentBody (hp : p.AcceptsPlain) {content : ContentView} {mediaType : MediaType}
    {data : Bytes} (h : p.contentBody content = some (mediaType, data)) :
    p.codecUtf8Valid data = true := by
  cases content with
  | invalid => cases h
  | scalar scalar =>
    obtain ⟨text, htext, heq⟩ := Option.map_eq_some_iff.mp h
    cases heq
    exact valid_scalarText hp htext
  | textUtf8 bytes =>
    rw [contentBody] at h
    split at h
    next hvalid =>
      cases h
      exact hvalid
    next => cases h
  | xmlUtf8 bytes =>
    rw [contentBody] at h
    split at h
    next hvalid =>
      cases h
      exact hvalid
    next => cases h
  | cmeta => cases h

/-- The name and the entries that a request stands for. -/
def received (p : Platform) (request : SendRequest) : Option (Bytes × List (Bytes × Bytes)) :=
  match request.payload with
  | .content _ => some (defaultEventName, [])
  | _ => (request.entries.mapM p.fieldOf).map fun fields =>
    (namedEvent request fields, applicationEntries fields)

theorem isFormContentType_mediaType (mediaType : MediaType) :
    isFormContentType (some (mediaTypeText mediaType)) = decide (mediaType = .form) := by
  cases mediaType <;> decide +kernel

theorem encode_content (hp : p.AcceptsPlain) {content : ContentView}
    (hcontent : request.payload = .content content)
    (h : p.encode sender bodyCapacity request = (required, .ok encoded)) :
    isFormContentType (some (mediaTypeText encoded.mediaType)) = false ∧
      p.codecUtf8Valid encoded.body = true := by
  rw [encode, hcontent] at h
  dsimp only at h
  split at h
  next => cases h
  next mediaType data hbody =>
    have hform : mediaType ≠ .form := by
      rintro rfl
      cases content <;> simp [contentBody] at hbody
    split at h
    next => cases h
    next =>
      split at h
      next => cases h
      next =>
        cases h
        rw [isFormContentType_mediaType]
        exact ⟨decide_eq_false hform, valid_contentBody hp hbody⟩

theorem encode_form (hpayload : ∀ content, request.payload ≠ .content content)
    (h : p.encode sender bodyCapacity request = (required, .ok encoded)) :
    ∃ fields, request.entries.mapM p.fieldOf = some fields ∧
      encoded = ⟨.form, required, writeFrom 0 (allFields request fields)⟩ ∧
      Acceptable p sender false (allFields request fields) ∧
      (allFields request fields).length ≤ sender.maxFormEntryCount ∧
      (writeFrom 0 (allFields request fields)).length ≤ sender.maxEncodedBodyBytes := by
  rw [encode.eq_def] at h
  split at h
  next content hcontent => exact absurd hcontent (hpayload content)
  next =>
    split at h
    next => cases h
    next sizes hsizes =>
      obtain ⟨fields, hfields, hacceptable, hcount, -, hwritten, hrequired⟩ := encode_fields hsizes
      rw [hwritten] at h
      split at h
      next => cases h
      next =>
        split at h
        next => cases h
        next hbody =>
          split at h
          next => cases h
          next =>
            cases h
            exact ⟨fields, hfields, rfl, hacceptable, hcount, hrequired ▸ not_lt.mp hbody⟩

/-- **Main.** What a Session sends by BasicHTTP is posted to the Session that is bound to the
endpoint, wherever the limits are as wide. -/
theorem ingress_encode (hp : p.AcceptsPlain) (hlimits : sender.Within limits)
    (h : p.encode sender bodyCapacity request = (required, .ok encoded))
    (htext : encoded.body.length ≤ textCapacity)
    (hfind : findBinding endpoint rows = some binding) (hactive : binding.active = true) :
    ∃ name entries, p.received request = some (name, entries) ∧
      Delivers binding name ⟨encoded.body, entries⟩
        (p.ingressHandler limits textCapacity rows
          ⟨some endpoint, some (mediaTypeText encoded.mediaType), encoded.body⟩) := by
  by_cases hcontent : ∃ content, request.payload = .content content
  · obtain ⟨content, hcontent⟩ := hcontent
    obtain ⟨hmedia, hvalid⟩ := encode_content hp hcontent h
    refine ⟨defaultEventName, [], by rw [received, hcontent], ?_⟩
    rw [ingressHandler, Option.bind_some, hfind]
    dsimp only
    rw [hactive, if_neg Bool.true_eq_false_eq_False, receive, hmedia, if_neg Bool.false_ne_true]
    exact delivers_deliver hvalid binding defaultEventName
  · have hpayload := not_exists.mp hcontent
    obtain ⟨fields, hfields, rfl, hacceptable, hcount, hbody⟩ := encode_form hpayload h
    refine ⟨namedEvent request fields, applicationEntries fields, ?_, ?_⟩
    · rw [received.eq_def, hfields]
      split
      next content heq => exact absurd heq (hpayload content)
      next => rfl
    · have hform := isFormContentType_mediaType .form
      rw [← reservedValue_allFields, ← applicationEntries_allFields request,
        ingressHandler_form hfind hactive hform (hacceptable.mono hlimits)
          (hcount.trans hlimits.entryCount) (hbody.trans hlimits.body) htext]
      exact delivers_deliver (hp.valid (plain_writeFrom 0 _)) binding _

def sampleBinding : BindingImpl := ⟨true, none, fun _ => .ok⟩

def sampleRows : List EndpointRow := [⟨ascii ['s'], some sampleBinding⟩]

theorem asciiPlatform_accepts : asciiPlatform.AcceptsPlain := fun _ _ => rfl

theorem ingress_encode_sample :
    asciiPlatform.received sampleRequest = some (ascii ['g', 'o'],
      [(ascii ['t', 'a', 'g'], ascii ['a', '&', ' ', '=']), (ascii ['n'], ascii ['-', '5'])]) ∧
    asciiPlatform.ingressHandler sampleLimits 64 sampleRows
        ⟨some (ascii ['s']), some (mediaTypeText .form), sampleBody⟩ =
      ⟨204, some ⟨ascii ['g', 'o'], basicHttpProcessorUri, .textUtf8 sampleBody⟩⟩ := by
  obtain ⟨name, entries, hreceived, hdelivers⟩ :=
    ingress_encode asciiPlatform_accepts ⟨le_rfl, le_rfl, le_rfl, le_rfl, le_rfl⟩
      sampleRequest_encodes (show sampleBody.length ≤ 64 by decide)
      (show findBinding (ascii ['s']) sampleRows = some sampleBinding from rfl) rfl
  have hsame : asciiPlatform.received sampleRequest = some (ascii ['g', 'o'],
      [(ascii ['t', 'a', 'g'], ascii ['a', '&', ' ', '=']), (ascii ['n'], ascii ['-', '5'])]) := by
    rfl
  obtain ⟨rfl, rfl⟩ := Prod.mk.inj (Option.some.inj (hreceived.symm.trans hsame))
  exact ⟨hsame, hdelivers.posted (by decide) (.textUtf8 sampleBody) (by rfl)⟩

/-! ## From a dialog to a Session -/

open Voice.Submit (SubmitRequest Setting Wire prepareWire)

theorem formSafe_eq : Voice.Submit.formSafe = formUnreserved := by
  funext b
  rw [Voice.Submit.formSafe, formUnreserved]
  ac_rfl

theorem encodeFields_written (fields : List (Bytes × Bytes)) :
    Voice.Submit.encodeFields fields = writeFrom 0 fields := by
  have hfield (field : Bytes × Bytes) :
      FormEncoding.encodeField Voice.Submit.formSafe field = writeField field := by
    rw [formSafe_eq]
    rfl
  cases fields with
  | nil => rfl
  | cons field fields =>
    rw [Voice.Submit.encodeFields, Voice.Submit.encodeFrom, Voice.Submit.encodeFrom_eq,
      Voice.Submit.encodeComponent_eq, Voice.Submit.encodeComponent_eq]
    simp only [hfield, if_pos]
    rw [writeFrom, writeFields, writeField, formEncode, formEncode, ← formSafe_eq]
    simp [ampersand, equalsSign]

theorem acceptable_submit {previous : List (Bytes × Bytes)} {total size : ℕ}
    (h : Voice.Submit.validateFrom previous total fields = .ok size)
    (hfields : ∀ field ∈ fields, FieldAcceptable p limits false field) :
    Acceptable p limits (previous.any isReserved) fields := by
  induction fields generalizing previous total with
  | nil => trivial
  | cons field fields ih =>
    rw [Voice.Submit.validateFrom] at h
    split_ifs at h with hbytes hknown
    split at h
    next name value _ _ =>
      split at h
      next total' _ =>
        have hfield := hfields field List.mem_cons_self
        have hrest := ih h fun f hf => hfields f (List.mem_cons_of_mem _ hf)
        rw [List.any_append, List.any_cons, List.any_nil, Bool.or_false] at hrest
        refine ⟨{ hfield with reserved := fun hreserved => ?_ }, hrest⟩
        refine ⟨?_, (hfield.reserved hreserved).2⟩
        rw [← Bool.not_eq_true]
        intro hany
        obtain ⟨f, hf, hnamed⟩ := List.any_eq_true.mp hany
        refine hknown (List.any_eq_true.mpr ⟨f, hf, ?_⟩)
        rw [isReserved, beq_iff_eq] at hnamed hreserved
        rw [hnamed, hreserved, beq_self_eq_true]
      next => cases h
    next => cases h

variable {setting : Setting} {r : SubmitRequest} {wire : Wire}

theorem prepareWire_contentType (h : prepareWire setting r = .ok wire) :
    wire.contentType = if r.method = .post then some Voice.Submit.urlencodedType else none := by
  rw [prepareWire] at h
  split at h
  · cases h
  · split at h
    · cases h
    · split at h
      · cases h
      · split at h
        · cases h
        · split at h
          · cases h
          · split at h
            · cases h
            · cases h
            · split at h
              · cases h
              · split at h
                · cases h
                · cases h
                  rfl

/-- **Main.** What a dialog submits by a POST is posted too: a field with the reserved name names
the event. -/
theorem ingress_submit (hp : p.AcceptsPlain) (hwire : prepareWire setting r = .ok wire)
    (hpost : r.method = .post) (hfields : ∀ field ∈ r.fields, FieldAcceptable p limits false field)
    (hcount : r.fields.length ≤ limits.maxFormEntryCount)
    (hbody : wire.body.length ≤ limits.maxEncodedBodyBytes)
    (htext : wire.body.length ≤ textCapacity)
    (hfind : findBinding endpoint rows = some binding) (hactive : binding.active = true) :
    Delivers binding ((reservedValue r.fields).getD defaultEventName)
      ⟨wire.body, applicationEntries r.fields⟩
      (p.ingressHandler limits textCapacity rows
        ⟨some endpoint, wire.contentType.map Voice.Submit.bytesOf, wire.body⟩) := by
  obtain ⟨n, resolved, fragment, uri, -, hvalid, -, -, -, hwritten⟩ :=
    Voice.Submit.prepareWire_eq_ok hwire
  rw [Voice.Submit.validateFields] at hvalid
  split at hvalid
  next => cases hvalid
  next total htotal =>
    have hwrite : wire.body = writeFrom 0 r.fields := by
      rw [hwritten, if_pos hpost, encodeFields_written]
    rw [hwrite] at hbody htext ⊢
    have hform : isFormContentType (some formMediaType) = true := isFormContentType_mediaType .form
    rw [formMediaType] at hform
    rw [prepareWire_contentType hwire, if_pos hpost, Option.map_some,
      ingressHandler_form hfind hactive hform (acceptable_submit htotal hfields) hcount hbody htext]
    exact delivers_deliver (hp.valid (plain_writeFrom 0 _)) binding _

def sampleSubmit : SubmitRequest := { Voice.Submit.sampleRequest with method := .post }

def sampleWire : Wire :=
  ⟨['h', ':', '/', 'd', '?', 'q', '=', '1'], [], .post, some Voice.Submit.urlencodedType,
    ascii ['a', '=', '+', '%', '2', '6', '&', 'b', '='], none⟩

/-- A decoder that wants two entries, in front of a mailbox that is full. -/
def decodingBinding : BindingImpl :=
  ⟨true, some fun view =>
    if view.entries.length = 2 then .ok (.textUtf8 view.content) else .error .failed,
    fun _ => .full⟩

theorem ingress_submit_sample :
    asciiPlatform.ingressHandler sampleLimits 9 [⟨ascii ['s'], some decodingBinding⟩]
        ⟨some (ascii ['s']), sampleWire.contentType.map Voice.Submit.bytesOf, sampleWire.body⟩ =
      ⟨503, some ⟨defaultEventName, basicHttpProcessorUri, .textUtf8 sampleWire.body⟩⟩ :=
  have hwire : prepareWire Voice.Submit.sampleSetting sampleSubmit = .ok sampleWire := by
    decide +kernel
  (ingress_submit asciiPlatform_accepts hwire rfl
    (List.forall_mem_cons.mpr ⟨⟨by decide, by decide, by decide, by decide, by decide⟩,
      List.forall_mem_singleton.mpr ⟨by decide, by decide, by decide, by decide, by decide⟩⟩)
    (by decide) (by decide) (by decide)
    (show findBinding (ascii ['s']) [⟨ascii ['s'], some decodingBinding⟩] = some decodingBinding
      from rfl) rfl).posted (by decide) (.textUtf8 sampleWire.body) (by rfl)

end Platform

end TurboScxml.Chttp
