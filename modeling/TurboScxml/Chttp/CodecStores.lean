import TurboScxml.Chttp.CodecRoundTrip

/-!
# The stores of the form encoder

`scxml_chttp_codec_encode` measures the fields in a first pass, and stores them through a cursor in
a second one, in a body whose bytes the caller owns.

* `Cursor`: the body and where the next byte goes, with the second pass as it stores;
* `EncodeCall`, `encodeInto`: the whole call, with the pointers that it checks;
* **`encodeInto_stores`**: nothing is stored outside the body or behind the counted size, and a
  call that fails leaves the body and a zeroed output.
-/

namespace TurboScxml.Chttp

/-! ## The cursor -/

/-- `cursor`, and whether a byte was stored outside the body. -/
structure Cursor where
  body : Bytes
  position : ℕ
  outside : Bool

namespace Cursor

def put (cursor : Cursor) (value : UInt8) : Cursor :=
  ⟨cursor.body.set cursor.position value, cursor.position + 1,
    cursor.outside || decide (cursor.body.length ≤ cursor.position)⟩

/-- The bytes one by one, as `memcpy` stores them. -/
def putAll (cursor : Cursor) (values : Bytes) : Cursor := values.foldl put cursor

/-- `form_encode`. -/
def formEncode (cursor : Cursor) : Bytes → Cursor
  | [] => cursor
  | value :: data =>
    if formUnreserved value then (cursor.put value).formEncode data
    else if value = Percent.blank then (cursor.put Percent.plusSign).formEncode data
    else
      (((cursor.put Percent.percentSign).put (Percent.hexDigit (value.toNat / 16))).put
        (Percent.hexDigit (value.toNat % 16))).formEncode data

def writeFormField (cursor : Cursor) (hasPrior : Bool) (name value : Bytes) : Cursor :=
  (((if hasPrior then cursor.put ampersand else cursor).formEncode name).put
    equalsSign).formEncode value

def writeEntries (p : Platform) (fieldCount : ℕ) (cursor : Cursor) :
    List PayloadEntry → Cursor × Bool
  | [] => (cursor, true)
  | entry :: rest =>
    match entry.value with
    | .scalar scalar =>
      match p.scalarText scalar with
      | some value =>
        writeEntries p (fieldCount + 1)
          (cursor.writeFormField (fieldCount != 0) entry.name value) rest
      | none => (cursor, false)
    | _ => (cursor, false)

/-- The second pass of `scxml_chttp_codec_encode`. -/
def writeForm (p : Platform) (request : SendRequest) (cursor : Cursor) : Cursor × Bool :=
  if request.eventName ≠ [] then
    writeEntries p 1 (cursor.writeFormField false reservedEventName request.eventName)
      request.entries
  else writeEntries p 0 cursor request.entries

end Cursor

/-! ## The call -/

/-- `*out`; it has no media type while it is zeroed. -/
structure EncodedOutput where
  mediaType : Option MediaType
  bodySize : ℕ

/-- The arguments of `scxml_chttp_codec_encode`. -/
structure EncodeCall where
  request : Option SendRequest
  limits : Option CodecLimits
  body : Option Bytes
  bodyCapacity : ℕ
  requiredBodySize : Option ℕ
  out : Option EncodedOutput
  owned : ∀ bytes, body = some bytes → bodyCapacity ≤ bytes.length

structure EncodeResult where
  status : Session.AdapterStatus
  requiredBodySize : Option ℕ
  out : Option EncodedOutput
  cursor : Cursor

namespace EncodeCall

variable (call : EncodeCall)

def bytes : Bytes := call.body.getD []

def fail (status : Session.AdapterStatus) (required : ℕ) (cursor : Cursor) : EncodeResult :=
  ⟨status, call.requiredBodySize.map fun _ => required, call.out.map fun _ => ⟨none, 0⟩, cursor⟩

def accept (mediaType : MediaType) (required : ℕ) (cursor : Cursor) : EncodeResult :=
  ⟨.accepted, some required, some ⟨some mediaType, required⟩, cursor⟩

/-- The body cannot take so many bytes. -/
def isFull (required : ℕ) : Bool :=
  decide (call.bodyCapacity < required) || (required != 0 && call.body.isNone)

end EncodeCall

/-- `scxml_chttp_codec_encode`. -/
def Platform.encodeInto (p : Platform) (call : EncodeCall) : EncodeResult :=
  let cursor : Cursor := ⟨call.bytes, 0, false⟩
  match call.request, call.limits, call.requiredBodySize, call.out with
  | some request, some limits, some _, some _ =>
    if call.bodyCapacity ≠ 0 ∧ call.body = none then call.fail .invalidContract 0 cursor
    else
      match request.payload with
      | .content content =>
        match p.contentBody content with
        | none => call.fail .errorExecution 0 cursor
        | some (mediaType, data) =>
          if data.length > limits.maxEncodedBodyBytes then
            call.fail .errorExecution data.length cursor
          else if call.isFull data.length then call.fail .full data.length cursor
          else EncodeCall.accept mediaType data.length (cursor.putAll data)
      | _ =>
        match p.measure limits request with
        | none => call.fail .errorExecution 0 cursor
        | some sizes =>
          if sizes.fieldCount = 0 then call.fail .errorExecution 0 cursor
          else if sizes.required > limits.maxEncodedBodyBytes then
            call.fail .errorExecution sizes.required cursor
          else if call.isFull sizes.required then call.fail .full sizes.required cursor
          else
            match cursor.writeForm p request with
            | (cursor, true) => EncodeCall.accept .form sizes.required cursor
            | (cursor, false) => call.fail .invalidContract sizes.required cursor
  | _, _, _, _ => call.fail .invalidContract 0 cursor

/-! ## What the second pass stores -/

variable {limits : CodecLimits} {request : SendRequest}

theorem Platform.write_of_measure {p : Platform} {sizes : Sizes}
    (h : p.measure limits request = some sizes) :
    ∃ written, p.write request = some written ∧ sizes.required = written.length := by
  obtain ⟨fields, -, -, -, -, hwritten, hrequired⟩ := encode_fields h
  exact ⟨_, hwritten, hrequired⟩

namespace Cursor

variable {p : Platform} (cursor : Cursor)

theorem putAll_append (front rest : Bytes) :
    cursor.putAll (front ++ rest) = (cursor.putAll front).putAll rest :=
  List.foldl_append ..

theorem putAll_position (values : Bytes) :
    (cursor.putAll values).position = cursor.position + values.length := by
  induction values generalizing cursor with
  | nil => rfl
  | cons value values ih =>
    refine (ih (cursor.put value)).trans ?_
    show cursor.position + 1 + values.length = _
    rw [List.length_cons, Nat.add_assoc, Nat.add_comm 1]

theorem putAll_inside (done rest values : Bytes) (h : values.length ≤ rest.length) :
    putAll ⟨done ++ rest, done.length, false⟩ values =
      ⟨done ++ values ++ rest.drop values.length, (done ++ values).length, false⟩ := by
  induction values generalizing done rest with
  | nil => simp [putAll]
  | cons value values ih =>
    cases rest with
    | nil => cases h
    | cons old rest =>
      have hput : put ⟨done ++ old :: rest, done.length, false⟩ value =
          ⟨(done ++ [value]) ++ rest, (done ++ [value]).length, false⟩ := by
        simp [put]
      have hstep := ih (done ++ [value]) rest (Nat.le_of_succ_le_succ h)
      rw [putAll, List.foldl_cons, hput]
      refine hstep.trans ?_
      simp

theorem formEncode_eq (data : Bytes) :
    cursor.formEncode data = cursor.putAll (Chttp.formEncode data) := by
  induction data generalizing cursor with
  | nil => rfl
  | cons value data ih =>
    have hcons : Chttp.formEncode (value :: data) =
        Percent.encodeByte formUnreserved value ++ Chttp.formEncode data := rfl
    rw [formEncode, hcons, putAll_append, Percent.encodeByte]
    split_ifs
    · exact ih _
    · exact ih _
    · exact ih _

theorem writeFormField_eq (hasPrior : Bool) (name value : Bytes) :
    cursor.writeFormField hasPrior name value =
      cursor.putAll (Platform.writeFormField hasPrior name value) := by
  rw [writeFormField, Platform.writeFormField, putAll_append, putAll_append, formEncode_eq,
    formEncode_eq]
  cases hasPrior with
  | true => rfl
  | false => rfl

variable {written : Bytes}

theorem writeEntries_eq {fieldCount : ℕ} {entries : List PayloadEntry}
    (h : p.writeEntries fieldCount entries = some written) (cursor : Cursor) :
    cursor.writeEntries p fieldCount entries = (cursor.putAll written, true) := by
  induction entries generalizing fieldCount written cursor with
  | nil =>
    obtain rfl := Option.some.inj h
    rfl
  | cons entry entries ih =>
    unfold Platform.writeEntries at h
    split at h
    · rename_i scalar hscalar
      obtain ⟨value, hvalue, h⟩ := Option.bind_eq_some_iff.mp h
      obtain ⟨rest, hrest, h⟩ := Option.bind_eq_some_iff.mp h
      obtain rfl := Option.some.inj h
      rw [writeEntries, hscalar]
      simp only [hvalue]
      rw [ih hrest, putAll_append, writeFormField_eq]
    · cases h

theorem writeForm_eq (h : p.write request = some written) (cursor : Cursor) :
    cursor.writeForm p request = (cursor.putAll written, true) := by
  unfold Platform.write at h
  unfold writeForm
  split_ifs at h ⊢ with hevent
  · obtain ⟨rest, hrest, rfl⟩ := Option.map_eq_some_iff.mp h
    rw [writeEntries_eq hrest, putAll_append, writeFormField_eq]
  · exact writeEntries_eq h cursor

/-- **The two passes agree** wherever the cursor stands. -/
theorem writeForm_measured {sizes : Platform.Sizes} (h : p.measure limits request = some sizes)
    (cursor : Cursor) :
    (cursor.writeForm p request).2 = true ∧
      (cursor.writeForm p request).1.position = cursor.position + sizes.required := by
  obtain ⟨written, hwritten, hrequired⟩ := Platform.write_of_measure h
  rw [writeForm_eq hwritten, hrequired]
  exact ⟨rfl, putAll_position ..⟩

end Cursor

/-! ## What the call stores -/

namespace EncodeCall

inductive Ends (p : Platform) (call : EncodeCall) : EncodeResult → Prop
  | fails (status : Session.AdapterStatus) (required : ℕ) (h : status ≠ .accepted) :
    Ends p call (call.fail status required ⟨call.bytes, 0, false⟩)
  | accepts {limits : CodecLimits} {request : SendRequest} {encoded : EncodedBody}
    (hlimits : call.limits = some limits) (hrequest : call.request = some request)
    (hencode : p.encode limits call.bodyCapacity request = (encoded.bodySize, .ok encoded))
    (hsize : encoded.body.length = encoded.bodySize) (hroom : encoded.bodySize ≤ call.bodyCapacity)
    (howned : call.bodyCapacity ≤ call.bytes.length) :
    Ends p call (accept encoded.mediaType encoded.bodySize
      (Cursor.putAll ⟨call.bytes, 0, false⟩ encoded.body))

theorem isFull_eq_false {call : EncodeCall} {required : ℕ} (h : ¬ call.isFull required = true) :
    required ≤ call.bodyCapacity := by
  simp only [isFull, Bool.or_eq_true, decide_eq_true_eq, not_or, not_lt] at h
  exact h.1

theorem capacity_le_bytes {call : EncodeCall}
    (h : ¬ (call.bodyCapacity ≠ 0 ∧ call.body = none)) :
    call.bodyCapacity ≤ call.bytes.length := by
  cases hbody : call.body with
  | none =>
    have hzero : call.bodyCapacity = 0 := by
      by_contra hne
      exact h ⟨hne, hbody⟩
    rw [hzero]
    exact Nat.zero_le _
  | some bytes =>
    rw [EncodeCall.bytes, hbody]
    exact call.owned bytes hbody

theorem encodeInto_ends (p : Platform) (call : EncodeCall) : Ends p call (p.encodeInto call) := by
  unfold Platform.encodeInto
  dsimp only
  split
  · rename_i request limits _ _ hrequest hlimits _ _
    split
    · exact .fails _ _ (by decide)
    rename_i hcapacity
    have howned := capacity_le_bytes hcapacity
    split
    · rename_i content hcontent
      split
      · exact .fails _ _ (by decide)
      · rename_i mediaType data hdata
        split
        · exact .fails _ _ (by decide)
        split
        · exact .fails _ _ (by decide)
        · rename_i hlimit hfull
          have hroom := isFull_eq_false hfull
          have hencode : p.encode limits call.bodyCapacity request =
              (data.length, .ok ⟨mediaType, data.length, data⟩) := by
            rw [Platform.encode.eq_def, hcontent]
            simp only [hdata]
            rw [if_neg hlimit, if_neg (Nat.not_lt.mpr hroom)]
          exact @Ends.accepts p call limits request ⟨mediaType, data.length, data⟩ hlimits hrequest
            hencode rfl hroom howned
    · rename_i hcontent
      split
      · exact .fails _ _ (by decide)
      · rename_i sizes hsizes
        obtain ⟨written, hwritten, hrequired⟩ := Platform.write_of_measure hsizes
        split
        · exact .fails _ _ (by decide)
        split
        · exact .fails _ _ (by decide)
        split
        · exact .fails _ _ (by decide)
        · rename_i hsome hlimit hfull
          have hroom := isFull_eq_false hfull
          have hencode : p.encode limits call.bodyCapacity request =
              (sizes.required, .ok ⟨.form, sizes.required, written⟩) := by
            rw [Platform.encode.eq_def]
            split
            · rename_i content hpayload
              exact absurd hpayload (hcontent content)
            · simp only [hsizes, hwritten]
              rw [if_neg hsome, if_neg hlimit, if_neg (Nat.not_lt.mpr hroom)]
          rw [Cursor.writeForm_eq hwritten]
          exact @Ends.accepts p call limits request ⟨.form, sizes.required, written⟩ hlimits
            hrequest hencode hrequired.symm hroom howned
  · exact .fails _ _ (by decide)

end EncodeCall

/-- **Main.** Nothing is stored outside the body. A call that is accepted replaces the counted
bytes; one that is not leaves the body and a zeroed output. -/
theorem encodeInto_stores (p : Platform) :
    (∀ limits request sizes, p.measure limits request = some sizes → ∀ cursor : Cursor,
      (cursor.writeForm p request).2 = true ∧
        (cursor.writeForm p request).1.position = cursor.position + sizes.required) ∧
    ∀ call : EncodeCall,
      (p.encodeInto call).cursor.outside = false ∧
      ((p.encodeInto call).status = .accepted →
        ∃ limits request encoded, call.limits = some limits ∧ call.request = some request ∧
          p.encode limits call.bodyCapacity request = (encoded.bodySize, .ok encoded) ∧
          encoded.body.length = encoded.bodySize ∧ encoded.bodySize ≤ call.bodyCapacity ∧
          (p.encodeInto call).requiredBodySize = some encoded.bodySize ∧
          (p.encodeInto call).out = some ⟨some encoded.mediaType, encoded.bodySize⟩ ∧
          (p.encodeInto call).cursor.body =
            encoded.body ++ call.bytes.drop encoded.bodySize) ∧
      ((p.encodeInto call).status ≠ .accepted →
        (p.encodeInto call).out = call.out.map (fun _ => ⟨none, 0⟩) ∧
        (p.encodeInto call).cursor.body = call.bytes) := by
  refine ⟨fun limits request sizes h cursor => Cursor.writeForm_measured h cursor, fun call => ?_⟩
  have hend := EncodeCall.encodeInto_ends p call
  generalize p.encodeInto call = result at hend
  cases hend with
  | fails status required h => exact ⟨rfl, fun haccepted => absurd haccepted h, fun _ => ⟨rfl, rfl⟩⟩
  | @accepts limits request encoded hlimits hrequest hencode hsize hroom howned =>
    have hstored := Cursor.putAll_inside [] call.bytes encoded.body
      ((hsize.trans_le hroom).trans howned)
    refine ⟨congrArg Cursor.outside hstored, fun _ => ?_, fun hstatus => absurd rfl hstatus⟩
    refine ⟨limits, request, encoded, hlimits, hrequest, hencode, hsize, hroom, rfl, rfl, ?_⟩
    rw [← hsize]
    exact congrArg Cursor.body hstored

open Platform (asciiPlatform sampleBody sampleLimits sampleRequest sampleRequest_encodes)

def sampleCall : EncodeCall where
  request := some sampleRequest
  limits := some sampleLimits
  body := some (List.replicate 40 0xFF)
  bodyCapacity := 38
  requiredBodySize := some 7
  out := some ⟨none, 0⟩
  owned := fun bytes hbytes => by
    rw [← Option.some.inj hbytes, List.length_replicate]
    decide

/-- A call that is measured and accepted. -/
theorem encodeInto_stores_sample :
    (∃ sizes, asciiPlatform.measure sampleLimits sampleRequest = some sizes ∧
      ((⟨List.replicate 40 0xFF, 0, false⟩ : Cursor).writeForm asciiPlatform
        sampleRequest).1.position = sizes.required) ∧
    (asciiPlatform.encodeInto sampleCall).status = .accepted ∧
    (asciiPlatform.encodeInto sampleCall).cursor.outside = false ∧
    (asciiPlatform.encodeInto sampleCall).requiredBodySize = some 36 ∧
    (asciiPlatform.encodeInto sampleCall).cursor.body = sampleBody ++ List.replicate 4 0xFF := by
  obtain ⟨hmeasured, hcalls⟩ := encodeInto_stores asciiPlatform
  obtain ⟨hinside, haccepts, -⟩ := hcalls sampleCall
  have haccepted : (asciiPlatform.encodeInto sampleCall).status = .accepted := by rfl
  obtain ⟨limits, request, encoded, hlimits, hrequest, hencode, -, -, hrequired, -, hbody⟩ :=
    haccepts haccepted
  obtain rfl := Option.some.inj hlimits
  obtain rfl := Option.some.inj hrequest
  obtain rfl := Except.ok.inj (Prod.mk.inj (hencode.symm.trans sampleRequest_encodes)).2
  refine ⟨?_, haccepted, hinside, hrequired, hbody⟩
  have hsome : (asciiPlatform.measure sampleLimits sampleRequest).isSome = true := by rfl
  obtain ⟨sizes, hsizes⟩ := Option.isSome_iff_exists.mp hsome
  exact ⟨sizes, hsizes, (hmeasured _ _ sizes hsizes _).2.trans (Nat.zero_add _)⟩

end TurboScxml.Chttp
