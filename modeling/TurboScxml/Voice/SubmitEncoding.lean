import TurboScxml.Lib.FormEncoding
import TurboScxml.Voice.Uri

/-!
# Submit requests

`voicexml_submit_resource.c`: the fields of a submit are measured, written, and put into the body or
behind the resolved target.

* `validateFields`, `encodeFields`: the pass that measures and the one that writes;
* `SubmitRequest`, `Wire`, `prepareWire`: the request that the provider gets;
* **`prepareWire_roundTrip`**: a form that is read back as the fields.
-/

namespace TurboScxml.Voice.Submit

open FormEncoding (Field)

abbrev Bytes := List UInt8

def sizeMax : ℕ := uint64Max

/-- `vxml_submit_resource_status` without `VXML_SUBMIT_RESOURCE_OK`. -/
inductive Status
  | invalidArgument | allocationFailed | invalidUri | limitExceeded | unsupportedEncoding
  | providerError | possiblyProcessed | invalidResponse | unsupportedPolicy
  deriving DecidableEq

/-! ## Fields -/

def formSafe (byte : UInt8) : Bool :=
  (0x61 ≤ byte && byte ≤ 0x7A) || (0x41 ≤ byte && byte ≤ 0x5A) || (0x30 ≤ byte && byte ≤ 0x39) ||
    byte == 0x2D || byte == 0x5F || byte == 0x2E || byte == 0x7E

def encodedWidth (byte : UInt8) : ℕ := if byte = 0x20 ∨ formSafe byte then 1 else 3

def encodedSizeFrom (total : ℕ) : Bytes → Option ℕ
  | [] => some total
  | byte :: rest =>
    if sizeMax - total < encodedWidth byte then none
    else encodedSizeFrom (total + encodedWidth byte) rest

def encodedComponentSize (data : Bytes) : Option ℕ := encodedSizeFrom 0 data

def hexDigit (value : UInt8) : UInt8 :=
  if value &&& 0x0F < 10 then 0x30 + (value &&& 0x0F) else 0x41 + ((value &&& 0x0F) - 10)

def encodeComponent : Bytes → Bytes
  | [] => []
  | byte :: rest =>
    if byte = 0x20 then 0x2B :: encodeComponent rest
    else if formSafe byte then byte :: encodeComponent rest
    else 0x25 :: hexDigit (byte >>> 4) :: hexDigit byte :: encodeComponent rest

def bytesValid (data : Bytes) (allowEmpty : Bool) : Bool :=
  (allowEmpty || !data.isEmpty) && !data.contains 0

def separatorSize (first : Bool) : ℕ := if first then 0 else 1

/-- The sum of one round of `validate_fields`. -/
def addField (first : Bool) (total name value : ℕ) : Option ℕ :=
  if first = false ∧ total = sizeMax then none
  else if sizeMax - (total + separatorSize first) < name then none
  else if total + separatorSize first + name = sizeMax then none
  else if sizeMax - (total + separatorSize first + name + 1) < value then none
  else some (total + separatorSize first + name + 1 + value)

/-- The loop of `validate_fields`, behind some fields. -/
def validateFrom (previous : List Field) (total : ℕ) : List Field → Except Status ℕ
  | [] => .ok total
  | field :: rest =>
    if bytesValid field.1 false = false ∨ bytesValid field.2 true = false then
      .error .invalidArgument
    else if previous.any fun p => p.1 == field.1 then .error .invalidArgument
    else
      match encodedComponentSize field.1, encodedComponentSize field.2 with
      | some name, some value =>
        match addField previous.isEmpty total name value with
        | some total' => validateFrom (previous ++ [field]) total' rest
        | none => .error .limitExceeded
      | _, _ => .error .limitExceeded

def validateFields (fields : List Field) (maxBodyBytes : ℕ) : Except Status ℕ :=
  match validateFrom [] 0 fields with
  | .error e => .error e
  | .ok total => if maxBodyBytes < total then .error .limitExceeded else .ok total

def encodeFrom (first : Bool) : List Field → Bytes
  | [] => []
  | field :: rest =>
    (if first then [] else [0x26]) ++ encodeComponent field.1 ++
      0x3D :: (encodeComponent field.2 ++ encodeFrom false rest)

def encodeFields (fields : List Field) : Bytes := encodeFrom true fields

/-! ## Requests -/

/-- `vxml_submit_method`. -/
inductive Method
  | get | post
  deriving DecidableEq

/-- `vxml_submit_request_v1`; a URI has one `Char` a byte. -/
structure SubmitRequest where
  baseDocumentUri : Text
  target : Text
  method : Method
  enctype : Text
  fields : List Field
  maxUriBytes : ℕ
  maxBodyBytes : ℕ
  maxResponseBytes : ℕ
  timeout : Option ℕ
  deriving DecidableEq

/-- `vxml_submit_wire_request_v1`. -/
structure Wire where
  uri : Text
  fragment : Text
  method : Method
  contentType : Option Text
  body : Bytes
  timeout : Option ℕ
  deriving DecidableEq

def urlencodedType : Text := "application/x-www-form-urlencoded".toList

def textValid (data : Text) (allowEmpty : Bool) : Bool :=
  (allowEmpty || !data.isEmpty) && !data.contains (Char.ofNat 0)

/-- The tests of `vxml_submit_resource_execute`. -/
def SubmitRequest.valid (r : SubmitRequest) : Bool :=
  textValid r.target false && (r.baseDocumentUri.isEmpty || textValid r.baseDocumentUri false) &&
    textValid r.enctype true &&
    decide (r.maxUriBytes ≠ 0 ∧ r.maxUriBytes ≠ sizeMax ∧ r.maxBodyBytes ≠ 0 ∧
      r.maxBodyBytes ≠ sizeMax ∧ r.maxResponseBytes ≠ 0)

/-- What the call reads of the store and the provider. -/
structure Setting where
  applicationUri : Text
  maxStoreUriBytes : ℕ
  timeoutCapable : Bool
  allocates : Bool
  deriving DecidableEq

variable (setting : Setting) (r : SubmitRequest)

def Setting.resolver : ResolveConfig where
  applicationUri := setting.applicationUri
  maxUriBytes := setting.maxStoreUriBytes
  documentCapacity := r.maxUriBytes + 1
  fragmentCapacity := r.maxUriBytes + 1

def Setting.target : Except ResolveStatus (Text × Text) :=
  resolve (setting.resolver r) r.baseDocumentUri r.target

def textOf (bytes : Bytes) : Text := bytes.map fun b => Char.ofNat b.toNat

def bytesOf (text : Text) : Bytes := text.map fun c => UInt8.ofNat c.toNat

def wireUri (encodedSize : ℕ) (resolved : Text) : Except Status Text :=
  if r.method = .get ∧ encodedSize ≠ 0 then
    if r.maxUriBytes - 1 < resolved.length ∨
        r.maxUriBytes - resolved.length - 1 < encodedSize then .error .limitExceeded
    else
      .ok (resolved ++ (if '?' ∈ resolved then '&' else '?') :: textOf (encodeFields r.fields))
  else .ok resolved

/-- `vxml_submit_resource_execute`, up to the provider. -/
def prepareWire : Except Status Wire :=
  if r.valid = false then .error .invalidArgument
  else if r.method = .post ∧ r.enctype ≠ [] ∧ r.enctype ≠ urlencodedType then
    .error .unsupportedEncoding
  else if r.timeout.isSome ∧ setting.timeoutCapable = false then .error .unsupportedPolicy
  else
    match validateFields r.fields r.maxBodyBytes with
    | .error e => .error e
    | .ok encodedSize =>
      if setting.allocates = false then .error .allocationFailed
      else
        match setting.target r with
        | .error .limitExceeded => .error .limitExceeded
        | .error .invalidUri => .error .invalidUri
        | .ok (resolved, fragment) =>
          if resolved = [] then .error .invalidUri
          else
            match wireUri r encodedSize resolved with
            | .error e => .error e
            | .ok uri =>
              .ok
                { uri := uri
                  fragment := fragment
                  method := r.method
                  contentType := if r.method = .post then some urlencodedType else none
                  body := if r.method = .post then encodeFields r.fields else []
                  timeout := r.timeout }

/-! ## What is written is what was measured -/

variable {total size : ℕ}

theorem encodedSizeFrom_eq {data : Bytes} (h : encodedSizeFrom total data = some size) :
    size = total + (encodeComponent data).length := by
  induction data generalizing total with
  | nil =>
    cases h
    rfl
  | cons byte rest ih =>
    rw [encodedSizeFrom] at h
    split at h
    · cases h
    · rw [ih h, encodeComponent, encodedWidth]
      by_cases hblank : byte = 0x20
      · rw [if_pos hblank, if_pos (.inl hblank), List.length_cons]
        omega
      · by_cases hsafe : formSafe byte = true
        · rw [if_neg hblank, if_pos hsafe, if_pos (.inr hsafe), List.length_cons]
          omega
        · rw [if_neg hblank, if_neg hsafe, if_neg (not_or.mpr ⟨hblank, hsafe⟩), List.length_cons,
            List.length_cons, List.length_cons]
          omega

theorem encodedComponentSize_eq {data : Bytes} (h : encodedComponentSize data = some size) :
    size = (encodeComponent data).length := by
  rw [encodedSizeFrom_eq h, Nat.zero_add]

theorem addField_eq {first : Bool} {name value total' : ℕ}
    (h : addField first total name value = some total') :
    total' = total + separatorSize first + name + 1 + value := by
  rw [addField] at h
  split_ifs at h
  cases h
  rfl

variable {fields : List Field}

/-- **The sizes of the fields add up.** -/
theorem validateFrom_eq {previous : List Field}
    (h : validateFrom previous total fields = .ok size) :
    size = total + (encodeFrom previous.isEmpty fields).length := by
  induction fields generalizing previous total with
  | nil =>
    cases h
    rfl
  | cons field rest ih =>
    rw [validateFrom] at h
    split at h
    · cases h
    · split at h
      · cases h
      · split at h
        next name value hname hvalue =>
          split at h
          next total' htotal =>
            have hrest := ih h
            have hsome : (previous ++ [field]).isEmpty = false := by
              cases previous <;> rfl
            rw [hsome] at hrest
            rw [hrest, addField_eq htotal, encodeFrom, encodedComponentSize_eq hname,
              encodedComponentSize_eq hvalue]
            simp only [List.length_append, List.length_cons, separatorSize]
            cases previous.isEmpty
            · simp
              omega
            · simp
              omega
          next => cases h
        next => cases h

/-- **What is written is what was measured.** -/
theorem length_encodeFields {maxBodyBytes : ℕ} (h : validateFields fields maxBodyBytes = .ok size) :
    (encodeFields fields).length = size ∧ size ≤ maxBodyBytes := by
  rw [validateFields] at h
  split at h
  next => cases h
  next total htotal =>
    split at h
    next => cases h
    next hle =>
      cases h
      refine ⟨?_, Nat.le_of_not_lt hle⟩
      rw [validateFrom_eq htotal, Nat.zero_add]
      rfl

/-! ## What is written stands for the fields -/

theorem hexDigits_eq : ∀ byte : UInt8,
    hexDigit (byte >>> 4) = Percent.hexDigit (byte.toNat / 16) ∧
      hexDigit byte = Percent.hexDigit (byte.toNat % 16) := by
  have hall : ∀ n < 256, hexDigit (UInt8.ofNat n >>> 4) = Percent.hexDigit (n / 16) ∧
      hexDigit (UInt8.ofNat n) = Percent.hexDigit (n % 16) := by decide +kernel
  intro byte
  have hbyte := hall byte.toNat byte.toNat_lt
  rw [UInt8.ofNat_toNat] at hbyte
  exact hbyte

theorem encodeComponent_eq (data : Bytes) :
    encodeComponent data = Percent.encode formSafe data := by
  induction data with
  | nil => rfl
  | cons byte rest ih =>
    rw [encodeComponent, Percent.encode_cons, ← ih, Percent.encodeByte]
    by_cases hblank : byte = 0x20
    · subst hblank
      rfl
    · rw [if_neg hblank, if_neg (show ¬byte = Percent.blank from hblank), (hexDigits_eq byte).1,
        (hexDigits_eq byte).2]
      split <;> rfl

variable (fields)

theorem encodeFrom_eq : encodeFrom false fields =
      fields.flatMap fun field => 0x26 :: FormEncoding.encodeField formSafe field := by
  induction fields with
  | nil => rfl
  | cons field rest ih =>
    rw [encodeFrom, ih, List.flatMap_cons, FormEncoding.encodeField, encodeComponent_eq,
      encodeComponent_eq]
    simp [FormEncoding.equalsSign]

theorem encodeFields_eq : encodeFields fields = FormEncoding.encodeFields formSafe fields := by
  cases fields with
  | nil => rfl
  | cons field rest =>
    rw [encodeFields, encodeFrom, encodeFrom_eq, encodeComponent_eq, encodeComponent_eq,
      FormEncoding.encodeFields, List.map_cons]
    have hrest : ∀ (first : Bytes) (fields : List Field),
        [FormEncoding.ampersand].intercalate
            (first :: fields.map (FormEncoding.encodeField formSafe)) =
          first ++ fields.flatMap fun f => 0x26 :: FormEncoding.encodeField formSafe f := by
      intro first fields
      induction fields generalizing first with
      | nil => simp [List.intercalate]
      | cons f fields ih =>
        rw [List.map_cons, List.intercalate_cons_cons, ih, List.flatMap_cons]
        simp [FormEncoding.ampersand]
    rw [hrest, FormEncoding.encodeField]
    simp [FormEncoding.equalsSign]

theorem separable_formSafe : FormEncoding.Separable formSafe where
  admissible := ⟨by decide, by decide⟩
  ampersand := by decide
  equalsSign := by decide

theorem decode_encodeFields : FormEncoding.decode (encodeFields fields) = fields := by
  rw [encodeFields_eq, FormEncoding.decode_encodeFields separable_formSafe]

/-! ## The request that the provider gets -/

def queryOf (uri : Text) : Bytes := bytesOf (uri.dropWhile fun c => c ≠ '?').tail

def getSuffix (resolved : Text) : Text :=
  if fields = [] then []
  else (if '?' ∈ resolved then '&' else '?') :: textOf (encodeFields fields)

variable {fields}

def SubmitRequest.admissible (r : SubmitRequest) : Bool :=
  r.valid && !decide (r.method = .post ∧ r.enctype ≠ [] ∧ r.enctype ≠ urlencodedType) &&
    (r.timeout.isNone || setting.timeoutCapable) && setting.allocates

theorem bytesOf_textOf (bytes : Bytes) : bytesOf (textOf bytes) = bytes := by
  have hbyte : ∀ b : UInt8, UInt8.ofNat (Char.ofNat b.toNat).toNat = b := by
    have hall : ∀ n < 256, UInt8.ofNat (Char.ofNat n).toNat = UInt8.ofNat n := by decide +kernel
    intro b
    exact (hall b.toNat b.toNat_lt).trans UInt8.ofNat_toNat
  rw [bytesOf, textOf, List.map_map]
  refine (List.map_congr_left fun b _ => hbyte b).trans ?_
  exact List.map_id _

theorem encodeFields_eq_nil : (encodeFields fields).length = 0 ↔ fields = [] := by
  cases fields with
  | nil => exact iff_of_true rfl rfl
  | cons field rest =>
    refine iff_of_false ?_ (List.cons_ne_nil _ _)
    rw [encodeFields, encodeFrom, List.length_append, List.length_cons]
    omega

/-- **The query of a target with its suffix.** -/
theorem decode_queryOf (fields : List Field) (resolved : Text) :
    FormEncoding.decode (queryOf (resolved ++ getSuffix fields resolved)) =
      FormEncoding.decode (queryOf resolved) ++ fields := by
  rw [getSuffix]
  split
  next hnone => rw [hnone, List.append_nil, List.append_nil]
  next =>
    split
    next hquery =>
      have hne : resolved.dropWhile (fun c => c ≠ '?') ≠ [] := by
        intro hnil
        have hall := List.dropWhile_eq_nil_iff.mp hnil '?' hquery
        simp at hall
      rw [queryOf, List.dropWhile_append, if_neg (by simpa using hne),
        List.tail_append_of_ne_nil hne, bytesOf, List.map_append, List.map_cons]
      change FormEncoding.decode (bytesOf (resolved.dropWhile fun c => c ≠ '?').tail ++
        FormEncoding.ampersand :: bytesOf (textOf (encodeFields fields))) = _
      rw [FormEncoding.decode_append, bytesOf_textOf, decode_encodeFields]
      rfl
    next hquery =>
      have hnil : resolved.dropWhile (fun c => c ≠ '?') = [] := by
        refine List.dropWhile_eq_nil_iff.mpr fun c hc => ?_
        exact decide_eq_true fun heq => hquery (heq ▸ hc)
      rw [queryOf, queryOf, List.dropWhile_append, hnil]
      change FormEncoding.decode (bytesOf (textOf (encodeFields fields))) = _
      rw [bytesOf_textOf, decode_encodeFields]
      rfl

variable {setting : Setting} {r : SubmitRequest} {resolved : Text}

theorem Setting.target_length {fragment : Text} (h : setting.target r = .ok (resolved, fragment)) :
    resolved.length ≤ r.maxUriBytes := by
  rw [Setting.target, resolve] at h
  dsimp only at h
  split at h
  · cases h
  · split at h
    · cases h
    · rw [ResolveConfig.deliver.eq_def] at h
      split at h
      next => cases h
      next =>
        split at h
        next => cases h
        next hlt =>
          cases h
          exact Nat.le_of_lt_succ (Nat.lt_of_not_le hlt)

theorem wireUri_eq (hmax : r.maxUriBytes ≠ 0) (hresolved : resolved.length ≤ r.maxUriBytes) :
    wireUri r (encodeFields r.fields).length resolved =
      if r.method = .get ∧ r.fields ≠ [] ∧
          r.maxUriBytes < resolved.length + 1 + (encodeFields r.fields).length then
        .error .limitExceeded
      else .ok (if r.method = .get then resolved ++ getSuffix r.fields resolved else resolved) := by
  rw [wireUri]
  by_cases hget : r.method = .get
  · by_cases hnone : r.fields = []
    · rw [if_neg fun h => h.2 (encodeFields_eq_nil.mpr hnone), if_neg fun h => h.2.1 hnone,
        if_pos hget, getSuffix, if_pos hnone, List.append_nil]
    · rw [if_pos ⟨hget, fun h => hnone (encodeFields_eq_nil.mp h)⟩]
      by_cases hroom : r.maxUriBytes < resolved.length + 1 + (encodeFields r.fields).length
      · rw [if_pos (by omega), if_pos ⟨hget, hnone, hroom⟩]
      · have hall : ¬(r.method = .get ∧ r.fields ≠ [] ∧
            r.maxUriBytes < resolved.length + 1 + (encodeFields r.fields).length) :=
          fun h => hroom h.2.2
        rw [if_neg hall, if_neg (by omega), if_pos hget, getSuffix, if_neg hnone]
  · rw [if_neg fun h => hget h.1, if_neg fun h => hget h.1, if_neg hget]

theorem length_textOf (bytes : Bytes) : (textOf bytes).length = bytes.length := List.length_map _

theorem length_getSuffix (fields : List Field) (resolved : Text) :
    (getSuffix fields resolved).length =
      if fields = [] then 0 else 1 + (encodeFields fields).length := by
  rw [getSuffix]
  split
  · rfl
  · rw [List.length_cons, length_textOf, Nat.add_comm]

theorem prepareWire_eq_ok {wire : Wire} (h : prepareWire setting r = .ok wire) :
    ∃ (n : ℕ) (resolved fragment uri : Text), r.maxUriBytes ≠ 0 ∧
      validateFields r.fields r.maxBodyBytes = .ok n ∧
      setting.target r = .ok (resolved, fragment) ∧ wireUri r n resolved = .ok uri ∧
      wire.uri = uri ∧ wire.body = if r.method = .post then encodeFields r.fields else [] := by
  rw [prepareWire] at h
  split at h
  next => cases h
  next hvalid =>
    have hmax : r.maxUriBytes ≠ 0 := by
      rw [Bool.not_eq_false, SubmitRequest.valid, Bool.and_eq_true, decide_eq_true_eq] at hvalid
      exact hvalid.2.1
    split at h
    next => cases h
    next =>
      split at h
      next => cases h
      next =>
        split at h
        next => cases h
        next n hn =>
          split at h
          next => cases h
          next =>
            split at h
            next => cases h
            next => cases h
            next resolved fragment hresolved =>
              split at h
              next => cases h
              next =>
                split at h
                next => cases h
                next uri huri =>
                  cases h
                  exact ⟨n, resolved, fragment, uri, hmax, hn, hresolved, huri, rfl, rfl⟩

/-- When an admissible request is prepared. -/
theorem prepareWire_isOk {n : ℕ} {fragment : Text} (hadmissible : r.admissible setting = true)
    (hfields : validateFields r.fields r.maxBodyBytes = .ok n)
    (htarget : setting.target r = .ok (resolved, fragment)) (hresolved : resolved ≠ []) :
    (∃ wire, prepareWire setting r = .ok wire) ↔ ∃ uri, wireUri r n resolved = .ok uri := by
  rw [SubmitRequest.admissible, Bool.and_eq_true, Bool.and_eq_true, Bool.and_eq_true,
    Bool.not_eq_true', decide_eq_false_iff_not, Bool.or_eq_true] at hadmissible
  obtain ⟨⟨⟨hvalid, henctype⟩, htimeout⟩, hallocates⟩ := hadmissible
  have htimeout' : ¬(r.timeout.isSome = true ∧ setting.timeoutCapable = false) := by
    rintro ⟨hsome, hcapable⟩
    rcases htimeout with hnone | hyes
    · rw [Option.isNone_iff_eq_none] at hnone
      rw [hnone] at hsome
      cases hsome
    · rw [hcapable] at hyes
      cases hyes
  rw [prepareWire, hvalid, if_neg (by decide), if_neg henctype, if_neg htimeout', hfields]
  dsimp only
  rw [hallocates, if_neg (by decide), htarget]
  dsimp only
  rw [if_neg hresolved]
  cases wireUri r n resolved with
  | error e =>
    refine iff_of_false ?_ ?_
    · rintro ⟨wire, h⟩
      cases h
    · rintro ⟨uri, h⟩
      cases h
  | ok uri => exact iff_of_true ⟨_, rfl⟩ ⟨uri, rfl⟩

/-- **Main.** What is written was measured; the body of a POST stands for the fields, and the query
of a GET for the fields of the target and then for those of the submit. -/
theorem prepareWire_roundTrip (setting : Setting) (r : SubmitRequest) {n : ℕ}
    (hfields : validateFields r.fields r.maxBodyBytes = .ok n) :
    (encodeFields r.fields).length = n ∧
      (∀ wire, prepareWire setting r = .ok wire →
        ∃ resolved fragment, setting.target r = .ok (resolved, fragment) ∧
          wire.uri.length ≤ r.maxUriBytes ∧
          (r.method = .post → wire.uri = resolved ∧ wire.body.length = n ∧
            FormEncoding.decode wire.body = r.fields) ∧
          (r.method = .get → wire.uri = resolved ++ getSuffix r.fields resolved ∧
            FormEncoding.decode (queryOf wire.uri) =
              FormEncoding.decode (queryOf resolved) ++ r.fields)) ∧
      ∀ resolved fragment, r.admissible setting = true →
        setting.target r = .ok (resolved, fragment) → resolved ≠ [] →
          ((∃ wire, prepareWire setting r = .ok wire) ↔
            r.method = .post ∨ r.fields = [] ∨ resolved.length + 1 + n ≤ r.maxUriBytes) := by
  have hwritten := (length_encodeFields hfields).1
  refine ⟨hwritten, fun wire hwire => ?_, fun resolved fragment hadmissible htarget hne => ?_⟩
  · obtain ⟨n', resolved, fragment, uri, hmax, hn, htarget, huri, hwireUri, hbody⟩ :=
      prepareWire_eq_ok hwire
    cases hfields.symm.trans hn
    have hlength := Setting.target_length htarget
    rw [← hwritten, wireUri_eq hmax hlength] at huri
    split at huri
    next => cases huri
    next hroom =>
      cases huri
      refine ⟨resolved, fragment, htarget, ?_, fun hpost => ?_, fun hget => ?_⟩
      · rw [hwireUri]
        split
        next hget =>
          rw [List.length_append, length_getSuffix]
          split
          next => omega
          next hsome =>
            have hfits : ¬r.maxUriBytes < resolved.length + 1 + (encodeFields r.fields).length :=
              fun hlt => hroom ⟨hget, hsome, hlt⟩
            omega
        next => exact hlength
      · rw [hpost] at hwireUri hbody
        rw [hbody, if_pos rfl]
        exact ⟨hwireUri, hwritten, decode_encodeFields r.fields⟩
      · rw [hget, if_pos rfl] at hwireUri
        rw [hwireUri]
        exact ⟨rfl, decode_queryOf r.fields resolved⟩
  · have hmax : r.maxUriBytes ≠ 0 := by
      simp only [SubmitRequest.admissible, SubmitRequest.valid, Bool.and_eq_true,
        decide_eq_true_eq] at hadmissible
      exact hadmissible.1.1.1.2.1
    rw [prepareWire_isOk hadmissible hfields htarget hne, ← hwritten,
      wireUri_eq hmax (Setting.target_length htarget)]
    split
    next hfull =>
      obtain ⟨hget, hsome, hlt⟩ := hfull
      refine iff_of_false ?_ ?_
      · rintro ⟨uri, h⟩
        cases h
      · rintro (hpost | hnone | hle)
        · rw [hget] at hpost
          cases hpost
        · exact hsome hnone
        · omega
    next hroom =>
      refine iff_of_true ⟨_, rfl⟩ ?_
      cases hmethod : r.method with
      | post => exact .inl rfl
      | get =>
        by_cases hnone : r.fields = []
        · exact .inr (.inl hnone)
        · refine .inr (.inr (Nat.le_of_not_lt fun hlt => hroom ⟨hmethod, hnone, hlt⟩))

/-! ## A request with a query of its own -/

def sampleRequest : SubmitRequest where
  baseDocumentUri := []
  target := ['?', 'q', '=', '1']
  method := .get
  enctype := []
  fields := [([0x61], [0x20, 0x26]), ([0x62], [])]
  maxUriBytes := 32
  maxBodyBytes := 16
  maxResponseBytes := 1
  timeout := none

def sampleSetting : Setting where
  applicationUri := ['h', ':', '/', 'd']
  maxStoreUriBytes := 32
  timeoutCapable := false
  allocates := true

theorem prepareWire_roundTrip_sample :
    (encodeFields sampleRequest.fields).length = 9 ∧
      ∃ wire, prepareWire sampleSetting sampleRequest = .ok wire :=
  ⟨(prepareWire_roundTrip sampleSetting sampleRequest (n := 9) (by decide +kernel)).1,
    ((prepareWire_roundTrip sampleSetting sampleRequest (n := 9) (by decide +kernel)).2.2
      ['h', ':', '/', 'd', '?', 'q', '=', '1'] [] (by decide +kernel) (by decide +kernel)
      (by decide)).mpr (by decide +kernel)⟩

end TurboScxml.Voice.Submit
