import TurboScxml.Chttp.FormGrammar

/-!
# The round trip of the form codec

* `sizeEntries_fields`: what the first pass accepts are acceptable fields, and it measures what the
  second pass writes;
* `decodeForm_written`: acceptable fields are read back;
* **`decodeForm_encode`**: the decoder reads what the encoder accepted.
-/

namespace TurboScxml.Chttp

namespace Platform

variable {p : Platform} {limits : CodecLimits}

/-! ## Components -/

theorem formUnreserved_admissible : Percent.Admissible formUnreserved := by
  constructor <;> decide

theorem ampersand_not_mem_formEncode (data : Bytes) : ampersand ∉ formEncode data :=
  Percent.not_mem_encode (by decide) (by decide) (by decide) (by decide) data

theorem equalsSign_not_mem_formEncode (data : Bytes) : equalsSign ∉ formEncode data :=
  Percent.not_mem_encode (by decide) (by decide) (by decide) (by decide) data

variable {data : Bytes}

theorem escaped_formEncode (data : Bytes) : Percent.Escaped (formEncode data) data :=
  Percent.decode_eq_some.mp (Percent.decode_encode formUnreserved_admissible data)

theorem checkedAdd_eq_some {left right sum : ℕ} (h : checkedAdd left right = some sum) :
    sum = left + right := by
  unfold checkedAdd at h
  split at h
  · cases h
  · exact (Option.some.inj h).symm

theorem formWidth_eq (b : UInt8) : formWidth b = (Percent.encodeByte formUnreserved b).length := by
  unfold formWidth Percent.encodeByte
  cases formUnreserved b with
  | true => rfl
  | false =>
    by_cases hb : b = Percent.blank
    · simp [hb]
    · simp [hb]

theorem formEncodedSize_eq_some {limit size : ℕ} (h : p.formEncodedSize data limit = some size) :
    data.length ≤ limit ∧ p.codecUtf8Valid data = true ∧ size = (formEncode data).length := by
  unfold formEncodedSize at h
  split at h
  · cases h
  · rename_i hguard
    simp only [Bool.or_eq_true, decide_eq_true_eq, Bool.not_eq_true', not_or, not_lt,
      Bool.not_eq_false] at hguard
    refine ⟨hguard.1, hguard.2, ?_⟩
    have hfold : ∀ (data : Bytes) (start size : ℕ),
        data.foldlM (fun required value => checkedAdd required (formWidth value)) start = some size →
          size = start + (formEncode data).length := by
      intro data
      induction data with
      | nil =>
        intro start size h
        exact (Option.some.inj h).symm
      | cons b data ih =>
        intro start size h
        obtain ⟨next, hnext, hrest⟩ := Option.bind_eq_some_iff.mp h
        have hcons : formEncode (b :: data) =
            Percent.encodeByte formUnreserved b ++ formEncode data := rfl
        rw [ih next size hrest, checkedAdd_eq_some hnext, formWidth_eq, hcons, List.length_append]
        omega
    rw [hfold data 0 size h, Nat.zero_add]

/-! ## Fields -/

def fieldOf (p : Platform) (entry : PayloadEntry) : Option (Bytes × Bytes) :=
  match entry.value with
  | .scalar scalar => (p.scalarText scalar).map fun value => (entry.name, value)
  | _ => none

def writeField (field : Bytes × Bytes) : Bytes :=
  formEncode field.1 ++ equalsSign :: formEncode field.2

def writeFields (fields : List (Bytes × Bytes)) : Bytes :=
  fields.flatMap fun field => ampersand :: writeField field

theorem writeFormField_eq (hasPrior : Bool) (field : Bytes × Bytes) :
    writeFormField hasPrior field.1 field.2 =
      if hasPrior then ampersand :: writeField field else writeField field := by
  cases hasPrior <;> rfl

theorem addFormFieldSize_eq_some {total required nameLimit valueLimit : ℕ} {hasPrior : Bool}
    (field : Bytes × Bytes) (h : p.addFormFieldSize total hasPrior field.1 nameLimit field.2
      valueLimit = some required) :
    field.1 ≠ [] ∧ p.codecUtf8Valid field.1 = true ∧ p.codecUtf8Valid field.2 = true ∧
      field.1.length ≤ nameLimit ∧ field.2.length ≤ valueLimit ∧
      required = total + (writeFormField hasPrior field.1 field.2).length := by
  unfold addFormFieldSize at h
  split at h
  · cases h
  · rename_i hname
    obtain ⟨nameSize, hnameSize, h⟩ := Option.bind_eq_some_iff.mp h
    obtain ⟨valueSize, hvalueSize, h⟩ := Option.bind_eq_some_iff.mp h
    obtain ⟨prior, hprior, h⟩ := Option.bind_eq_some_iff.mp h
    obtain ⟨named, hnamed, h⟩ := Option.bind_eq_some_iff.mp h
    obtain ⟨signed, hsigned, hsum⟩ := Option.bind_eq_some_iff.mp h
    obtain ⟨hnameLimit, hnameValid, rfl⟩ := formEncodedSize_eq_some hnameSize
    obtain ⟨hvalueLimit, hvalueValid, rfl⟩ := formEncodedSize_eq_some hvalueSize
    refine ⟨hname, hnameValid, hvalueValid, hnameLimit, hvalueLimit, ?_⟩
    have hpriorSize : prior = total + if hasPrior then 1 else 0 := by
      cases hasPrior with
      | false => exact (Option.some.inj hprior).symm
      | true => exact checkedAdd_eq_some hprior
    rw [checkedAdd_eq_some hsum, checkedAdd_eq_some hsigned, checkedAdd_eq_some hnamed, hpriorSize,
      writeFormField_eq]
    cases hasPrior <;> simp [writeField] <;> omega

def writeFrom (count : ℕ) (fields : List (Bytes × Bytes)) : Bytes :=
  match count, fields with
  | 0, field :: fields => writeField field ++ writeFields fields
  | _, fields => writeFields fields

theorem writeFrom_cons (count : ℕ) (field : Bytes × Bytes) (fields : List (Bytes × Bytes)) :
    writeFormField (count != 0) field.1 field.2 ++ writeFields fields =
      writeFrom count (field :: fields) := by
  cases count <;> simp [writeFormField_eq, writeFrom, writeFields]

theorem writeFrom_succ (count : ℕ) (fields : List (Bytes × Bytes)) :
    writeFrom (count + 1) fields = writeFields fields := rfl

variable {entries : List PayloadEntry} {sizes : Sizes}

/-- **The first pass** accepts acceptable fields, and measures what the second pass writes. -/
theorem sizeEntries_fields {sizes' : Sizes} (h : p.sizeEntries limits sizes entries = some sizes') :
    ∃ fields, entries.mapM p.fieldOf = some fields ∧
      Acceptable p limits sizes.hasReservedEvent fields ∧
      p.writeEntries sizes.fieldCount entries = some (writeFrom sizes.fieldCount fields) ∧
      sizes'.required = sizes.required + (writeFrom sizes.fieldCount fields).length ∧
      sizes'.fieldCount = sizes.fieldCount + fields.length := by
  induction entries generalizing sizes with
  | nil =>
    obtain rfl : sizes = sizes' := Option.some.inj h
    refine ⟨[], rfl, trivial, ?_, ?_, rfl⟩ <;> cases sizes.fieldCount <;> rfl
  | cons entry entries ih =>
    unfold sizeEntries at h
    split at h
    · rename_i scalar hscalar
      split at h
      · rename_i value hvalue
        dsimp only at h
        split at h
        · cases h
        · rename_i hguard
          split at h
          · rename_i required hrequired
            obtain ⟨hname, hnameValid, hvalueValid, hnameLimit, hvalueLimit, hsize⟩ :=
              addFormFieldSize_eq_some (entry.name, value) hrequired
            obtain ⟨fields, hfields, hacceptable, hwritten, htotal, hcount⟩ := ih h
            dsimp only at hacceptable hwritten htotal hcount
            have hfield : p.fieldOf entry = some (entry.name, value) := by
              rw [fieldOf, hscalar]
              simp [hvalue]
            refine ⟨(entry.name, value) :: fields, ?_, ⟨⟨hname, hnameValid, hvalueValid, ?_, ?_⟩,
              hacceptable⟩, ?_, ?_, ?_⟩
            · rw [List.mapM_cons, hfield, hfields]
              rfl
            · intro hreserved
              have hreserved' : (entry.name == reservedEventName) = true := hreserved
              rw [hreserved'] at hguard hvalueLimit
              simp only [Bool.true_and, Bool.or_eq_true, not_or, Bool.not_eq_true,
                List.isEmpty_eq_false_iff] at hguard
              exact ⟨hguard.1, hguard.2, hvalueLimit⟩
            · intro hreserved
              have hreserved' : (entry.name == reservedEventName) = false := hreserved
              rw [hreserved'] at hnameLimit hvalueLimit
              exact ⟨hnameLimit, hvalueLimit⟩
            · rw [writeEntries, hscalar]
              simp only [hvalue, hwritten, writeFrom_succ, Option.bind_eq_bind, Option.bind_some]
              exact congrArg some (writeFrom_cons sizes.fieldCount (entry.name, value) fields)
            · rw [htotal, hsize, ← writeFrom_cons, writeFrom_succ, List.length_append]
              omega
            · rw [hcount, List.length_cons]
              omega
          · cases h
      · cases h
    · cases h

/-! ## Reading the fields back -/

variable (field : Bytes × Bytes)

theorem ampersand_not_mem_writeField : ampersand ∉ writeField field := by
  rw [writeField, List.mem_append, List.mem_cons]
  rintro (h | h | h)
  · exact ampersand_not_mem_formEncode field.1 h
  · revert h
    decide
  · exact ampersand_not_mem_formEncode field.2 h

theorem spells_writeField : Spells (writeField field) field :=
  .pair (equalsSign_not_mem_formEncode _) (escaped_formEncode _) (escaped_formEncode _)

theorem splitOn_written (fields : List (Bytes × Bytes)) :
    (writeField field ++ writeFields fields).splitOn ampersand =
      (field :: fields).map writeField := by
  have hmem := ampersand_not_mem_writeField field
  induction fields generalizing field with
  | nil =>
    rw [writeFields, List.flatMap_nil, List.append_nil]
    exact List.splitOn_eq_singleton hmem
  | cons next fields ih =>
    have hnext := ih next (ampersand_not_mem_writeField next)
    exact (List.splitOn_append_cons_self_of_not_mem hmem _).trans
      (congrArg (writeField field :: ·) hnext)

/-- **Acceptable fields are read back.** -/
theorem decodeForm_written {entryCapacity textCapacity : ℕ} (hsome : fields ≠ [])
    (h : Acceptable p limits false fields) (hcount : fields.length ≤ limits.maxFormEntryCount)
    (hroom : (applicationEntries fields).length ≤ entryCapacity)
    (hbody : (writeFrom 0 fields).length ≤ limits.maxEncodedBodyBytes)
    (htext : (writeFrom 0 fields).length ≤ textCapacity) :
    p.decodeForm limits entryCapacity textCapacity (writeFrom 0 fields) =
      .ok ⟨(reservedValue fields).getD defaultEventName, applicationEntries fields⟩ := by
  refine decodeForm_eq_ok.mpr ⟨hbody, htext, fields, ⟨.inr ?_, h, hcount, hroom⟩, rfl⟩
  cases fields with
  | nil => exact absurd rfl hsome
  | cons field rest =>
    rw [writeFrom, splitOn_written]
    exact List.forall₂_map_left_iff.mpr (List.forall₂_same.mpr fun f _ => spells_writeField f)

/-! ## The round trip -/

def allFields (request : SendRequest) (fields : List (Bytes × Bytes)) : List (Bytes × Bytes) :=
  if request.eventName ≠ [] then (reservedEventName, request.eventName) :: fields else fields

def namedEvent (request : SendRequest) (fields : List (Bytes × Bytes)) : Bytes :=
  if request.eventName ≠ [] then request.eventName
  else (reservedValue fields).getD defaultEventName

theorem fieldOf_name {entry : PayloadEntry} {field : Bytes × Bytes}
    (h : p.fieldOf entry = some field) : field.1 = entry.name := by
  unfold fieldOf at h
  split at h
  · obtain ⟨value, -, rfl⟩ := Option.map_eq_some_iff.mp h
    rfl
  · cases h

theorem fieldOf_names (h : entries.mapM p.fieldOf = some fields) :
    fields.map Prod.fst = entries.map (·.name) := by
  induction entries generalizing fields with
  | nil =>
    obtain rfl : [] = fields := Option.some.inj h
    rfl
  | cons entry entries ih =>
    rw [List.mapM_cons] at h
    obtain ⟨field, hfield, h⟩ := Option.bind_eq_some_iff.mp h
    obtain ⟨rest, hrest, h⟩ := Option.bind_eq_some_iff.mp h
    obtain rfl : field :: rest = fields := Option.some.inj h
    rw [List.map_cons, List.map_cons, ih hrest, fieldOf_name hfield]

variable {request : SendRequest}

theorem encode_fields (h : p.measure limits request = some sizes) :
    ∃ fields, request.entries.mapM p.fieldOf = some fields ∧
      Acceptable p limits false (allFields request fields) ∧
      (allFields request fields).length ≤ limits.maxFormEntryCount ∧
      sizes.fieldCount = (allFields request fields).length ∧
      p.write request = some (writeFrom 0 (allFields request fields)) ∧
      sizes.required = (writeFrom 0 (allFields request fields)).length := by
  obtain ⟨start, hstart, h⟩ := Option.bind_eq_some_iff.mp h
  split at h
  · cases h
  · rename_i hroom
    obtain ⟨fields, hfields, hacceptable, hwritten, hsize, hcount⟩ := sizeEntries_fields h
    have hlength : fields.length = request.entries.length := by
      simpa using congrArg List.length (fieldOf_names hfields)
    refine ⟨fields, hfields, ?_⟩
    unfold sizeEvent at hstart
    unfold allFields write
    split at hstart
    · rename_i hevent
      split at hstart
      · cases hstart
      · rename_i hmax
        obtain ⟨required, hrequired, rfl⟩ := Option.map_eq_some_iff.mp hstart
        obtain ⟨hname, hnameValid, hvalueValid, -, hvalueLimit, hsum⟩ :=
          addFormFieldSize_eq_some (reservedEventName, request.eventName) hrequired
        rw [if_pos hevent, if_pos hevent]
        dsimp only at hacceptable hwritten hsize hcount hroom
        refine ⟨⟨⟨hname, hnameValid, hvalueValid, fun _ => ⟨rfl, hevent, hvalueLimit⟩, ?_⟩, ?_⟩,
          ?_, ?_, ?_, ?_⟩
        · intro hentry
          simp [isReserved] at hentry
        · rw [show (false || isReserved (reservedEventName, request.eventName)) = true by
            simp [isReserved]]
          exact hacceptable
        · rw [List.length_cons]
          omega
        · rw [List.length_cons]
          omega
        · rw [hwritten, Option.map_some]
          rfl
        · rw [hsize, hsum, writeFormField_eq, Nat.zero_add]
          exact (List.length_append ..).symm
    · rename_i hevent
      split at hstart
      · cases hstart
        rw [if_neg hevent, if_neg hevent]
        dsimp only at hacceptable hwritten hsize hcount hroom
        exact ⟨hacceptable, by omega, by omega, hwritten, by omega⟩
      · cases hstart

def applicationCount (request : SendRequest) : ℕ :=
  (request.entries.filter fun entry => entry.name != reservedEventName).length

theorem applicationCount_eq (h : request.entries.mapM p.fieldOf = some fields) :
    (applicationEntries fields).length = applicationCount request := by
  have hnames := congrArg (List.countP (· != reservedEventName)) (fieldOf_names h)
  rw [List.countP_map, List.countP_map] at hnames
  unfold applicationEntries applicationCount
  rw [← List.countP_eq_length_filter, ← List.countP_eq_length_filter]
  exact hnames

theorem applicationEntries_allFields (request : SendRequest) (fields : List (Bytes × Bytes)) :
    applicationEntries (allFields request fields) = applicationEntries fields := by
  unfold allFields
  split
  · rw [applicationEntries_cons]
    rfl
  · rfl

theorem reservedValue_allFields (request : SendRequest) (fields : List (Bytes × Bytes)) :
    (reservedValue (allFields request fields)).getD defaultEventName =
      namedEvent request fields := by
  unfold allFields namedEvent
  split
  · rw [reservedValue_cons]
    rfl
  · rfl

/-- **Main.** The decoder reads back what the encoder accepted. -/
theorem decodeForm_encode {bodyCapacity entryCapacity textCapacity required : ℕ}
    {request : SendRequest} {encoded : EncodedBody}
    (hpayload : ∀ content, request.payload ≠ .content content)
    (h : p.encode limits bodyCapacity request = (required, .ok encoded))
    (hentries : applicationCount request ≤ entryCapacity)
    (htext : encoded.bodySize ≤ textCapacity) :
    ∃ fields, request.entries.mapM p.fieldOf = some fields ∧
      encoded.body.length = encoded.bodySize ∧
      p.decodeForm limits entryCapacity textCapacity encoded.body =
        .ok ⟨namedEvent request fields, applicationEntries fields⟩ := by
  rw [encode.eq_def] at h
  split at h
  · rename_i content hcontent
    exact absurd hcontent (hpayload content)
  split at h
  · cases h
  · rename_i sizes hsizes
    obtain ⟨fields, hfields, hacceptable, hcount, hfieldCount, hwritten, hrequired⟩ :=
      encode_fields hsizes
    split at h
    · cases h
    · rename_i hsome
      rw [hwritten] at h
      split at h
      · cases h
      · rename_i hbody
        split at h
        · cases h
        · cases h
          refine ⟨fields, hfields, hrequired.symm, ?_⟩
          rw [hrequired] at hbody
          have htext' : (writeFrom 0 (allFields request fields)).length ≤ textCapacity := by
            rwa [← hrequired]
          have hroom : (applicationEntries (allFields request fields)).length ≤
              applicationCount request := by
            rw [applicationEntries_allFields, applicationCount_eq hfields]
          have hread := decodeForm_written
            (fun hnil => hsome (by rw [hfieldCount, hnil]; rfl)) hacceptable hcount
            (hroom.trans hentries) (not_lt.mp hbody) htext'
          rwa [reservedValue_allFields, applicationEntries_allFields] at hread

def asciiPlatform : Platform := ⟨fun _ => true, fun _ => []⟩

def sampleLimits : CodecLimits := ⟨16, 3, 16, 16, 64⟩

def sampleRequest : SendRequest :=
  ⟨none, .named [⟨ascii ['t', 'a', 'g'], .scalar (.string (ascii ['a', '&', ' ', '=']))⟩,
    ⟨reservedEventName, .scalar (.string (ascii ['g', 'o']))⟩,
    ⟨ascii ['n'], .scalar (.sint (-5))⟩]⟩

def sampleBody : Bytes :=
  ascii (['t', 'a', 'g', '=', 'a', '%', '2', '6', '+', '%', '3', 'D', '&'] ++
    ['_', 's', 'c', 'x', 'm', 'l', 'e', 'v', 'e', 'n', 't', 'n', 'a', 'm', 'e', '=', 'g', 'o', '&'] ++
    ['n', '=', '-', '5'])

theorem sampleRequest_encodes : asciiPlatform.encode sampleLimits 64 sampleRequest =
    (36, .ok ⟨.form, 36, sampleBody⟩) := by
  rfl

theorem sampleRequest_round_trip :
    ∃ fields, sampleRequest.entries.mapM asciiPlatform.fieldOf = some fields ∧
      sampleBody.length = 36 ∧ asciiPlatform.decodeForm sampleLimits 2 64 sampleBody =
        .ok ⟨namedEvent sampleRequest fields, applicationEntries fields⟩ :=
  decodeForm_encode (fun _ => Payload.noConfusion) sampleRequest_encodes (by decide) (by decide)

end Platform

end TurboScxml.Chttp
