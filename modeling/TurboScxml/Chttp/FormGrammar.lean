import TurboScxml.Chttp.Codec
import TurboScxml.Lib.Fallible
import Mathlib.Data.List.Forall2

/-!
# The grammar of a posted form

What `scxml_chttp_codec_decode_form` accepts, stated without its loops, and the text that it stores
while it scans.

* `Acceptable`: the fields that pass the limits, and `FormState.take`, what they leave;
* `Spells`, `FormBody`: the fields that a body stands for, and the limits they have to pass;
* **`decodeForm_grammar`**: the bodies of the grammar are accepted and no others, and no run stores
  more text than there is room for.
-/

namespace TurboScxml.Chttp

namespace Platform

variable {p : Platform} {limits : CodecLimits} {entryCapacity : ℕ}

/-! ## Acceptable fields -/

def isReserved (field : Bytes × Bytes) : Bool := field.1 == reservedEventName

/-- The field passes the limits; `event`: the event was named before. -/
structure FieldAcceptable (p : Platform) (limits : CodecLimits) (event : Bool)
    (field : Bytes × Bytes) : Prop where
  name : field.1 ≠ []
  nameValid : p.codecUtf8Valid field.1 = true
  valueValid : p.codecUtf8Valid field.2 = true
  reserved : isReserved field = true →
    event = false ∧ field.2 ≠ [] ∧ field.2.length ≤ limits.maxEventNameBytes
  entry : isReserved field = false →
    field.1.length ≤ limits.maxFormNameBytes ∧ field.2.length ≤ limits.maxFormValueBytes

def Acceptable (p : Platform) (limits : CodecLimits) : Bool → List (Bytes × Bytes) → Prop
  | _, [] => True
  | event, field :: fields =>
    FieldAcceptable p limits event field ∧ Acceptable p limits (event || isReserved field) fields

def applicationEntries (fields : List (Bytes × Bytes)) : List (Bytes × Bytes) :=
  fields.filter fun field => !isReserved field

def reservedValue (fields : List (Bytes × Bytes)) : Option Bytes :=
  (fields.find? isReserved).map Prod.snd

variable (field : Bytes × Bytes)

theorem applicationEntries_cons (fields : List (Bytes × Bytes)) :
    applicationEntries (field :: fields) =
      applicationEntries [field] ++ applicationEntries fields :=
  List.filter_append [field] fields

theorem reservedValue_cons (fields : List (Bytes × Bytes)) : reservedValue (field :: fields) =
      if isReserved field then some field.2 else reservedValue fields := by
  unfold reservedValue
  cases h : isReserved field <;> simp [h]

def FormState.take (form : FormState) (field : Bytes × Bytes) : FormState :=
  ⟨form.totalEntries + 1, if isReserved field then some field.2 else form.event,
    form.entries ++ applicationEntries [field]⟩

theorem FormState.take_event {form : FormState} {field : Bytes × Bytes}
    (h : FieldAcceptable p limits form.event.isSome field) (fields : List (Bytes × Bytes)) :
    form.event.or (reservedValue (field :: fields)) =
      (form.take field).event.or (reservedValue fields) := by
  rw [reservedValue_cons, FormState.take]
  cases hreserved : isReserved field with
  | true =>
    have hnone : form.event = none := by simpa using (h.reserved hreserved).1
    simp [hnone]
  | false => rfl

theorem FormState.take_isSome (form : FormState) (field : Bytes × Bytes) :
    (form.take field).event.isSome = (form.event.isSome || isReserved field) := by
  unfold FormState.take
  cases isReserved field <;> simp

/-! ## The grammar -/

inductive Spells : Bytes → Bytes × Bytes → Prop
  | name {source name : Bytes} (hequals : equalsSign ∉ source)
    (hname : Percent.Escaped source name) : Spells source (name, [])
  | pair {source source' name value : Bytes} (hequals : equalsSign ∉ source)
    (hname : Percent.Escaped source name) (hvalue : Percent.Escaped source' value) :
    Spells (source ++ equalsSign :: source') (name, value)

structure FormBody (p : Platform) (limits : CodecLimits) (entryCapacity : ℕ) (body : Bytes)
    (fields : List (Bytes × Bytes)) : Prop where
  spelled : body = [] ∧ fields = [] ∨ List.Forall₂ Spells (body.splitOn ampersand) fields
  acceptable : Acceptable p limits false fields
  count : fields.length ≤ limits.maxFormEntryCount
  room : (applicationEntries fields).length ≤ entryCapacity

/-! ## One field -/

theorem zero_not_mem (h : p.codecUtf8Valid data = true) : 0 ∉ data := by
  cases data with
  | nil => exact List.not_mem_nil
  | cons b data =>
    simp only [codecUtf8Valid, List.isEmpty_cons, Bool.false_or, Bool.and_eq_true,
      Bool.not_eq_true', List.contains_eq_mem, decide_eq_false_iff_not] at h
    exact h.1

variable {source text : Bytes}

theorem decodeComponent_eq_some : p.decodeComponent source = some text ↔
      Percent.Escaped source text ∧ p.codecUtf8Valid text = true := by
  rw [decodeComponent, Option.filter_eq_some_iff, Percent.decode_eq_some]
  refine and_congr_right fun _ => ⟨fun h => (Bool.and_eq_true_iff.mp h).2, fun h => ?_⟩
  simp [h, zero_not_mem h]

variable {piece : Bytes}

theorem spells_iff {field : Bytes × Bytes} :
    Spells piece field ↔ Percent.Escaped (Percent.cut equalsSign piece).1 field.1 ∧
      Percent.Escaped ((Percent.cut equalsSign piece).2.getD []) field.2 := by
  constructor
  · rintro (⟨hequals, hname⟩ | ⟨hequals, hname, hvalue⟩)
    · rw [Percent.cut_of_not_mem hequals]
      exact ⟨hname, .nil⟩
    · rw [Percent.cut_append hequals]
      exact ⟨hname, hvalue⟩
  · rintro ⟨hname, hvalue⟩
    have hequals := Percent.not_mem_cut equalsSign piece
    have hpiece := Percent.cut_join equalsSign piece
    obtain ⟨name, value⟩ := field
    rw [← hpiece]
    cases hrest : (Percent.cut equalsSign piece).2 with
    | none =>
      rw [hrest] at hvalue
      cases hvalue
      rw [Option.map_none, Option.getD_none, List.append_nil]
      exact .name hequals hname
    | some rest =>
      rw [hrest] at hvalue
      exact .pair hequals hname hvalue

theorem Spells.ne_nil {field : Bytes × Bytes} (h : Spells piece field)
    (hname : field.1 ≠ []) : piece ≠ [] := by
  rintro rfl
  obtain ⟨hescaped, -⟩ := spells_iff.mp h
  generalize field.1 = name at hname hescaped
  cases hescaped
  exact hname rfl

variable {form form' : FormState}

theorem addField_eq_ok (hroom : form.entries.length ≤ entryCapacity) :
    addField limits entryCapacity { form with totalEntries := form.totalEntries + 1 } field.1
        field.2 = .ok form' ↔
      (isReserved field = true → form.event.isSome = false ∧ field.2 ≠ [] ∧
        field.2.length ≤ limits.maxEventNameBytes) ∧
      (isReserved field = false → field.1.length ≤ limits.maxFormNameBytes ∧
        field.2.length ≤ limits.maxFormValueBytes) ∧
      form.entries.length + (applicationEntries [field]).length ≤ entryCapacity ∧
      form.take field = form' := by
  unfold addField
  cases hreserved : isReserved field with
  | true =>
    have hname : field.1 = reservedEventName := by simpa [isReserved] using hreserved
    rw [if_pos hname]
    by_cases hguard : form.event.isSome = true ∨ field.2.isEmpty = true
    · rw [if_pos (by simpa using hguard)]
      refine iff_of_false (fun h => by cases h) fun h => ?_
      obtain ⟨hevent, hvalue, -⟩ := h.1 rfl
      simp [hevent, hvalue] at hguard
    · rw [if_neg (by simpa using hguard)]
      simp only [not_or, Bool.not_eq_true, List.isEmpty_eq_false_iff] at hguard
      by_cases hlimit : field.2.length > limits.maxEventNameBytes
      · rw [if_pos hlimit]
        refine iff_of_false (fun h => by cases h) fun h => ?_
        exact absurd (h.1 rfl).2.2 (Nat.not_le.mpr hlimit)
      · rw [if_neg hlimit]
        simp [hguard, hroom, Nat.not_lt.mp hlimit, FormState.take, applicationEntries, hreserved]
  | false =>
    have hname : field.1 ≠ reservedEventName := by simpa [isReserved] using hreserved
    rw [if_neg hname]
    by_cases hguard : field.1.length > limits.maxFormNameBytes ∨
        field.2.length > limits.maxFormValueBytes ∨ form.entries.length ≥ entryCapacity
    · rw [if_pos hguard]
      refine iff_of_false (fun h => by cases h) fun h => ?_
      obtain ⟨hnameLimit, hvalueLimit⟩ := h.2.1 rfl
      have hone : form.entries.length + 1 ≤ entryCapacity := by
        simpa [applicationEntries, hreserved] using h.2.2.1
      omega
    · rw [if_neg hguard]
      simp only [not_or, not_lt, ge_iff_le, not_le, gt_iff_lt] at hguard
      simp [hguard, Nat.succ_le_of_lt hguard.2.2, FormState.take, applicationEntries, hreserved]

theorem decodeField_eq_ok (hroom : form.entries.length ≤ entryCapacity) :
    p.decodeField limits entryCapacity form piece = .ok form' ↔
      ∃ field, Spells piece field ∧ FieldAcceptable p limits form.event.isSome field ∧
        form.totalEntries < limits.maxFormEntryCount ∧
        form.entries.length + (applicationEntries [field]).length ≤ entryCapacity ∧
        form.take field = form' := by
  constructor
  · intro h
    unfold decodeField at h
    split at h
    · cases h
    split at h
    · cases h
    dsimp only at h
    split at h
    · cases h
    rename_i hcount name hname
    split at h
    · cases h
    split at h
    · cases h
    rename_i hnonempty _ value hvalue
    obtain ⟨hescaped, hvalid⟩ := decodeComponent_eq_some.mp hname
    obtain ⟨hescaped', hvalid'⟩ := decodeComponent_eq_some.mp hvalue
    obtain ⟨hreserved, hentry, hfits, htake⟩ := (addField_eq_ok (name, value) hroom).mp h
    exact ⟨(name, value), spells_iff.mpr ⟨hescaped, hescaped'⟩,
      ⟨hnonempty, hvalid, hvalid', hreserved, hentry⟩, by omega, hfits, htake⟩
  · rintro ⟨field, hspells, hfield, hcount, hfits, htake⟩
    obtain ⟨hname, hvalue⟩ := spells_iff.mp hspells
    rw [decodeField, if_neg (hspells.ne_nil hfield.name), if_neg (by omega)]
    simp only [decodeComponent_eq_some.mpr ⟨hname, hfield.nameValid⟩, if_neg hfield.name,
      decodeComponent_eq_some.mpr ⟨hvalue, hfield.valueValid⟩]
    exact (addField_eq_ok field hroom).mpr ⟨hfield.reserved, hfield.entry, hfits, htake⟩

/-! ## All fields -/

theorem decodeFields_splitOn {form : FormState} {source : Bytes} (h : source ≠ []) :
    p.decodeFields limits entryCapacity form source =
      (source.splitOn ampersand).foldlM (p.decodeField limits entryCapacity) form := by
  rw [decodeFields, if_neg h, Percent.splitOn_cut, List.foldlM_cons]
  cases hround : p.decodeField limits entryCapacity form (Percent.cut ampersand source).1 with
  | error error => rfl
  | ok next =>
    dsimp only
    split
    next hrest =>
      rw [hrest]
      rfl
    next hrest =>
      rw [hrest]
      rfl
    next rest hnonempty hrest =>
      rw [hrest]
      exact decodeFields_splitOn hnonempty
  termination_by source.length
  decreasing_by exact Percent.cut_length (by assumption)

theorem foldlM_decodeField {pieces : List Bytes}
    (hcount : form.totalEntries ≤ limits.maxFormEntryCount)
    (hroom : form.entries.length ≤ entryCapacity) :
    pieces.foldlM (p.decodeField limits entryCapacity) form = .ok form' ↔
      ∃ fields, List.Forall₂ Spells pieces fields ∧ Acceptable p limits form.event.isSome fields ∧
        form.totalEntries + fields.length ≤ limits.maxFormEntryCount ∧
        form.entries.length + (applicationEntries fields).length ≤ entryCapacity ∧
        fields.foldl FormState.take form = form' := by
  induction pieces generalizing form with
  | nil =>
    constructor
    · intro h
      cases h
      exact ⟨[], .nil, trivial, hcount, hroom, rfl⟩
    · rintro ⟨fields, hspells, -, -, -, hform⟩
      cases hspells
      exact congrArg Except.ok hform
  | cons piece pieces ih =>
    rw [List.foldlM_cons, Fallible.bind_eq_ok]
    constructor
    · rintro ⟨next, hround, hrest⟩
      obtain ⟨field, hspells, hfield, hmore, hfits, rfl⟩ := (decodeField_eq_ok hroom).mp hround
      have hlength : (form.take field).entries.length =
          form.entries.length + (applicationEntries [field]).length := List.length_append
      have hcount' : (form.take field).totalEntries ≤ limits.maxFormEntryCount := hmore
      have hroom' : (form.take field).entries.length ≤ entryCapacity := by omega
      obtain ⟨fields, hspelled, hacceptable, htotal, hentries, hform⟩ :=
        (ih hcount' hroom').mp hrest
      rw [FormState.take_isSome] at hacceptable
      refine ⟨field :: fields, .cons hspells hspelled, ⟨hfield, hacceptable⟩, ?_, ?_, hform⟩
      · have htake : (form.take field).totalEntries = form.totalEntries + 1 := rfl
        rw [List.length_cons]
        omega
      · rw [applicationEntries_cons, List.length_append]
        omega
    · rintro ⟨fields, hspelled, hacceptable, htotal, hentries, hform⟩
      cases hspelled with
      | @cons _ field _ fields hspells hspelled =>
        have hlength : (form.take field).entries.length =
            form.entries.length + (applicationEntries [field]).length := List.length_append
        rw [applicationEntries_cons, List.length_append] at hentries
        rw [List.length_cons] at htotal
        refine ⟨form.take field, (decodeField_eq_ok hroom).mpr
          ⟨field, hspells, hacceptable.1, by omega, by omega, rfl⟩, ?_⟩
        have htake : (form.take field).totalEntries = form.totalEntries + 1 := rfl
        have hcount' : (form.take field).totalEntries ≤ limits.maxFormEntryCount := by omega
        have hroom' : (form.take field).entries.length ≤ entryCapacity := by omega
        refine (ih hcount' hroom').mpr ⟨fields, hspelled, ?_, by omega, by omega, hform⟩
        rw [FormState.take_isSome]
        exact hacceptable.2

theorem foldl_take (form : FormState) {fields : List (Bytes × Bytes)}
    (h : Acceptable p limits form.event.isSome fields) :
    (fields.foldl FormState.take form).event = form.event.or (reservedValue fields) ∧
      (fields.foldl FormState.take form).entries = form.entries ++ applicationEntries fields := by
  induction fields generalizing form with
  | nil => exact ⟨(Option.or_none ..).symm, (List.append_nil _).symm⟩
  | cons field fields ih =>
    obtain ⟨hevent, hentries⟩ := ih (form.take field) (by
      rw [FormState.take_isSome]
      exact h.2)
    rw [List.foldl_cons, hevent, hentries, FormState.take_event h.1, applicationEntries_cons,
      ← List.append_assoc]
    exact ⟨rfl, rfl⟩

theorem map_eq_ok {ε α β : Type} {f : α → β} {x : Except ε α} {b : β} :
    x.map f = .ok b ↔ ∃ a, x = .ok a ∧ f a = b := by
  cases x with
  | error e => exact iff_of_false (fun h => by cases h) fun ⟨_, h, _⟩ => by cases h
  | ok a => simp [Except.map]

theorem decodeFields_grammar {body : Bytes} {form : DecodedForm} :
    (p.decodeFields limits entryCapacity ⟨0, none, []⟩ body).map
        (fun form => ⟨form.event.getD defaultEventName, form.entries⟩) = .ok form ↔
      ∃ fields, FormBody p limits entryCapacity body fields ∧
        form = ⟨(reservedValue fields).getD defaultEventName, applicationEntries fields⟩ := by
  rw [map_eq_ok]
  constructor
  · rintro ⟨state, hstate, rfl⟩
    by_cases hbody : body = []
    · rw [decodeFields, if_pos hbody] at hstate
      cases hstate
      exact ⟨[], ⟨.inl ⟨hbody, rfl⟩, trivial, Nat.zero_le _, Nat.zero_le _⟩, rfl⟩
    · rw [decodeFields_splitOn hbody, foldlM_decodeField (Nat.zero_le _) (Nat.zero_le _)] at hstate
      obtain ⟨fields, hspelled, hacceptable, hcount, hroom, rfl⟩ := hstate
      obtain ⟨hevent, hentries⟩ := foldl_take _ hacceptable
      rw [hevent, hentries]
      exact ⟨fields, ⟨.inr hspelled, hacceptable, by rwa [Nat.zero_add] at hcount,
        by rwa [List.length_nil, Nat.zero_add] at hroom⟩, rfl⟩
  · rintro ⟨fields, ⟨hspelled, hacceptable, hcount, hroom⟩, rfl⟩
    obtain ⟨hevent, hentries⟩ := foldl_take ⟨0, none, []⟩ hacceptable
    refine ⟨fields.foldl FormState.take ⟨0, none, []⟩, ?_, by rw [hevent, hentries]; rfl⟩
    rcases hspelled with ⟨rfl, rfl⟩ | hspelled
    · rw [decodeFields, if_pos rfl]
      rfl
    · have hbody : body ≠ [] := by
        rintro rfl
        cases hspelled with
        | cons hspells _ => exact hspells.ne_nil hacceptable.1.name rfl
      rw [decodeFields_splitOn hbody]
      exact (foldlM_decodeField (Nat.zero_le _) (Nat.zero_le _)).mpr ⟨fields, hspelled, hacceptable,
        by rwa [Nat.zero_add], by rwa [List.length_nil, Nat.zero_add], rfl⟩

/-- **What the decoder accepts.** -/
theorem decodeForm_eq_ok {textCapacity : ℕ} {body : Bytes} {form : DecodedForm} :
    p.decodeForm limits entryCapacity textCapacity body = .ok form ↔
      body.length ≤ limits.maxEncodedBodyBytes ∧ body.length ≤ textCapacity ∧
        ∃ fields, FormBody p limits entryCapacity body fields ∧
          form = ⟨(reservedValue fields).getD defaultEventName, applicationEntries fields⟩ := by
  rw [decodeForm]
  split_ifs with hguard
  · refine iff_of_false (fun h => by cases h) fun ⟨hbody, htext, _⟩ => ?_
    omega
  · rw [not_or, not_lt, not_lt] at hguard
    rw [decodeFields_grammar]
    exact ⟨fun h => ⟨hguard.1, hguard.2, h⟩, fun h => h.2.2⟩

/-! ## The text storage -/

/-- The loop of `decode_component`. -/
def scanComponent : Bytes → Bytes × Bool
  | [] => ([], true)
  | value :: rest =>
    if value = Percent.plusSign then
      (Percent.blank :: (scanComponent rest).1, (scanComponent rest).2)
    else if value = Percent.percentSign then
      match rest with
      | high :: low :: rest =>
        match Percent.hexValue high, Percent.hexValue low with
        | some m, some n =>
          if UInt8.ofNat (m * 16 + n) = 0 then ([], false)
          else (UInt8.ofNat (m * 16 + n) :: (scanComponent rest).1, (scanComponent rest).2)
        | _, _ => ([], false)
      | _ => ([], false)
    else if value = 0 then ([], false)
    else (value :: (scanComponent rest).1, (scanComponent rest).2)

variable (p limits entryCapacity)

/-- `decode_component`, with the bytes stored. -/
def storeComponent (source : Bytes) : Bytes × Option Bytes :=
  ((scanComponent source).1,
    if (scanComponent source).2 && p.codecUtf8Valid (scanComponent source).1 then
      some (scanComponent source).1
    else none)

def storeField (form : FormState) (field : Bytes) : Bytes × Except DecodeError FormState :=
  if field = [] then ([], .error .badRequest)
  else if form.totalEntries + 1 > limits.maxFormEntryCount then ([], .error .limitExceeded)
  else
    let halves := Percent.cut equalsSign field
    let name := p.storeComponent halves.1
    match name.2 with
    | none => (name.1, .error .badRequest)
    | some text =>
      if text = [] then (name.1, .error .badRequest)
      else
        let value := p.storeComponent (halves.2.getD [])
        match value.2 with
        | none => (name.1 ++ value.1, .error .badRequest)
        | some text' =>
          (name.1 ++ value.1, addField limits entryCapacity
            { form with totalEntries := form.totalEntries + 1 } text text')

def storeFields (form : FormState) (source : Bytes) : Bytes × Except DecodeError FormState :=
  if source = [] then ([], .ok form)
  else
    let round := p.storeField limits entryCapacity form (Percent.cut ampersand source).1
    match round.2 with
    | .error error => (round.1, .error error)
    | .ok form =>
      match _hrest : (Percent.cut ampersand source).2 with
      | none => (round.1, .ok form)
      | some [] => (round.1, .error .badRequest)
      | some rest => (round.1 ++ (storeFields form rest).1, (storeFields form rest).2)
  termination_by source.length
  decreasing_by all_goals exact Percent.cut_length _hrest

/-- `scxml_chttp_codec_decode_form`, with the bytes stored. -/
def storeForm (textCapacity : ℕ) (body : Bytes) : Bytes × Except DecodeError DecodedForm :=
  if body.length > limits.maxEncodedBodyBytes ∨ body.length > textCapacity then
    ([], .error .limitExceeded)
  else
    ((p.storeFields limits entryCapacity ⟨0, none, []⟩ body).1,
      (p.storeFields limits entryCapacity ⟨0, none, []⟩ body).2.map fun form =>
        ⟨form.event.getD defaultEventName, form.entries⟩)

variable {p limits entryCapacity}

theorem scanComponent_length (source : Bytes) :
    (scanComponent source).1.length ≤ source.length := by
  fun_induction scanComponent source with
  | case1 => exact Nat.le_refl _
  | case2 rest ih => exact Nat.succ_le_succ ih
  | case3 => exact Nat.zero_le _
  | case4 high low rest m n _ _ _ _ ih => exact (Nat.succ_le_succ ih).trans (by simp)
  | case5 => exact Nat.zero_le _
  | case6 => exact Nat.zero_le _
  | case7 => exact Nat.zero_le _
  | case8 value rest _ _ _ ih => exact Nat.succ_le_succ ih

theorem scan_cons {scanned : Bytes × Bool} {c : UInt8} (hc : c ≠ 0)
    (h : ∀ text, scanned.2 = true ∧ scanned.1 = text ↔
      Percent.decode source = some text ∧ 0 ∉ text) :
    scanned.2 = true ∧ c :: scanned.1 = text ↔
      (Percent.decode source).map (c :: ·) = some text ∧ 0 ∉ text := by
  constructor
  · rintro ⟨hend, rfl⟩
    obtain ⟨hdecode, hzero⟩ := (h scanned.1).mp ⟨hend, rfl⟩
    rw [hdecode]
    exact ⟨rfl, List.not_mem_cons_of_ne_of_not_mem hc.symm hzero⟩
  · rintro ⟨hmap, hzero⟩
    obtain ⟨tail, hdecode, rfl⟩ := Option.map_eq_some_iff.mp hmap
    obtain ⟨hend, rfl⟩ := (h tail).mpr ⟨hdecode, fun hmem => hzero (List.mem_cons_of_mem _ hmem)⟩
    exact ⟨hend, rfl⟩

theorem scan_zero : ¬ ((Percent.decode source).map (0 :: ·) = some text ∧ 0 ∉ text) := by
  rintro ⟨hmap, hzero⟩
  obtain ⟨tail, -, rfl⟩ := Option.map_eq_some_iff.mp hmap
  exact hzero List.mem_cons_self

theorem scanComponent_iff (source text : Bytes) :
    (scanComponent source).2 = true ∧ (scanComponent source).1 = text ↔
      Percent.decode source = some text ∧ 0 ∉ text := by
  fun_induction scanComponent source generalizing text with
  | case1 =>
    rw [Percent.decode, Option.some.injEq]
    refine ⟨?_, fun h => ⟨rfl, h.1⟩⟩
    rintro ⟨-, rfl⟩
    exact ⟨rfl, List.not_mem_nil⟩
  | case2 rest ih =>
    rw [Percent.decode_plus]
    exact scan_cons (by decide) ih
  | case3 high low rest m n hlow hhigh hzero =>
    rw [Percent.decode_pair hhigh hlow, hzero]
    exact iff_of_false (fun h => by cases h.1) scan_zero
  | case4 high low rest m n hlow hhigh hzero _ ih =>
    rw [Percent.decode_pair hhigh hlow]
    exact scan_cons hzero ih
  | case5 high low rest hdigits =>
    rw [Percent.decode_noDigits hdigits]
    exact iff_of_false (fun h => by cases h.1) fun h => by cases h.1
  | case6 rest hshort =>
    rw [Percent.decode_short hshort]
    exact iff_of_false (fun h => by cases h.1) fun h => by cases h.1
  | case7 rest hplus hpercent =>
    rw [Percent.decode_safe hplus hpercent]
    exact iff_of_false (fun h => by cases h.1) scan_zero
  | case8 value rest hplus hpercent hzero ih =>
    rw [Percent.decode_safe hplus hpercent]
    exact scan_cons hzero ih

theorem storeComponent_eq (source : Bytes) :
    (p.storeComponent source).2 = p.decodeComponent source := by
  refine Option.ext fun text => ?_
  rw [decodeComponent, Option.filter_eq_some_iff]
  have hscan := scanComponent_iff source text
  unfold storeComponent
  constructor
  · intro h
    split at h
    next hends =>
      obtain rfl := Option.some.inj h
      obtain ⟨hend, hvalid⟩ := Bool.and_eq_true_iff.mp hends
      obtain ⟨hdecode, hzero⟩ := hscan.mp ⟨hend, rfl⟩
      exact ⟨hdecode, by simp [hvalid, hzero]⟩
    next => cases h
  · rintro ⟨hdecode, hvalid⟩
    obtain ⟨hzero, hvalid⟩ := Bool.and_eq_true_iff.mp hvalid
    obtain ⟨hend, rfl⟩ := hscan.mpr ⟨hdecode, by simpa using hzero⟩
    exact if_pos (by rw [hend, hvalid, Bool.true_and])

theorem storeField_eq (form : FormState) (field : Bytes) :
    (p.storeField limits entryCapacity form field).2 =
      p.decodeField limits entryCapacity form field := by
  unfold storeField decodeField
  simp only [storeComponent_eq]
  cases p.decodeComponent (Percent.cut equalsSign field).1 with
  | none => split_ifs <;> rfl
  | some name =>
    dsimp only
    cases p.decodeComponent ((Percent.cut equalsSign field).2.getD []) with
    | none => split_ifs <;> rfl
    | some value => split_ifs <;> rfl

theorem cut_lengths (c : UInt8) (source : Bytes) :
    (Percent.cut c source).1.length + ((Percent.cut c source).2.getD []).length ≤
      source.length := by
  have hjoin := congrArg List.length (Percent.cut_join c source)
  rw [List.length_append] at hjoin
  cases hrest : (Percent.cut c source).2 with
  | none =>
    rw [hrest] at hjoin
    exact hjoin.le
  | some rest =>
    rw [hrest] at hjoin
    rw [← hjoin]
    simp

theorem storeField_length (form : FormState) (field : Bytes) :
    (p.storeField limits entryCapacity form field).1.length ≤ field.length := by
  have hcut := cut_lengths equalsSign field
  have hname := scanComponent_length (Percent.cut equalsSign field).1
  have hvalue := scanComponent_length ((Percent.cut equalsSign field).2.getD [])
  have hfirst : (p.storeComponent (Percent.cut equalsSign field).1).1.length ≤ field.length :=
    hname.trans (by omega)
  have hboth : ((p.storeComponent (Percent.cut equalsSign field).1).1 ++
      (p.storeComponent ((Percent.cut equalsSign field).2.getD [])).1).length ≤ field.length := by
    rw [List.length_append]
    exact (Nat.add_le_add hname hvalue).trans hcut
  unfold storeField
  dsimp only
  split_ifs
  · exact Nat.zero_le _
  · exact Nat.zero_le _
  · split
    · exact hfirst
    · split_ifs
      · exact hfirst
      · split <;> exact hboth

theorem storeFields_eq (form : FormState) (source : Bytes) :
    (p.storeFields limits entryCapacity form source).2 =
        p.decodeFields limits entryCapacity form source ∧
      (p.storeFields limits entryCapacity form source).1.length ≤ source.length := by
  have hcut := cut_lengths ampersand source
  have hround := @storeField_length p limits entryCapacity form (Percent.cut ampersand source).1
  by_cases hsource : source = []
  · rw [storeFields, decodeFields, if_pos hsource, if_pos hsource]
    exact ⟨rfl, Nat.zero_le _⟩
  · rw [decodeFields_splitOn hsource, storeFields, if_neg hsource, Percent.splitOn_cut,
      List.foldlM_cons, ← storeField_eq]
    generalize p.storeField limits entryCapacity form (Percent.cut ampersand source).1 = round
      at hround ⊢
    obtain ⟨stored, outcome⟩ := round
    dsimp only at hround ⊢
    cases outcome with
    | error error => exact ⟨rfl, by dsimp only; omega⟩
    | ok next =>
      dsimp only
      split
      next hrest =>
        rw [hrest]
        exact ⟨rfl, by dsimp only; omega⟩
      next hrest =>
        rw [hrest]
        exact ⟨rfl, by dsimp only; omega⟩
      next rest hnonempty hrest =>
        obtain ⟨houtcome, hlength⟩ := storeFields_eq next rest
        rw [decodeFields_splitOn hnonempty] at houtcome
        rw [hrest] at hcut ⊢
        refine ⟨houtcome, ?_⟩
        rw [Option.getD_some] at hcut
        rw [List.length_append]
        omega
  termination_by source.length
  decreasing_by exact Percent.cut_length (by assumption)

/-- **Main.** The decoder accepts the bodies of the grammar that pass the limits and no others, and
stores no more text than the body has bytes and the storage has room. -/
theorem decodeForm_grammar (p : Platform) (limits : CodecLimits) (entryCapacity textCapacity : ℕ)
    (body : Bytes) :
    (∀ form, p.decodeForm limits entryCapacity textCapacity body = .ok form ↔
      body.length ≤ limits.maxEncodedBodyBytes ∧ body.length ≤ textCapacity ∧
        ∃ fields, FormBody p limits entryCapacity body fields ∧
          form = ⟨(reservedValue fields).getD defaultEventName, applicationEntries fields⟩) ∧
    (p.storeForm limits entryCapacity textCapacity body).2 =
      p.decodeForm limits entryCapacity textCapacity body ∧
    (p.storeForm limits entryCapacity textCapacity body).1.length ≤
      min body.length textCapacity := by
  refine ⟨fun _ => decodeForm_eq_ok, ?_⟩
  obtain ⟨houtcome, hlength⟩ := @storeFields_eq p limits entryCapacity ⟨0, none, []⟩ body
  rw [storeForm, decodeForm]
  split_ifs with hguard
  · exact ⟨rfl, Nat.zero_le _⟩
  · exact ⟨congrArg (Except.map _) houtcome, by dsimp only; omega⟩

end Platform

end TurboScxml.Chttp
