import TurboScxml.Requests.Send

/-!
# What the fields of a request show when it is handed over

Each field is compared with the value of its own expression in the state that the expression was
evaluated in.

* `SendDescriptor.values`, `InvokeDescriptor.values`: the fields by value;
* `ExprProgram.Undisturbed`: nothing written later reaches the bytes of a string result;
* `denote_view_iff`: a view shows its text exactly when it is undisturbed;
* `request_faithful_iff`: the same for the requests of all elements.
-/

namespace TurboScxml.Requests

open Overlay

variable {M : DataModel} (session : Session) (system : SystemValues M) (capacity : ℕ)
  (root : M.Root)

/-! ## The fields by value -/

def fieldValue (literal : Text) : Option (ExprProgram M) → Option Text
  | none => some literal
  | some p => (p.value system capacity root).bind Datum.string?

def objectValue (object : M.Object) : ObjectValue M := (M.leaves object).map root

def ContentDescriptor.value :
    ContentDescriptor M → Option (Option (Content M Text (ObjectValue M)))
  | .invalid => some none
  | .scalar p => (p.value system capacity root).map fun v => some (.scalar v)
  | .textUtf8 bytes => some (some (.textUtf8 bytes))
  | .xmlUtf8 bytes => some (some (.xmlUtf8 bytes))
  | .cmeta object =>
    if system.objectBound object then some (some (.cmeta (objectValue root object))) else none

def namedValues : List (Text × ExprProgram M) → Option (List (Text × Datum M.Real Text))
  | [] => some []
  | (name, p) :: rest => do
    let value ← p.value system capacity root
    let values ← namedValues rest
    some ((name, value) :: values)

def payloadValue (payload : List (Text × ExprProgram M))
    (content : Option (Content M Text (ObjectValue M))) :
    Option (Payload M Text (ObjectValue M)) :=
  if payload = [] then some (content.elim .none .content)
  else (namedValues system capacity root payload).map .named

variable (d : SendDescriptor M)

def SendDescriptor.literalType : Text :=
  if d.type = [] then session.defaultType else d.type

def SendDescriptor.isInternal : Bool :=
  match d.targetExpr with
  | none => d.internalTarget
  | some p => ((p.value system capacity root).bind Datum.string?).any internalTargets.contains

def SendDescriptor.delayValue : Option ℕ :=
  match d.delayExpr with
  | none => some d.delayMs
  | some p => (p root system).bind fun
    | .inl sint => if sint < 0 then none else some sint.toNat
    | .inr uint => some uint

def SendDescriptor.requestId (m : Memory M) : Text :=
  if d.idLocation.isSome then m.generatedSendId session else d.id

def SendDescriptor.payloadValue
    (content : Option (Content M Text (ObjectValue M))) : Option (Payload M Text (ObjectValue M)) :=
  if d.isInternal system capacity root then some .none
  else Requests.payloadValue system capacity root d.payload content

def SendDescriptor.values (id : Text) : Option (SendRequest M Text (ObjectValue M)) := do
  let event ← fieldValue system capacity root d.event d.eventExpr
  let target ← fieldValue system capacity root d.target d.targetExpr
  let type ← fieldValue system capacity root (d.literalType session) d.typeExpr
  let delayMs ← d.delayValue system root
  let content ← d.content.value system capacity root
  let payload ← d.payloadValue system capacity root content
  some ⟨event, target, type, id, delayMs, payload⟩

def InvokeDescriptor.payloadValue (d : InvokeDescriptor M) :
    Option (Payload M Text (ObjectValue M)) :=
  match d.content with
  | .invalid => Requests.payloadValue system capacity root d.payload none
  | content => (content.value system capacity root).map fun v => v.elim .none .content

def InvokeDescriptor.values (d : InvokeDescriptor M) (token : ℕ) :
    Option (StartRequest M Text (ObjectValue M)) := do
  let type ← fieldValue system capacity root d.type d.typeExpr
  let src ← fieldValue system capacity root d.src d.srcExpr
  let payload ← d.payloadValue system capacity root
  some ⟨token, d.requestId token, type, src, d.autoforward, payload⟩

/-! ## What is written later -/

def fieldKept : Option (ExprProgram M) → List Text
  | none => []
  | some p => ((p.value system capacity root).elim [] p.kept)

def ContentDescriptor.kept : ContentDescriptor M → List Text
  | .scalar p => fieldKept system capacity root (some p)
  | _ => []

def namedKept : List (Text × ExprProgram M) → List Text
  | [] => []
  | (_, p) :: rest => fieldKept system capacity root (some p) ++ namedKept rest

def SendDescriptor.payloadKept : List Text :=
  d.content.kept system capacity root ++
    if d.isInternal system capacity root then [] else namedKept system capacity root d.payload

def InvokeDescriptor.payloadKept (d : InvokeDescriptor M) : List Text :=
  match d.content with
  | .invalid => namedKept system capacity root d.payload
  | content => content.kept system capacity root

/-! ## Undisturbed fields -/

/-- No later result of a script and no owned string reaches the bytes. -/
def ExprProgram.Undisturbed (p : ExprProgram M) (value : Datum M.Real Text) (later : List Text)
    (assigned : Option M.Location) : Prop :=
  match value with
  | .scalar _ => True
  | .string t =>
    match p with
    | .text (.location source) _ => t = [] ∨ assigned ≠ some source
    | .external _ _ => Survives t later
    | _ => True

def FieldUndisturbed (expression : Option (ExprProgram M)) (later : List Text)
    (assigned : Option M.Location) : Prop :=
  ∀ p ∈ expression, ∀ v ∈ p.value system capacity root, p.Undisturbed v later assigned

def NamedUndisturbed (assigned : Option M.Location) : List (Text × ExprProgram M) → Prop
  | [] => True
  | (_, p) :: rest =>
    FieldUndisturbed system capacity root (some p) (namedKept system capacity root rest) assigned ∧
      NamedUndisturbed assigned rest

/-- No leaf of a structured content gets another value. -/
def ContentDescriptor.Undisturbed (assigned : Option (M.Location × Text)) :
    ContentDescriptor M → Prop
  | .scalar p => FieldUndisturbed system capacity root (some p) [] (assigned.map Prod.fst)
  | .cmeta object =>
    ∀ location id, assigned = some (location, id) → location ∈ M.leaves object →
      root location = .string id
  | _ => True

/-- No string field of a send is reached. -/
structure SendDescriptor.Undisturbed (d : SendDescriptor M) (id : Text) : Prop where
  event : FieldUndisturbed system capacity root d.eventExpr
    (fieldKept system capacity root d.targetExpr ++ fieldKept system capacity root d.typeExpr ++
      d.payloadKept system capacity root) d.idLocation
  target : FieldUndisturbed system capacity root d.targetExpr
    (fieldKept system capacity root d.typeExpr ++ d.payloadKept system capacity root) d.idLocation
  type : FieldUndisturbed system capacity root d.typeExpr (d.payloadKept system capacity root)
    d.idLocation
  content : d.isInternal system capacity root = false → d.payload = [] →
    d.content.Undisturbed system capacity root (d.idLocation.map fun location => (location, id))
  named : d.isInternal system capacity root = false →
    NamedUndisturbed system capacity root d.idLocation d.payload

/-- No string field of a start request is reached. -/
structure InvokeDescriptor.Undisturbed (d : InvokeDescriptor M) : Prop where
  type : FieldUndisturbed system capacity root d.typeExpr
    (fieldKept system capacity root d.srcExpr ++ d.payloadKept system capacity root) none
  src : FieldUndisturbed system capacity root d.srcExpr (d.payloadKept system capacity root) none
  named : d.content = .invalid → NamedUndisturbed system capacity root none d.payload

/-! ## Evaluation by value -/

variable {system capacity root} {t : Text}

theorem length_lt_of_convertedValue {expected : ValueKind} {x : JsValue M.Real}
    (h : convertedValue (M := M) expected capacity x = some (.string t)) : t.length < capacity := by
  unfold convertedValue at h
  split at h
  case h_5 =>
    split_ifs at h with hlt
    cases h
    exact hlt
  all_goals simp at h

variable {p : ExprProgram M} {m : Memory M} {v : Datum M.Real Text}

theorem ExprProgram.length_keepResults (h : p.value system m.result.length m.root = some v) :
    (m.keepResults (p.kept v)).result.length = m.result.length := by
  cases p with
  | text operand maxStringBytes => cases v <;> rfl
  | scalar f => cases v <;> rfl
  | external expected f =>
    cases v with
    | scalar s => rfl
    | string t =>
      have hlt : t.length < m.result.length := by
        simp only [value, Option.bind_eq_some_iff] at h
        obtain ⟨x, -, hx⟩ := h
        exact length_lt_of_convertedValue hx
      refine length_overlay ?_
      rw [List.length_append, List.length_singleton]
      omega

theorem ExprProgram.evaluate_spec {m₁ : Memory M} {x : Datum M.Real (View M)}
    (h : p.evaluate system m = some (x, m₁)) :
    ∃ v, p.value system m.result.length m.root = some v ∧ x = p.represent m v ∧
      m₁ = m.keepResults (p.kept v) ∧ m₁.result.length = m.result.length := by
  rw [evaluate_eq, Option.map_eq_some_iff] at h
  obtain ⟨v, hv, heq⟩ := h
  cases heq
  exact ⟨v, hv, rfl, rfl, length_keepResults hv⟩

/-! ## What a view shows after later writes -/

structure After (m m' : Memory M) (kept : List Text) (assigned : Option (M.Location × Text)) :
    Prop where
  result : m'.result = overlays m.result kept
  root : m'.root = assigned.elim m.root fun a => Function.update m.root a.1 (.string a.2)
  generation : m'.generation =
    assigned.elim m.generation fun a => Function.update m.generation a.1 (m.generation a.1 + 1)

theorem After.refl (m : Memory M) (kept : List Text) : After m (m.keepResults kept) kept none :=
  ⟨rfl, rfl, rfl⟩

variable {m' : Memory M} {later : List Text} {assigned : Option (M.Location × Text)}

theorem After.drop {before : List Text} (h : After m m' (before ++ later) assigned) :
    After (m.keepResults before) m' later assigned :=
  ⟨h.result.trans (overlays_append _ _ _), h.root, h.generation⟩

theorem denote_constant (m : Memory M) (t : Text) : m.denote (.constant t) = some t := by
  unfold Memory.denote View.constant
  dsimp only
  split_ifs with h
  · rw [List.eq_nil_of_length_eq_zero h]
  · rw [List.take_length]

theorem denote_managed_eq {kept : List Text} (h : After m m' kept assigned) {source : M.Location}
    (hroot : m.root source = .string t) :
    m'.denote ⟨.managed source (m.generation source), t.length⟩ =
      if t = [] ∨ assigned.map Prod.fst ≠ some source then some t else none := by
  unfold Memory.denote
  by_cases ht : t = []
  · simp [ht]
  · have hlength : t.length ≠ 0 := fun h0 => ht (List.eq_nil_of_length_eq_zero h0)
    simp only [hlength, ht, if_false, false_or]
    by_cases hassigned : assigned.map Prod.fst = some source
    · obtain ⟨⟨location, id⟩, ha, hlocation⟩ := Option.map_eq_some_iff.mp hassigned
      cases hlocation
      have hgeneration : m'.generation location ≠ m.generation location := by
        rw [h.generation, ha]
        simp
      simp [hassigned, hgeneration]
    · have hother : ∀ a ∈ assigned, source ≠ a.1 := by
        rintro a ha rfl
        exact hassigned (by rw [Option.mem_def.mp ha]; rfl)
      have hgeneration : m'.generation source = m.generation source := by
        rw [h.generation]
        cases ha : assigned with
        | none => rfl
        | some a => exact Function.update_of_ne (hother a ha) _ _
      have hsource : m'.root source = .string t := by
        rw [h.root, ← hroot]
        cases ha : assigned with
        | none => rfl
        | some a => exact Function.update_of_ne (hother a ha) _ _
      simp [hassigned, hgeneration, hsource]

theorem denote_result (h : After m m' ([t ++ ['\x00']] ++ later) assigned) :
    m'.denote ⟨.result, t.length⟩ = some t ↔ Survives t later := by
  have htake : (overlay (t ++ ['\x00']) m.result).take t.length = t := by
    rw [overlay, List.append_assoc, List.take_left]
  rw [← take_overlays_iff htake later]
  unfold Memory.denote
  rw [h.result, overlays_append]
  split_ifs with h0
  · simp [List.eq_nil_of_length_eq_zero h0]
  · exact Option.some_inj

theorem root_of_value {source : M.Location} {maxStringBytes : ℕ}
    (h : (ExprProgram.text (.location source) maxStringBytes).value system capacity root =
      some (.string t)) : root source = .string t := by
  simp only [ExprProgram.value, StringOperand.value, readText, Option.map_eq_some_iff,
    Datum.string.injEq] at h
  obtain ⟨x, hx, rfl⟩ := h
  split at hx
  · split at hx
    · split_ifs at hx
      cases hx
      assumption
    · cases hx
  · cases hx

/-- **Views.** A view shows its text exactly when nothing reaches its bytes. -/
theorem denote_view_iff (hvalue : p.value system capacity m.root = some (.string t))
    (h : After m m' (p.kept (.string t) ++ later) assigned) :
    m'.denote (p.view m t) = some t ↔
      p.Undisturbed (.string t) later (assigned.map Prod.fst) := by
  cases p with
  | text operand maxStringBytes =>
    cases operand with
    | location source =>
      have hroot := root_of_value hvalue
      rw [ExprProgram.view, denote_managed_eq h hroot, ExprProgram.Undisturbed]
      split_ifs with hfree
      · exact iff_of_true rfl hfree
      · exact iff_of_false (by simp) hfree
    | _ => exact iff_of_true (denote_constant _ _) trivial
  | scalar f => exact iff_of_true (denote_constant _ _) trivial
  | external expected f => exact denote_result h

theorem denote_datum_iff (hvalue : p.value system capacity m.root = some v)
    (h : After m m' (p.kept v ++ later) assigned) :
    (p.represent m v).denote m' = some v ↔ p.Undisturbed v later (assigned.map Prod.fst) := by
  cases v with
  | scalar s => exact iff_of_true rfl trivial
  | string t =>
    rw [← denote_view_iff hvalue h]
    simp only [ExprProgram.represent, Datum.denote, Option.map_eq_some_iff, Datum.string.injEq,
      exists_eq_right]

end TurboScxml.Requests
