import TurboScxml.Requests.Fidelity

/-!
# Send elements and their literal and expression attributes

`analyze_send` of `scxml_analyze.c` and `emit_send_step` of `scxml_emit.c`: the checks of a `<send>`
and the descriptor it is compiled to. The bounds on counts and storage are left out.

* `Compiler`: the compilers of expressions and locations, which are parameters;
* `Replaces`: a literal attribute is replaced by an expression with its value;
* `Replaced`, `compile_replaced`: what that means for the descriptors.
-/

namespace TurboScxml.Requests

variable (M : DataModel)

/-- The compilers of `emit_send_step`, and the text functions. -/
structure Compiler where
  /-- `scxml_emit_compile_cmeta_value_program`. -/
  valueProgram : Text → ValueKind → Option (ExprProgram M)
  /-- The same for a `delayexpr`. -/
  delayProgram : Text → Option (DelayProgram M)
  /-- `scxml_emit_compile_cmeta_payload_token`. -/
  payloadToken : Text → Option (ExprProgram M)
  contentExpression : Text → Option (ContentDescriptor M)
  /-- `scxml_emit_compile_cmeta_owned_string_location`. -/
  ownedStringLocation : Text → Option M.Location
  /-- `emit_internal_payload_assignment`. -/
  internalAssignment : Text → Text → Option (M.Location × ExprProgram M)
  /-- `initialize_internal_payload_schema` admits the names. -/
  internalSchema : List Text → Bool
  internalPayloadFits : Bool
  /-- `scxml_time_parse_ms`. -/
  parseMs : Text → Option ℕ
  ncname : Text → Bool

structure Param where
  name : Text
  source : Text
  isLocation : Bool

inductive ContentElement
  | expression (source : Text)
  | textUtf8 (bytes : Text)
  | xmlUtf8 (bytes : Text)

structure SendElement where
  event : Option Text
  eventExpr : Option Text
  target : Option Text
  targetExpr : Option Text
  type : Option Text
  typeExpr : Option Text
  delay : Option Text
  delayExpr : Option Text
  id : Option Text
  idLocation : Option Text
  namelist : Option (List Text)
  params : List Param
  content : Option ContentElement

def payloadMaxEntries : ℕ := 64

variable {M}

def SendElement.payloadSources (e : SendElement) : List (Text × Text × Bool) :=
  (e.namelist.getD []).map (fun token => (token, token, true)) ++
    e.params.map fun param => (param.name, param.source, param.isLocation)

def SendElement.internalTarget (e : SendElement) : Bool :=
  internalTargets.contains (e.target.getD [])

variable (C : Compiler M)

def SendElement.admitted (e : SendElement) : Bool :=
  !(e.event.isSome && e.eventExpr.isSome) && e.event.all M.nmtoken &&
  !(e.target.isSome && e.targetExpr.isSome) && !(e.type.isSome && e.typeExpr.isSome) &&
  !(e.delay.isSome && e.delayExpr.isSome) && !(e.id.isSome && e.idLocation.isSome) &&
  e.idLocation.all (· ≠ []) && e.target.all (· ≠ []) && e.type.all (· ≠ []) && e.id.all C.ncname &&
  e.delay.all (fun text => (C.parseMs text).isSome) &&
  ((e.delay.bind C.parseMs).getD 0 == 0 || e.id.isSome || e.idLocation.isSome) &&
  (e.content.isSome || e.event.isSome || e.eventExpr.isSome || !e.payloadSources.isEmpty) &&
  !(e.content.isSome && (e.namelist.isSome || !e.params.isEmpty)) &&
  e.namelist.all (fun tokens => !tokens.isEmpty) &&
  decide (e.payloadSources.length ≤ payloadMaxEntries) &&
  !(e.content.isSome && e.internalTarget && (e.delay.isSome || e.delayExpr.isSome)) &&
  (e.payloadSources.isEmpty || !e.internalTarget || C.internalPayloadFits)

def Compiler.payloadProgram (entry : Text × Text × Bool) : Option (Text × ExprProgram M) :=
  (if entry.2.2 then C.payloadToken entry.2.1 else C.valueProgram entry.2.1 .invalid).map
    fun p => (entry.1, p)

def Compiler.content : Option ContentElement → Option (ContentDescriptor M)
  | none => some .invalid
  | some (.expression source) => C.contentExpression source
  | some (.textUtf8 bytes) => some (.textUtf8 bytes)
  | some (.xmlUtf8 bytes) => some (.xmlUtf8 bytes)

def optionally {α : Type} (compile : Text → Option α) : Option Text → Option (Option α)
  | none => some none
  | some source => (compile source).map some

/-- The assignments of an internal payload. -/
def SendElement.internalAssignments (e : SendElement) :
    Option (List (M.Location × ExprProgram M)) :=
  if e.internalTarget then
    (e.payloadSources.mapM fun entry => C.internalAssignment entry.1 entry.2.1).filter fun _ =>
      e.payloadSources.isEmpty || C.internalSchema (e.payloadSources.map (·.1))
  else some []

def literalEventId (session : Session) : Option Text → Option ℕ
  | none => some 0
  | some name => session.eventName name

/-- `analyze_send` and `emit_send_step`. -/
def SendElement.compile (session : Session) (e : SendElement) : Option (SendDescriptor M) := do
  let eventId ← (literalEventId session e.event).filter fun _ => e.admitted C
  let eventExpr ← optionally (C.valueProgram · .string) e.eventExpr
  let targetExpr ← optionally (C.valueProgram · .string) e.targetExpr
  let typeExpr ← optionally (C.valueProgram · .string) e.typeExpr
  let delayExpr ← optionally C.delayProgram e.delayExpr
  let idLocation ← optionally C.ownedStringLocation e.idLocation
  let payload ← e.payloadSources.mapM C.payloadProgram
  let internalAssignments ← e.internalAssignments C
  let content ← C.content e.content
  some
    { eventId := eventId
      event := e.event.getD []
      eventExpr := eventExpr
      target := e.target.getD []
      internalTarget := e.internalTarget
      targetExpr := targetExpr
      type := e.type.getD []
      typeExpr := typeExpr
      delayMs := (e.delay.bind C.parseMs).getD 0
      delayExpr := delayExpr
      content := content
      payload := payload
      internalAssignments := internalAssignments
      id := e.id.getD []
      idLocation := idLocation }

/-! ## Replaced attributes -/

variable (C : Compiler M) (session : Session) (system : SystemValues M) (capacity : ℕ)
  (root : M.Root)

def TextReplaces (literal₁ literal₂ expression₁ expression₂ : Option Text) : Prop :=
  (literal₂ = literal₁ ∧ expression₂ = expression₁) ∨
    ∃ text source p, literal₁ = some text ∧ literal₂ = none ∧ expression₂ = some source ∧
      C.valueProgram source .string = some p ∧ p.value system capacity root = some (.string text)

def DelayReplaces (delay₁ delay₂ expression₁ expression₂ : Option Text) : Prop :=
  (delay₂ = delay₁ ∧ expression₂ = expression₁) ∨
    ∃ text source p n, delay₁ = some text ∧ C.parseMs text = some n ∧ delay₂ = none ∧
      expression₂ = some source ∧ C.delayProgram source = some p ∧
      (p root system = some (.inl (n : ℤ)) ∨ p root system = some (.inr n))

/-- Some literal attributes of a `<send>` are replaced. -/
structure Replaces (e₁ e₂ : SendElement) : Prop where
  event : TextReplaces C system capacity root e₁.event e₂.event e₁.eventExpr e₂.eventExpr
  target : TextReplaces C system capacity root e₁.target e₂.target e₁.targetExpr e₂.targetExpr
  type : TextReplaces C system capacity root e₁.type e₂.type e₁.typeExpr e₂.typeExpr
  delay : DelayReplaces C system root e₁.delay e₂.delay e₁.delayExpr e₂.delayExpr
  id : e₂.id = e₁.id
  idLocation : e₂.idLocation = e₁.idLocation
  namelist : e₂.namelist = e₁.namelist
  params : e₂.params = e₁.params
  content : e₂.content = e₁.content

def FieldReplaced (literal : Text) (expression₁ expression₂ : Option (ExprProgram M)) : Prop :=
  expression₁ = none ∧
    ∃ p, expression₂ = some p ∧ p.value system capacity root = some (.string literal)

structure Replaced (d₁ d₂ : SendDescriptor M) : Prop where
  event : (d₂.eventId = d₁.eventId ∧ d₂.event = d₁.event ∧ d₂.eventExpr = d₁.eventExpr) ∨
    (FieldReplaced system capacity root d₁.event d₁.eventExpr d₂.eventExpr ∧
      M.nmtoken d₁.event = true ∧ session.eventName d₁.event = some d₁.eventId)
  target : (d₂.target = d₁.target ∧ d₂.internalTarget = d₁.internalTarget ∧
      d₂.targetExpr = d₁.targetExpr ∧ d₂.internalAssignments = d₁.internalAssignments) ∨
    (FieldReplaced system capacity root d₁.target d₁.targetExpr d₂.targetExpr ∧
      d₁.internalTarget = internalTargets.contains d₁.target ∧ d₂.internalAssignments = [])
  type : (d₂.type = d₁.type ∧ d₂.typeExpr = d₁.typeExpr) ∨
    (FieldReplaced system capacity root d₁.type d₁.typeExpr d₂.typeExpr ∧ d₁.type ≠ [])
  delay : d₂.delayValue system root = d₁.delayValue system root
  content : d₂.content = d₁.content
  payload : d₂.payload = d₁.payload
  id : d₂.id = d₁.id
  idLocation : d₂.idLocation = d₁.idLocation
  exclusive : d₁.content = .invalid ∨ d₁.payload = []

variable {C session system capacity root}

theorem optionally_eq_some {α : Type} {compile : Text → Option α} {source : Option Text}
    {result : Option α} (h : optionally compile source = some result) :
    result = source.bind compile ∧ result.isSome = source.isSome := by
  cases source with
  | none =>
    cases h
    exact ⟨rfl, rfl⟩
  | some text =>
    obtain ⟨x, hx, rfl⟩ := Option.map_eq_some_iff.mp h
    exact ⟨hx.symm, rfl⟩

structure Compiled (C : Compiler M) (session : Session) (e : SendElement) (d : SendDescriptor M) :
    Prop where
  admitted : e.admitted C = true
  eventId : literalEventId session e.event = some d.eventId
  event : d.event = e.event.getD []
  eventExpr : d.eventExpr = e.eventExpr.bind (C.valueProgram · .string)
  target : d.target = e.target.getD []
  internalTarget : d.internalTarget = e.internalTarget
  targetExpr : d.targetExpr = e.targetExpr.bind (C.valueProgram · .string)
  type : d.type = e.type.getD []
  typeExpr : d.typeExpr = e.typeExpr.bind (C.valueProgram · .string)
  delayMs : d.delayMs = (e.delay.bind C.parseMs).getD 0
  delayExpr : d.delayExpr = e.delayExpr.bind C.delayProgram
  content : C.content e.content = some d.content
  payload : e.payloadSources.mapM C.payloadProgram = some d.payload
  internalAssignments : e.internalAssignments C = some d.internalAssignments
  id : d.id = e.id.getD []
  idLocation : d.idLocation = e.idLocation.bind C.ownedStringLocation

theorem SendElement.compiled {e : SendElement} {d : SendDescriptor M}
    (h : e.compile C session = some d) : Compiled C session e d := by
  simp only [compile, Option.bind_eq_bind, Option.bind_eq_some_iff, Option.filter_eq_some_iff] at h
  obtain ⟨eventId, ⟨heventId, hadmitted⟩, eventExpr, hevent, targetExpr, htarget, typeExpr, htype,
    delayExpr, hdelay, idLocation, hid, payload, hpayload, assignments, hassignments, content,
    hcontent, heq⟩ := h
  cases heq
  exact ⟨hadmitted, heventId, rfl, (optionally_eq_some hevent).1, rfl, rfl,
    (optionally_eq_some htarget).1, rfl, (optionally_eq_some htype).1, rfl,
    (optionally_eq_some hdelay).1, hcontent, hpayload, hassignments, rfl,
    (optionally_eq_some hid).1⟩

theorem SendElement.admitted_spec {e : SendElement} (h : e.admitted C = true) :
    (e.event.isSome = true → e.eventExpr = none) ∧ (e.target.isSome = true → e.targetExpr = none) ∧
      (e.type.isSome = true → e.typeExpr = none) ∧ (e.delay.isSome = true → e.delayExpr = none) ∧
      (∀ name ∈ e.event, M.nmtoken name = true) ∧ (∀ type ∈ e.type, type ≠ []) ∧
      (e.content = none ∨ e.payloadSources = []) := by
  simp only [admitted, Bool.and_eq_true, Bool.not_eq_true', Bool.and_eq_false_iff,
    Option.isSome_eq_false_iff, Option.isNone_iff_eq_none, Option.all_eq_true, decide_eq_true_eq,
    Bool.or_eq_false_iff, Bool.not_eq_false', List.isEmpty_iff, and_assoc] at h
  obtain ⟨hevent, hnmtoken, htarget, htype, hdelay, -, -, -, htext, -, -, -, -, hcontent, -⟩ := h
  have hexcluded : ∀ {literal expression : Option Text}, literal = none ∨ expression = none →
      literal.isSome = true → expression = none := by
    rintro literal expression (rfl | rfl) hsome
    · cases hsome
    · rfl
  refine ⟨hexcluded hevent, hexcluded htarget, hexcluded htype, hexcluded hdelay, hnmtoken, htext,
    hcontent.imp_right ?_⟩
  rintro ⟨hnamelist, hparams⟩
  rw [payloadSources, hnamelist, hparams]
  rfl

theorem TextReplaces.fieldReplaced {literal₁ literal₂ source₁ source₂ : Option Text}
    (h : TextReplaces C system capacity root literal₁ literal₂ source₁ source₂)
    (hexcluded : literal₁.isSome = true → source₁ = none) :
    (literal₂ = literal₁ ∧ source₂ = source₁) ∨
      ∃ text, literal₁ = some text ∧ literal₂ = none ∧ source₂.isSome = true ∧
        FieldReplaced system capacity root (literal₁.getD [])
          (source₁.bind (C.valueProgram · .string)) (source₂.bind (C.valueProgram · .string)) := by
  refine h.imp_right ?_
  rintro ⟨text, source, p, rfl, rfl, rfl, hp, hvalue⟩
  refine ⟨text, rfl, rfl, rfl, ?_, p, hp, hvalue⟩
  rw [hexcluded rfl]
  rfl

/-- **Compilation.** The descriptors differ in replaced programs. -/
theorem compile_replaced {e₁ e₂ : SendElement} {d₁ d₂ : SendDescriptor M}
    (hreplaces : Replaces C system capacity root e₁ e₂) (h₁ : e₁.compile C session = some d₁)
    (h₂ : e₂.compile C session = some d₂) : Replaced session system capacity root d₁ d₂ := by
  have c₁ := SendElement.compiled h₁
  have c₂ := SendElement.compiled h₂
  obtain ⟨hxevent, hxtarget, hxtype, hxdelay, hnmtoken, htext, hexclusive⟩ :=
    SendElement.admitted_spec c₁.admitted
  have hsources : e₂.payloadSources = e₁.payloadSources := by
    rw [SendElement.payloadSources, hreplaces.namelist, hreplaces.params]
    rfl
  constructor
  case event =>
    obtain ⟨hliteral, hsource⟩ | ⟨text, hliteral, -, -, hfield⟩ :=
      hreplaces.event.fieldReplaced hxevent
    · refine .inl ⟨?_, by rw [c₂.event, c₁.event, hliteral],
        by rw [c₂.eventExpr, c₁.eventExpr, hsource]⟩
      have hid := c₂.eventId
      rw [hliteral, c₁.eventId, Option.some_inj] at hid
      exact hid.symm
    · have hid := c₁.eventId
      rw [hliteral] at hid
      refine .inr ⟨by rwa [c₁.event, c₁.eventExpr, c₂.eventExpr], ?_, ?_⟩
      · rw [c₁.event, hliteral]
        exact hnmtoken text hliteral
      · rw [c₁.event, hliteral]
        exact hid
  case target =>
    obtain ⟨hliteral, hsource⟩ | ⟨text, hliteral, hnone, -, hfield⟩ :=
      hreplaces.target.fieldReplaced hxtarget
    · have hinternal : e₂.internalTarget = e₁.internalTarget := by
        rw [SendElement.internalTarget, hliteral]
        rfl
      refine .inl ⟨by rw [c₂.target, c₁.target, hliteral],
        by rw [c₂.internalTarget, c₁.internalTarget, hinternal],
        by rw [c₂.targetExpr, c₁.targetExpr, hsource], ?_⟩
      have hassignments := c₂.internalAssignments
      rw [SendElement.internalAssignments, hinternal, hsources] at hassignments
      exact Option.some_inj.mp (hassignments.symm.trans c₁.internalAssignments)
    · refine .inr ⟨by rwa [c₁.target, c₁.targetExpr, c₂.targetExpr], ?_, ?_⟩
      · rw [c₁.internalTarget, c₁.target]
        rfl
      · have hinternal : e₂.internalTarget = false := by
          rw [SendElement.internalTarget, hnone]
          rfl
        have hassignments := c₂.internalAssignments
        rw [SendElement.internalAssignments, hinternal] at hassignments
        exact (Option.some_inj.mp hassignments).symm
  case type =>
    obtain ⟨hliteral, hsource⟩ | ⟨text, hliteral, -, -, hfield⟩ :=
      hreplaces.type.fieldReplaced hxtype
    · exact .inl ⟨by rw [c₂.type, c₁.type, hliteral], by rw [c₂.typeExpr, c₁.typeExpr, hsource]⟩
    · refine .inr ⟨by rwa [c₁.type, c₁.typeExpr, c₂.typeExpr], ?_⟩
      rw [c₁.type, hliteral]
      exact htext text hliteral
  case delay =>
    obtain ⟨hliteral, hsource⟩ | ⟨text, source, p, n, hliteral, hn, -, hsource, hp, hvalue⟩ :=
      hreplaces.delay
    · unfold SendDescriptor.delayValue
      rw [c₂.delayExpr, c₁.delayExpr, hsource, c₂.delayMs, c₁.delayMs, hliteral]
    · have hexpr₁ : d₁.delayExpr = none := by
        rw [c₁.delayExpr, hxdelay (by rw [hliteral]; rfl)]
        rfl
      have hexpr₂ : d₂.delayExpr = some p := by
        rw [c₂.delayExpr, hsource]
        exact hp
      have hms : d₁.delayMs = n := by
        rw [c₁.delayMs, hliteral, Option.bind_some, hn]
        rfl
      unfold SendDescriptor.delayValue
      rw [hexpr₁, hexpr₂, hms]
      obtain hvalue | hvalue := hvalue
      · simp [hvalue]
      · simp [hvalue]
  case content =>
    have hcontent := c₂.content
    rw [hreplaces.content, c₁.content, Option.some_inj] at hcontent
    exact hcontent.symm
  case payload =>
    have hpayload := c₂.payload
    rw [hsources, c₁.payload, Option.some_inj] at hpayload
    exact hpayload.symm
  case id => rw [c₂.id, c₁.id, hreplaces.id]
  case idLocation => rw [c₂.idLocation, c₁.idLocation, hreplaces.idLocation]
  case exclusive =>
    obtain hnone | hnil := hexclusive
    · have hcontent := c₁.content
      rw [hnone] at hcontent
      exact .inl (Option.some_inj.mp hcontent).symm
    · have hpayload := c₁.payload
      rw [hnil] at hpayload
      exact .inr (Option.some_inj.mp hpayload).symm

end TurboScxml.Requests
