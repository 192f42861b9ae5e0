import TurboScxml.Requests.Attributes
import TurboScxml.Requests.Handover

/-!
# Literal and expression attributes of a send agree

Two documents that differ in replaced attributes are executed in one state. The expressions leave
other texts in the result buffer, and nothing else is different before the dispatch.

* `SameState`, `Uniform`: an evaluation that does not depend on the result buffer;
* `Agreement`, `attributes_agree_iff`: when the outcomes are the same.
-/

namespace TurboScxml.Requests

open Overlay

variable {M : DataModel} {session : Session} {system : SystemValues M}

/-! ## Evaluations and the result buffer -/

/-- The memories differ in the result buffer only. -/
structure SameState (m₁ m₂ : Memory M) : Prop where
  root : m₁.root = m₂.root
  generation : m₁.generation = m₂.generation
  nextSendToken : m₁.nextSendToken = m₂.nextSendToken
  capacity : m₁.result.length = m₂.result.length

theorem SameState.symm {m₁ m₂ : Memory M} (h : SameState m₁ m₂) : SameState m₂ m₁ :=
  ⟨h.root.symm, h.generation.symm, h.nextSendToken.symm, h.capacity.symm⟩

/-- An evaluation does not depend on the result buffer. -/
def Uniform {α : Type} (f : Memory M → Option (α × Memory M)) : Prop :=
  ∀ (m₁ m₂ : Memory M) (x : α) (n₁ : Memory M), SameState m₁ m₂ → f m₁ = some (x, n₁) →
    ∃ k, n₁ = m₁.keepResults k ∧ f m₂ = some (x, m₂.keepResults k) ∧
      SameState (m₁.keepResults k) (m₂.keepResults k)

variable {α : Type}

theorem uniform_pure (x : α) : Uniform fun m : Memory M => some (x, m) := by
  intro m₁ m₂ y n₁ hsame h
  cases h
  exact ⟨[], rfl, rfl, hsame⟩

theorem uniform_none : Uniform fun _ : Memory M => (none : Option (α × Memory M)) :=
  fun _ _ _ _ _ h => by cases h

variable {β : Type} {f : Memory M → Option (α × Memory M)}

theorem Uniform.bind {g : α → Memory M → Option (β × Memory M)} (hf : Uniform f)
    (hg : ∀ x, Uniform (g x)) :
    Uniform fun m => (f m).bind fun r => g r.1 r.2 := by
  intro m₁ m₂ y n₁ hsame h
  obtain ⟨⟨x, a₁⟩, hx, hy⟩ := Option.bind_eq_some_iff.mp h
  obtain ⟨k, rfl, hx₂, hsame'⟩ := hf _ _ _ _ hsame hx
  obtain ⟨l, rfl, hy₂, hsame''⟩ := hg x _ _ _ _ hsame' hy
  simp only [← Memory.keepResults_append] at hsame'' hy₂ ⊢
  refine ⟨k ++ l, rfl, ?_, hsame''⟩
  simp only [hx₂, Option.bind_some, hy₂]

theorem Uniform.map (hf : Uniform f) (g : α → β) :
    Uniform fun m => (f m).map fun r => (g r.1, r.2) := by
  intro m₁ m₂ y n₁ hsame h
  obtain ⟨⟨x, a₁⟩, hx, heq⟩ := Option.map_eq_some_iff.mp h
  cases heq
  obtain ⟨k, rfl, hx₂, hsame'⟩ := hf _ _ _ _ hsame hx
  exact ⟨k, rfl, by simp only [hx₂, Option.map_some], hsame'⟩

theorem uniform_evaluate (p : ExprProgram M) : Uniform fun m => p.evaluate system m := by
  intro m₁ m₂ x n₁ hsame h
  obtain ⟨v, hv, rfl, rfl, hcapacity⟩ := ExprProgram.evaluate_spec h
  have hv₂ : p.value system m₂.result.length m₂.root = some v := by
    rw [← hsame.capacity, ← hsame.root, hv]
  have hview : p.represent m₂ v = p.represent m₁ v := by
    cases v with
    | scalar s => rfl
    | string t =>
      unfold ExprProgram.represent ExprProgram.view
      rw [hsame.generation]
  refine ⟨p.kept v, rfl, ?_, hsame.root, hsame.generation, hsame.nextSendToken, ?_⟩
  · simp only [ExprProgram.evaluate_eq, hv₂, Option.map_some, hview]
  · rw [hcapacity, ExprProgram.length_keepResults hv₂, hsame.capacity]

theorem uniform_content (content : ContentDescriptor M) :
    Uniform fun m => content.materialize system m := by
  cases content with
  | invalid => exact uniform_pure none
  | scalar p => exact (uniform_evaluate p).map fun v => some (Content.scalar v)
  | textUtf8 bytes => exact uniform_pure (some (Content.textUtf8 bytes))
  | xmlUtf8 bytes => exact uniform_pure (some (Content.xmlUtf8 bytes))
  | cmeta object =>
    dsimp only [ContentDescriptor.materialize]
    split_ifs
    · exact uniform_pure (some (Content.cmeta object))
    · exact uniform_none

theorem uniform_named (payload : List (Text × ExprProgram M)) :
    Uniform fun m => materializeNamed system payload m := by
  induction payload with
  | nil => exact uniform_pure []
  | cons entry rest ih =>
    have hstep : (fun m => materializeNamed system (entry :: rest) m) = fun m =>
        (entry.2.evaluate system m).bind fun r =>
          (materializeNamed system rest r.2).map fun s => ((entry.1, r.1) :: s.1, s.2) := by
      funext m
      simp only [materializeNamed, Option.bind_eq_bind, Option.map_eq_bind]
      rfl
    rw [hstep]
    exact (uniform_evaluate entry.2).bind fun x => ih.map fun xs => (entry.1, x) :: xs

/-! ## The attributes by value and the rest -/

structure Heads where
  eventId : ℕ
  event : Text
  target : Text
  internalTarget : Bool
  type : Text
  delayMs : ℕ

def ExprProgram.textValue (p : ExprProgram M) (system : SystemValues M) (capacity : ℕ)
    (root : M.Root) : Option Text :=
  (p.value system capacity root).bind Datum.string?

variable (d : SendDescriptor M)

def SendDescriptor.eventValue (session : Session) (system : SystemValues M)
    (capacity : ℕ) (root : M.Root) : Option (ℕ × Text) :=
  match d.eventExpr with
  | none => some (d.eventId, d.event)
  | some p =>
    if session.present then (p.textValue system capacity root).bind fun t =>
      ((session.eventName t).filter fun _ => M.nmtoken t).map fun id => (id, t)
    else none

def SendDescriptor.targetValue (system : SystemValues M) (capacity : ℕ)
    (root : M.Root) : Option (Text × Bool) :=
  match d.targetExpr with
  | none => some (d.target, d.internalTarget)
  | some p => (p.textValue system capacity root).map fun t => (t, internalTargets.contains t)

def SendDescriptor.typeValue (session : Session) (system : SystemValues M)
    (capacity : ℕ) (root : M.Root) : Option Text :=
  match d.typeExpr with
  | none => some (d.literalType session)
  | some p => (p.textValue system capacity root).filter (· ≠ [])

def SendDescriptor.heads (session : Session) (system : SystemValues M)
    (capacity : ℕ) (root : M.Root) : Option Heads := do
  let (eventId, event) ← d.eventValue session system capacity root
  let (target, internalTarget) ← d.targetValue system capacity root
  let type ← d.typeValue session system capacity root
  let delayMs ← d.delayValue system root
  some ⟨eventId, event, target, internalTarget, type, delayMs⟩

def SendDescriptor.headsKept (system : SystemValues M) (capacity : ℕ) (root : M.Root) : List Text :=
  fieldKept system capacity root d.eventExpr ++
    (fieldKept system capacity root d.targetExpr ++ fieldKept system capacity root d.typeExpr)

def SendDescriptor.tail (session : Session) (system : SystemValues M) (v : Heads) (m : Memory M) :
    Option ((Option (Content M (View M) M.Object) × Payload M (View M) M.Object) × Memory M) :=
  (d.content.materialize system m).bind fun r =>
    (d.materializePayload session system v.internalTarget r.1 r.2).bind fun s =>
      if r.1.isSome && v.internalTarget && v.delayMs != 0 then none else some ((r.1, s.1), s.2)

theorem uniform_tail (v : Heads) : Uniform fun m => d.tail session system v m := by
  refine Uniform.bind (g := fun c m =>
    (d.materializePayload session system v.internalTarget c m).bind fun s =>
    if c.isSome && v.internalTarget && v.delayMs != 0 then none else some ((c, s.1), s.2))
    (uniform_content d.content) fun c => ?_
  refine Uniform.bind (f := fun m => d.materializePayload session system v.internalTarget c m)
    (g := fun x m => if c.isSome && v.internalTarget && v.delayMs != 0 then none
      else some ((c, x), m)) ?_ fun x => ?_
  · unfold SendDescriptor.materializePayload materializePayload
    split_ifs
    · exact uniform_pure _
    · exact uniform_pure _
    · exact (uniform_named d.payload).map Payload.named
    · exact uniform_none
  · split_ifs
    · exact uniform_none
    · exact uniform_pure _

theorem ExprProgram.evaluateString_eq (p : ExprProgram M) (m : Memory M) :
    p.evaluateString system m =
      (p.textValue system m.result.length m.root).map fun t =>
        ((p.view m t, t), m.keepResults (p.kept (.string t))) := by
  unfold evaluateString textValue
  rw [evaluate_eq]
  cases hv : p.value system m.result.length m.root with
  | none => rfl
  | some v =>
    cases v with
    | scalar s => rfl
    | string t =>
      simp only [Option.map_some, Option.bind_eq_bind, Option.bind_some, represent, Datum.string?,
        denote_view_keepResults hv]

variable {p : ExprProgram M} {capacity : ℕ} {t : Text}

theorem ExprProgram.value_of_textValue {root : M.Root}
    (h : p.textValue system capacity root = some t) :
    p.value system capacity root = some (.string t) := by
  have hfield : fieldValue system capacity root [] (some p) = some t := h
  exact fieldValue_eq_some hfield

theorem fieldKept_of_textValue {root : M.Root} (h : p.textValue system capacity root = some t) :
    fieldKept system capacity root (some p) = p.kept (.string t) := by
  rw [fieldKept, ExprProgram.value_of_textValue h]
  rfl

theorem length_fieldKept (system : SystemValues M) (m : Memory M)
    (expression : Option (ExprProgram M)) :
    (m.keepResults (fieldKept system m.result.length m.root expression)).result.length =
      m.result.length := by
  unfold fieldKept
  cases expression with
  | none => rfl
  | some p =>
    dsimp only
    cases hv : p.value system m.result.length m.root with
    | none => rfl
    | some v => exact ExprProgram.length_keepResults hv

theorem SendDescriptor.materializeEvent_eq (m : Memory M) : d.materializeEvent session system m =
      (d.eventValue session system m.result.length m.root).map fun r =>
        ((r.1, fieldView m r.2 d.eventExpr),
          m.keepResults (fieldKept system m.result.length m.root d.eventExpr)) := by
  unfold materializeEvent eventValue
  cases d.eventExpr with
  | none => rfl
  | some p =>
    simp only [ExprProgram.evaluateString_eq]
    split_ifs
    case neg => rfl
    cases ht : p.textValue system m.result.length m.root with
    | none => rfl
    | some t =>
      rw [fieldKept_of_textValue ht]
      simp only [Option.map_some, Option.bind_eq_bind, Option.bind_some]
      cases (session.eventName t).filter fun _ => M.nmtoken t <;> rfl

theorem SendDescriptor.materializeTarget_eq (m : Memory M) : d.materializeTarget system m =
      (d.targetValue system m.result.length m.root).map fun r =>
        ((fieldView m r.1 d.targetExpr, r.2),
          m.keepResults (fieldKept system m.result.length m.root d.targetExpr)) := by
  unfold materializeTarget targetValue
  cases d.targetExpr with
  | none => rfl
  | some p =>
    simp only [ExprProgram.evaluateString_eq]
    cases ht : p.textValue system m.result.length m.root with
    | none => rfl
    | some t =>
      rw [fieldKept_of_textValue ht]
      rfl

theorem ExprProgram.view_size (p : ExprProgram M) (m : Memory M) (t : Text) :
    (p.view m t).size = t.length := by
  cases p with
  | text operand maxStringBytes => cases operand <;> rfl
  | scalar f => rfl
  | external expected f => rfl

theorem SendDescriptor.materializeType_eq (m : Memory M) : d.materializeType session system m =
      (d.typeValue session system m.result.length m.root).map fun t =>
        (fieldView m t d.typeExpr,
          m.keepResults (fieldKept system m.result.length m.root d.typeExpr)) := by
  unfold materializeType typeValue
  cases d.typeExpr with
  | none => rfl
  | some p =>
    simp only [ExprProgram.evaluateString_eq]
    cases ht : p.textValue system m.result.length m.root with
    | none => rfl
    | some t =>
      rw [fieldKept_of_textValue ht]
      simp only [Option.map_some, Option.bind_eq_bind, Option.bind_some, ExprProgram.view_size,
        Option.filter_some, decide_not, Bool.not_eq_true', decide_eq_false_iff_not]
      by_cases hnil : t = []
      · simp [hnil]
      · have hlength : t.length ≠ 0 := fun h0 => hnil (List.eq_nil_of_length_eq_zero h0)
        simp only [hlength, hnil, if_false, not_false_eq_true, if_true, Option.map_some]
        rfl

def Heads.materialized (v : Heads) (m : Memory M) (d : SendDescriptor M)
    (content : Option (Content M (View M) M.Object)) (payload : Payload M (View M) M.Object) :
    Materialized M :=
  ⟨v.eventId, fieldView m v.event d.eventExpr, fieldView m v.target d.targetExpr,
    v.internalTarget, fieldView m v.type d.typeExpr, v.delayMs, content, payload⟩

/-- **The order of evaluation.** The attributes come first. -/
theorem SendDescriptor.materialize_eq (session : Session) (system : SystemValues M)
    (d : SendDescriptor M) (m : Memory M) :
    d.materialize session system m =
      (d.heads session system m.result.length m.root).bind fun v =>
        (d.tail session system v (m.keepResults (d.headsKept system m.result.length m.root))).map fun r =>
          (v.materialized m d r.1.1 r.1.2, r.2) := by
  unfold materialize heads
  rw [materializeEvent_eq]
  cases d.eventValue session system m.result.length m.root with
  | none => rfl
  | some ev =>
    simp only [Option.map_some, Option.bind_eq_bind, Option.bind_some, materializeTarget_eq,
      length_fieldKept, Memory.keepResults_root]
    cases d.targetValue system m.result.length m.root with
    | none => rfl
    | some tv =>
      have hcapacity : (m.keepResults (fieldKept system m.result.length m.root d.eventExpr ++
          fieldKept system m.result.length m.root d.targetExpr)).result.length =
            m.result.length := by
        have h := length_fieldKept system
          (m.keepResults (fieldKept system m.result.length m.root d.eventExpr)) d.targetExpr
        simp only [length_fieldKept, Memory.keepResults_root] at h
        rw [Memory.keepResults_append]
        exact h
      simp only [Option.map_some, Option.bind_some, materializeType_eq, hcapacity,
        Memory.keepResults_root, ← Memory.keepResults_append]
      cases d.typeValue session system m.result.length m.root with
      | none => rfl
      | some ty =>
        have hdelay : ∀ k, d.materializeDelay system (m.keepResults k) =
            d.delayValue system m.root := fun _ => rfl
        simp only [Option.map_some, Option.bind_some, hdelay]
        cases d.delayValue system m.root with
        | none => rfl
        | some delayMs =>
          simp only [Option.bind_some, tail, headsKept, List.append_assoc]
          cases d.content.materialize system _ with
          | none => rfl
          | some r =>
            simp only [Option.bind_some]
            cases d.materializePayload session system tv.2 r.1 r.2 with
            | none => rfl
            | some s =>
              split_ifs <;> rfl

variable {d₁ d₂ : SendDescriptor M}

/-- **Equal values.** Replaced literals leave the values. -/
theorem Replaced.heads_eq {root : M.Root} (h : Replaced session system capacity root d₁ d₂)
    (hpresent : session.present = true ∨ d₂.eventExpr = d₁.eventExpr) :
    d₂.heads session system capacity root = d₁.heads session system capacity root := by
  have hevent : d₂.eventValue session system capacity root =
      d₁.eventValue session system capacity root := by
    unfold SendDescriptor.eventValue
    obtain ⟨hid, htext, hexpr⟩ | ⟨⟨hnone, p, hp, hvalue⟩, hnmtoken, hname⟩ := h.event
    · rw [hid, htext, hexpr]
    · have htext : p.textValue system capacity root = some d₁.event := by
        rw [ExprProgram.textValue, hvalue]
        rfl
      have hsession : session.present = true := by
        refine hpresent.resolve_right fun heq => ?_
        rw [hnone, hp] at heq
        cases heq
      rw [hnone, hp]
      simp [htext, hname, hnmtoken, hsession]
  have htarget : d₂.targetValue system capacity root = d₁.targetValue system capacity root := by
    unfold SendDescriptor.targetValue
    obtain ⟨htext, hinternal, hexpr, -⟩ | ⟨⟨hnone, p, hp, hvalue⟩, hinternal, -⟩ := h.target
    · rw [htext, hinternal, hexpr]
    · have htext : p.textValue system capacity root = some d₁.target := by
        rw [ExprProgram.textValue, hvalue]
        rfl
      rw [hnone, hp]
      simp [htext, hinternal]
  have htype : d₂.typeValue session system capacity root =
      d₁.typeValue session system capacity root := by
    unfold SendDescriptor.typeValue SendDescriptor.literalType
    obtain ⟨htext, hexpr⟩ | ⟨⟨hnone, p, hp, hvalue⟩, hne⟩ := h.type
    · rw [htext, hexpr]
    · have htext : p.textValue system capacity root = some d₁.type := by
        rw [ExprProgram.textValue, hvalue]
        rfl
      rw [hnone, hp]
      simp [htext, hne]
  unfold SendDescriptor.heads
  rw [hevent, htarget, htype, h.delay]

/-! ## What results show later -/

/-- What a string result shows after later writes. -/
def ExprProgram.shown (p : ExprProgram M) (t : Text) (later : List Text)
    (assigned : Option M.Location) : Option Text :=
  match p with
  | .text (.location source) _ => if t = [] ∨ assigned ≠ some source then some t else none
  | .external _ _ => some ((overlays t later).take t.length)
  | _ => some t

theorem take_overlays_congr {b : Text} (h : b.take t.length = t) (later : List Text) :
    (overlays b later).take t.length = (overlays t later).take t.length := by
  refine List.ext_getElem? fun k => ?_
  by_cases hk : k < t.length
  · rw [List.getElem?_take_of_lt hk, List.getElem?_take_of_lt hk, getElem?_overlays,
      getElem?_overlays, ← List.getElem?_take_of_lt hk, h]
  · have hle : t.length ≤ k := by omega
    rw [List.getElem?_take_eq_none hle, List.getElem?_take_eq_none hle]

variable {m : Memory M} {later : List Text} {assigned : Option (M.Location × Text)}

/-- **Later looks.** What the view of a string result shows. -/
theorem denote_view_eq_shown {m' : Memory M}
    (hvalue : p.value system capacity m.root = some (.string t))
    (h : After m m' (p.kept (.string t) ++ later) assigned) :
    m'.denote (p.view m t) = p.shown t later (assigned.map Prod.fst) := by
  cases p with
  | text operand maxStringBytes =>
    cases operand with
    | location source => exact denote_managed_eq h (root_of_value hvalue)
    | _ => exact denote_constant _ _
  | scalar f => exact denote_constant _ _
  | external expected f =>
    have htake : (overlay (t ++ ['\x00']) m.result).take t.length = t := by
      rw [overlay, List.append_assoc, List.take_left]
    have hresult : m'.result.take t.length = (overlays t later).take t.length := by
      rw [h.result, overlays_append]
      exact take_overlays_congr htake later
    unfold Memory.denote ExprProgram.view ExprProgram.shown
    dsimp only
    rw [hresult]
    split_ifs with h0
    · rw [h0, List.take_zero]
    · rfl

/-! ## Outcomes as they are seen -/

def Datum.seen (m : Memory M) : Datum M.Real (View M) → Datum M.Real (Option Text)
  | .scalar value => .scalar value
  | .string view => .string (m.denote view)

def Content.seen (m : Memory M) :
    Content M (View M) M.Object → Content M (Option Text) (ObjectValue M)
  | .scalar value => .scalar (value.seen m)
  | .textUtf8 bytes => .textUtf8 bytes
  | .xmlUtf8 bytes => .xmlUtf8 bytes
  | .cmeta object => .cmeta (m.object object)

def Payload.seen (m : Memory M) :
    Payload M (View M) M.Object → Payload M (Option Text) (ObjectValue M)
  | .none => .none
  | .content c => .content (c.seen m)
  | .named entries => .named (entries.map fun entry => (entry.1, entry.2.seen m))

def SendRequest.seen (m : Memory M) (r : SendRequest M (View M) M.Object) :
    SendRequest M (Option Text) (ObjectValue M) :=
  ⟨m.denote r.event, m.denote r.target, m.denote r.type, m.denote r.id, r.delayMs,
    r.payload.seen m⟩

variable (M) in
inductive Observed
  | raise (event : ℕ) (data : Option (EventData M))
  | request (request : SendRequest M (Option Text) (ObjectValue M))
  | errorExecution
  | fatal

def SendOutcome.seen (m : Memory M) : SendOutcome M → Observed M
  | .raise event data => .raise event data
  | .request r => .request (r.seen m)
  | .errorExecution => .errorExecution
  | .fatal => .fatal

def observe (run : SendOutcome M × Memory M) : Observed M × M.Root × ℕ :=
  (run.1.seen run.2, run.2.root, run.2.nextSendToken)

structure SameAfter (a₁ a₂ n₁ n₂ : Memory M) (later : List Text)
    (assigned : Option (M.Location × Text)) : Prop where
  same : SameState a₁ a₂
  after₁ : After a₁ n₁ later assigned
  after₂ : After a₂ n₂ later assigned

variable {a₁ a₂ n₁ n₂ : Memory M}

theorem SameAfter.root (h : SameAfter a₁ a₂ n₁ n₂ later assigned) : n₁.root = n₂.root := by
  rw [h.after₁.root, h.after₂.root, h.same.root]

theorem Datum.seen_congr {v : Datum M.Real Text}
    (hvalue : p.value system a₁.result.length a₁.root = some v)
    (h : SameAfter a₁ a₂ n₁ n₂ (p.kept v ++ later) assigned) :
    (p.represent a₁ v).seen n₁ = (p.represent a₁ v).seen n₂ := by
  cases v with
  | scalar s => rfl
  | string t =>
    have hvalue₂ : p.value system a₂.result.length a₂.root = some (.string t) := by
      rw [← h.same.capacity, ← h.same.root, hvalue]
    have hview : p.view a₁ t = p.view a₂ t := by
      unfold ExprProgram.view
      rw [h.same.generation]
    have h₁ := denote_view_eq_shown hvalue h.after₁
    have h₂ := denote_view_eq_shown hvalue₂ h.after₂
    rw [← hview] at h₂
    simp only [ExprProgram.represent, Datum.seen, h₁, h₂]

variable {b₁ : Memory M} {c : Option (Content M (View M) M.Object)}

theorem ContentDescriptor.seen_congr {content : ContentDescriptor M}
    (hc : content.materialize system a₁ = some (c, b₁))
    (h : SameAfter a₁ a₂ n₁ n₂ (content.kept system a₁.result.length a₁.root ++ later) assigned) :
    ∀ x ∈ c, x.seen n₁ = x.seen n₂ := by
  cases content with
  | scalar p =>
    simp only [materialize, Option.map_eq_some_iff] at hc
    obtain ⟨⟨x, m₂⟩, hx, heq⟩ := hc
    cases heq
    obtain ⟨v, hv, rfl, -, -⟩ := ExprProgram.evaluate_spec hx
    have hkept : (ContentDescriptor.scalar p).kept system a₁.result.length a₁.root = p.kept v := by
      rw [kept, fieldKept, hv]
      rfl
    rw [hkept] at h
    intro y hy
    cases Option.mem_def.mp hy
    rw [Content.seen, Datum.seen_congr hv h, Content.seen]
  | cmeta object =>
    simp only [materialize] at hc
    split_ifs at hc
    cases hc
    intro y hy
    cases Option.mem_def.mp hy
    rw [Content.seen, Content.seen, Memory.object, Memory.object, h.root]
  | _ =>
    cases hc
    intro y hy
    cases Option.mem_def.mp hy
    all_goals rfl

theorem seen_named_congr (payload : List (Text × ExprProgram M)) :
    ∀ {a₁ a₂ b₁ n₁ n₂ : Memory M} {entries} {assigned : Option (M.Location × Text)},
      materializeNamed system payload a₁ = some (entries, b₁) →
      SameAfter a₁ a₂ n₁ n₂ (namedKept system a₁.result.length a₁.root payload) assigned →
      entries.map (fun entry => (entry.1, entry.2.seen n₁)) =
        entries.map (fun entry => (entry.1, entry.2.seen n₂)) := by
  induction payload with
  | nil =>
    intro a₁ a₂ b₁ n₁ n₂ entries assigned h _
    cases h
    rfl
  | cons entry rest ih =>
    obtain ⟨name, p⟩ := entry
    intro a₁ a₂ b₁ n₁ n₂ entries assigned h hafter
    simp only [materializeNamed, Option.bind_eq_bind, Option.bind_eq_some_iff] at h
    obtain ⟨⟨x, m₂⟩, hx, ⟨xs, m₃⟩, hxs, heq⟩ := h
    cases heq
    obtain ⟨v, hv, rfl, rfl, hcapacity⟩ := ExprProgram.evaluate_spec hx
    have hkept : namedKept system a₁.result.length a₁.root ((name, p) :: rest) =
        p.kept v ++ namedKept system a₁.result.length a₁.root rest := by
      rw [namedKept, fieldKept, hv]
      rfl
    rw [hkept] at hafter
    have hv₂ : p.value system a₂.result.length a₂.root = some v := by
      rw [← hafter.same.capacity, ← hafter.same.root, hv]
    have hrest : SameAfter (a₁.keepResults (p.kept v)) (a₂.keepResults (p.kept v)) n₁ n₂
        (namedKept system (a₁.keepResults (p.kept v)).result.length
          (a₁.keepResults (p.kept v)).root rest) assigned := by
      rw [hcapacity, Memory.keepResults_root]
      refine ⟨⟨hafter.same.root, hafter.same.generation, hafter.same.nextSendToken, ?_⟩,
        hafter.after₁.drop, hafter.after₂.drop⟩
      rw [hcapacity, ExprProgram.length_keepResults hv₂, hafter.same.capacity]
    rw [List.map_cons, List.map_cons, ih hxs hrest, Datum.seen_congr hv hafter]

theorem Content.attach_congr {c : Content M (View M) M.Object} (hseen : c.seen n₁ = c.seen n₂)
    (hroot : n₁.root = n₂.root) : c.attach n₁ = c.attach n₂ := by
  cases c with
  | scalar value =>
    cases value with
    | scalar s => rfl
    | string view =>
      have hdenote : n₁.denote view = n₂.denote view := by
        simpa only [Content.seen, Datum.seen, Content.scalar.injEq, Datum.string.injEq] using hseen
      rw [attach, attach, hdenote]
  | textUtf8 bytes => rfl
  | xmlUtf8 bytes => rfl
  | cmeta object => rw [attach, attach, hroot]

variable {v : Heads} {d : SendDescriptor M} {x : Payload M (View M) M.Object}

theorem SendDescriptor.tail_spec
    (hinternal : d.isInternal system a₁.result.length a₁.root = v.internalTarget)
    (h : d.tail session system v a₁ = some ((c, x), b₁)) :
    b₁ = a₁.keepResults (d.payloadKept system a₁.result.length a₁.root) ∧
      ∀ {a₂ n₁ n₂ : Memory M} {assigned : Option (M.Location × Text)},
        SameAfter a₁ a₂ n₁ n₂ (d.payloadKept system a₁.result.length a₁.root) assigned →
          (∀ y ∈ c, y.seen n₁ = y.seen n₂) ∧ x.seen n₁ = x.seen n₂ := by
  simp only [tail, Option.bind_eq_some_iff] at h
  obtain ⟨⟨c', m₂⟩, hc, ⟨x', m₃⟩, hx, heq⟩ := h
  split_ifs at heq
  cases heq
  refine ⟨(SendDescriptor.payload_spec hinternal hc hx).1, fun {a₂ n₁ n₂ assigned} hafter => ?_⟩
  have hcontent := ContentDescriptor.seen_congr hc hafter
  refine ⟨hcontent, ?_⟩
  obtain ⟨hm₂, hcapacity, -⟩ := ContentDescriptor.materialize_spec hc
  unfold SendDescriptor.materializePayload at hx
  unfold SendDescriptor.payloadKept at hafter
  rw [hinternal] at hafter
  cases hv : v.internalTarget with
  | true =>
    rw [hv] at hx
    cases hx
    rfl
  | false =>
    rw [hv] at hx hafter
    simp only [Bool.false_eq_true, if_false, Requests.materializePayload] at hx hafter
    split_ifs at hx with hnil
    · cases hx
      cases c' with
      | none => rfl
      | some y => simp only [Option.elim_some, Payload.seen, hcontent y rfl]
    · obtain ⟨⟨entries, m₄⟩, hentries, heq⟩ := Option.map_eq_some_iff.mp hx
      cases heq
      have hnamed : SameAfter m₂ (a₂.keepResults (d.content.kept system a₁.result.length a₁.root))
          n₁ n₂ (namedKept system m₂.result.length m₂.root d.payload) assigned := by
        rw [hcapacity, hm₂, Memory.keepResults_root]
        refine ⟨⟨hafter.same.root, hafter.same.generation, hafter.same.nextSendToken, ?_⟩,
          hafter.after₁.drop, hafter.after₂.drop⟩
        obtain ⟨k, -, hk, -⟩ := uniform_content d.content _ _ _ _ hafter.same hc
        obtain ⟨hkept, hcapacity₂, -⟩ := ContentDescriptor.materialize_spec hk
        rw [← hafter.same.capacity, ← hafter.same.root] at hkept
        rw [← hm₂, hcapacity, ← hkept, hcapacity₂, hafter.same.capacity]
      rw [Payload.seen, Payload.seen, seen_named_congr d.payload hentries hnamed]

/-! ## Agreement of the fields -/

/-- The later results overwrite a string result in the same way. -/
def ExprProgram.Agrees (p : ExprProgram M) (v : Datum M.Real Text) (later₁ later₂ : List Text) :
    Prop :=
  match v with
  | .scalar _ => True
  | .string t =>
    match p with
    | .external _ _ => ∀ k < t.length, (lastCover k later₁).or t[k]? = (lastCover k later₂).or t[k]?
    | _ => True

theorem ExprProgram.shown_eq_iff (p : ExprProgram M) (t : Text) (later₁ later₂ : List Text)
    (assigned : Option M.Location) :
    p.shown t later₁ assigned = p.shown t later₂ assigned ↔ p.Agrees (.string t) later₁ later₂ := by
  cases p with
  | text operand maxStringBytes => cases operand <;> exact iff_of_true rfl trivial
  | scalar f => exact iff_of_true rfl trivial
  | external expected f =>
    simp only [shown, Agrees, Option.some_inj]
    constructor
    · intro h k hk
      have hk' := congrArg (·[k]?) h
      simpa only [List.getElem?_take_of_lt hk, getElem?_overlays] using hk'
    · intro h
      refine List.ext_getElem? fun k => ?_
      by_cases hk : k < t.length
      · simpa only [List.getElem?_take_of_lt hk, getElem?_overlays] using h k hk
      · have hle : t.length ≤ k := by omega
        rw [List.getElem?_take_eq_none hle, List.getElem?_take_eq_none hle]

variable (system) in
def FieldAgrees (capacity : ℕ) (root : M.Root) (expression₁ expression₂ : Option (ExprProgram M))
    (later₁ later₂ : List Text) (assigned : Option M.Location) : Prop :=
  match expression₁ with
  | none => FieldUndisturbed system capacity root expression₂ later₂ assigned
  | some p => ∀ v ∈ p.value system capacity root, p.Agrees v later₁ later₂

theorem field_seen_iff {literal₁ literal₂ : Text} {expression₁ expression₂ : Option (ExprProgram M)}
    {before₁ before₂ later₁ later₂ : List Text}
    (hsame : expression₂ = expression₁ ∨ expression₁ = none)
    (hvalue₁ : fieldValue system capacity m.root literal₁ expression₁ = some t)
    (hvalue₂ : fieldValue system capacity m.root literal₂ expression₂ = some t)
    (h₁ : After (m.keepResults before₁) n₁
      (fieldKept system capacity m.root expression₁ ++ later₁) assigned)
    (h₂ : After (m.keepResults before₂) n₂
      (fieldKept system capacity m.root expression₂ ++ later₂) assigned) :
    n₁.denote (fieldView m t expression₁) = n₂.denote (fieldView m t expression₂) ↔
      FieldAgrees system capacity m.root expression₁ expression₂ later₁ later₂
        (assigned.map Prod.fst) := by
  cases expression₁ with
  | none =>
    have hliteral : n₁.denote (fieldView m t none) = some t := denote_constant _ _
    rw [hliteral, eq_comm, FieldAgrees]
    cases expression₂ with
    | none => exact iff_of_true (denote_constant _ _) nofun
    | some p =>
      have hp := fieldValue_eq_some hvalue₂
      rw [fieldKept, hp, Option.elim_some] at h₂
      rw [fieldUndisturbed_some_iff hp]
      exact denote_view_iff (m := m.keepResults before₂) hp h₂
  | some p =>
    obtain rfl | hnone := hsame
    · have hp := fieldValue_eq_some hvalue₁
      rw [fieldKept, hp, Option.elim_some] at h₁ h₂
      have hseen₁ := denote_view_eq_shown (m := m.keepResults before₁) hp h₁
      have hseen₂ := denote_view_eq_shown (m := m.keepResults before₂) hp h₂
      have hagrees : FieldAgrees system capacity m.root (some p) (some p) later₁ later₂
          (assigned.map Prod.fst) ↔ p.Agrees (.string t) later₁ later₂ := by
        constructor
        · exact fun h => h _ hp
        · intro h v hv
          rw [Option.mem_def, hp] at hv
          cases hv
          exact h
      rw [hagrees, ← p.shown_eq_iff t later₁ later₂ (assigned.map Prod.fst), ← hseen₁, ← hseen₂]
      rfl
    · cases hnone

/-! ## The dispatch -/

/-- `execute_send` up to its dispatch. -/
def SendDescriptor.prepare (d : SendDescriptor M) (session : Session) (system : SystemValues M)
    (m : Memory M) : Option (Materialized M × View M × Memory M) :=
  (d.materialize session system m).bind fun r =>
    (materializeSendIdLocation session system d r.2).2.map fun id =>
      (r.1, id, (materializeSendIdLocation session system d r.2).1)

variable (system) in
structure RequestAgrees (capacity : ℕ) (root : M.Root) (d₁ d₂ : SendDescriptor M) : Prop where
  event : FieldAgrees system capacity root d₁.eventExpr d₂.eventExpr
    (fieldKept system capacity root d₁.targetExpr ++ (fieldKept system capacity root d₁.typeExpr ++
      d₁.payloadKept system capacity root))
    (fieldKept system capacity root d₂.targetExpr ++ (fieldKept system capacity root d₂.typeExpr ++
      d₁.payloadKept system capacity root)) d₁.idLocation
  target : FieldAgrees system capacity root d₁.targetExpr d₂.targetExpr
    (fieldKept system capacity root d₁.typeExpr ++ d₁.payloadKept system capacity root)
    (fieldKept system capacity root d₂.typeExpr ++ d₁.payloadKept system capacity root)
    d₁.idLocation
  type : FieldAgrees system capacity root d₁.typeExpr d₂.typeExpr
    (d₁.payloadKept system capacity root) (d₁.payloadKept system capacity root) d₁.idLocation

def Agreement (session : Session) (system : SystemValues M) (d₁ d₂ : SendDescriptor M)
    (m : Memory M) : Prop :=
  ∀ x id m', d₁.prepare session system m = some (x, id, m') →
    (session.present = true ∨ d₂.eventExpr = d₁.eventExpr) ∧
      if x.internalTarget = true ∧ x.delayMs = 0 then
        d₁.targetExpr = none → d₂.targetExpr.isSome = true → d₁.payload ≠ [] →
          session.takesTagged = true → session.metadataRowFree = true →
            d₁.internalFields system m' = none
      else session.sends = true → RequestAgrees system m.result.length m.root d₁ d₂

theorem materializeSendIdLocation_congr (hsame : SameState n₁ n₂)
    (hlocation : d₂.idLocation = d₁.idLocation) (hid : d₂.id = d₁.id) :
    (materializeSendIdLocation session system d₂ n₂).2 =
        (materializeSendIdLocation session system d₁ n₁).2 ∧
      SameState (materializeSendIdLocation session system d₁ n₁).1
        (materializeSendIdLocation session system d₂ n₂).1 := by
  have hgenerated : n₂.generatedSendId session = n₁.generatedSendId session := by
    rw [Memory.generatedSendId, hsame.nextSendToken.symm]
    rfl
  have hassign : ∀ location text, SameState (n₁.takeSendToken.assignOwnedString location text)
      (n₂.takeSendToken.assignOwnedString location text) := by
    intro location text
    refine ⟨?_, ?_, ?_, hsame.capacity⟩
    · simp only [Memory.assignOwnedString, Memory.takeSendToken, hsame.root]
    · simp only [Memory.assignOwnedString, Memory.takeSendToken, hsame.generation]
    · simp only [Memory.assignOwnedString, Memory.takeSendToken, hsame.nextSendToken]
  unfold materializeSendIdLocation
  rw [hlocation, hid, hgenerated, ← hsame.nextSendToken]
  cases d₁.idLocation with
  | none => exact ⟨rfl, hsame⟩
  | some location =>
    dsimp only
    split_ifs
    · exact ⟨rfl, hsame⟩
    · exact ⟨rfl, hassign location _⟩
    · exact ⟨rfl, hassign location []⟩

theorem SendDescriptor.fieldValue_of_heads {root : M.Root}
    (h : d.heads session system capacity root = some v) :
    fieldValue system capacity root d.event d.eventExpr = some v.event ∧
      fieldValue system capacity root d.target d.targetExpr = some v.target ∧
      fieldValue system capacity root (d.literalType session) d.typeExpr = some v.type ∧
      d.isInternal system capacity root = v.internalTarget := by
  simp only [heads, Option.bind_eq_bind, Option.bind_eq_some_iff] at h
  obtain ⟨⟨id, te⟩, hevent, ⟨tt, internal⟩, htarget, ty, htype, delayMs, -, heq⟩ := h
  cases heq
  have htargetValue : fieldValue system capacity root d.target d.targetExpr = some tt ∧
      d.isInternal system capacity root = internal := by
    unfold targetValue at htarget
    unfold isInternal
    cases hexpr : d.targetExpr with
    | none =>
      rw [hexpr] at htarget
      cases htarget
      exact ⟨rfl, rfl⟩
    | some p =>
      simp only [hexpr, Option.map_eq_some_iff] at htarget
      obtain ⟨t, ht, heq⟩ := htarget
      cases heq
      have hvalue := ExprProgram.value_of_textValue ht
      simp only [fieldValue, hvalue, Option.bind_some, Datum.string?, Option.any_some, and_self]
  refine ⟨?_, htargetValue.1, ?_, htargetValue.2⟩
  · unfold eventValue at hevent
    cases hexpr : d.eventExpr with
    | none =>
      rw [hexpr] at hevent
      cases hevent
      rfl
    | some p =>
      simp only [hexpr] at hevent
      split_ifs at hevent
      obtain ⟨t, ht, hid⟩ := Option.bind_eq_some_iff.mp hevent
      obtain ⟨_, -, heq⟩ := Option.map_eq_some_iff.mp hid
      cases heq
      exact ht
  · unfold typeValue at htype
    cases hexpr : d.typeExpr with
    | none =>
      rw [hexpr] at htype
      exact htype
    | some p =>
      simp only [hexpr, Option.filter_eq_some_iff] at htype
      exact htype.1

theorem SendDescriptor.internalData_named (h : d.payload ≠ []) (m : Memory M) :
    d.internalData system none m = (d.internalFields system m).map fun f => ⟨none, some f⟩ := by
  simp only [internalData, Option.elim_none, Option.bind_some, if_neg h]
  cases d.internalFields system m <;> rfl

theorem sendInternal_seen_iff {root : M.Root} {x₁ x₂ : Materialized M}
    (h : Replaced session system capacity root d₁ d₂) (hid : x₂.eventId = x₁.eventId)
    (hcontent : x₂.content = x₁.content) (hexclusive : x₁.content = none ∨ d₁.payload = [])
    (hroot : n₁.root = n₂.root) (hseen : ∀ c ∈ x₁.content, c.seen n₁ = c.seen n₂) :
    (d₁.sendInternal session system x₁ n₁).seen n₁ =
        (d₂.sendInternal session system x₂ n₂).seen n₂ ↔
      (d₁.targetExpr = none → d₂.targetExpr.isSome = true → d₁.payload ≠ [] →
        session.takesTagged = true → session.metadataRowFree = true →
          d₁.internalFields system n₁ = none) := by
  unfold SendDescriptor.sendInternal
  rw [hid, hcontent, h.payload]
  by_cases hplain : x₁.content.isNone = true ∧ d₁.payload = []
  · rw [if_pos hplain, if_pos hplain]
    exact iff_of_true rfl fun _ _ hne => absurd hplain.2 hne
  rw [if_neg hplain, if_neg hplain]
  by_cases htagged : session.takesTagged = false
  · rw [if_pos htagged, if_pos htagged]
    exact iff_of_true rfl fun _ _ _ htrue => by simp [htagged] at htrue
  rw [if_neg htagged, if_neg htagged]
  by_cases hfree : session.metadataRowFree = false
  · rw [if_pos hfree, if_pos hfree]
    exact iff_of_true rfl fun _ _ _ _ htrue => by simp [hfree] at htrue
  rw [if_neg hfree, if_neg hfree]
  by_cases hnil : d₁.payload = []
  · have hdata : d₂.internalData system x₁.content n₂ = d₁.internalData system x₁.content n₁ := by
      unfold SendDescriptor.internalData
      rw [if_pos hnil, if_pos (h.payload.trans hnil)]
      cases hc : x₁.content with
      | none => rfl
      | some c => simp only [Option.elim_some, Content.attach_congr (hseen c hc) hroot]
    rw [hdata]
    refine iff_of_true ?_ fun _ _ hne => absurd hnil hne
    cases d₁.internalData system x₁.content n₁ <;> rfl
  · have hnone : x₁.content = none := hexclusive.resolve_right hnil
    rw [hnone, SendDescriptor.internalData_named hnil,
      SendDescriptor.internalData_named (by rwa [h.payload])]
    obtain ⟨-, -, hexpr, hassignments⟩ | ⟨⟨hexpr, p, hp, -⟩, -, hassignments⟩ := h.target
    · have hfields : d₂.internalFields system n₂ = d₁.internalFields system n₁ := by
        unfold SendDescriptor.internalFields
        rw [hassignments, h.payload, hroot]
      rw [hfields]
      refine iff_of_true ?_ fun hnone' hsome => ?_
      · cases d₁.internalFields system n₁ <;> rfl
      · rw [hexpr, hnone'] at hsome
        cases hsome
    · have hlength : d₂.internalAssignments.length ≠ d₂.payload.length := by
        rw [hassignments, h.payload]
        exact fun h0 => hnil (List.eq_nil_of_length_eq_zero h0.symm)
      have hfields : d₂.internalFields system n₂ = none := by
        rw [SendDescriptor.internalFields, if_pos hlength]
      rw [hfields]
      have htaggedTrue : session.takesTagged = true := by simpa using htagged
      have hfreeTrue : session.metadataRowFree = true := by simpa using hfree
      cases hfields₁ : d₁.internalFields system n₁ with
      | none => exact iff_of_true rfl fun _ _ _ _ _ => rfl
      | some f =>
        refine iff_of_false (fun heq => (by cases heq)) fun hall => ?_
        cases hall hexpr (by rw [hp]; rfl) hnil htaggedTrue hfreeTrue

variable {y : Payload M (View M) M.Object}

theorem dispatch_seen_iff {id : Text} (h : Replaced session system m.result.length m.root d₁ d₂)
    (hpresent : session.present = true ∨ d₂.eventExpr = d₁.eventExpr)
    (hv₁ : d₁.heads session system m.result.length m.root = some v)
    (hafter₁ : After m n₁ (d₁.headsKept system m.result.length m.root ++
      d₁.payloadKept system m.result.length m.root) assigned)
    (hafter₂ : After m n₂ (d₂.headsKept system m.result.length m.root ++
      d₁.payloadKept system m.result.length m.root) assigned)
    (hassigned : assigned.map Prod.fst = d₁.idLocation) (hexclusive : c = none ∨ d₁.payload = [])
    (hcontent : ∀ x ∈ c, x.seen n₁ = x.seen n₂) (hpayload : y.seen n₁ = y.seen n₂) :
    (d₁.dispatch session system (v.materialized m d₁ c y) (.constant id) n₁).seen n₁ =
        (d₂.dispatch session system (v.materialized m d₂ c y) (.constant id) n₂).seen n₂ ↔
      if v.internalTarget = true ∧ v.delayMs = 0 then
        d₁.targetExpr = none → d₂.targetExpr.isSome = true → d₁.payload ≠ [] →
          session.takesTagged = true → session.metadataRowFree = true →
            d₁.internalFields system n₁ = none
      else session.sends = true → RequestAgrees system m.result.length m.root d₁ d₂ := by
  have hroot : n₁.root = n₂.root := by rw [hafter₁.root, hafter₂.root]
  have hv₂ := (h.heads_eq hpresent).trans hv₁
  obtain ⟨he₁, ht₁, hy₁, -⟩ := SendDescriptor.fieldValue_of_heads hv₁
  obtain ⟨he₂, ht₂, hy₂, -⟩ := SendDescriptor.fieldValue_of_heads hv₂
  have hexpr : (d₂.eventExpr = d₁.eventExpr ∨ d₁.eventExpr = none) ∧
      (d₂.targetExpr = d₁.targetExpr ∨ d₁.targetExpr = none) ∧
      (d₂.typeExpr = d₁.typeExpr ∨ d₁.typeExpr = none) :=
    ⟨h.event.imp (·.2.2) (·.1.1), h.target.imp (·.2.2.1) (·.1.1), h.type.imp (·.2) (·.1.1)⟩
  by_cases hdispatch : v.internalTarget = true ∧ v.delayMs = 0
  · have hdispatch' : ∀ d : SendDescriptor M, (v.materialized m d c y).internalTarget = true ∧
        (v.materialized m d c y).delayMs = 0 := fun _ => hdispatch
    rw [SendDescriptor.dispatch, SendDescriptor.dispatch, if_pos hdispatch, if_pos (hdispatch' d₁),
      if_pos (hdispatch' d₂)]
    exact sendInternal_seen_iff h rfl rfl hexclusive hroot hcontent
  have hdispatch' : ∀ d : SendDescriptor M, ¬ ((v.materialized m d c y).internalTarget = true ∧
      (v.materialized m d c y).delayMs = 0) := fun _ => hdispatch
  rw [SendDescriptor.dispatch, SendDescriptor.dispatch, if_neg hdispatch, if_neg (hdispatch' d₁),
    if_neg (hdispatch' d₂)]
  by_cases hio : session.sends = false
  · rw [if_pos hio, if_pos hio]
    exact iff_of_true rfl fun htrue => by simp [hio] at htrue
  · have hioTrue : session.sends = true := by simpa using hio
    rw [if_neg hio, if_neg hio]
    simp only [Heads.materialized, SendOutcome.seen, Observed.request.injEq, hioTrue, forall_const,
      SendRequest.seen, SendRequest.mk.injEq, denote_constant, hpayload, and_true]
    -- the texts of the two runs from the event on, from the target on and from the type on
    simp only [SendDescriptor.headsKept, List.append_assoc] at hafter₁ hafter₂
    have hevent₁ : After (m.keepResults []) n₁ _ assigned := hafter₁
    have hevent₂ : After (m.keepResults []) n₂ _ assigned := hafter₂
    have htarget₁ := hafter₁.drop
    have htarget₂ := hafter₂.drop
    have htype₁ := htarget₁.drop
    have htype₂ := htarget₂.drop
    rw [← Memory.keepResults_append] at htype₁ htype₂
    rw [field_seen_iff (m := m) hexpr.1 he₁ he₂ hevent₁ hevent₂,
      field_seen_iff (m := m) hexpr.2.1 ht₁ ht₂ htarget₁ htarget₂,
      field_seen_iff (m := m) hexpr.2.2 hy₁ hy₂ htype₁ htype₂, hassigned]
    exact ⟨fun ⟨he, ht, hy⟩ => ⟨he, ht, hy⟩, fun hall => ⟨hall.event, hall.target, hall.type⟩⟩

/-! ## Two documents -/

theorem SendDescriptor.tail_content {a b : Memory M} (h : d.tail session system v a = some ((c, x), b))
    (hinvalid : d.content = .invalid) : c = none := by
  simp only [tail, hinvalid, Option.bind_eq_some_iff] at h
  obtain ⟨⟨c', m₂⟩, hc, ⟨x', m₃⟩, -, heq⟩ := h
  cases hc
  split_ifs at heq
  cases heq
  rfl

theorem Uniform.none (hf : Uniform f) (hsame : SameState a₁ a₂) (h : f a₁ = none) :
    f a₂ = none := by
  cases hr : f a₂ with
  | none => rfl
  | some r =>
    obtain ⟨k, -, hk, -⟩ := hf _ _ _ _ hsame.symm hr
    rw [h] at hk
    cases hk

theorem length_headsKept (d : SendDescriptor M) (m : Memory M) :
    (m.keepResults (d.headsKept system m.result.length m.root)).result.length =
      m.result.length := by
  unfold SendDescriptor.headsKept
  rw [Memory.keepResults_append, Memory.keepResults_append]
  have hevent := length_fieldKept system m d.eventExpr
  have htarget := length_fieldKept system
    (m.keepResults (fieldKept system m.result.length m.root d.eventExpr)) d.targetExpr
  rw [hevent, Memory.keepResults_root] at htarget
  have htype := length_fieldKept system
    ((m.keepResults (fieldKept system m.result.length m.root d.eventExpr)).keepResults
      (fieldKept system m.result.length m.root d.targetExpr)) d.typeExpr
  rw [htarget, Memory.keepResults_root, Memory.keepResults_root] at htype
  exact htype

theorem executeSend_of_none (h : d.materialize session system m = none) :
    executeSend session system d m = (.errorExecution, m) := by
  rw [executeSend, h]

theorem executeSend_of_some {n : Memory M} {x : Materialized M}
    (h : d.materialize session system m = some (x, n)) :
    executeSend session system d m =
      ((materializeSendIdLocation session system d n).2.elim .errorExecution fun id =>
          d.dispatch session system x id (materializeSendIdLocation session system d n).1,
        (materializeSendIdLocation session system d n).1) := by
  rw [executeSend, h]
  cases hid : materializeSendIdLocation session system d n with
  | mk n' view => cases view <;> simp only [hid, Option.elim_none, Option.elim_some]

theorem observe_eq_iff_seen {o₁ o₂ : SendOutcome M} (h : SameState n₁ n₂) :
    observe (o₁, n₁) = observe (o₂, n₂) ↔ o₁.seen n₁ = o₂.seen n₂ := by
  simp only [observe, Prod.mk.injEq, h.root, h.nextSendToken, and_true]

theorem Replaced.requestId_eq {root : M.Root} (h : Replaced session system capacity root d₁ d₂)
    (hsame : SameState n₁ n₂) : d₂.requestId session n₂ = d₁.requestId session n₁ := by
  unfold SendDescriptor.requestId Memory.generatedSendId
  rw [h.idLocation, h.id, ← hsame.nextSendToken]

theorem observe_eq_iff_of_tail (h : Replaced session system m.result.length m.root d₁ d₂)
    (hpresent : session.present = true ∨ d₂.eventExpr = d₁.eventExpr)
    (hv : d₁.heads session system m.result.length m.root = some v)
    (hsame : SameState (m.keepResults (d₁.headsKept system m.result.length m.root))
      (m.keepResults (d₂.headsKept system m.result.length m.root)))
    (htail : d₁.tail session system v (m.keepResults (d₁.headsKept system m.result.length m.root)) =
      some ((c, y), b₁)) (hmaterialize₁ : d₁.materialize session system m = (d₁.tail session system v
      (m.keepResults (d₁.headsKept system m.result.length m.root))).map fun r =>
        (v.materialized m d₁ r.1.1 r.1.2, r.2))
    (hmaterialize₂ : d₂.materialize session system m = (d₁.tail session system v
      (m.keepResults (d₂.headsKept system m.result.length m.root))).map fun r =>
        (v.materialized m d₂ r.1.1 r.1.2, r.2)) :
    observe (executeSend session system d₁ m) = observe (executeSend session system d₂ m) ↔
      Agreement session system d₁ d₂ m := by
  have hinternal := (SendDescriptor.fieldValue_of_heads hv).2.2.2
  obtain ⟨k, hb₁, htail₂, hsame'⟩ := uniform_tail d₁ v _ _ _ _ hsame htail
  simp only at htail₂
  rw [htail, Option.map_some] at hmaterialize₁
  rw [htail₂, Option.map_some] at hmaterialize₂
  obtain ⟨hkept, hseen⟩ := SendDescriptor.tail_spec
    (by rwa [length_headsKept, Memory.keepResults_root]) htail
  obtain ⟨hkept₂, -⟩ := SendDescriptor.tail_spec
    (by rwa [length_headsKept, Memory.keepResults_root]) htail₂
  simp only [length_headsKept, Memory.keepResults_root] at hkept hkept₂ hseen
  subst hb₁
  rw [hkept] at hmaterialize₁ hsame'
  rw [hkept₂] at hmaterialize₂ hsame'
  obtain ⟨hid, hsame''⟩ := materializeSendIdLocation_congr hsame' h.idLocation h.id
  rw [executeSend_of_some hmaterialize₁, executeSend_of_some hmaterialize₂, hid]
  unfold Agreement SendDescriptor.prepare
  rw [hmaterialize₁, Option.bind_some]
  cases hview : (materializeSendIdLocation session system d₁
      ((m.keepResults (d₁.headsKept system m.result.length m.root)).keepResults
        (d₁.payloadKept system m.result.length m.root))).2 with
  | none =>
    rw [observe_eq_iff_seen hsame'']
    exact iff_of_true rfl fun _ _ _ hprepare => by cases hprepare
  | some view =>
    rw [observe_eq_iff_seen hsame'', Option.elim_some, Option.elim_some]
    obtain ⟨rfl, hafter₁⟩ := materializeSendIdLocation_spec (Prod.ext rfl hview)
    obtain ⟨-, hafter₂⟩ := materializeSendIdLocation_spec (Prod.ext rfl (hid.trans hview))
    have hrequestId := h.requestId_eq hsame'
    rw [hrequestId, h.idLocation] at hafter₂
    have hafter : SameAfter (m.keepResults (d₁.headsKept system m.result.length m.root))
        (m.keepResults (d₂.headsKept system m.result.length m.root)) _ _
        (d₁.payloadKept system m.result.length m.root) _ :=
      ⟨hsame, by simpa only [List.append_nil] using hafter₁.keepResults,
        by simpa only [List.append_nil] using hafter₂.keepResults⟩
    obtain ⟨hcontent, hpayload⟩ := hseen hafter
    refine (dispatch_seen_iff h hpresent hv hafter.after₁.keepResults hafter.after₂.keepResults
      (by rw [Option.map_map]; exact Option.map_id')
      (h.exclusive.imp (SendDescriptor.tail_content htail) id) hcontent hpayload).trans ⟨?_, ?_⟩
    · rintro hcondition x id m' ⟨⟩
      exact ⟨hpresent, hcondition⟩
    · intro hall
      exact (hall _ _ _ rfl).2

variable (habsent : session.present = false)
include habsent

theorem executeSend_of_absent (hexpr : d.eventExpr.isSome = true) :
    executeSend session system d m = (.errorExecution, m) := by
  refine executeSend_of_none ?_
  have hevent : d.eventValue session system m.result.length m.root = none := by
    obtain ⟨p, hp⟩ := Option.isSome_iff_exists.mp hexpr
    simp only [SendDescriptor.eventValue, hp, habsent, Bool.false_eq_true, if_false]
  rw [SendDescriptor.materialize_eq, SendDescriptor.heads, hevent]
  rfl

theorem materializeSendIdLocation_of_absent :
    (materializeSendIdLocation session system d m).1 = m := by
  unfold materializeSendIdLocation
  cases d.idLocation with
  | none => rfl
  | some location =>
    dsimp only
    rw [if_pos (Or.inl habsent)]

theorem SendDescriptor.dispatch_of_absent (x : Materialized M)
    (id : View M) : (d.dispatch session system x id m).seen m ≠ .errorExecution := by
  have htagged : session.takesTagged = false := by rw [Session.takesTagged, habsent, Bool.false_and]
  have hsends : session.sends = false := by rw [Session.sends, habsent, Bool.false_and]
  unfold dispatch sendInternal
  rw [if_pos htagged, if_pos hsends]
  split_ifs <;> exact nofun

/-- Without a session an event expression is an error before anything else, and a literal event is
one exactly when the send fails before its dispatch. -/
theorem observe_eq_iff_of_absent (h₁ : d₁.eventExpr = none) (h₂ : d₂.eventExpr.isSome = true) :
    observe (executeSend session system d₁ m) = observe (executeSend session system d₂ m) ↔
      Agreement session system d₁ d₂ m := by
  have hpresent : ¬ (session.present = true ∨ d₂.eventExpr = d₁.eventExpr) := by
    rintro (hpresent | heq)
    · rw [habsent] at hpresent
      cases hpresent
    · rw [heq, h₁] at h₂
      cases h₂
  rw [executeSend_of_absent habsent h₂, Agreement, SendDescriptor.prepare]
  cases hmaterialize : d₁.materialize session system m with
  | none =>
    rw [executeSend_of_none hmaterialize]
    exact iff_of_true rfl fun _ _ _ hprepare => by cases hprepare
  | some result =>
    obtain ⟨x, n⟩ := result
    obtain ⟨hroot, htoken, -⟩ := SendDescriptor.materialize_spec [] hmaterialize
    rw [executeSend_of_some hmaterialize, Option.bind_some]
    dsimp only
    rw [materializeSendIdLocation_of_absent habsent]
    cases (materializeSendIdLocation session system d₁ n).2 with
    | none =>
      refine iff_of_true ?_ fun _ _ _ hprepare => by cases hprepare
      rw [observe, observe, hroot, htoken]
      rfl
    | some id =>
      refine iff_of_false (fun heq => ?_) fun hall => hpresent (hall x id n rfl).1
      exact SendDescriptor.dispatch_of_absent habsent x id (Prod.mk.inj heq).1

omit habsent

/-- **Descriptors.** The outcomes are the same exactly then. -/
theorem observe_eq_iff (h : Replaced session system m.result.length m.root d₁ d₂) :
    observe (executeSend session system d₁ m) = observe (executeSend session system d₂ m) ↔
      Agreement session system d₁ d₂ m := by
  by_cases hpresent : session.present = true ∨ d₂.eventExpr = d₁.eventExpr
  case neg =>
    rw [not_or, Bool.not_eq_true] at hpresent
    obtain ⟨-, -, hexpr⟩ | ⟨⟨hnone, p, hp, -⟩, -⟩ := h.event
    · exact absurd hexpr hpresent.2
    · exact observe_eq_iff_of_absent hpresent.1 hnone (by rw [hp]; rfl)
  have htail : ∀ v a, d₂.tail session system v a = d₁.tail session system v a := by
    intro v a
    unfold SendDescriptor.tail SendDescriptor.materializePayload
    rw [h.content, h.payload]
  have hmaterialize₁ := SendDescriptor.materialize_eq session system d₁ m
  have hmaterialize₂ := SendDescriptor.materialize_eq session system d₂ m
  rw [h.heads_eq hpresent] at hmaterialize₂
  cases hv : d₁.heads session system m.result.length m.root with
  | none =>
    rw [hv] at hmaterialize₁ hmaterialize₂
    rw [executeSend_of_none hmaterialize₁, executeSend_of_none hmaterialize₂]
    refine iff_of_true rfl fun x id m' hprepare => ?_
    rw [SendDescriptor.prepare, hmaterialize₁] at hprepare
    cases hprepare
  | some v =>
    simp only [hv, Option.bind_some, htail] at hmaterialize₁ hmaterialize₂
    have hsame : SameState (m.keepResults (d₁.headsKept system m.result.length m.root))
        (m.keepResults (d₂.headsKept system m.result.length m.root)) :=
      ⟨rfl, rfl, rfl, by rw [length_headsKept, length_headsKept]⟩
    cases htail₁ :
        d₁.tail session system v (m.keepResults (d₁.headsKept system m.result.length m.root)) with
    | none =>
      have htail₂ := (uniform_tail d₁ v).none hsame htail₁
      rw [htail₁] at hmaterialize₁
      rw [htail₂] at hmaterialize₂
      rw [executeSend_of_none hmaterialize₁, executeSend_of_none hmaterialize₂]
      refine iff_of_true rfl fun x id m' hprepare => ?_
      rw [SendDescriptor.prepare, hmaterialize₁] at hprepare
      cases hprepare
    | some r =>
      exact observe_eq_iff_of_tail h hpresent hv hsame htail₁ hmaterialize₁ hmaterialize₂

/-- **Main.** A document whose literal attributes of a `<send>` are replaced by expressions of the
same values has the same outcome exactly under the condition. -/
theorem attributes_agree_iff {C : Compiler M} {session : Session} {system : SystemValues M}
    {e₁ e₂ : SendElement} {d₁ d₂ : SendDescriptor M} {m : Memory M}
    (hreplaces : Replaces C system m.result.length m.root e₁ e₂)
    (h₁ : e₁.compile C session = some d₁) (h₂ : e₂.compile C session = some d₂) :
    observe (executeSend session system d₁ m) = observe (executeSend session system d₂ m) ↔
      Agreement session system d₁ d₂ m :=
  observe_eq_iff (compile_replaced hreplaces h₁ h₂)

/-! ## Sample documents -/

def sampleCompiler : Compiler sampleModel where
  valueProgram source _ := some (.text (.literal source) 0)
  delayProgram _ := some fun _ _ => some (.inr 0)
  payloadToken source := some (.text (.literal source) 0)
  contentExpression source := some (.scalar (.text (.literal source) 0))
  ownedStringLocation _ := some false
  internalAssignment _ source := some (true, .text (.literal source) 0)
  internalSchema _ := true
  internalPayloadFits := true
  parseMs _ := some 0
  ncname _ := true

/-- `<send event="go" target=…><param name="x" expr=…/></send>`. -/
def sampleElement (target targetExpr : Option Text) : SendElement where
  event := some ['g', 'o']
  eventExpr := none
  target := target
  targetExpr := targetExpr
  type := none
  typeExpr := none
  delay := none
  delayExpr := none
  id := none
  idLocation := none
  namelist := none
  params := [⟨['x'], ['v'], false⟩]
  content := none

theorem sampleElement_replaces (target : Text) :
    Replaces sampleCompiler sampleSystem sampleMemory.result.length sampleMemory.root
      (sampleElement (some target) none) (sampleElement none (some target)) :=
  ⟨.inl ⟨rfl, rfl⟩, .inr ⟨target, target, _, rfl, rfl, rfl, rfl, rfl⟩, .inl ⟨rfl, rfl⟩,
    .inl ⟨rfl, rfl⟩, rfl, rfl, rfl, rfl, rfl⟩

theorem attributes_agree_iff_sample :
    ∃ d₁ d₂, (sampleElement (some ['u']) none).compile sampleCompiler sampleSession = some d₁ ∧
      (sampleElement none (some ['u'])).compile sampleCompiler sampleSession = some d₂ ∧
      Agreement sampleSession sampleSystem d₁ d₂ sampleMemory :=
  ⟨_, _, rfl, rfl, (attributes_agree_iff (sampleElement_replaces ['u']) rfl rfl).mp rfl⟩

theorem attributes_disagree :
    ∃ d₁ d₂ data, Replaces sampleCompiler sampleSystem sampleMemory.result.length
        sampleMemory.root (sampleElement internalTargets.head? none)
        (sampleElement none internalTargets.head?) ∧
      (sampleElement internalTargets.head? none).compile sampleCompiler sampleSession = some d₁ ∧
      (sampleElement none internalTargets.head?).compile sampleCompiler sampleSession = some d₂ ∧
      (executeSend sampleSession sampleSystem d₁ sampleMemory).1 = .raise 1 (some data) ∧
      (executeSend sampleSession sampleSystem d₂ sampleMemory).1 = .errorExecution :=
  ⟨_, _, _, sampleElement_replaces _, rfl, rfl, rfl, rfl⟩

end TurboScxml.Requests
