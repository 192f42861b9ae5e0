import TurboScxml.Requests.Fidelity

/-!
# Requests at the hand-over

* `HasField`: what the evaluation of one string attribute leaves, and `HasField.denote_iff`;
* `request_faithful_iff`: the requests of `execute_send` and of `start_pending_invocations` carry
  the values of their own expressions exactly when no field is disturbed.
-/

namespace TurboScxml.Requests

open Overlay

variable {M : DataModel} {session : Session} {system : SystemValues M}

/-! ## One attribute -/

def fieldView (m : Memory M) (t : Text) (expression : Option (ExprProgram M)) : View M :=
  expression.elim (.constant t) fun p => p.view m t

/-- A string attribute has a text, and leads from `m` to `m₁`. -/
structure HasField (system : SystemValues M) (m m₁ : Memory M) (literal : Text)
    (expression : Option (ExprProgram M)) (view : View M) (t : Text) : Prop where
  value : fieldValue system m.result.length m.root literal expression = some t
  view_eq : view = fieldView m t expression
  memory : m₁ = m.keepResults (fieldKept system m.result.length m.root expression)
  capacity : m₁.result.length = m.result.length

variable {m m₁ : Memory M} {literal t : Text} {expression : Option (ExprProgram M)} {view : View M}

theorem HasField.root (h : HasField system m m₁ literal expression view t) : m₁.root = m.root := by
  rw [h.memory, Memory.keepResults_root]

theorem hasField_literal (m : Memory M) (t : Text) : HasField system m m t none (.constant t) t :=
  ⟨rfl, rfl, rfl, rfl⟩

variable {capacity : ℕ} {p : ExprProgram M} {root : M.Root}

theorem fieldValue_eq_some (h : fieldValue system capacity root literal (some p) = some t) :
    p.value system capacity root = some (.string t) := by
  obtain ⟨v, hv, hstring⟩ := Option.bind_eq_some_iff.mp h
  cases v with
  | scalar s => cases hstring
  | string text =>
    cases hstring
    exact hv

theorem ExprProgram.undisturbed_nil (p : ExprProgram M) (v : Datum M.Real Text) :
    p.Undisturbed v [] none := by
  cases v with
  | scalar s => exact trivial
  | string t =>
    cases p with
    | text operand maxStringBytes =>
      cases operand with
      | location source => exact .inr nofun
      | _ => exact trivial
    | scalar f => exact trivial
    | external expected f => exact survives_nil t

theorem denote_view_keepResults (h : p.value system capacity m.root = some (.string t)) :
    (m.keepResults (p.kept (.string t))).denote (p.view m t) = some t := by
  have hafter : After m (m.keepResults (p.kept (.string t))) (p.kept (.string t) ++ []) none := by
    rw [List.append_nil]
    exact .refl m _
  rw [denote_view_iff h hafter]
  exact p.undisturbed_nil _

theorem evaluateString_spec (literal : Text)
    (h : p.evaluateString system m = some ((view, t), m₁)) :
    HasField system m m₁ literal (some p) view t := by
  simp only [ExprProgram.evaluateString, Option.bind_eq_bind, Option.bind_eq_some_iff] at h
  obtain ⟨⟨x, m₂⟩, hx, view', hview, text, htext, heq⟩ := h
  cases heq
  obtain ⟨v, hv, rfl, rfl, hcapacity⟩ := ExprProgram.evaluate_spec hx
  cases v with
  | scalar s => cases hview
  | string t' =>
    cases hview
    rw [denote_view_keepResults hv, Option.some_inj] at htext
    subst htext
    exact ⟨by rw [fieldValue, hv]; rfl, rfl, by rw [fieldKept, hv]; rfl, hcapacity⟩

variable {v : Datum M.Real Text} {later : List Text}

theorem fieldUndisturbed_some_iff {assigned : Option M.Location}
    (hv : p.value system capacity root = some v) :
    FieldUndisturbed system capacity root (some p) later assigned ↔
      p.Undisturbed v later assigned := by
  constructor
  · intro h
    exact h p rfl v hv
  · intro h p' hp' v' hv'
    cases Option.mem_def.mp hp'
    rw [Option.mem_def, hv] at hv'
    cases hv'
    exact h

variable {assigned : Option (M.Location × Text)} {m' : Memory M}

/-- **One field** shows its text exactly when it is undisturbed. -/
theorem HasField.denote_iff (h : HasField system m m₁ literal expression view t)
    (hafter : After m₁ m' later assigned) :
    m'.denote view = some t ↔
      FieldUndisturbed system m.result.length m.root expression later
        (assigned.map Prod.fst) := by
  cases expression with
  | none =>
    rw [h.view_eq]
    exact iff_of_true (denote_constant _ _) nofun
  | some p =>
    have hvalue := fieldValue_eq_some h.value
    have hkept : fieldKept system m.result.length m.root (some p) = p.kept (.string t) := by
      rw [fieldKept, hvalue]
      rfl
    have hfull : After m m' (p.kept (.string t) ++ later) assigned := by
      have hmemory := h.memory
      rw [hkept] at hmemory
      subst hmemory
      exact ⟨hafter.result.trans (overlays_append _ _ _).symm, hafter.root, hafter.generation⟩
    rw [h.view_eq, fieldView, Option.elim_some, denote_view_iff hvalue hfull,
      fieldUndisturbed_some_iff hvalue]

theorem After.keepResults {before : List Text}
    (h : After (m.keepResults before) m' later assigned) :
    After m m' (before ++ later) assigned :=
  ⟨h.result.trans (overlays_append _ _ _).symm, h.root, h.generation⟩

theorem HasField.after (h : HasField system m m₁ literal expression view t)
    (hafter : After m₁ m' later assigned) :
    After m m' (fieldKept system m.result.length m.root expression ++ later) assigned := by
  have hmemory := h.memory
  subst hmemory
  exact hafter.keepResults

/-! ## Payloads -/

theorem namedUndisturbed_cons {assigned : Option M.Location} {name : Text}
    {rest : List (Text × ExprProgram M)} (hv : p.value system capacity root = some v) :
    NamedUndisturbed system capacity root assigned ((name, p) :: rest) ↔
      p.Undisturbed v (namedKept system capacity root rest) assigned ∧
        NamedUndisturbed system capacity root assigned rest := by
  rw [NamedUndisturbed, fieldUndisturbed_some_iff hv]

theorem denoteEntries_cons_eq_some {name : Text} {x : Datum M.Real (View M)}
    {rest : List (Text × Datum M.Real (View M))} {values : List (Text × Datum M.Real Text)} :
    denoteEntries m ((name, x) :: rest) = some ((name, v) :: values) ↔
      x.denote m = some v ∧ denoteEntries m rest = some values := by
  simp only [denoteEntries, Option.bind_eq_bind, Option.bind_eq_some_iff, Option.some_inj,
    List.cons.injEq, Prod.mk.injEq, true_and]
  constructor
  · rintro ⟨_, hx, _, hrest, rfl, rfl⟩
    exact ⟨hx, hrest⟩
  · rintro ⟨hx, hrest⟩
    exact ⟨v, hx, values, hrest, rfl, rfl⟩

theorem materializeNamed_spec (payload : List (Text × ExprProgram M)) :
    ∀ {m m₁ : Memory M} {entries}, materializeNamed system payload m = some (entries, m₁) →
      m₁ = m.keepResults (namedKept system m.result.length m.root payload) ∧
      m₁.result.length = m.result.length ∧
      ∃ values, namedValues system m.result.length m.root payload = some values ∧
        ∀ m' assigned, After m₁ m' [] assigned →
          (denoteEntries m' entries = some values ↔
            NamedUndisturbed system m.result.length m.root (assigned.map Prod.fst) payload) := by
  induction payload with
  | nil =>
    intro m m₁ entries h
    cases h
    exact ⟨rfl, rfl, [], rfl, fun m' assigned _ => iff_of_true rfl trivial⟩
  | cons entry rest ih =>
    obtain ⟨name, p⟩ := entry
    intro m m₁ entries h
    simp only [materializeNamed, Option.bind_eq_bind, Option.bind_eq_some_iff] at h
    obtain ⟨⟨x, m₂⟩, hx, ⟨xs, m₃⟩, hxs, heq⟩ := h
    cases heq
    obtain ⟨v, hv, rfl, rfl, hcapacity⟩ := ExprProgram.evaluate_spec hx
    obtain ⟨hm₁, hcapacity₁, values, hvalues, hdenote⟩ := ih hxs
    simp only [hcapacity, Memory.keepResults_root] at hm₁ hcapacity₁ hvalues hdenote
    have hkept : namedKept system m.result.length m.root ((name, p) :: rest) =
        p.kept v ++ namedKept system m.result.length m.root rest := by
      rw [namedKept, fieldKept, hv]
      rfl
    refine ⟨?_, hcapacity₁, (name, v) :: values, ?_, fun m' assigned hafter => ?_⟩
    · rw [hm₁, hkept, Memory.keepResults_append]
    · simp only [namedValues, hv, hvalues, Option.bind_eq_bind, Option.bind_some]
    · have hfull : After m m' (p.kept v ++ namedKept system m.result.length m.root rest)
          assigned := by
        subst hm₁
        simpa only [List.append_nil] using hafter.keepResults.keepResults
      rw [denoteEntries_cons_eq_some, denote_datum_iff hv hfull, hdenote m' assigned hafter,
        namedUndisturbed_cons hv]

abbrev contentPayload {S O : Type} (content : Option (Content M S O)) : Payload M S O :=
  content.elim .none .content

theorem object_eq_iff (h : After m m' [] assigned) (object : M.Object) :
    m'.object object = objectValue m.root object ↔
      ∀ location id, assigned = some (location, id) → location ∈ M.leaves object →
        m.root location = .string id := by
  unfold Memory.object objectValue
  rw [List.map_inj_left, h.root]
  cases assigned with
  | none => exact iff_of_true (fun _ _ => rfl) nofun
  | some a =>
    constructor
    · rintro hall location id ⟨⟩ hleaf
      have hsame := hall location hleaf
      simpa using hsame.symm
    · intro hall leaf hleaf
      by_cases heq : leaf = a.1
      · subst heq
        simpa using (hall a.1 a.2 rfl hleaf).symm
      · exact Function.update_of_ne heq _ _

variable {c : Option (Content M (View M) M.Object)}

theorem ContentDescriptor.materialize_spec {content : ContentDescriptor M}
    (h : content.materialize system m = some (c, m₁)) :
    m₁ = m.keepResults (content.kept system m.result.length m.root) ∧
      m₁.result.length = m.result.length ∧
      ∃ v, content.value system m.result.length m.root = some v ∧ v.isSome = c.isSome ∧
        ∀ m' assigned, After m₁ m' [] assigned →
          ((contentPayload c).denote m' = some (contentPayload v) ↔
            content.Undisturbed system m.result.length m.root assigned) := by
  cases content with
  | invalid =>
    cases h
    exact ⟨rfl, rfl, none, rfl, rfl, fun m' assigned _ => iff_of_true rfl trivial⟩
  | scalar p =>
    simp only [materialize, Option.map_eq_some_iff] at h
    obtain ⟨⟨x, m₂⟩, hx, heq⟩ := h
    cases heq
    obtain ⟨v, hv, rfl, rfl, hcapacity⟩ := ExprProgram.evaluate_spec hx
    have hkept : (ContentDescriptor.scalar p).kept system m.result.length m.root = p.kept v := by
      rw [kept, fieldKept, hv]
      rfl
    refine ⟨by rw [hkept], hcapacity, some (.scalar v), by rw [value, hv]; rfl, rfl,
      fun m' assigned hafter => ?_⟩
    rw [Undisturbed, fieldUndisturbed_some_iff hv, ← denote_datum_iff hv hafter.keepResults]
    simp only [Option.elim_some, Payload.denote, Content.denote, Option.map_eq_some_iff,
      Payload.content.injEq, exists_eq_right, Content.scalar.injEq]
  | textUtf8 bytes =>
    cases h
    exact ⟨rfl, rfl, some (.textUtf8 bytes), rfl, rfl, fun m' assigned _ => iff_of_true rfl trivial⟩
  | xmlUtf8 bytes =>
    cases h
    exact ⟨rfl, rfl, some (.xmlUtf8 bytes), rfl, rfl, fun m' assigned _ => iff_of_true rfl trivial⟩
  | cmeta object =>
    simp only [materialize] at h
    split_ifs at h with hbound
    cases h
    refine ⟨rfl, rfl, some (.cmeta (objectValue m.root object)), by rw [value, if_pos hbound], rfl,
      fun m' assigned hafter => ?_⟩
    rw [Undisturbed, ← object_eq_iff hafter object]
    simp only [Option.elim_some, Payload.denote, Content.denote, Option.map_some, Option.some_inj,
      Payload.content.injEq, Content.cmeta.injEq]

variable {x : Payload M (View M) M.Object}

theorem materializePayload_spec {payload : List (Text × ExprProgram M)}
    (v : Option (Content M Text (ObjectValue M)))
    (h : materializePayload system payload c m = some (x, m₁)) :
    m₁ = m.keepResults (namedKept system m.result.length m.root payload) ∧
      m₁.result.length = m.result.length ∧
      ∃ value, payloadValue system m.result.length m.root payload v = some value ∧
        ∀ m' assigned, After m₁ m' [] assigned →
          (x.denote m' = some value ↔
            (payload = [] → (contentPayload c).denote m' = some (contentPayload v)) ∧
              NamedUndisturbed system m.result.length m.root (assigned.map Prod.fst) payload) := by
  unfold materializePayload at h
  split_ifs at h with hpayload
  · subst hpayload
    cases h
    refine ⟨rfl, rfl, contentPayload v, rfl, fun m' assigned _ => ?_⟩
    simp only [NamedUndisturbed, and_true, forall_const]
  · obtain ⟨⟨entries, m₂⟩, hentries, heq⟩ := Option.map_eq_some_iff.mp h
    cases heq
    obtain ⟨hm₁, hcapacity, values, hvalues, hdenote⟩ := materializeNamed_spec payload hentries
    refine ⟨hm₁, hcapacity, .named values, ?_, fun m' assigned hafter => ?_⟩
    · rw [payloadValue, if_neg hpayload, hvalues]
      rfl
    · rw [← hdenote m' assigned hafter]
      simp only [Payload.denote, Option.map_eq_some_iff, Payload.named.injEq, exists_eq_right,
        hpayload, false_implies, true_and]

/-! ## All fields of a send -/

variable {d : SendDescriptor M}

theorem SendDescriptor.materializeEvent_spec {id : ℕ}
    (h : d.materializeEvent session system m = some ((id, view), m₁)) :
    ∃ t, HasField system m m₁ d.event d.eventExpr view t := by
  unfold materializeEvent at h
  cases hexpr : d.eventExpr with
  | none =>
    rw [hexpr] at h
    cases h
    exact ⟨d.event, hasField_literal m d.event⟩
  | some p =>
    simp only [hexpr, Option.bind_eq_bind] at h
    split_ifs at h
    obtain ⟨⟨⟨view', t⟩, m₂⟩, hp, hid⟩ := Option.bind_eq_some_iff.mp h
    obtain ⟨_, -, heq⟩ := Option.bind_eq_some_iff.mp hid
    cases heq
    exact ⟨t, evaluateString_spec d.event hp⟩

theorem SendDescriptor.materializeTarget_spec {internal : Bool}
    (h : d.materializeTarget system m = some ((view, internal), m₁)) :
    d.isInternal system m.result.length m.root = internal ∧
      ∃ t, HasField system m m₁ d.target d.targetExpr view t := by
  unfold materializeTarget at h
  unfold isInternal
  cases hexpr : d.targetExpr with
  | none =>
    rw [hexpr] at h
    cases h
    exact ⟨rfl, d.target, hasField_literal m d.target⟩
  | some p =>
    simp only [hexpr, Option.bind_eq_bind, Option.bind_eq_some_iff] at h
    obtain ⟨⟨⟨view', t⟩, m₂⟩, hp, heq⟩ := h
    cases heq
    have hfield := evaluateString_spec d.target hp
    have hvalue : (p.value system m.result.length m.root).bind Datum.string? = some t :=
      hfield.value
    exact ⟨by simp only [hvalue]; rfl, t, hfield⟩

theorem SendDescriptor.materializeType_spec
    (h : d.materializeType session system m = some (view, m₁)) :
    ∃ t, HasField system m m₁ (d.literalType session) d.typeExpr view t := by
  unfold materializeType at h
  cases hexpr : d.typeExpr with
  | none =>
    rw [hexpr] at h
    cases h
    exact ⟨_, hasField_literal m _⟩
  | some p =>
    simp only [hexpr, Option.bind_eq_bind, Option.bind_eq_some_iff] at h
    obtain ⟨⟨⟨view', t⟩, m₂⟩, hp, heq⟩ := h
    split_ifs at heq
    cases heq
    exact ⟨t, evaluateString_spec _ hp⟩

theorem SendDescriptor.payload_spec {m₂ : Memory M} {internal : Bool}
    (hinternal : d.isInternal system m.result.length m.root = internal)
    (hcontent : d.content.materialize system m = some (c, m₁))
    (hpayload : d.materializePayload session system internal c m₁ = some (x, m₂)) :
    m₂ = m.keepResults (d.payloadKept system m.result.length m.root) ∧
      ∃ cv v, d.content.value system m.result.length m.root = some cv ∧
        d.payloadValue system m.result.length m.root cv = some v ∧
        ∀ m' assigned, After m₂ m' [] assigned →
          (x.denote m' = some v ↔
            (internal = false → d.payload = [] →
              d.content.Undisturbed system m.result.length m.root assigned) ∧
            (internal = false →
              NamedUndisturbed system m.result.length m.root (assigned.map Prod.fst)
                d.payload)) := by
  obtain ⟨hm₁, hcapacity, cv, hcv, -, hcdenote⟩ := ContentDescriptor.materialize_spec hcontent
  unfold SendDescriptor.payloadKept SendDescriptor.payloadValue
  rw [hinternal]
  cases internal with
  | true =>
    cases hpayload
    refine ⟨by simpa using hm₁, cv, .none, hcv, rfl, fun m' assigned _ => ?_⟩
    exact iff_of_true rfl ⟨nofun, nofun⟩
  | false =>
    have hroot : m₁.root = m.root := by rw [hm₁, Memory.keepResults_root]
    rw [SendDescriptor.materializePayload, if_neg Bool.false_ne_true] at hpayload
    split_ifs at hpayload
    obtain ⟨hm₂, hcapacity₂, v, hv, hdenote⟩ := materializePayload_spec cv hpayload
    rw [hcapacity, hroot] at hm₂ hv hdenote
    refine ⟨?_, cv, v, hcv, hv, fun m' assigned hafter => ?_⟩
    · rw [hm₂, hm₁, ← Memory.keepResults_append]
      rfl
    · rw [hdenote m' assigned hafter]
      simp only [forall_const]
      refine and_congr_left fun _ => forall_congr' fun hnil => ?_
      refine hcdenote m' assigned ?_
      rw [hnil] at hm₂
      rwa [hm₂] at hafter

theorem SendDescriptor.materialize_spec {x : Materialized M} (id : Text)
    (h : d.materialize session system m = some (x, m₁)) :
    m₁.root = m.root ∧ m₁.nextSendToken = m.nextSendToken ∧
      ∃ r, d.values session system m.result.length m.root id = some r ∧ r.id = id ∧
        r.delayMs = x.delayMs ∧
        ∀ m', After m₁ m' [] (d.idLocation.map fun location => (location, id)) →
          (m'.denote x.event = some r.event ∧ m'.denote x.target = some r.target ∧
            m'.denote x.type = some r.type ∧ x.payload.denote m' = some r.payload ↔
            d.Undisturbed system m.result.length m.root id) := by
  simp only [materialize, Option.bind_eq_bind, Option.bind_eq_some_iff] at h
  obtain ⟨⟨⟨eventId, event⟩, ma⟩, hevent, ⟨⟨target, internal⟩, mb⟩, htarget, ⟨type, mc⟩, htype,
    delayMs, hdelay, ⟨c, md⟩, hcontent, ⟨payload, me⟩, hpayload, heq⟩ := h
  split_ifs at heq
  cases heq
  obtain ⟨te, hte⟩ := materializeEvent_spec hevent
  obtain ⟨hinternal, tt, htt⟩ := materializeTarget_spec htarget
  obtain ⟨ty, hty⟩ := materializeType_spec htype
  -- every memory on the way has the root object and the capacity of the first one
  have hroota := hte.root
  have hrootb := htt.root.trans hroota
  have hrootc := hty.root.trans hrootb
  have hcapa := hte.capacity
  have hcapb := htt.capacity.trans hcapa
  have hcapc := hty.capacity.trans hcapb
  have hinternalc : d.isInternal system mc.result.length mc.root = internal := by
    rw [hrootc, hcapc, ← hroota, ← hcapa, hinternal]
  obtain ⟨hme, cv, v, hcv, hv, hdenote⟩ := payload_spec hinternalc hcontent hpayload
  have hvaluea := hte.value
  have hvalueb := htt.value
  have hvaluec := hty.value
  rw [hrootc, hcapc] at hcv hv hdenote hme hinternalc
  rw [hroota, hcapa] at hvalueb
  rw [hrootb, hcapb] at hvaluec
  refine ⟨by rw [hme, Memory.keepResults_root, hrootc], ?_, ⟨te, tt, ty, id, delayMs, v⟩, ?_, rfl,
    rfl, fun m' hafter => ?_⟩
  · rw [hme, hty.memory, htt.memory, hte.memory]
    rfl
  · have hdelayValue : d.delayValue system m.root = some delayMs := by
      rw [← hrootc]
      exact hdelay
    simp only [values, hvaluea, hvalueb, hvaluec, hdelayValue, hcv, hv, Option.bind_eq_bind,
      Option.bind_some]
  · have hafterc : After mc m' (d.payloadKept system m.result.length m.root)
        (d.idLocation.map fun location => (location, id)) := by
      subst hme
      simpa only [List.append_nil] using hafter.keepResults
    have hafterb := hty.after hafterc
    have haftera := htt.after hafterb
    have hassigned : (d.idLocation.map fun location => (location, id)).map Prod.fst =
        d.idLocation := by
      rw [Option.map_map]
      exact Option.map_id'
    rw [hte.denote_iff haftera, htt.denote_iff hafterb, hty.denote_iff hafterc,
      hdenote m' _ hafter, hassigned, hroota, hcapa, hrootb, hcapb, ← hinternalc]
    constructor
    · rintro ⟨he, ht, hy, hcontent, hnamed⟩
      exact ⟨by rwa [List.append_assoc], ht, hy, hcontent, hnamed⟩
    · intro hall
      have he := hall.event
      rw [List.append_assoc] at he
      exact ⟨he, hall.target, hall.type, hall.content, hall.named⟩

/-! ## Requests -/

theorem materializeSendIdLocation_spec
    (h : materializeSendIdLocation session system d m = (m', some view)) :
    view = .constant (d.requestId session m) ∧
      After m m' [] (d.idLocation.map fun location => (location, d.requestId session m)) := by
  unfold materializeSendIdLocation at h
  unfold SendDescriptor.requestId
  cases hlocation : d.idLocation with
  | none =>
    rw [hlocation] at h
    cases h
    exact ⟨rfl, rfl, rfl, rfl⟩
  | some location =>
    simp only [hlocation] at h
    split_ifs at h
    · cases h
    · cases h
      exact ⟨rfl, rfl, rfl, rfl⟩
    · cases h

variable {r : SendRequest M (View M) M.Object}

theorem SendRequest.denote_eq_some {v : SendRequest M Text (ObjectValue M)} : r.denote m = some v ↔
      m.denote r.event = some v.event ∧ m.denote r.target = some v.target ∧
        m.denote r.type = some v.type ∧ m.denote r.id = some v.id ∧ r.delayMs = v.delayMs ∧
        r.payload.denote m = some v.payload := by
  simp only [denote, Option.bind_eq_bind, Option.bind_eq_some_iff, Option.some_inj]
  constructor
  · rintro ⟨_, he, _, ht, _, hy, _, hi, _, hp, rfl⟩
    exact ⟨he, ht, hy, hi, rfl, hp⟩
  · rintro ⟨he, ht, hy, hi, hd, hp⟩
    exact ⟨_, he, _, ht, _, hy, _, hi, _, hp, by rw [hd]⟩

/-- **Sends** show their values exactly when no field is disturbed. -/
theorem send_faithful_iff (h : executeSend session system d m = (.request r, m')) :
    ∃ v, d.values session system m.result.length m.root (d.requestId session m) = some v ∧
      (r.denote m' = some v ↔
        d.Undisturbed system m.result.length m.root (d.requestId session m)) := by
  unfold executeSend at h
  cases hmaterialize : d.materialize session system m with
  | none =>
    rw [hmaterialize] at h
    cases h
  | some result =>
    obtain ⟨x, m₁⟩ := result
    obtain ⟨-, htoken, v, hv, hid, hdelay, hdenote⟩ :=
      SendDescriptor.materialize_spec (d.requestId session m) hmaterialize
    have hrequestId : d.requestId session m₁ = d.requestId session m := by
      unfold SendDescriptor.requestId Memory.generatedSendId
      rw [htoken]
    simp only [hmaterialize] at h
    cases hidLocation : materializeSendIdLocation session system d m₁ with
    | mk m₂ view =>
      cases view with
      | none =>
        rw [hidLocation] at h
        cases h
      | some view =>
        obtain ⟨hview, hafter⟩ := materializeSendIdLocation_spec hidLocation
        rw [hrequestId] at hview hafter
        simp only [hidLocation, Prod.mk.injEq] at h
        obtain ⟨hdispatch, rfl⟩ := h
        have hr : r = ⟨x.event, x.target, x.type, view, x.delayMs, x.payload⟩ := by
          unfold SendDescriptor.dispatch SendDescriptor.sendInternal at hdispatch
          split_ifs at hdispatch
          · cases hcontent : d.internalData system x.content m₂ <;>
              rw [hcontent] at hdispatch <;> cases hdispatch
          · cases hdispatch
            rfl
        refine ⟨v, hv, ?_⟩
        rw [← hdenote m₂ hafter, SendRequest.denote_eq_some, hr, hview, hid, hdelay]
        simp only [denote_constant, true_and]

/-! ## Invocations -/

theorem materializeInvocationString_spec
    (h : materializeInvocationString system literal expression m = some (view, m₁)) :
    ∃ t, HasField system m m₁ literal expression view t := by
  unfold materializeInvocationString at h
  cases expression with
  | none =>
    cases h
    exact ⟨literal, hasField_literal m literal⟩
  | some p =>
    simp only [Option.bind_eq_bind, Option.bind_eq_some_iff] at h
    obtain ⟨⟨⟨view', t⟩, m₂⟩, hp, heq⟩ := h
    split_ifs at heq
    cases heq
    exact ⟨t, evaluateString_spec literal hp⟩

theorem ContentDescriptor.undisturbed_none (content : ContentDescriptor M) :
    content.Undisturbed system capacity root none := by
  cases content with
  | scalar p => exact fun p _ v _ => p.undisturbed_nil v
  | cmeta object => exact nofun
  | _ => exact trivial

theorem InvokeDescriptor.payload_spec {d : InvokeDescriptor M}
    (h : d.materializePayload system m = some (x, m₁)) :
    m₁ = m.keepResults (d.payloadKept system m.result.length m.root) ∧
      ∃ v, d.payloadValue system m.result.length m.root = some v ∧
        ∀ m', After m₁ m' [] none →
          (x.denote m' = some v ↔
            (d.content = .invalid →
              NamedUndisturbed system m.result.length m.root none d.payload)) := by
  unfold materializePayload at h
  unfold payloadKept payloadValue
  cases hcontent : d.content with
  | invalid =>
    rw [hcontent] at h
    obtain ⟨hm₁, -, v, hv, hdenote⟩ := materializePayload_spec none h
    refine ⟨hm₁, v, hv, fun m' hafter => ?_⟩
    rw [hdenote m' none hafter]
    simp only [Option.elim_none, Payload.denote, implies_true, true_and, Option.map_none,
      forall_const]
  | _ =>
    simp only [hcontent, Option.map_eq_some_iff] at h
    obtain ⟨⟨c, m₂⟩, hc, heq⟩ := h
    cases heq
    obtain ⟨hm₁, -, v, hv, -, hdenote⟩ := ContentDescriptor.materialize_spec hc
    refine ⟨hm₁, contentPayload v, by simp only [hv, Option.map_some], fun m' hafter => ?_⟩
    refine iff_of_true ((hdenote m' none hafter).mpr ?_) nofun
    exact ContentDescriptor.undisturbed_none _

variable {r : StartRequest M (View M) M.Object}

theorem StartRequest.denote_eq_some {v : StartRequest M Text (ObjectValue M)} :
    r.denote m = some v ↔
      r.token = v.token ∧ m.denote r.id = some v.id ∧ m.denote r.type = some v.type ∧
        m.denote r.src = some v.src ∧ r.autoforward = v.autoforward ∧
        r.payload.denote m = some v.payload := by
  simp only [denote, Option.bind_eq_bind, Option.bind_eq_some_iff, Option.some_inj]
  constructor
  · rintro ⟨_, hi, _, hy, _, hs, _, hp, rfl⟩
    exact ⟨rfl, hi, hy, hs, rfl, hp⟩
  · rintro ⟨ht, hi, hy, hs, ha, hp⟩
    exact ⟨_, hi, _, hy, _, hs, _, hp, by rw [ht, ha]⟩

/-- **Invocations.** The id is written first, so that only a script can reach a field. -/
theorem invocation_faithful_iff {d : InvokeDescriptor M} {token : ℕ}
    (h : startInvocation system d token m = some (r, m')) :
    ∃ m₀ v, d.writeIdLocation system token m = some m₀ ∧
      d.values system m.result.length m₀.root token = some v ∧
      (r.denote m' = some v ↔ d.Undisturbed system m.result.length m₀.root) := by
  simp only [startInvocation, Option.bind_eq_bind, Option.bind_eq_some_iff] at h
  obtain ⟨m₀, hwrite, ⟨type, ma⟩, htype, ⟨src, mb⟩, hsrc, ⟨payload, mc⟩, hpayload, heq⟩ := h
  cases heq
  have hcapacity : m₀.result.length = m.result.length := by
    unfold InvokeDescriptor.writeIdLocation at hwrite
    split at hwrite
    · cases hwrite
      rfl
    · dsimp only at hwrite
      split_ifs at hwrite
      cases hwrite
      rfl
  obtain ⟨ty, hty⟩ := materializeInvocationString_spec htype
  obtain ⟨ts, hts⟩ := materializeInvocationString_spec hsrc
  obtain ⟨hmc, v, hv, hdenote⟩ := InvokeDescriptor.payload_spec hpayload
  have hroota := hty.root
  have hrootb := hts.root.trans hroota
  have hcapa := hty.capacity.trans hcapacity
  have hcapb := hts.capacity.trans hcapa
  have hvaluea := hty.value
  have hvalueb := hts.value
  rw [hrootb, hcapb] at hv hdenote hmc
  rw [hcapacity] at hvaluea
  rw [hroota, hcapa] at hvalueb
  refine ⟨m₀, ⟨token, d.requestId token, ty, ts, d.autoforward, v⟩, hwrite, ?_, ?_⟩
  · simp only [InvokeDescriptor.values, hvaluea, hvalueb, hv, Option.bind_eq_bind,
      Option.bind_some]
  · have hafter : After mc mc [] none := After.refl mc []
    have hafterb : After mb mc (d.payloadKept system m.result.length m₀.root) none := by
      subst hmc
      exact After.refl mb _
    have haftera := hts.after hafterb
    rw [StartRequest.denote_eq_some]
    simp only [denote_constant, true_and]
    rw [hty.denote_iff haftera, hts.denote_iff hafterb, hdenote mc hafter, hroota, hcapa,
      hcapacity]
    exact ⟨fun ⟨hy, hs, hp⟩ => ⟨hy, hs, hp⟩, fun hall => ⟨hall.type, hall.src, hall.named⟩⟩

/-- **Main.** The request of an element shows the values of its own expressions, each in the state
it was evaluated in, exactly when no field of it is disturbed. -/
theorem request_faithful_iff (session : Session) (system : SystemValues M) :
    (∀ (d : SendDescriptor M) (m m' : Memory M) (r : SendRequest M (View M) M.Object),
      executeSend session system d m = (.request r, m') →
        ∃ v, d.values session system m.result.length m.root (d.requestId session m) = some v ∧
          (r.denote m' = some v ↔
            d.Undisturbed system m.result.length m.root (d.requestId session m))) ∧
    (∀ (d : InvokeDescriptor M) (token : ℕ) (m m' : Memory M)
        (r : StartRequest M (View M) M.Object),
      startInvocation system d token m = some (r, m') →
        ∃ m₀ v, d.writeIdLocation system token m = some m₀ ∧
          d.values system m.result.length m₀.root token = some v ∧
          (r.denote m' = some v ↔ d.Undisturbed system m.result.length m₀.root)) :=
  ⟨fun _ _ _ _ h => send_faithful_iff h, fun _ _ _ _ _ h => invocation_faithful_iff h⟩

/-! ## Sample elements -/

def sampleModel : DataModel where
  Real := ℕ
  Location := Bool
  locationDecEq := inferInstance
  Path := Empty
  Object := Empty
  leaves := nofun
  isRoot := nofun
  exactSint n := some n
  exactUint n := some n
  assigns _ := true
  nmtoken _ := true
  printed _ := []
  decimal n := List.replicate n '1'
  store location value root := some (Function.update root location value)
  copyData := some

def sampleSession : Session where
  present := true
  sessionId := ['s']
  defaultType := ['t']
  eventName text := if text = ['g', 'o'] then some 1 else none
  hasEventIo := true
  tagged := true
  metadataRowFree := true

def sampleSystem : SystemValues sampleModel where
  name := none
  sessionId := some ['s']
  event _ := none
  eventData := nofun
  supplemental := nofun
  ioprocessors := []
  active _ := false
  bound _ := true
  objectBound := nofun

def sampleMemory : Memory sampleModel where
  root := fun location : Bool => .string (if location then ['g', 'o'] else ['u', 'p'])
  generation _ := 0
  result := ['\x00', '\x00', '\x00', '\x00']
  nextSendToken := 1

def sampleScript (text : Text) : ExprProgram sampleModel :=
  .external .string fun _ _ => some (.string text)

def sampleNative (location : Bool) : ExprProgram sampleModel := .text (.location location) 8

/-- `<send eventexpr=… targetexpr=…/>`. -/
def sampleSend (eventExpr targetExpr : ExprProgram sampleModel) (idLocation : Option Bool) :
    SendDescriptor sampleModel where
  eventId := 0
  event := []
  eventExpr := some eventExpr
  target := []
  internalTarget := false
  targetExpr := some targetExpr
  type := []
  typeExpr := none
  delayMs := 0
  delayExpr := none
  content := .invalid
  payload := []
  internalAssignments := []
  id := []
  idLocation := idLocation

def sampleInvoke (typeExpr srcExpr : ExprProgram sampleModel) : InvokeDescriptor sampleModel where
  id := ['i']
  ownerIdSize := 1
  dynamicIdMaxSize := 8
  idLocation := none
  type := []
  typeExpr := some typeExpr
  src := []
  srcExpr := some srcExpr
  content := .invalid
  payload := []
  autoforward := false

theorem request_faithful_iff_sample :
    (∃ r m' v, executeSend sampleSession sampleSystem
        (sampleSend (sampleNative true) (sampleNative true) (some false)) sampleMemory =
          (.request r, m') ∧
        r.denote m' = some v ∧ v.event = ['g', 'o']) ∧
      ∃ r m' v, startInvocation sampleSystem (sampleInvoke (sampleNative true) (sampleScript ['x']))
          1 sampleMemory = some (r, m') ∧
        r.denote m' = some v ∧ v.src = ['x'] := by
  obtain ⟨v, hv, hsend⟩ := (request_faithful_iff sampleSession sampleSystem).1
    (sampleSend (sampleNative true) (sampleNative true) (some false)) sampleMemory _ _ rfl
  obtain ⟨m₀, w, hm₀, hw, hinvoke⟩ := (request_faithful_iff sampleSession sampleSystem).2
    (sampleInvoke (sampleNative true) (sampleScript ['x'])) 1 sampleMemory _ _ rfl
  have hother : (some false : Option Bool) ≠ some true := by decide
  have hundisturbed : ∀ (p : ExprProgram sampleModel) (later : List Text), p = sampleNative true →
      ∀ v, p.Undisturbed v later (some false) := by
    rintro p later rfl (s | t)
    · exact trivial
    · exact .inr hother
  refine ⟨⟨_, _, v, rfl, hsend.mpr ⟨?_, ?_, ?_, fun _ _ => trivial, fun _ => trivial⟩, ?_⟩,
    ⟨_, _, w, rfl, hinvoke.mpr ⟨?_, ?_, fun _ => trivial⟩, ?_⟩⟩
  · exact fun p hp v _ => hundisturbed p _ (Option.some_inj.mp hp).symm v
  · exact fun p hp v _ => hundisturbed p _ (Option.some_inj.mp hp).symm v
  · exact fun p hp => (by cases hp)
  · cases hv
    rfl
  · rintro _ ⟨⟩ (s | t) _
    · exact trivial
    · exact .inr nofun
  · rintro _ ⟨⟩ v _
    exact (sampleScript ['x']).undisturbed_nil v
  · cases hm₀
    cases hw
    rfl

theorem request_unfaithful :
    (∃ r m', executeSend sampleSession sampleSystem
        (sampleSend (sampleScript ['g', 'o']) (sampleScript ['u']) none) sampleMemory =
          (.request r, m') ∧
        m'.denote r.event = some ['u', '\x00'] ∧
        fieldValue sampleSystem 4 sampleMemory.root [] (some (sampleScript ['g', 'o'])) =
          some ['g', 'o']) ∧
      ∃ r m', executeSend sampleSession sampleSystem
        (sampleSend (sampleNative true) (sampleNative false) (some false)) sampleMemory =
          (.request r, m') ∧
        m'.denote r.target = none ∧
        fieldValue sampleSystem 4 sampleMemory.root [] (some (sampleNative false)) =
          some ['u', 'p'] :=
  ⟨⟨_, _, rfl, rfl, rfl⟩, ⟨_, _, rfl, rfl, rfl⟩⟩

end TurboScxml.Requests
