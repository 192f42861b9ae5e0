import TurboScxml.Lib.Orbits
import Mathlib.Tactic.SplitIfs

/-!
# The start of a literal session

A program of the base profile runs to its end in one call: the first action of a form ends the
session, or it is a goto that leads to another form. A bound on the gotos finds the cycles.

* `startLiteralAt`: `vxml_session_start_literal_at`;
* **`startLiteralAt_exact`**: a start fails exactly if its gotos come back to a form, and ends with
  the first action that is no goto otherwise.
-/

namespace TurboScxml.Voice.LiteralStart

open Orbits (orbit Repeats)

/-! ## Programs -/

structure View where
  data : Option ℕ
  size : ℕ
  deriving DecidableEq

inductive ActionKind
  | exitSession | localGoto | gotoExternal | submit | scriptExternal | data | returnAction
  | disconnect
  deriving DecidableEq

/-- `vxml_submit_method`. -/
inductive Method
  | get | post
  deriving DecidableEq

/-- `vxml_submit_enctype`. -/
inductive Enctype
  | urlencoded | multipartFormData
  deriving DecidableEq

/-- `vxml_action_row`, as far as a start reads it. -/
structure ActionRow where
  kind : ActionKind
  targetForm : ℕ
  targetUri : View
  fetchaudioUri : View
  submitMethod : Option Method
  submitEnctype : Option Enctype
  scriptSrc : View
  scriptCharset : View
  deriving DecidableEq

structure BlockRow where
  firstAction : ℕ
  actionCount : ℕ
  deriving DecidableEq

/-- The range of blocks of `vxml_form_row`. -/
structure FormRow where
  firstBlock : ℕ
  blockCount : ℕ
  deriving DecidableEq

/-- The tables of `vxml_program_impl`. -/
structure Program where
  forms : List FormRow
  blocks : List BlockRow
  actions : List ActionRow
  storage : List UInt8
  deriving DecidableEq

def rangeIsValid (first count total : ℕ) : Bool := decide (first ≤ total ∧ count ≤ total - first)

/-- `program_uri_view_valid`. -/
def Program.uriViewValid (P : Program) (view : View) : Bool :=
  view.data.any fun offset =>
    decide (view.size ≠ 0 ∧ offset < P.storage.length ∧ view.size < P.storage.length - offset ∧
      P.storage[offset + view.size]? = some 0)

/-! ## Sessions -/

/-- `vxml_session_state`. -/
inductive State
  | ready | running | exited | failed | closed | navigating | submitting | scripting
  deriving DecidableEq

/-- `vxml_status`, as far as a start gives it. -/
inductive Status
  | ok | invalidStructure
  deriving DecidableEq

/-- What a start of `vxml_session_impl` writes. -/
structure Session where
  state : State
  error : Status
  navigationUri : View
  navigationFetchaudioUri : View
  navigationFetchaudioDelay : Option ℕ
  navigationFetchaudioMinimum : Option ℕ
  submitUri : View
  submitMethod : Option Method
  submitEnctype : Option Enctype
  submitFieldCount : ℕ
  submitTimeout : Option ℕ
  submitFetchaudioUri : View
  submitFetchaudioDelay : Option ℕ
  submitFetchaudioMinimum : Option ℕ
  scriptSrc : View
  scriptCharset : View
  deriving DecidableEq

def Session.failStructure (s : Session) : Session × Status :=
  ({ s with state := .failed, error := .invalidStructure }, .invalidStructure)

def Session.exit (s : Session) : Session := { s with state := .exited }

def Session.leave (s : Session) (action : ActionRow) : Session :=
  match action.kind with
  | .scriptExternal =>
    { s with
      scriptSrc := action.scriptSrc, scriptCharset := action.scriptCharset, state := .scripting }
  | .submit =>
    { s with
      submitUri := action.targetUri, submitMethod := action.submitMethod
      submitEnctype := action.submitEnctype, submitFieldCount := 0, submitTimeout := none
      submitFetchaudioUri := ⟨none, 0⟩, submitFetchaudioDelay := none
      submitFetchaudioMinimum := none, state := .submitting }
  | .gotoExternal =>
    { s with
      navigationUri := action.targetUri, navigationFetchaudioUri := action.fetchaudioUri
      navigationFetchaudioDelay := none, navigationFetchaudioMinimum := none
      state := .navigating }
  | _ => s.exit

def Program.leaveValid (P : Program) (action : ActionRow) : Bool :=
  match action.kind with
  | .exitSession => true
  | .scriptExternal => P.uriViewValid action.scriptSrc && P.uriViewValid action.scriptCharset
  | .submit =>
    P.uriViewValid action.targetUri && action.submitMethod.isSome &&
      action.submitEnctype == some .urlencoded
  | .gotoExternal =>
    P.uriViewValid action.targetUri &&
      (if action.fetchaudioUri.data = none then decide (action.fetchaudioUri.size = 0)
        else P.uriViewValid action.fetchaudioUri)
  | _ => false

/-! ## The start -/

inductive Turn
  | invalid
  | ended (session : Session)
  | jump (target : ℕ)
  | silent
  deriving DecidableEq

def Program.blockAction (P : Program) (block : BlockRow) : Option (Option ActionRow) :=
  if 1 < block.actionCount ∨
      rangeIsValid block.firstAction block.actionCount P.actions.length = false then none
  else if block.actionCount = 0 then some none
  else P.actions[block.firstAction]?.map some

def Program.runAction (P : Program) (s : Session) (action : ActionRow) : Turn :=
  match action.kind with
  | .exitSession | .scriptExternal | .submit | .gotoExternal =>
    if P.leaveValid action then .ended (s.leave action) else .invalid
  | .localGoto =>
    if P.forms.length ≤ action.targetForm then .invalid else .jump action.targetForm
  | _ => .invalid

def Program.runBlocks (P : Program) (s : Session) : List BlockRow → Turn
  | [] => .silent
  | block :: rest =>
    match P.blockAction block with
    | none => .invalid
    | some none => P.runBlocks s rest
    | some (some action) => P.runAction s action

def Program.formBlocks (P : Program) (form : FormRow) : List BlockRow :=
  (P.blocks.drop form.firstBlock).take form.blockCount

def startFrom (P : Program) (s : Session) (formIndex transitions : ℕ) : Session × Status :=
  match P.forms[formIndex]? with
  | none => s.failStructure
  | some form =>
    if form.blockCount = 0 ∨
        rangeIsValid form.firstBlock form.blockCount P.blocks.length = false then s.failStructure
    else
      match P.runBlocks s (P.formBlocks form) with
      | .invalid => s.failStructure
      | .ended s' => (s', .ok)
      | .silent => (s.exit, .ok)
      | .jump target =>
        if _h : P.forms.length ≤ transitions then s.failStructure
        else startFrom P s target (transitions + 1)
termination_by P.forms.length - transitions

def startLiteralAt (P : Program) (s : Session) (formIndex : ℕ) : Session × Status :=
  if P.forms = [] then s.failStructure else startFrom P s formIndex 0

/-! ## Valid programs -/

def Program.actionValid (P : Program) (action : ActionRow) : Bool :=
  if action.kind = .localGoto then decide (action.targetForm < P.forms.length)
  else P.leaveValid action

structure Program.Valid (P : Program) : Prop where
  forms : ∀ form ∈ P.forms, form.blockCount ≠ 0 ∧
    rangeIsValid form.firstBlock form.blockCount P.blocks.length = true
  blocks : ∀ block ∈ P.blocks, block.actionCount ≤ 1 ∧
    rangeIsValid block.firstAction block.actionCount P.actions.length = true
  actions : ∀ action ∈ P.actions, P.actionValid action = true

def Program.actionOf (P : Program) (block : BlockRow) : Option ActionRow :=
  if block.actionCount = 0 then none else P.actions[block.firstAction]?

def Program.firstAction (P : Program) (formIndex : ℕ) : Option ActionRow :=
  P.forms[formIndex]?.bind fun form => (P.formBlocks form).findSome? P.actionOf

def Program.localGoto (P : Program) (formIndex : ℕ) : Option ℕ :=
  (P.firstAction formIndex).bind fun action =>
    if action.kind = .localGoto then some action.targetForm else none

def Session.endWith (s : Session) : Option ActionRow → Session
  | none => s.exit
  | some action => s.leave action

variable {P : Program} {block : BlockRow}

theorem Program.Valid.blockAction (h : P.Valid) (hmem : block ∈ P.blocks) :
    P.blockAction block = some (P.actionOf block) := by
  obtain ⟨hcount, hrange⟩ := h.blocks block hmem
  rw [Program.blockAction, Program.actionOf, if_neg]
  · split_ifs with hzero
    · rfl
    · rw [rangeIsValid, decide_eq_true_eq] at hrange
      rw [List.getElem?_eq_getElem (by omega)]
      rfl
  · rw [hrange]
    rintro (hmany | hout)
    · omega
    · cases hout

variable {action : ActionRow}

theorem mem_actions_of_actionOf (haction : P.actionOf block = some action) :
    action ∈ P.actions := by
  rw [Program.actionOf] at haction
  split_ifs at haction
  exact List.mem_of_getElem? haction

def Program.turnOf (P : Program) (s : Session) : Option ActionRow → Turn
  | none => .silent
  | some action => P.runAction s action

/-- **The blocks of a form do what the first action does.** -/
theorem Program.Valid.runBlocks (h : P.Valid) (s : Session) {blocks : List BlockRow}
    (hmem : ∀ block ∈ blocks, block ∈ P.blocks) :
    P.runBlocks s blocks = P.turnOf s (blocks.findSome? P.actionOf) := by
  induction blocks with
  | nil => rfl
  | cons block rest ih =>
    rw [Program.runBlocks, h.blockAction (hmem block List.mem_cons_self), List.findSome?_cons]
    cases haction : P.actionOf block with
    | none => exact ih fun b hb => hmem b (List.mem_cons_of_mem block hb)
    | some action => rfl

theorem Program.Valid.targetForm_lt (h : P.Valid) (hmem : action ∈ P.actions)
    (hkind : action.kind = .localGoto) :
    action.targetForm < P.forms.length := by
  have hvalid := h.actions action hmem
  rw [Program.actionValid, if_pos hkind, decide_eq_true_eq] at hvalid
  exact hvalid

theorem Program.Valid.runAction_goto (h : P.Valid) (s : Session) (hmem : action ∈ P.actions)
    (hkind : action.kind = .localGoto) :
    P.runAction s action = .jump action.targetForm := by
  rw [Program.runAction, hkind]
  exact if_neg (Nat.not_le_of_lt (h.targetForm_lt hmem hkind))

theorem Program.Valid.runAction_leave (h : P.Valid) (s : Session) (hmem : action ∈ P.actions)
    (hkind : action.kind ≠ .localGoto) :
    P.runAction s action = .ended (s.leave action) := by
  have hvalid := h.actions action hmem
  rw [Program.actionValid, if_neg hkind] at hvalid
  rw [Program.runAction]
  cases hk : action.kind with
  | localGoto => exact absurd hk hkind
  | exitSession | scriptExternal | submit | gotoExternal => exact if_pos hvalid
  | data | returnAction | disconnect =>
    rw [Program.leaveValid, hk] at hvalid
    cases hvalid

/-! ## Turns of the loop -/

section

variable {s : Session} {formIndex transitions : ℕ}

theorem mem_actions_of_firstAction (haction : P.firstAction formIndex = some action) :
    action ∈ P.actions := by
  obtain ⟨form, -, hfirst⟩ := Option.bind_eq_some_iff.mp haction
  obtain ⟨block, -, hblock⟩ := List.exists_of_findSome?_eq_some hfirst
  exact mem_actions_of_actionOf hblock

variable {target : ℕ}

theorem Program.Valid.localGoto_lt (h : P.Valid) (hgoto : P.localGoto formIndex = some target) :
    target < P.forms.length := by
  obtain ⟨action, haction, htarget⟩ := Option.bind_eq_some_iff.mp hgoto
  split_ifs at htarget with hkind
  cases htarget
  exact h.targetForm_lt (mem_actions_of_firstAction haction) hkind

theorem Program.Valid.turn (h : P.Valid) {form : FormRow}
    (hform : P.forms[formIndex]? = some form) :
    ¬(form.blockCount = 0 ∨
        rangeIsValid form.firstBlock form.blockCount P.blocks.length = false) ∧
      P.runBlocks s (P.formBlocks form) = P.turnOf s (P.firstAction formIndex) := by
  obtain ⟨hcount, hrange⟩ := h.forms form (List.mem_of_getElem? hform)
  constructor
  · rw [hrange]
    rintro (hzero | hout)
    · exact hcount hzero
    · cases hout
  · rw [Program.firstAction, hform, Option.bind_some]
    exact h.runBlocks s fun block hblock =>
      List.mem_of_mem_drop (List.mem_of_mem_take hblock)

/-- **A form that leads to another one.** -/
theorem Program.Valid.startFrom_goto (h : P.Valid) (hform : formIndex < P.forms.length)
    (hgoto : P.localGoto formIndex = some target) :
    startFrom P s formIndex transitions =
      if P.forms.length ≤ transitions then s.failStructure
      else startFrom P s target (transitions + 1) := by
  have hsome := List.getElem?_eq_getElem hform
  obtain ⟨hranges, hturn⟩ := h.turn (s := s) hsome
  obtain ⟨action, haction, htarget⟩ := Option.bind_eq_some_iff.mp hgoto
  split_ifs at htarget with hkind
  cases htarget
  rw [haction, Program.turnOf,
    h.runAction_goto s (mem_actions_of_firstAction haction) hkind] at hturn
  rw [startFrom, hsome]
  dsimp only
  rw [if_neg hranges, hturn]
  rfl

/-- **A form that the start ends in.** -/
theorem Program.Valid.startFrom_last (h : P.Valid) (hform : formIndex < P.forms.length)
    (hlast : P.localGoto formIndex = none) :
    startFrom P s formIndex transitions = (s.endWith (P.firstAction formIndex), .ok) := by
  have hsome := List.getElem?_eq_getElem hform
  obtain ⟨hranges, hturn⟩ := h.turn (s := s) hsome
  rw [startFrom, hsome]
  dsimp only
  rw [if_neg hranges]
  cases haction : P.firstAction formIndex with
  | none =>
    rw [haction, Program.turnOf] at hturn
    rw [hturn]
    rfl
  | some action =>
    have hkind : action.kind ≠ .localGoto := by
      intro hgoto
      rw [Program.localGoto, haction, Option.bind_some, if_pos hgoto] at hlast
      cases hlast
    rw [haction, Program.turnOf,
      h.runAction_leave s (mem_actions_of_firstAction haction) hkind] at hturn
    rw [hturn]
    rfl

end

/-! ## The chain of gotos -/

variable {s : Session} {start : ℕ}

variable (h : P.Valid)
include h

theorem Program.Valid.orbit_lt (hstart : start < P.forms.length) (n : ℕ)
    {formIndex : ℕ} (horbit : orbit P.localGoto start n = some formIndex) :
    formIndex < P.forms.length := by
  cases n with
  | zero =>
    cases horbit
    exact hstart
  | succ n =>
    obtain ⟨before, -, hgoto⟩ := Option.bind_eq_some_iff.mp horbit
    exact h.localGoto_lt hgoto

theorem Program.Valid.startFrom_orbit (hstart : start < P.forms.length) {n : ℕ}
    (hn : n ≤ P.forms.length) {formIndex : ℕ}
    (horbit : orbit P.localGoto start n = some formIndex) :
    startFrom P s start 0 = startFrom P s formIndex n := by
  induction n generalizing formIndex with
  | zero =>
    cases horbit
    rfl
  | succ n ih =>
    obtain ⟨before, hbefore, hgoto⟩ := Option.bind_eq_some_iff.mp horbit
    rw [ih (Nat.le_of_succ_le hn) hbefore,
      h.startFrom_goto (h.orbit_lt hstart n hbefore) hgoto, if_neg (Nat.not_le_of_lt hn)]

theorem Program.Valid.repeats_iff (hstart : start < P.forms.length) :
    Repeats P.localGoto start ↔ (orbit P.localGoto start P.forms.length).isSome := by
  have hmem : ∀ k x, orbit P.localGoto start k = some x → x ∈ Finset.range P.forms.length :=
    fun k x hx => Finset.mem_range.mpr (h.orbit_lt hstart k hx)
  rw [Orbits.repeats_iff hmem, Finset.card_range]

/-- **A chain that comes back fails.** -/
theorem Program.Valid.startFrom_repeats (hstart : start < P.forms.length)
    (hrepeats : Repeats P.localGoto start) : startFrom P s start 0 = s.failStructure := by
  obtain ⟨formIndex, horbit⟩ := Option.isSome_iff_exists.mp (hrepeats.isSome P.forms.length)
  obtain ⟨target, htarget⟩ := Option.isSome_iff_exists.mp (hrepeats.isSome (P.forms.length + 1))
  rw [orbit, horbit, Option.bind_some] at htarget
  rw [h.startFrom_orbit hstart (Nat.le_refl _) horbit,
    h.startFrom_goto (h.orbit_lt hstart _ horbit) htarget, if_pos (Nat.le_refl _)]

/-- **Any other chain ends with its last form.** -/
theorem Program.Valid.startFrom_ends (hstart : start < P.forms.length)
    (hrepeats : ¬Repeats P.localGoto start) :
    ∃ n last, orbit P.localGoto start n = some last ∧ P.localGoto last = none ∧
      startFrom P s start 0 = (s.endWith (P.firstAction last), .ok) := by
  rw [h.repeats_iff hstart, Bool.not_eq_true] at hrepeats
  obtain ⟨n, last, hlt, horbit, hlast⟩ := Orbits.exists_last hrepeats
  refine ⟨n, last, horbit, hlast, ?_⟩
  rw [h.startFrom_orbit hstart (Nat.le_of_lt hlt) horbit]
  exact h.startFrom_last (h.orbit_lt hstart n horbit) hlast

/-- **Main.** A start fails exactly if its gotos come back to a form, and ends with the first action
that is no goto otherwise. -/
theorem startLiteralAt_exact (s : Session) (hstart : start < P.forms.length) :
    ((startLiteralAt P s start).2 = .invalidStructure ↔ Repeats P.localGoto start) ∧
      (Repeats P.localGoto start → startLiteralAt P s start = s.failStructure) ∧
      (¬Repeats P.localGoto start →
        ∃ n last, orbit P.localGoto start n = some last ∧ P.localGoto last = none ∧
          startLiteralAt P s start = (s.endWith (P.firstAction last), .ok)) := by
  have hforms : P.forms ≠ [] := List.ne_nil_of_length_pos (Nat.zero_lt_of_lt hstart)
  rw [startLiteralAt, if_neg hforms]
  refine ⟨⟨fun hfails => ?_, fun hrepeats => ?_⟩, h.startFrom_repeats hstart,
    h.startFrom_ends hstart⟩
  · by_contra hrepeats
    obtain ⟨n, last, -, -, hends⟩ := h.startFrom_ends (s := s) hstart hrepeats
    rw [hends] at hfails
    cases hfails
  · rw [h.startFrom_repeats hstart hrepeats]
    rfl

/-! ## A program with a cycle -/

omit h

def sampleAction (kind : ActionKind) (targetForm : ℕ) : ActionRow :=
  ⟨kind, targetForm, ⟨none, 0⟩, ⟨none, 0⟩, none, none, ⟨none, 0⟩, ⟨none, 0⟩⟩

def sampleProgram : Program where
  forms := [⟨0, 1⟩, ⟨1, 2⟩, ⟨3, 1⟩, ⟨4, 1⟩]
  blocks := [⟨0, 1⟩, ⟨1, 0⟩, ⟨1, 1⟩, ⟨2, 1⟩, ⟨3, 1⟩]
  actions := [sampleAction .localGoto 1, sampleAction .localGoto 0, sampleAction .localGoto 3,
    sampleAction .exitSession 0]
  storage := []

def sampleSession : Session :=
  ⟨.running, .ok, ⟨none, 0⟩, ⟨none, 0⟩, none, none, ⟨none, 0⟩, none, none, 0, none, ⟨none, 0⟩,
    none, none, ⟨none, 0⟩, ⟨none, 0⟩⟩

theorem sampleProgram_valid : sampleProgram.Valid where
  forms := by decide
  blocks := by decide
  actions := by decide

theorem startLiteralAt_exact_sample :
    startLiteralAt sampleProgram sampleSession 0 = sampleSession.failStructure ∧
      ((startLiteralAt sampleProgram sampleSession 2).2 = .invalidStructure ↔
        Repeats sampleProgram.localGoto 2) :=
  ⟨(startLiteralAt_exact sampleProgram_valid sampleSession (by decide)).2.1
    ⟨0, 2, 0, by decide, by decide, by decide⟩,
    (startLiteralAt_exact sampleProgram_valid sampleSession (by decide)).1⟩

end TurboScxml.Voice.LiteralStart
