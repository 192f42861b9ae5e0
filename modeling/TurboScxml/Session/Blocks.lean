import TurboScxml.Session.Executor

/-!
# Blocks, finalize blocks and the supplemental transaction

`scxml_runtime.c`: the two callers of the executor, and the three views of the supplemental scope.
A block works on a copy of the state and, in its transaction, on a staged scope with a checkpoint;
a finalize block works on the state CFlow holds, copied when it is first edited.

* `executeBlock`, `executeInvocationFinalize`;
* `Stable`: what holds across the executor if it holds across its writes;
  `executeSteps_stable`.
-/

namespace TurboScxml.Session

open Function

variable {M : DataModel} {H : Host M} {cfg : Config} (P : Program)

/-! ## The supplemental transaction -/

structure BlockInput (M : DataModel) where
  surroundings : Surroundings M
  /-- `scxml_analyze_bind_current_event_system_values`. -/
  eventBound : Bool
  /-- `scxml_scope_view_copy` of the committed scope. -/
  stagingCopied : Bool
  /-- `scxml_scope_view_copy` of the staged scope. -/
  checkpointCopied : Bool

def emptyScope (M : DataModel) : M.Scope := fun _ => none

def Scopes.current (s : Scopes M) : M.Scope :=
  if s.transactionPending then s.staged else s.committed

def finalizeContext : Context := ⟨false, false, .committed⟩

def Exec.init (root : M.Root) (adapter : H.Adapter) : Exec M H cfg where
  state := root
  value := none
  scopes := ⟨emptyScope M, emptyScope M, emptyScope M, false, false⟩
  late := fun _ => .never
  lateTicketPending := false
  sends := .init cfg
  nextTicket := 0
  nextSendToken := 1
  metadata := 0
  failedSendId := none
  adapter := adapter
  raised := []
  effects := []
  writes := []
  edited := none
  strained := false

namespace Exec

/-- The checkpoint of `begin_supplemental_block`. -/
def checkpoint (x : Exec M H cfg) (input : BlockInput M) : Exec M H cfg × Option ScopeView :=
  if input.checkpointCopied then
    ({ x with scopes := { x.scopes with checkpoint := x.scopes.staged, checkpointLive := true } },
      some .staged)
  else (x, none)

variable (x : Exec M H cfg)

def beginSupplementalBlock (input : BlockInput M) : Exec M H cfg × Option ScopeView :=
  if M.slotCount = 0 then (x, some .committed)
  else if x.scopes.checkpointLive then (x, none)
  else if x.scopes.transactionPending then x.checkpoint input
  else if input.stagingCopied = false then (x, none)
  else
    match { x with
        scopes := { x.scopes with
          staged := x.scopes.committed
          transactionPending := true } }.stageEffect .supplemental with
    | none => ({ x with scopes := { x.scopes with staged := emptyScope M } }, none)
    | some x => x.checkpoint input

def settleSupplementalBlock (succeeded : Bool) : Exec M H cfg :=
  if x.scopes.checkpointLive then
    { x with
      scopes := { x.scopes with
        staged := if succeeded then x.scopes.staged else x.scopes.checkpoint
        checkpoint := emptyScope M
        checkpointLive := false } }
  else x

def commitSupplementalScope : Exec M H cfg :=
  if x.scopes.transactionPending then
    { x with
      scopes := { x.scopes with
        committed := x.scopes.staged
        staged := emptyScope M
        transactionPending := false } }
  else x

def discardSupplementalScope : Exec M H cfg :=
  if x.scopes.transactionPending then
    { x with
      scopes := { x.scopes with
        staged := emptyScope M
        transactionPending := false } }
  else x

/-! ## Blocks -/

def restoreFailedSendId : Outcome × Exec M H cfg :=
  match x.failedSendId with
  | none => (.blockAborted, { x with value := some x.state })
  | some (location, id) =>
    let (root, stored) := M.storeText location id x.state
    (if stored then .blockAborted else .fatal,
      { x with value := some root, failedSendId := none })

def copyState : Exec M H cfg :=
  { x with
    failedSendId := none
    value := some x.state
    edited := none
    strained := false }

def executeBlock (input : BlockInput M) (steps : Steps M) : Outcome × Exec M H cfg :=
  if input.eventBound = false then (.fatal, x)
  else
    match x.copyState.beginSupplementalBlock input with
    | (x, none) => (.fatal, x)
    | (x, some view) =>
      match executeSteps P ⟨true, true, view⟩ input.surroundings false steps x with
      | (.continue, x) => (.continue, { x.settleSupplementalBlock true with failedSendId := none })
      | (.blockAborted, x) => (x.settleSupplementalBlock false).restoreFailedSendId
      | (.fatal, x) =>
        (.fatal, { x.settleSupplementalBlock false with failedSendId := none, value := none })

/-- `execute_invocation_finalize`. -/
def executeInvocationFinalize (env : Surroundings M) (steps : Steps M) : Bool × Exec M H cfg :=
  match executeSteps P finalizeContext env true steps
      { x with value := none, edited := none, strained := false } with
  | (.continue, x) => (true, x)
  | (_, x) => (false, x)

end Exec

/-! ## A small data model -/

def textModel : DataModel where
  Root := Text
  Object := Text
  slotCount := 1
  Real := Unit
  View := Unit
  Location := Unit
  Path := Unit
  Expr := Text
  DelayExpr := ℕ
  ConditionExpr := Bool
  Sequence := List Text
  Script := Text
  Action := Bool
  ExternalData := Text
  evaluate e _ := some (.string e)
  evaluateDelay e _ := some (.inr e)
  evaluateCondition e _ := some e
  bound _ _ := true
  load _ root := root
  store _ value root := (value.text.getD root, value.text.isSome)
  storeText _ text _ := (text, true)
  storeSlot _ value object := (value.text.getD object, value.text.isSome)
  putItem _ object _ := some object
  putIndex _ _ root := root
  indexObject _ := []
  slotAdmits _ _ := true
  sequenceOpen sequence _ _ := some sequence
  executeScript script r := some (r.scope, some script)
  executeAction action _ := action
  loadExternal data _ := (data, true)
  nmtoken text := text != []
  scalarText value := value.text
  attachObject object := some object
  copyData root := some root

def acceptingHost : Host textModel where
  Adapter := Unit
  prepareSend _ _ := ((), ⟨.accepted, true⟩)
  prepareCancel _ _ := ((), ⟨.accepted, true⟩)
  admitsRaise _ := true
  admitsEffect _ := true
  admitsEffect_of_le _ h := h

def textProgram : Program where
  executionErrorEvent := 1
  communicationErrorEvent := 2
  eventName _ := some 3
  defaultType := []
  sessionId := []
  hasEventIo := true
  externalMetadataCapacity := 1
  decimal _ := ['1']

def textConfig : Config := ⟨1, 2, 0, fun i => i.elim0⟩

def textSession : Exec textModel acceptingHost textConfig := .init ['a'] ()

def textInput : BlockInput textModel := ⟨⟨fun _ => false, ()⟩, true, true, true⟩

/-! ## What the executor keeps -/

/-- The data and the scopes agree. -/
structure Exec.SameData (x y : Exec M H cfg) : Prop where
  state : y.state = x.state
  value : y.value = x.value
  scopes : y.scopes = x.scopes
  writes : y.writes = x.writes
  edited : y.edited = x.edited
  strained : y.strained = x.strained
  effects : x.effects <+: y.effects

theorem Exec.SameData.refl (x : Exec M H cfg) : x.SameData x :=
  ⟨rfl, rfl, rfl, rfl, rfl, rfl, List.prefix_rfl⟩

variable {x y : Exec M H cfg}

theorem Exec.SameData.trans {z : Exec M H cfg} (h : x.SameData y) (h' : y.SameData z) :
    x.SameData z :=
  ⟨h'.state.trans h.state, h'.value.trans h.value, h'.scopes.trans h.scopes,
    h'.writes.trans h.writes, h'.edited.trans h.edited, h'.strained.trans h.strained,
    h.effects.trans h'.effects⟩

/-- `I` holds across each write to the data and the scopes. -/
structure Stable (view : ScopeView) (I : Exec M H cfg → Prop) : Prop where
  sameData : ∀ {x y}, x.SameData y → I x → I y
  strain : ∀ {x : Exec M H cfg}, I x → ∀ b, (x.strained = true → b = true) →
    I { x with strained := b }
  stateGet : ∀ {x}, I x → I x.stateGet
  overwriteState : ∀ {x}, I x → ∀ root, I (x.overwriteState root)
  writeScope : ∀ {x}, I x → ∀ w, I (x.writeScope view w)
  writeStaged : ∀ {x}, I x → ∀ w, I (x.writeScope .staged w)

namespace Exec

theorem raiseInternal_sameData {raised : Raised M} (h : x.raiseInternal raised = some y) :
    x.SameData y := by
  unfold raiseInternal at h
  split at h
  · cases h
    exact ⟨rfl, rfl, rfl, rfl, rfl, rfl, List.prefix_rfl⟩
  · cases h

theorem stageEffect_sameData {effect : Effect M cfg} (h : x.stageEffect effect = some y) :
    x.SameData y := by
  unfold stageEffect at h
  split at h
  · cases h
    exact ⟨rfl, rfl, rfl, rfl, rfl, rfl, List.prefix_append _ _⟩
  · cases h

theorem raiseError_sameData (x : Exec M H cfg) (event : ℕ) : x.SameData (x.raiseError event).2 := by
  unfold raiseError
  split
  · exact .refl x
  · split
    · exact .refl x
    · rename_i y h
      exact raiseInternal_sameData h

theorem adapterFailureOutcome_sameData (x : Exec M H cfg) (status : AdapterStatus) :
    x.SameData (x.adapterFailureOutcome P status).2 := by
  unfold adapterFailureOutcome
  split
  · exact raiseError_sameData x _
  · exact raiseError_sameData x _
  · exact raiseError_sameData x _
  · exact raiseError_sameData x _
  · exact .refl x
  · exact .refl x

theorem sendFailureOutcome_sameData (c : Context) (d : SendDescriptor M) (id : Text)
    (status : AdapterStatus) (x : Exec M H cfg) :
    x.SameData (x.sendFailureOutcome P c d id status).2 := by
  unfold sendFailureOutcome
  split
  · exact adapterFailureOutcome_sameData P x status
  split
  · exact raiseError_sameData x _
  split
  · exact .refl x
  split
  · exact .refl x
  split
  · exact .refl x
  rename_i y hy
  have hraised := raiseInternal_sameData hy
  split
  · exact hraised
  rename_i z hz
  have hcounted : y.SameData { y with metadata := y.metadata + 1 } :=
    ⟨rfl, rfl, rfl, rfl, rfl, rfl, List.prefix_rfl⟩
  have hstaged : x.SameData z := hraised.trans (hcounted.trans (stageEffect_sameData hz))
  split
  · exact hstaged
  · exact hstaged.trans ⟨rfl, rfl, rfl, rfl, rfl, rfl, List.prefix_rfl⟩

theorem stagePrepared_sameData (x : Exec M H cfg) (t : SendTable cfg) (e : Fin cfg.effectCapacity)
    (effect : Effect M cfg) : x.SameData (x.stagePrepared t e effect).2 := by
  unfold stagePrepared
  dsimp only
  split
  · exact ⟨rfl, rfl, rfl, rfl, rfl, rfl, List.prefix_rfl⟩
  · rename_i y hy
    refine Exec.SameData.trans ?_ (stageEffect_sameData hy)
    exact ⟨rfl, rfl, rfl, rfl, rfl, rfl, List.prefix_rfl⟩

theorem sendExternal_sameData (c : Context) (d : SendDescriptor M) (m : Materialized M) (id : Text)
    (x : Exec M H cfg) : x.SameData (x.sendExternal P c d m id).2 := by
  unfold sendExternal
  split
  · exact .refl x
  split
  · exact raiseError_sameData x _
  dsimp only
  split
  · refine Exec.SameData.trans ?_ (sendFailureOutcome_sameData P c d id _ _)
    exact ⟨rfl, rfl, rfl, rfl, rfl, rfl, List.prefix_rfl⟩
  split
  · exact ⟨rfl, rfl, rfl, rfl, rfl, rfl, List.prefix_rfl⟩
  · refine Exec.SameData.trans ?_ (stagePrepared_sameData _ _ _ _)
    exact ⟨rfl, rfl, rfl, rfl, rfl, rfl, List.prefix_rfl⟩

end Exec

theorem Stable.andThen {I : Exec M H cfg → Prop} {o : Outcome × Exec M H cfg}
    {next : Exec M H cfg → Outcome × Exec M H cfg} (ho : I o.2)
    (hnext : ∀ {x}, I x → I (next x).2) : I (andThen o next).2 := by
  obtain ⟨outcome, x⟩ := o
  cases outcome with
  | «continue» => exact hnext ho
  | blockAborted => exact ho
  | fatal => exact ho

section Stability

variable {I : Exec M H cfg → Prop} {view : ScopeView} (hI : Stable view I)

include hI

theorem Stable.raiseError (hx : I x) (event : ℕ) : I (x.raiseError event).2 :=
  hI.sameData (x.raiseError_sameData event) hx

variable {c : Context} {env : Surroundings M} {d : SendDescriptor M}

theorem Stable.sendInternal {m : Materialized M} (hx : I x) : I (x.sendInternal P c env d m).2 := by
  have hstrained : I { x with strained := true } := hI.strain hx true fun _ => rfl
  unfold Exec.sendInternal
  split
  · split
    · exact hx
    · rename_i y hy
      exact hI.sameData (Exec.raiseInternal_sameData hy) hx
  split
  · exact hstrained
  dsimp only
  split
  · exact hI.raiseError hstrained _
  split
  · exact hI.raiseError hstrained _
  split
  · exact hstrained
  rename_i y hy
  have hraised : I y := hI.sameData (Exec.raiseInternal_sameData hy) hstrained
  split
  · exact hraised
  · rename_i z hz
    refine hI.sameData (Exec.SameData.trans ?_ (Exec.stageEffect_sameData hz)) hraised
    exact ⟨rfl, rfl, rfl, rfl, rfl, rfl, List.prefix_rfl⟩

theorem Stable.materializeSendIdLocation (hx : I x) : I (x.materializeSendIdLocation P d).1 := by
  unfold Exec.materializeSendIdLocation
  split
  · exact hx
  split
  · exact hx
  dsimp only
  split
  · exact hx
  · refine hI.overwriteState (hI.sameData ?_ hx) _
    exact ⟨rfl, rfl, rfl, rfl, rfl, rfl, List.prefix_rfl⟩

theorem Stable.executeSend (hx : I x) : I (x.executeSend P c env d).2 := by
  unfold Exec.executeSend
  split
  · exact hI.raiseError hx _
  have hid := hI.materializeSendIdLocation P (d := d) hx
  split
  · rename_i y hy
    rw [hy] at hid
    exact hI.raiseError hid _
  · rename_i y id hy
    rw [hy] at hid
    split
    · exact hI.sendInternal P hid
    · exact hI.sameData (Exec.sendExternal_sameData P c d _ id _) hid

theorem Stable.executeCancel {d : CancelDescriptor M} (hx : I x) :
    I (x.executeCancel P c env d).2 := by
  have hx : I { x with strained := x.strained || d.sendIdExpr.isSome } :=
    hI.strain hx _ fun h => by rw [h, Bool.true_or]
  unfold Exec.executeCancel
  dsimp only
  split
  · exact hI.raiseError hx _
  split
  · exact hx
  split
  · exact hI.raiseError hx _
  · exact hx
  split
  · refine hI.sameData (Exec.SameData.trans ?_ (Exec.adapterFailureOutcome_sameData P _ _)) hx
    exact ⟨rfl, rfl, rfl, rfl, rfl, rfl, List.prefix_rfl⟩
  split
  · refine hI.sameData ?_ hx
    exact ⟨rfl, rfl, rfl, rfl, rfl, rfl, List.prefix_rfl⟩
  · refine hI.sameData (Exec.SameData.trans ?_ (Exec.stagePrepared_sameData _ _ _ _)) hx
    exact ⟨rfl, rfl, rfl, rfl, rfl, rfl, List.prefix_rfl⟩

theorem Stable.assignApply {a : Assignment M} (hx : I x) : I (x.assignApply view env a).1 := by
  unfold Exec.assignApply
  split
  · exact hx
  · exact hx
  · split
    · exact hx
    split
    · exact hx
    · exact hI.overwriteState hx _
  · split
    · exact hx
    split
    · exact hx
    · exact hI.writeScope hx _

theorem Stable.applyInitializer {i : Initializer M} (hx : I x) :
    I (x.applyInitializer view env i).1 := by
  unfold Exec.applyInitializer
  dsimp only
  split
  · exact hI.overwriteState hx _
  · exact hx

theorem Stable.applyDataInitializers :
    ∀ (initializers : List (Initializer M)) {x : Exec M H cfg}, I x →
      I (x.applyDataInitializers P view env initializers).2
  | [], _, hx => hx
  | i :: rest, x, hx => by
    have happlied : I (x.applyInitializer view env i).1 := hI.applyInitializer hx
    unfold Exec.applyDataInitializers
    split
    · exact applyDataInitializers rest hx
    split
    · rename_i y hy
      rw [hy] at happlied
      exact applyDataInitializers rest happlied
    · rename_i y hy
      rw [hy] at happlied
      have hraised := hI.raiseError happlied P.executionErrorEvent
      split
      · rename_i z hz
        rw [hz] at hraised
        exact applyDataInitializers rest hraised
      · rename_i z hz
        rw [hz] at hraised
        exact hraised

theorem Stable.lateInitialize {index : ℕ} {initializers : List (Initializer M)} (hx : I x) :
    I (x.lateInitialize P view env index initializers).2 := by
  unfold Exec.lateInitialize
  split
  · exact hx
  · exact hx
  dsimp only
  split
  · refine hI.applyDataInitializers P _ (hI.stateGet (hI.sameData ?_ hx))
    exact ⟨rfl, rfl, rfl, rfl, rfl, rfl, List.prefix_rfl⟩
  split
  · refine hI.sameData ?_ hx
    exact ⟨rfl, rfl, rfl, rfl, rfl, rfl, List.prefix_rfl⟩
  · rename_i y hy
    refine hI.applyDataInitializers P _ (hI.stateGet
      (hI.sameData (Exec.SameData.trans ?_ (Exec.stageEffect_sameData hy)) hx))
    exact ⟨rfl, rfl, rfl, rfl, rfl, rfl, List.prefix_rfl⟩

theorem Stable.writeItem {object : M.Object} (hx : I x) :
    ∀ target : ForeachTarget M, I (x.writeItem view object target).1
  | .cmeta location => by
    simp only [Exec.writeItem]
    split
    · exact hx
    · exact hI.overwriteState hx _
  | .supplemental slot => by
    simp only [Exec.writeItem]
    split
    · exact hI.writeScope hx _
    · exact hx

theorem Stable.writeIndex {iteration : ℕ} (hx : I x) :
    ∀ target : ForeachTarget M, I (x.writeIndex view iteration target).1
  | .cmeta location => hI.overwriteState hx _
  | .supplemental slot => by
    simp only [Exec.writeIndex]
    split
    · exact hI.writeScope hx _
    · exact hx

theorem Stable.next {p : ForeachProgram M} {iteration : ℕ} {object : M.Object} (hx : I x) :
    I (p.next view iteration object x).1 := by
  unfold ForeachProgram.next
  split
  · exact hx
  have hitem : I (x.writeItem view object p.item).1 := hI.writeItem hx p.item
  split
  · rename_i y hy
    rw [hy] at hitem
    exact hitem
  · rename_i y hy
    rw [hy] at hitem
    split
    · exact hitem
    · exact hI.writeIndex hitem _

theorem Stable.iterate {p : ForeachProgram M} {body : Exec M H cfg → Outcome × Exec M H cfg}
    (hbody : ∀ {x}, I x → I (body x).2) :
    ∀ (elements : List M.Object) (iteration : ℕ) {x : Exec M H cfg}, I x →
      I (p.iterate P view body iteration elements x).2
  | [], _, _, hx => hx
  | object :: rest, iteration, x, hx => by
    have hnext : I (p.next view iteration object x).1 := hI.next hx
    unfold ForeachProgram.iterate
    split
    · rename_i y hy
      rw [hy] at hnext
      exact hI.raiseError hnext _
    · rename_i y hy
      rw [hy] at hnext
      exact Stable.andThen (hbody hnext) fun h => iterate hbody rest (iteration + 1) h

theorem Stable.script {s : M.Script} (hx : I x) : I (x.script P env s).2 := by
  have hget := hI.stateGet hx
  unfold Exec.script
  dsimp only
  split
  · exact hI.raiseError hget _
  · split
    · exact hI.raiseError (hI.writeStaged hget _) _
    · exact hI.overwriteState (hI.writeStaged hget _) _

end Stability

variable {I : Exec M H cfg → Prop} {view : ScopeView}

mutual

variable {c : Context}

theorem executeStep_stable (hI : Stable view I) (hc : c.supplemental = view)
    (env : Surroundings M) (abort : Bool) : ∀ (step : Step M) {x : Exec M H cfg}, I x →
      I (executeStep P c env abort step x).2
  | .raise event, x, hx => by
    unfold executeStep
    split
    · exact hx
    · rename_i y hy
      exact hI.sameData (Exec.raiseInternal_sameData hy) hx
  | .send descriptor, x, hx => by
    exact hI.executeSend P hx
  | .cancel descriptor, x, hx => by
    exact hI.executeCancel P hx
  | .log _, x, hx => by
    exact hx
  | .script script, x, hx => by
    exact hI.script P hx
  | .customAction action, x, hx => by
    unfold executeStep
    split
    · exact hx
    · exact hI.raiseError hx _
  | .assign assignment, x, hx => by
    have happlied : I (x.stateGet.assignApply view env assignment).1 :=
      hI.assignApply (hI.stateGet hx)
    unfold executeStep
    rw [hc]
    split
    · rename_i y hy
      rw [hy] at happlied
      exact happlied
    · rename_i y hy
      rw [hy] at happlied
      exact hI.raiseError happlied _
  | .earlyInitialize initializers, x, hx => by
    unfold executeStep
    rw [hc]
    exact hI.applyDataInitializers P _ (hI.stateGet hx)
  | .lateInitialize index initializers, x, hx => by
    unfold executeStep
    rw [hc]
    exact hI.lateInitialize P hx
  | .foreach program body, x, hx => by
    have hget := hI.stateGet hx
    unfold executeStep
    dsimp only
    split
    · exact hI.raiseError hget _
    · rw [hc]
      exact hI.iterate P (fun h => executeSteps_stable hI hc env true body h) _ _ hget
  | .conditional branches, x, hx => by
    exact executeBranches_stable hI hc env abort branches hx

theorem executeSteps_stable (hI : Stable view I) (hc : c.supplemental = view)
    (env : Surroundings M) (abort : Bool) : ∀ (steps : Steps M) {x : Exec M H cfg}, I x →
      I (executeSteps P c env abort steps x).2
  | .nil, x, hx => by
    exact hx
  | .cons step rest, x, hx => by
    exact Stable.andThen (executeStep_stable hI hc env abort step hx) fun h =>
      executeSteps_stable hI hc env abort rest h

theorem executeBranches_stable (hI : Stable view I) (hc : c.supplemental = view)
    (env : Surroundings M) (abort : Bool) : ∀ (branches : Branches M) {x : Exec M H cfg}, I x →
      I (executeBranches P c env abort branches x).2
  | .nil, x, hx => by
    exact hx
  | .cons condition body rest, x, hx => by
    have hraised := hI.raiseError hx P.executionErrorEvent
    unfold executeBranches
    split
    · exact executeSteps_stable hI hc env abort body hx
    · exact executeBranches_stable hI hc env abort rest hx
    · split
      · rename_i y hy
        rw [hy] at hraised
        split
        · exact hraised
        · exact executeBranches_stable hI hc env abort rest (hI.strain hraised true fun _ => rfl)
      · exact hraised

end

end TurboScxml.Session
