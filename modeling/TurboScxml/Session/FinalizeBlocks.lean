import TurboScxml.Session.Blocks

/-!
# A finalize block against an ordinary block

`scxml-invoke-finalize-design.md` admits in `<finalize>` what an ordinary block may hold: conditions,
loops, raises, sends, cancels, assignments and logs. The same steps run here under the two contexts
side by side.

* `Steps.InFinalize`: what `<finalize>` may hold;
* `executeSteps_follows`: as long as no step strains the context the runs agree;
* **`finalize_agrees_iff`**: when a finalize block does what the ordinary block does.
-/

namespace TurboScxml.Session

open Function

variable {M : DataModel} {H : Host M} {cfg : Config} (P : Program)

mutual

/-- The steps of `<finalize>`. -/
def Step.InFinalize : Step M → Prop
  | .script _ | .earlyInitialize _ | .lateInitialize .. => False
  | .foreach _ body => body.InFinalize
  | .conditional branches => branches.InFinalize
  | _ => True

def Steps.InFinalize : Steps M → Prop
  | .nil => True
  | .cons step rest => step.InFinalize ∧ rest.InFinalize

def Branches.InFinalize : Branches M → Prop
  | .nil => True
  | .cons _ body rest => body.InFinalize ∧ rest.InFinalize

end

/-- The sends and cancels among the staged effects. -/
def Exec.sendEffects (x : Exec M H cfg) : List (Effect M cfg) :=
  x.effects.filter fun
    | .send .. | .cancel .. => true
    | _ => false

/-- The runs in the states `x` and `z` agree. -/
structure Matched (view : ScopeView) (x z : Exec M H cfg) : Prop where
  root : z.stateRead = x.stateRead
  constructed : x.value = some x.stateRead
  edited : x.edited = z.value.map fun _ => z.state
  scope : z.scopes.committed = x.scope view
  transaction : view = .staged ∧ x.scopes.transactionPending = true ∨ M.slotCount = 0
  pending : z.scopes.transactionPending = false
  late : z.late = x.late
  sends : z.sends = x.sends
  nextTicket : z.nextTicket = x.nextTicket
  nextSendToken : z.nextSendToken = x.nextSendToken
  metadata : z.metadata = x.metadata
  adapter : z.adapter = x.adapter
  raised : z.raised = x.raised
  sendEffects : z.sendEffects = x.sendEffects
  effects : z.effects.length ≤ x.effects.length
  strained : x.strained = false

/-- They agree, or the ordinary run goes on where the other stops. -/
def Follows (view : ScopeView) (o o' : Outcome × Exec M H cfg) : Prop :=
  o.1 = .continue →
    (o'.1 = .continue ∧ Matched view o.2 o'.2) ∨ (o.2.strained = true ∧ o'.1 ≠ .continue)

variable {o o' : Outcome × Exec M H cfg} {view : ScopeView}

theorem Follows.of_stopped (h : o.1 ≠ .continue) : Follows view o o' := fun hc => absurd hc h

variable {x z : Exec M H cfg}

theorem Follows.of_matched (h : Matched view x z) :
    Follows view (.continue, x) (.continue, z) := fun _ => .inl ⟨rfl, h⟩

/-! ## Strained runs stay strained -/

theorem strained_stable (view : ScopeView) :
    Stable view fun x : Exec M H cfg => x.strained = true where
  sameData h hx := h.strained.trans hx
  strain hx _ hb := hb hx
  stateGet hx := hx
  overwriteState {x} hx root := by
    unfold Exec.overwriteState
    split <;> exact hx
  writeScope hx _ := hx
  writeStaged hx _ := hx

/-! ## The parts of a step -/

theorem Exec.raiseError_stops (x : Exec M H cfg) (event : ℕ) :
    (x.raiseError event).1 ≠ .continue := by
  unfold Exec.raiseError
  split
  · simp
  · split <;> simp

theorem Exec.adapterFailureOutcome_stops (x : Exec M H cfg) (status : AdapterStatus) :
    (x.adapterFailureOutcome P status).1 ≠ .continue := by
  unfold Exec.adapterFailureOutcome
  split
  · exact raiseError_stops x _
  · exact raiseError_stops x _
  · exact raiseError_stops x _
  · exact raiseError_stops x _
  · simp
  · simp

theorem Exec.sendFailureOutcome_stops (c : Context) (d : SendDescriptor M) (id : Text)
    (status : AdapterStatus) (x : Exec M H cfg) :
    (x.sendFailureOutcome P c d id status).1 ≠ .continue := by
  unfold Exec.sendFailureOutcome
  split
  · exact adapterFailureOutcome_stops P x status
  split
  · exact raiseError_stops x _
  split
  · simp
  split
  · simp
  split
  · simp
  split <;> simp

variable {x' : Exec M H cfg}

namespace Matched

variable {view : ScopeView} {x z : Exec M H cfg} (h : Matched view x z)

include h

variable (env : Surroundings M)

theorem reading : z.reading env .committed z.stateRead = x.reading env view x.stateRead := by
  unfold Exec.reading
  rw [h.root, h.late]
  simp only [Exec.scope, h.scope]

theorem stateGet : Matched view x.stateGet z.stateGet :=
  { h with
    root := h.root
    constructed := rfl
    edited := by
      have hedited := h.edited
      cases hv : z.value with
      | none =>
        rw [hv] at hedited
        have hz : z.stateRead = z.state := by simp [Exec.stateRead, hv]
        simp [Exec.stateGet, hedited, ← h.root, hz]
      | some root =>
        rw [hv] at hedited
        simp [Exec.stateGet, hedited] }

theorem overwriteState (root : M.Root) :
    Matched view (x.overwriteState root) (z.overwriteState root) := by
  have hx : x.overwriteState root = { x with value := some root } := by
    unfold Exec.overwriteState
    rw [h.constructed]
  have hedited := h.edited
  rw [hx]
  unfold Exec.overwriteState
  cases hv : z.value with
  | none =>
    rw [hv] at hedited
    exact { h with
      root := by simp [Exec.stateRead]
      constructed := rfl
      edited := by simp [hedited] }
  | some old =>
    rw [hv] at hedited
    exact { h with
      root := rfl
      constructed := rfl
      edited := hedited }

theorem writeScope (w : ScopeWrite M) :
    Matched view (x.writeScope view w) (z.writeScope .committed w) := by
  have hscope := h.scope
  cases view with
  | committed =>
    exact { h with
      root := h.root
      constructed := h.constructed
      scope := congrArg w.apply hscope }
  | staged =>
    exact { h with
      root := h.root
      constructed := h.constructed
      scope := congrArg w.apply hscope }

theorem raiseInternal (raised : Raised M) :
    (x.raiseInternal raised = none ∧ z.raiseInternal raised = none) ∨
      ∃ x' z', x.raiseInternal raised = some x' ∧ z.raiseInternal raised = some z' ∧
        Matched view x' z' := by
  unfold Exec.raiseInternal
  rw [h.raised]
  split
  · exact .inr ⟨_, _, rfl, rfl, { h with
      root := h.root
      constructed := h.constructed
      raised := rfl }⟩
  · exact .inl ⟨rfl, rfl⟩

theorem stageEffect {effect : Effect M cfg} (hx : x.stageEffect effect = some x') :
    ∃ z', z.stageEffect effect = some z' ∧ Matched view x' z' := by
  unfold Exec.stageEffect at hx ⊢
  split at hx
  · rename_i hroom
    cases hx
    rw [if_pos (H.admitsEffect_of_le h.effects hroom)]
    refine ⟨_, rfl, { h with
      root := h.root
      constructed := h.constructed
      sendEffects := ?_
      effects := by simpa using h.effects }⟩
    have hsends := h.sendEffects
    unfold Exec.sendEffects at hsends ⊢
    rw [List.filter_append, List.filter_append, hsends]
  · cases hx

theorem stagePrepared (t : SendTable cfg) (e : Fin cfg.effectCapacity) (effect : Effect M cfg) :
    Follows view (x.stagePrepared t e effect) (z.stagePrepared t e effect) := by
  have hstored : Matched view
      { x with sends := t.storeTicket e x.nextTicket, nextTicket := x.nextTicket + 1 }
      { z with sends := t.storeTicket e z.nextTicket, nextTicket := z.nextTicket + 1 } :=
    { h with
      root := h.root
      constructed := h.constructed
      sends := by rw [h.nextTicket]
      nextTicket := congrArg (· + 1) h.nextTicket }
  unfold Exec.stagePrepared
  dsimp only
  split
  · exact .of_stopped (by simp)
  · rename_i x' hx'
    obtain ⟨z', hz', hmatched⟩ := hstored.stageEffect hx'
    rw [hz']
    exact .of_matched hmatched

variable (d : SendDescriptor M)

theorem materializeSendIdLocation :
    Matched view (x.materializeSendIdLocation P d).1 (z.materializeSendIdLocation P d).1 ∧
      (z.materializeSendIdLocation P d).2 = (x.materializeSendIdLocation P d).2 := by
  have hlate := h.late
  have htoken := h.nextSendToken
  unfold Exec.materializeSendIdLocation
  rw [hlate, htoken, h.root]
  split
  · exact ⟨h, rfl⟩
  split
  · exact ⟨h, rfl⟩
  dsimp only
  split
  · exact ⟨h, rfl⟩
  · refine ⟨Matched.overwriteState ?_ _, rfl⟩
    exact { h with
      root := h.root
      constructed := h.constructed
      late := rfl
      nextSendToken := rfl }

theorem sendInternal (m : Materialized M) :
    Follows view (x.sendInternal P ⟨true, true, view⟩ env d m)
      (z.sendInternal P finalizeContext env d m) := by
  unfold Exec.sendInternal
  split
  · obtain ⟨hx, hz⟩ | ⟨x', z', hx, hz, hmatched⟩ := h.raiseInternal ⟨m.eventId, none⟩
    · rw [hx]
      exact .of_stopped (by simp)
    · rw [hx, hz]
      exact .of_matched hmatched
  · intro hcontinue
    refine .inr ⟨?_, ?_⟩
    · let y : Exec M H cfg := { x with strained := true }
      have hstable : (y.sendInternal P ⟨true, true, view⟩ env d m).2.strained = true :=
        (strained_stable view).sendInternal P rfl
      unfold Exec.sendInternal at hstable
      rw [if_neg ‹_›] at hstable
      exact hstable
    · simp [finalizeContext]

theorem sendExternal (m : Materialized M) (id : Text) :
    Follows view (x.sendExternal P ⟨true, true, view⟩ d m id)
      (z.sendExternal P finalizeContext d m id) := by
  unfold Exec.sendExternal
  rw [h.sends, h.adapter]
  split
  · exact .of_stopped (by simp)
  split
  · exact .of_stopped (Exec.raiseError_stops _ _)
  dsimp only
  split
  · exact .of_stopped (Exec.sendFailureOutcome_stops P _ _ _ _ _)
  split
  · exact .of_stopped (by simp)
  · apply Matched.stagePrepared
    exact { h with
      root := h.root
      constructed := h.constructed
      sends := rfl
      adapter := rfl }

theorem executeSend : Follows view (x.executeSend P ⟨true, true, view⟩ env d)
      (z.executeSend P finalizeContext env d) := by
  unfold Exec.executeSend
  dsimp only [finalizeContext]
  rw [h.reading env]
  split
  · exact .of_stopped (Exec.raiseError_stops _ _)
  rename_i m _
  obtain ⟨hmatched, hid⟩ := h.materializeSendIdLocation P d
  cases hx : x.materializeSendIdLocation P d with
  | mk x' id =>
    cases hz : z.materializeSendIdLocation P d with
    | mk z' id' =>
      rw [hx, hz] at hmatched hid
      cases hid
      cases id with
      | none => exact .of_stopped (Exec.raiseError_stops _ _)
      | some id =>
        dsimp only
        split
        · exact hmatched.sendInternal P env d m
        · exact hmatched.sendExternal P d m id

theorem executeCancel (d : CancelDescriptor M) :
    Follows view (x.executeCancel P ⟨true, true, view⟩ env d)
      (z.executeCancel P finalizeContext env d) := by
  cases hexpr : d.sendIdExpr with
  | some e =>
    intro hcontinue
    refine .inr ⟨?_, ?_⟩
    · let y : Exec M H cfg := { x with strained := true }
      have hstable : (y.executeCancel P ⟨true, true, view⟩ env d).2.strained = true :=
        (strained_stable view).executeCancel P rfl
      unfold Exec.executeCancel at hstable ⊢
      simpa [hexpr] using hstable
    · unfold Exec.executeCancel
      simp only [CancelDescriptor.materialize, hexpr, finalizeContext]
      exact Exec.raiseError_stops _ _
  | none =>
    have hstrained : (x.strained || (none : Option M.Expr).isSome) = false := by simp [h.strained]
    unfold Exec.executeCancel
    simp only [CancelDescriptor.materialize, hexpr]
    rw [h.sends, h.adapter]
    split
    · exact .of_stopped (by simp)
    split
    · exact .of_stopped (Exec.raiseError_stops _ _)
    · exact .of_matched { h with
        root := h.root
        constructed := h.constructed
        sends := rfl
        adapter := rfl
        strained := hstrained }
    split
    · exact .of_stopped (Exec.adapterFailureOutcome_stops P _ _)
    split
    · exact .of_stopped (by simp)
    · apply Matched.stagePrepared
      exact { h with
        root := h.root
        constructed := h.constructed
        sends := rfl
        adapter := rfl
        strained := hstrained }

theorem assignApply (a : Assignment M) :
    Matched view (x.assignApply view env a).1 (z.assignApply .committed env a).1 ∧
      (z.assignApply .committed env a).2 = (x.assignApply view env a).2 := by
  have hscope : z.scope .committed = x.scope view := h.scope
  unfold Exec.assignApply
  rw [h.reading env, h.late, h.root, hscope]
  split
  · exact ⟨h, rfl⟩
  · exact ⟨h, rfl⟩
  · split
    · exact ⟨h, rfl⟩
    split
    · exact ⟨h, rfl⟩
    · exact ⟨h.overwriteState _, rfl⟩
  · split
    · exact ⟨h, rfl⟩
    split
    · exact ⟨h, rfl⟩
    · exact ⟨h.writeScope _, rfl⟩

theorem writeItem (object : M.Object) :
    ∀ target : ForeachTarget M,
      Matched view (x.writeItem view object target).1 (z.writeItem .committed object target).1 ∧
        (z.writeItem .committed object target).2 = (x.writeItem view object target).2
  | .cmeta location => by
    simp only [Exec.writeItem]
    rw [h.root]
    split
    · exact ⟨h, rfl⟩
    · exact ⟨h.overwriteState _, rfl⟩
  | .supplemental slot => by
    simp only [Exec.writeItem]
    split
    · exact ⟨h.writeScope _, rfl⟩
    · exact ⟨h, rfl⟩

theorem writeIndex (iteration : ℕ) :
    ∀ target : ForeachTarget M,
      Matched view (x.writeIndex view iteration target).1
          (z.writeIndex .committed iteration target).1 ∧
        (z.writeIndex .committed iteration target).2 = (x.writeIndex view iteration target).2
  | .cmeta location => by
    have hmatched := h.overwriteState (M.putIndex location iteration x.stateRead)
    refine ⟨?_, rfl⟩
    simp only [Exec.writeIndex]
    rw [h.root]
    exact hmatched
  | .supplemental slot => by
    simp only [Exec.writeIndex]
    split
    · exact ⟨h.writeScope _, rfl⟩
    · exact ⟨h, rfl⟩

theorem next (p : ForeachProgram M) (iteration : ℕ) (object : M.Object) :
    Matched view (p.next view iteration object x).1 (p.next .committed iteration object z).1 ∧
      (p.next .committed iteration object z).2 = (p.next view iteration object x).2 := by
  obtain ⟨hitem, hwritten⟩ := h.writeItem object p.item
  unfold ForeachProgram.next
  rw [h.late]
  split
  · exact ⟨h, rfl⟩
  cases hx : x.writeItem view object p.item with
  | mk x' written =>
    cases hz : z.writeItem .committed object p.item with
    | mk z' written' =>
      rw [hx, hz] at hitem hwritten
      cases hwritten
      cases written with
      | false => exact ⟨hitem, rfl⟩
      | true =>
        cases p.index with
        | none => exact ⟨hitem, rfl⟩
        | some index => exact hitem.writeIndex iteration index

end Matched

/-! ## The two runs -/

variable {f g : Exec M H cfg → Outcome × Exec M H cfg}

theorem Follows.bind (h : Follows view o o')
    (hf : ∀ x : Exec M H cfg, x.strained = true → (f x).2.strained = true)
    (hfg : ∀ x z : Exec M H cfg, Matched view x z → Follows view (f x) (g z)) :
    Follows view (andThen o f) (andThen o' g) := by
  obtain ⟨outcome, x⟩ := o
  obtain ⟨outcome', z⟩ := o'
  cases outcome with
  | blockAborted => exact .of_stopped (by simp [andThen])
  | fatal => exact .of_stopped (by simp [andThen])
  | «continue» =>
    obtain ⟨rfl, hmatched⟩ | ⟨hstrained, hstopped⟩ := h rfl
    · exact hfg x z hmatched
    · intro hcontinue
      refine .inr ⟨hf x hstrained, ?_⟩
      cases outcome' with
      | «continue» => exact absurd rfl hstopped
      | blockAborted => simp [andThen]
      | fatal => simp [andThen]

theorem executeSteps_strained (c : Context) (env : Surroundings M) (abort : Bool)
    (steps : Steps M) (x : Exec M H cfg) (hx : x.strained = true) :
    (executeSteps P c env abort steps x).2.strained = true :=
  executeSteps_stable P (strained_stable c.supplemental) rfl env abort steps hx

theorem ForeachProgram.iterate_follows (p : ForeachProgram M)
    (hf : ∀ x : Exec M H cfg, x.strained = true → (f x).2.strained = true)
    (hfg : ∀ x z : Exec M H cfg, Matched view x z → Follows view (f x) (g z)) :
    ∀ (elements : List M.Object) (iteration : ℕ) {x z : Exec M H cfg}, Matched view x z →
      Follows view (p.iterate P view f iteration elements x)
        (p.iterate P .committed g iteration elements z)
  | [], _, _, _, h => .of_matched h
  | object :: rest, iteration, x, z, h => by
    obtain ⟨hmatched, hwritten⟩ := h.next p iteration object
    unfold ForeachProgram.iterate
    cases hx : p.next view iteration object x with
    | mk x' written =>
      cases hz : p.next .committed iteration object z with
      | mk z' written' =>
        rw [hx, hz] at hmatched hwritten
        cases hwritten
        cases written with
        | false => exact .of_stopped (Exec.raiseError_stops _ _)
        | true =>
          exact (hfg x' z' hmatched).bind
            (fun y hy => (strained_stable view).iterate P (fun h => hf _ h) rest _ hy)
            (fun _ _ h => iterate_follows p hf hfg rest (iteration + 1) h)

variable {view : ScopeView} (env : Surroundings M)

mutual

theorem executeStep_follows (abort : Bool) : ∀ (step : Step M) {x z : Exec M H cfg},
    step.InFinalize → Matched view x z →
      Follows view (executeStep P ⟨true, true, view⟩ env abort step x)
        (executeStep P finalizeContext env true step z)
  | .raise event, x, z, _, h => by
    unfold executeStep
    obtain ⟨hx, hz⟩ | ⟨x', z', hx, hz, hmatched⟩ := h.raiseInternal ⟨event, none⟩
    · rw [hx]
      exact .of_stopped (by simp)
    · rw [hx, hz]
      exact .of_matched hmatched
  | .send descriptor, x, z, _, h => by
    exact h.executeSend P env descriptor
  | .cancel descriptor, x, z, _, h => by
    exact h.executeCancel P env descriptor
  | .log _, x, z, _, h => by
    exact .of_matched h
  | .script _, _, _, hadmitted, _ => by
    exact hadmitted.elim
  | .earlyInitialize _, _, _, hadmitted, _ => by
    exact hadmitted.elim
  | .lateInitialize .., _, _, hadmitted, _ => by
    exact hadmitted.elim
  | .customAction action, x, z, _, h => by
    unfold executeStep
    simp only [finalizeContext, h.reading env]
    split
    · exact .of_matched h
    · exact .of_stopped (Exec.raiseError_stops _ _)
  | .assign assignment, x, z, _, h => by
    obtain ⟨hmatched, hstored⟩ := h.stateGet.assignApply env assignment
    unfold executeStep
    dsimp only [finalizeContext]
    cases hx : x.stateGet.assignApply view env assignment with
    | mk x' stored =>
      cases hz : z.stateGet.assignApply .committed env assignment with
      | mk z' stored' =>
        rw [hx, hz] at hmatched hstored
        cases hstored
        cases stored with
        | false => exact .of_stopped (Exec.raiseError_stops _ _)
        | true => exact .of_matched hmatched
  | .foreach program body, x, z, hadmitted, h => by
    have hbody : body.InFinalize := by rwa [Step.InFinalize] at hadmitted
    have hget := h.stateGet
    unfold executeStep
    dsimp only [finalizeContext]
    rw [hget.root, hget.late]
    split
    · exact .of_stopped (Exec.raiseError_stops _ _)
    · exact program.iterate_follows P (executeSteps_strained P _ env true body)
        (fun _ _ h => executeSteps_follows true body hbody h) _ 0 hget
  | .conditional branches, x, z, hadmitted, h => by
    have hbranches : branches.InFinalize := by rwa [Step.InFinalize] at hadmitted
    exact executeBranches_follows abort branches hbranches h

theorem executeSteps_follows (abort : Bool) : ∀ (steps : Steps M) {x z : Exec M H cfg},
    steps.InFinalize → Matched view x z →
      Follows view (executeSteps P ⟨true, true, view⟩ env abort steps x)
        (executeSteps P finalizeContext env true steps z)
  | .nil, x, z, _, h => by
    exact .of_matched h
  | .cons step rest, x, z, hadmitted, h => by
    obtain ⟨hstep, hrest⟩ : step.InFinalize ∧ rest.InFinalize := by
      rwa [Steps.InFinalize] at hadmitted
    exact (executeStep_follows abort step hstep h).bind
      (executeSteps_strained P _ env abort rest)
      (fun _ _ h => executeSteps_follows abort rest hrest h)

theorem executeBranches_follows (abort : Bool) : ∀ (branches : Branches M) {x z : Exec M H cfg},
    branches.InFinalize → Matched view x z →
      Follows view (executeBranches P ⟨true, true, view⟩ env abort branches x)
        (executeBranches P finalizeContext env true branches z)
  | .nil, x, z, _, h => by
    exact .of_matched h
  | .cons condition body rest, x, z, hadmitted, h => by
    obtain ⟨hbody, hrest⟩ : body.InFinalize ∧ rest.InFinalize := by
      rwa [Branches.InFinalize] at hadmitted
    have hreading := h.reading env
    unfold executeBranches
    dsimp only [finalizeContext]
    rw [hreading]
    split
    · exact executeSteps_follows abort body hbody h
    · exact executeBranches_follows abort rest hrest h
    · intro hcontinue
      refine .inr ⟨?_, ?_⟩
      · have hraised := Exec.raiseError_stops x P.executionErrorEvent
        revert hcontinue
        split
        · split
          · intro hcontinue
            exact absurd hcontinue (by simp)
          · intro _
            exact executeBranches_stable P (strained_stable view) rfl env abort rest rfl
        · intro hcontinue
          exact absurd hcontinue hraised
      · have hraised := Exec.raiseError_stops z P.executionErrorEvent
        split
        · simp
        · exact hraised

end

/-! ## When a finalize block does what the ordinary block does -/

structure SameEffect (x y z : Exec M H cfg) : Prop where
  state : z.state = x.state
  staged : z.stateRead = y.stateRead
  committedScope : z.scopes.committed = x.scopes.committed
  stagedScope : z.scopes.current = y.scopes.current
  raised : z.raised = y.raised
  sends : z.sends = y.sends
  sendEffects : z.sendEffects = y.sendEffects

/-- Nothing was asked for that a finalize context lacks. -/
structure Portable (x y : Exec M H cfg) : Prop where
  unstrained : y.strained = false
  state : y.edited.getD y.stateRead = x.state
  scope : y.scopes.current = x.scopes.committed

theorem Matched.current {view : ScopeView} (h : Matched view x z) :
    x.scopes.current = x.scope view := by
  obtain ⟨rfl, hpending⟩ | hcount := h.transaction
  · simp [Scopes.current, hpending, Exec.scope]
  · funext slot
    exact absurd slot.isLt (by omega)

theorem Matched.state {view : ScopeView} (h : Matched view x z) :
    z.state = x.edited.getD x.stateRead := by
  rw [h.edited, ← h.root]
  cases hv : z.value with
  | none => simp [Exec.stateRead, hv]
  | some root => rfl

variable {input : BlockInput M}

theorem beginSupplementalBlock_matched {x : Exec M H cfg} {view : ScopeView}
    (hpending : x.scopes.transactionPending = false)
    (h : x.copyState.beginSupplementalBlock input = (x', some view)) :
    Matched view x' { x with value := none, edited := none, strained := false } := by
  unfold Exec.beginSupplementalBlock at h
  split at h
  · cases h
    exact ⟨rfl, rfl, rfl, rfl, .inr ‹_›, hpending, rfl, rfl, rfl, rfl, rfl, rfl, rfl, rfl, le_rfl,
      rfl⟩
  split at h
  · cases h
  split at h
  · rename_i hset
    exact absurd (hpending.symm.trans hset) (by simp)
  split at h
  · cases h
  split at h
  · cases h
  rename_i y hy
  unfold Exec.stageEffect at hy
  split at hy
  · cases hy
    unfold Exec.checkpoint at h
    split at h
    · cases h
      refine ⟨rfl, rfl, rfl, rfl, .inl ⟨rfl, rfl⟩, hpending, rfl, rfl, rfl, rfl, rfl, rfl, rfl, ?_,
        ?_, rfl⟩
      · simp [Exec.sendEffects, Exec.copyState]
      · simp [Exec.copyState]
    · cases h
  · cases hy

variable {steps : Steps M}

theorem executeInvocationFinalize_eq_true {env : Surroundings M} :
    x.executeInvocationFinalize P env steps = (true, z) ↔
      executeSteps P finalizeContext env true steps
        { x with value := none, edited := none, strained := false } = (.continue, z) := by
  unfold Exec.executeInvocationFinalize
  split
  · rename_i z' hz'
    simp [hz']
  · rename_i o z' hstopped hz'
    simp only [hz', Prod.mk.injEq, Bool.false_eq_true, false_and, false_iff, not_and]
    rintro rfl
    exact absurd rfl hstopped

theorem executeBlock_continue {x y : Exec M H cfg}
    (h : x.executeBlock P input steps = (.continue, y)) :
    ∃ x₁ view x₂,
      x.copyState.beginSupplementalBlock input = (x₁, some view) ∧
      executeSteps P ⟨true, true, view⟩ input.surroundings false steps x₁ = (.continue, x₂) ∧
      y = { x₂.settleSupplementalBlock true with failedSendId := none } := by
  unfold Exec.executeBlock at h
  split at h
  · cases h
  split at h
  · cases h
  rename_i x₁ view hbegin
  split at h
  · rename_i x₂ hsteps
    cases h
    exact ⟨x₁, view, x₂, hbegin, hsteps, rfl⟩
  · rename_i x₂ _
    have hrestored : ((x₂.settleSupplementalBlock false).restoreFailedSendId).1 ≠ .continue := by
      unfold Exec.restoreFailedSendId
      split
      · simp
      · dsimp only
        split <;> simp
    rw [h] at hrestored
    exact absurd rfl hrestored
  · cases h

variable {x₀ : Exec M H cfg}

theorem settled_portable_iff {x : Exec M H cfg} :
    Portable x₀ { x.settleSupplementalBlock true with failedSendId := none } ↔ Portable x₀ x := by
  unfold Exec.settleSupplementalBlock
  split <;> exact ⟨fun ⟨h, h', h''⟩ => ⟨h, h', h''⟩, fun ⟨h, h', h''⟩ => ⟨h, h', h''⟩⟩

theorem settled_sameEffect_iff :
    SameEffect x₀ { x.settleSupplementalBlock true with failedSendId := none } z ↔
      SameEffect x₀ x z := by
  unfold Exec.settleSupplementalBlock
  split <;>
    exact ⟨fun h => ⟨h.state, h.staged, h.committedScope, h.stagedScope, h.raised, h.sends,
        h.sendEffects⟩,
      fun h => ⟨h.state, h.staged, h.committedScope, h.stagedScope, h.raised, h.sends,
        h.sendEffects⟩⟩

theorem Matched.sameEffect_iff {view : ScopeView} (h : Matched view x z) :
    SameEffect x₀ x z ↔ Portable x₀ x := by
  have hcurrent : z.scopes.current = x.scopes.current := by
    rw [h.current, ← h.scope, Scopes.current, h.pending]
    rfl
  constructor
  · intro hsame
    refine ⟨h.strained, h.state.symm.trans hsame.state, ?_⟩
    rw [h.current, ← h.scope]
    exact hsame.committedScope
  · intro hportable
    refine ⟨h.state.trans hportable.state, h.root, ?_, hcurrent, h.raised, h.sends,
      h.sendEffects⟩
    rw [h.scope, ← h.current]
    exact hportable.scope

/-- **Main.** A finalize block does what the ordinary block does exactly when the ordinary run is
portable. -/
theorem finalize_agrees_iff {input : BlockInput M} {steps : Steps M} {x y : Exec M H cfg}
    (hadmitted : steps.InFinalize) (hpending : x.scopes.transactionPending = false)
    (h : x.executeBlock P input steps = (.continue, y)) :
    (∃ z, x.executeInvocationFinalize P input.surroundings steps = (true, z) ∧
      SameEffect x y z) ↔ Portable x y := by
  obtain ⟨x₁, view, x₂, hbegin, hsteps, rfl⟩ := executeBlock_continue P h
  have hstart := beginSupplementalBlock_matched hpending hbegin
  have hfollows := executeSteps_follows P input.surroundings false steps hadmitted hstart
  rw [settled_portable_iff]
  simp only [executeInvocationFinalize_eq_true, settled_sameEffect_iff]
  rw [hsteps] at hfollows
  obtain ⟨hcontinue, hmatched⟩ | ⟨hstrained', hstopped⟩ := hfollows rfl
  · constructor
    · rintro ⟨z, hz, hsame⟩
      rw [hz] at hmatched
      exact hmatched.sameEffect_iff.mp hsame
    · intro hportable
      exact ⟨_, Prod.ext hcontinue rfl, hmatched.sameEffect_iff.mpr hportable⟩
  · constructor
    · rintro ⟨z, hz, -⟩
      rw [hz] at hstopped
      exact absurd rfl hstopped
    · intro hportable
      exact absurd hportable.unstrained (by rw [hstrained']; simp)

def plainSteps : Steps textModel :=
  .cons (.assign ⟨.mutable (), .stringLiteral ['b']⟩)
    (.cons (.raise 4) (.cons (.cancel ⟨['x'], none⟩) .nil))

theorem plainSteps_finalize :
    ∃ z, textSession.executeInvocationFinalize textProgram textInput.surroundings plainSteps =
        (true, z) ∧
      SameEffect textSession
        (textSession.executeBlock textProgram textInput plainSteps).2 z :=
  (finalize_agrees_iff textProgram (by simp [plainSteps, Steps.InFinalize, Step.InFinalize]) rfl
    (y := (textSession.executeBlock textProgram textInput plainSteps).2) rfl).mpr
      ⟨rfl, rfl, rfl⟩

def cancelByExpression : Steps textModel := .cons (.cancel ⟨[], some ['x']⟩) .nil

theorem cancelByExpression_finalize_fails :
    cancelByExpression.InFinalize ∧ textSession.scopes.transactionPending = false ∧
      ∃ y, textSession.executeBlock textProgram textInput cancelByExpression = (.continue, y) ∧
        ¬ ∃ z, textSession.executeInvocationFinalize textProgram textInput.surroundings
              cancelByExpression = (true, z) ∧ SameEffect textSession y z := by
  refine ⟨by simp [cancelByExpression, Steps.InFinalize, Step.InFinalize], rfl, _, rfl, ?_⟩
  rintro ⟨z, hz, -⟩
  have hfailed : false = true := congrArg Prod.fst hz
  cases hfailed

end TurboScxml.Session
