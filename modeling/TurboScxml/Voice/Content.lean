import TurboScxml.Basic

/-!
# Executable content of a form

The actions of a block, a filled handler or an event handler run over staged values.

* `Staged`, `Run`: what an action reads and changes, and one evaluation;
* `Session`: the committed and the staged values, the requests of an action, what is published;
* `executeAction`, `executeActionRange`: the interpreter with its bounds;
* `Respected`: a relation that every action keeps is kept by a range.
-/

namespace TurboScxml.Voice.Content

/-- `vxml_status` without `VXML_OK`. -/
inductive Status
  | invalidArgument | invalidStructure | invalidContract | invalidState | limitExceeded
  | semanticError | allocationFailed
  deriving DecidableEq

/-- `vxml_session_state`. -/
inductive State
  | running | exited | navigating | submitting | failed
  deriving DecidableEq

/-- `vxml_cmeta_event_scope_kind`. -/
inductive ScopeKind
  | document | form | field | initial | subdialog | record | transfer
  deriving DecidableEq

structure EventScope where
  kind : ScopeKind
  owner : ℕ
  deriving DecidableEq

/-- `vxml_cmeta_terminal_kind`. -/
inductive Terminal (X : Type)
  | exit (values : X)
  | returnData (values : X)
  | returnEvent (event : Text)
  | disconnect
  deriving DecidableEq

/-! ## Content -/

structure Staged (σ : Type) where
  values : σ
  retryResets : List EventScope
  backendFailureEvent : Option Text

/-- An evaluation over the visible scopes. -/
abbrev Run (σ α : Type) := List ℕ → Staged σ → Except Status α × Staged σ

variable (σ X G S : Type)

mutual

/-- `vxml_cmeta_action_row`; `compute` is var, assign, clear, script or data. -/
inductive Action
  | compute (run : Run σ Unit)
  | cond (branches : Branches)
  | exit (run : Run σ X)
  | returnData (run : Run σ X)
  | returnEvent (event : Text)
  | disconnect
  | throw (event : Text)
  | rethrow
  | reprompt
  | goto (target : G)
  | submit (run : Run σ S)

inductive Actions
  | nil
  | cons (action : Action) (rest : Actions)

/-- `vxml_cmeta_branch_row`. -/
inductive Branches
  | nil
  | cons (condition : Option (Run σ Bool)) (body : Actions) (rest : Branches)

end

/-! ## Sessions -/

structure Session where
  committed : σ
  staged : Staged σ
  collectMediaTransaction : Bool
  eventDispatchActive : Bool
  executionSteps : ℕ
  allocations : ℕ
  exitRequested : Bool
  pendingTerminal : Option (Terminal X)
  pendingNavigation : Option G
  submitRequested : Option S
  thrownEvent : Option Text
  rethrowRequested : Bool
  handlerRepromptRequested : Bool
  repromptRequested : Bool
  backendFailureOrigin : EventScope
  state : State
  error : Option Status
  terminal : Option (Terminal X)
  navigation : Option G
  submit : Option S

variable {σ X G S} in
/-- A running session that has asked for nothing. -/
def Session.quiet (values : σ) : Session σ X G S where
  committed := values
  staged := ⟨values, [], none⟩
  collectMediaTransaction := false
  eventDispatchActive := false
  executionSteps := 0
  allocations := 0
  exitRequested := false
  pendingTerminal := none
  pendingNavigation := none
  submitRequested := none
  thrownEvent := none
  rethrowRequested := false
  handlerRepromptRequested := false
  repromptRequested := false
  backendFailureOrigin := ⟨.document, 0⟩
  state := .running
  error := none
  terminal := none
  navigation := none
  submit := none

/-- The bounds of a session and the answers of the allocator. -/
structure Host where
  maxExecutionSteps : ℕ
  execFrameCapacity : ℕ
  allocate : ℕ → Bool
  cleared : σ

inductive Flow
  | next
  | stop
  | fail (status : Status)
  deriving DecidableEq

variable {σ X G S : Type}

namespace Session

variable (s : Session σ X G S)

def evaluate {α : Type} (run : Run σ α) (scopes : List ℕ) : Except Status α × Session σ X G S :=
  ((run scopes s.staged).1, { s with staged := (run scopes s.staged).2 })

def requestTerminal (terminal : Terminal X) : Session σ X G S :=
  { s with pendingTerminal := some terminal, exitRequested := true }

def consumeStep (H : Host σ) : Option (Session σ X G S) :=
  if s.executionSteps ≥ H.maxExecutionSteps then none
  else some { s with executionSteps := s.executionSteps + 1 }

/-- `execute_exit` and `execute_return` with values. -/
def executeTerminal (run : Run σ X) (terminal : X → Terminal X) (scopes : List ℕ) :
    Flow × Session σ X G S :=
  match s.evaluate run scopes with
  | (.error status, s) => (.fail status, s)
  | (.ok values, s) => (.stop, s.requestTerminal (terminal values))

def executeRethrow : Flow × Session σ X G S :=
  if s.eventDispatchActive then (.stop, { s with rethrowRequested := true })
  else (.fail .invalidState, s)

def executeReprompt : Flow × Session σ X G S :=
  if s.eventDispatchActive then (.next, { s with handlerRepromptRequested := true })
  else (.fail .invalidState, s)

def executeGoto (target : G) : Flow × Session σ X G S :=
  if s.pendingNavigation.isSome then (.fail .invalidStructure, s)
  else (.stop, { s with pendingNavigation := some target })

def executeSubmit (run : Run σ S) (scopes : List ℕ) : Flow × Session σ X G S :=
  if s.submitRequested.isSome then (.fail .invalidStructure, s)
  else
    match s.evaluate run scopes with
    | (.error status, s) => (.fail status, s)
    | (.ok request, s) => (.stop, { s with submitRequested := some request })

/-- `execute_var`, `execute_assign`, `execute_clear` and so on. -/
def executeCompute (run : Run σ Unit) (scopes : List ℕ) : Flow × Session σ X G S :=
  match s.evaluate run scopes with
  | (.error status, s) => (.fail status, s)
  | (.ok _, s) => (.next, s)

end Session

/-! ## The interpreter -/

def branchMatches (scopes : List ℕ) (condition : Option (Run σ Bool)) (s : Session σ X G S) :
    Except Status Bool × Session σ X G S :=
  match condition with
  | none => (.ok true, s)
  | some run => s.evaluate run scopes

def Actions.isNil : Actions σ X G S → Bool
  | .nil => true
  | .cons _ _ => false

mutual

/-- One round of the loop of `execute_action_range`. -/
def executeAction (H : Host σ) (scopes : List ℕ) (frames : ℕ) :
    Action σ X G S → Session σ X G S → Flow × Session σ X G S
  | .compute run, s => s.executeCompute run scopes
  | .cond branches, s => executeBranches H scopes frames branches s
  | .exit run, s => s.executeTerminal run .exit scopes
  | .returnData run, s => s.executeTerminal run .returnData scopes
  | .returnEvent event, s => (.stop, s.requestTerminal (.returnEvent event))
  | .disconnect, s => (.stop, s.requestTerminal .disconnect)
  | .throw event, s => (.stop, { s with thrownEvent := some event })
  | .rethrow, s => s.executeRethrow
  | .reprompt, s => s.executeReprompt
  | .goto target, s => s.executeGoto target
  | .submit run, s => s.executeSubmit run scopes

def executeActions (H : Host σ) (scopes : List ℕ) (frames : ℕ) :
    Actions σ X G S → Session σ X G S → Flow × Session σ X G S
  | .nil, s => (.next, s)
  | .cons action rest, s =>
    match s.consumeStep H with
    | none => (.fail .limitExceeded, s)
    | some s =>
      match executeAction H scopes frames action s with
      | (.next, s) => executeActions H scopes frames rest s
      | (flow, s) => (flow, s)

/-- `select_if_branch`. -/
def executeBranches (H : Host σ) (scopes : List ℕ) (frames : ℕ) :
    Branches σ X G S → Session σ X G S → Flow × Session σ X G S
  | .nil, s => (.next, s)
  | .cons condition body rest, s =>
    match branchMatches scopes condition s with
    | (.error status, s) => (.fail status, s)
    | (.ok false, s) => executeBranches H scopes frames rest s
    | (.ok true, s) =>
      if body.isNil then (.next, s)
      else if frames ≥ H.execFrameCapacity then (.fail .limitExceeded, s)
      else executeActions H scopes (frames + 1) body s

end

def executeActionRange (H : Host σ) (scopes : List ℕ) (actions : Actions σ X G S)
    (s : Session σ X G S) : Flow × Session σ X G S :=
  if H.execFrameCapacity = 0 then (.fail .invalidStructure, s)
  else executeActions H scopes 1 actions s

/-! ## Transactions -/

namespace Session

variable (s : Session σ X G S)

def transactionReset (H : Host σ) : Session σ X G S :=
  { s with
    staged := ⟨H.cleared, [], s.staged.backendFailureEvent⟩
    submitRequested := none }

def transactionBegin (H : Host σ) : Bool × Session σ X G S :=
  if s.collectMediaTransaction then (false, s)
  else
    let s := { s with pendingNavigation := none }.transactionReset H
    if H.allocate s.allocations then
      (true, { s with
        allocations := s.allocations + 1
        staged := ⟨s.committed, [], s.staged.backendFailureEvent⟩ })
    else (false, { s with allocations := s.allocations + 1 })

/-- `transaction_commit` up to `apply_retry_resets`. -/
def transactionCommit (H : Host σ) : Session σ X G S :=
  { s with
    committed := s.staged.values
    staged := ⟨H.cleared, [], s.staged.backendFailureEvent⟩ }

/-- `exit_snapshot_prepare_range`. -/
def exitSnapshotPrepare (H : Host σ) : Bool × Session σ X G S :=
  (H.allocate s.allocations, { s with
    allocations := s.allocations + 1
    pendingTerminal := none })

def terminalPendingReset : Session σ X G S :=
  { s with pendingTerminal := none, exitRequested := false }

def terminalPublish : Session σ X G S :=
  { s with
    terminal := s.pendingTerminal
    pendingTerminal := none
    state := .exited
    error := none }

def fail (status : Status) : Session σ X G S :=
  { s with state := .failed, error := some status }

def publishPendingSubmit : Session σ X G S :=
  { s with
    submit := s.submitRequested
    submitRequested := none
    state := .submitting
    error := none }

def publishPendingNavigation : Session σ X G S :=
  { s with
    navigation := s.pendingNavigation
    pendingNavigation := none
    state := .navigating
    error := none }

def publishPendingControl : Option Status × Session σ X G S :=
  if s.submitRequested.isSome && s.pendingNavigation.isSome then (some .invalidStructure, s)
  else if s.submitRequested.isSome then (none, s.publishPendingSubmit)
  else if s.pendingNavigation.isSome then (none, s.publishPendingNavigation)
  else (none, s)

end Session

/-! ## What a run keeps and requests -/

/-- A relation that every action keeps. -/
structure Respected (M : Session σ X G S → Flow × Session σ X G S → Prop) : Prop where
  next : ∀ s, M s (.next, s)
  fail : ∀ s status, M s (.fail status, s)
  trans : ∀ s s' r, M s (.next, s') → M s' r → M s r
  staged : ∀ s staged, M s (.next, { s with staged := staged })
  steps : ∀ s, M s (.next, { s with executionSteps := s.executionSteps + 1 })
  reprompt : ∀ s, M s (.next, { s with handlerRepromptRequested := true })
  terminal : ∀ s terminal, M s (.stop, s.requestTerminal terminal)
  throw : ∀ s event, M s (.stop, { s with thrownEvent := some event })
  rethrow : ∀ s, M s (.stop, { s with rethrowRequested := true })
  goto : ∀ s target, s.pendingNavigation = none →
    M s (.stop, { s with pendingNavigation := some target })
  submit : ∀ s request, s.submitRequested = none →
    M s (.stop, { s with submitRequested := some request })

namespace Respected

variable {M : Session σ X G S → Flow × Session σ X G S → Prop} (hM : Respected M)
  {H : Host σ} {scopes : List ℕ}

include hM

variable {r : Flow × Session σ X G S} {s s' : Session σ X G S}

theorem evaluate {α : Type} {run : Run σ α} {result : Except Status α}
    (hs : s.evaluate run scopes = (result, s')) (h : M s' r) :
    M s r := by
  cases hs
  exact hM.trans _ _ _ (hM.staged s _) h

theorem consumeStep (hs : s.consumeStep H = some s') (h : M s' r) : M s r := by
  rw [Session.consumeStep] at hs
  split at hs
  · cases hs
  · cases hs
    exact hM.trans _ _ _ (hM.steps s) h

theorem executeTerminal (run : Run σ X) (terminal : X → Terminal X) (s : Session σ X G S) :
    M s (s.executeTerminal run terminal scopes) := by
  rw [Session.executeTerminal]
  cases hrun : s.evaluate run scopes with
  | mk result s' =>
    cases result with
    | error status => exact hM.evaluate hrun (hM.fail _ _)
    | ok values => exact hM.evaluate hrun (hM.terminal _ _)

theorem executeCompute (run : Run σ Unit) (s : Session σ X G S) :
    M s (s.executeCompute run scopes) := by
  rw [Session.executeCompute]
  cases hrun : s.evaluate run scopes with
  | mk result s' =>
    cases result with
    | error status => exact hM.evaluate hrun (hM.fail _ _)
    | ok _ => exact hM.evaluate hrun (hM.next _)

theorem executeGoto (target : G) (s : Session σ X G S) : M s (s.executeGoto target) := by
  rw [Session.executeGoto]
  split
  · exact hM.fail _ _
  · rename_i hnone
    exact hM.goto s target (by simpa using hnone)

theorem executeSubmit (run : Run σ S) (s : Session σ X G S) : M s (s.executeSubmit run scopes) := by
  rw [Session.executeSubmit]
  split
  · exact hM.fail _ _
  · rename_i hnone
    cases hrun : s.evaluate run scopes with
    | mk result s' =>
      cases result with
      | error status => exact hM.evaluate hrun (hM.fail _ _)
      | ok request =>
        refine hM.evaluate hrun (hM.submit _ request ?_)
        have hs' : s' = (s.evaluate run scopes).2 := by rw [hrun]
        rw [hs', Session.evaluate]
        simpa using hnone

theorem executeRethrow (s : Session σ X G S) : M s s.executeRethrow := by
  rw [Session.executeRethrow]
  split
  · exact hM.rethrow s
  · exact hM.fail _ _

theorem executeReprompt (s : Session σ X G S) : M s s.executeReprompt := by
  rw [Session.executeReprompt]
  split
  · exact hM.reprompt s
  · exact hM.fail _ _

theorem branchMatches {condition : Option (Run σ Bool)}
    {result : Except Status Bool} (hs : branchMatches scopes condition s = (result, s'))
    (h : M s' r) : M s r := by
  cases condition with
  | none =>
    cases hs
    exact h
  | some run => exact hM.evaluate hs h

mutual

theorem executeAction (frames : ℕ) : ∀ (action : Action σ X G S) (s : Session σ X G S),
    M s (executeAction H scopes frames action s)
  | .compute run, s => hM.executeCompute run s
  | .cond branches, s => executeBranches frames branches s
  | .exit run, s => hM.executeTerminal run .exit s
  | .returnData run, s => hM.executeTerminal run .returnData s
  | .returnEvent event, s => hM.terminal s (.returnEvent event)
  | .disconnect, s => hM.terminal s .disconnect
  | .throw event, s => hM.throw s event
  | .rethrow, s => hM.executeRethrow s
  | .reprompt, s => hM.executeReprompt s
  | .goto target, s => hM.executeGoto target s
  | .submit run, s => hM.executeSubmit run s

theorem executeActions (frames : ℕ) : ∀ (actions : Actions σ X G S) (s : Session σ X G S),
    M s (executeActions H scopes frames actions s)
  | .nil, s => hM.next s
  | .cons action rest, s => by
    rw [Content.executeActions]
    cases hstep : s.consumeStep H with
    | none => exact hM.fail s _
    | some s' =>
      refine hM.consumeStep hstep ?_
      have haction := executeAction frames action s'
      dsimp only
      cases hrun : Content.executeAction H scopes frames action s' with
      | mk flow s'' =>
        rw [hrun] at haction
        cases flow with
        | next => exact hM.trans _ _ _ haction (executeActions frames rest s'')
        | stop => exact haction
        | fail status => exact haction

theorem executeBranches (frames : ℕ) : ∀ (branches : Branches σ X G S) (s : Session σ X G S),
    M s (executeBranches H scopes frames branches s)
  | .nil, s => hM.next s
  | .cons condition body rest, s => by
    rw [Content.executeBranches]
    cases hcond : Content.branchMatches scopes condition s with
    | mk result s' =>
      refine hM.branchMatches hcond ?_
      cases result with
      | error status => exact hM.fail s' status
      | ok holds =>
        cases holds with
        | false => exact executeBranches frames rest s'
        | true =>
          dsimp only
          split
          · exact hM.next s'
          · split
            · exact hM.fail s' _
            · exact executeActions (frames + 1) body s'

end

theorem executeActionRange (actions : Actions σ X G S) (s : Session σ X G S) :
    M s (executeActionRange H scopes actions s) := by
  rw [Content.executeActionRange]
  split
  · exact hM.fail s _
  · exact hM.executeActions 1 actions s

end Respected

/-- Only the staged values, the steps and the requests change. -/
structure Kept (s s' : Session σ X G S) : Prop where
  committed : s'.committed = s.committed
  collectMediaTransaction : s'.collectMediaTransaction = s.collectMediaTransaction
  eventDispatchActive : s'.eventDispatchActive = s.eventDispatchActive
  allocations : s'.allocations = s.allocations
  repromptRequested : s'.repromptRequested = s.repromptRequested
  backendFailureOrigin : s'.backendFailureOrigin = s.backendFailureOrigin
  state : s'.state = s.state
  error : s'.error = s.error
  terminal : s'.terminal = s.terminal
  navigation : s'.navigation = s.navigation
  submit : s'.submit = s.submit

theorem Kept.refl (s : Session σ X G S) : Kept s s :=
  ⟨rfl, rfl, rfl, rfl, rfl, rfl, rfl, rfl, rfl, rfl, rfl⟩

theorem Kept.trans {s s' s'' : Session σ X G S} (h : Kept s s') (h' : Kept s' s'') :
    Kept s s'' where
  committed := h'.committed.trans h.committed
  collectMediaTransaction := h'.collectMediaTransaction.trans h.collectMediaTransaction
  eventDispatchActive := h'.eventDispatchActive.trans h.eventDispatchActive
  allocations := h'.allocations.trans h.allocations
  repromptRequested := h'.repromptRequested.trans h.repromptRequested
  backendFailureOrigin := h'.backendFailureOrigin.trans h.backendFailureOrigin
  state := h'.state.trans h.state
  error := h'.error.trans h.error
  terminal := h'.terminal.trans h.terminal
  navigation := h'.navigation.trans h.navigation
  submit := h'.submit.trans h.submit

theorem respected_kept : Respected fun (s : Session σ X G S) r => Kept s r.2 where
  next := Kept.refl
  fail s _ := Kept.refl s
  trans _ _ _ h h' := h.trans h'
  staged _ _ := ⟨rfl, rfl, rfl, rfl, rfl, rfl, rfl, rfl, rfl, rfl, rfl⟩
  steps _ := ⟨rfl, rfl, rfl, rfl, rfl, rfl, rfl, rfl, rfl, rfl, rfl⟩
  reprompt _ := ⟨rfl, rfl, rfl, rfl, rfl, rfl, rfl, rfl, rfl, rfl, rfl⟩
  terminal _ _ := ⟨rfl, rfl, rfl, rfl, rfl, rfl, rfl, rfl, rfl, rfl, rfl⟩
  throw _ _ := ⟨rfl, rfl, rfl, rfl, rfl, rfl, rfl, rfl, rfl, rfl, rfl⟩
  rethrow _ := ⟨rfl, rfl, rfl, rfl, rfl, rfl, rfl, rfl, rfl, rfl, rfl⟩
  goto _ _ _ := ⟨rfl, rfl, rfl, rfl, rfl, rfl, rfl, rfl, rfl, rfl, rfl⟩
  submit _ _ _ := ⟨rfl, rfl, rfl, rfl, rfl, rfl, rfl, rfl, rfl, rfl, rfl⟩

/-! ## Transfers of control -/

inductive Control (X G S : Type)
  | terminal (terminal : Option (Terminal X))
  | navigate (target : G)
  | submit (request : S)
  deriving DecidableEq

def Session.controls (s : Session σ X G S) : List (Control X G S) :=
  (if s.exitRequested then [.terminal s.pendingTerminal] else []) ++
    ((s.pendingNavigation.map .navigate).toList ++ (s.submitRequested.map .submit).toList)

theorem Session.controls_eq_nil {s : Session σ X G S} :
    s.controls = [] ↔
      s.exitRequested = false ∧ s.pendingNavigation = none ∧ s.submitRequested = none := by
  simp [Session.controls]

/-- A run requests at most one transfer. -/
def Requests (s : Session σ X G S) (r : Flow × Session σ X G S) : Prop :=
  s.controls = [] → (r.1 = .next → r.2.controls = []) ∧ r.2.controls.length ≤ 1

theorem requests_of_eq {s s' : Session σ X G S} (h : s'.controls = s.controls) (flow : Flow) :
    Requests s (flow, s') := by
  intro hs
  rw [← h] at hs
  exact ⟨fun _ => hs, by simp [hs]⟩

theorem respected_requests : Respected (σ := σ) (X := X) (G := G) (S := S) Requests where
  next s := requests_of_eq rfl _
  fail s _ := requests_of_eq rfl _
  trans s s' r h h' hs := h' ((h hs).1 rfl)
  staged s _ := requests_of_eq rfl _
  steps s := requests_of_eq rfl _
  reprompt s := requests_of_eq rfl _
  throw s _ := requests_of_eq rfl _
  rethrow s := requests_of_eq rfl _
  terminal s terminal hs := by
    obtain ⟨-, hnavigation, hsubmit⟩ := Session.controls_eq_nil.mp hs
    refine ⟨fun h => ?_, ?_⟩
    · cases h
    · simp [Session.controls, Session.requestTerminal, hnavigation, hsubmit]
  goto s target _ hs := by
    obtain ⟨hexit, -, hsubmit⟩ := Session.controls_eq_nil.mp hs
    refine ⟨fun h => ?_, ?_⟩
    · cases h
    · simp [Session.controls, hexit, hsubmit]
  submit s request _ hs := by
    obtain ⟨hexit, hnavigation, -⟩ := Session.controls_eq_nil.mp hs
    refine ⟨fun h => ?_, ?_⟩
    · cases h
    · simp [Session.controls, hexit, hnavigation]

end TurboScxml.Voice.Content
