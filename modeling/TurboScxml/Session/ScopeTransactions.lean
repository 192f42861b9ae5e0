import TurboScxml.Lib.Machine
import TurboScxml.Session.Blocks

/-!
# The supplemental scope across transactions

The blocks, initializers, scripts and finalize blocks of a transaction run on the Session thread;
then CFlow commits the staged effects in order, or discards them in any order. The scope that the
Session should have committed is kept beside the code's: it takes the writes of the blocks that
succeeded, when their transaction is committed.

* `Transactions`, `Action`, `step`: the runs of macro-transactions;
* `Isolated`: the property; `QuietFinalize`: a finalize block writes nothing to the scope;
* **`quietlyReachable_isolated`**: the scope is isolated in every run of quiet finalize blocks.
-/

namespace TurboScxml.Session

open Function Machine

variable {M : DataModel} {H : Host M} {cfg : Config} (P : Program)

/-! ## The ends of a transaction -/

def applyWrites (scope : M.Scope) (writes : List (ScopeWrite M)) : M.Scope :=
  writes.foldl ScopeWrite.apply scope

namespace Exec

variable (x : Exec M H cfg)

def commitLateInitializer : Exec M H cfg :=
  if x.lateTicketPending then
    { x with
      late := fun i => if x.late i = .pending then .done else x.late i
      lateTicketPending := false }
  else x

def discardLateInitializer : Exec M H cfg :=
  if x.lateTicketPending then
    { x with
      late := fun i => if x.late i = .pending then .never else x.late i
      lateTicketPending := false }
  else x

def commitEffect : Effect M cfg → Exec M H cfg
  | .supplemental => x.commitSupplementalScope
  | .lateInitializer => x.commitLateInitializer
  | .eventMetadata => x
  | .send e _ | .cancel e _ => { x with sends := (x.sends.commitPreparedEffect e).1 }

def discardEffect : Effect M cfg → Exec M H cfg
  | .supplemental => x.discardSupplementalScope
  | .lateInitializer => x.discardLateInitializer
  | .eventMetadata => { x with metadata := x.metadata - 1 }
  | .send e _ | .cancel e _ => { x with sends := (x.sends.discardPreparedEffect e).1 }

end Exec

/-! ## The machine -/

inductive Phase
  | running | committing | discarding
  deriving DecidableEq

structure Transactions (M : DataModel) (H : Host M) (cfg : Config) where
  exec : Exec M H cfg
  phase : Phase
  expected : M.Scope
  written : List (ScopeWrite M)

/-- What the Session thread and CFlow do. -/
inductive TransactionAction (M : DataModel)
  | block (state : M.Root) (input : BlockInput M) (steps : Steps M)
  | finalize (state : M.Root) (env : Surroundings M) (steps : Steps M)
  | succeed
  | fail
  | commitNext
  | discardAt (index : ℕ)
  | finish

namespace Transactions

def init (root : M.Root) (adapter : H.Adapter) : Transactions M H cfg where
  exec := .init root adapter
  phase := .running
  expected := emptyScope M
  written := []

variable (s : Transactions M H cfg)

def afterBlock (x : Exec M H cfg) : Outcome → Transactions M H cfg
  | .continue => { s with
      exec := x
      written := s.written ++ x.writes.drop s.exec.writes.length }
  | .blockAborted => { s with exec := x }
  | .fatal => { s with exec := x, phase := .discarding }

def finish : Transactions M H cfg where
  exec := { s.exec with value := none, raised := [], effects := [] }
  phase := .running
  expected := if s.phase = .committing then applyWrites s.expected s.written else s.expected
  written := []

def step : TransactionAction M → Option (Transactions M H cfg)
  | .block state input steps =>
    if s.phase = .running then
      let (outcome, x) := { s.exec with state := state }.executeBlock P input steps
      some (s.afterBlock x outcome)
    else none
  | .finalize state env steps =>
    if s.phase = .running then
      let (succeeded, x) := { s.exec with state := state }.executeInvocationFinalize P env steps
      some (s.afterBlock x (if succeeded then .continue else .fatal))
    else none
  | .succeed => if s.phase = .running then some { s with phase := .committing } else none
  | .fail => if s.phase = .running then some { s with phase := .discarding } else none
  | .commitNext =>
    match s.phase, s.exec.effects with
    | .committing, effect :: rest =>
      some { s with exec := { s.exec with effects := rest }.commitEffect effect }
    | _, _ => none
  | .discardAt index =>
    match s.phase, s.exec.effects[index]? with
    | .discarding, some effect =>
      some { s with
        exec := { s.exec with effects := s.exec.effects.eraseIdx index }.discardEffect effect }
    | _, _ => none
  | .finish => if s.phase ≠ .running ∧ s.exec.effects = [] then some s.finish else none

/-- The committed scope is the expected one, but during a commit. -/
def Isolated : Prop :=
  s.exec.scopes.committed = s.expected ∨
    s.phase = .committing ∧ s.exec.scopes.committed = applyWrites s.expected s.written

/-- A finalize block writes nothing to the scope. -/
def quietFinalize : TransactionAction M → Bool
  | .finalize state env steps =>
    ({ s.exec with state := state }.executeInvocationFinalize P env steps).2.writes.length ==
      s.exec.writes.length
  | _ => true

end Transactions

/-! ## What a block does to the scope -/

theorem applyWrites_append (scope : M.Scope) (ws ws' : List (ScopeWrite M)) :
    applyWrites scope (ws ++ ws') = applyWrites (applyWrites scope ws) ws' :=
  List.foldl_append

/-- The writes since `x₀` are those that changed the staged scope. -/
structure Staging (x₀ x : Exec M H cfg) : Prop where
  committed : x.scopes.committed = x₀.scopes.committed
  checkpoint : x.scopes.checkpoint = x₀.scopes.checkpoint
  pending : x.scopes.transactionPending = x₀.scopes.transactionPending
  live : x.scopes.checkpointLive = x₀.scopes.checkpointLive
  effects : x₀.effects <+: x.effects
  writes : x₀.writes <+: x.writes
  staged : x.scopes.staged = applyWrites x₀.scopes.staged (x.writes.drop x₀.writes.length)

theorem staging_stable (x₀ : Exec M H cfg) : Stable .staged (Staging x₀) := by
  have hwrite : ∀ {x : Exec M H cfg}, Staging x₀ x → ∀ w,
      Staging x₀ (x.writeScope .staged w) := by
    intro x hx w
    refine ⟨hx.committed, hx.checkpoint, hx.pending, hx.live, hx.effects,
      hx.writes.trans (List.prefix_append _ _), ?_⟩
    have hdrop : (x.writes ++ [w]).drop x₀.writes.length =
        x.writes.drop x₀.writes.length ++ [w] :=
      List.drop_append_of_le_length hx.writes.length_le
    change w.apply x.scopes.staged = applyWrites _ ((x.writes ++ [w]).drop _)
    rw [hdrop, applyWrites_append, ← hx.staged]
    rfl
  constructor
  · intro x y h hx
    exact ⟨h.scopes ▸ hx.committed, h.scopes ▸ hx.checkpoint, h.scopes ▸ hx.pending,
      h.scopes ▸ hx.live, hx.effects.trans h.effects, h.writes ▸ hx.writes,
      h.scopes ▸ h.writes ▸ hx.staged⟩
  · intro x hx _ _
    exact ⟨hx.committed, hx.checkpoint, hx.pending, hx.live, hx.effects, hx.writes, hx.staged⟩
  · intro x hx
    exact ⟨hx.committed, hx.checkpoint, hx.pending, hx.live, hx.effects, hx.writes, hx.staged⟩
  · intro x hx root
    unfold Exec.overwriteState
    split <;>
      exact ⟨hx.committed, hx.checkpoint, hx.pending, hx.live, hx.effects, hx.writes, hx.staged⟩
  · exact hwrite
  · exact hwrite

structure BlockScopes (x y : Exec M H cfg) (succeeded : Bool) : Prop where
  live : y.scopes.checkpointLive = false
  committed : y.scopes.committed = x.scopes.committed
  ticket : y.scopes.transactionPending = true → .supplemental ∈ y.effects
  staged : y.scopes.transactionPending = true → y.scopes.staged =
    applyWrites x.scopes.current (if succeeded then y.writes.drop x.writes.length else [])
  unstaged : y.scopes.transactionPending = false →
    x.scopes.transactionPending = false ∧ succeeded = false

theorem beginSupplementalBlock_scopes {x x' : Exec M H cfg} {input : BlockInput M}
    {view : Option ScopeView} (hslots : M.slotCount ≠ 0)
    (hlive : x.scopes.checkpointLive = false)
    (hticket : x.scopes.transactionPending = true → .supplemental ∈ x.effects)
    (h : x.beginSupplementalBlock input = (x', view)) :
    (view = none ∧ BlockScopes x x' false) ∨
      view = some .staged ∧ x'.scopes.checkpointLive = true ∧
        x'.scopes.transactionPending = true ∧ .supplemental ∈ x'.effects ∧
        x'.scopes.committed = x.scopes.committed ∧ x'.writes = x.writes ∧
        x'.scopes.staged = x.scopes.current ∧ x'.scopes.checkpoint = x.scopes.current := by
  unfold Exec.beginSupplementalBlock at h
  rw [if_neg hslots, hlive] at h
  simp only [Bool.false_eq_true, if_false] at h
  split at h
  · rename_i hpending
    have hcurrent : x.scopes.current = x.scopes.staged := by simp [Scopes.current, hpending]
    unfold Exec.checkpoint at h
    split at h
    · cases h
      exact .inr ⟨rfl, rfl, hpending, hticket hpending, rfl, rfl, hcurrent.symm, hcurrent.symm⟩
    · cases h
      refine .inl ⟨rfl, hlive, rfl, hticket, fun _ => hcurrent.symm, fun hnot => ?_⟩
      exact absurd hpending (by simp [hnot])
  · rename_i hpending
    have hpending : x.scopes.transactionPending = false := by simpa using hpending
    have hcurrent : x.scopes.current = x.scopes.committed := by simp [Scopes.current, hpending]
    split at h
    · cases h
      refine .inl ⟨rfl, hlive, rfl, hticket, fun hset => ?_, fun _ => ⟨hpending, rfl⟩⟩
      exact absurd hset (by simp [hpending])
    split at h
    · cases h
      refine .inl ⟨rfl, hlive, rfl, fun hset => ?_, fun hset => ?_, fun _ => ⟨hpending, rfl⟩⟩
      · exact absurd hset (by simp [hpending])
      · exact absurd hset (by simp [hpending])
    · rename_i y hy
      unfold Exec.stageEffect at hy
      split at hy
      · cases hy
        unfold Exec.checkpoint at h
        split at h
        · cases h
          exact .inr ⟨rfl, rfl, rfl, by simp, rfl, rfl, hcurrent.symm, hcurrent.symm⟩
        · cases h
          exact .inl ⟨rfl, hlive, rfl, fun _ => by simp, fun _ => hcurrent.symm,
            fun hnot => by cases hnot⟩
      · cases hy

theorem restoreFailedSendId_scopes (x : Exec M H cfg) :
    (x.restoreFailedSendId).2.scopes = x.scopes ∧ (x.restoreFailedSendId).2.effects = x.effects ∧
      (x.restoreFailedSendId).1 ≠ .continue := by
  unfold Exec.restoreFailedSendId
  split
  · exact ⟨rfl, rfl, by simp⟩
  · dsimp only
    split <;> exact ⟨rfl, rfl, by simp⟩

variable {y : Exec M H cfg} {outcome : Outcome}

theorem executeBlock_scopes {x : Exec M H cfg} {input : BlockInput M} {steps : Steps M}
    (hslots : M.slotCount ≠ 0) (hlive : x.scopes.checkpointLive = false)
    (hticket : x.scopes.transactionPending = true → .supplemental ∈ x.effects)
    (h : x.executeBlock P input steps = (outcome, y)) :
    BlockScopes x y (outcome == .continue) := by
  have hunchanged : BlockScopes x x false := by
    refine ⟨hlive, rfl, hticket, fun hpending => ?_, fun hpending => ⟨hpending, rfl⟩⟩
    simp [Scopes.current, hpending, applyWrites]
  unfold Exec.executeBlock at h
  split at h
  · cases h
    exact hunchanged
  split at h
  · rename_i x' hbegin
    cases h
    obtain ⟨-, hscopes⟩ | ⟨hview, -⟩ :=
      beginSupplementalBlock_scopes (x := x.copyState) hslots hlive hticket hbegin
    · exact ⟨hscopes.live, hscopes.committed, hscopes.ticket, hscopes.staged, hscopes.unstaged⟩
    · cases hview
  rename_i x₁ view hbegin
  obtain ⟨hview, -⟩ | ⟨hview, hlive₁, hpending₁, hticket₁, hcommitted₁, hwrites₁, hstaged₁,
    hcheckpoint₁⟩ := beginSupplementalBlock_scopes (x := x.copyState) hslots hlive hticket hbegin
  · cases hview
  cases hview
  have hrun := executeSteps_stable P (staging_stable x₁) (c := ⟨true, true, .staged⟩) rfl
    input.surroundings false steps (x := x₁)
    ⟨rfl, rfl, rfl, rfl, List.prefix_rfl, List.prefix_rfl, by simp [applyWrites]⟩
  split at h
  · rename_i x₂ hsteps
    rw [hsteps] at hrun
    cases h
    have hlive₂ : x₂.scopes.checkpointLive = true := hrun.live.trans hlive₁
    have hpending₂ : x₂.scopes.transactionPending = true := hrun.pending.trans hpending₁
    unfold Exec.settleSupplementalBlock
    rw [if_pos hlive₂]
    refine ⟨rfl, hrun.committed.trans hcommitted₁, fun _ => hrun.effects.subset hticket₁,
      fun _ => ?_, fun hnot => ?_⟩
    · have hstaged := hrun.staged
      rw [hstaged₁, hwrites₁] at hstaged
      exact hstaged
    · exact absurd hpending₂ (by simpa using hnot)
  · rename_i x₂ hsteps
    rw [hsteps] at hrun
    have hlive₂ : x₂.scopes.checkpointLive = true := hrun.live.trans hlive₁
    have hpending₂ : x₂.scopes.transactionPending = true := hrun.pending.trans hpending₁
    obtain ⟨hscopes, heffects, hstopped⟩ :=
      restoreFailedSendId_scopes (x₂.settleSupplementalBlock false)
    rw [h] at hscopes heffects hstopped
    have hfailed : (outcome == .continue) = false := by simpa using hstopped
    unfold Exec.settleSupplementalBlock at hscopes heffects
    rw [if_pos hlive₂] at hscopes heffects
    dsimp only at hscopes heffects
    rw [hfailed]
    refine ⟨by rw [hscopes], by rw [hscopes]; exact hrun.committed.trans hcommitted₁, fun _ => ?_,
      fun _ => ?_, fun hnot => ?_⟩
    · rw [heffects]
      exact hrun.effects.subset hticket₁
    · rw [hscopes]
      exact hrun.checkpoint.trans hcheckpoint₁
    · rw [hscopes] at hnot
      exact absurd hpending₂ (by simpa using hnot)
  · rename_i x₂ hsteps
    rw [hsteps] at hrun
    cases h
    have hlive₂ : x₂.scopes.checkpointLive = true := hrun.live.trans hlive₁
    have hpending₂ : x₂.scopes.transactionPending = true := hrun.pending.trans hpending₁
    unfold Exec.settleSupplementalBlock
    rw [if_pos hlive₂]
    refine ⟨rfl, hrun.committed.trans hcommitted₁, fun _ => hrun.effects.subset hticket₁,
      fun _ => hrun.checkpoint.trans hcheckpoint₁, fun hnot => ?_⟩
    exact absurd hpending₂ (by simpa using hnot)

structure Untouched (x₀ x : Exec M H cfg) : Prop where
  writes : x₀.writes <+: x.writes
  scopes : x.writes.length = x₀.writes.length → x.scopes = x₀.scopes
  effects : x₀.effects <+: x.effects

theorem untouched_stable (x₀ : Exec M H cfg) : Stable .committed (Untouched x₀) := by
  have hwrite : ∀ {x : Exec M H cfg}, Untouched x₀ x → ∀ view w,
      Untouched x₀ (x.writeScope view w) := by
    intro x hx view w
    refine ⟨hx.writes.trans (List.prefix_append _ _), fun hlength => ?_, hx.effects⟩
    have hgrown : (x.writes ++ [w]).length = x₀.writes.length := hlength
    have hle := hx.writes.length_le
    rw [List.length_append, List.length_singleton] at hgrown
    omega
  constructor
  · intro x y h hx
    refine ⟨h.writes ▸ hx.writes, fun hlength => ?_, hx.effects.trans h.effects⟩
    rw [h.writes] at hlength
    exact h.scopes.trans (hx.scopes hlength)
  · intro x hx _ _
    exact ⟨hx.writes, hx.scopes, hx.effects⟩
  · intro x hx
    exact ⟨hx.writes, hx.scopes, hx.effects⟩
  · intro x hx root
    unfold Exec.overwriteState
    split <;> exact ⟨hx.writes, hx.scopes, hx.effects⟩
  · intro x hx w
    exact hwrite hx .committed w
  · intro x hx w
    exact hwrite hx .staged w

theorem executeInvocationFinalize_untouched (x : Exec M H cfg) (env : Surroundings M)
    (steps : Steps M) : Untouched x (x.executeInvocationFinalize P env steps).2 := by
  have hrun := executeSteps_stable P (untouched_stable x) (c := finalizeContext) rfl env true steps
    (x := { x with value := none, edited := none, strained := false })
    ⟨List.prefix_rfl, fun _ => rfl, List.prefix_rfl⟩
  unfold Exec.executeInvocationFinalize
  split
  · rename_i z hz
    rw [hz] at hrun
    exact hrun
  · rename_i o z _ hz
    rw [hz] at hrun
    exact hrun

namespace Transactions

/-! ## The invariant -/

/-- The staged scope of an open transaction has the writes of its blocks. -/
structure ScopeSound (s : Transactions M H cfg) : Prop where
  live : s.exec.scopes.checkpointLive = false
  committed : s.exec.scopes.transactionPending = true ∨ s.phase ≠ .committing →
    s.exec.scopes.committed = s.expected
  staged : s.exec.scopes.transactionPending = true →
    s.exec.scopes.staged = applyWrites s.expected s.written
  ticket : s.exec.scopes.transactionPending = true → .supplemental ∈ s.exec.effects
  clean : s.exec.scopes.transactionPending = false → s.phase = .running → s.written = []
  settled : s.exec.scopes.transactionPending = false → s.phase = .committing →
    s.exec.scopes.committed = applyWrites s.expected s.written

theorem init_sound (root : M.Root) (adapter : H.Adapter) :
    ScopeSound (init root adapter : Transactions M H cfg) where
  live := rfl
  committed _ := rfl
  staged h := by cases h
  ticket h := by cases h
  clean _ _ := rfl
  settled _ h := by cases h

variable {s : Transactions M H cfg} (h : ScopeSound s)
include h

theorem ScopeSound.isolated : Isolated s := by
  by_cases hcommitting : s.phase = .committing
  · cases hpending : s.exec.scopes.transactionPending with
    | true => exact .inl (h.committed (.inl hpending))
    | false => exact .inr ⟨hcommitting, h.settled hpending hcommitting⟩
  · exact .inl (h.committed (.inr hcommitting))

theorem ScopeSound.current (hrunning : s.phase = .running) :
    s.exec.scopes.current = applyWrites s.expected s.written := by
  have hphase : s.phase ≠ .committing := by rw [hrunning]; simp
  unfold Scopes.current
  split
  · rename_i hpending
    exact h.staged hpending
  · rename_i hpending
    rw [h.committed (.inr hphase), h.clean (by simpa using hpending) hrunning]
    rfl

theorem ScopeSound.afterBlock (hrunning : s.phase = .running)
    (hy : BlockScopes s.exec y (outcome == .continue)) : ScopeSound (s.afterBlock y outcome) := by
  have hphase : s.phase ≠ .committing := by rw [hrunning]; simp
  have hcommitted : y.scopes.committed = s.expected :=
    hy.committed.trans (h.committed (.inr hphase))
  have hstaged := hy.staged
  rw [h.current hrunning] at hstaged
  cases outcome with
  | «continue» =>
    refine ⟨hy.live, fun _ => hcommitted, fun hpending => ?_, hy.ticket, fun hpending _ => ?_,
      fun hpending _ => ?_⟩
    · exact (hstaged hpending).trans (applyWrites_append _ _ _).symm
    · exact absurd (hy.unstaged hpending).2 (by simp)
    · exact absurd (hy.unstaged hpending).2 (by simp)
  | blockAborted =>
    refine ⟨hy.live, fun _ => hcommitted, fun hpending => hstaged hpending, hy.ticket,
      fun hpending _ => h.clean (hy.unstaged hpending).1 hrunning, fun _ hcommitting => ?_⟩
    exact absurd hcommitting hphase
  | fatal =>
    refine ⟨hy.live, fun _ => hcommitted, fun hpending => hstaged hpending, hy.ticket,
      fun _ hrunning => ?_, fun _ hcommitting => ?_⟩
    · cases hrunning
    · cases hcommitting

theorem ScopeSound.frame (hscopes : y.scopes = s.exec.scopes)
    (hticket : s.exec.scopes.transactionPending = true → .supplemental ∈ y.effects) :
    ScopeSound { s with exec := y } := by
  refine ⟨?_, ?_, ?_, ?_, ?_, ?_⟩ <;> simp only [hscopes]
  · exact h.live
  · exact h.committed
  · exact h.staged
  · exact hticket
  · exact h.clean
  · exact h.settled

theorem ScopeSound.fail (hrunning : s.phase = .running) :
    ScopeSound { s with phase := .discarding } where
  live := h.live
  committed _ := h.committed (.inr (by simp [hrunning]))
  staged := h.staged
  ticket := h.ticket
  clean _ hset := by cases hset
  settled _ hset := by cases hset

theorem ScopeSound.afterFinalize (hrunning : s.phase = .running)
    (hy : Untouched s.exec y) (hquiet : y.writes.length = s.exec.writes.length)
    (houtcome : outcome ≠ .blockAborted) :
    ScopeSound (s.afterBlock y outcome) := by
  have hscopes := hy.scopes hquiet
  have hwritten : y.writes.drop s.exec.writes.length = [] := by
    rw [← hquiet, List.drop_length]
  have hframe : ScopeSound { s with exec := y } :=
    h.frame hscopes fun hpending => hy.effects.subset (h.ticket hpending)
  cases outcome with
  | blockAborted => exact absurd rfl houtcome
  | «continue» =>
    have hsame : s.afterBlock y .continue = { s with exec := y } := by
      simp [Transactions.afterBlock, hwritten]
    rw [hsame]
    exact hframe
  | fatal => exact hframe.fail hrunning

omit h

theorem settleEffect_scopes (x : Exec M H cfg) (effect : Effect M cfg) {committed : M.Scope}
    (h : y = x.commitEffect effect ∧ committed = x.scopes.staged ∨
      y = x.discardEffect effect ∧ committed = x.scopes.committed) :
    y.effects = x.effects ∧
      ((effect ≠ .supplemental ∨ x.scopes.transactionPending = false) ∧ y.scopes = x.scopes ∨
        effect = .supplemental ∧ x.scopes.transactionPending = true ∧
          y.scopes = ⟨committed, emptyScope M, x.scopes.checkpoint, false,
            x.scopes.checkpointLive⟩) := by
  cases effect with
  | supplemental =>
    cases hpending : x.scopes.transactionPending with
    | true =>
      obtain ⟨rfl, rfl⟩ | ⟨rfl, rfl⟩ := h
      · simp [Exec.commitEffect, Exec.commitSupplementalScope, hpending]
      · simp [Exec.discardEffect, Exec.discardSupplementalScope, hpending]
    | false =>
      obtain ⟨rfl, -⟩ | ⟨rfl, -⟩ := h
      · simp [Exec.commitEffect, Exec.commitSupplementalScope, hpending]
      · simp [Exec.discardEffect, Exec.discardSupplementalScope, hpending]
  | lateInitializer =>
    obtain ⟨rfl, -⟩ | ⟨rfl, -⟩ := h
    · simp only [Exec.commitEffect, Exec.commitLateInitializer]
      split <;> simp
    · simp only [Exec.discardEffect, Exec.discardLateInitializer]
      split <;> simp
  | eventMetadata => obtain ⟨rfl, -⟩ | ⟨rfl, -⟩ := h <;> exact ⟨rfl, .inl ⟨.inl (by simp), rfl⟩⟩
  | send e request => obtain ⟨rfl, -⟩ | ⟨rfl, -⟩ := h <;> exact ⟨rfl, .inl ⟨.inl (by simp), rfl⟩⟩
  | cancel e sendId => obtain ⟨rfl, -⟩ | ⟨rfl, -⟩ := h <;> exact ⟨rfl, .inl ⟨.inl (by simp), rfl⟩⟩

theorem ScopeSound.settle {committed : M.Scope} (h : ScopeSound s) (hphase : s.phase ≠ .running)
    (hscopes : y.scopes = ⟨committed, emptyScope M, s.exec.scopes.checkpoint, false,
      s.exec.scopes.checkpointLive⟩)
    (hcommitted : s.phase ≠ .committing → committed = s.expected)
    (hsettled : s.phase = .committing → committed = applyWrites s.expected s.written) :
    ScopeSound { s with exec := y } := by
  refine ⟨?_, ?_, ?_, ?_, ?_, ?_⟩ <;> simp only [hscopes]
  · exact h.live
  · exact fun hset => hcommitted (hset.resolve_left Bool.false_ne_true)
  · exact fun hset => absurd hset Bool.false_ne_true
  · exact fun hset => absurd hset Bool.false_ne_true
  · exact fun _ hrunning => absurd hrunning hphase
  · exact fun _ => hsettled

variable {effect : Effect M cfg}

theorem ScopeSound.commitNext {rest : List (Effect M cfg)}
    (h : ScopeSound s) (hcommitting : s.phase = .committing)
    (heffects : s.exec.effects = effect :: rest) :
    ScopeSound { s with exec := { s.exec with effects := rest }.commitEffect effect } := by
  obtain ⟨hrest, ⟨hother, hscopes⟩ | ⟨-, hpending, hscopes⟩⟩ :=
    settleEffect_scopes { s.exec with effects := rest } effect (.inl ⟨rfl, rfl⟩)
  · refine h.frame hscopes fun hpending => ?_
    have hticket := h.ticket hpending
    rw [heffects] at hticket
    obtain rfl | hmem := List.mem_cons.mp hticket
    · obtain hne | hnot := hother
      · exact absurd rfl hne
      · exact absurd (hnot.symm.trans hpending) Bool.false_ne_true
    · rwa [hrest]
  · exact h.settle (by simp [hcommitting]) hscopes (fun hset => absurd hcommitting hset)
      fun _ => h.staged hpending

theorem ScopeSound.discardAt {index : ℕ} (h : ScopeSound s)
    (hdiscarding : s.phase = .discarding) (heffect : s.exec.effects[index]? = some effect) :
    ScopeSound { s with
      exec := { s.exec with
        effects := s.exec.effects.eraseIdx index }.discardEffect effect } := by
  obtain ⟨hrest, ⟨hother, hscopes⟩ | ⟨-, -, hscopes⟩⟩ :=
    settleEffect_scopes { s.exec with effects := s.exec.effects.eraseIdx index } effect
      (.inr ⟨rfl, rfl⟩)
  · refine h.frame hscopes fun hpending => ?_
    obtain hne | hnot := hother
    · rw [hrest]
      refine (List.mem_eraseIdx_iff_getElem?).mpr ?_
      obtain ⟨k, hk⟩ := List.mem_iff_getElem?.mp (h.ticket hpending)
      refine ⟨k, ?_, hk⟩
      rintro rfl
      exact hne (Option.some.inj (heffect.symm.trans hk))
    · exact absurd (hnot.symm.trans hpending) Bool.false_ne_true
  · exact h.settle (by simp [hdiscarding]) hscopes (fun hset => h.committed (.inr hset))
      fun hset => by simp [hdiscarding] at hset

theorem ScopeSound.finish (h : ScopeSound s) (hempty : s.exec.effects = []) :
    ScopeSound s.finish := by
  have hpending : s.exec.scopes.transactionPending = false := by
    cases hset : s.exec.scopes.transactionPending with
    | false => rfl
    | true =>
      have hticket := h.ticket hset
      rw [hempty] at hticket
      cases hticket
  refine ⟨h.live, fun _ => ?_, fun hset => ?_, fun hset => ?_, fun _ _ => rfl, fun _ hset => ?_⟩
  · change s.exec.scopes.committed = if s.phase = .committing then _ else _
    split
    · rename_i hcommitting
      exact h.settled hpending hcommitting
    · rename_i hnot
      exact h.committed (.inr hnot)
  · exact absurd (hpending.symm.trans hset) (by simp)
  · exact absurd (hpending.symm.trans hset) (by simp)
  · cases hset

theorem ScopeSound.step {s' : Transactions M H cfg} {a : TransactionAction M}
    (hslots : M.slotCount ≠ 0) (h : ScopeSound s) (hquiet : quietFinalize P s a = true)
    (hstep : s.step P a = some s') : ScopeSound s' := by
  cases a with
  | block state input steps =>
    simp only [Transactions.step] at hstep
    split at hstep
    · rename_i hrunning
      cases hstep
      have hscopes : BlockScopes { s.exec with state := state }
          (({ s.exec with state := state } : Exec M H cfg).executeBlock P input steps).2
          ((({ s.exec with state := state } : Exec M H cfg).executeBlock P input steps).1
            == .continue) :=
        executeBlock_scopes P hslots h.live h.ticket rfl
      exact h.afterBlock hrunning
        ⟨hscopes.live, hscopes.committed, hscopes.ticket, hscopes.staged, hscopes.unstaged⟩
    · cases hstep
  | finalize state env steps =>
    simp only [Transactions.step] at hstep
    split at hstep
    · rename_i hrunning
      cases hstep
      obtain ⟨hwrites, hscopes, heffects⟩ :=
        executeInvocationFinalize_untouched P { s.exec with state := state } env steps
      refine h.afterFinalize hrunning ⟨hwrites, hscopes, heffects⟩
        (by simpa [quietFinalize] using hquiet) ?_
      split <;> simp
    · cases hstep
  | succeed =>
    simp only [Transactions.step] at hstep
    split at hstep
    · rename_i hrunning
      cases hstep
      have hphase : s.phase ≠ .committing := by rw [hrunning]; simp
      refine ⟨h.live, fun _ => h.committed (.inr hphase), h.staged, h.ticket,
        fun _ hset => absurd hset (by simp), fun hpending _ => ?_⟩
      change s.exec.scopes.committed = applyWrites s.expected s.written
      rw [h.clean hpending hrunning, h.committed (.inr hphase)]
      rfl
    · cases hstep
  | fail =>
    simp only [Transactions.step] at hstep
    split at hstep
    · rename_i hrunning
      cases hstep
      exact h.fail hrunning
    · cases hstep
  | commitNext =>
    simp only [Transactions.step] at hstep
    split at hstep
    · rename_i effect rest hcommitting heffects
      cases hstep
      exact h.commitNext hcommitting heffects
    · cases hstep
  | discardAt index =>
    simp only [Transactions.step] at hstep
    split at hstep
    · rename_i effect hdiscarding heffect
      cases hstep
      exact h.discardAt hdiscarding heffect
    · cases hstep
  | finish =>
    simp only [Transactions.step] at hstep
    split at hstep
    · rename_i hended
      cases hstep
      exact h.finish hended.2
    · cases hstep

def Initial (s : Transactions M H cfg) : Prop := ∃ root adapter, s = init root adapter

def QuietlyReachable (s : Transactions M H cfg) : Prop :=
  Reachable (guarded (quietFinalize P) (step P)) Initial s

/-- **Main.** In every run whose finalize blocks write nothing to the scope, the committed scope is
what the committed transactions wrote. -/
theorem quietlyReachable_isolated {s : Transactions M H cfg} (h : QuietlyReachable P s) :
    Isolated s := by
  by_cases hslots : M.slotCount = 0
  · refine .inl ?_
    funext slot
    exact absurd slot.isLt (by omega)
  · refine ScopeSound.isolated (h.invariant ?_ ?_)
    · rintro s ⟨root, adapter, rfl⟩
      exact init_sound root adapter
    · intro s a s' hsound hstep
      obtain ⟨hquiet, hstep⟩ := guarded_eq_some hstep
      exact hsound.step P hslots hquiet hstep

/-! ## A finalize block that writes the committed scope -/

def itemLoop : Steps textModel :=
  .cons (.foreach ⟨[['v']], true, .supplemental ⟨0, Nat.one_pos⟩, none, 1⟩
    (.cons (.log []) .nil)) .nil

def textTransactions : Transactions textModel acceptingHost textConfig := init ['a'] ()

def committedRun : List (TransactionAction textModel) :=
  [.block ['a'] textInput itemLoop, .succeed, .commitNext, .finish]

def committedState : Transactions textModel acceptingHost textConfig :=
  (Machine.exec (guarded (quietFinalize textProgram) (step textProgram)) textTransactions
    committedRun).get (by rfl)

theorem committedState_isolated : Isolated committedState :=
  quietlyReachable_isolated textProgram
    (Reachable.runs (.of_init ⟨['a'], (), rfl⟩) (exec_runs (Option.some_get _).symm))

def finalizedRun : List (TransactionAction textModel) :=
  [.finalize ['a'] textInput.surroundings itemLoop, .fail, .finish]

def finalizedState : Transactions textModel acceptingHost textConfig :=
  (Machine.exec (step textProgram) textTransactions finalizedRun).get (by rfl)

theorem finalizedState_not_isolated :
    Reachable (step textProgram) Initial finalizedState ∧ ¬ Isolated finalizedState := by
  refine ⟨Reachable.runs (.of_init ⟨['a'], (), rfl⟩) (exec_runs (Option.some_get _).symm), ?_⟩
  rintro (hsame | ⟨hphase, -⟩)
  · have hslot := congrFun hsame ⟨0, Nat.one_pos⟩
    cases hslot
  · cases hphase

end Transactions

end TurboScxml.Session
