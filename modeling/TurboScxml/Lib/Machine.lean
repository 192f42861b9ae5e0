import Mathlib.Logic.Relation

/-!
# Step machines

A machine is a partial step function on states, one action at a time.

* `Runs`: zero or more steps; `Runs.invariant`, the rule that carries a property along a run;
* `Reachable`: the states that runs from an initial state end in; `Reachable.invariant`;
* `exec`: the run of a given list of actions, for closed examples (`exec_runs`).
-/

namespace Machine

open Relation

variable {S A : Type*} (step : S → A → Option S)

def Next (s s' : S) : Prop := ∃ a, step s a = some s'

/-- Zero or more steps lead from `s` to `s'`. -/
def Runs : S → S → Prop := ReflTransGen (Next step)

/-- A run from an initial state ends in `s`. -/
def Reachable (init : S → Prop) (s : S) : Prop :=
  ∃ s₀, init s₀ ∧ Runs step s₀ s

/-- The steps where `ok` holds. -/
def guarded (ok : S → A → Bool) (step : S → A → Option S) (s : S) (a : A) : Option S :=
  if ok s a then step s a else none

def exec (step : S → A → Option S) : S → List A → Option S
  | s, [] => some s
  | s, a :: as => (step s a).bind fun s' => exec step s' as

variable {step : S → A → Option S} {init : S → Prop}

theorem Runs.refl (s : S) : Runs step s s := ReflTransGen.refl

variable {s s' : S}

theorem Runs.single {a : A} (h : step s a = some s') : Runs step s s' :=
  ReflTransGen.single ⟨a, h⟩

theorem Runs.trans {s s' s'' : S} (h : Runs step s s') (h' : Runs step s' s'') : Runs step s s'' :=
  ReflTransGen.trans h h'

/-- **The invariant rule.** -/
theorem Runs.invariant {P : S → Prop} (hstep : ∀ s a s', P s → step s a = some s' → P s')
    (hrun : Runs step s s') (h : P s) : P s' := by
  induction hrun with
  | refl => exact h
  | tail _ hnext ih =>
    obtain ⟨a, ha⟩ := hnext
    exact hstep _ a _ ih ha

theorem Reachable.of_init {s : S} (h : init s) : Reachable step init s := ⟨s, h, Runs.refl s⟩

theorem Reachable.runs (h : Reachable step init s) (hrun : Runs step s s') :
    Reachable step init s' := by
  obtain ⟨s₀, h₀, hrun₀⟩ := h
  exact ⟨s₀, h₀, hrun₀.trans hrun⟩

theorem Reachable.next {a : A} (h : Reachable step init s) (ha : step s a = some s') :
    Reachable step init s' :=
  h.runs (Runs.single ha)

theorem Reachable.invariant {P : S → Prop} (hinit : ∀ s, init s → P s)
    (hstep : ∀ s a s', P s → step s a = some s' → P s') {s : S} (h : Reachable step init s) :
    P s := by
  obtain ⟨s₀, h₀, hrun⟩ := h
  exact hrun.invariant hstep (hinit s₀ h₀)

variable {ok : S → A → Bool}

theorem guarded_eq_some {a : A}
    (h : guarded ok step s a = some s') : ok s a = true ∧ step s a = some s' := by
  unfold guarded at h
  split at h
  · exact ⟨‹_›, h⟩
  · cases h

theorem Runs.of_guarded (h : Runs (guarded ok step) s s') : Runs step s s' := by
  refine ReflTransGen.mono ?_ s s' h
  rintro t t' ⟨a, ha⟩
  exact ⟨a, (guarded_eq_some ha).2⟩

theorem Reachable.of_guarded {s : S}
    (h : Reachable (guarded ok step) init s) : Reachable step init s := by
  obtain ⟨s₀, h₀, hrun⟩ := h
  exact ⟨s₀, h₀, hrun.of_guarded⟩

theorem exec_runs {as : List A} (h : exec step s as = some s') : Runs step s s' := by
  induction as generalizing s with
  | nil =>
    obtain rfl : s = s' := by simpa [exec] using h
    exact Runs.refl s
  | cons a as ih =>
    obtain ⟨t, ha, hrest⟩ := Option.bind_eq_some_iff.mp h
    exact (Runs.single ha).trans (ih hrest)

end Machine
