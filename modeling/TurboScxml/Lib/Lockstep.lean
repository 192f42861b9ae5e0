import Mathlib.Logic.Relation

/-!
# Machines that cannot be told apart

A machine answers each action. Two states cannot be told apart if the answers to every list of
actions are the same.

* `answers`: the answers to a list of actions;
* `answers_guarded`: states that stay related give the same answers.
-/

namespace Lockstep

variable {S A O : Type*} (call : S → A → S × O)

def answers : S → List A → List O
  | _, [] => []
  | s, a :: as => (call s a).2 :: answers (call s a).1 as

/-- Every action of the list meets a condition. -/
def Allowed (ok : S → A → Prop) : S → List A → Prop
  | _, [] => True
  | s, a :: as => ok s a ∧ Allowed ok (call s a).1 as

variable {call}

/-- **The rule for a list of actions that meet a condition.** -/
theorem answers_guarded {ok : S → A → Prop} {R : S → S → Prop}
    (hstep : ∀ s t a, R s t → ok s a →
      (call s a).2 = (call t a).2 ∧ R (call s a).1 (call t a).1)
    {s t : S} (h : R s t) {as : List A} (hok : Allowed call ok s as) :
    answers call s as = answers call t as := by
  induction as generalizing s t with
  | nil => rfl
  | cons a as ih =>
    obtain ⟨hfirst, hrest⟩ := hok
    obtain ⟨hanswer, hnext⟩ := hstep s t a h hfirst
    rw [answers, answers, hanswer, ih hnext hrest]

theorem Allowed.imp {ok ok' : S → A → Prop} (h : ∀ s a, ok s a → ok' s a) {s : S} {as : List A}
    (hok : Allowed call ok s as) : Allowed call ok' s as := by
  induction as generalizing s with
  | nil => trivial
  | cons a as ih => exact ⟨h s a hok.1, ih hok.2⟩

theorem Allowed.of_forall {ok : S → A → Prop} (h : ∀ s a, ok s a) (s : S) (as : List A) :
    Allowed call ok s as := by
  induction as generalizing s with
  | nil => trivial
  | cons a as ih => exact ⟨h s a, ih (call s a).1⟩

end Lockstep
