import Mathlib.Data.List.Nodup
import Mathlib.Tactic.SplitIfs
import TurboScxml.Lib.Machine

/-!
# Handles that are taken and returned

A function takes handles and has to return them on every way out. Its log says what it did.

* `Event`, `step`: a handle is taken while it is not held, and returned while it is;
* `Settles`: the log leads from the handles that are held before to those that are held after;
* `Settles.count`: what was held or taken is returned or held;
* `Settles.once`: from nothing to nothing, each handle is returned as often as it is taken.
-/

namespace Handles

variable {H : Type*} [DecidableEq H]

inductive Event (H : Type*)
  | taken (handle : H)
  | returned (handle : H)
  deriving DecidableEq

def step (held : List H) : Event H → Option (List H)
  | .taken handle => if handle ∈ held then none else some (handle :: held)
  | .returned handle => if handle ∈ held then some (held.erase handle) else none

/-- The log leads from `held` to `held'`. -/
def Settles (held : List H) (log : List (Event H)) (held' : List H) : Prop :=
  Machine.exec step held log = some held'

instance (held : List H) (log : List (Event H)) (held' : List H) :
    Decidable (Settles held log held') :=
  inferInstanceAs (Decidable (_ = _))

variable {held held' held'' : List H} {log log' : List (Event H)}

theorem Settles.nil (held : List H) : Settles held [] held := rfl

variable {event : Event H}

theorem settles_cons : Settles held (event :: log) held'' ↔
    ∃ held', step held event = some held' ∧ Settles held' log held'' :=
  Option.bind_eq_some_iff

theorem Settles.append (h : Settles held log held') (h' : Settles held' log' held'') :
    Settles held (log ++ log') held'' := by
  induction log generalizing held with
  | nil =>
    cases h
    exact h'
  | cons event log ih =>
    obtain ⟨next, hnext, hrest⟩ := settles_cons.mp h
    exact settles_cons.mpr ⟨next, hnext, ih hrest⟩

def Event.handle : Event H → H
  | .taken handle => handle
  | .returned handle => handle

variable {others : List H}

theorem step_frame (h : step held event = some held')
    (hothers : event.handle ∉ others) : step (held ++ others) event = some (held' ++ others) := by
  cases event with
  | taken handle =>
    simp only [step] at h ⊢
    split_ifs at h with hmem
    cases h
    rw [if_neg]
    · rfl
    · exact fun hall => (List.mem_append.mp hall).elim hmem hothers
  | returned handle =>
    simp only [step] at h ⊢
    split_ifs at h with hmem
    cases h
    rw [if_pos (List.mem_append_left others hmem), List.erase_append_left others hmem]

/-- **The frame rule.** -/
theorem Settles.frame (h : Settles held log held')
    (hothers : ∀ event ∈ log, event.handle ∉ others) :
    Settles (held ++ others) log (held' ++ others) := by
  induction log generalizing held with
  | nil =>
    cases h
    exact .nil _
  | cons event log ih =>
    obtain ⟨next, hnext, hrest⟩ := settles_cons.mp h
    obtain ⟨hfirst, hlater⟩ := List.forall_mem_cons.mp hothers
    exact settles_cons.mpr ⟨_, step_frame hnext hfirst, ih hrest hlater⟩

theorem Settles.take {handle : H} (hfree : handle ∉ held) :
    Settles held [.taken handle] (handle :: held) :=
  settles_cons.mpr ⟨handle :: held, if_neg hfree, .nil _⟩

/-- **One event** keeps the balance of a handle. -/
theorem step_count (h : step held event = some held') (handle : H) :
    [event].count (.taken handle) + held.count handle
      = [event].count (.returned handle) + held'.count handle := by
  cases event with
  | taken other =>
    simp only [step] at h
    split_ifs at h with hmem
    cases h
    by_cases heq : other = handle
    · simp [heq, Nat.add_comm]
    · simp [heq]
  | returned other =>
    simp only [step] at h
    split_ifs at h with hmem
    cases h
    by_cases heq : other = handle
    · subst heq
      have hpos : 0 < held.count other := List.count_pos_iff.mpr hmem
      simp
      omega
    · simp [heq, List.count_erase_of_ne (Ne.symm heq)]

/-- **The balance of a log.** -/
theorem Settles.count (h : Settles held log held') (handle : H) :
    log.count (.taken handle) + held.count handle
      = log.count (.returned handle) + held'.count handle := by
  induction log generalizing held with
  | nil =>
    cases h
    rfl
  | cons event log ih =>
    obtain ⟨next, hnext, hrest⟩ := settles_cons.mp h
    have hfirst := step_count hnext handle
    have hlater := ih hrest
    rw [List.count_cons, List.count_cons]
    simp only [List.count_singleton] at hfirst
    omega

theorem Settles.once (h : Settles [] log []) (handle : H) :
    log.count (.returned handle) = log.count (.taken handle) := by
  have hcount := h.count handle
  simpa using hcount.symm

end Handles
