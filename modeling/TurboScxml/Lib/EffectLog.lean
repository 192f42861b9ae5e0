import Mathlib.Data.List.Nodup

/-!
# Logs of prepared effects

An effect is accepted, and later committed or discarded.

* `accepted`, `committed`, `discarded`: the effects that a log names;
* `Balanced`: every effect was accepted once, and is live or was settled once;
* `Balanced.settled`: without live effects, the committed and discarded ones are the accepted ones.
-/

namespace EffectLog

variable {T : Type*}

inductive Effect (T : Type*)
  | accepted (t : T)
  | committed (t : T)
  | discarded (t : T)
  deriving DecidableEq

def accepted : List (Effect T) → List T :=
  List.filterMap fun | .accepted t => some t | _ => none

def committed : List (Effect T) → List T :=
  List.filterMap fun | .committed t => some t | _ => none

def discarded : List (Effect T) → List T :=
  List.filterMap fun | .discarded t => some t | _ => none

section Projections

variable (log log' : List (Effect T)) (l : List T) (t : T)

@[simp] theorem accepted_nil : accepted ([] : List (Effect T)) = [] := rfl

@[simp] theorem committed_nil : committed ([] : List (Effect T)) = [] := rfl

@[simp] theorem discarded_nil : discarded ([] : List (Effect T)) = [] := rfl

@[simp] theorem accepted_append : accepted (log ++ log') = accepted log ++ accepted log' :=
  List.filterMap_append

@[simp] theorem committed_append : committed (log ++ log') = committed log ++ committed log' :=
  List.filterMap_append

@[simp] theorem discarded_append : discarded (log ++ log') = discarded log ++ discarded log' :=
  List.filterMap_append

@[simp] theorem accepted_cons_accepted : accepted (.accepted t :: log) = t :: accepted log := rfl

@[simp] theorem accepted_cons_committed : accepted (.committed t :: log) = accepted log := rfl

@[simp] theorem accepted_cons_discarded : accepted (.discarded t :: log) = accepted log := rfl

@[simp] theorem committed_cons_accepted : committed (.accepted t :: log) = committed log := rfl

@[simp] theorem committed_cons_committed :
    committed (.committed t :: log) = t :: committed log := rfl

@[simp] theorem committed_cons_discarded : committed (.discarded t :: log) = committed log := rfl

@[simp] theorem discarded_cons_accepted : discarded (.accepted t :: log) = discarded log := rfl

@[simp] theorem discarded_cons_committed : discarded (.committed t :: log) = discarded log := rfl

@[simp] theorem discarded_cons_discarded :
    discarded (.discarded t :: log) = t :: discarded log := rfl

@[simp] theorem accepted_commits : accepted (l.map Effect.committed) = [] := by
  induction l with
  | nil => rfl
  | cons t l ih => exact ih

@[simp] theorem committed_commits : committed (l.map Effect.committed) = l := by
  induction l with
  | nil => rfl
  | cons t l ih => exact congrArg (t :: ·) ih

@[simp] theorem discarded_commits : discarded (l.map Effect.committed) = [] := by
  induction l with
  | nil => rfl
  | cons t l ih => exact ih

@[simp] theorem accepted_discards : accepted (l.map Effect.discarded) = [] := by
  induction l with
  | nil => rfl
  | cons t l ih => exact ih

@[simp] theorem committed_discards : committed (l.map Effect.discarded) = [] := by
  induction l with
  | nil => rfl
  | cons t l ih => exact ih

@[simp] theorem discarded_discards : discarded (l.map Effect.discarded) = l := by
  induction l with
  | nil => rfl
  | cons t l ih => exact congrArg (t :: ·) ih

end Projections

structure Balanced (log : List (Effect T)) (live : List T) : Prop where
  nodup : (accepted log).Nodup
  perm : (committed log ++ discarded log ++ live).Perm (accepted log)

variable {log : List (Effect T)} {live live' : List T} {t : T}

theorem Balanced.nil : Balanced ([] : List (Effect T)) [] := ⟨List.nodup_nil, .refl _⟩

theorem Balanced.reorder (h : Balanced log live) (horder : live'.Perm live) : Balanced log live' :=
  ⟨h.nodup, (horder.append_left _).trans h.perm⟩

theorem Balanced.accept (h : Balanced log live) (hfresh : t ∉ accepted log) :
    Balanced (log ++ [.accepted t]) (live ++ [t]) := by
  constructor
  · rw [accepted_append, accepted_cons_accepted, accepted_nil]
    exact List.nodup_append'.mpr
      ⟨h.nodup, List.nodup_singleton t, List.disjoint_singleton.mpr hfresh⟩
  · have hperm := h.perm.append_right [t]
    simpa using hperm

theorem Balanced.commit (h : Balanced log live) : Balanced (log ++ live.map .committed) [] := by
  constructor
  · simpa using h.nodup
  · have hperm : (committed log ++ live ++ discarded log).Perm
        (committed log ++ discarded log ++ live) := by
      rw [List.append_assoc, List.append_assoc]
      exact List.perm_append_comm.append_left _
    simpa using hperm.trans h.perm

theorem Balanced.discard_append (h : Balanced log (live ++ live')) :
    Balanced (log ++ live.map .discarded) live' := by
  constructor
  · simpa using h.nodup
  · simpa using h.perm

theorem Balanced.discard (h : Balanced log live) : Balanced (log ++ live.map .discarded) [] :=
  discard_append (by rwa [List.append_nil])

/-- Without live effects every accepted effect was settled once. -/
theorem Balanced.settled (h : Balanced log []) :
    (accepted log).Nodup ∧ (committed log ++ discarded log).Perm (accepted log) := by
  refine ⟨h.nodup, ?_⟩
  have hperm := h.perm
  rwa [List.append_nil] at hperm

end EffectLog
