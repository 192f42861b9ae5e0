import TurboScxml.Router.Steps

/-!
# What a refused abort leaves behind

* `abortEndpoint`: `scxml_host_router_abort` with its call of `detach`;
* `halfway`: `detach` would refuse after rows were dropped;
* **`abortEndpoint_refused`**: what a refused abort changes, in every reachable state.
-/

namespace TurboScxml.Router

open Function Slots Machine

variable {cfg : Config} {σ : Type}

/-! ## The whole call -/

variable (r : Router cfg σ) (ref : SessionRef)

/-- `scxml_host_router_abort`. -/
def abortEndpoint : Router cfg σ × Status :=
  match r.abort ref with
  | (r, .ok) => r.detach ref
  | refused => refused

def pinned : Bool :=
  (Fin.find? fun j => (r.rows j).pinned ref).isSome

def waiting : Bool :=
  (Fin.find? fun j => (r.rows j).droppable ref).isSome

def linked : Bool :=
  (Fin.find? fun j => (r.cancelRows j).inUse && refsEqual (r.cancelRows j).source ref).isSome ||
  (Fin.find? fun j => (r.endpoints j).live && refsEqual (r.endpoints j).parent ref).isSome ||
  (Fin.find? fun j => (r.invokeRoutes j).live &&
    (refsEqual (r.invokeRoutes j).owner ref || refsEqual (r.invokeRoutes j).target ref)).isSome

/-- The endpoint has rows to drop but is still linked to. -/
def halfway : Bool :=
  (r.locate ref).any fun i =>
    !(r.endpoints i).active && !r.pinned ref && r.waiting ref && r.linked ref

/-! ## Dropping the rows -/

section Drop

variable {r : Router cfg σ} {p : Row → Bool}

theorem dropRow_eq (h : Accounted r) {i : Fin cfg.eventCapacity} (hi : (r.rows i).state ≠ .free) :
    (r.dropRow i).rows = update r.rows i .free := by
  simp only [dropRow]
  split_ifs
  · rw [releaseLocked_eq (r := { r with timerCancelled := r.timerCancelled + 1 }) h.toRowsCounted
      hi]
    rfl
  · rw [releaseLocked_eq h.toRowsCounted hi]
    rfl

/-- **With the counters right, every chosen row is dropped.** -/
theorem dropRows_free (hp : ∀ row, p row = true → row.state ≠ .free) (h : Accounted r)
    (i : Fin cfg.eventCapacity) :
    (r.dropRows p).1.rows i = if p (r.rows i) = true then .free else r.rows i := by
  have hinv := sweep_induction
    (fun k (s : Router cfg σ × ℕ) => Accounted s.1 ∧
      (∀ j : Fin cfg.eventCapacity, j < k →
        s.1.rows j = if p (r.rows j) = true then .free else r.rows j) ∧
      ∀ j : Fin cfg.eventCapacity, k ≤ j → s.1.rows j = r.rows j)
    (f := fun (s : Router cfg σ × ℕ) i =>
      if p (s.1.rows i) then (s.1.dropRow i, s.2 + 1) else s)
    (s := (r, 0)) ⟨h, fun j hj => absurd hj (Nat.not_lt_zero _), fun _ _ => rfl⟩ ?_
  · exact hinv.2.1 i i.isLt
  intro i s ⟨hacc, hdone, hrest⟩
  have hi := hrest i (Nat.le_refl _)
  split_ifs with hchosen
  · have hused := hp _ hchosen
    refine ⟨dropRow_accounted hacc hused, fun j hj => ?_, fun j hj => ?_⟩
    · dsimp only
      rw [dropRow_eq hacc hused]
      by_cases hji : j = i
      · rw [hji, update_self, ← hi, if_pos hchosen]
      · rw [update_of_ne hji]
        exact hdone j (by omega)
    · dsimp only
      rw [dropRow_eq hacc hused, update_of_ne (by rintro rfl; omega)]
      exact hrest j (by omega)
  · refine ⟨hacc, fun j hj => ?_, fun j hj => hrest j (by omega)⟩
    by_cases hji : j = i
    · rw [hji, hi, if_neg (by rwa [← hi])]
    · exact hdone j (by omega)

theorem dropRows_none (hp : ∀ i, p (r.rows i) = false) : (r.dropRows p).1 = r := by
  refine sweep_induction (fun _ (s : Router cfg σ × ℕ) => s.1 = r) rfl fun i s hs => ?_
  rw [hs, hp i, if_neg (by decide)]
  exact hs

end Drop

/-! ## A refused abort -/

section Refused

variable {r : Router cfg σ} {ref : SessionRef}

theorem find_eq_false {n : ℕ} {q : Fin n → Bool} (h : (Fin.find? q).isSome = false) (i : Fin n) :
    q i = false := by
  by_contra hi
  rw [Bool.not_eq_false] at hi
  have hsome := Fin.isSome_find?_iff.mpr ⟨i, hi⟩
  rw [h] at hsome
  cases hsome

theorem pinned_or_droppable {row : Row} (hused : row.state ≠ .free)
    (href : (refsEqual row.target ref || refsEqual row.source ref) = true) :
    row.pinned ref = true ∨ row.droppable ref = true := by
  unfold Row.pinned Row.droppable
  rw [Bool.or_comm] at href
  rw [href]
  cases hstate : row.state with
  | free => exact absurd hstate hused
  | reserved => exact .inl rfl
  | delayed => exact .inr rfl
  | firing => exact .inl rfl
  | ready => exact .inr rfl
  | inflight => exact .inl rfl

theorem abort_drops (h : Accounted r) (hpinned : r.pinned ref = false) (j : Fin cfg.eventCapacity) :
    (((r.dropRows fun row => row.droppable ref).1.rows j).state != .free &&
      (refsEqual ((r.dropRows fun row => row.droppable ref).1.rows j).target ref ||
        refsEqual ((r.dropRows fun row => row.droppable ref).1.rows j).source ref)) = false := by
  have hfree := dropRows_free (p := fun row => row.droppable ref) (fun row hrow hstate => by
    simp [Row.droppable, hstate] at hrow) h j
  rw [hfree]
  split_ifs with hdrop
  · rfl
  · by_contra hused
    rw [Bool.not_eq_false, Bool.and_eq_true, bne_iff_ne] at hused
    rcases pinned_or_droppable hused.1 hused.2 with hpin | hdrop'
    · rw [find_eq_false hpinned j] at hpin
      cases hpin
    · exact hdrop hdrop'

variable {i : Fin cfg.endpointCapacity}

theorem detach_refused (hlive : r.locate ref = some i)
    (hrefused : (r.detach ref).2 ≠ .ok) : (r.detach ref).1 = r := by
  unfold detach at hrefused ⊢
  rw [hlive] at hrefused ⊢
  split_ifs at hrefused ⊢
  · rfl
  · rfl
  · rfl
  · rfl
  · exact absurd rfl hrefused

theorem detach_accepted (hlive : r.locate ref = some i) (hrows : ∀ j, ((r.rows j).state != .free &&
      (refsEqual (r.rows j).target ref || refsEqual (r.rows j).source ref)) = false)
    (hlinked : r.linked ref = false) : (r.detach ref).2 = .ok := by
  unfold linked at hlinked
  rw [Bool.or_eq_false_iff, Bool.or_eq_false_iff] at hlinked
  obtain ⟨⟨hintents, hchildren⟩, hroutes⟩ := hlinked
  have hnone : (Fin.find? fun j => (r.rows j).state != .free &&
      (refsEqual (r.rows j).target ref || refsEqual (r.rows j).source ref)).isSome = false := by
    rw [← Bool.not_eq_true, Fin.isSome_find?_iff]
    rintro ⟨j, hj⟩
    rw [hrows j] at hj
    cases hj
  unfold detach
  rw [hlive]
  rw [hnone, hintents, hchildren, hroutes]
  rfl

theorem linked_of_aside {r' : Router cfg σ} (h : r'.aside = r.aside) :
    r'.linked ref = r.linked ref := by
  have hendpoints : r'.endpoints = r.endpoints := congrArg (·.1) h
  have hroutes : r'.invokeRoutes = r.invokeRoutes := congrArg (·.2.1) h
  have hintents : r'.cancelRows = r.cancelRows := congrArg (·.2.2.1) h
  rw [linked, linked, hendpoints, hroutes, hintents]

theorem locate_of_aside {r' : Router cfg σ} (h : r'.aside = r.aside) :
    r'.locate ref = r.locate ref := by
  have hendpoints : r'.endpoints = r.endpoints := congrArg (·.1) h
  rw [locate, locate, hendpoints]

/-- **Main.** A refused abort changes nothing but the count of stale references, unless rows were
dropped before `detach` finds the endpoint still linked to. -/
theorem abortEndpoint_refused [DecidableEq σ] (s : System cfg σ) (hs : s.Reachable)
    (ref : SessionRef) (hrefused : (s.router.abortEndpoint ref).2 ≠ .ok) :
    (s.router.locate ref = none → (s.router.abortEndpoint ref).1 = s.router.stale) ∧
      (s.router.locate ref ≠ none → s.router.halfway ref = false →
        (s.router.abortEndpoint ref).1 = s.router) := by
  have hacc := (reachable_sound hs).accounted
  generalize s.router = r at hrefused hacc ⊢
  unfold abortEndpoint abort at hrefused ⊢
  cases hlive : r.locate ref with
  | none => exact ⟨fun _ => rfl, fun hsome => absurd rfl hsome⟩
  | some i =>
    refine ⟨fun hnone => ?_, fun _ hhalfway => ?_⟩
    · cases hnone
    rw [hlive] at hrefused
    dsimp only at hrefused ⊢
    by_cases hactive : (r.endpoints i).active = true
    · rw [if_pos hactive]
    rw [if_neg hactive] at hrefused ⊢
    by_cases hpinned : (Fin.find? fun j => (r.rows j).pinned ref).isSome = true
    · rw [if_pos hpinned]
    rw [if_neg hpinned] at hrefused ⊢
    by_cases hwaiting : r.waiting ref = true
    · have hlinked : r.linked ref = false := by
        simpa [halfway, hlive, hactive, pinned, hpinned, hwaiting] using hhalfway
      have haside := dropRows_aside (fun row => row.droppable ref) r
      refine absurd (detach_accepted ((locate_of_aside haside).trans hlive)
        (abort_drops hacc (Bool.eq_false_iff.mpr hpinned)) ?_) hrefused
      rw [linked_of_aside haside, hlinked]
    · have hnone := dropRows_none (r := r) (p := fun row => row.droppable ref)
        (find_eq_false (Bool.eq_false_iff.mpr hwaiting))
      rw [hnone] at hrefused ⊢
      exact detach_refused hlive hrefused

end Refused

/-! ## A sample -/

theorem row_lt : 0 < smallConfig.eventCapacity := by
  decide

def linkedRun : List (Action smallConfig Unit) :=
  [.reserve, .reserve, .prepare ⟨0, 1⟩ ['e'] none, .commit 0 ⟨0, .absent, .send ⟨0, row_lt⟩ 1⟩,
    .setParent ⟨1, 1⟩ ⟨0, 1⟩]

theorem linkedRun_isSome :
    (exec System.step (System.init smallConfig Unit) linkedRun).isSome = true := by
  decide

def linkedState : System smallConfig Unit :=
  (exec System.step (System.init smallConfig Unit) linkedRun).get linkedRun_isSome

theorem linkedState_reachable : linkedState.Reachable :=
  Reachable.runs (.of_init ⟨by decide, rfl⟩)
    (exec_runs (Option.some_get linkedRun_isSome).symm)

theorem abortEndpoint_not_atomic : linkedState.Reachable ∧
    ((linkedState.router.abortEndpoint ⟨0, 2⟩).2 = .enoent ∧
      (linkedState.router.abortEndpoint ⟨0, 2⟩).1 ≠ linkedState.router) ∧
    ((linkedState.router.abortEndpoint ⟨0, 1⟩).2 = .ebusy ∧
      (linkedState.router.abortEndpoint ⟨0, 1⟩).1 ≠ linkedState.router) := by
  refine ⟨linkedState_reachable, ⟨by decide, fun h => ?_⟩, ⟨by decide, fun h => ?_⟩⟩
  · exact absurd (congrArg Router.staleRefs h) (by decide)
  · exact absurd (congrArg Router.cancelled h) (by decide)

def childRun : List (Action smallConfig Unit) :=
  [.reserve, .reserve, .setParent ⟨1, 1⟩ ⟨0, 1⟩]

theorem childRun_isSome :
    (exec System.step (System.init smallConfig Unit) childRun).isSome = true := by
  decide

def childState : System smallConfig Unit :=
  (exec System.step (System.init smallConfig Unit) childRun).get childRun_isSome

theorem childState_reachable : childState.Reachable :=
  Reachable.runs (.of_init ⟨by decide, rfl⟩)
    (exec_runs (Option.some_get childRun_isSome).symm)

theorem abortEndpoint_refused_linked :
    (linkedState.router.abortEndpoint ⟨0, 2⟩).1 = linkedState.router.stale ∧
      (childState.router.abortEndpoint ⟨0, 1⟩).1 = childState.router :=
  ⟨(abortEndpoint_refused linkedState linkedState_reachable ⟨0, 2⟩ (by decide)).1 (by decide),
    (abortEndpoint_refused childState childState_reachable ⟨0, 1⟩ (by decide)).2 (by decide)
      (by decide)⟩

end TurboScxml.Router
