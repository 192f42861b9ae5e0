import Mathlib.Data.List.Iterate
import TurboScxml.Voice.DialogRollback

/-!
# The rotation of the dialog rows

`run_ready` goes on where the last call has stopped, so that a small budget or a failing row does
not keep it from the rows behind.

* `visits`, `trail`: the rows that a call, and the calls of a run, come to;
* **`runRows_rotation`**: which rows these are, and why the call ends;
* **`trail_fair`**: among as many calls as there are rows, one comes to each row.
-/

namespace TurboScxml.Voice.Dialog.Manager

variable {σ Pg Ss : Type} {n : ℕ} (cfg : Config) (host : Host σ Pg Ss)

/-! ## One call -/

/-- The rows that the loop comes to, each with the manager in which it is looked at. -/
def visits (maxWork : ℕ) :
    ℕ → ℕ → Manager σ Pg Ss n → List (Fin n × Manager σ Pg Ss n)
  | 0, _, _ => []
  | rows + 1, processed, m =>
    if maxWork ≤ processed then []
    else
      let i := m.nextProgressSlot
      let m := { m with nextProgressSlot := nextSlot i }
      (i, m) ::
        if eligible cfg (m.slots i).row.state = false then visits maxWork rows processed m
        else
          match progressSlot cfg host m i with
          | (m, .ok) => visits maxWork rows (processed + 1) m
          | _ => []

def worksOn (visit : Fin n × Manager σ Pg Ss n) : Bool :=
  eligible cfg (visit.2.slots visit.1).row.state

theorem progressSlot_pace (m : Manager σ Pg Ss n) (i : Fin n) :
    (progressSlot cfg host m i).1.nextProgressSlot = m.nextProgressSlot ∧
      (progressSlot cfg host m i).1.closed = m.closed := ⟨rfl, rfl⟩

/-- What a call leaves when it has come to the rows of `visits`. -/
structure Rotated (maxWork rows processed : ℕ) (m : Manager σ Pg Ss n)
    (visits : List (Fin n × Manager σ Pg Ss n)) (result : Manager σ Pg Ss n × ℕ × Status) :
    Prop where
  ring : visits.map Prod.fst = List.iterate nextSlot m.nextProgressSlot visits.length
  cursor : result.1.nextProgressSlot = nextSlot^[visits.length] m.nextProgressSlot
  closed : result.1.closed = m.closed
  worked : result.2.1 = processed + (visits.filter (worksOn cfg)).length
  bound : visits.length ≤ rows
  ends : visits.length = rows ∨ maxWork ≤ result.2.1 ∨ result.2.2 ≠ .ok

variable {cfg} in
theorem Rotated.next {maxWork rows processed processed' : ℕ} {m m' m'' : Manager σ Pg Ss n}
    {visits : List (Fin n × Manager σ Pg Ss n)} {result : Manager σ Pg Ss n × ℕ × Status}
    (h : Rotated cfg maxWork rows processed' m' visits result)
    (hcursor : m'.nextProgressSlot = nextSlot m.nextProgressSlot) (hclosed : m'.closed = m.closed)
    (hworked : processed' = processed +
      if worksOn cfg (m.nextProgressSlot, m'') then 1 else 0) :
    Rotated cfg maxWork (rows + 1) processed m ((m.nextProgressSlot, m'') :: visits) result where
  ring := by rw [List.map_cons, h.ring, hcursor, List.length_cons, List.iterate]
  cursor := by rw [h.cursor, hcursor, List.length_cons, Function.iterate_succ_apply]
  closed := h.closed.trans hclosed
  worked := by
    rw [h.worked, hworked, List.filter_cons]
    split
    · rw [List.length_cons]
      omega
    · omega
  bound := Nat.succ_le_succ h.bound
  ends := h.ends.imp_left (congrArg Nat.succ)

/-- **One call** goes through the rows in turn, from the cursor on. It works on those that are
ready, and stops behind all rows, when its budget is spent or at a row that fails. -/
theorem runRows_rotation (maxWork rows processed : ℕ) (m : Manager σ Pg Ss n) :
    Rotated cfg maxWork rows processed m (visits cfg host maxWork rows processed m)
      (runRows cfg host maxWork rows processed m) := by
  induction rows generalizing processed m with
  | zero => exact ⟨rfl, rfl, rfl, rfl, le_rfl, .inl rfl⟩
  | succ rows ih =>
    rw [visits, runRows]
    by_cases hspent : maxWork ≤ processed
    · rw [if_pos hspent, if_pos hspent]
      exact ⟨rfl, rfl, rfl, rfl, Nat.zero_le _, .inr (.inl hspent)⟩
    rw [if_neg hspent, if_neg hspent]
    dsimp only
    by_cases hready : eligible cfg (m.slots m.nextProgressSlot).row.state = false
    · rw [if_pos hready, if_pos hready]
      exact (ih processed _).next rfl rfl (by simp [worksOn, hready])
    rw [if_neg hready, if_neg hready]
    have hworks : eligible cfg (m.slots m.nextProgressSlot).row.state = true :=
      Bool.eq_true_of_not_eq_false hready
    obtain ⟨hcursor, hclosed⟩ := progressSlot_pace cfg host
      { m with nextProgressSlot := nextSlot m.nextProgressSlot } m.nextProgressSlot
    generalize progressSlot cfg host { m with nextProgressSlot := nextSlot m.nextProgressSlot }
      m.nextProgressSlot = result at hcursor hclosed ⊢
    obtain ⟨m', status⟩ := result
    by_cases hok : status = .ok
    · subst hok
      exact (ih (processed + 1) m').next hcursor hclosed (by simp [worksOn, hworks])
    · have hstop : Rotated cfg maxWork rows (processed + 1) m' [] (m', processed + 1, status) :=
        ⟨rfl, rfl, rfl, rfl, Nat.zero_le _, .inr (.inr hok)⟩
      have hdone : Rotated cfg maxWork (rows + 1) processed m
          [(m.nextProgressSlot, { m with nextProgressSlot := nextSlot m.nextProgressSlot })]
          (m', processed + 1, status) :=
        hstop.next hcursor hclosed (by simp [worksOn, hworks])
      cases status with
      | ok => exact absurd rfl hok
      | _ => exact hdone

/-! ## Calls in a run -/

/-- A call of `run_ready` with a budget. -/
def works : Action n → Bool
  | .runReady maxWork => maxWork != 0
  | _ => false

def callVisits (m : Manager σ Pg Ss n) : Action n → List (Fin n × Manager σ Pg Ss n)
  | .runReady maxWork =>
    if maxWork = 0 ∨ m.closed = true then [] else visits cfg host maxWork n 0 m
  | _ => []

/-- The rows that the calls of `run_ready` come to. -/
def trail : Manager σ Pg Ss n → List (Action n) → List (Fin n × Manager σ Pg Ss n)
  | _, [] => []
  | m, a :: as => callVisits cfg host m a ++ trail (m.call cfg host a).1 as

variable {m : Manager σ Pg Ss n} {a : Action n}

/-- Other operations leave the cursor alone. -/
theorem call_pace (hcall : works a = false) (hopen : a ≠ .close) :
    (m.call cfg host a).1.nextProgressSlot = m.nextProgressSlot ∧
      (m.call cfg host a).1.closed = m.closed := by
  have hnew (kind : TicketKind) (request : StartRequest) :
      (m.prepareNewDialog cfg kind request).1.nextProgressSlot = m.nextProgressSlot ∧
        (m.prepareNewDialog cfg kind request).1.closed = m.closed := by
    unfold prepareNewDialog
    split_ifs
    · exact ⟨rfl, rfl⟩
    · exact ⟨rfl, rfl⟩
    split
    · exact ⟨rfl, rfl⟩
    · dsimp only
      split_ifs <;> exact ⟨rfl, rfl⟩
  cases a with
  | dialogPrepare source mediaType => exact hnew _ _
  | dialogStart request => exact hnew _ _
  | preparedDialogStart request =>
    dsimp only [call, answered, preparedDialogStart]
    split_ifs
    · exact ⟨rfl, rfl⟩
    split
    · exact ⟨rfl, rfl⟩
    · split_ifs <;> exact ⟨rfl, rfl⟩
  | dialogTerminate request =>
    dsimp only [call, answered, dialogTerminate]
    split_ifs
    · exact ⟨rfl, rfl⟩
    · exact ⟨rfl, rfl⟩
    split
    · exact ⟨rfl, rfl⟩
    · split_ifs <;> exact ⟨rfl, rfl⟩
  | commit i =>
    dsimp only [call, commit]
    split_ifs
    · exact ⟨rfl, rfl⟩
    split
    · split_ifs <;> exact ⟨rfl, rfl⟩
    · exact ⟨rfl, rfl⟩
  | discard i =>
    dsimp only [call, discard]
    split_ifs
    · exact ⟨rfl, rfl⟩
    split <;> exact ⟨rfl, rfl⟩
  | runReady maxWork =>
    obtain rfl : maxWork = 0 := by simpa [works] using hcall
    exact ⟨rfl, rfl⟩
  | close => exact absurd rfl hopen

theorem iterate_nextSlot (k : ℕ) (i : Fin n) : (nextSlot^[k] i).1 = (i.1 + k) % n := by
  induction k with
  | zero => exact (Nat.mod_eq_of_lt i.2).symm
  | succ k ih =>
    rw [Function.iterate_succ_apply', nextSlot]
    split
    next h =>
      dsimp only
      rw [ih] at h ⊢
      rw [← Nat.add_assoc, ← Nat.mod_add_mod (i.1 + k), Nat.mod_eq_of_lt h]
    next h =>
      rw [ih] at h
      have hlast : (i.1 + k) % n + 1 = n := by
        have hlt := Nat.mod_lt (i.1 + k) i.pos
        omega
      dsimp only
      rw [← Nat.add_assoc, ← Nat.mod_add_mod (i.1 + k), hlast, Nat.mod_self]

theorem exists_iterate_nextSlot (i j : Fin n) : ∃ k < n, nextSlot^[k] i = j := by
  refine ⟨(j.1 + (n - i.1)) % n, Nat.mod_lt _ i.pos, Fin.ext ?_⟩
  rw [iterate_nextSlot, Nat.add_mod_mod, show i.1 + (j.1 + (n - i.1)) = j.1 + n by omega,
    Nat.add_mod_right, Nat.mod_eq_of_lt j.2]

theorem visits_ne_nil {maxWork rows processed : ℕ} (hrows : 0 < rows)
    (hleft : processed < maxWork) : visits cfg host maxWork rows processed m ≠ [] := by
  cases rows with
  | zero => cases hrows
  | succ rows =>
    rw [visits, if_neg (Nat.not_le_of_lt hleft)]
    exact List.cons_ne_nil _ _

/-- A row that is `k` behind the cursor is come to in `k + 1` calls. -/
theorem trail_reaches (i : Fin n) {k : ℕ} {as : List (Action n)} (hopen : m.closed = false)
    (hopened : .close ∉ as) (hcalls : k < (as.filter works).length)
    (hahead : nextSlot^[k] m.nextProgressSlot = i) : ∃ m', (i, m') ∈ trail cfg host m as := by
  induction as generalizing m k with
  | nil => simp at hcalls
  | cons a as ih =>
    rw [List.mem_cons, not_or] at hopened
    rw [trail]
    by_cases hworks : works a = true
    · cases a with
      | runReady maxWork =>
        have hwork : maxWork ≠ 0 := by simpa [works] using hworks
        have hrotated := runRows_rotation cfg host maxWork n 0 m
        have hskip : ¬(maxWork = 0 ∨ m.closed = true) := by simp [hwork, hopen]
        have hrun : (m.call cfg host (.runReady maxWork)).1 =
            (runRows cfg host maxWork n 0 m).1 := by
          simp [call, runReady, hwork, hopen]
        have hsome := visits_ne_nil cfg host (m := m) i.pos (Nat.pos_of_ne_zero hwork)
        rw [hrun, callVisits, if_neg hskip]
        generalize visits cfg host maxWork n 0 m = l at hrotated hsome ⊢
        generalize runRows cfg host maxWork n 0 m = result at hrotated ⊢
        obtain ⟨hring, hcursor, hclosed, -, -, -⟩ := hrotated
        by_cases hk : k < l.length
        · have hmem : i ∈ l.map Prod.fst := by
            rw [hring, List.mem_iterate]
            exact ⟨k, hk, hahead.symm⟩
          obtain ⟨⟨i', m'⟩, hvisit, rfl⟩ := List.mem_map.mp hmem
          exact ⟨m', List.mem_append_left _ hvisit⟩
        · have hpos := List.length_pos_iff.mpr hsome
          have hnext : nextSlot^[k - l.length] result.1.nextProgressSlot = i := by
            rw [hcursor, ← Function.iterate_add_apply, Nat.sub_add_cancel (Nat.le_of_not_lt hk),
              hahead]
          rw [List.filter_cons, if_pos hworks, List.length_cons] at hcalls
          obtain ⟨m', hvisit⟩ := ih (hclosed.trans hopen) hopened.2 (by omega) hnext
          exact ⟨m', List.mem_append_right _ hvisit⟩
      | _ => cases hworks
    · have hidle := Bool.eq_false_of_not_eq_true hworks
      obtain ⟨hcursor, hclosed⟩ := call_pace cfg host (m := m) hidle (Ne.symm hopened.1)
      rw [List.filter_cons, if_neg hworks] at hcalls
      obtain ⟨m', hvisit⟩ := ih (hclosed.trans hopen) hopened.2 hcalls (hcursor ▸ hahead)
      exact ⟨m', List.mem_append_right _ hvisit⟩

/-- **Main.** In every run of an open manager, as many calls of `run_ready` with a budget as there
are rows come to each row, whatever rows fail and whatever else is called in between. -/
theorem trail_fair (hopen : m.closed = false) {as : List (Action n)} (hopened : .close ∉ as)
    (hcalls : n ≤ (as.filter works).length) (i : Fin n) : ∃ m', (i, m') ∈ trail cfg host m as := by
  obtain ⟨k, hk, hahead⟩ := exists_iterate_nextSlot m.nextProgressSlot i
  exact trail_reaches cfg host i hopen hopened (hk.trans_le hcalls) hahead

/-- An upstream queue for one event. -/
def oneEventHost : Host (List DialogEvent) Unit Unit :=
  { recordingHost with
    publish := fun events event =>
      if events = [] then ([event], .accepted) else (events, .full) }

def threeRows : Manager (List DialogEvent) Unit Unit 3 where
  slots := fun _ => .cleared Unit Unit 0
  host := []
  nextProgressSlot := 0
  closed := false
  acceptedOperations := 0
  discardedOperations := 0
  rejectedFull := 0
  staleOperations := 0

/-- Three dialogs are set up, one at a time, between calls of `run_ready` for one row each. -/
def setUp : List (Action 3) :=
  [.dialogPrepare ['a'] responseType, .commit 0, .dialogPrepare ['b'] responseType, .commit 1,
    .runReady 1, .dialogStart ⟨['c'], responseType, []⟩, .commit 2]

def restarted : List (Action 3) :=
  [.runReady 1, .dialogTerminate ⟨"vxml-1-1".toList, false⟩, .discard 0, .runReady 1]

/-- The second row fails, and each row is come to. -/
theorem trail_fair_sample :
    ((setUp.foldl (fun m a => (m.call recordedConfig oneEventHost a).1) threeRows).call
        recordedConfig oneEventHost (.runReady 1)).2 = .work 1 .eventFull ∧
      (∃ m', (0, m') ∈ trail recordedConfig oneEventHost threeRows (setUp ++ restarted)) ∧
      (∃ m', (1, m') ∈ trail recordedConfig oneEventHost threeRows (setUp ++ restarted)) ∧
      ∃ m', (2, m') ∈ trail recordedConfig oneEventHost threeRows (setUp ++ restarted) := by
  have hfair (i : Fin 3) :
      ∃ m', (i, m') ∈ trail recordedConfig oneEventHost threeRows (setUp ++ restarted) :=
    trail_fair recordedConfig oneEventHost rfl (by simp [setUp, restarted]) (by decide) i
  refine ⟨?_, hfair 0, hfair 1, hfair 2⟩
  rfl

end TurboScxml.Voice.Dialog.Manager
