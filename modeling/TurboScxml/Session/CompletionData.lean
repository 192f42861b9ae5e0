import TurboScxml.Session.Completion

/-!
# The slots of the waiting completions

* `Sound`: the filled slots of the named states are those of the completions that wait;
* **`regularly_faithful`**: then each completion carries the data of its own entry;
* `takenState_not_faithful`: a completion without data that takes the slot of a later one.
-/

namespace TurboScxml.Session

namespace Completion

open Function

variable {Env Object : Type} {n : ℕ} {P : Program}

/-! ## The operations on the slots -/

namespace Store

variable {s s' : Store n Object} {i j : Fin n} {parent : ℕ}

theorem reserve_eq_some (h : s.reserve parent = some (i, s')) :
    (s.slots i).state = .free ∧ s'.nextSequence = s.nextSequence + 1 ∧ s'.current = s.current ∧
      s'.slots = update s.slots i
        { s.slots i with state := .building, parent, sequence := s.nextSequence } := by
  unfold reserve at h
  split at h
  · cases h
  · obtain ⟨k, hk, hpair⟩ := Option.map_eq_some_iff.mp h
    cases hpair
    exact ⟨by simpa using (Fin.find?_eq_some_iff.mp hk).1, rfl, rfl, rfl⟩

theorem publish_slots (h : s.reserve parent = some (i, s')) (data : EventData Object) :
    (s'.publish i data).slots = update s.slots i ⟨.ready, parent, s.nextSequence, data⟩ := by
  obtain ⟨-, -, -, hslots⟩ := reserve_eq_some h
  simp [publish, hslots]

theorem waits_iff : s.waits parent i = true ↔
    (s.slots i).state = .ready ∧ (s.slots i).parent = parent := by
  simp [waits]

theorem oldest_waits (h : s.oldest parent = some i) : s.waits parent i = true :=
  Slots.bestSlot_eligible h

/-- **The oldest slot.** -/
theorem oldest_le (h : s.oldest parent = some i) (hj : s.waits parent j = true) :
    (s.slots i).sequence ≤ (s.slots j).sequence := by
  have hbest := Slots.bestSlot_best (by simp)
    (fun a b c hab hbc => by simp only [decide_eq_true_eq] at *; omega) h j hj
  simpa using hbest

theorem oldest_eq_none (h : s.oldest parent = none) : s.waits parent i = false :=
  Slots.bestSlot_eq_none h i

theorem oldest_of_none_waits (h : ∀ i, s.waits parent i = false) : s.oldest parent = none := by
  cases holdest : s.oldest parent with
  | none => rfl
  | some i =>
    have hi := oldest_waits holdest
    rw [h i] at hi
    cases hi

@[simp] theorem clear_nextSequence : s.clear.nextSequence = s.nextSequence := by
  unfold clear
  split <;> rfl

@[simp] theorem clear_current : s.clear.current = none := by
  unfold clear
  split
  · rfl
  · assumption

@[simp] theorem clear_eventData : s.clear.eventData = .empty := by
  unfold clear
  split <;> rfl

variable (h : ∀ i, s.current = some i → (s.slots i).state = .bound)
include h

theorem clear_slots (i : Fin n) : s.clear.slots i = s.slots i ∨
      (s.slots i).state = .bound ∧ (s.clear.slots i).state = .free := by
  unfold clear
  split
  · rename_i k hk
    by_cases hik : i = k
    · subst hik
      exact .inr ⟨h i hk, by simp [release, Slot.released]⟩
    · exact .inl (by simp [release, hik])
  · exact .inl rfl

theorem clear_ready : (s.clear.slots i).state = .ready ↔ (s.slots i).state = .ready := by
  obtain hsame | ⟨hbound, hfree⟩ := clear_slots h i
  · rw [hsame]
  · simp [hbound, hfree]

theorem clear_slots_of_ready (hi : (s.slots i).state = .ready) : s.clear.slots i = s.slots i := by
  obtain hsame | ⟨hbound, -⟩ := clear_slots h i
  · exact hsame
  · rw [hi] at hbound
    cases hbound

theorem clear_waits (parent : ℕ) (i : Fin n) : s.clear.waits parent i = s.waits parent i := by
  obtain hsame | ⟨hbound, hfree⟩ := clear_slots h i
  · simp [waits, hsame]
  · simp only [waits, hbound, hfree]
    rfl

omit h

end Store

/-! ## The invariant -/

/-- The filled slots are those of the waiting completions. -/
structure Sound (P : Program) (s : System n Object) : Prop where
  /-- The slot that the current event reads is bound. -/
  current : ∀ i, s.store.current = some i → (s.store.slots i).state = .bound
  numbered : ∀ i, (s.store.slots i).state = .ready →
    (s.store.slots i).sequence < s.store.nextSequence
  distinct : ∀ i j, (s.store.slots i).state = .ready → (s.store.slots j).state = .ready →
    (s.store.slots i).sequence = (s.store.slots j).sequence → i = j
  ordered : s.completions.Pairwise fun e f => e.doneData.isSome → e.sequence < f.sequence
  queued : ∀ e ∈ s.completions, e.sequence ≤ s.store.nextSequence ∧
    (e.doneData.isSome → e.sequence < s.store.nextSequence)
  slot : ∀ e ∈ s.completions, ∀ data, e.doneData = some data →
    ∃ i, s.store.slots i = ⟨.ready, e.parent, e.sequence, data⟩
  owner : ∀ i, (s.store.slots i).state = .ready →
    (P.stateName (s.store.slots i).parent).isSome →
    ∃ e ∈ s.completions, e.parent = (s.store.slots i).parent ∧
      e.sequence = (s.store.slots i).sequence ∧ e.doneData = some (s.store.slots i).data

theorem init_sound : Sound P (System.init : System n Object) where
  current _ h := by cases h
  numbered _ h := by cases h
  distinct _ _ h := by cases h
  ordered := .nil
  queued _ h := by cases h
  slot _ h := by cases h
  owner _ h := by cases h

variable {entry : Entry Object} {rest : List (Entry Object)}

namespace Sound

variable {s : System n Object}

theorem queuePlain (h : Sound P s) (parent : ℕ) : Sound P (s.queue s.store parent none) where
  current := h.current
  numbered := h.numbered
  distinct := h.distinct
  ordered := by
    refine List.pairwise_append.mpr ⟨h.ordered, by simp, fun e he f hf => ?_⟩
    obtain rfl := List.mem_singleton.mp hf
    exact (h.queued e he).2
  queued e he := by
    rcases List.mem_append.mp he with he | he
    · exact h.queued e he
    · obtain rfl := List.mem_singleton.mp he
      exact ⟨le_rfl, by simp⟩
  slot e he data hdata := by
    rcases List.mem_append.mp he with he | he
    · exact h.slot e he data hdata
    · obtain rfl := List.mem_singleton.mp he
      cases hdata
  owner i hi hname := by
    obtain ⟨e, he, howner⟩ := h.owner i hi hname
    exact ⟨e, List.mem_append_left _ he, howner⟩

theorem queuePublished (h : Sound P s) {parent : ℕ} {i : Fin n} {store : Store n Object}
    (hreserve : s.store.reserve parent = some (i, store)) (data : EventData Object) :
    Sound P (s.queue (store.publish i data) parent (some data)) := by
  obtain ⟨hfree, hnext, hcurrent, -⟩ := Store.reserve_eq_some hreserve
  have hslots := Store.publish_slots hreserve data
  have hold : ∀ j, (s.store.slots j).state ≠ .free →
      (store.publish i data).slots j = s.store.slots j := by
    intro j hj
    rw [hslots, update_of_ne]
    rintro rfl
    exact hj hfree
  have hnew : (store.publish i data).slots i = ⟨.ready, parent, s.store.nextSequence, data⟩ := by
    rw [hslots, update_self]
  have hother : ∀ j, j ≠ i → (store.publish i data).slots j = s.store.slots j := by
    intro j hj
    rw [hslots, update_of_ne hj]
  have hpnext : (store.publish i data).nextSequence = s.store.nextSequence + 1 := hnext
  refine ⟨?_, ?_, ?_, ?_, ?_, ?_, ?_⟩
  · intro j hj
    have hbound := h.current j (hcurrent ▸ hj)
    change ((store.publish i data).slots j).state = .bound
    rw [hold j (by simp [hbound]), hbound]
  · intro j hj
    change ((store.publish i data).slots j).sequence < (store.publish i data).nextSequence
    change ((store.publish i data).slots j).state = .ready at hj
    rw [hpnext]
    by_cases hji : j = i
    · rw [hji, hnew]
      exact Nat.lt_succ_self _
    · rw [hother j hji] at hj ⊢
      exact Nat.lt_succ_of_lt (h.numbered j hj)
  · intro j k hj hk hsame
    change ((store.publish i data).slots j).state = .ready at hj
    change ((store.publish i data).slots k).state = .ready at hk
    change ((store.publish i data).slots j).sequence = ((store.publish i data).slots k).sequence
      at hsame
    by_cases hji : j = i <;> by_cases hki : k = i
    · rw [hji, hki]
    · rw [hji, hnew, hother k hki] at hsame
      rw [hother k hki] at hk
      have hlt := h.numbered k hk
      exact absurd hsame (Nat.ne_of_gt hlt)
    · rw [hki, hnew, hother j hji] at hsame
      rw [hother j hji] at hj
      have hlt := h.numbered j hj
      exact absurd hsame (Nat.ne_of_lt hlt)
    · rw [hother j hji] at hj hsame
      rw [hother k hki] at hk hsame
      exact h.distinct j k hj hk hsame
  · refine List.pairwise_append.mpr ⟨h.ordered, by simp, fun e he f hf => ?_⟩
    obtain rfl := List.mem_singleton.mp hf
    exact (h.queued e he).2
  · intro e he
    change e.sequence ≤ (store.publish i data).nextSequence ∧
      (e.doneData.isSome → e.sequence < (store.publish i data).nextSequence)
    rw [hpnext]
    rcases List.mem_append.mp he with he | he
    · have hle := (h.queued e he).1
      exact ⟨by omega, fun _ => by omega⟩
    · obtain rfl := List.mem_singleton.mp he
      exact ⟨Nat.le_succ _, fun _ => Nat.lt_succ_self _⟩
  · intro e he data' hdata
    rcases List.mem_append.mp he with he | he
    · obtain ⟨j, hj⟩ := h.slot e he data' hdata
      exact ⟨j, (hold j (by simp [hj])).trans hj⟩
    · obtain rfl := List.mem_singleton.mp he
      cases hdata
      exact ⟨i, hnew⟩
  · intro j hj hname
    change ((store.publish i data).slots j).state = .ready at hj
    change (P.stateName ((store.publish i data).slots j).parent).isSome at hname
    by_cases hji : j = i
    · refine ⟨⟨parent, some data, s.store.nextSequence⟩, by simp [System.queue], ?_⟩
      change _ = ((store.publish i data).slots j).parent ∧
        _ = ((store.publish i data).slots j).sequence ∧
        _ = some ((store.publish i data).slots j).data
      rw [hji, hnew]
      exact ⟨rfl, rfl, rfl⟩
    · rw [hother j hji] at hj hname
      obtain ⟨e, he, howner⟩ := h.owner j hj hname
      refine ⟨e, List.mem_append_left _ he, ?_⟩
      change _ = ((store.publish i data).slots j).parent ∧
        _ = ((store.publish i data).slots j).sequence ∧
        _ = some ((store.publish i data).slots j).data
      rw [hother j hji]
      exact howner

theorem clear (h : Sound P s) : Sound P { s with store := s.store.clear } := by
  have hready := fun i => Store.clear_ready (i := i) h.current
  have hsame := fun i => Store.clear_slots_of_ready (i := i) h.current
  refine ⟨?_, ?_, ?_, h.ordered, ?_, ?_, ?_⟩
  · intro i hi
    simp at hi
  · intro i hi
    have hi' := (hready i).mp hi
    simpa [hsame i hi'] using h.numbered i hi'
  · intro i j hi hj hsequence
    have hi' := (hready i).mp hi
    have hj' := (hready j).mp hj
    exact h.distinct i j hi' hj' (by simpa [hsame i hi', hsame j hj'] using hsequence)
  · simpa using h.queued
  · intro e he data hdata
    obtain ⟨i, hi⟩ := h.slot e he data hdata
    exact ⟨i, (hsame i (by simp [hi])).trans hi⟩
  · intro i hi hname
    have hi' := (hready i).mp hi
    simp only [hsame i hi'] at hname ⊢
    exact h.owner i hi' hname

theorem tail (h : Sound P s) (hqueue : s.completions = entry :: rest)
    (hnone : ∀ i, (s.store.slots i).state = .ready →
      (P.stateName (s.store.slots i).parent).isSome → (s.store.slots i).parent ≠ entry.parent)
    (observed : List (Observation Object)) :
    Sound P { s with completions := rest, observed } where
  current := h.current
  numbered := h.numbered
  distinct := h.distinct
  ordered := (List.pairwise_cons.mp (hqueue ▸ h.ordered)).2
  queued e he := h.queued e (hqueue ▸ List.mem_cons_of_mem _ he)
  slot e he := h.slot e (hqueue ▸ List.mem_cons_of_mem _ he)
  owner i hi hname := by
    obtain ⟨e, he, hparent, howner⟩ := h.owner i hi hname
    rw [hqueue] at he
    rcases List.mem_cons.mp he with rfl | he
    · exact absurd hparent.symm (hnone i hi hname)
    · exact ⟨e, he, hparent, howner⟩

variable {data : EventData Object}

/-- **The slot of the first completion** is the oldest of its parent. -/
theorem oldest (h : Sound P s) (hqueue : s.completions = entry :: rest)
    (hdata : entry.doneData = some data) (hname : (P.stateName entry.parent).isSome) :
    ∃ i, s.store.oldest entry.parent = some i ∧
      s.store.slots i = ⟨.ready, entry.parent, entry.sequence, data⟩ := by
  obtain ⟨j, hj⟩ := h.slot entry (hqueue ▸ List.mem_cons_self) data hdata
  have hjwaits : s.store.waits entry.parent j = true :=
    Store.waits_iff.mpr ⟨by simp [hj], by simp [hj]⟩
  cases holdest : s.store.oldest entry.parent with
  | none =>
    rw [Store.oldest_eq_none holdest] at hjwaits
    cases hjwaits
  | some i =>
    refine ⟨i, rfl, ?_⟩
    obtain ⟨hiready, hiparent⟩ := Store.waits_iff.mp (Store.oldest_waits holdest)
    have hle := Store.oldest_le holdest hjwaits
    simp only [hj] at hle
    -- the owner of the oldest slot is not behind the first completion
    obtain ⟨e, he, -, hsequence, -⟩ := h.owner i hiready (by rwa [hiparent])
    rw [hqueue] at he
    have hge : entry.sequence ≤ (s.store.slots i).sequence := by
      rcases List.mem_cons.mp he with rfl | he
      · exact le_of_eq hsequence
      · have hordered := h.ordered
        rw [hqueue] at hordered
        have hlt := (List.pairwise_cons.mp hordered).1 e he (by simp [hdata])
        omega
    have hij : i = j := h.distinct i j hiready (by simp [hj]) (by simp only [hj]; omega)
    rw [hij, hj]

theorem bind (h : Sound P s) (hqueue : s.completions = entry :: rest)
    (hdata : entry.doneData = some data) (eventData : EventData Object) {i : Fin n}
    (hi : s.store.slots i = ⟨.ready, entry.parent, entry.sequence, data⟩)
    (observed : List (Observation Object)) :
    Sound P { s with
      store := { s.store with
        slots := update s.store.slots i { s.store.slots i with state := .bound }
        current := some i
        eventData }
      completions := rest
      observed } := by
  have hother : ∀ j, (update s.store.slots i { s.store.slots i with state := .bound } j).state
      = .ready → j ≠ i := by
    rintro j hj rfl
    simp at hj
  have hordered := h.ordered
  rw [hqueue] at hordered
  have htail := List.pairwise_cons.mp hordered
  refine ⟨?_, ?_, ?_, htail.2, ?_, ?_, ?_⟩
  · intro j hj
    cases hj
    simp
  · intro j hj
    have hne := hother j hj
    simp only [update_of_ne hne] at hj ⊢
    exact h.numbered j hj
  · intro j k hj hk hsame
    have hjne := hother j hj
    have hkne := hother k hk
    simp only [update_of_ne hjne, update_of_ne hkne] at hj hk hsame
    exact h.distinct j k hj hk hsame
  · exact fun e he => h.queued e (hqueue ▸ List.mem_cons_of_mem _ he)
  · intro e he data' hdata'
    obtain ⟨j, hj⟩ := h.slot e (hqueue ▸ List.mem_cons_of_mem _ he) data' hdata'
    have hlt := htail.1 e he (by simp [hdata])
    refine ⟨j, ?_⟩
    change update s.store.slots i _ j = _
    rw [update_of_ne, hj]
    rintro rfl
    have hsame := congrArg Slot.sequence (hi.symm.trans hj)
    simp only at hsame
    omega
  · intro j hj hname
    have hne := hother j hj
    simp only [update_of_ne hne] at hj hname ⊢
    obtain ⟨e, he, hparent, hsequence, howner⟩ := h.owner j hj hname
    rw [hqueue] at he
    rcases List.mem_cons.mp he with rfl | he
    · exact absurd (h.distinct j i hj (by simp [hi]) (by simp [hi, hsequence])) hne
    · exact ⟨e, he, hparent, hsequence, howner⟩

end Sound

/-! ## Runs -/

/-- What holds while no failure occurred. -/
structure Kept (P : Program) (s : System n Object) : Prop where
  faithful : s.Faithful P
  sound : s.failed = false → Sound P s

variable {s : System n Object}

theorem faithful_append (h : s.Faithful P) {o : Observation Object}
    {name : Text} (hname : P.stateName o.entry.parent = some name) (ho : o.name = doneState ++ name)
    (hdata : o.data = o.entry.doneData.getD .empty) {t : System n Object}
    (ht : t.observed = s.observed ++ [o]) : t.Faithful P := by
  intro o' ho'
  rw [ht] at ho'
  rcases List.mem_append.mp ho' with ho' | ho'
  · exact h o' ho'
  · obtain rfl := List.mem_singleton.mp ho'
    exact ⟨⟨name, hname, ho⟩, hdata⟩

theorem Kept.observe (hfaithful : s.Faithful P) (h : Sound P s)
    (hqueue : s.completions = entry :: rest)
    (hregular : entry.doneData.isSome ∨ P.stateName entry.parent = none ∨
      ∀ i, s.store.waits entry.parent i = false) :
    Kept P (s.observeCompletion P entry rest) := by
  have hclear := h.clear
  unfold System.observeCompletion
  split
  · rename_i hname
    refine ⟨hfaithful, fun _ => hclear.tail hqueue (fun i _ hi hparent => ?_) _⟩
    rw [hparent, hname] at hi
    cases hi
  rename_i name hname
  split
  · exact ⟨hfaithful, fun hfailed => by cases hfailed⟩
  cases hdata : entry.doneData with
  | some data =>
    obtain ⟨i, holdest, hi⟩ := hclear.oldest hqueue hdata (by simp [hname])
    have hsame : (s.store.clear.slots i).data = data := by rw [hi]
    have hbound := fun observed =>
      hclear.bind hqueue hdata (s.store.clear.slots i).data hi observed
    unfold Store.bindCompletion
    simp only [holdest]
    by_cases hlong : (s.store.clear.slots i).data.tooLong = true
    · simp only [hlong, if_true]
      exact ⟨hfaithful, fun hfailed => by cases hfailed⟩
    · rw [if_neg hlong]
      exact ⟨faithful_append hfaithful (o := ⟨entry, doneState ++ name, _⟩) hname rfl
        (by simpa [hdata] using hsame) rfl, fun _ => hbound _⟩
  | none =>
    have hwaits : ∀ i, s.store.clear.waits entry.parent i = false := by
      rcases hregular with hsome | hnone | hwaits
      · simp [hdata] at hsome
      · rw [hnone] at hname
        cases hname
      · exact fun i => (Store.clear_waits h.current _ i).trans (hwaits i)
    unfold Store.bindCompletion
    simp only [Store.oldest_of_none_waits hwaits]
    refine ⟨faithful_append hfaithful (o := ⟨entry, doneState ++ name, .empty⟩) hname rfl
      (by simp [hdata]) (by simp), fun _ => hclear.tail hqueue (fun i hi _ hparent => ?_) _⟩
    have hwait := hwaits i
    rw [Store.waits_iff.mpr ⟨hi, hparent⟩] at hwait
    cases hwait

theorem Kept.enterDoneData (hfaithful : s.Faithful P) (h : Sound P s)
    (parent : ℕ) (content : Content Env Object) (env : Env) (room : ℕ) :
    Kept P (s.enterDoneData parent content env room) := by
  unfold System.enterDoneData
  split
  · exact ⟨hfaithful, fun hfailed => by cases hfailed⟩
  rename_i i store hreserve
  split
  · exact ⟨hfaithful, fun _ => h.queuePublished hreserve _⟩
  · exact ⟨hfaithful, fun hfailed => by cases hfailed⟩
  · exact ⟨hfaithful, fun hfailed => by cases hfailed⟩

/-- **One regular step.** -/
theorem Kept.step {s s' : System n Object} {a : Action Env Object} (h : Kept P s)
    (hregular : s.regular P a = true) (hstep : s.step P a = some s') : Kept P s' := by
  unfold System.step at hstep
  split at hstep
  · cases hstep
  rename_i hfailed
  have hsound := h.sound (Bool.eq_false_of_not_eq_true hfailed)
  cases a with
  | enter parent doneData env room =>
    cases doneData with
    | none =>
      cases hstep
      exact ⟨h.faithful, fun _ => hsound.queuePlain parent⟩
    | some content =>
      cases hstep
      exact .enterDoneData h.faithful hsound parent content env room
  | observe =>
    dsimp only at hstep
    split at hstep
    · cases hstep
    · rename_i entry rest hqueue
      cases hstep
      refine .observe h.faithful hsound hqueue ?_
      simpa [System.regular, hqueue, or_assoc] using hregular
  | observeOther =>
    cases hstep
    exact ⟨h.faithful, fun _ => hsound.clear⟩

/-- **Main.** Each `done.state` carries the donedata of its own entry in every run in which no
completion without donedata is observed while a filled slot of its parent waits. -/
theorem regularly_faithful (h : s.RegularlyReachable P Env) : s.Faithful P := by
  refine (Machine.Reachable.invariant (P := Kept P) ?_ ?_ h).faithful
  · rintro _ rfl
    exact ⟨fun _ ho => (by cases ho), fun _ => init_sound⟩
  · intro s a s' hs ha
    obtain ⟨hregular, hstep⟩ := Machine.guarded_eq_some ha
    exact hs.step hregular hstep

/-! ## A parent with two finals -/

def oneState : Program := ⟨fun k => if k = 1 then some ['P'] else none⟩

def takenRun : List (Action Unit Unit) :=
  [.enter 1 none () 0, .enter 1 (some (.inline ['d'])) () 0, .observe]

def separateRun : List (Action Unit Unit) :=
  [.enter 1 none () 0, .observe, .enter 1 (some (.inline ['d'])) () 0, .observe]

def separateState : System 2 Unit :=
  (Machine.exec (Machine.guarded (System.regular oneState) (System.step oneState))
    System.init separateRun).get (by rfl)

theorem separateState_faithful : separateState.Faithful oneState := by
  have hreach : separateState.RegularlyReachable oneState Unit :=
    Machine.Reachable.runs (.of_init rfl) (Machine.exec_runs (Option.some_get _).symm)
  exact regularly_faithful hreach

def takenState : System 2 Unit :=
  (Machine.exec (System.step oneState) System.init takenRun).get (by rfl)

theorem takenState_not_faithful :
    System.Reachable oneState Unit takenState ∧ ¬ takenState.Faithful oneState := by
  refine ⟨Machine.Reachable.runs (.of_init rfl) (Machine.exec_runs (Option.some_get _).symm),
    fun h => ?_⟩
  obtain ⟨-, hdata⟩ := h ⟨⟨1, none, 1⟩, doneState ++ ['P'], .text ['d']⟩ List.mem_cons_self
  cases hdata

end Completion

end TurboScxml.Session
