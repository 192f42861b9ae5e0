import TurboScxml.Voice.SubdialogRuns

/-!
# Delivery of subdialog completions

* `Sound`: what a subdialog owner promises in a state;
* **`delivery_sound`**: it holds in every state of a run whose steps are regular;
* **`delivery_unsound`**: a cancel that stops at a row canceled before leaves a subdialog to a
  later session, and a late ticket commits the reservation of another one.
-/

namespace TurboScxml.Voice

open Function Machine Tokens

namespace Subdialogs

variable {ι : Type} {config : Config} {s t : State ι}

structure Sound (config : Config) (s : State ι) : Prop where
  /-- A reservation is delivered at most once. -/
  once : (s.delivered.map Delivery.reservation).Nodup
  prepared : ∀ d ∈ s.delivered, s.origin d.reservation = d.receiver
  late : ∀ m ∈ s.marks, ∀ d ∈ s.delivered, d.reservation = m.1 → d.run ≤ m.2
  committed : ∀ r ∈ s.started, r ∈ s.committed
  started : ∀ d ∈ s.delivered, d.reservation ∈ s.started
  sessions : Custody s.sessions s.destroyed (fun k => (s.rows k).number)
  documents : Custody s.documents s.released s.places
  empty : ∀ k, (s.rows k).state = .empty → s.rows k = .blank
  balance : s.accepted = s.emptied.length +
    (List.range config.capacity).countP fun k => (s.rows k).reservation.isSome

theorem Inv.sound (h : Inv config s) : Sound config s where
  once := h.logs.once
  prepared d hd := (h.logs.prepared d hd).2
  late := h.logs.late
  committed := h.logs.started
  started d hd := (h.logs.prepared d hd).1
  sessions := h.ledgers.sessions
  documents := h.ledgers.documents
  empty k := (h.rows.sane k).blank
  balance := by
    have hall : ∀ k r, (s.rows k).reservation = some r → k ∈ List.range config.capacity := by
      intro k r hr
      refine List.mem_range.mpr ((h.rows.sane k).bound fun hempty => ?_)
      rw [(h.rows.sane k).blank hempty] at hr
      cases hr
    rw [h.ledgers.reservations.count List.nodup_range hall, List.length_filterMap_eq_countP]

theorem Inv.init (h : Init s) : Inv config s := by
  obtain ⟨hrows, -, htasks, hrun, haccepted, hemptied, hcommitted, hstarted, hmarks, hdelivered,
    hsessions, hdestroyed, hdocuments, hreleased⟩ := h
  refine ⟨.init hrows htasks hrun, .init hrows hrun ?_, .init hrows ?_, .init hrows hrun, ?_, ?_⟩
  · simp only [State.books, haccepted, hemptied, hsessions, hdestroyed, hdocuments, hreleased]
  · simp only [State.logs, hcommitted, hstarted, hmarks, hdelivered]
  · intro i state hseen
    rw [htasks i] at hseen
    cases hseen
  · intro state hseen
    rw [hrun] at hseen
    cases hseen

variable [DecidableEq ι]

/-- **Steps.** A regular step keeps the invariant. -/
theorem Inv.step (h : Inv config s) {a : Action ι} (hregular : regular config s a = true)
    (hstep : Subdialogs.step config s a = some t) : Inv config t := by
  cases a with
  | prepare i request =>
    simp only [Subdialogs.step] at hstep
    split_ifs at hstep
    cases hstep
    exact h.setTask i rfl nofun
  | cancel i context generation =>
    simp only [Subdialogs.step] at hstep
    split_ifs at hstep
    cases hstep
    exact h.setTask i rfl nofun
  | close i =>
    simp only [Subdialogs.step] at hstep
    split_ifs at hstep
    cases hstep
    have hclosed : Inv config { s with closed := true } := by
      refine ⟨?_, ?_, ?_, ?_, h.taskSeen, h.runSeen⟩
      · exact h.rows.control rfl rfl rfl (fun _ _ ha => ha) (fun _ hk => .inl hk) h.rows.bare
      · exact h.ledgers.frame rfl rfl fun _ => ⟨rfl, rfl, rfl⟩
      · exact h.logs.frame rfl rfl rfl rfl (fun _ _ hr => ⟨hr, .inl rfl⟩) (fun _ hk => .inl hk)
          fun _ _ _ hk => hk
      · exact h.parents.task (fun _ _ hj _ => ⟨hj, .refl _⟩) (fun _ => rfl) (fun _ _ _ => rfl) rfl
    exact hclosed.setTask i rfl nofun
  | commit i => exact h.commitTicket hregular hstep
  | discard i => exact h.discardTicket hstep
  | task i => exact h.stepTask hstep
  | runReady =>
    simp only [Subdialogs.step] at hstep
    split_ifs at hstep with hrun
    cases hstep
    have hcall := h.logs.call hrun
    refine ⟨?_, ?_, hcall, ?_, h.taskSeen, nofun⟩
    · refine h.rows.control rfl rfl rfl ?_ nofun nofun
      intro a c ha
      cases a with
      | none => cases ha
      | some i => exact ha
    · refine h.ledgers.frame rfl ?_ fun _ => ⟨rfl, rfl, rfl⟩
      show none = s.run.hand
      rw [hrun]
      rfl
    · refine Bindings.parents (h.parents.toBindings.frame ?_ (fun _ _ _ _ _ => rfl)
        (fun _ _ _ => rfl) ?_ ?_) ⟨rfl, rfl, rfl⟩
      · exact fun j p hj _ => ⟨hj.imp id nofun, .refl _⟩
      · intro j _ hj
        rw [hrun] at hj
        cases hj
      · rw [hrun]
        rfl
  | proceed answers => exact h.stepRun hregular hstep

/-- **Main.** In every regular run each reservation is delivered at most once, to the session that
prepared it and before a mark, nothing uncommitted is started, and each child session and borrow is
released once. -/
theorem delivery_sound (config : Config) {s : State ι}
    (h : Reachable (guarded (regular config) (Subdialogs.step config)) Init s) :
    Sound config s := by
  have hinv : Inv config s := by
    refine h.invariant (fun _ hinit => Inv.init hinit) fun u a v hu ha => ?_
    obtain ⟨hregular, hstep⟩ := guarded_eq_some ha
    exact hu.step hregular hstep
  exact hinv.sound

/-! ## Examples -/

def fourRows : Config := ⟨4, 8, 1, 1, 8, 8⟩

def opened : State ℕ where
  rows _ := .blank
  closed := false
  tasks _ := .idle
  run := .idle
  runs := 0
  accepted := 0
  emptied := []
  origin _ := ⟨.root, none, 0⟩
  committed := []
  started := []
  marks := []
  delivered := []
  sessions := 0
  destroyed := []
  documents := 0
  released := []

theorem opened_init : Init opened := by
  simp [Init, opened]

def asks : Answers :=
  ⟨true, true, true, true, true, false, true, .running, .select ['c'] [], .ok, .accepted⟩

def exits : Answers :=
  ⟨true, true, true, true, true, false, true, .exited, .keep, .ok, .accepted⟩

/-- `max_work` is reached. -/
def stops : Answers := { exits with resumes := false }

def prepares (i generation : ℕ) : List (Action ℕ) :=
  [.prepare i ⟨generation, ['s'], []⟩, .task i, .task i, .commit i]

def cancels (i generation : ℕ) : List (Action ℕ) :=
  [.cancel i .root generation, .task i, .task i]

def starts (free : ℕ) : List (Action ℕ) :=
  .runReady :: List.replicate (free + 10) (.proceed asks) ++ [.proceed stops]

/-- `run_ready` clears the row 0, and stops. -/
def clears (steps : ℕ) : List (Action ℕ) :=
  .runReady :: List.replicate steps (.proceed asks) ++ [.proceed stops]

def completes : List (Action ℕ) := .runReady :: List.replicate 14 (.proceed exits)

/-- The second cancel stops at the subdialog of the first session. -/
def misdelivers : List (Action ℕ) :=
  prepares 0 1 ++ starts 1 ++ cancels 1 1 ++ clears 6 ++
    (prepares 2 2 ++ starts 2 ++ cancels 3 2 ++ clears 5) ++ (prepares 4 3 ++ starts 3 ++ completes)

/-- A ticket is committed after its row was reserved again. -/
def commitsLate : List (Action ℕ) :=
  (prepares 0 1).dropLast ++ cancels 1 1 ++ clears 3 ++ (prepares 2 2).dropLast ++
    [.commit 0, .runReady, .proceed exits, .proceed exits]

theorem misdelivers_runs : (exec (step fourRows) opened misdelivers).isSome = true := by
  decide +kernel

theorem commitsLate_runs : (exec (step fourRows) opened commitsLate).isSome = true := by
  decide +kernel

/-- **Counterexample.** A completion goes to another session, and an uncommitted reservation is
started. -/
theorem delivery_unsound :
    (∃ s : State ℕ, Reachable (Subdialogs.step fourRows) Init s ∧
      ∃ d ∈ s.delivered, s.origin d.reservation ≠ d.receiver) ∧
    ∃ s : State ℕ, Reachable (Subdialogs.step fourRows) Init s ∧
      ∃ r ∈ s.started, r ∉ s.committed := by
  constructor
  · refine ⟨_, (Reachable.of_init opened_init).runs
      (exec_runs (Option.some_get misdelivers_runs).symm), ?_⟩
    decide +kernel
  · refine ⟨_, (Reachable.of_init opened_init).runs
      (exec_runs (Option.some_get commitsLate_runs).symm), ?_⟩
    decide +kernel

/-- A child that starts a grandchild is cancelled, and the next child completes. -/
def regularly : List (Action ℕ) :=
  prepares 0 1 ++ starts 1 ++ cancels 1 1 ++ clears 6 ++ prepares 2 2 ++
    .runReady :: List.replicate 9 (.proceed exits)

theorem regularly_runs :
    (exec (guarded (regular fourRows) (step fourRows)) opened regularly).isSome = true := by
  decide +kernel

theorem delivery_sound_regularly :
    Sound fourRows ((exec (guarded (regular fourRows) (step fourRows)) opened regularly).get
      regularly_runs) ∧
    ((exec (guarded (regular fourRows) (step fourRows)) opened regularly).get
      regularly_runs).delivered = [⟨2, ⟨.root, none, 2⟩, 3⟩] :=
  ⟨delivery_sound fourRows ((Reachable.of_init opened_init).runs
    (exec_runs (Option.some_get regularly_runs).symm)), by decide +kernel⟩

end Subdialogs

end TurboScxml.Voice
