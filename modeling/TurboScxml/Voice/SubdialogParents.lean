import TurboScxml.Voice.SubdialogLogs

/-!
# Parents of subdialogs

* `State.relevant`: a row whose completion may still be delivered;
* `Bound`: the session in the parent context has prepared the subdialog and waits for it;
* `Parents`: the relevant rows are bound, and a session has one of them.
-/

namespace TurboScxml.Voice

open Function

namespace Subdialogs

def Run.commits : Run → Option ℕ
  | .committing slot _ _ => some slot
  | _ => none

def Run.asks : Run → Option (ℕ × Request)
  | .searching slot request _ => some (slot, request)
  | .filling slot request _ => some (slot, request)
  | _ => none

def Run.tears : Run → Bool
  | .canceling _ _ _ => true
  | .destroying _ _ => true
  | _ => false

variable {ι : Type} {config : Config} {s t : State ι}

def State.relevant (s : State ι) (j : ℕ) : Prop :=
  (s.rows j).state.live = true ∨ s.run.serves = some j

/-- The session waits for the subdialog of a row. -/
structure Bound (s : State ι) (j p : ℕ) (session : Session) : Prop where
  there : (s.rows p).session = some session
  prepared : ∀ r, (s.rows j).reservation = some r → (s.origin r).session = some session.number
  armed : if s.run.commits = some p then session.generation = (s.rows j).generation
    else session.subdialog = .inFlight (s.rows j).generation
  number : (s.rows j).generation ≠ 0

/-- What `owner_cancel` has seen of the subdialogs of a row. -/
structure Scanned (s : State ι) (p : ℕ) (scan : Scan) : Prop where
  context : scan.context = .child p
  rest : ∀ j, s.relevant j → (s.rows j).parent = some (.child p) →
    (s.rows j).generation = scan.generation ∧ scan.slot ≤ j ∧ (scan.seen ≠ none → j = scan.slot)

/-- The relevant rows are bound to the sessions of their parents. -/
structure Bindings (s : State ι) : Prop where
  bound : ∀ j p, s.relevant j → s.run.delivers ≠ some j → (s.rows j).parent = some (.child p) →
    ∃ session, Bound s j p session
  alone : ∀ i j p, s.relevant i → s.relevant j → (s.rows i).parent = some (.child p) →
    (s.rows j).parent = some (.child p) → i = j

/-- The relevant rows are bound while their sessions live. -/
structure Parents (s : State ι) : Prop extends Bindings s where
  asking : ∀ p request, s.run.asks = some (p, request) → ∃ session,
    (s.rows p).session = some session ∧ session.subdialog = .none ∧
      session.generation = request.generation ∧ request.generation ≠ 0
  committing : ∀ p, s.run.commits = some p → ∃ session, (s.rows p).session = some session
  canceling : ∀ p scan after, s.run = .canceling p scan after → Scanned s p scan
  destroying : ∀ p after, s.run = .destroying p after → ∀ j, s.relevant j →
    (s.rows j).parent ≠ some (.child p)

theorem Parents.init (hrows : ∀ k, s.rows k = .blank) (hrun : s.run = .idle) : Parents s := by
  have hnone : ∀ j, ¬ s.relevant j := by
    rintro j (hlive | hserves)
    · rw [hrows j] at hlive
      cases hlive
    · rw [hrun] at hserves
      cases hserves
  constructor
  · exact ⟨fun j p hj => absurd hj (hnone j), fun i j p hi => absurd hi (hnone i)⟩
  · intro p request hasks
    rw [hrun] at hasks
    cases hasks
  · intro p hcommits
    rw [hrun] at hcommits
    cases hcommits
  · intro p scan after hcanceling
    rw [hrun] at hcanceling
    cases hcanceling
  · exact fun p after _ j hj => absurd hj (hnone j)

variable {j : ℕ}

theorem Rows.relevant_state (h : Rows config s) (hj : s.relevant j) :
    (s.rows j).state ≠ .empty ∧ (s.rows j).state ≠ .writing := by
  rcases hj with hlive | hserves
  · exact RowState.live_ne hlive
  · exact RowState.busy_ne (h.works j (Run.works_of_serves hserves))

theorem Rows.relevant_lt (h : Rows config s) (hj : s.relevant j) : j < config.capacity :=
  (h.sane j).bound (h.relevant_state hj).1

theorem Rows.apart (h : Rows config s) (hj : s.relevant j) :
    (s.rows j).parent ≠ some (.child j) := by
  intro hparent
  obtain ⟨hempty, hwriting⟩ := h.relevant_state hj
  obtain ⟨r, hr⟩ := Option.isSome_iff_exists.mp ((h.sane j).reserved hempty hwriting)
  obtain ⟨-, hfrom⟩ := (h.sane j).known r hr
  rw [hfrom.parent] at hparent
  exact hfrom.apart (Option.some_inj.mp hparent)

theorem Parents.none_of_session (h : Parents s) {p : ℕ} (hcommits : s.run.commits ≠ some p)
    (hp : ∀ session, (s.rows p).session = some session → ∀ g, session.subdialog ≠ .inFlight g)
    (hj : s.relevant j) (hdelivers : s.run.delivers ≠ some j) :
    (s.rows j).parent ≠ some (.child p) := by
  intro hparent
  obtain ⟨session, hbound⟩ := h.bound j p hj hdelivers hparent
  have harmed := hbound.armed
  rw [if_neg hcommits] at harmed
  exact hp session hbound.there _ harmed

theorem Bindings.frame (h : Bindings s)
    (hrows : ∀ j p, t.relevant j → (t.rows j).parent = some (.child p) →
      s.relevant j ∧ (s.rows j).Keeps (t.rows j))
    (hsession : ∀ j p, t.relevant j → t.run.delivers ≠ some j →
      (t.rows j).parent = some (.child p) → (t.rows p).session = (s.rows p).session)
    (horigin : ∀ j r, (s.rows j).reservation = some r → t.origin r = s.origin r)
    (hdelivers : ∀ j, t.relevant j → s.run.delivers = some j → t.run.delivers = some j)
    (hcommits : t.run.commits = s.run.commits) : Bindings t := by
  constructor
  · intro j p hj hdelivered hparent
    obtain ⟨hj', hkeeps⟩ := hrows j p hj hparent
    obtain ⟨session, hbound⟩ := h.bound j p hj' (fun hs => hdelivered (hdelivers j hj hs))
      (hkeeps.parent.symm.trans hparent)
    refine ⟨session, ?_, ?_, ?_, ?_⟩
    · rw [hsession j p hj hdelivered hparent]
      exact hbound.there
    · intro r hr
      rw [hkeeps.reservation] at hr
      rw [horigin j r hr]
      exact hbound.prepared r hr
    · rw [hcommits, hkeeps.generation]
      exact hbound.armed
    · rw [hkeeps.generation]
      exact hbound.number
  · intro i j p hi hj hparent hparent'
    obtain ⟨hi', hkeeps⟩ := hrows i p hi hparent
    obtain ⟨hj', hkeeps'⟩ := hrows j p hj hparent'
    exact h.alone i j p hi' hj' (hkeeps.parent.symm.trans hparent)
      (hkeeps'.parent.symm.trans hparent')

theorem Parents.task (h : Parents s)
    (hrows : ∀ j p, t.relevant j → (t.rows j).parent = some (.child p) →
      s.relevant j ∧ (s.rows j).Keeps (t.rows j))
    (hsession : ∀ p, (t.rows p).session = (s.rows p).session)
    (horigin : ∀ j r, (s.rows j).reservation = some r → t.origin r = s.origin r)
    (hrun : t.run = s.run) : Parents t := by
  refine ⟨h.toBindings.frame hrows (fun _ p _ _ _ => hsession p) horigin ?_ (by rw [hrun]), ?_, ?_,
    ?_, ?_⟩
  · intro j _ hj
    rw [hrun]
    exact hj
  · intro p request hasks
    rw [hrun] at hasks
    rw [hsession p]
    exact h.asking p request hasks
  · intro p hcommits
    rw [hrun] at hcommits
    rw [hsession p]
    exact h.committing p hcommits
  · intro p scan after hcanceling
    rw [hrun] at hcanceling
    have hscanned := h.canceling p scan after hcanceling
    refine ⟨hscanned.context, fun j hj hparent => ?_⟩
    obtain ⟨hj', hkeeps⟩ := hrows j p hj hparent
    rw [hkeeps.generation]
    exact hscanned.rest j hj' (hkeeps.parent.symm.trans hparent)
  · intro p after hdestroying j hj hparent
    rw [hrun] at hdestroying
    obtain ⟨hj', hkeeps⟩ := hrows j p hj hparent
    exact h.destroying p after hdestroying j hj' (hkeeps.parent.symm.trans hparent)

/-- `run_ready` neither prepares nor cancels a subdialog. -/
structure Run.Plain (run : Run) : Prop where
  asks : run.asks = none
  commits : run.commits = none
  tears : run.tears = false

theorem Bindings.parents (h : Bindings t) (hplain : t.run.Plain) : Parents t := by
  refine ⟨h, ?_, ?_, ?_, ?_⟩
  · intro p request hasks
    rw [hplain.asks] at hasks
    cases hasks
  · intro p hcommits
    rw [hplain.commits] at hcommits
    cases hcommits
  · intro p scan after hrun
    have htears := hplain.tears
    rw [hrun] at htears
    cases htears
  · intro p after hrun
    have htears := hplain.tears
    rw [hrun] at htears
    cases htears

theorem Bindings.goto (h : Bindings s) {run : Run}
    (hserves : ∀ j, run.serves = some j → s.relevant j)
    (hdelivers : ∀ j, s.run.delivers = some j → run.delivers = some j)
    (hcommits : run.commits = s.run.commits) : Bindings (s.goto run) := by
  refine h.frame ?_ (fun _ _ _ _ _ => rfl) (fun _ _ _ => rfl) (fun j _ => hdelivers j) hcommits
  intro j p hj _
  exact ⟨hj.elim .inl (hserves j), .refl _⟩

end Subdialogs

end TurboScxml.Voice
