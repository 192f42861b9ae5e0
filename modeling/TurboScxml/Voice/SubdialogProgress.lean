import TurboScxml.Voice.SubdialogSteps

/-!
# Runs of a subdialog owner

* `Inv.acquireInitial`, `Inv.followNavigation`, `Inv.drive`, `Inv.publish`, `Inv.finish`,
  `Inv.consume`: its functions;
* **`Inv.stepRun`**: every step of `run_ready` keeps the invariant.
-/

namespace TurboScxml.Voice

open Function

namespace Subdialogs

variable {ι : Type} {config : Config} {s t : State ι}

attribute [simp] Run.works Run.bare Run.after Run.serves Run.delivers Run.hand Run.claim Run.asks
  Run.commits Run.tears

/-! ## Moves -/

variable {run : Run}

theorem Run.Plain.seen (h : run.Plain) : run.seen = none := by
  cases run <;> first
    | rfl
    | (have htears := h.tears; cases htears)

theorem Inv.goto (h : Inv config s) (hpasses : Passes s run) (hplain : run.Plain)
    (hcommits : s.run.commits = none) : Inv config (s.goto run) where
  rows := h.rows.goto hpasses
  ledgers := h.ledgers.frame rfl hpasses.hand fun _ => ⟨rfl, rfl, rfl⟩
  logs := h.logs.goto hpasses
  parents := by
    refine Bindings.parents (h.parents.toBindings.goto ?_ hpasses.delivers ?_) hplain
    · intro j hj
      rcases hpasses.serves j hj with hj | hactive
      · exact .inr hj
      · exact .inl (by rw [hactive]; rfl)
    · rw [hplain.commits, hcommits]
  taskSeen := h.taskSeen
  runSeen := by
    intro state hseen
    rw [show (s.goto run).run.seen = run.seen from rfl, hplain.seen] at hseen
    cases hseen

/-- `run_ready` works on no other row than this one. -/
structure Run.Within (slot : ℕ) (run : Run) : Prop extends Run.Plain run where
  claim : run.claim = none
  works : ∀ k, run.works = some k → slot = k
  hand : run.hand = none
  bare : ∀ k, run.bare ≠ some k

/-- `run_ready` has come to this row, and does not tear it down. -/
structure Run.Stands (slot : ℕ) (run : Run) : Prop extends Run.Within slot run where
  there : run.works = some slot
  serves : run.serves = some slot
  delivers : run.delivers = none

def Run.stands : Run → Option ℕ
  | .progressing slot => some slot
  | .following slot _ => some slot
  | .driving slot => some slot
  | .driven slot => some slot
  | .publishing slot => some slot
  | _ => none

variable {slot : ℕ}

theorem Run.Stands.of_stands (h : run.stands = some slot) : run.Stands slot := by
  cases run <;> first
    | (obtain rfl := Option.some_inj.mp h
       refine ⟨⟨⟨rfl, rfl, rfl⟩, rfl, fun k hk => Option.some_inj.mp hk, rfl, fun k hk => ?_⟩, rfl,
         rfl, rfl⟩
       cases hk)
    | cases h

theorem Run.Within.of_stands (h : run.stands = some slot) :
    run.Within slot := (Run.Stands.of_stands h).toWithin

theorem Run.Within.of_works (hplain : run.Plain) (h : run.works = none) : run.Within slot := by
  refine ⟨hplain, ?_, ?_, ?_, ?_⟩
  · cases run <;> first
      | rfl
      | cases h
  · rw [h]
    intro k hk
    cases hk
  · cases run <;> first
      | rfl
      | cases h
  · intro k hk
    rw [Run.works_of_bare hk] at h
    cases h

theorem Run.Within.idle (slot : ℕ) : Run.idle.Within slot := .of_works ⟨rfl, rfl, rfl⟩ rfl

theorem Run.Within.row (slot next : ℕ) : (Run.row next).Within slot :=
  .of_works ⟨rfl, rfl, rfl⟩ rfl

theorem Run.Within.closing {after : After} (h : (Run.closing slot after).hand = none) :
    (Run.closing slot after).Within slot := by
  refine ⟨⟨rfl, rfl, rfl⟩, rfl, fun k hk => Option.some_inj.mp hk, h, fun k hk => ?_⟩
  cases hk

variable (h : Inv config s)
include h

theorem Inv.move (hstands : s.run.Stands slot) (hwithin : run.Within slot) :
    Inv config (s.goto run) := by
  refine h.goto ⟨hwithin.claim, ?_, ?_, ?_, ?_, ?_⟩ hwithin.toPlain hstands.commits
  · intro k hk
    rw [← hwithin.works k hk]
    exact .inl hstands.there
  · intro k hk
    rw [← hwithin.works k (Run.works_of_serves hk)]
    exact .inl hstands.serves
  · intro k hk
    rw [hstands.delivers] at hk
    cases hk
  · rw [hwithin.hand, hstands.hand]
  · exact fun k hk => absurd hk (hwithin.bare k)

variable {k : ℕ}

theorem Inv.replace {row : Row} (hrows : t.rows = update s.rows k row)
    (htasks : t.tasks = s.tasks) (hrun : t.run = s.run) (hruns : t.runs = s.runs)
    (haccepted : t.accepted = s.accepted) (horigin : t.origin = s.origin) (hlogs : t.logs = s.logs)
    (hledgers : Ledgers t) (hplain : s.run.Plain) (hbare : s.run.bare ≠ some k)
    (hbusy : (s.rows k).state.busy = true) (hstate : row.state = (s.rows k).state)
    (hkeeps : (s.rows k).Keeps row)
    (hsession : row.session = (s.rows k).session ∨ ∀ j, s.relevant j → s.run.delivers ≠ some j →
      (s.rows j).parent ≠ some (.child k)) : Inv config t := by
  obtain ⟨hempty, hwriting⟩ := RowState.busy_ne hbusy
  have hrelevant := relevant_of_update hrows hrun fun p _ =>
    ⟨fun hlive => hstate ▸ hlive, hkeeps⟩
  refine ⟨?_, hledgers, ?_, ?_, ?_, ?_⟩
  · refine h.rows.change hrows htasks hrun (by rw [haccepted]) (fun r _ => by rw [horigin]) ?_
      (h.rows.free hwriting) (fun _ => by rw [hstate, hbusy]) fun hk => absurd hk hbare
    rw [haccepted, horigin]
    refine (h.rows.sane k).change hkeeps ⟨hempty, hwriting⟩ (by rw [hstate]; exact hempty) ?_
    rw [hstate, hbusy]
    intro hfalse
    cases hfalse
  · refine h.logs.setRow hrows hlogs hruns haccepted horigin hrun fun r hr => ?_
    exact ⟨hkeeps.reservation.symm.trans hr, .inl hstate⟩
  · refine Bindings.parents (h.parents.toBindings.frame hrelevant ?_ ?_ ?_ (by rw [hrun]))
      (hrun ▸ hplain)
    · intro j p hj hdelivers hparent
      rcases hsession with hsession | hnone
      · exact session_of_update hrows hsession p
      · obtain ⟨hj', hkeeps'⟩ := hrelevant j p hj hparent
        rw [hrun] at hdelivers
        have hpk : p ≠ k := by
          rintro rfl
          exact hnone j hj' hdelivers (hkeeps'.parent.symm.trans hparent)
        rw [hrows, update_of_ne hpk]
    · intro j r _
      rw [horigin]
    · intro j _ hj
      rw [hrun]
      exact hj
  · rw [htasks]
    exact h.taskSeen
  · rw [hrun]
    exact h.runSeen

theorem Inv.excuse {event : Option Event} (hplain : s.run.Plain)
    (hbare : s.run.bare ≠ some k) (hbusy : (s.rows k).state.busy = true) :
    Inv config (s.setRow k { s.rows k with syntheticEvent := event }) :=
  h.replace (k := k) rfl rfl rfl rfl rfl rfl rfl
    (h.ledgers.setRow (k := k) rfl rfl rfl rfl rfl rfl) hplain hbare hbusy rfl ⟨rfl, rfl, rfl⟩
    (.inl rfl)

theorem Inv.unviewed {event : Option Event} (hplain : s.run.Plain)
    (hbare : s.run.bare ≠ some k) (hbusy : (s.rows k).state.busy = true) :
    Inv config { s.setRow k { s.rows k with syntheticEvent := event } with
      documents := s.documents + 1
      released := s.documents :: s.released } := by
  refine h.replace (k := k) rfl rfl rfl rfl rfl rfl rfl ?_ hplain hbare hbusy rfl
    ⟨rfl, rfl, rfl⟩ (.inl rfl)
  exact (h.excuse hplain hbare hbusy).ledgers.pass rfl (fun _ => ⟨rfl, rfl, rfl⟩) rfl

theorem Inv.childless (hplain : s.run.Plain)
    (hsession : ∀ session, (s.rows k).session = some session → ∀ g,
      session.subdialog ≠ .inFlight g) (j : ℕ) (hj : s.relevant j)
    (hdelivers : s.run.delivers ≠ some j) : (s.rows j).parent ≠ some (.child k) := by
  refine h.parents.none_of_session ?_ hsession hj hdelivers
  rw [hplain.commits]
  intro hnone
  cases hnone

/-! ## Sessions -/

theorem Inv.initSession {answers : Answers} (hplain : s.run.Plain)
    (hbare : s.run.bare ≠ some k) (hbusy : (s.rows k).state.busy = true)
    (hsession : (s.rows k).session = none) : Inv config (s.initSession k answers) := by
  have hledgers := h.ledgers.initSession hsession answers
  have hnone := h.childless (k := k) hplain fun session hsome => by
    rw [hsession] at hsome
    cases hsome
  unfold State.initSession at hledgers ⊢
  split_ifs at hledgers ⊢
  · exact h.replace (k := k) rfl rfl rfl rfl rfl rfl rfl hledgers hplain hbare hbusy rfl
      ⟨rfl, rfl, rfl⟩ (.inr hnone)
  · exact h.replace (k := k) rfl rfl rfl rfl rfl rfl rfl hledgers hplain hbare hbusy rfl
      ⟨rfl, rfl, rfl⟩ (.inr hnone)
  · exact h.replace (k := k) rfl rfl rfl rfl rfl rfl rfl hledgers hplain hbare hbusy rfl
      ⟨rfl, rfl, rfl⟩ (.inr hnone)

theorem Inv.acquireInitial {answers : Answers} (hplain : s.run.Plain)
    (hbare : s.run.bare ≠ some k) (hbusy : (s.rows k).state.busy = true)
    (hsession : (s.rows k).session = none) (hdocument : (s.rows k).document = none) :
    Inv config (s.acquireInitial k answers) := by
  unfold State.acquireInitial
  split_ifs
  · exact h.excuse hplain hbare hbusy
  · exact h.unviewed hplain hbare hbusy
  · have hrow : (update s.rows k { s.rows k with document := some s.documents } k) =
        { s.rows k with document := some s.documents } := update_self _ _ _
    refine Inv.initSession ?_ hplain hbare ?_ ?_
    · exact h.replace (k := k) rfl rfl rfl rfl rfl rfl rfl
        (h.ledgers.keep (k := k) rfl rfl rfl hdocument rfl rfl rfl) hplain hbare hbusy rfl
        ⟨rfl, rfl, rfl⟩ (.inl rfl)
    · show (update s.rows k { s.rows k with document := some s.documents } k).state.busy = true
      rw [hrow]
      exact hbusy
    · show (update s.rows k { s.rows k with document := some s.documents } k).session = none
      rw [hrow]
      exact hsession

omit h

theorem goto_acquireInitial (k : ℕ) (answers : Answers) (run : Run) :
    (s.acquireInitial k answers).goto run = (s.goto run).acquireInitial k answers := by
  unfold State.acquireInitial State.initSession
  split_ifs <;> rfl

theorem goto_initSession (k : ℕ) (answers : Answers) (run : Run) :
    (s.initSession k answers).goto run = (s.goto run).initSession k answers := by
  unfold State.initSession
  split_ifs <;> rfl

/-! ## Progress -/

theorem Run.Stands.bare_ne (h : run.Stands slot) :
    run.bare ≠ some slot := h.bare slot

variable (h : Inv config s)
include h

theorem Inv.busy (hstands : s.run.Stands slot) :
    (s.rows slot).state.busy = true := h.rows.works slot hstands.there

theorem Inv.followed (hstands : s.run.Stands slot) (again : Bool) :
    Inv config (s.followed slot again) := by
  unfold State.followed
  dsimp only
  split
  · exact h.move hstands (.of_stands rfl)
  · split
    · exact h.move hstands (.idle slot)
    · exact h.move hstands (.idle slot)
    · exact h.move hstands (.of_stands rfl)
    · split_ifs
      · exact h.move hstands (.row slot _)
      · exact h.move hstands (.of_stands rfl)
    · exact (h.excuse hstands.toPlain hstands.bare_ne (h.busy hstands)).move hstands
        (.of_stands rfl)

theorem Inv.followNavigation (hstands : s.run.Stands slot) (again : Bool) (answers : Answers) :
    Inv config (s.followNavigation config slot again answers) := by
  have hbusy := h.busy hstands
  unfold State.followNavigation
  dsimp only
  split_ifs
  · exact h.move hstands (.idle slot)
  · exact (h.excuse hstands.toPlain hstands.bare_ne hbusy).move hstands (.of_stands rfl)
  · exact (h.unviewed hstands.toPlain hstands.bare_ne hbusy).move hstands (.of_stands rfl)
  · have hserves : ∀ j, Run.serves (.closing slot (.follow s.documents again)) = some j →
        s.run.serves = some j := by
      intro j hj
      rw [hstands.serves]
      exact hj
    refine ⟨?_, h.ledgers.fetch hstands.hand rfl, ?_, ?_, h.taskSeen, ?_⟩
    · refine h.rows.control rfl rfl rfl ?_ ?_ ?_
      · intro a c ha
        cases a with
        | none => cases ha
        | some i => exact ha
      · intro k hk
        obtain rfl : slot = k := Option.some_inj.mp hk
        exact .inl hstands.there
      · intro k hk
        cases hk
    · refine h.logs.frame rfl rfl rfl rfl (fun _ _ hr => ⟨hr, .inl rfl⟩)
        (fun j hj => .inl (hserves j hj)) fun k _ _ hk => ?_
      rw [hstands.delivers] at hk
      cases hk
    · refine Bindings.parents ?_ ⟨rfl, rfl, rfl⟩
      refine h.parents.toBindings.frame ?_ (fun _ _ _ _ _ => rfl) (fun _ _ _ => rfl) ?_ ?_
      · exact fun j p hj _ => ⟨hj.imp id (hserves j), .refl _⟩
      · intro j _ hj
        rw [hstands.delivers] at hj
        cases hj
      · exact hstands.commits.symm
    · intro state hseen
      cases hseen

variable {session : Session}

theorem Inv.reply (session' : Session) (hplain : s.run.Plain)
    (hbare : s.run.bare ≠ some k) (hsession : (s.rows k).session = some session)
    (hnone : ∀ j, s.relevant j → s.run.delivers ≠ some j →
      (s.rows j).parent ≠ some (.child k)) (hnumber : session'.number = session.number) :
    Inv config (s.setSession k session') := by
  have hbusy : (s.rows k).state.busy = true := by
    cases hb : (s.rows k).state.busy with
    | true => rfl
    | false =>
      rw [((h.rows.sane k).bare hb).1] at hsession
      cases hsession
  refine h.replace (k := k) rfl rfl rfl rfl rfl rfl rfl ?_ hplain hbare hbusy rfl
    ⟨rfl, rfl, rfl⟩ (.inr hnone)
  refine h.ledgers.setRow (k := k) rfl rfl rfl rfl ?_ rfl
  simp only [Row.number, hsession, Option.map_some, hnumber]

theorem Inv.ask {request : Request} (hstands : s.run.Stands slot)
    (hsession : (s.rows slot).session = some session) (hsubdialog : session.subdialog = .none)
    (hgeneration : session.generation = request.generation) (hnumber : request.generation ≠ 0) :
    Inv config (s.goto (.searching slot request 0)) := by
  have hpasses : Passes s (.searching slot request 0) := by
    refine ⟨rfl, ?_, ?_, ?_, hstands.hand.symm, ?_⟩
    · intro k hk
      obtain rfl : slot = k := Option.some_inj.mp hk
      exact .inl hstands.there
    · intro k hk
      obtain rfl : slot = k := Option.some_inj.mp hk
      exact .inl hstands.serves
    · intro k hk
      rw [hstands.delivers] at hk
      cases hk
    · intro k hk
      cases hk
  refine ⟨h.rows.goto hpasses, h.ledgers.frame rfl hpasses.hand fun _ => ⟨rfl, rfl, rfl⟩,
    h.logs.goto hpasses, ?_, h.taskSeen, ?_⟩
  · refine ⟨h.parents.toBindings.goto ?_ hpasses.delivers hstands.commits.symm, ?_, ?_, ?_, ?_⟩
    · exact fun j hj => .inr (hstands.serves.trans hj)
    · intro p request' hasks
      obtain ⟨rfl, rfl⟩ := Prod.mk.inj (Option.some_inj.mp hasks)
      exact ⟨session, hsession, hsubdialog, hgeneration, hnumber⟩
    · intro p hcommits
      cases hcommits
    · intro p scan after hrun
      cases hrun
    · intro p after hrun
      cases hrun
  · intro state hseen
    cases hseen

theorem Inv.drive (hstands : s.run.Stands slot)
    (hsession : (s.rows slot).session = some session) (answers : Answers) :
    Inv config (s.drive config slot session answers) := by
  unfold State.drive
  split
  case h_1 => exact h.move hstands (.of_stands rfl)
  case h_2 hready =>
    have hnone := h.childless (k := slot) hstands.toPlain fun session' hsome g hflight => by
      rw [hsession] at hsome
      rw [← Option.some_inj.mp hsome, hready] at hflight
      cases hflight
    have hreply := h.reply ({ session with subdialog := .none }.moved answers) hstands.toPlain
      hstands.bare_ne hsession hnone (by simp)
    split_ifs
    · exact hreply.move hstands (.idle slot)
    · exact hreply.move hstands (.of_stands rfl)
  case h_3 hsubdialog =>
    split
    case h_1 => exact h.move hstands (.of_stands rfl)
    case h_2 src params hselected =>
      dsimp only
      split_ifs with hrefused
      · exact h.move hstands (.idle slot)
      · refine h.ask hstands hsession hsubdialog rfl ?_
        intro hzero
        have hgeneration : session.generation = 0 := hzero
        refine hrefused (.inr ?_)
        simp [prepareRefused, hgeneration]

omit h

end Subdialogs

end TurboScxml.Voice
