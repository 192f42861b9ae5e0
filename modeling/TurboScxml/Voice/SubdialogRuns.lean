import TurboScxml.Voice.SubdialogTeardown

/-!
# Runs of a subdialog owner

* `Inv.start`, `Inv.finish`, `Inv.publish`, `Inv.consume`: the beginning and the end of a row;
* `Inv.stepRun`, `Inv.step`: every regular step keeps the invariant.
-/

namespace TurboScxml.Voice

open Function

namespace Subdialogs

variable {ι : Type} {config : Config} {s t : State ι}

/-! ## Rows -/

variable {slot : ℕ}

theorem Inv.start (h : Inv config s) (hrun : s.run = .pending slot)
    (hstate : (s.rows slot).state = .pending) :
    Inv config { s.setRow slot { s.rows slot with state := .active } with
      started := (s.rows slot).reservation.toList ++ s.started
      run := .acquiring slot } := by
  have hwriting : (s.rows slot).state ≠ .writing := by rw [hstate]; decide
  have hempty : (s.rows slot).state ≠ .empty := by rw [hstate]; decide
  have hbusy : (s.rows slot).state.busy = false := by rw [hstate]; rfl
  obtain ⟨hsession, hdocument⟩ := (h.rows.sane slot).bare hbusy
  obtain ⟨r, hr⟩ := h.rows.reservation hempty hwriting
  let u : State ι := { s.setRow slot { s.rows slot with state := .active } with
    started := r :: s.started }
  have hrow : u.rows slot = { s.rows slot with state := .active } := update_self _ _ _
  have hu : Inv config u := by
    refine ⟨?_, ?_, h.logs.start hstate hr h.own, ?_, h.taskSeen, h.runSeen⟩
    · refine h.rows.change (k := slot) rfl rfl rfl (Nat.le_refl _) (fun _ _ => rfl) ?_
        (h.rows.free hwriting) (fun _ => rfl) (fun _ => ⟨hsession, hdocument⟩)
      exact (h.rows.sane slot).change ⟨rfl, rfl, rfl⟩ ⟨hempty, hwriting⟩ nofun nofun
    · exact h.ledgers.setRow (k := slot) rfl rfl rfl rfl rfl rfl
    · refine h.parents.task (relevant_of_update (k := slot) rfl rfl ?_)
        (session_of_update (k := slot) rfl rfl) (fun _ _ _ => rfl) rfl
      refine fun p _ => ⟨fun _ => ?_, rfl, rfl, rfl⟩
      rw [hstate]
      rfl
  have hgoto : Inv config (u.goto (.acquiring slot)) := by
    refine hu.goto ⟨rfl, ?_, ?_, ?_, ?_, ?_⟩ ⟨rfl, rfl, rfl⟩ ?_
    · intro k hk
      obtain rfl : slot = k := Option.some_inj.mp hk
      exact .inr (by rw [hrow]; rfl)
    · intro k hk
      obtain rfl : slot = k := Option.some_inj.mp hk
      exact .inr (by rw [hrow])
    · intro k hk
      change s.run.delivers = some k at hk
      rw [hrun] at hk
      cases hk
    · show _ = s.run.hand
      rw [hrun]
      rfl
    · intro k hk
      obtain rfl : slot = k := by cases hk; rfl
      rw [hrow]
      exact ⟨hsession, hdocument⟩
    · show s.run.commits = none
      rw [hrun]
      rfl
  rw [hr]
  exact hgoto

variable {after : After}

theorem Inv.destroyRow (h : Inv config s) (hrun : s.run = .destroying slot after) :
    Inv config (s.destroyRow slot) := by
  have hbusy : (s.rows slot).state.busy = true := h.rows.works slot (by rw [hrun]; rfl)
  obtain ⟨hempty, hwriting⟩ := RowState.busy_ne hbusy
  have htorn := h.parents.destroying slot after hrun
  let row : Row := { s.rows slot with document := none, session := none, navigationHops := 0 }
  have hrows : (s.destroyRow slot).rows = update s.rows slot row := rfl
  have hrelevant := relevant_of_update (s := s) (t := s.destroyRow slot) hrows rfl fun p _ =>
    ⟨id, rfl, rfl, rfl⟩
  refine ⟨?_, h.ledgers.destroyRow slot, ?_, ?_, h.taskSeen, h.runSeen⟩
  · refine h.rows.change (k := slot) (w := row) rfl rfl rfl (Nat.le_refl _) (fun _ _ => rfl) ?_
      (h.rows.free hwriting) (fun _ => hbusy) (fun _ => ⟨rfl, rfl⟩)
    exact (h.rows.sane slot).change ⟨rfl, rfl, rfl⟩ ⟨hempty, hwriting⟩ hempty fun _ => ⟨rfl, rfl⟩
  · exact h.logs.setRow (k := slot) (w := row) rfl rfl rfl rfl rfl rfl fun r hr => ⟨hr, .inl rfl⟩
  · refine ⟨h.parents.toBindings.frame hrelevant ?_ (fun _ _ _ => rfl) (fun _ _ hj => hj) rfl, ?_,
      ?_, ?_, ?_⟩
    · intro j p hj _ hparent
      obtain ⟨hj', hkeeps⟩ := hrelevant j p hj hparent
      have hp : p ≠ slot := by
        rintro rfl
        exact htorn j hj' (hkeeps.parent.symm.trans hparent)
      rw [hrows, update_of_ne hp]
    · intro p request hasks
      change s.run.asks = _ at hasks
      rw [hrun] at hasks
      cases hasks
    · intro p hcommits
      change s.run.commits = _ at hcommits
      rw [hrun] at hcommits
      cases hcommits
    · intro p scan after' hcanceling
      change s.run = _ at hcanceling
      rw [hrun] at hcanceling
      cases hcanceling
    · intro p after' hdestroying j hj hparent
      obtain ⟨hj', hkeeps⟩ := hrelevant j p hj hparent
      exact h.parents.destroying p after' hdestroying j hj' (hkeeps.parent.symm.trans hparent)

theorem Inv.install (h : Inv config s) {document : ℕ} {again : Bool}
    (hrun : s.run = .destroying slot (.follow document again))
    (hdocument : (s.rows slot).document = none) (navigationHops : ℕ) :
    Inv config ((s.setRow slot { s.rows slot with
      document := some document
      navigationHops := navigationHops }).goto (.following slot again)) := by
  have hworks : s.run.works = some slot := by rw [hrun]; rfl
  have hserves : s.run.serves = some slot := by rw [hrun]; rfl
  have hbusy : (s.rows slot).state.busy = true := h.rows.works slot hworks
  obtain ⟨hempty, hwriting⟩ := RowState.busy_ne hbusy
  let row : Row := { s.rows slot with
    document := some document
    navigationHops := navigationHops }
  have hrelevant : ∀ j p, ((s.setRow slot row).goto (.following slot again)).relevant j →
      (((s.setRow slot row).goto (.following slot again)).rows j).parent = some (.child p) →
        s.relevant j ∧ (s.rows j).Keeps ((s.setRow slot row).rows j) := by
    intro j p hj hparent
    refine relevant_of_update (s := s) (t := s.setRow slot row) (k := slot) (w := row) rfl rfl
      (fun p _ => ⟨id, rfl, rfl, rfl⟩) j p (hj.imp id hserves.trans) hparent
  refine ⟨?_, ?_, ?_, ?_, h.taskSeen, nofun⟩
  · have hcontrol : Rows config (s.goto (.following slot again)) := by
      refine h.rows.control rfl rfl rfl ?_ (fun k hk => .inl (hworks.trans hk)) nofun
      intro a c ha
      cases a with
      | none => cases ha
      | some i => exact ha
    refine hcontrol.change (k := slot) (w := row) rfl rfl rfl (Nat.le_refl _) (fun _ _ => rfl) ?_
      (hcontrol.free hwriting) (fun _ => hbusy) nofun
    refine (h.rows.sane slot).change ⟨rfl, rfl, rfl⟩ ⟨hempty, hwriting⟩ hempty ?_
    rw [show row.state = (s.rows slot).state from rfl, hbusy]
    exact nofun
  · exact h.ledgers.install (k := slot) rfl rfl (by rw [hrun]; rfl) rfl hdocument rfl rfl rfl
  · have hrow := h.logs.setRow (t := s.setRow slot row) (k := slot) (w := row) rfl rfl rfl rfl rfl
      rfl fun r hr => ⟨hr, .inl rfl⟩
    refine hrow.frame rfl rfl rfl rfl (fun _ _ hr => ⟨hr, .inl rfl⟩)
      (fun k hk => .inl (hserves.trans hk)) fun k _ _ hk => ?_
    change s.run.delivers = some k at hk
    rw [hrun] at hk
    cases hk
  · refine Bindings.parents (h.parents.toBindings.frame hrelevant ?_ (fun _ _ _ => rfl) ?_ ?_)
      ⟨rfl, rfl, rfl⟩
    · exact fun j p _ _ _ => session_of_update (s := s) (t := s.setRow slot row) (k := slot)
        (w := row) rfl rfl p
    · intro j _ hj
      rw [hrun] at hj
      cases hj
    · rw [hrun]
      rfl

theorem Inv.finish (h : Inv config s) (answers : Answers) (hrun : s.run = .destroying slot after) :
    Inv config (s.finish slot answers after) := by
  have hbusy : (s.rows slot).state.busy = true := h.rows.works slot (by rw [hrun]; rfl)
  have hdestroy := h.destroyRow hrun
  let row : Row := { s.rows slot with document := none, session := none, navigationHops := 0 }
  have hrow : (s.destroyRow slot).rows slot = row := update_self _ _ _
  have hrun' : (s.destroyRow slot).run = .destroying slot after := hrun
  cases after with
  | clear =>
    have hgoto : Inv config ((s.destroyRow slot).goto (.row (slot + 1))) := by
      refine hdestroy.goto ⟨rfl, nofun, nofun, ?_, ?_, nofun⟩ ⟨rfl, rfl, rfl⟩ ?_ <;> rw [hrun']
      · intro k hk
        cases hk
      · rfl
      · rfl
    have hwriting : (s.rows slot).state ≠ .writing := (RowState.busy_ne hbusy).2
    refine hgoto.emptyRow (k := slot) ?_ nofun ?_ ?_
    · refine hgoto.rows.free ?_
      show ((s.destroyRow slot).rows slot).state ≠ _
      rw [hrow]
      exact hwriting
    · show ((s.destroyRow slot).rows slot).session = none
      rw [hrow]
    · show ((s.destroyRow slot).rows slot).document = none
      rw [hrow]
  | deliver =>
    have hbare : ∀ k, (Run.consuming slot).bare = some k →
        ((s.destroyRow slot).rows k).session = none ∧
          ((s.destroyRow slot).rows k).document = none := by
      intro k hk
      obtain rfl : slot = k := Option.some_inj.mp hk
      rw [hrow]
      exact ⟨rfl, rfl⟩
    refine hdestroy.goto ⟨rfl, ?_, ?_, ?_, ?_, hbare⟩ ⟨rfl, rfl, rfl⟩ ?_ <;> rw [hrun']
    · exact fun k hk => .inl hk
    · exact fun k hk => .inl hk
    · exact fun k hk => hk
    · rfl
    · rfl
  | follow document again =>
    have hinstall := hdestroy.install hrun (by rw [hrow]) ((s.rows slot).navigationHops + 1)
    have hthere : (((s.destroyRow slot).setRow slot { (s.destroyRow slot).rows slot with
        document := some document
        navigationHops := (s.rows slot).navigationHops + 1 }).rows slot) =
          { (s.destroyRow slot).rows slot with
            document := some document
            navigationHops := (s.rows slot).navigationHops + 1 } := update_self _ _ _
    show Inv config (State.goto (State.initSession _ slot answers) _)
    rw [goto_initSession]
    refine hinstall.initSession ⟨rfl, rfl, rfl⟩ nofun ?_ ?_
    · show (((s.destroyRow slot).setRow slot _).rows slot).state.busy = true
      rw [hthere, hrow]
      exact hbusy
    · show (((s.destroyRow slot).setRow slot _).rows slot).session = none
      rw [hthere, hrow]

/-! ## Completions -/

theorem fillMailbox_eq (row : Row) : ∃ rows, s.fillMailbox row = { s with rows := rows } ∧
    (∀ run, (s.goto run).fillMailbox row = { s with rows := rows, run := run }) ∧
      ∀ k, (rows k).reservation = (s.rows k).reservation := by
  unfold State.fillMailbox
  rcases hparent : row.parent with _ | _ | p
  · exact ⟨s.rows, rfl, fun _ => rfl, fun _ => rfl⟩
  · exact ⟨s.rows, rfl, fun _ => rfl, fun _ => rfl⟩
  · cases hsession : (s.rows p).session with
    | none =>
      refine ⟨s.rows, ?_, fun run => ?_, fun _ => rfl⟩
      · simp only [hsession]
      · simp only [State.goto, hsession]
    | some session =>
      let row : Row := { s.rows p with session := some { session with subdialog := .ready } }
      refine ⟨update s.rows p row, ?_, fun run => ?_, fun k => ?_⟩
      · simp only [hsession]
        rfl
      · simp only [State.goto, hsession]
        rfl
      · rw [update_apply]
        split_ifs with hk
        · rw [hk]
        · rfl

variable (h : Inv config s)
include h

theorem Inv.accept {context : Context} {session : Option ℕ}
    (hrun : s.run = .publishing slot) (hparent : (s.rows slot).parent = some context)
    (hreceiver : ∃ answer ingress, s.receiver (s.rows slot) answer = some (session, ingress)) :
    Inv config { s.fillMailbox (s.rows slot) with
      delivered := (s.rows slot).reservation.toList.map
        (fun r => ⟨r, ⟨context, session, (s.rows slot).generation⟩, s.runs⟩) ++ s.delivered
      run := .closing slot .deliver } := by
  have hstands : s.run.Stands slot := .of_stands (by rw [hrun]; rfl)
  have hbusy := h.busy hstands
  obtain ⟨hempty, hwriting⟩ := RowState.busy_ne hbusy
  obtain ⟨r, hr⟩ := h.rows.reservation hempty hwriting
  have hrelevant : s.relevant slot := .inr hstands.serves
  have hentry := h.logs.entry slot r hr
  -- the receiver is the session that prepared the subdialog
  have horigin : s.origin r = ⟨context, session, (s.rows slot).generation⟩ := by
    obtain ⟨answer, ingress, hreceiver⟩ := hreceiver
    obtain ⟨-, hfrom⟩ := (h.rows.sane slot).known r hr
    have hcontext : context = (s.origin r).context :=
      Option.some_inj.mp (hparent.symm.trans hfrom.parent)
    have hsession : (s.origin r).session = session := by
      unfold State.receiver at hreceiver
      rw [hparent] at hreceiver
      cases context with
      | root =>
        cases hreceiver
        exact hfrom.root hcontext.symm
      | child p =>
        obtain ⟨session', hbound⟩ := h.parents.bound slot p hrelevant
          (by rw [hstands.delivers]; exact nofun) hparent
        simp only [hbound.there, Option.map_some, Option.some.injEq, Prod.mk.injEq] at hreceiver
        rw [hbound.prepared r hr, hreceiver.1]
    rw [hcontext, ← hsession, hfrom.generation]
  have hgoto : Inv config (s.goto (.closing slot .deliver)) := h.move hstands (.closing rfl)
  have hmail : Inv config ((s.goto (.closing slot .deliver)).fillMailbox (s.rows slot)) := by
    unfold State.fillMailbox
    split
    case h_1 p hchild =>
      split
      case h_1 session' hthere =>
        refine hgoto.reply { session' with subdialog := .ready } ⟨rfl, rfl, rfl⟩ nofun hthere ?_ rfl
        intro j hj hdelivers hchild'
        refine hdelivers ?_
        show some slot = some j
        rw [hgoto.parents.alone slot j p (.inr rfl) hj hchild hchild']
      case h_2 => exact hgoto
    case h_2 => exact hgoto
  obtain ⟨rows, hfill, hfill', hreservation⟩ := fillMailbox_eq (s := s) (s.rows slot)
  rw [hfill'] at hmail
  have hlog : Logs { s.goto (.closing slot .deliver) with
      rows := rows
      delivered := ⟨r, ⟨context, session, (s.rows slot).generation⟩, s.runs⟩ :: s.delivered } := by
    refine hmail.logs.deliver (k := slot) ?_ (h.own r hr).1 rfl rfl ?_ ?_ horigin
    · exact (hreservation slot).trans hr
    · exact fun j hj => (h.own r hr).2 j ((hreservation j).symm.trans hj)
    · intro d hd hdr
      have hdelivers := hentry.delivered d hd hdr
      rw [hstands.delivers] at hdelivers
      cases hdelivers
  have hstate : ({ s.fillMailbox (s.rows slot) with
      delivered := (s.rows slot).reservation.toList.map
        (fun r => ⟨r, ⟨context, session, (s.rows slot).generation⟩, s.runs⟩) ++ s.delivered
      run := .closing slot .deliver } : State ι) = { s.goto (.closing slot .deliver) with
      rows := rows
      delivered := ⟨r, ⟨context, session, (s.rows slot).generation⟩, s.runs⟩ :: s.delivered } := by
    rw [hr, hfill]
    rfl
  rw [hstate]
  refine ⟨?_, ?_, hlog, ?_, h.taskSeen, nofun⟩
  · exact hmail.rows.control rfl rfl rfl (fun _ _ ha => ha) (fun _ hk => .inl hk) nofun
  · exact hmail.ledgers.frame rfl rfl fun _ => ⟨rfl, rfl, rfl⟩
  · exact hmail.parents.task (fun j p hj _ => ⟨hj, .refl _⟩) (fun _ => rfl) (fun _ _ _ => rfl) rfl

theorem Inv.publish (hrun : s.run = .publishing slot) (answers : Answers) :
    Inv config (s.publish slot answers) := by
  have hstands : s.run.Stands slot := .of_stands (by rw [hrun]; rfl)
  unfold State.publish
  dsimp only
  split
  case h_1 session ingress context hreceiver hparent =>
    split_ifs
    · exact h.move hstands (.idle slot)
    · exact h.excuse hstands.toPlain hstands.bare_ne (h.busy hstands)
    · split
      · exact h.move hstands (.idle slot)
      · exact h.move hstands (.idle slot)
      · exact h.move hstands (.closing rfl)
      · exact h.move hstands (.closing rfl)
      · exact h.accept hrun hparent ⟨answers.ingress, _, hreceiver⟩
  case h_2 => exact h.move hstands (.idle slot)

variable {run : Run}

theorem Inv.release (hrun : s.run = .consuming slot) (hwithin : run.Within slot)
    (hworks : run.works = none) :
    Inv config ((s.emptyRow slot).goto run) := by
  have hbusy : (s.rows slot).state.busy = true := h.rows.works slot (by rw [hrun]; rfl)
  have hwriting := (RowState.busy_ne hbusy).2
  obtain ⟨hsession, hdocument⟩ := h.rows.bare slot (by rw [hrun]; rfl)
  have hrow : (s.emptyRow slot).rows slot = .blank := update_self _ _ _
  have hserves : run.serves = none := by
    cases hk : run.serves with
    | none => rfl
    | some k =>
      rw [Run.works_of_serves hk] at hworks
      cases hworks
  have hdelivers : ∀ k, s.run.delivers = some k → slot = k := by
    rw [hrun]
    exact fun k hk => Option.some_inj.mp hk
  refine ⟨?_, ?_, ?_, ?_, h.taskSeen, ?_⟩
  · have hcontrol : Rows config (s.goto run) := by
      refine h.rows.control rfl rfl rfl ?_ ?_ fun k hk => absurd hk (hwithin.bare k)
      · intro a c ha
        cases a with
        | none =>
          rw [show (s.goto run).claim none = run.claim from rfl, hwithin.claim] at ha
          cases ha
        | some i => exact ha
      · intro k hk
        rw [show (s.goto run).run.works = run.works from rfl, hworks] at hk
        cases hk
    refine hcontrol.change (k := slot) (w := .blank) rfl rfl rfl (Nat.le_refl _) (fun _ _ => rfl)
      (Row.Sane.of_blank slot _ _) (hcontrol.free hwriting) (fun hk => ?_) fun _ => ⟨rfl, rfl⟩
    rw [show (s.goto run).run.works = run.works from rfl, hworks] at hk
    cases hk
  · refine (h.ledgers.emptyRow hsession hdocument).frame rfl ?_ fun _ => ⟨rfl, rfl, rfl⟩
    show run.hand = s.run.hand
    rw [hwithin.hand, hrun]
    rfl
  · refine h.logs.frame rfl rfl rfl rfl ?_ ?_ ?_
    · intro k r hr
      by_cases hk : k = slot
      · subst hk
        change ((s.emptyRow k).rows k).reservation = some r at hr
        rw [hrow] at hr
        cases hr
      · have hother : ((s.emptyRow slot).goto run).rows k = s.rows k := update_of_ne hk _ _
        rw [hother] at hr ⊢
        exact ⟨hr, .inl rfl⟩
    · intro k hk
      rw [show ((s.emptyRow slot).goto run).run.serves = run.serves from rfl, hserves] at hk
      cases hk
    · intro k r hr hk
      obtain rfl := hdelivers k hk
      change ((s.emptyRow slot).rows slot).reservation = some r at hr
      rw [hrow] at hr
      cases hr
  · have hrelevant : ∀ j, ((s.emptyRow slot).goto run).relevant j → j ≠ slot ∧ s.relevant j := by
      intro j hj
      rcases hj with hlive | hk
      · have hne : j ≠ slot := by
          rintro rfl
          change ((s.emptyRow j).rows j).state.live = true at hlive
          rw [hrow] at hlive
          cases hlive
        have hother : ((s.emptyRow slot).goto run).rows j = s.rows j := update_of_ne hne _ _
        rw [hother] at hlive
        exact ⟨hne, .inl hlive⟩
      · rw [show ((s.emptyRow slot).goto run).run.serves = run.serves from rfl, hserves] at hk
        cases hk
    refine Bindings.parents (h.parents.toBindings.frame ?_ ?_ (fun _ _ _ => rfl) ?_ ?_)
      hwithin.toPlain
    · intro j p hj _
      obtain ⟨hne, hj'⟩ := hrelevant j hj
      have hother : ((s.emptyRow slot).goto run).rows j = s.rows j := update_of_ne hne _ _
      rw [hother]
      exact ⟨hj', .refl _⟩
    · exact fun j p _ _ _ => session_of_update (s := s) (t := s.emptyRow slot) (k := slot)
        (w := .blank) rfl hsession.symm p
    · intro j hj hk
      exact absurd (hdelivers j hk).symm (hrelevant j hj).1
    · rw [hrun]
      exact hwithin.commits
  · intro state hseen
    rw [show ((s.emptyRow slot).goto run).run.seen = run.seen from rfl,
      hwithin.toPlain.seen] at hseen
    cases hseen

theorem Inv.consume (hrun : s.run = .consuming slot) (answers : Answers) :
    Inv config (s.consume slot answers) := by
  have hplain : s.run.Plain := by
    rw [hrun]
    exact ⟨rfl, rfl, rfl⟩
  have hserves : s.relevant slot := .inr (by rw [hrun]; rfl)
  have hend : ∀ t : State ι, Inv config t → t.run = .consuming slot → Inv config
      ((t.emptyRow slot).goto (if answers.fails = true ∨ answers.consumes = false then .idle
        else .row (slot + 1))) := by
    intro t ht hrun'
    split_ifs
    · exact ht.release hrun' (.idle slot) rfl
    · exact ht.release hrun' (.row slot _) rfl
  unfold State.consume
  dsimp only
  split
  case h_1 p hparent =>
    split
    case h_1 session hsession =>
      refine hend _ ?_ ?_
      · by_cases hconsumes : answers.consumes = true
        · rw [if_pos hconsumes]
          refine h.reply ({ session with subdialog := .none }.moved answers) hplain ?_ hsession ?_
            (by simp)
          · rw [hrun]
            intro hbare
            obtain rfl := Option.some_inj.mp hbare
            exact h.rows.apart hserves hparent
          · intro j hj hdelivers hchild
            obtain rfl := h.parents.alone slot j p hserves hj hparent hchild
            exact hdelivers (by rw [hrun]; rfl)
        · rw [if_neg hconsumes]
          exact h
      · split_ifs
        · exact hrun
        · exact hrun
    case h_2 => exact hend s h hrun
  case h_2 => exact hend s h hrun

/-! ## Steps -/

theorem Inv.row (slot : ℕ) (hrun : s.run.works = none) (hplain : s.run.Plain)
    (hwithin : run.Within slot) (hworks : ∀ k, run.works = some k → (s.rows k).state.busy = true)
    (hserves : ∀ k, run.serves = some k → (s.rows k).state = .active) :
    Inv config (s.goto run) := by
  have hnone : s.run.after = none := by
    cases hafter : s.run.after with
    | none => rfl
    | some a =>
      rw [Run.works_of_after hafter] at hrun
      cases hrun
  refine h.goto ⟨hwithin.claim, fun k hk => .inr (hworks k hk), fun k hk => .inr (hserves k hk),
    ?_, ?_, fun k hk => absurd hk (hwithin.bare k)⟩ hwithin.toPlain hplain.commits
  · intro k hk
    rw [Run.delivers, hnone] at hk
    cases hk
  · rw [hwithin.hand, Run.hand, hnone]

theorem Inv.quit (hafter : s.run.after = none)
    (hcommits : s.run.commits = none) : Inv config (s.goto .idle) := by
  refine h.goto ⟨rfl, nofun, nofun, ?_, ?_, nofun⟩ ⟨rfl, rfl, rfl⟩ hcommits
  · intro k hk
    rw [Run.delivers, hafter] at hk
    cases hk
  · show none = s.run.hand
    rw [Run.hand, hafter]

/-- **`run_ready`.** A regular step keeps the invariant. -/
theorem Inv.stepRun {answers : Answers} (hregular : regular config s (.proceed answers) = true)
    (hstep : s.stepRun config answers = some t) : Inv config t := by
  unfold State.stepRun at hstep
  split at hstep
  case h_1 hrun => cases hstep
  case h_2 slot hrun =>
    have hplain : s.run.Plain := by rw [hrun]; exact ⟨rfl, rfl, rfl⟩
    have hworks : s.run.works = none := by rw [hrun]; rfl
    split_ifs at hstep
    · cases hstep
      exact h.row slot hworks hplain (.idle slot) nofun nofun
    · split at hstep
      case h_1 hcanceled =>
        cases hstep
        refine h.row slot hworks hplain (.closing rfl) (fun k hk => ?_) nofun
        obtain rfl : slot = k := Option.some_inj.mp hk
        rw [hcanceled]
        rfl
      case h_2 =>
        cases hstep
        exact h.row slot hworks hplain (.of_works ⟨rfl, rfl, rfl⟩ rfl) nofun nofun
      case h_3 =>
        cases hstep
        exact h.row slot hworks hplain (.of_works ⟨rfl, rfl, rfl⟩ rfl) nofun nofun
      case h_4 =>
        cases hstep
        exact h.row slot hworks hplain (.row slot _) nofun nofun
  case h_3 slot hrun =>
    dsimp only at hstep
    split_ifs at hstep with hstate
    · cases hstep
      exact h.start hrun hstate
    · cases hstep
      exact h.row slot (by rw [hrun]; rfl) (by rw [hrun]; exact ⟨rfl, rfl, rfl⟩)
        (.row slot _) nofun nofun
  case h_4 slot hrun =>
    cases hstep
    have hworks : s.run.works = some slot := by rw [hrun]; rfl
    obtain ⟨hsession, hdocument⟩ := h.rows.bare slot (by rw [hrun]; rfl)
    rw [goto_acquireInitial]
    have hgoto : Inv config (s.goto (.active slot)) := by
      refine h.goto ⟨rfl, nofun, nofun, ?_, ?_, nofun⟩ ⟨rfl, rfl, rfl⟩ ?_ <;> rw [hrun]
      · intro k hk
        cases hk
      · rfl
      · rfl
    exact hgoto.acquireInitial ⟨rfl, rfl, rfl⟩ nofun (h.rows.works slot hworks) hsession hdocument
  case h_5 slot hrun =>
    cases hstep
    have hplain : s.run.Plain := by rw [hrun]; exact ⟨rfl, rfl, rfl⟩
    have hworks : s.run.works = none := by rw [hrun]; rfl
    split_ifs with hactive
    · refine h.row slot hworks hplain (.of_stands rfl) (fun k hk => ?_) fun k hk => ?_
      · obtain rfl : slot = k := Option.some_inj.mp hk
        rw [hactive]
        rfl
      · obtain rfl : slot = k := Option.some_inj.mp hk
        exact hactive
    · exact h.row slot hworks hplain (.row slot _) nofun nofun
  case h_6 slot hrun =>
    have hstands : s.run.Stands slot := .of_stands (by rw [hrun]; rfl)
    dsimp only at hstep
    split at hstep
    · cases hstep
      exact h.move hstands (.of_stands rfl)
    · split at hstep
      case h_1 =>
        cases hstep
        exact h.move hstands (.idle slot)
      case h_2 session hsession =>
        split_ifs at hstep
        · cases hstep
          exact h.move hstands (.of_stands rfl)
        · cases hstep
          exact h.followed hstands false
  case h_7 slot again hrun =>
    have hstands : s.run.Stands slot := .of_stands (by rw [hrun]; rfl)
    split at hstep
    case h_1 =>
      cases hstep
      exact h.followed hstands again
    case h_2 session hsession =>
      split_ifs at hstep
      · cases hstep
        exact h.followNavigation hstands again answers
      · cases hstep
        exact h.followed hstands again
  case h_8 slot hrun =>
    have hstands : s.run.Stands slot := .of_stands (by rw [hrun]; rfl)
    split at hstep
    case h_1 =>
      cases hstep
      exact h.move hstands (.idle slot)
    case h_2 session hsession =>
      cases hstep
      exact h.drive hstands hsession answers
  case h_9 slot request free hrun =>
    obtain ⟨hnext, htake⟩ := h.search hrun
    split_ifs at hstep with hcapacity hempty
    · cases hstep
      exact h.quit (by rw [hrun]; rfl) (by rw [hrun]; rfl)
    · cases hstep
      exact htake (Nat.lt_of_not_le hcapacity) hempty
    · cases hstep
      exact hnext
  case h_10 slot request free hrun =>
    cases hstep
    split_ifs with hcopy
    · exact h.fillChild hrun hcopy
    · have hclaim : s.claim none = some (free, true) := congrArg Run.claim hrun
      obtain ⟨hwriting, -⟩ := h.rows.claimed _ _ _ hclaim
      have hbusy : (s.rows free).state.busy = false := by rw [hwriting]; rfl
      obtain ⟨hsession, hdocument⟩ := (h.rows.sane free).bare hbusy
      have hidle : Inv config (s.goto .idle) := h.quit (by rw [hrun]; rfl) (by rw [hrun]; rfl)
      unfold State.fillRow
      rw [if_neg hcopy]
      refine hidle.emptyRow (k := free) ?_ nofun hsession hdocument
      intro a f ha
      cases a with
      | none => cases ha
      | some i => cases h.rows.exclusive (some i) none free f true ha hclaim
  case h_11 slot free reservation hrun =>
    have hown : commitsRegularly s free reservation = true := by
      simpa only [regular, hrun] using hregular
    split at hstep
    case h_1 hnone =>
      obtain ⟨session, hsession⟩ := h.parents.committing slot (by rw [hrun]; rfl)
      rw [hnone] at hsession
      cases hsession
    case h_2 session hsession =>
      cases hstep
      exact h.commitChild hrun hsession hown
  case h_12 slot hrun =>
    have hstands : s.run.Stands slot := .of_stands (by rw [hrun]; rfl)
    split at hstep
    · cases hstep
      exact h.move hstands (.of_stands rfl)
    · cases hstep
      exact h.move hstands (.row slot _)
    · cases hstep
      exact h.move hstands (.row slot _)
    · cases hstep
      exact h.followed hstands true
  case h_13 slot hrun =>
    cases hstep
    exact h.publish hrun answers
  case h_14 slot after hrun =>
    exact h.close hrun hstep
  case h_15 slot scan after hrun =>
    cases hstep
    exact h.scan hrun (by simpa only [regular, hrun] using hregular)
  case h_16 slot after hrun =>
    cases hstep
    exact h.finish answers hrun
  case h_17 slot hrun =>
    cases hstep
    exact h.consume hrun answers

omit h

end Subdialogs

end TurboScxml.Voice
