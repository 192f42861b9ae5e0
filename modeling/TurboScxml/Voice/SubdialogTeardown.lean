import TurboScxml.Voice.SubdialogProgress

/-!
# Nested subdialogs

* `Inv.search`, `Inv.fillChild`, `Inv.commitChild`: `owner_prepare` for a child session;
* `Inv.close`, `Inv.scan`: `owner_cancel` before a child session is destroyed.
-/

namespace TurboScxml.Voice

open Function

namespace Subdialogs

variable {ι : Type} {config : Config} {s t : State ι}

/-! ## Preparation -/

variable {run : Run}

theorem Parents.ask (h : Parents s) (hasks : run.asks = s.run.asks)
    (hserves : ∀ j, run.serves = some j → s.run.serves = some j)
    (hdelivers : ∀ j, s.run.delivers = some j → run.delivers = some j)
    (hcommits : s.run.commits = none) (hcommits' : run.commits = none)
    (htears : run.tears = false) :
    Parents (s.goto run) := by
  refine ⟨h.toBindings.goto (fun j hj => .inr (hserves j hj)) hdelivers
    (hcommits'.trans hcommits.symm), ?_, ?_, ?_, ?_⟩
  · intro p request hask
    exact h.asking p request (hasks ▸ hask)
  · intro p hcommit
    rw [show (s.goto run).run.commits = run.commits from rfl, hcommits'] at hcommit
    cases hcommit
  · rintro p scan after rfl
    cases htears
  · rintro p after rfl
    cases htears

variable {slot free : ℕ} {request : Request}

/-- A free row is looked for, and claimed. -/
theorem Inv.search (h : Inv config s) (hrun : s.run = .searching slot request free) :
    Inv config (s.goto (.searching slot request (free + 1))) ∧
      (free < config.capacity → (s.rows free).state = .empty →
        Inv config ((s.setRow free { s.rows free with state := .writing }).goto
          (.filling slot request free))) := by
  constructor
  · have hpasses : Passes s (.searching slot request (free + 1)) := by
      refine ⟨rfl, ?_, ?_, ?_, ?_, fun k hk => by cases hk⟩ <;> rw [hrun]
      · exact fun k hk => .inl hk
      · exact fun k hk => .inl hk
      · intro k hk
        cases hk
      · rfl
    refine ⟨h.rows.goto hpasses, h.ledgers.frame rfl hpasses.hand fun _ => ⟨rfl, rfl, rfl⟩,
      h.logs.goto hpasses, h.parents.ask ?_ ?_ hpasses.delivers ?_ rfl rfl, h.taskSeen, ?_⟩
    · rw [hrun]
      rfl
    · rw [hrun]
      exact fun j hj => hj
    · rw [hrun]
      rfl
    · intro state hseen
      cases hseen
  · intro hbound hempty
    have hwriting : (s.rows free).state ≠ .writing := by rw [hempty]; decide
    have hfree := h.rows.free hwriting
    have hblank := (h.rows.sane free).blank hempty
    have hwrite := h.writeRow hbound (.inl hempty)
    have hrow : (s.setRow free { s.rows free with state := .writing }).rows free =
        { s.rows free with state := .writing } := update_self _ _ _
    refine ⟨?_, ?_, ?_, ?_, h.taskSeen, ?_⟩
    · refine hwrite.rows.take (a := none) (k := free) (f := true) rfl rfl rfl ?_ rfl
        (fun b g hb => hfree b g hb) ?_ ?_ ?_ ?_
      · intro b c hb hc
        cases b with
        | none => exact absurd rfl hb
        | some i => exact hc
      · rw [hrow]
      · rw [hrow, hblank]
        exact fun _ => rfl
      · intro j hj
        rw [show (s.setRow free { s.rows free with state := .writing }).run = s.run from rfl, hrun]
        exact hj
      · intro j hj
        cases hj
    · refine hwrite.ledgers.frame rfl ?_ fun _ => ⟨rfl, rfl, rfl⟩
      show _ = s.run.hand
      rw [hrun]
      rfl
    · refine hwrite.logs.frame rfl rfl rfl rfl (fun _ _ hr => ⟨hr, .inl rfl⟩) (fun j hj => ?_)
        fun j _ _ hj => ?_
      · refine .inl ?_
        show s.run.serves = some j
        rw [hrun]
        exact hj
      · change s.run.delivers = some j at hj
        rw [hrun] at hj
        cases hj
    · refine hwrite.parents.ask ?_ ?_ ?_ ?_ rfl rfl <;>
        rw [show (s.setRow free { s.rows free with state := .writing }).run = s.run from rfl, hrun]
      · rfl
      · exact fun j hj => hj
      · intro j hj
        cases hj
      · rfl
    · intro state hseen
      cases hseen

variable {session : Session}

/-- A row that is filled for a child has the parent that asked for it. -/
theorem Parents.prepare (h : Parents s) {w : Row} (hrows : t.rows = update s.rows free w)
    (hserves : t.run.serves = s.run.serves) (hcommits : t.run.commits = some slot)
    (hcommits' : s.run.commits = none) (hdelivers : s.run.delivers = none) (hslot : slot ≠ free)
    (hempty : (s.rows free).session = none) (hthere : (s.rows slot).session = some session)
    (halone : ∀ j, s.relevant j → (s.rows j).parent ≠ some (.child slot))
    (hparent : w.parent = some (.child slot)) (hgeneration : session.generation = w.generation)
    (hnumber : w.generation ≠ 0)
    (hprepared : ∀ r, w.reservation = some r → (t.origin r).session = some session.number)
    (horigin : ∀ j r, (s.rows j).reservation = some r → t.origin r = s.origin r) :
    Bindings t := by
  have hrow : t.rows free = w := by rw [hrows, update_self]
  have hother : ∀ j, j ≠ free → t.rows j = s.rows j := fun j hj => by rw [hrows, update_of_ne hj]
  have hrelevant : ∀ j, j ≠ free → t.relevant j → s.relevant j := by
    intro j hj hrel
    unfold State.relevant at hrel
    rw [hother j hj, hserves] at hrel
    exact hrel
  constructor
  · intro j p hj _ hchild
    by_cases hjfree : j = free
    · subst hjfree
      rw [hrow, hparent] at hchild
      cases hchild
      refine ⟨session, ?_, ?_, ?_, ?_⟩
      · rw [hother slot hslot]
        exact hthere
      · rw [hrow]
        exact hprepared
      · rw [if_pos hcommits, hrow]
        exact hgeneration
      · rw [hrow]
        exact hnumber
    · have hj' := hrelevant j hjfree hj
      rw [hother j hjfree] at hchild
      have hp : slot ≠ p := by
        rintro rfl
        exact halone j hj' hchild
      obtain ⟨session', hbound⟩ := h.bound j p hj' (by rw [hdelivers]; exact nofun) hchild
      have hpfree : p ≠ free := by
        rintro rfl
        have hsome := hbound.there
        rw [hempty] at hsome
        cases hsome
      refine ⟨session', ?_, ?_, ?_, ?_⟩
      · rw [hother p hpfree]
        exact hbound.there
      · intro r hr
        rw [hother j hjfree] at hr
        rw [horigin j r hr]
        exact hbound.prepared r hr
      · have harmed := hbound.armed
        rw [if_neg (by rw [hcommits']; exact nofun)] at harmed
        rw [if_neg (by rw [hcommits]; exact fun hk => hp (Option.some_inj.mp hk)), hother j hjfree]
        exact harmed
      · rw [hother j hjfree]
        exact hbound.number
  · intro i j p hi hj hchild hchild'
    by_cases hifree : i = free <;> by_cases hjfree : j = free
    · rw [hifree, hjfree]
    · rw [hifree, hrow, hparent] at hchild
      cases hchild
      rw [hother j hjfree] at hchild'
      exact absurd hchild' (halone j (hrelevant j hjfree hj))
    · rw [hjfree, hrow, hparent] at hchild'
      cases hchild'
      rw [hother i hifree] at hchild
      exact absurd hchild (halone i (hrelevant i hifree hi))
    · rw [hother i hifree] at hchild
      rw [hother j hjfree] at hchild'
      exact h.alone i j p (hrelevant i hifree hi) (hrelevant j hjfree hj) hchild hchild'

/-- The claimed row is filled with the request of the child session. -/
theorem Inv.fillChild (h : Inv config s) (hrun : s.run = .filling slot request free)
    (hcopy : copyParams config.maxParamBytes 0 request.params = true) :
    Inv config ((s.fillRow config free (.child slot)
      ((s.rows slot).session.map Session.number) (s.rows slot).depth request).goto
        (.committing slot free s.accepted)) := by
  have hclaim : s.claim none = some (free, true) := by
    show s.run.claim = _
    rw [hrun]
    rfl
  obtain ⟨hwriting, hnone⟩ := h.rows.claimed _ _ _ hclaim
  have hbound := (h.rows.sane free).bound (by rw [hwriting]; decide)
  have hbusy : (s.rows free).state.busy = false := by rw [hwriting]; rfl
  obtain ⟨hsession, hdocument⟩ := (h.rows.sane free).bare hbusy
  have hnumber : (s.rows free).number = none := by rw [Row.number, hsession, Option.map_none]
  have hworks : s.run.works = some slot := by rw [hrun]; rfl
  have hserves : s.run.serves = some slot := by rw [hrun]; rfl
  have hslot : slot ≠ free := by
    rintro rfl
    exact h.rows.not_works hbusy hworks
  obtain ⟨session, hthere, hsubdialog, hgeneration, hzero⟩ :=
    h.parents.asking slot request (by rw [hrun]; rfl)
  -- the session prepares its first subdialog
  have halone : ∀ j, s.relevant j → (s.rows j).parent ≠ some (.child slot) := by
    intro j hj
    refine h.parents.none_of_session ?_ ?_ hj ?_
    · rw [hrun]
      intro hcommits
      cases hcommits
    · intro session' hsome g hflight
      rw [hthere] at hsome
      rw [← Option.some_inj.mp hsome, hsubdialog] at hflight
      cases hflight
    · rw [hrun]
      intro hdelivers
      cases hdelivers
  let row := filledRow (.child slot) (s.rows slot).depth s.accepted request
  unfold State.fillRow
  rw [if_pos hcopy]
  refine ⟨?_, ?_, ?_, ?_, h.taskSeen, ?_⟩
  · have hcontrol : Rows config (s.goto (.committing slot free s.accepted)) := by
      refine h.rows.goto ⟨rfl, ?_, ?_, ?_, ?_, ?_⟩
      · exact fun k hk => .inl (hworks.trans hk)
      · exact fun k hk => .inl (hserves.trans hk)
      · rw [hrun]
        intro k hk
        cases hk
      · rw [hrun]
        rfl
      · intro k hk
        cases hk
    refine hcontrol.change (k := free) (w := row) rfl rfl rfl (Nat.le_succ _)
      (fun r hr => update_of_ne (Nat.ne_of_lt hr) _ _) ?_ ?_ ?_ ?_
    · refine ⟨?_, fun _ => hbound, fun _ => ⟨rfl, rfl⟩, fun _ _ => rfl, ?_⟩
      · intro hempty
        cases hempty
      · intro r hr
        obtain rfl : s.accepted = r := Option.some_inj.mp hr
        refine ⟨Nat.lt_succ_self _, ?_⟩
        show Row.From _ free (update s.origin s.accepted _ s.accepted)
        rw [update_self]
        refine ⟨rfl, rfl, ?_, ?_⟩
        · intro hchild
          exact hslot (Context.child.inj hchild)
        · intro hroot
          cases hroot
    · intro a f ha
      cases a with
      | none => cases ha
      | some i => cases h.rows.exclusive (some i) none free f true ha hclaim
    · intro hk
      exact absurd (Option.some_inj.mp hk) hslot
    · intro hk
      cases hk
  · refine h.ledgers.fill (k := free) (w := row) rfl rfl ?_ (hnone rfl) rfl hnumber.symm
      hdocument.symm
    rw [hrun]
    rfl
  · refine Logs.frame (h.logs.fill (w := row) (o := ⟨.child slot,
      (s.rows slot).session.map Session.number, request.generation⟩) (hnone rfl) rfl rfl ?_) rfl rfl
      rfl rfl (fun _ _ hr => ⟨hr, .inl rfl⟩) (fun j hj => .inl (hserves.trans hj))
      fun j _ _ hj => ?_
    · rw [hserves]
      exact fun hk => hslot (Option.some_inj.mp hk)
    · change s.run.delivers = some j at hj
      rw [hrun] at hj
      cases hj
  · refine ⟨h.parents.prepare (w := row) rfl hserves.symm rfl
      (by rw [hrun]; rfl) (by rw [hrun]; rfl) hslot hsession hthere halone rfl hgeneration hzero ?_
      ?_,
      ?_, ?_, ?_, ?_⟩
    · intro r hr
      obtain rfl : s.accepted = r := Option.some_inj.mp hr
      show (update s.origin s.accepted _ s.accepted).session = _
      rw [update_self, hthere]
      rfl
    · exact fun j r hr => update_of_ne (Nat.ne_of_lt (h.own r hr).1) _ _
    · intro p request' hasks
      cases hasks
    · intro p hcommits
      obtain rfl : slot = p := Option.some_inj.mp hcommits
      refine ⟨session, ?_⟩
      show (update s.rows free row slot).session = _
      rw [update_of_ne hslot]
      exact hthere
    · intro p scan after hcanceling
      cases hcanceling
    · intro p after hdestroying
      cases hdestroying
  · intro state hseen
    cases hseen

variable {reservation : ℕ}

/-- The mailbox of the session that asks is armed with the generation of the request. -/
theorem Inv.arm (h : Inv config s) (hrun : s.run = .committing slot free reservation)
    (hsession : (s.rows slot).session = some session) :
    Inv config
      (s.setSession slot { session with subdialog := .inFlight session.generation }) := by
  let row : Row := { s.rows slot with
    session := some { session with subdialog := .inFlight session.generation } }
  have hrow : update s.rows slot row slot = row := update_self _ _ _
  have hrows : (s.setSession slot { session with
      subdialog := .inFlight session.generation }).rows = update s.rows slot row := rfl
  have hbusy : (s.rows slot).state.busy = true := h.rows.works slot (by rw [hrun]; rfl)
  obtain ⟨hempty, hwriting⟩ := RowState.busy_ne hbusy
  have hrelevant := relevant_of_update (t := s.setSession slot { session with
    subdialog := .inFlight session.generation }) hrows rfl fun p _ => ⟨id, rfl, rfl, rfl⟩
  refine ⟨?_, ?_, ?_, ?_, h.taskSeen, h.runSeen⟩
  · refine h.rows.change (k := slot) (w := row) rfl rfl rfl (Nat.le_refl _) (fun _ _ => rfl) ?_
      (h.rows.free hwriting) (fun _ => hbusy) ?_
    · refine (h.rows.sane slot).change ⟨rfl, rfl, rfl⟩ ⟨hempty, hwriting⟩ hempty ?_
      rw [show row.state = (s.rows slot).state from rfl, hbusy]
      intro hfalse
      cases hfalse
    · rw [hrun]
      intro hbare
      cases hbare
  · refine h.ledgers.setRow (k := slot) (w := row) rfl rfl rfl rfl ?_ rfl
    rw [Row.number, Row.number, hsession]
    rfl
  · exact h.logs.setRow (k := slot) (w := row) rfl rfl rfl rfl rfl rfl fun r hr => ⟨hr, .inl rfl⟩
  · refine ⟨⟨?_, ?_⟩, ?_, ?_, ?_, ?_⟩
    · intro j p hj hdelivers hparent
      obtain ⟨hj', hkeeps⟩ := hrelevant j p hj hparent
      obtain ⟨session', hbound⟩ := h.parents.bound j p hj' hdelivers
        (hkeeps.parent.symm.trans hparent)
      have hprepared : ∀ r, ((s.setSession slot { session with
          subdialog := .inFlight session.generation }).rows j).reservation = some r →
            (s.origin r).session = some session'.number := by
        intro r hr
        rw [hkeeps.reservation] at hr
        exact hbound.prepared r hr
      by_cases hp : p = slot
      · subst hp
        obtain rfl : session = session' := by
          have hthere := hbound.there
          rw [hsession] at hthere
          exact Option.some_inj.mp hthere
        have harmed := hbound.armed
        have hcommits : s.run.commits = some p := by rw [hrun]; rfl
        rw [if_pos hcommits] at harmed
        refine ⟨{ session with subdialog := .inFlight session.generation }, ?_, hprepared, ?_, ?_⟩
        · rw [hrows, hrow]
        · rw [hkeeps.generation]
          show if s.run.commits = some p then session.generation = (s.rows j).generation else _
          rw [if_pos hcommits]
          exact harmed
        · rw [hkeeps.generation]
          exact hbound.number
      · refine ⟨session', ?_, hprepared, ?_, ?_⟩
        · rw [hrows, update_of_ne hp]
          exact hbound.there
        · rw [hkeeps.generation]
          exact hbound.armed
        · rw [hkeeps.generation]
          exact hbound.number
    · intro i j p hi hj hparent hparent'
      obtain ⟨hi', hkeeps⟩ := hrelevant i p hi hparent
      obtain ⟨hj', hkeeps'⟩ := hrelevant j p hj hparent'
      exact h.parents.alone i j p hi' hj' (hkeeps.parent.symm.trans hparent)
        (hkeeps'.parent.symm.trans hparent')
    · intro p request hasks
      change s.run.asks = _ at hasks
      rw [hrun] at hasks
      cases hasks
    · intro p hcommits
      change s.run.commits = _ at hcommits
      rw [hrun] at hcommits
      obtain rfl : slot = p := Option.some_inj.mp hcommits
      exact ⟨_, by rw [hrows, hrow]⟩
    · intro p scan after hcanceling
      change s.run = _ at hcanceling
      rw [hrun] at hcanceling
      cases hcanceling
    · intro p after hdestroying
      change s.run = _ at hdestroying
      rw [hrun] at hdestroying
      cases hdestroying

theorem commitRow_run (k r : ℕ) : (s.commitRow k r).run = s.run := by
  unfold State.commitRow
  dsimp only
  split_ifs <;> rfl

theorem commitRow_session (k r p : ℕ) :
    ((s.commitRow k r).rows p).session = (s.rows p).session := by
  unfold State.commitRow
  dsimp only
  split_ifs
  · exact session_of_update (s := s) (k := k) (w := { s.rows k with state := .pending }) rfl rfl p
  · rfl

/-- The reserved row of a child becomes pending. -/
theorem Inv.commitChild (h : Inv config s) (hrun : s.run = .committing slot free reservation)
    (hsession : (s.rows slot).session = some session)
    (hregular : commitsRegularly s free reservation = true) :
    Inv config (((s.setSession slot { session with
      subdialog := .inFlight session.generation }).commitRow free reservation).goto
        (.driven slot)) := by
  have hfree : (s.rows free).state = .reserved →
      ((s.setSession slot { session with
        subdialog := .inFlight session.generation }).rows free).reservation = some reservation := by
    intro hstate
    have hne : free ≠ slot := by
      rintro rfl
      have hbusy := h.rows.works free (by rw [hrun]; rfl)
      rw [hstate] at hbusy
      cases hbusy
    show (update s.rows slot _ free).reservation = _
    rw [update_of_ne hne]
    exact commits_own hregular hstate
  have harm := h.arm hrun hsession
  let u := s.setSession slot { session with subdialog := .inFlight session.generation }
  have hstate : (u.rows free).state = (s.rows free).state := by
    show (update s.rows slot _ free).state = _
    rw [update_apply]
    split_ifs with hk
    · rw [hk]
    · rfl
  have hcommit : Inv config (u.commitRow free reservation) :=
    harm.commitRow fun hreserved => hfree (hstate ▸ hreserved)
  have hrun' : (u.commitRow free reservation).run = .committing slot free reservation :=
    (commitRow_run free reservation).trans hrun
  have hthere : ((u.commitRow free reservation).rows slot).session =
      some { session with subdialog := .inFlight session.generation } := by
    rw [commitRow_session]
    show (update s.rows slot _ slot).session = _
    rw [update_self]
  show Inv config ((u.commitRow free reservation).goto (.driven slot))
  have hpasses : Passes (u.commitRow free reservation) (.driven slot) := by
    refine ⟨rfl, ?_, ?_, ?_, ?_, fun k hk => by cases hk⟩ <;> rw [hrun']
    · exact fun k hk => .inl hk
    · exact fun k hk => .inl hk
    · intro k hk
      cases hk
    · rfl
  refine ⟨hcommit.rows.goto hpasses, hcommit.ledgers.frame rfl hpasses.hand fun _ =>
    ⟨rfl, rfl, rfl⟩, hcommit.logs.goto hpasses, ?_, hcommit.taskSeen, ?_⟩
  · refine Bindings.parents ⟨?_, ?_⟩ ⟨rfl, rfl, rfl⟩
    · intro j p hj _ hparent
      have hj' : (u.commitRow free reservation).relevant j := by
        refine hj.imp id fun hserves => ?_
        rw [hrun']
        exact hserves
      obtain ⟨session', hbound⟩ := hcommit.parents.bound j p hj' (by rw [hrun']; exact nofun)
        hparent
      refine ⟨session', hbound.there, hbound.prepared, ?_, hbound.number⟩
      have harmed := hbound.armed
      rw [hrun'] at harmed
      by_cases hp : slot = p
      · subst hp
        have heq := hbound.there
        rw [hthere] at heq
        obtain rfl := Option.some_inj.mp heq
        rw [if_pos (show (Run.committing slot free reservation).commits = some slot from rfl)]
          at harmed
        exact congrArg Subdialog.inFlight harmed
      · have hcommits : (Run.committing slot free reservation).commits ≠ some p := fun hk =>
          hp (Option.some_inj.mp hk)
        rw [if_neg hcommits] at harmed
        exact harmed
    · intro i j p hi hj
      have hrelevant : ∀ k, ((u.commitRow free reservation).goto (.driven slot)).relevant k →
          (u.commitRow free reservation).relevant k := by
        refine fun k hk => hk.imp id fun hserves => ?_
        rw [hrun']
        exact hserves
      exact hcommit.parents.alone i j p (hrelevant i hi) (hrelevant j hj)
  · intro state hseen
    cases hseen

/-! ## Cancellation -/

/-- No live row has the session of row `p` as its parent. -/
def State.torn (s : State ι) (p : ℕ) : Prop :=
  ∀ j, s.relevant j → (s.rows j).parent ≠ some (.child p)

variable (h : Inv config s)
include h

/-- A step of a teardown that leaves the rows alone. -/
theorem Inv.tear (hafter : run.after = s.run.after)
    (hworks : run.works = s.run.works) (hclaim : run.claim = none) (hcommits : run.commits = none)
    (hcommits' : s.run.commits = none) (hasks : run.asks = none)
    (hcanceling : ∀ p scan after, run = .canceling p scan after → Scanned s p scan)
    (hdestroying : ∀ p after, run = .destroying p after → s.torn p) (hbare : ∀ k, run.bare ≠ some k)
    (hseen : ∀ state, run.seen = some state → state.live = true) : Inv config (s.goto run) := by
  have hserves : run.serves = s.run.serves := by rw [Run.serves, Run.serves, hafter, hworks]
  have hdelivers : run.delivers = s.run.delivers := by rw [Run.delivers, Run.delivers, hafter]
  have hpasses : Passes s run := by
    refine ⟨hclaim, ?_, ?_, ?_, ?_, fun k hk => absurd hk (hbare k)⟩
    · rw [hworks]
      exact fun k hk => .inl hk
    · rw [hserves]
      exact fun k hk => .inl hk
    · rw [hdelivers]
      exact fun k hk => hk
    · rw [Run.hand, Run.hand, hafter]
  have hrelevant : ∀ j, (s.goto run).relevant j → s.relevant j := by
    intro j hj
    rw [State.relevant, show (s.goto run).run.serves = run.serves from rfl, hserves] at hj
    exact hj
  refine ⟨h.rows.goto hpasses, h.ledgers.frame rfl hpasses.hand fun _ => ⟨rfl, rfl, rfl⟩,
    h.logs.goto hpasses, ?_, h.taskSeen, hseen⟩
  refine ⟨h.parents.toBindings.goto ?_ hpasses.delivers (hcommits.trans hcommits'.symm), ?_, ?_, ?_,
    ?_⟩
  · exact fun j hj => .inr (hserves ▸ hj)
  · intro p request hask
    rw [show (s.goto run).run.asks = run.asks from rfl, hasks] at hask
    cases hask
  · intro p hcommit
    rw [show (s.goto run).run.commits = run.commits from rfl, hcommits] at hcommit
    cases hcommit
  · intro p scan after hrun
    have hscanned := hcanceling p scan after hrun
    exact ⟨hscanned.context, fun j hj => hscanned.rest j (hrelevant j hj)⟩
  · exact fun p after hrun j hj => hdestroying p after hrun j (hrelevant j hj)

variable {j : ℕ}

/-- The parent of a live child has a session that waits for the generation of the child. -/
theorem Inv.bound_child (hdelivers : ∀ k, s.run.delivers = some k →
    slot = k) (hcommits : s.run.commits = none) (hj : s.relevant j)
    (hparent : (s.rows j).parent = some (.child slot)) :
    ∃ session, (s.rows slot).session = some session ∧
      session.subdialog = .inFlight (s.rows j).generation ∧ (s.rows j).generation ≠ 0 := by
  have hne : s.run.delivers ≠ some j := by
    intro hk
    obtain rfl := hdelivers j hk
    exact h.rows.apart hj hparent
  obtain ⟨session, hbound⟩ := h.parents.bound j slot hj hne hparent
  have harmed := hbound.armed
  rw [hcommits, if_neg nofun] at harmed
  exact ⟨session, hbound.there, harmed, hbound.number⟩

variable {after : After}

/-- A session that waits for a child is cancelled before it is destroyed. -/
theorem Inv.close (hrun : s.run = .closing slot after)
    (hstep : (match (s.rows slot).session.map Session.subdialog with
      | some (.inFlight generation) =>
        some (s.goto (if generation = 0 then .destroying slot after
          else .canceling slot ⟨.child slot, generation, 0, none⟩ after))
      | _ => some (s.goto (.destroying slot after))) = some t) : Inv config t := by
  have hdelivers : ∀ k, s.run.delivers = some k → slot = k := by
    rw [hrun]
    intro k hk
    exact Option.some_inj.mp (Run.works_of_serves (Run.serves_of_delivers hk))
  have hcommits : s.run.commits = none := by rw [hrun]; rfl
  have hdestroy : s.torn slot → Inv config (s.goto (.destroying slot after)) := by
    intro htorn
    refine h.tear (by rw [hrun]; rfl) (by rw [hrun]; rfl) rfl rfl hcommits rfl nofun ?_ nofun nofun
    intro p after' hdestroying
    cases hdestroying
    exact htorn
  split at hstep
  case h_1 generation hsubdialog =>
    have hgeneration : ∀ j, s.relevant j → (s.rows j).parent = some (.child slot) →
        (s.rows j).generation = generation ∧ generation ≠ 0 := by
      intro j hj hparent
      obtain ⟨session, hthere, hflight, hzero⟩ := h.bound_child hdelivers hcommits hj hparent
      rw [hthere, Option.map_some, hflight] at hsubdialog
      cases hsubdialog
      exact ⟨rfl, hzero⟩
    cases hstep
    split_ifs with hzero
    · exact hdestroy fun j hj hparent => (hgeneration j hj hparent).2 hzero
    · refine h.tear (by rw [hrun]; rfl) (by rw [hrun]; rfl) rfl rfl hcommits rfl ?_ nofun nofun
        nofun
      intro p scan after' hcanceling
      cases hcanceling
      exact ⟨rfl, fun j hj hparent => ⟨(hgeneration j hj hparent).1, Nat.zero_le j,
        fun hseen => absurd rfl hseen⟩⟩
  case h_2 hsubdialog =>
    cases hstep
    refine hdestroy fun j hj hparent => ?_
    obtain ⟨session, hthere, hflight, -⟩ := h.bound_child hdelivers hcommits hj hparent
    exact hsubdialog _ (by rw [hthere, Option.map_some, hflight])

variable {p : ℕ} (hserves : ∀ k, s.run.serves = some k → p = k)
include hserves

theorem Inv.live_of_child (hj : s.relevant j) (hparent : (s.rows j).parent = some (.child p)) :
    (s.rows j).state.live = true := by
  rcases hj with hlive | hk
  · exact hlive
  · obtain rfl := hserves j hk
    exact absurd hparent (h.rows.apart (.inr hk))

/-- A scan that looks at a row goes on, or has found that no child is left. -/
theorem Inv.look {scan : Scan} (hscanned : Scanned s p scan) (hseen : scan.seen = none) :
    (∀ next, s.look config scan = some next → Scanned s p next) ∧
      (s.look config scan = none → scansRegularly config s scan = true → s.torn p) := by
  have hregular : s.look config scan = none → scan.slot < config.capacity →
      scansRegularly config s scan = true → s.torn p := by
    intro hnone hcapacity hregular j hj hparent
    simp only [scansRegularly, hseen, hnone, Option.isSome_none, Bool.false_or, Bool.or_eq_true,
      decide_eq_true_eq, Nat.not_le.mpr hcapacity, Bool.false_eq_true, false_or,
      Bool.not_eq_true', hidden,
      List.any_eq_false, List.mem_range, Bool.and_eq_true, beq_iff_eq, not_and] at hregular
    refine hregular j (h.rows.relevant_lt hj) ⟨h.live_of_child hserves hj hparent, ?_⟩ ?_
    · rw [hparent, hscanned.context]
    · exact (hscanned.rest j hj hparent).1
  unfold State.look at hregular ⊢
  dsimp only at hregular ⊢
  split_ifs at hregular ⊢ with hcapacity hother hcanceled
  · refine ⟨nofun, fun _ _ j hj hparent => ?_⟩
    have hle := (hscanned.rest j hj hparent).2.1
    exact absurd (h.rows.relevant_lt hj) (Nat.not_lt.mpr (Nat.le_trans hcapacity hle))
  · refine ⟨fun next hnext => ?_, nofun⟩
    cases hnext
    refine ⟨hscanned.context, fun j hj hparent => ?_⟩
    obtain ⟨hgeneration, hle, -⟩ := hscanned.rest j hj hparent
    refine ⟨hgeneration, Nat.lt_of_le_of_ne hle ?_, fun hsome => absurd hseen hsome⟩
    rintro rfl
    obtain ⟨hempty, hwriting⟩ := h.rows.relevant_state hj
    rcases hother with hempty' | hwriting' | hparent' | hgeneration'
    · exact hempty hempty'
    · exact hwriting hwriting'
    · exact hparent' (hscanned.context ▸ hparent)
    · exact hgeneration' hgeneration
  · exact ⟨nofun, fun _ => hregular rfl (Nat.lt_of_not_le hcapacity)⟩
  · refine ⟨fun next hnext => ?_, nofun⟩
    cases hnext
    push Not at hother
    refine ⟨hscanned.context, fun j hj hparent => ?_⟩
    obtain ⟨hgeneration, hle, -⟩ := hscanned.rest j hj hparent
    refine ⟨hgeneration, hle, fun _ => ?_⟩
    have hlive : (s.rows scan.slot).state.live = true := by
      cases hstate : (s.rows scan.slot).state <;> first
        | rfl
        | exact absurd hstate hother.1
        | exact absurd hstate hother.2.1
        | exact absurd hstate hcanceled
    exact h.parents.alone j scan.slot p hj (.inl hlive) hparent (hscanned.context ▸ hother.2.2.1)

/-- A scan that marks a row has found the only child. -/
theorem Inv.marked {scan : Scan} {seen : RowState} (hscanned : Scanned s p scan)
    (hseen : scan.seen = some seen) :
    (∀ next, (s.mark scan seen).2 = some next → Scanned (s.mark scan seen).1 p next) ∧
      ((s.mark scan seen).2 = none → (s.mark scan seen).1.torn p) := by
  have hslot : ∀ j, s.relevant j → (s.rows j).parent = some (.child p) → j = scan.slot :=
    fun j hj hparent => (hscanned.rest j hj hparent).2.2 (by rw [hseen]; exact nofun)
  unfold State.mark
  dsimp only
  split_ifs with hstate hcanceled hlive
  · refine ⟨nofun, fun _ j hj hparent => ?_⟩
    have hback := relevant_of_update (s := s) (t := s.markRow scan.slot) (k := scan.slot)
      (w := { s.rows scan.slot with state := .canceled }) rfl rfl
      (fun q _ => ⟨(fun hfalse => by cases hfalse), rfl, rfl, rfl⟩) j p hj hparent
    obtain ⟨hj', hkeeps⟩ := hback
    have hparent' := hkeeps.parent.symm.trans hparent
    obtain rfl := hslot j hj' hparent'
    rcases hj with hfalse | hk
    · change (update s.rows scan.slot { s.rows scan.slot with state := .canceled }
        scan.slot).state.live = true at hfalse
      rw [update_self] at hfalse
      cases hfalse
    · obtain rfl := hserves _ hk
      exact h.rows.apart hj' hparent'
  · refine ⟨nofun, fun _ j hj hparent => ?_⟩
    have hlive := h.live_of_child hserves hj hparent
    rw [hslot j hj hparent, hcanceled] at hlive
    cases hlive
  · refine ⟨fun next hnext => ?_, nofun⟩
    cases hnext
    refine ⟨hscanned.context, fun j hj hparent => ?_⟩
    obtain ⟨hgeneration, hle, -⟩ := hscanned.rest j hj hparent
    exact ⟨hgeneration, hle, fun _ => hslot j hj hparent⟩
  · refine ⟨fun next hnext => ?_, nofun⟩
    cases hnext
    refine ⟨hscanned.context, fun j hj hparent => ?_⟩
    have hlive' := h.live_of_child hserves hj hparent
    rw [hslot j hj hparent] at hlive'
    exact absurd hlive' hlive

omit hserves

omit h

/-- **The scan over the children** ends with a session that has none. -/
theorem Inv.scan (h : Inv config s) {scan : Scan} (hrun : s.run = .canceling p scan after)
    (hregular : scansRegularly config s scan = true) :
    Inv config ((s.cancelStep config scan).1.goto ((s.cancelStep config scan).2.elim
      (.destroying p after) fun next => .canceling p next after)) := by
  have hscanned := h.parents.canceling p scan after hrun
  have hserves : ∀ k, s.run.serves = some k → p = k := by
    rw [hrun]
    exact fun k hk => Option.some_inj.mp (Run.works_of_serves hk)
  obtain ⟨hinv, hlive⟩ := h.cancelStep scan fun state hseen =>
    h.runSeen state (by rw [hrun]; exact hseen)
  have hrun' : (s.cancelStep config scan).1.run = .canceling p scan after := by
    unfold State.cancelStep State.mark
    dsimp only
    split
    · exact hrun
    · split_ifs <;> exact hrun
  have hstep : (∀ next, (s.cancelStep config scan).2 = some next →
        Scanned (s.cancelStep config scan).1 p next) ∧
      ((s.cancelStep config scan).2 = none → (s.cancelStep config scan).1.torn p) := by
    unfold State.cancelStep
    cases hseen : scan.seen with
    | none =>
      obtain ⟨hnext, hnone⟩ := h.look hserves hscanned hseen
      exact ⟨hnext, fun hlook => hnone hlook hregular⟩
    | some seen => exact h.marked hserves hscanned hseen
  cases hresult : (s.cancelStep config scan).2 with
  | none =>
    refine hinv.tear (by rw [hrun']; rfl) (by rw [hrun']; rfl) rfl rfl (by rw [hrun']; rfl) rfl
      nofun ?_ nofun nofun
    intro q after' hdestroying
    cases hdestroying
    exact hstep.2 hresult
  | some next =>
    refine hinv.tear (by rw [hrun']; rfl) (by rw [hrun']; rfl) rfl rfl (by rw [hrun']; rfl) rfl
      ?_ nofun nofun (hlive next hresult)
    intro q scan' after' hcanceling
    cases hcanceling
    exact hstep.1 next hresult

end Subdialogs

end TurboScxml.Voice
