import TurboScxml.Voice.SubdialogParents

/-!
# Adapter calls of a subdialog owner

* `regular`: the steps that neither commit the reservation of another ticket, nor end a cancel at a
  row that was canceled before, with a live row of the same parent and generation behind it;
* `Inv`: what holds in every state of a regular run;
* **`Inv.stepTask`**, `Inv.commitTicket`, `Inv.discardTicket`: the adapter calls keep it.
-/

namespace TurboScxml.Voice

open Function

namespace Subdialogs

/-! ## Regular steps -/

section Regular

variable {ι : Type} (config : Config)

def hidden (s : State ι) (context : Context) (generation : ℕ) : Bool :=
  (List.range config.capacity).any fun k =>
    (s.rows k).state.live && (s.rows k).parent == some context &&
      (s.rows k).generation == generation

/-- `owner_cancel` goes on, or leaves no live row of the parent and the generation. -/
def scansRegularly (s : State ι) (scan : Scan) : Bool :=
  scan.seen.isSome || decide (config.capacity ≤ scan.slot) || (s.look config scan).isSome ||
    !hidden config s scan.context scan.generation

def commitsRegularly (s : State ι) (slot reservation : ℕ) : Bool :=
  (s.rows slot).state != .reserved || (s.rows slot).reservation == some reservation

def regular (s : State ι) : Action ι → Bool
  | .commit i =>
    match s.tasks i with
    | .ticket slot reservation => commitsRegularly s slot reservation
    | _ => true
  | .proceed _ =>
    match s.run with
    | .committing _ free reservation => commitsRegularly s free reservation
    | .canceling _ scan _ => scansRegularly config s scan
    | _ => true
  | _ => true

end Regular

/-! ## Invariant -/

/-- The state that `owner_cancel` or `close` has loaded of a row. -/
def Task.seen : Task → Option RowState
  | .canceling scan => scan.seen
  | .closing _ seen => seen
  | _ => none

def Run.seen : Run → Option RowState
  | .canceling _ scan _ => scan.seen
  | _ => none

structure Inv {ι : Type} (config : Config) (s : State ι) : Prop where
  rows : Rows config s
  ledgers : Ledgers s
  logs : Logs s
  parents : Parents s
  taskSeen : ∀ i state, (s.tasks i).seen = some state → state.live = true
  runSeen : ∀ state, s.run.seen = some state → state.live = true

variable {ι : Type} {config : Config} {s t : State ι} {k : ℕ}

theorem Inv.own (h : Inv config s) (q : ℕ) (hq : (s.rows k).reservation = some q) :
    q < s.accepted ∧ ∀ j, (s.rows j).reservation = some q → j = k :=
  ⟨h.ledgers.reservations.held_lt hq,
    fun j hj => h.ledgers.reservations.unique j k q hj hq⟩

theorem Rows.not_works (h : Rows config s) (hk : (s.rows k).state.busy = false) :
    s.run.works ≠ some k := by
  intro hworks
  rw [h.works k hworks] at hk
  cases hk

theorem Rows.not_bare (h : Rows config s) (hk : (s.rows k).state.busy = false) :
    s.run.bare ≠ some k := fun hbare => h.not_works hk (Run.works_of_bare hbare)

theorem Rows.reservation (h : Rows config s) (hempty : (s.rows k).state ≠ .empty)
    (hwriting : (s.rows k).state ≠ .writing) : ∃ r, (s.rows k).reservation = some r :=
  Option.isSome_iff_exists.mp ((h.sane k).reserved hempty hwriting)

variable {w : Row}

theorem relevant_of_update (hrows : t.rows = update s.rows k w) (hrun : t.run = s.run)
    (hrow : ∀ p, w.parent = some (.child p) →
      (w.state.live = true → (s.rows k).state.live = true) ∧ (s.rows k).Keeps w) :
    ∀ j p, t.relevant j → (t.rows j).parent = some (.child p) →
      s.relevant j ∧ (s.rows j).Keeps (t.rows j) := by
  intro j p hj hparent
  unfold State.relevant at hj
  rw [hrun] at hj
  rw [hrows] at hj hparent ⊢
  by_cases hjk : j = k
  · subst hjk
    rw [update_self] at hj hparent ⊢
    obtain ⟨hlive, hkeeps⟩ := hrow p hparent
    exact ⟨hj.imp hlive id, hkeeps⟩
  · rw [update_of_ne hjk] at hj ⊢
    exact ⟨hj, .refl _⟩

theorem session_of_update (hrows : t.rows = update s.rows k w)
    (hsession : w.session = (s.rows k).session) (p : ℕ) :
    (t.rows p).session = (s.rows p).session := by
  rw [hrows, update_apply]
  split_ifs with hpk
  · rw [hpk, hsession]
  · rfl

/-! ## Steps on a row -/

variable {i : ι}

section Tasks

variable [DecidableEq ι]

theorem claim_setTask (i : ι) (task : Task) (a : Option ι) :
    (s.setTask i task).claim a = if a = some i then task.claim else s.claim a := by
  cases a with
  | none => rfl
  | some j =>
    show (update s.tasks i task j).claim = _
    rw [update_apply]
    simp only [Option.some.injEq]
    split_ifs <;> rfl

variable {task : Task}

theorem seen_setTask (h : ∀ i state, (s.tasks i).seen = some state →
    state.live = true) (hseen : ∀ state, task.seen = some state → state.live = true) (j : ι)
    (state : RowState) (hj : ((s.setTask i task).tasks j).seen = some state) :
    state.live = true := by
  change (update s.tasks i task j).seen = some state at hj
  rw [update_apply] at hj
  split_ifs at hj
  · exact hseen state hj
  · exact h j state hj

theorem Inv.setTask (h : Inv config s) (i : ι) (hclaim : task.claim = none)
    (hseen : ∀ state, task.seen = some state → state.live = true) :
    Inv config (s.setTask i task) where
  rows := by
    refine h.rows.control rfl rfl rfl ?_ (fun _ hk => .inl hk) h.rows.bare
    intro a c ha
    rw [claim_setTask] at ha
    split_ifs at ha
    · rw [hclaim] at ha
      cases ha
    · exact ha
  ledgers := h.ledgers.frame rfl rfl fun _ => ⟨rfl, rfl, rfl⟩
  logs := h.logs.frame rfl rfl rfl rfl (fun _ _ hr => ⟨hr, .inl rfl⟩) (fun _ hk => .inl hk)
    fun _ _ _ hk => hk
  parents := h.parents.task (fun _ _ hj _ => ⟨hj, .refl _⟩) (fun _ => rfl) (fun _ _ _ => rfl) rfl
  taskSeen := seen_setTask h.taskSeen hseen
  runSeen := h.runSeen

theorem Inv.takeRow (h : Inv config s) (i : ι) {f : Bool} (hclaim : task.claim = some (k, f))
    (hfree : ∀ b g, s.claim b ≠ some (k, g)) (hstate : (s.rows k).state = .writing)
    (hfills : f = true → (s.rows k).reservation = none) :
    Inv config (s.setTask i task) where
  rows := by
    refine h.rows.take (a := some i) rfl rfl rfl ?_ ?_ hfree hstate hfills (fun _ hj => hj)
      fun _ hj => hj
    · intro b c hb hc
      rw [claim_setTask, if_neg hb] at hc
      exact hc
    · rw [claim_setTask, if_pos rfl, hclaim]
  ledgers := h.ledgers.frame rfl rfl fun _ => ⟨rfl, rfl, rfl⟩
  logs := h.logs.frame rfl rfl rfl rfl (fun _ _ hr => ⟨hr, .inl rfl⟩) (fun _ hk => .inl hk)
    fun _ _ _ hk => hk
  parents := h.parents.task (fun _ _ hj _ => ⟨hj, .refl _⟩) (fun _ => rfl) (fun _ _ _ => rfl) rfl
  taskSeen := by
    refine seen_setTask h.taskSeen fun state hseen => ?_
    cases task <;> first
      | (cases hclaim; cases hseen)
      | cases hclaim
  runSeen := h.runSeen

end Tasks

theorem Inv.writeRow (h : Inv config s) (hbound : k < config.capacity)
    (hstate : (s.rows k).state = .empty ∨ (s.rows k).state = .reserved) :
    Inv config (s.setRow k { s.rows k with state := .writing }) := by
  have hbusy : (s.rows k).state.busy = false := by rcases hstate with hk | hk <;> rw [hk] <;> rfl
  have hwriting : (s.rows k).state ≠ .writing := by
    rcases hstate with hk | hk <;> rw [hk] <;> decide
  have hcanceled : (s.rows k).state ≠ .canceled := by
    rcases hstate with hk | hk <;> rw [hk] <;> decide
  refine ⟨?_, ?_, ?_, ?_, h.taskSeen, h.runSeen⟩
  · refine h.rows.change (k := k) rfl rfl rfl (Nat.le_refl _) (fun _ _ => rfl) ?_
      (h.rows.free hwriting) (fun hk => absurd hk (h.rows.not_works hbusy))
      fun hk => absurd hk (h.rows.not_bare hbusy)
    refine ⟨?_, fun _ => hbound, fun _ => (h.rows.sane k).bare hbusy, fun _ hne => absurd rfl hne,
      ?_⟩
    · intro hempty
      cases hempty
    · intro r hr
      obtain ⟨hlt, hfrom⟩ := (h.rows.sane k).known r hr
      exact ⟨hlt, hfrom.parent, hfrom.generation, hfrom.apart, hfrom.root⟩
  · exact h.ledgers.setRow (k := k) rfl rfl rfl rfl rfl rfl
  · exact h.logs.setRow (k := k) rfl rfl rfl rfl rfl rfl fun r hr => ⟨hr, .inr ⟨hcanceled, rfl⟩⟩
  · refine h.parents.task (relevant_of_update (k := k) rfl rfl ?_)
      (session_of_update (k := k) rfl rfl) (fun _ _ _ => rfl) rfl
    refine fun p _ => ⟨fun hlive => ?_, rfl, rfl, rfl⟩
    cases hlive

theorem Inv.emptyRow (h : Inv config s) (hfree : ∀ a f, s.claim a ≠ some (k, f))
    (hworks : s.run.works ≠ some k) (hsession : (s.rows k).session = none)
    (hdocument : (s.rows k).document = none) : Inv config (s.emptyRow k) := by
  refine ⟨?_, h.ledgers.emptyRow hsession hdocument, ?_, ?_, h.taskSeen, h.runSeen⟩
  · refine h.rows.change (k := k) rfl rfl rfl (Nat.le_refl _) (fun _ _ => rfl)
      (Row.Sane.of_blank k _ _) hfree (fun hk => absurd hk hworks) fun hk => ⟨rfl, rfl⟩
  · refine h.logs.setRow (k := k) rfl rfl rfl rfl rfl rfl fun r hr => ?_
    cases hr
  · refine h.parents.task (relevant_of_update (k := k) rfl rfl ?_)
      (session_of_update (k := k) rfl hsession.symm) (fun _ _ _ => rfl) rfl
    intro p hp
    cases hp

theorem Inv.markRow (h : Inv config s) (hlive : (s.rows k).state.live = true) :
    Inv config (s.markRow k) := by
  obtain ⟨hempty, hwriting⟩ := RowState.live_ne hlive
  obtain ⟨r, hr⟩ := h.rows.reservation hempty hwriting
  refine ⟨?_, ?_, h.logs.mark hr h.own, ?_, h.taskSeen, h.runSeen⟩
  · refine h.rows.change (k := k) rfl rfl rfl (Nat.le_refl _) (fun _ _ => rfl) ?_
      (h.rows.free hwriting) (fun _ => rfl) (h.rows.bare k)
    refine (h.rows.sane k).change ⟨rfl, rfl, rfl⟩ ⟨hempty, hwriting⟩ ?_ ?_
    · intro hcanceled
      cases hcanceled
    · intro hcanceled
      cases hcanceled
  · exact h.ledgers.setRow (k := k) rfl rfl rfl rfl rfl rfl
  · refine h.parents.task (relevant_of_update (k := k) rfl rfl ?_)
      (session_of_update (k := k) rfl rfl) (fun _ _ _ => rfl) rfl
    exact fun p _ => ⟨fun _ => hlive, rfl, rfl, rfl⟩

theorem Inv.commitRow (h : Inv config s) {r : ℕ}
    (hreservation : (s.rows k).state = .reserved → (s.rows k).reservation = some r) :
    Inv config (s.commitRow k r) := by
  unfold State.commitRow
  dsimp only
  split_ifs with hstate
  · have hwriting : (s.rows k).state ≠ .writing := by rw [hstate]; decide
    have hempty : (s.rows k).state ≠ .empty := by rw [hstate]; decide
    have hbusy : (s.rows k).state.busy = false := by rw [hstate]; rfl
    refine ⟨?_, ?_, h.logs.commit hstate (hreservation hstate) h.own, ?_, h.taskSeen, h.runSeen⟩
    · refine h.rows.change (k := k) rfl rfl rfl (Nat.le_refl _) (fun _ _ => rfl) ?_
        (h.rows.free hwriting) (fun hk => absurd hk (h.rows.not_works hbusy)) (h.rows.bare k)
      refine (h.rows.sane k).change ⟨rfl, rfl, rfl⟩ ⟨hempty, hwriting⟩ ?_ ?_
      · intro hpending
        cases hpending
      · exact fun _ => (h.rows.sane k).bare hbusy
    · exact h.ledgers.setRow (k := k) rfl rfl rfl rfl rfl rfl
    · refine h.parents.task (relevant_of_update (k := k) rfl rfl ?_)
        (session_of_update (k := k) rfl rfl) (fun _ _ _ => rfl) rfl
      refine fun p _ => ⟨fun _ => ?_, rfl, rfl, rfl⟩
      rw [hstate]
      rfl
  · exact h

def filledRow (context : Context) (depth accepted : ℕ) (request : Request) : Row :=
  { Row.blank with
    state := .reserved
    parent := some context
    generation := request.generation
    depth := depth + 1
    src := request.src
    params := request.params
    reservation := some accepted }

theorem Inv.fillRoot (h : Inv config s) {request : Request} (hbound : k < config.capacity)
    (hstate : (s.rows k).state = .writing) (hfree : ∀ a f, s.claim a ≠ some (k, f))
    (hnone : (s.rows k).reservation = none) :
    Inv config (s.fillRow config k .root none 0 request) := by
  have hbusy : (s.rows k).state.busy = false := by rw [hstate]; rfl
  obtain ⟨hsession, hdocument⟩ := (h.rows.sane k).bare hbusy
  have hnumber : (s.rows k).number = none := by rw [Row.number, hsession, Option.map_none]
  have hserves : s.run.serves ≠ some k := fun hk =>
    h.rows.not_works hbusy (Run.works_of_serves hk)
  unfold State.fillRow
  split_ifs
  · refine ⟨?_, ?_, ?_, ?_, h.taskSeen, h.runSeen⟩
    · refine h.rows.change (k := k) (w := filledRow .root 0 s.accepted request) rfl rfl rfl
        (Nat.le_succ _) (fun r hr => update_of_ne (Nat.ne_of_lt hr) _ _) ?_ hfree
        (fun hk => absurd hk (h.rows.not_works hbusy)) fun _ => ⟨rfl, rfl⟩
      refine ⟨?_, fun _ => hbound, fun _ => ⟨rfl, rfl⟩, fun _ _ => rfl, ?_⟩
      · intro hempty
        cases hempty
      · intro r hr
        obtain rfl : s.accepted = r := Option.some_inj.mp hr
        refine ⟨Nat.lt_succ_self _, ?_⟩
        show Row.From _ k (update s.origin s.accepted _ s.accepted)
        rw [update_self]
        refine ⟨rfl, rfl, ?_, fun _ => rfl⟩
        intro hchild
        cases hchild
    · exact h.ledgers.fill (k := k) (w := filledRow .root 0 s.accepted request) rfl rfl rfl hnone
        rfl hnumber.symm hdocument.symm
    · exact h.logs.fill (w := filledRow .root 0 s.accepted request) hnone rfl rfl hserves
    · refine h.parents.task (relevant_of_update (k := k)
        (w := filledRow .root 0 s.accepted request) rfl rfl ?_)
        (session_of_update (k := k) (w := filledRow .root 0 s.accepted request) rfl
          hsession.symm) ?_ rfl
      · intro p hp
        cases hp
      · exact fun j r hr => update_of_ne (Nat.ne_of_lt (h.own r hr).1) _ _
  · exact h.emptyRow hfree (h.rows.not_works hbusy) hsession hdocument

/-! ## Adapter calls -/

variable {scan next : Scan}

theorem look_live (hscan : scan.seen = none) (hlook : s.look config scan = some next)
    (state : RowState) (hseen : next.seen = some state) :
    state.live = true := by
  unfold State.look at hlook
  dsimp only at hlook
  split_ifs at hlook with hcapacity hother hcanceled
  · cases hlook
    rw [show ({ scan with slot := scan.slot + 1 } : Scan).seen = scan.seen from rfl, hscan] at hseen
    cases hseen
  · cases hlook
    cases hseen
    push Not at hother
    cases hstate : (s.rows scan.slot).state <;> first
      | rfl
      | exact absurd hstate hother.1
      | exact absurd hstate hother.2.1
      | exact absurd hstate hcanceled

theorem mark_live {seen : RowState} (hmark : (s.mark scan seen).2 = some next) (state : RowState)
    (hseen : next.seen = some state) : state.live = true := by
  unfold State.mark at hmark
  dsimp only at hmark
  split_ifs at hmark with _ _ hlive
  · cases hmark
    cases hseen
    exact hlive
  · cases hmark
    cases hseen

theorem Inv.cancelStep (h : Inv config s) (scan : Scan)
    (hscan : ∀ state, scan.seen = some state → state.live = true) :
    Inv config (s.cancelStep config scan).1 ∧ ∀ next, (s.cancelStep config scan).2 = some next →
      ∀ state, next.seen = some state → state.live = true := by
  unfold State.cancelStep
  cases hseen : scan.seen with
  | none => exact ⟨h, fun next => look_live hseen⟩
  | some seen =>
    refine ⟨?_, fun next => mark_live⟩
    unfold State.mark
    dsimp only
    split_ifs with hstate
    · exact h.markRow (hstate ▸ hscan seen hseen)
    · exact h
    · exact h
    · exact h

section Calls

variable [DecidableEq ι]

/-- **An adapter call.** Its next step keeps the invariant. -/
theorem Inv.stepTask (h : Inv config s) (hstep : s.stepTask config i = some t) : Inv config t := by
  have hquiet : ∀ state, Task.done.seen = some state → state.live = true := by
    intro state hseen
    cases hseen
  unfold State.stepTask at hstep
  split at hstep
  case h_1 request slot htask =>
    split_ifs at hstep with hcapacity hempty <;> cases hstep
    · exact h.setTask i rfl hquiet
    · have hwriting : (s.rows slot).state ≠ .writing := by rw [hempty]; decide
      have hrow : (s.setRow slot { s.rows slot with state := .writing }).rows slot =
          { s.rows slot with state := .writing } := update_self _ _ _
      have hblank := (h.rows.sane slot).blank hempty
      refine (h.writeRow (Nat.lt_of_not_le hcapacity) (.inl hempty)).takeRow i (k := slot)
        (f := true) rfl ?_ ?_ ?_
      · exact fun b g hb => h.rows.free hwriting b g hb
      · rw [hrow]
      · rw [hrow, hblank]
        exact fun _ => rfl
    · refine h.setTask i rfl fun state hseen => ?_
      cases hseen
  case h_2 request slot htask =>
    cases hstep
    have hclaim : s.claim (some i) = some (slot, true) := congrArg Task.claim htask
    obtain ⟨hwriting, hnone⟩ := h.rows.claimed _ _ _ hclaim
    have hbound := (h.rows.sane slot).bound (by rw [hwriting]; decide)
    have hset : ∀ task : Task, task.claim = none → task.seen = none →
        Inv config ((s.fillRow config slot .root none 0 request).setTask i task) := by
      intro task htask htask'
      have hbase : Inv config (s.setTask i task) := h.setTask i htask fun state hseen => by
        rw [htask'] at hseen
        cases hseen
      have hcomm : (s.fillRow config slot .root none 0 request).setTask i task =
          (s.setTask i task).fillRow config slot .root none 0 request := by
        unfold State.fillRow
        split_ifs <;> rfl
      rw [hcomm]
      refine hbase.fillRoot hbound hwriting ?_ (hnone rfl)
      intro a f ha
      rw [claim_setTask] at ha
      split_ifs at ha with hai
      · rw [htask] at ha
        cases ha
      · exact hai (h.rows.exclusive _ _ _ _ _ ha hclaim)
    split_ifs
    · exact hset _ rfl rfl
    · exact hset _ rfl rfl
  case h_3 slot htask =>
    cases hstep
    have hclaim : s.claim (some i) = some (slot, false) := congrArg Task.claim htask
    obtain ⟨hwriting, -⟩ := h.rows.claimed _ _ _ hclaim
    have hbusy : (s.rows slot).state.busy = false := by rw [hwriting]; rfl
    obtain ⟨hsession, hdocument⟩ := (h.rows.sane slot).bare hbusy
    have hdone : Inv config (s.setTask i .done) := h.setTask i rfl hquiet
    refine hdone.emptyRow (k := slot) ?_
      (h.rows.not_works hbusy) hsession hdocument
    intro a f ha
    rw [claim_setTask] at ha
    split_ifs at ha with hai
    · cases ha
    · exact hai (h.rows.exclusive _ _ _ _ _ ha hclaim)
  case h_4 scan htask =>
    cases hstep
    have hscan : ∀ state, scan.seen = some state → state.live = true := fun state hseen =>
      h.taskSeen i state (by rw [htask]; exact hseen)
    obtain ⟨hnext, hlive⟩ := h.cancelStep scan hscan
    show Inv config ((s.cancelStep config scan).1.setTask i
      ((s.cancelStep config scan).2.elim .done .canceling))
    cases hscanned : (s.cancelStep config scan).2 with
    | none => exact hnext.setTask i rfl hquiet
    | some next => exact hnext.setTask i rfl (hlive next hscanned)
  case h_5 slot htask =>
    split_ifs at hstep with hcapacity hlive <;> cases hstep
    · exact h.setTask i rfl hquiet
    · refine h.setTask i rfl fun state hseen => ?_
      cases hseen
      exact hlive
    · refine h.setTask i rfl fun state hseen => ?_
      cases hseen
  case h_6 slot seen htask =>
    have hlive : seen.live = true := h.taskSeen i seen (by rw [htask]; rfl)
    split_ifs at hstep with hstate <;> cases hstep
    · refine (h.markRow (hstate ▸ hlive)).setTask i rfl fun state hseen => ?_
      cases hseen
    · refine h.setTask i rfl fun state hseen => ?_
      cases hseen
  case h_7 => cases hstep

omit [DecidableEq ι] in
theorem commits_own {slot reservation : ℕ} (h : commitsRegularly s slot reservation = true)
    (hstate : (s.rows slot).state = .reserved) : (s.rows slot).reservation = some reservation := by
  simpa [commitsRegularly, hstate] using h

theorem Inv.commitTicket (h : Inv config s) (hregular : regular config s (.commit i) = true)
    (hstep : s.commitTicket i = some t) :
    Inv config t := by
  unfold State.commitTicket at hstep
  split at hstep
  case h_1 slot reservation htask =>
    cases hstep
    have hown : commitsRegularly s slot reservation = true := by
      simpa only [regular, htask] using hregular
    refine (h.commitRow (commits_own hown)).setTask i rfl fun state hseen => ?_
    cases hseen
  case h_2 => cases hstep

theorem Inv.discardTicket (h : Inv config s) (hstep : s.discardTicket i = some t) :
    Inv config t := by
  unfold State.discardTicket at hstep
  dsimp only at hstep
  split at hstep
  case h_1 slot reservation htask =>
    split_ifs at hstep with hstate <;> cases hstep
    · have hwriting : (s.rows slot).state ≠ .writing := by rw [hstate]; decide
      have hbound := (h.rows.sane slot).bound (by rw [hstate]; decide)
      have hrow : (s.setRow slot { s.rows slot with state := .writing }).rows slot =
          { s.rows slot with state := .writing } := update_self _ _ _
      refine (h.writeRow hbound (.inr hstate)).takeRow i (k := slot) (f := false) rfl ?_ ?_ ?_
      · exact fun b g hb => h.rows.free hwriting b g hb
      · rw [hrow]
      · intro hfalse
        cases hfalse
    · refine h.setTask i rfl fun state hseen => ?_
      cases hseen
  case h_2 => cases hstep

end Calls

end Subdialogs

end TurboScxml.Voice
