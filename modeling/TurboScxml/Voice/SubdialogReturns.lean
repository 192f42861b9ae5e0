import Mathlib.Tactic.SplitIfs
import TurboScxml.Voice.SubdialogOwner

/-!
# Calls of run_ready return

A call of `run_ready` takes finitely many steps, whatever the sessions and the store answer.

* `rank`: all of them, the first one first;
* `stepRun_rank`: every step of a call lowers the rank;
* `stepRun_acc`: no call goes on forever.
-/

namespace TurboScxml.Voice

open Function

namespace Subdialogs

variable {ι : Type} {config : Config} {s t : State ι}

/-! ## What is left of a call -/

def Run.slot : Run → Option ℕ
  | .idle | .row _ => none
  | .pending slot | .acquiring slot | .active slot | .progressing slot | .following slot _
  | .driving slot | .searching slot _ _ | .filling slot _ _ | .committing slot _ _ | .driven slot
  | .publishing slot | .closing slot _ | .canceling slot _ _ | .destroying slot _
  | .consuming slot => some slot

variable (config)

def Run.rowsLeft : Run → ℕ
  | .idle => 0
  | .row slot => 2 * (config.capacity - slot) + 1
  | run => 2 * (config.capacity - (run.slot.getD 0 + 1)) + 2

def After.part : After → ℕ
  | .follow _ again => if again then 2 else 8
  | _ => 0

def Run.part : Run → ℕ
  | .pending _ => 12
  | .acquiring _ => 11
  | .active _ => 10
  | .progressing _ => 9
  | .following _ again => if again then 2 else 8
  | .driving _ => 7
  | .searching _ _ _ => 6
  | .filling _ _ _ => 5
  | .committing _ _ _ => 4
  | .driven _ => 3
  | .publishing _ => 1
  | .closing _ after | .canceling _ _ after | .destroying _ after => after.part
  | _ => 0

def navigations (row : Row) : ℕ :=
  if row.session.any (fun session => session.mode = .navigating) then
    2 * (config.maxNavigationHops - row.navigationHops) + 1
  else 0

def After.left (row : Row) : After → ℕ
  | .follow _ _ => 2 * (config.maxNavigationHops - (row.navigationHops + 1)) + 2
  | _ => 0

def left (s : State ι) : ℕ :=
  match s.run with
  | .following slot _ => navigations config (s.rows slot)
  | .searching _ _ free => config.capacity - free
  | .publishing slot => if (s.rows slot).syntheticEvent = none then 1 else 0
  | .closing slot after | .canceling slot _ after | .destroying slot after =>
    after.left config (s.rows slot)
  | _ => 0

def Run.turn : Run → ℕ
  | .closing _ _ => 3
  | .canceling _ _ _ => 2
  | .destroying _ _ => 1
  | _ => 0

def scanRank (s : State ι) (scan : Scan) : ℕ :=
  match scan.seen with
  | none => if config.capacity ≤ scan.slot then 0 else 3 * (config.capacity - scan.slot) + 3
  | some seen =>
    3 * (config.capacity - scan.slot) + if (s.rows scan.slot).state = seen then 1 else 2

def scanLeft (s : State ι) : ℕ :=
  match s.run with
  | .canceling _ scan _ => scanRank config s scan
  | _ => 0

def rank (s : State ι) : ℕ × ℕ × ℕ × ℕ × ℕ :=
  (s.run.rowsLeft config, s.run.part, left config s, s.run.turn, scanLeft config s)

variable {config}

def Less : ℕ × ℕ × ℕ × ℕ × ℕ → ℕ × ℕ × ℕ × ℕ × ℕ → Prop :=
  Prod.Lex (· < ·) (Prod.Lex (· < ·) (Prod.Lex (· < ·) (Prod.Lex (· < ·) (· < ·))))

theorem less_wf : WellFounded Less :=
  (Prod.lex Nat.lt_wfRel (Prod.lex Nat.lt_wfRel
    (Prod.lex Nat.lt_wfRel (Prod.lex Nat.lt_wfRel Nat.lt_wfRel)))).wf

theorem less_rows (h : t.run.rowsLeft config < s.run.rowsLeft config) :
    Less (rank config t) (rank config s) :=
  Prod.Lex.left _ _ h

variable {slot : ℕ}

theorem rowsLeft_of_slot (config : Config) {run : Run} (h : run.slot = some slot) :
    run.rowsLeft config = 2 * (config.capacity - (slot + 1)) + 2 := by
  cases run <;> cases h <;> rfl

theorem less_leave (h : s.run.slot = some slot)
    (hrun : t.run = .idle ∨ t.run = .row (slot + 1)) : Less (rank config t) (rank config s) := by
  refine less_rows ?_
  rw [rowsLeft_of_slot config h]
  rcases hrun with hrun | hrun
  · rw [hrun]
    exact Nat.succ_pos _
  · rw [hrun]
    exact Nat.lt_succ_self _

theorem less_part (h : s.run.slot = some slot) (h' : t.run.slot = some slot)
    (hpart : t.run.part < s.run.part) : Less (rank config t) (rank config s) := by
  have hrows := (rowsLeft_of_slot config h').trans (rowsLeft_of_slot config h).symm
  unfold rank
  rw [hrows]
  exact Prod.Lex.right _ (Prod.Lex.left _ _ hpart)

theorem less_within (h : s.run.slot = some slot) (h' : t.run.slot = some slot)
    (hpart : t.run.part = s.run.part)
    (hless : left config t < left config s ∨ left config t = left config s ∧
      (t.run.turn < s.run.turn ∨ t.run.turn = s.run.turn ∧ scanLeft config t < scanLeft config s)) :
    Less (rank config t) (rank config s) := by
  have hrows := (rowsLeft_of_slot config h').trans (rowsLeft_of_slot config h).symm
  unfold rank
  rw [hrows, hpart]
  refine Prod.Lex.right _ (Prod.Lex.right _ ?_)
  rcases hless with hleft | ⟨hleft, hless⟩
  · exact Prod.Lex.left _ _ hleft
  rw [hleft]
  refine Prod.Lex.right _ ?_
  rcases hless with hturn | ⟨hturn, hscan⟩
  · exact Prod.Lex.left _ _ hturn
  · rw [hturn]
    exact Prod.Lex.right _ hscan

/-! ## The parts of a step -/

theorem followed_rank (again : Bool) (h : s.run.slot = some slot)
    (hpart : (if again then 1 else 7) < s.run.part) :
    Less (rank config (s.followed slot again)) (rank config s) := by
  have hpublish : 1 < s.run.part := by
    cases again with
    | true => exact hpart
    | false => exact Nat.lt_trans (by decide) hpart
  unfold State.followed
  by_cases hevent : (s.rows slot).syntheticEvent.isSome = true
  · rw [if_pos hevent]
    exact less_part h rfl hpublish
  rw [if_neg hevent]
  cases (s.rows slot).session.map Session.mode with
  | none => exact less_part h rfl hpublish
  | some mode =>
    cases mode with
    | submitting => exact less_leave h (.inl rfl)
    | scripting => exact less_leave h (.inl rfl)
    | exited => exact less_part h rfl hpublish
    | running =>
      cases again with
      | true => exact less_leave h (.inr rfl)
      | false => exact less_part h rfl hpart
    | navigating => exact less_part h rfl hpublish
    | failed => exact less_part h rfl hpublish

variable {answers : Answers}

theorem followNavigation_rank {again : Bool} (hrun : s.run = .following slot again)
    (hnavigates : (s.rows slot).session.any (fun session => session.mode = .navigating) = true) :
    Less (rank config (s.followNavigation config slot again answers)) (rank config s) := by
  have hslot : s.run.slot = some slot := by rw [hrun]; rfl
  have hpart : 1 < s.run.part := by
    rw [hrun]
    cases again with
    | true => exact (by decide : 1 < 2)
    | false => exact (by decide : 1 < 8)
  unfold State.followNavigation
  dsimp only
  split_ifs with hfails
  · exact less_leave hslot (.inl rfl)
  · exact less_part hslot rfl hpart
  · exact less_part hslot rfl hpart
  · have hhops : (s.rows slot).navigationHops < config.maxNavigationHops :=
      Nat.lt_of_not_le fun h => hfails (.inl h)
    refine less_within hslot rfl (by rw [hrun]; rfl) (.inl ?_)
    unfold left
    rw [hrun]
    simp only [navigations, if_pos hnavigates, After.left]
    omega

theorem cancelStep_rank {scan next : Scan} (h : (s.cancelStep config scan).2 = some next) :
    scanRank config (s.cancelStep config scan).1 next < scanRank config s scan := by
  unfold State.cancelStep at h ⊢
  cases hseen : scan.seen with
  | none =>
    rw [hseen] at h
    unfold State.look at h
    by_cases hend : config.capacity ≤ scan.slot
    · rw [if_pos hend] at h
      cases h
    dsimp only at h
    split_ifs at h
    · cases h
      simp only [scanRank, hseen, if_neg hend]
      split_ifs <;> omega
    · cases h
      simp only [scanRank, hseen, if_neg hend]
      split_ifs <;> omega
  | some seen =>
    rw [hseen] at h
    unfold State.mark at h ⊢
    dsimp only at h ⊢
    by_cases hsame : (s.rows scan.slot).state = seen
    · rw [if_pos hsame] at h
      cases h
    split_ifs at h ⊢
    · cases h
      simp only [scanRank, hseen, if_neg hsame, if_true]
      omega
    · cases h
      simp only [scanRank, hseen, if_neg hsame]
      split_ifs <;> omega

theorem cancelStep_hops (scan : Scan) (k : ℕ) :
    ((s.cancelStep config scan).1.rows k).navigationHops = (s.rows k).navigationHops := by
  unfold State.cancelStep
  cases scan.seen with
  | none => rfl
  | some seen =>
    unfold State.mark
    dsimp only
    split_ifs
    · unfold State.markRow State.setRow
      by_cases hk : k = scan.slot
      · subst hk
        simp
      · simp [hk]
    · rfl
    · rfl
    · rfl

theorem After.left_congr {row row' : Row} (after : After)
    (h : row.navigationHops = row'.navigationHops) :
    after.left config row = after.left config row' := by
  unfold After.left
  rw [h]

theorem initSession_left (hsession : (s.rows slot).session = none) :
    navigations config ((s.initSession slot answers).rows slot)
      ≤ 2 * (config.maxNavigationHops - (s.rows slot).navigationHops) + 1 := by
  unfold State.initSession
  split_ifs
  · simp [State.setRow, navigations, hsession]
  · simp [State.setRow, navigations, hsession]
  · simp only [State.setRow, update_self, navigations]
    split_ifs <;> omega

theorem finish_rank {after : After} (hrun : s.run = .destroying slot after) :
    Less (rank config (s.finish slot answers after)) (rank config s) := by
  have hslot : s.run.slot = some slot := by rw [hrun]; rfl
  cases after with
  | clear => exact less_leave hslot (.inr rfl)
  | deliver =>
    refine less_within hslot rfl (by rw [hrun]; rfl) (.inr ⟨?_, .inl ?_⟩)
    · unfold left
      rw [hrun]
      rfl
    · rw [hrun]
      exact Nat.succ_pos 0
  | follow document again =>
    refine less_within hslot rfl (by rw [hrun]; rfl) (.inl ?_)
    unfold left
    rw [hrun]
    refine Nat.lt_of_le_of_lt (initSession_left (by simp [State.setRow, State.destroyRow])) ?_
    simp [State.setRow, State.destroyRow, After.left]

/-! ## Steps -/

theorem drive_rank {session : Session} (hrun : s.run = .driving slot) :
    Less (rank config (s.drive config slot session answers)) (rank config s) := by
  have hslot : s.run.slot = some slot := by rw [hrun]; rfl
  have hdriven : 3 < s.run.part := by rw [hrun]; exact (by decide : 3 < 7)
  unfold State.drive
  cases session.subdialog with
  | inFlight generation => exact less_part hslot rfl hdriven
  | ready =>
    split_ifs
    · exact less_leave hslot (.inl rfl)
    · exact less_part hslot rfl hdriven
  | none =>
    cases session.selected with
    | none => exact less_part hslot rfl hdriven
    | some selected =>
      dsimp only
      split_ifs
      · exact less_leave hslot (.inl rfl)
      · exact less_part hslot rfl (by rw [hrun]; exact (by decide : 6 < 7))

theorem publish_rank (hrun : s.run = .publishing slot) :
    Less (rank config (s.publish slot answers)) (rank config s) := by
  have hslot : s.run.slot = some slot := by rw [hrun]; rfl
  have hclosing : 0 < s.run.part := by rw [hrun]; exact (by decide : 0 < 1)
  unfold State.publish
  dsimp only
  cases s.receiver (s.rows slot) answers.ingress with
  | none => exact less_leave hslot (.inl rfl)
  | some receiver =>
    obtain ⟨session, ingress⟩ := receiver
    cases (s.rows slot).parent with
    | none => exact less_leave hslot (.inl rfl)
    | some context =>
      dsimp only
      by_cases hfailed : (s.rows slot).syntheticEvent = none ∧
          ((s.rows slot).session = none ∨ answers.terminal = .failed)
      · rw [if_pos hfailed]
        exact less_leave hslot (.inl rfl)
      rw [if_neg hfailed]
      by_cases hunsupported : (s.rows slot).syntheticEvent = none ∧ answers.terminal = .unsupported
      · rw [if_pos hunsupported]
        refine less_within hslot hslot rfl (.inl ?_)
        simp [left, hrun, State.setRow, hunsupported.1]
      rw [if_neg hunsupported]
      cases ingress with
      | accepted => exact less_part hslot rfl hclosing
      | full => exact less_leave hslot (.inl rfl)
      | stale => exact less_part hslot rfl hclosing
      | closed => exact less_part hslot rfl hclosing
      | other => exact less_leave hslot (.inl rfl)

section Phases

variable (h : s.stepRun config answers = some t)
include h

theorem progressing_rank (hrun : s.run = .progressing slot) :
    Less (rank config t) (rank config s) := by
  have hslot : s.run.slot = some slot := by rw [hrun]; rfl
  have hpart : s.run.part = 9 := by rw [hrun]; rfl
  simp only [State.stepRun, hrun] at h
  by_cases hevent : (s.rows slot).syntheticEvent.isSome = true
  · rw [if_pos hevent] at h
    cases h
    exact less_part hslot rfl (by rw [hpart]; exact (by decide : 1 < 9))
  rw [if_neg hevent] at h
  cases hsession : (s.rows slot).session with
  | none =>
    rw [hsession] at h
    cases h
    exact less_leave hslot (.inl rfl)
  | some session =>
    rw [hsession] at h
    dsimp only at h
    split_ifs at h
    · cases h
      exact less_part hslot rfl (by rw [hpart]; exact (by decide : 8 < 9))
    · cases h
      exact followed_rank false hslot (by rw [hpart]; decide)

theorem following_rank {again : Bool} (hrun : s.run = .following slot again) :
    Less (rank config t) (rank config s) := by
  have hslot : s.run.slot = some slot := by rw [hrun]; rfl
  have hpart : (if again then 1 else 7) < s.run.part := by
    rw [hrun]
    cases again with
    | true => exact (by decide : 1 < 2)
    | false => exact (by decide : 7 < 8)
  simp only [State.stepRun, hrun] at h
  cases hsession : (s.rows slot).session with
  | none =>
    rw [hsession] at h
    cases h
    exact followed_rank again hslot hpart
  | some session =>
    rw [hsession] at h
    dsimp only at h
    split_ifs at h with hnavigating
    · cases h
      exact followNavigation_rank hrun (by rw [hsession]; exact decide_eq_true hnavigating)
    · cases h
      exact followed_rank again hslot hpart

theorem driven_rank (hrun : s.run = .driven slot) : Less (rank config t) (rank config s) := by
  have hslot : s.run.slot = some slot := by rw [hrun]; rfl
  have hfollowed : Less (rank config (s.followed slot true)) (rank config s) :=
    followed_rank true hslot (by rw [hrun]; exact (by decide : 1 < 3))
  simp only [State.stepRun, hrun] at h
  cases hmode : (s.rows slot).session.map Session.mode with
  | none =>
    rw [hmode] at h
    cases h
    exact hfollowed
  | some mode =>
    rw [hmode] at h
    cases mode with
    | navigating =>
      cases h
      exact less_part hslot rfl (by rw [hrun]; exact (by decide : 2 < 3))
    | submitting =>
      cases h
      exact less_leave hslot (.inr rfl)
    | scripting =>
      cases h
      exact less_leave hslot (.inr rfl)
    | running =>
      cases h
      exact hfollowed
    | exited =>
      cases h
      exact hfollowed
    | failed =>
      cases h
      exact hfollowed

theorem closing_rank {after : After} (hrun : s.run = .closing slot after) :
    Less (rank config t) (rank config s) := by
  have hslot : s.run.slot = some slot := by rw [hrun]; rfl
  have hgoto : ∀ run : Run, run.slot = some slot → run.part = after.part →
      left config (s.goto run) = after.left config (s.rows slot) → run.turn < 3 →
      Less (rank config (s.goto run)) (rank config s) := by
    intro run hrun' hpart hleft hturn
    refine less_within hslot hrun' (by rw [hrun]; exact hpart) (.inr ⟨?_, .inl ?_⟩)
    · rw [hleft]
      simp only [left, hrun]
    · rw [hrun]
      exact hturn
  simp only [State.stepRun, hrun] at h
  split at h
  · cases h
    split_ifs
    · exact hgoto _ rfl rfl rfl (by decide : 1 < 3)
    · exact hgoto _ rfl rfl rfl (by decide : 2 < 3)
  · cases h
    exact hgoto _ rfl rfl rfl (by decide : 1 < 3)

theorem canceling_rank {scan : Scan} {after : After} (hrun : s.run = .canceling slot scan after) :
    Less (rank config t) (rank config s) := by
  have hslot : s.run.slot = some slot := by rw [hrun]; rfl
  have hleft : after.left config ((s.cancelStep config scan).1.rows slot)
      = left config s := by
    simp only [left, hrun]
    exact after.left_congr (cancelStep_hops scan slot)
  simp only [State.stepRun, hrun] at h
  cases hnext : (s.cancelStep config scan).2 with
  | none =>
    rw [hnext] at h
    cases h
    refine less_within hslot rfl (by rw [hrun]; rfl) (.inr ⟨hleft, .inl ?_⟩)
    rw [hrun]
    exact (by decide : 1 < 2)
  | some next =>
    rw [hnext] at h
    cases h
    refine less_within hslot rfl (by rw [hrun]; rfl) (.inr ⟨hleft, .inr ⟨by rw [hrun]; rfl, ?_⟩⟩)
    simp only [scanLeft, hrun]
    exact cancelStep_rank hnext

/-- **One step of a call** leaves less to do. -/
theorem stepRun_rank : Less (rank config t) (rank config s) := by
  cases hrun : s.run with
  | idle =>
    simp only [State.stepRun, hrun] at h
    cases h
  | row slot =>
    simp only [State.stepRun, hrun] at h
    have hrows : s.run.rowsLeft config = 2 * (config.capacity - slot) + 1 := by rw [hrun]; rfl
    by_cases hend : config.capacity ≤ slot ∨ answers.resumes = false
    · rw [if_pos hend] at h
      cases h
      exact less_rows (by rw [hrows]; exact Nat.succ_pos _)
    rw [if_neg hend] at h
    have hless : ∀ run : Run, run = .row (slot + 1) ∨ run.slot = some slot →
        run.rowsLeft config < s.run.rowsLeft config := by
      rintro run (rfl | hrun')
      · rw [hrows]
        change 2 * (config.capacity - (slot + 1)) + 1 < _
        omega
      · rw [hrows, rowsLeft_of_slot config hrun']
        omega
    cases hstate : (s.rows slot).state <;> rw [hstate] at h <;> cases h
    · exact less_rows (hless _ (.inl rfl))
    · exact less_rows (hless _ (.inl rfl))
    · exact less_rows (hless _ (.inl rfl))
    · exact less_rows (hless _ (.inr rfl))
    · exact less_rows (hless _ (.inr rfl))
    · exact less_rows (hless _ (.inr rfl))
  | pending slot =>
    have hslot : s.run.slot = some slot := by rw [hrun]; rfl
    simp only [State.stepRun, hrun] at h
    split_ifs at h
    · cases h
      exact less_part hslot rfl (by rw [hrun]; exact (by decide : 11 < 12))
    · cases h
      exact less_leave hslot (.inr rfl)
  | acquiring slot =>
    have hslot : s.run.slot = some slot := by rw [hrun]; rfl
    simp only [State.stepRun, hrun] at h
    cases h
    exact less_part hslot rfl (by rw [hrun]; exact (by decide : 10 < 11))
  | active slot =>
    have hslot : s.run.slot = some slot := by rw [hrun]; rfl
    simp only [State.stepRun, hrun] at h
    split_ifs at h
    · cases h
      exact less_part hslot rfl (by rw [hrun]; exact (by decide : 9 < 10))
    · cases h
      exact less_leave hslot (.inr rfl)
  | progressing slot => exact progressing_rank h hrun
  | following slot again => exact following_rank h hrun
  | driving slot =>
    have hslot : s.run.slot = some slot := by rw [hrun]; rfl
    simp only [State.stepRun, hrun] at h
    cases hsession : (s.rows slot).session with
    | none =>
      rw [hsession] at h
      cases h
      exact less_leave hslot (.inl rfl)
    | some session =>
      rw [hsession] at h
      cases h
      exact drive_rank hrun
  | searching slot request free =>
    have hslot : s.run.slot = some slot := by rw [hrun]; rfl
    simp only [State.stepRun, hrun] at h
    split_ifs at h with hend
    · cases h
      exact less_leave hslot (.inl rfl)
    · cases h
      exact less_part hslot rfl (by rw [hrun]; exact (by decide : 5 < 6))
    · cases h
      refine less_within hslot rfl (by rw [hrun]; rfl) (.inl ?_)
      simp only [left, hrun, State.goto]
      omega
  | filling slot request free =>
    have hslot : s.run.slot = some slot := by rw [hrun]; rfl
    simp only [State.stepRun, hrun] at h
    cases h
    split_ifs
    · exact less_part hslot rfl (by rw [hrun]; exact (by decide : 4 < 5))
    · exact less_leave hslot (.inl rfl)
  | committing slot free reservation =>
    have hslot : s.run.slot = some slot := by rw [hrun]; rfl
    simp only [State.stepRun, hrun] at h
    cases hsession : (s.rows slot).session with
    | none =>
      rw [hsession] at h
      cases h
      exact less_leave hslot (.inl rfl)
    | some session =>
      rw [hsession] at h
      cases h
      exact less_part hslot rfl (by rw [hrun]; exact (by decide : 3 < 4))
  | driven slot => exact driven_rank h hrun
  | publishing slot =>
    simp only [State.stepRun, hrun] at h
    cases h
    exact publish_rank hrun
  | closing slot after => exact closing_rank h hrun
  | canceling slot scan after => exact canceling_rank h hrun
  | destroying slot after =>
    simp only [State.stepRun, hrun] at h
    cases h
    exact finish_rank hrun
  | consuming slot =>
    have hslot : s.run.slot = some slot := by rw [hrun]; rfl
    simp only [State.stepRun, hrun] at h
    cases h
    unfold State.consume
    by_cases hfails : answers.fails = true ∨ answers.consumes = false
    · rw [if_pos hfails]
      exact less_leave hslot (.inl rfl)
    · rw [if_neg hfails]
      exact less_leave hslot (.inr rfl)

end Phases

theorem stepRun_isSome (h : s.run ≠ .idle) : (s.stepRun config answers).isSome = true := by
  unfold State.stepRun
  cases hrun : s.run with
  | idle => exact absurd hrun h
  | row slot =>
    dsimp only
    by_cases hend : config.capacity ≤ slot ∨ answers.resumes = false
    · rw [if_pos hend]
      rfl
    · rw [if_neg hend]
      cases (s.rows slot).state <;> rfl
  | pending slot =>
    dsimp only
    split_ifs <;> rfl
  | progressing slot =>
    dsimp only
    by_cases hevent : (s.rows slot).syntheticEvent.isSome = true
    · rw [if_pos hevent]
      rfl
    · rw [if_neg hevent]
      cases (s.rows slot).session with
      | none => rfl
      | some session =>
        dsimp only
        split_ifs <;> rfl
  | following slot again =>
    dsimp only
    cases (s.rows slot).session with
    | none => rfl
    | some session =>
      dsimp only
      split_ifs <;> rfl
  | driving slot =>
    dsimp only
    cases (s.rows slot).session <;> rfl
  | searching slot request free =>
    dsimp only
    split_ifs <;> rfl
  | committing slot free reservation =>
    dsimp only
    cases (s.rows slot).session <;> rfl
  | driven slot =>
    dsimp only
    cases (s.rows slot).session.map Session.mode with
    | none => rfl
    | some mode => cases mode <;> rfl
  | closing slot after =>
    dsimp only
    split <;> rfl
  | _ => rfl

/-- **No call goes on forever**, whatever is answered. -/
theorem stepRun_acc (config : Config) (s : State ι) :
    Acc (fun t s : State ι => ∃ answers, s.stepRun config answers = some t) s := by
  have hwf : WellFounded (InvImage Less (rank config : State ι → _)) := InvImage.wf _ less_wf
  induction s using hwf.induction with
  | _ s ih =>
    refine Acc.intro s ?_
    rintro t ⟨answers, hstep⟩
    exact ih t (stepRun_rank hstep)

end Subdialogs

end TurboScxml.Voice
