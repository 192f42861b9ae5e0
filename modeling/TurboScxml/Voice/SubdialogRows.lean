import Mathlib.Tactic.SplitIfs
import TurboScxml.Voice.SubdialogOwner

/-!
# Rows of a subdialog owner

* `Run.works`, `Run.serves`, `Run.delivers`, `Run.hand`: what `run_ready` does with a row;
* `Row.Sane`: what holds of a row by itself;
* `Rows`: the rows are sane, and each of them is written by one call;
* `Passes`: a move of `run_ready` that takes no other row.
-/

namespace TurboScxml.Voice

open Function

namespace Subdialogs

/-! ## What a call does with a row -/

/-- The row that `run_ready` has made active, or is about to clear. -/
def Run.works : Run → Option ℕ
  | .acquiring slot => some slot
  | .progressing slot => some slot
  | .following slot _ => some slot
  | .driving slot => some slot
  | .searching slot _ _ => some slot
  | .filling slot _ _ => some slot
  | .committing slot _ _ => some slot
  | .driven slot => some slot
  | .publishing slot => some slot
  | .closing slot _ => some slot
  | .canceling slot _ _ => some slot
  | .destroying slot _ => some slot
  | .consuming slot => some slot
  | _ => none

def Run.bare : Run → Option ℕ
  | .acquiring slot => some slot
  | .consuming slot => some slot
  | _ => none

/-- What follows, if `run_ready` tears a row down. -/
def Run.after : Run → Option (ℕ × After)
  | .closing slot after => some (slot, after)
  | .canceling slot _ after => some (slot, after)
  | .destroying slot after => some (slot, after)
  | .consuming slot => some (slot, .deliver)
  | _ => none

/-- The row whose subdialog `run_ready` drives to its completion. -/
def Run.serves (run : Run) : Option ℕ :=
  match run.after with
  | some (_, .clear) => none
  | _ => run.works

def Run.delivers (run : Run) : Option ℕ :=
  match run.after with
  | some (slot, .deliver) => some slot
  | _ => none

/-- The document that `row_follow_navigation` has acquired. -/
def Run.hand (run : Run) : Option ℕ :=
  match run.after with
  | some (_, .follow document _) => some document
  | _ => none

/-- The row that `run_ready` writes, and whether it fills it. -/
def Run.claim : Run → Option (ℕ × Bool)
  | .filling _ _ free => some (free, true)
  | _ => none

/-- The row that an adapter call writes, and whether it fills it. -/
def Task.claim : Task → Option (ℕ × Bool)
  | .filling _ slot => some (slot, true)
  | .discarding slot => some (slot, false)
  | _ => none

variable {run : Run} {k : ℕ}

theorem Run.works_of_serves (h : run.serves = some k) : run.works = some k := by
  unfold Run.serves at h
  split at h
  · cases h
  · exact h

theorem Run.works_of_after {after : After} (h : run.after = some (k, after)) :
    run.works = some k := by
  cases run <;> first
    | (cases h; rfl)
    | cases h

theorem Run.works_of_bare (h : run.bare = some k) : run.works = some k := by
  cases run <;> first
    | exact h
    | cases h

theorem Run.serves_of_delivers (h : run.delivers = some k) : run.serves = some k := by
  unfold Run.delivers at h
  split at h
  · next slot hafter =>
    cases h
    unfold Run.serves
    rw [hafter]
    exact Run.works_of_after hafter
  · cases h

/-- The row that a call writes: `none` stands for `run_ready`. -/
def State.claim {ι : Type} (s : State ι) : Option ι → Option (ℕ × Bool)
  | none => s.run.claim
  | some i => (s.tasks i).claim

/-! ## Invariant -/

def RowState.busy : RowState → Bool
  | .active => true
  | .canceled => true
  | _ => false

/-- The reservation is of its parent and generation. -/
structure Row.From (row : Row) (slot : ℕ) (origin : Origin) : Prop where
  parent : row.parent = some origin.context
  generation : row.generation = origin.generation
  apart : origin.context ≠ .child slot
  root : origin.context = .root → origin.session = none

structure Row.Sane (config : Config) (slot accepted : ℕ) (origin : ℕ → Origin) (row : Row) :
    Prop where
  blank : row.state = .empty → row = .blank
  bound : row.state ≠ .empty → slot < config.capacity
  bare : row.state.busy = false → row.session = none ∧ row.document = none
  reserved : row.state ≠ .empty → row.state ≠ .writing → row.reservation.isSome = true
  known : ∀ r, row.reservation = some r → r < accepted ∧ row.From slot (origin r)

structure Rows {ι : Type} (config : Config) (s : State ι) : Prop where
  sane : ∀ k, (s.rows k).Sane config k s.accepted s.origin
  claimed : ∀ a k fills, s.claim a = some (k, fills) →
    (s.rows k).state = .writing ∧ (fills = true → (s.rows k).reservation = none)
  exclusive : ∀ a b k f g, s.claim a = some (k, f) → s.claim b = some (k, g) → a = b
  works : ∀ k, s.run.works = some k → (s.rows k).state.busy = true
  bare : ∀ k, s.run.bare = some k → (s.rows k).session = none ∧ (s.rows k).document = none

variable {ι : Type} {config : Config} {s : State ι}

variable {slot accepted : ℕ} {origin : ℕ → Origin} {row : Row}

theorem Row.Sane.mono {accepted' : ℕ} {origin' : ℕ → Origin}
    (h : row.Sane config slot accepted origin) (hle : accepted ≤ accepted')
    (horigin : ∀ r, r < accepted → origin' r = origin r) :
    row.Sane config slot accepted' origin' where
  blank := h.blank
  bound := h.bound
  bare := h.bare
  reserved := h.reserved
  known r hr := by
    obtain ⟨hlt, hfrom⟩ := h.known r hr
    rw [horigin r hlt]
    exact ⟨Nat.lt_of_lt_of_le hlt hle, hfrom⟩

theorem Row.Sane.of_blank (slot accepted : ℕ) (origin : ℕ → Origin) :
    Row.blank.Sane config slot accepted origin := by
  constructor <;> simp [Row.blank]

structure Row.Keeps (row row' : Row) : Prop where
  reservation : row'.reservation = row.reservation
  parent : row'.parent = row.parent
  generation : row'.generation = row.generation

theorem Row.Keeps.refl (row : Row) : row.Keeps row := ⟨rfl, rfl, rfl⟩

variable {row' : Row}

theorem Row.Keeps.from {origin : Origin} (h : row.Keeps row') (hfrom : row.From slot origin) :
    row'.From slot origin where
  parent := h.parent.trans hfrom.parent
  generation := h.generation.trans hfrom.generation
  apart := hfrom.apart
  root := hfrom.root

theorem Row.Sane.change (h : row.Sane config slot accepted origin) (hkeeps : row.Keeps row')
    (hstate : row.state ≠ .empty ∧ row.state ≠ .writing) (hstate' : row'.state ≠ .empty)
    (hbare : row'.state.busy = false → row'.session = none ∧ row'.document = none) :
    row'.Sane config slot accepted origin where
  blank hempty := absurd hempty hstate'
  bound _ := h.bound hstate.1
  bare := hbare
  reserved _ _ := by
    rw [hkeeps.reservation]
    exact h.reserved hstate.1 hstate.2
  known r hr := by
    obtain ⟨hlt, hfrom⟩ := h.known r (hkeeps.reservation.symm.trans hr)
    exact ⟨hlt, hkeeps.from hfrom⟩

variable {state : RowState}

theorem RowState.busy_ne (h : state.busy = true) : state ≠ .empty ∧ state ≠ .writing := by
  constructor <;> (rintro rfl; cases h)

theorem RowState.live_ne (h : state.live = true) : state ≠ .empty ∧ state ≠ .writing := by
  constructor <;> (rintro rfl; cases h)

/-! ## Moves -/

/-- `run_ready` moves on, and takes no other row. -/
structure Passes (s : State ι) (run : Run) : Prop where
  claim : run.claim = none
  works : ∀ k, run.works = some k → s.run.works = some k ∨ (s.rows k).state.busy = true
  serves : ∀ k, run.serves = some k → s.run.serves = some k ∨ (s.rows k).state = .active
  delivers : ∀ k, s.run.delivers = some k → run.delivers = some k
  hand : run.hand = s.run.hand
  bare : ∀ k, run.bare = some k → (s.rows k).session = none ∧ (s.rows k).document = none

variable {t : State ι} (h : Rows config s)
include h

theorem Rows.control (hrows : t.rows = s.rows)
    (haccepted : t.accepted = s.accepted) (horigin : t.origin = s.origin)
    (hclaim : ∀ a c, t.claim a = some c → s.claim a = some c)
    (hworks : ∀ k, t.run.works = some k → s.run.works = some k ∨ (s.rows k).state.busy = true)
    (hbare : ∀ k, t.run.bare = some k →
      (s.rows k).session = none ∧ (s.rows k).document = none) : Rows config t := by
  constructor
  · rw [hrows, haccepted, horigin]
    exact h.sane
  · intro a k fills ha
    rw [hrows]
    exact h.claimed a k fills (hclaim a _ ha)
  · exact fun a b k f g ha hb => h.exclusive a b k f g (hclaim a _ ha) (hclaim b _ hb)
  · intro k hk
    rw [hrows]
    exact (hworks k hk).elim (h.works k) id
  · intro k hk
    rw [hrows]
    exact hbare k hk

theorem Rows.goto (hpasses : Passes s run) : Rows config (s.goto run) := by
  refine h.control rfl rfl rfl ?_ hpasses.works hpasses.bare
  intro a c ha
  cases a with
  | none =>
    rw [show (s.goto run).claim none = run.claim from rfl, hpasses.claim] at ha
    cases ha
  | some i => exact ha

theorem Rows.take {a : Option ι} {f : Bool} (hrows : t.rows = s.rows)
    (haccepted : t.accepted = s.accepted) (horigin : t.origin = s.origin)
    (hclaim : ∀ b c, b ≠ a → t.claim b = some c →
      s.claim b = some c) (ha : t.claim a = some (k, f)) (hfree : ∀ b g, s.claim b ≠ some (k, g))
    (hstate : (s.rows k).state = .writing) (hfills : f = true → (s.rows k).reservation = none)
    (hworks : ∀ j, t.run.works = some j → s.run.works = some j)
    (hbare : ∀ j, t.run.bare = some j → s.run.bare = some j) : Rows config t := by
  have hother : ∀ b g, t.claim b = some (k, g) → b = a := by
    intro b g hb
    by_contra hba
    exact hfree b g (hclaim b _ hba hb)
  constructor
  · rw [hrows, haccepted, horigin]
    exact h.sane
  · intro b j g hb
    rw [hrows]
    by_cases hba : b = a
    · rw [hba, ha] at hb
      obtain ⟨rfl, rfl⟩ := Prod.mk.inj (Option.some_inj.mp hb)
      exact ⟨hstate, hfills⟩
    · exact h.claimed b j g (hclaim b _ hba hb)
  · intro b c j f g hb hc
    by_cases hjk : j = k
    · subst hjk
      rw [hother b f hb, hother c g hc]
    · have hne : ∀ d e, t.claim d = some (j, e) → d ≠ a := by
        rintro d e hd rfl
        rw [ha] at hd
        exact hjk (Prod.mk.inj (Option.some_inj.mp hd)).1.symm
      exact h.exclusive b c j f g (hclaim b _ (hne b f hb) hb) (hclaim c _ (hne c g hc) hc)
  · intro j hj
    rw [hrows]
    exact h.works j (hworks j hj)
  · intro j hj
    rw [hrows]
    exact h.bare j (hbare j hj)

theorem Rows.change {w : Row} (hrows : t.rows = update s.rows k w)
    (htasks : t.tasks = s.tasks) (hrun : t.run = s.run) (hle : s.accepted ≤ t.accepted)
    (horigin : ∀ r, r < s.accepted → t.origin r = s.origin r)
    (hsane : w.Sane config k t.accepted t.origin) (hfree : ∀ a f, s.claim a ≠ some (k, f))
    (hworks : s.run.works = some k → w.state.busy = true)
    (hbare : s.run.bare = some k → w.session = none ∧ w.document = none) :
    Rows config t := by
  have hclaim : t.claim = s.claim := by
    funext a
    cases a with
    | none => exact congrArg Run.claim hrun
    | some i => exact congrArg (fun tasks => (tasks i).claim) htasks
  have hne : ∀ a j f, s.claim a = some (j, f) → j ≠ k := by
    rintro a j f ha rfl
    exact hfree a f ha
  constructor
  · intro j
    rw [hrows, update_apply]
    split_ifs with hjk
    · rw [hjk]
      exact hsane
    · exact (h.sane j).mono hle horigin
  · intro a j f ha
    rw [hclaim] at ha
    rw [hrows, update_of_ne (hne a j f ha)]
    exact h.claimed a j f ha
  · rw [hclaim]
    exact h.exclusive
  · intro j hj
    rw [hrun] at hj
    rw [hrows, update_apply]
    split_ifs with hjk
    · exact hworks (hjk ▸ hj)
    · exact h.works j hj
  · intro j hj
    rw [hrun] at hj
    rw [hrows, update_apply]
    split_ifs with hjk
    · exact hbare (hjk ▸ hj)
    · exact h.bare j hj

theorem Rows.free (hk : (s.rows k).state ≠ .writing) (a : Option ι) (f : Bool) :
    s.claim a ≠ some (k, f) := fun ha => hk (h.claimed a k f ha).1

omit h

theorem Rows.init (hrows : ∀ k, s.rows k = .blank) (htasks : ∀ i, s.tasks i = .idle)
    (hrun : s.run = .idle) : Rows config s := by
  have hclaim : ∀ a, s.claim a = none := by
    intro a
    cases a with
    | none => exact congrArg Run.claim hrun
    | some i => exact congrArg Task.claim (htasks i)
  constructor
  · intro k
    rw [hrows k]
    exact Row.Sane.of_blank k _ _
  · intro a k f ha
    rw [hclaim a] at ha
    cases ha
  · intro a b k f g ha
    rw [hclaim a] at ha
    cases ha
  · intro k hk
    rw [hrun] at hk
    cases hk
  · intro k hk
    rw [hrun] at hk
    cases hk

end Subdialogs

end TurboScxml.Voice
