import Mathlib.Tactic.SplitIfs
import TurboScxml.Voice.Mailbox

/-!
# Claims of a mailbox

* `regular`: the steps that neither reopen a closed mailbox, nor disarm the generation of another
  completion, nor withdraw a claimed mailbox, nor lose a recording;
* `Claims`: at most one call holds the mailbox, and what it may publish;
* `Claims.goto` … `Claims.unclaimed`: what the steps of a call and of the owner do to the claims.
-/

namespace TurboScxml.Voice

open EffectLog Function

namespace Mailbox

def Pc.holds : Pc → Bool
  | .claimed => true
  | .writing => true
  | .written => true
  | .leaving _ => true
  | _ => false

/-- A call has passed the check behind its claim. -/
def Pc.past : Pc → Bool
  | .writing => true
  | .written => true
  | _ => false

def Pc.active : Pc → Bool
  | .start => false
  | .returned _ => false
  | _ => true

def Owner.shutting : Owner → Bool
  | .closing _ => true
  | .gone => true
  | _ => false

def Owner.holds : Owner → Bool
  | .taken => true
  | .emptied => true
  | .quit => true
  | _ => false

def Consumption.keeps : Consumption → Bool
  | .lose => true
  | .stop => true
  | _ => false

section Claims

variable {C I ρ ι : Type} [DecidableEq ι] (api : Interface C I ρ) (completion : ι → C)

omit [DecidableEq ι] in
/-- A store does not reopen a mailbox or disarm another generation. -/
def leavesRegularly (s : State C I ι) (i : ι) : Bool :=
  if api.stores (completion i) = true then s.cell != .closed
  else s.cell != .writing || s.generation == 0 || s.generation == api.generation (completion i)

omit [DecidableEq ι] in
def consumesRegularly (s : State C I ι) (reply : ρ) : Bool :=
  s.payload.all fun p =>
    !(api.consume s.view s.generation p.2 reply).keeps || !api.lease p.2

omit [DecidableEq ι] in
/-- The owner does not withdraw a held mailbox or lose a recording. -/
def proceedsRegularly (s : State C I ι) (reply : ρ) : Bool :=
  match s.owner with
  | .settling => s.cell != .writing
  | .taken => consumesRegularly api s reply
  | _ => true

omit [DecidableEq ι] in
def regular (s : State C I ι) : Action I ι ρ → Bool
  | .call i =>
    match s.pc i with
    | .leaving _ => leavesRegularly api completion s i
    | _ => true
  | .proceed reply => proceedsRegularly api s reply
  | _ => true

/-- At most one call holds the mailbox. -/
structure Claims (s : State C I ι) : Prop where
  unique : ∀ i j, (s.pc i).holds = true → (s.pc j).holds = true → i = j
  cell : ∀ i, (s.pc i).holds = true → s.cell = .writing ∨ s.cell = .closed
  named : ∀ i, (s.pc i).active = true → api.generation (completion i) ≠ 0
  number : s.owner ≠ .numbered → s.generation = 0 ∨ s.generation = s.armedWith s.epoch
  stored : s.owner = .numbered → s.generation ≠ 0
  committing : s.owner = .committing → s.view.generation ≠ 0
  matching : ∀ i, (s.pc i).past = true → s.cell = .writing →
    api.generation (completion i) = s.armedWith s.epoch
  written : ∀ i, s.pc i = .written → s.cell = .writing → s.payload = some (i, completion i)
  disarmed : s.owner = .committing ∨ s.owner = .numbered → s.cell = .disarmed
  owned : s.owner.holds = true → s.cell = .writing ∧ ∀ i, (s.pc i).holds = false
  closed : s.cell = .closed ↔ s.owner.shutting = true
  ready : s.owner = .closing .ready → ∀ i, (s.pc i).holds = false

variable {api completion} {s s' : State C I ι}

theorem goto_pc (s : State C I ι) (i j : ι) (pc : Pc) :
    (s.goto i pc).pc j = if j = i then pc else s.pc j :=
  update_apply s.pc i pc j

variable {i : ι} {pc : Pc} (h : Claims api completion s)
include h

theorem Claims.goto (hholds : pc.holds = true → (s.pc i).holds = true)
    (hactive : pc.active = true → api.generation (completion i) ≠ 0)
    (hpast : pc.past = true → s.cell = .writing →
      api.generation (completion i) = s.armedWith s.epoch)
    (hwritten : pc = .written → s.cell = .writing → s.payload = some (i, completion i)) :
    Claims api completion (s.goto i pc) := by
  have hback : ∀ j, ((s.goto i pc).pc j).holds = true → (s.pc j).holds = true := by
    intro j hj
    rw [goto_pc] at hj
    split_ifs at hj with hji
    · rw [hji]
      exact hholds hj
    · exact hj
  have hnone : ∀ j, (s.pc j).holds = false → ((s.goto i pc).pc j).holds = false := by
    intro j hj
    by_contra hfalse
    rw [hback j (by simpa using hfalse)] at hj
    cases hj
  constructor
  · exact fun j k hj hk => h.unique j k (hback j hj) (hback k hk)
  · exact fun j hj => h.cell j (hback j hj)
  · intro j hj
    rw [goto_pc] at hj
    split_ifs at hj with hji
    · rw [hji]
      exact hactive hj
    · exact h.named j hj
  · exact h.number
  · exact h.stored
  · exact h.committing
  · intro j hj hcell
    rw [goto_pc] at hj
    split_ifs at hj with hji
    · rw [hji]
      exact hpast hj hcell
    · exact h.matching j hj hcell
  · intro j hj hcell
    rw [goto_pc] at hj
    split_ifs at hj with hji
    · rw [hji]
      exact hwritten hj hcell
    · exact h.written j hj hcell
  · exact h.disarmed
  · exact fun howner => ⟨(h.owned howner).1, fun j => hnone j ((h.owned howner).2 j)⟩
  · exact h.closed
  · exact fun howner j => hnone j (h.ready howner j)

variable {t : State C I ι}

theorem Claims.release {result : Result} (hi : (s.pc i).holds = true)
    (hcell : s.cell = .writing) (hpc : t.pc = update s.pc i (.returned result))
    (hwriting : t.cell ≠ .writing) (hopen : t.cell ≠ .closed)
    (hgeneration : t.generation = s.generation) (harmed : t.armedWith = s.armedWith)
    (hepoch : t.epoch = s.epoch) (howner : t.owner = s.owner) (hview : t.view = s.view) :
    Claims api completion t := by
  have hnone : ∀ j, (t.pc j).holds = false := by
    intro j
    rw [hpc, update_apply]
    split_ifs with hji
    · rfl
    · by_contra hj
      exact hji (h.unique j i (by simpa using hj) hi)
  have hbusy : s.owner ≠ .committing ∧ s.owner ≠ .numbered := by
    refine ⟨fun hc => ?_, fun hc => ?_⟩
    · rw [h.disarmed (.inl hc)] at hcell
      cases hcell
    · rw [h.disarmed (.inr hc)] at hcell
      cases hcell
  have hshut : ¬ s.owner.shutting = true := by
    rw [← h.closed, hcell]
    decide
  constructor
  · intro j k hj
    rw [hnone j] at hj
    cases hj
  · intro j hj
    rw [hnone j] at hj
    cases hj
  · intro j hj
    rw [hpc, update_apply] at hj
    split_ifs at hj with hji
    · cases hj
    · exact h.named j hj
  · rw [howner, hgeneration, harmed, hepoch]
    exact h.number
  · rw [howner, hgeneration]
    exact h.stored
  · rw [howner, hview]
    exact h.committing
  · exact fun _ _ hfalse => absurd hfalse hwriting
  · exact fun _ _ hfalse => absurd hfalse hwriting
  · rw [howner]
    exact fun hc => absurd hc (not_or.mpr hbusy)
  · rw [howner]
    intro hc
    have hfalse := (h.owned hc).2 i
    rw [hi] at hfalse
    cases hfalse
  · rw [howner]
    exact iff_of_false hopen hshut
  · exact fun _ => hnone

/-- **The claim.** -/
theorem Claims.claim (hi : s.pc i = .checked) : Claims api completion (s.claim i) := by
  have hactive : (s.pc i).active = true := by
    rw [hi]
    rfl
  unfold State.claim
  split_ifs with hcell
  · have hfree : ∀ j, (s.pc j).holds = false := by
      intro j
      by_contra hj
      rcases h.cell j (by simpa using hj) with hc | hc <;> rw [hc] at hcell <;> cases hcell
    have hholds : ∀ j, ((({ s with cell := .writing } : State C I ι).goto i .claimed).pc j).holds
        = true → j = i := by
      intro j hj
      rw [goto_pc] at hj
      split_ifs at hj with hji
      · exact hji
      · have hfalse := hfree j
        rw [hj] at hfalse
        cases hfalse
    have howner : s.owner.holds = false := by
      by_contra hc
      rw [(h.owned (by simpa using hc)).1] at hcell
      cases hcell
    have hbusy : ¬ (s.owner = .committing ∨ s.owner = .numbered) := by
      intro hc
      rw [h.disarmed hc] at hcell
      cases hcell
    have hopen : ¬ s.owner.shutting = true := by
      rw [← h.closed, hcell]
      decide
    constructor
    · exact fun j k hj hk => (hholds j hj).trans (hholds k hk).symm
    · exact fun _ _ => .inl rfl
    · intro j hj
      rw [goto_pc] at hj
      split_ifs at hj with hji
      · rw [hji]
        exact h.named i hactive
      · exact h.named j hj
    · exact h.number
    · exact h.stored
    · exact h.committing
    · intro j hj
      rw [goto_pc] at hj
      split_ifs at hj with hji
      · cases hj
      · have hfalse := hfree j
        cases hpc : s.pc j <;> simp [hpc, Pc.past, Pc.holds] at hj hfalse
    · intro j hj
      rw [goto_pc] at hj
      split_ifs at hj with hji
      have hfalse := hfree j
      rw [hj] at hfalse
      cases hfalse
    · exact fun hc => absurd hc hbusy
    · intro hc
      change s.owner.holds = true at hc
      rw [howner] at hc
      cases hc
    · exact iff_of_false (by simp [State.goto]) hopen
    · intro hc
      change s.owner = .closing .ready at hc
      rw [hc] at hopen
      exact absurd rfl hopen
  · exact h.goto (fun hfalse => (by cases hfalse)) (fun hfalse => (by cases hfalse))
      (fun hfalse => (by cases hfalse)) (fun hfalse => (by cases hfalse))

/-- **The exchange of `WRITING` for `READY`.** -/
theorem Claims.publish (hi : s.pc i = .written) :
    Claims api completion (s.publish api completion i) := by
  have hholds : (s.pc i).holds = true := by
    rw [hi]
    rfl
  unfold State.publish
  dsimp only
  split_ifs with hcell hlease
  · exact h.release hholds hcell rfl (by simp [State.goto])
      (by simp [State.goto]) rfl rfl rfl rfl rfl
  · exact h.release hholds hcell rfl (by simp [State.goto])
      (by simp [State.goto]) rfl rfl rfl rfl rfl
  · -- the mailbox is closed, and what is left in it does not matter
    have hscrubbed : Claims api completion { s with
        payload := s.payload.bind fun p =>
          (api.scrub (completion i) p.2).map fun d => (p.1, d) } :=
      { h with written := fun j _ hwriting => absurd hwriting hcell }
    exact hscrubbed.goto (fun hfalse => (by cases hfalse)) (fun hfalse => (by cases hfalse))
      (fun hfalse => (by cases hfalse)) (fun hfalse => (by cases hfalse))

/-- **The end of a claim.** -/
theorem Claims.leave {why : Refusal} (hi : s.pc i = .leaving why)
    (hregular : leavesRegularly api completion s i = true) :
    Claims api completion (s.leave api completion i why) := by
  have hholds : (s.pc i).holds = true := by
    rw [hi]
    rfl
  unfold leavesRegularly at hregular
  unfold State.leave
  dsimp only
  split_ifs with hstores hcell
  · rw [if_pos hstores] at hregular
    have hcell : s.cell = .writing := (h.cell i hholds).resolve_right (by simpa using hregular)
    exact h.release hholds hcell rfl (by simp [State.goto, State.refuse])
      (by simp [State.goto, State.refuse]) rfl rfl rfl rfl
      rfl
  · exact h.release hholds hcell rfl (by simp [State.goto, State.refuse])
      (by simp [State.goto, State.refuse]) rfl rfl rfl rfl rfl
  · exact h.goto (fun hfalse => (by cases hfalse)) (fun hfalse => (by cases hfalse))
      (fun hfalse => (by cases hfalse)) (fun hfalse => (by cases hfalse))

/-- **The payload is written.** -/
theorem Claims.write (hi : s.pc i = .writing) : Claims api completion
      (({ s with payload := some (i, completion i) } : State C I ι).goto i .written) := by
  have hholds : (s.pc i).holds = true := by
    rw [hi]
    rfl
  have hactive := h.named i (by rw [hi]; rfl)
  have hpast : (s.pc i).past = true := by
    rw [hi]
    rfl
  have hwritten : Claims api completion { s with payload := some (i, completion i) } := by
    refine { h with written := fun j hj hcell => ?_ }
    have hji : j = i := h.unique j i (by rw [hj]; rfl) hholds
    rw [hji]
  exact hwritten.goto (fun _ => hholds) (fun _ => hactive) (fun _ => h.matching i hpast)
    (fun _ _ => rfl)

theorem Claims.refuse (i : ι) (why : Refusal) : Claims api completion (s.refuse i why) :=
  h.goto (fun hfalse => (by cases hfalse)) (fun hfalse => (by cases hfalse))
    (fun hfalse => (by cases hfalse)) (fun hfalse => (by cases hfalse))

theorem Claims.check (i : ι) (refused : Option Refusal)
    (hnamed : refused = none → api.generation (completion i) ≠ 0) (hholds : pc.holds = false)
    (hpast : pc.past = false) : Claims api completion (s.check i refused pc) := by
  cases refused with
  | some why => exact h.refuse i why
  | none =>
    refine h.goto (fun hc => ?_) (fun _ => hnamed rfl) (fun hc => ?_) (fun hc => ?_)
    · rw [hholds] at hc
      cases hc
    · rw [hpast] at hc
      cases hc
    · rw [hc] at hpast
      cases hpast

/-- **The check behind the claim.** -/
theorem Claims.recheck (hpc : s.pc i = .claimed) : Claims api completion
      ((api.recheck s.view s.generation (completion i)).elim (s.goto i .writing) fun why =>
        s.goto i (.leaving why)) := by
  have hholds : (s.pc i).holds = true := by
    rw [hpc]
    rfl
  have hnamed := h.named i (by rw [hpc]; rfl)
  cases hrecheck : api.recheck s.view s.generation (completion i) with
  | some why =>
    exact h.goto (fun _ => hholds) (fun _ => hnamed) (fun hfalse => (by cases hfalse))
      (fun hfalse => (by cases hfalse))
  | none =>
    refine h.goto (fun _ => hholds) (fun _ => hnamed) (fun _ hcell => ?_)
      (fun hfalse => (by cases hfalse))
    have hgeneration := api.recheck_generation _ _ _ hrecheck
    have howner : s.owner ≠ .numbered := by
      intro hc
      rw [h.disarmed (.inr hc)] at hcell
      cases hcell
    rcases h.number howner with hzero | harmed
    · exact absurd (hgeneration.trans hzero) hnamed
    · exact hgeneration.trans harmed

omit h

/-! ## The owner -/

variable (h : Claims api completion s)
include h

omit [DecidableEq ι] in
theorem Claims.withOwner (hpc : t.pc = s.pc) (hcell : t.cell = s.cell)
    (hpayload : t.payload = s.payload ∨ s.cell ≠ .writing ∨
      ∀ i, (s.pc i).holds = false) (hgeneration : t.generation = s.generation ∨ t.generation = 0)
    (harmed : t.armedWith = s.armedWith) (hepoch : t.epoch = s.epoch)
    (hidle : t.owner ≠ .committing ∧ t.owner ≠ .numbered) (hnumbered : s.owner ≠ .numbered)
    (hholds : t.owner.holds = true → s.cell = .writing ∧ ∀ i, (s.pc i).holds = false)
    (hshut : t.owner.shutting = s.owner.shutting)
    (hready : t.owner = .closing .ready → ∀ i, (s.pc i).holds = false) :
    Claims api completion t := by
  constructor
  · rw [hpc]
    exact h.unique
  · rw [hpc, hcell]
    exact h.cell
  · rw [hpc]
    exact h.named
  · rw [harmed, hepoch]
    intro _
    rcases hgeneration with hsame | hzero
    · rw [hsame]
      exact h.number hnumbered
    · exact .inl hzero
  · exact fun hc => absurd hc hidle.2
  · exact fun hc => absurd hc hidle.1
  · rw [hpc, hcell, harmed, hepoch]
    exact h.matching
  · intro i hi hwriting
    rw [hpc] at hi
    rw [hcell] at hwriting
    rcases hpayload with hsame | hnone | hfree
    · rw [hsame]
      exact h.written i hi hwriting
    · exact absurd hwriting hnone
    · have hfalse := hfree i
      rw [hi] at hfalse
      cases hfalse
  · exact fun hc => absurd hc (not_or.mpr hidle)
  · rw [hpc, hcell]
    exact hholds
  · rw [hcell, hshut]
    exact h.closed
  · rw [hpc]
    exact hready

omit [DecidableEq ι] in
theorem Claims.free (hwriting : s.cell ≠ .writing)
    (hopen : s.cell ≠ .closed) (i : ι) : (s.pc i).holds = false := by
  by_contra hi
  rcases h.cell i (by simpa using hi) with hcell | hcell
  · exact hwriting hcell
  · exact hopen hcell

omit [DecidableEq ι] in
theorem Claims.unclaimed (hpc : t.pc = s.pc) (hfree : ∀ i, (s.pc i).holds = false)
    (hnumber : t.owner ≠ .numbered → t.generation = 0 ∨ t.generation = t.armedWith t.epoch)
    (hstored : t.owner = .numbered → t.generation ≠ 0)
    (hcommitting : t.owner = .committing → t.view.generation ≠ 0)
    (hdisarmed : t.owner = .committing ∨ t.owner = .numbered → t.cell = .disarmed)
    (howned : t.owner.holds = true → t.cell = .writing)
    (hclosed : t.cell = .closed ↔ t.owner.shutting = true) : Claims api completion t := by
  have hnone : ∀ i, (t.pc i).holds = false := fun i => by rw [hpc]; exact hfree i
  constructor
  · intro i j hi
    rw [hnone i] at hi
    cases hi
  · intro i hi
    rw [hnone i] at hi
    cases hi
  · rw [hpc]
    exact h.named
  · exact hnumber
  · exact hstored
  · exact hcommitting
  · intro i hi
    have hfalse := hnone i
    cases hc : t.pc i <;> simp [hc, Pc.past, Pc.holds] at hi hfalse
  · intro i hi
    have hfalse := hnone i
    rw [hi] at hfalse
    cases hfalse
  · exact hdisarmed
  · exact fun hc => ⟨howned hc, hnone⟩
  · exact hclosed
  · exact fun _ => hnone

omit [DecidableEq ι] in
theorem Claims.settleConsumption (htaken : s.owner = .taken)
    (consumption : Consumption) : Claims api completion (s.settleConsumption api consumption) := by
  obtain ⟨hcell, hfree⟩ := h.owned (by rw [htaken]; rfl)
  have hnumber : s.generation = 0 ∨ s.generation = s.armedWith s.epoch :=
    h.number (by rw [htaken]; decide)
  have hopen : ¬ s.cell = .closed := by rw [hcell]; decide
  have hemptied : ∀ t : State C I ι, t.pc = s.pc → t.cell = s.cell →
      t.generation = s.generation → t.armedWith = s.armedWith → t.epoch = s.epoch →
      t.owner = .emptied → Claims api completion t := by
    intro t hpc hsame hgeneration harmed hepoch howner
    refine h.unclaimed hpc hfree ?_ ?_ ?_ ?_ ?_ ?_
    · rw [hgeneration, harmed, hepoch]
      exact fun _ => hnumber
    · rw [howner]
      exact fun hfalse => (by cases hfalse)
    · rw [howner]
      exact fun hfalse => (by cases hfalse)
    · rw [howner]
      exact fun hfalse => (by simp at hfalse)
    · exact fun _ => hsame.trans hcell
    · rw [howner, hsame]
      exact iff_of_false hopen (by decide)
  cases consumption with
  | discard reset =>
    cases reset with
    | none => exact hemptied _ rfl rfl rfl rfl rfl rfl
    | some slot => exact hemptied _ rfl rfl rfl rfl rfl rfl
  | adopt slot => exact hemptied _ rfl rfl rfl rfl rfl rfl
  | lose => exact hemptied _ rfl rfl rfl rfl rfl rfl
  | stop =>
    exact h.unclaimed rfl hfree (fun _ => hnumber) (fun hfalse => (by cases hfalse))
      (fun hfalse => (by cases hfalse))
      (fun hfalse => (by simp [State.settleConsumption] at hfalse))
      (fun hfalse => (by cases hfalse))
      (iff_of_false hopen Bool.false_ne_true)

omit h

omit [DecidableEq ι] in
theorem Claims.of_init (h : Init s) : Claims api completion s := by
  obtain ⟨hcell, howner, -, -, hpc, hgeneration, -⟩ := h
  constructor <;> simp [hcell, howner, hpc, hgeneration, Pc.holds, Pc.past, Pc.active,
    Owner.holds, Owner.shutting]

end Claims

end Mailbox

end TurboScxml.Voice
