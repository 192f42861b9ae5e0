import TurboScxml.Voice.MailboxClaims

/-!
# Accepted and consumed completions

* `Records`: every generation has at most one accepted completion, which has the number of the
  generation; a ready mailbox holds the payload of the accepted one, and what `run_ready` consumed
  was accepted;
* `Records.goto` … `Records.settleConsumption`: what the steps do to the records.
-/

namespace TurboScxml.Voice

open EffectLog Function

namespace Mailbox

section Records

variable {C I ρ ι : Type} (api : Interface C I ρ) (completion : ι → C)

/-- A call has claimed the mailbox, and neither the owner nor a closing took it away. -/
def State.claimed (s : State C I ι) : Prop := s.cell = .writing ∧ ∃ i, (s.pc i).holds = true

/-- The payload is that of the accepted completion. -/
def State.loaded (s : State C I ι) : Prop :=
  s.cell = .ready ∨ s.owner = .taken ∨ s.owner = .closing .ready

structure Records (s : State C I ι) : Prop where
  armed : ∀ p ∈ s.accepted, p.1 ≤ s.epoch ∧
    api.generation (completion p.2) = s.armedWith p.1 ∧ s.pc p.2 = .returned .accepted
  back : ∀ i, s.pc i = .returned .accepted → ∃ e, (e, i) ∈ s.accepted
  once : (s.accepted.map Prod.fst).Nodup
  calls : (s.accepted.map Prod.snd).Nodup
  fresh : s.cell = .empty ∨ s.claimed → ∀ p ∈ s.accepted, p.1 ≠ s.epoch
  loaded : s.loaded → ∃ i, s.payload = some (i, completion i) ∧ (s.epoch, i) ∈ s.accepted
  waiting : s.cell = .ready → ∀ p ∈ s.consumed, p.1 ≠ s.epoch
  consumed : ∀ p ∈ s.consumed, p.2.2 = completion p.2.1 ∧ (p.1, p.2.1) ∈ s.accepted
  consumedOnce : (s.consumed.map Prod.fst).Nodup
  awaiting : s.awaiting = true →
    s.generation ≠ 0 ∧ s.generation = s.armedWith s.epoch ∧ (s.cell = .empty ∨ s.claimed)
  settling : s.owner = .settling → s.generation = 0

variable {api completion} {s s' : State C I ι} {i : ι}

theorem Claims.not_loaded (h : Claims api completion s) (hi : (s.pc i).holds = true) :
    ¬ s.loaded := by
  rintro (hcell | howner | howner)
  · rcases h.cell i hi with hc | hc <;> rw [hc] at hcell <;> cases hcell
  · have hfalse := (h.owned (by rw [howner]; rfl)).2 i
    rw [hi] at hfalse
    cases hfalse
  · have hfalse := h.ready howner i
    rw [hi] at hfalse
    cases hfalse

/-! ## Calls -/

section Calls

variable [DecidableEq ι] {pc : Pc} (h : Records api completion s)
include h

variable (hlive : s.pc i ≠ .returned .accepted)
include hlive

theorem Records.goto
    (hpc : pc ≠ .returned .accepted) (hholds : pc.holds = (s.pc i).holds ∨ s.cell ≠ .writing) :
    Records api completion (s.goto i pc) := by
  have hother : ∀ p ∈ s.accepted, p.2 ≠ i := by
    rintro p hp rfl
    exact hlive (h.armed p hp).2.2
  have hclaimed : (s.goto i pc).claimed ↔ s.claimed := by
    rcases hholds with hsame | hwriting
    · have hpcs : ∀ j, ((s.goto i pc).pc j).holds = (s.pc j).holds := by
        intro j
        rw [goto_pc]
        split_ifs with hji
        · rw [hji, hsame]
        · rfl
      exact and_congr_right fun _ => exists_congr fun j => by rw [hpcs j]
    · exact iff_of_false (fun hc => hwriting hc.1) fun hc => hwriting hc.1
  constructor
  · intro p hp
    obtain ⟨hle, hgeneration, hreturned⟩ := h.armed p hp
    refine ⟨hle, hgeneration, ?_⟩
    rw [goto_pc, if_neg (hother p hp), hreturned]
  · intro j hj
    rw [goto_pc] at hj
    split_ifs at hj with hji
    · exact absurd hj hpc
    · exact h.back j hj
  · exact h.once
  · exact h.calls
  · exact fun hfree => h.fresh (hfree.imp_right hclaimed.mp)
  · exact h.loaded
  · exact h.waiting
  · exact h.consumed
  · exact h.consumedOnce
  · intro ha
    obtain ⟨hzero, harmed, hfree⟩ := h.awaiting ha
    exact ⟨hzero, harmed, hfree.imp_right hclaimed.mpr⟩
  · exact h.settling

theorem Records.refuse (hholds : (s.pc i).holds = false ∨ s.cell ≠ .writing) (why : Refusal) :
    Records api completion (s.refuse i why) :=
  h.goto hlive (by simp) (hholds.imp_left Eq.symm)

theorem Records.check
    (hfree : (s.pc i).holds = false) (refused : Option Refusal) (hpc : pc ≠ .returned .accepted)
    (hholds : pc.holds = false) : Records api completion (s.check i refused pc) := by
  cases refused with
  | none => exact h.goto hlive hpc (.inl (hholds.trans hfree.symm))
  | some why => exact h.refuse hlive (.inl hfree) why

omit hlive

/-- **The claim.** -/
theorem Records.claim (hi : s.pc i = .checked) : Records api completion (s.claim i) := by
  have hlive : s.pc i ≠ .returned .accepted := by rw [hi]; decide
  have hfree : (s.pc i).holds = false := by rw [hi]; rfl
  unfold State.claim
  split_ifs with hcell
  · have hother : ∀ p ∈ s.accepted, p.2 ≠ i := by
      rintro p hp rfl
      exact hlive (h.armed p hp).2.2
    constructor
    · intro p hp
      obtain ⟨hle, hgeneration, hreturned⟩ := h.armed p hp
      refine ⟨hle, hgeneration, ?_⟩
      rw [goto_pc, if_neg (hother p hp)]
      exact hreturned
    · intro j hj
      rw [goto_pc] at hj
      split_ifs at hj with hji
      exact h.back j hj
    · exact h.once
    · exact h.calls
    · exact fun _ => h.fresh (.inl hcell)
    · rintro (hfalse | howner)
      · cases hfalse
      · exact h.loaded (.inr howner)
    · exact fun hfalse => (by cases hfalse)
    · exact h.consumed
    · exact h.consumedOnce
    · intro ha
      obtain ⟨hzero, harmed, -⟩ := h.awaiting ha
      refine ⟨hzero, harmed, .inr ⟨rfl, i, ?_⟩⟩
      rw [goto_pc, if_pos rfl]
      rfl
    · exact h.settling
  · exact h.refuse hlive (.inl hfree) _

variable (hclaims : Claims api completion s)
include hclaims

/-- **The payload is written.** Nobody waits for the one that was there. -/
theorem Records.write (hi : s.pc i = .writing) : Records api completion
      (({ s with payload := some (i, completion i) } : State C I ι).goto i .written) := by
  have hholds : (s.pc i).holds = true := by rw [hi]; rfl
  have hunloaded := hclaims.not_loaded hholds
  have hwritten : Records api completion { s with payload := some (i, completion i) } :=
    { h with loaded := fun hloaded => absurd hloaded hunloaded }
  refine hwritten.goto ?_ (by simp) (.inl ?_)
  · show s.pc i ≠ _
    rw [hi]
    decide
  · show _ = (s.pc i).holds
    rw [hholds]
    rfl

theorem Records.release
    (hi : (s.pc i).holds = true) (hwriting : s.cell = .writing) {cell : Cell} {awaiting : Bool}
    (hcell : cell = .empty ∨ cell = .disarmed)
    (hawaiting : awaiting = true → s.awaiting = true ∧ cell = .empty) (why : Refusal) :
    Records api completion
      (({ s with cell := cell, awaiting := awaiting } : State C I ι).refuse i why) := by
  have hclaimed : s.claimed := ⟨hwriting, i, hi⟩
  have hlive : s.pc i ≠ .returned .accepted := by
    intro hc
    rw [hc] at hi
    cases hi
  have howner := (not_or.mp (hclaims.not_loaded hi)).2
  have hready : cell ≠ .ready := by rcases hcell with rfl | rfl <;> decide
  have hopen : cell ≠ .writing := by rcases hcell with rfl | rfl <;> decide
  have hleft : Records api completion { s with cell := cell, awaiting := awaiting } :=
    { h with
      fresh := fun _ => h.fresh (.inr hclaimed)
      loaded := fun hloaded => absurd hloaded (not_or.mpr ⟨hready, howner⟩)
      waiting := fun hfalse => absurd hfalse hready
      awaiting := fun ha => by
        obtain ⟨hwas, hempty⟩ := hawaiting ha
        obtain ⟨hzero, harmed, -⟩ := h.awaiting hwas
        exact ⟨hzero, harmed, .inl hempty⟩ }
  exact hleft.refuse hlive (.inr hopen) why

/-- **The end of a claim.** -/
theorem Records.leave {why : Refusal} (hi : s.pc i = .leaving why)
    (hregular : leavesRegularly api completion s i = true) :
    Records api completion (s.leave api completion i why) := by
  have hholds : (s.pc i).holds = true := by rw [hi]; rfl
  have hlive : s.pc i ≠ .returned .accepted := by rw [hi]; simp
  unfold leavesRegularly at hregular
  unfold State.leave
  dsimp only
  split_ifs with hstores hcell
  · rw [if_pos hstores] at hregular
    have hcell : s.cell = .writing :=
      (hclaims.cell i hholds).resolve_right (by simpa using hregular)
    exact h.release hclaims hholds hcell (.inl rfl) (fun ha => ⟨ha, rfl⟩) why
  · rw [if_neg hstores, hcell] at hregular
    refine h.release hclaims hholds hcell (.inr rfl) (fun ha => ?_) why
    -- the generation of a mailbox that waits is not zero, and so it is the call's own
    exfalso
    obtain ⟨hwas, hother⟩ := Bool.and_eq_true_iff.mp ha
    have hzero := (h.awaiting hwas).1
    simp only [bne_self_eq_false, Bool.false_or, Bool.or_eq_true, beq_iff_eq] at hregular
    rcases hregular with hc | hc
    · exact hzero hc
    · simp [hc] at hother
  · exact h.refuse hlive (.inr hcell) _

/-- **A completion is accepted.** -/
theorem Records.accept
    (hi : s.pc i = .written) (hcell : s.cell = .writing) (leases : List (Effect ι)) :
    Records api completion
      (({ s with
        cell := .ready
        awaiting := false
        accepted := (s.epoch, i) :: s.accepted
        leases := leases } : State C I ι).goto i (.returned .accepted)) := by
  have hholds : (s.pc i).holds = true := by rw [hi]; rfl
  have hpast : (s.pc i).past = true := by rw [hi]; rfl
  have hlive : s.pc i ≠ .returned .accepted := by rw [hi]; decide
  have hother : ∀ p ∈ s.accepted, p.2 ≠ i := by
    rintro p hp rfl
    exact hlive (h.armed p hp).2.2
  have hfresh := h.fresh (.inr ⟨hcell, i, hholds⟩)
  constructor
  · intro p hp
    rcases List.mem_cons.mp hp with rfl | hp
    · exact ⟨Nat.le_refl _, hclaims.matching i hpast hcell, update_self i _ _⟩
    · obtain ⟨hle, hgeneration, hreturned⟩ := h.armed p hp
      refine ⟨hle, hgeneration, ?_⟩
      rw [← hreturned]
      exact update_of_ne (hother p hp) _ _
  · intro j hj
    rw [goto_pc] at hj
    split_ifs at hj with hji
    · exact ⟨s.epoch, hji ▸ List.mem_cons_self⟩
    · obtain ⟨e, he⟩ := h.back j hj
      exact ⟨e, List.mem_cons_of_mem _ he⟩
  · refine List.nodup_cons.mpr ⟨fun hmem => ?_, h.once⟩
    obtain ⟨p, hp, heq⟩ := List.mem_map.mp hmem
    exact hfresh p hp heq
  · refine List.nodup_cons.mpr ⟨fun hmem => ?_, h.calls⟩
    obtain ⟨p, hp, heq⟩ := List.mem_map.mp hmem
    exact hother p hp heq
  · rintro (hfalse | ⟨hfalse, -⟩) <;> cases hfalse
  · exact fun _ => ⟨i, hclaims.written i hi hcell, List.mem_cons_self⟩
  · exact fun _ p hp => hfresh _ (h.consumed p hp).2
  · intro p hp
    obtain ⟨hpayload, hmem⟩ := h.consumed p hp
    exact ⟨hpayload, List.mem_cons_of_mem _ hmem⟩
  · exact h.consumedOnce
  · exact fun hfalse => (by cases hfalse)
  · exact h.settling

/-- **The exchange of `WRITING` for `READY`.** -/
theorem Records.publish
    (hi : s.pc i = .written) : Records api completion (s.publish api completion i) := by
  have hholds : (s.pc i).holds = true := by rw [hi]; rfl
  have hlive : s.pc i ≠ .returned .accepted := by rw [hi]; decide
  by_cases hcell : s.cell = .writing
  · unfold State.publish
    rw [if_pos hcell]
    exact h.accept hclaims hi hcell _
  · have hunloaded := hclaims.not_loaded hholds
    have hscrubbed : Records api completion { s with
        payload := s.payload.bind fun p =>
          (api.scrub (completion i) p.2).map fun d => (p.1, d) } :=
      { h with loaded := fun hloaded => absurd hloaded hunloaded }
    unfold State.publish
    rw [if_neg hcell]
    exact hscrubbed.refuse hlive (.inr hcell) _

omit hclaims

omit h

end Calls

/-! ## The owner -/

variable (h : Records api completion s)
include h

theorem Records.quiet {t : State C I ι} (hpc : t.pc = s.pc)
    (haccepted : t.accepted = s.accepted) (hconsumed : t.consumed = s.consumed)
    (hepoch : t.epoch = s.epoch) (harmed : t.armedWith = s.armedWith)
    (hcell : t.cell = s.cell ∨ t.cell = .disarmed ∨ t.cell = .closed)
    (hloaded : t.loaded → s.loaded ∧ t.payload = s.payload)
    (hawaiting : t.awaiting = true →
      s.awaiting = true ∧ t.generation = s.generation ∧ t.cell = s.cell)
    (hsettling : t.owner = .settling → t.generation = 0) : Records api completion t := by
  have hclaimed : t.cell = s.cell → (t.claimed ↔ s.claimed) := by
    intro hsame
    unfold State.claimed
    rw [hsame, hpc]
  constructor
  · rw [haccepted, hepoch, harmed, hpc]
    exact h.armed
  · rw [hpc, haccepted]
    exact h.back
  · rw [haccepted]
    exact h.once
  · rw [haccepted]
    exact h.calls
  · rw [haccepted, hepoch]
    intro hfree
    rcases hcell with hsame | hdisarmed | hclosed
    · rw [hclaimed hsame, hsame] at hfree
      exact h.fresh hfree
    · rcases hfree with hc | hc
      · rw [hdisarmed] at hc
        cases hc
      · cases hdisarmed.symm.trans hc.1
    · rcases hfree with hc | hc
      · rw [hclosed] at hc
        cases hc
      · cases hclosed.symm.trans hc.1
  · intro hl
    obtain ⟨hwas, hpayload⟩ := hloaded hl
    rw [hpayload, hepoch, haccepted]
    exact h.loaded hwas
  · rw [hconsumed, hepoch]
    intro hready
    rcases hcell with hsame | hdisarmed | hclosed
    · exact h.waiting (hsame.symm.trans hready)
    · rw [hdisarmed] at hready
      cases hready
    · rw [hclosed] at hready
      cases hready
  · rw [hconsumed, haccepted]
    exact h.consumed
  · rw [hconsumed]
    exact h.consumedOnce
  · intro ha
    obtain ⟨hwas, hgeneration, hsame⟩ := hawaiting ha
    rw [hgeneration, harmed, hepoch, hsame, hclaimed hsame]
    exact h.awaiting hwas
  · exact hsettling

/-- **The mailbox is armed.** -/
theorem Records.arm (hclaims : Claims api completion s) (hnumbered : s.owner = .numbered) :
    Records api completion { s with
      cell := .empty
      awaiting := true
      epoch := s.epoch + 1
      armedWith := update s.armedWith (s.epoch + 1) s.generation
      owner := .arming } := by
  have hlt : ∀ p ∈ s.accepted, p.1 < s.epoch + 1 := fun p hp => Nat.lt_succ_of_le (h.armed p hp).1
  constructor
  · intro p hp
    obtain ⟨hle, hgeneration, hreturned⟩ := h.armed p hp
    refine ⟨Nat.le_succ_of_le hle, ?_, hreturned⟩
    rw [hgeneration]
    exact (update_of_ne (Nat.ne_of_lt (hlt p hp)) _ _).symm
  · exact h.back
  · exact h.once
  · exact h.calls
  · exact fun _ p hp => Nat.ne_of_lt (hlt p hp)
  · rintro (hfalse | hfalse | hfalse) <;> cases hfalse
  · exact fun hfalse => (by cases hfalse)
  · exact h.consumed
  · exact h.consumedOnce
  · refine fun _ => ⟨hclaims.stored hnumbered, ?_, .inl rfl⟩
    exact (update_self (s.epoch + 1) s.generation s.armedWith).symm
  · exact fun hfalse => (by cases hfalse)

/-- **`run_ready` takes the accepted completion.** -/
theorem Records.take (hclaims : Claims api completion s) (hcell : s.cell = .ready) :
    Records api completion { s with
      cell := .writing
      consumed := s.payload.toList.map (fun p => (s.epoch, p)) ++ s.consumed
      owner := .taken } := by
  obtain ⟨i, hpayload, hmem⟩ := h.loaded (.inl hcell)
  have hawaiting : s.awaiting ≠ true := by
    intro ha
    rcases (h.awaiting ha).2.2 with hc | hc
    · cases hcell.symm.trans hc
    · cases hcell.symm.trans hc.1
  have hfree : ∀ j, (s.pc j).holds = false :=
    hclaims.free (by rw [hcell]; decide) (by rw [hcell]; decide)
  have htaken : s.payload.toList.map (fun p => (s.epoch, p)) = [(s.epoch, i, completion i)] := by
    rw [hpayload]
    rfl
  rw [htaken]
  constructor
  · exact h.armed
  · exact h.back
  · exact h.once
  · exact h.calls
  · rintro (hfalse | ⟨-, j, hj⟩)
    · cases hfalse
    · change (s.pc j).holds = true at hj
      rw [hfree j] at hj
      cases hj
  · exact fun _ => ⟨i, hpayload, hmem⟩
  · exact fun hfalse => (by cases hfalse)
  · intro p hp
    rcases List.mem_cons.mp hp with rfl | hp
    · exact ⟨rfl, hmem⟩
    · exact h.consumed p hp
  · refine List.nodup_cons.mpr ⟨fun hmem => ?_, h.consumedOnce⟩
    obtain ⟨p, hp, heq⟩ := List.mem_map.mp hmem
    exact h.waiting hcell p hp heq
  · exact fun ha => absurd ha hawaiting
  · exact fun hfalse => (by cases hfalse)

theorem Records.settleConsumption
    (hcell : s.cell = .writing) (hawaiting : s.awaiting ≠ true) (consumption : Consumption) :
    Records api completion (s.settleConsumption api consumption) := by
  have hemptied : ∀ t : State C I ι, t.pc = s.pc → t.accepted = s.accepted →
      t.consumed = s.consumed → t.epoch = s.epoch → t.armedWith = s.armedWith → t.cell = s.cell →
      t.awaiting = s.awaiting → t.owner = .emptied ∨ t.owner = .idle →
      Records api completion t := by
    intro t hpc haccepted hconsumed hepoch harmed hsame hwas howner
    refine h.quiet hpc haccepted hconsumed hepoch harmed (.inl hsame) ?_ ?_ ?_
    · rintro (hc | hc | hc)
      · cases (hsame.trans hcell).symm.trans hc
      · rcases howner with ho | ho <;> cases ho.symm.trans hc
      · rcases howner with ho | ho <;> cases ho.symm.trans hc
    · exact fun ha => absurd (hwas.symm.trans ha) hawaiting
    · intro hc
      rcases howner with ho | ho <;> cases ho.symm.trans hc
  cases consumption with
  | discard reset =>
    cases reset with
    | none => exact hemptied _ rfl rfl rfl rfl rfl rfl rfl (.inl rfl)
    | some slot => exact hemptied _ rfl rfl rfl rfl rfl rfl rfl (.inl rfl)
  | adopt slot => exact hemptied _ rfl rfl rfl rfl rfl rfl rfl (.inl rfl)
  | lose => exact hemptied _ rfl rfl rfl rfl rfl rfl rfl (.inl rfl)
  | stop => exact hemptied _ rfl rfl rfl rfl rfl rfl rfl (.inr rfl)

theorem Records.idle_of_owned (hclaims : Claims api completion s)
    (howner : s.owner.holds = true) : s.awaiting ≠ true := by
  intro ha
  obtain ⟨hcell, hfree⟩ := hclaims.owned howner
  rcases (h.awaiting ha).2.2 with hc | ⟨-, i, hi⟩
  · cases hcell.symm.trans hc
  · rw [hfree i] at hi
    cases hi

theorem Records.idle_of_shut
    (hcell : s.cell = .disarmed ∨ s.cell = .closed) : s.awaiting ≠ true := by
  intro ha
  rcases (h.awaiting ha).2.2 with hc | ⟨hc, -⟩ <;> rcases hcell with hd | hd <;>
    cases hd.symm.trans hc

omit h

theorem Records.of_init (h : Init s) : Records api completion s := by
  obtain ⟨hcell, howner, -, -, hpc, -, hawaiting, -, -, haccepted, hconsumed, -⟩ := h
  constructor <;> simp [hcell, howner, hpc, hawaiting, haccepted, hconsumed, State.loaded]

end Records

end Mailbox

end TurboScxml.Voice
