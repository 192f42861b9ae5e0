import TurboScxml.Voice.MailboxRecords

/-!
# Leases of the recordings

* `State.custody`: the recording of an accepted payload that the owner did not take yet;
* `Leases`: the recordings of the accepted completions are in custody, in a result slot, or were
  released, each of them once, and no other recording was released;
* `Leases.call` … `Leases.settleConsumption`: what the steps do to the leases.
-/

namespace TurboScxml.Voice

open EffectLog Function

namespace Mailbox

section Leases

variable {C I ρ ι : Type} (api : Interface C I ρ) (completion : ι → C)

def State.custody (s : State C I ι) : List ι :=
  if s.cell = .ready ∨ s.owner = .taken ∨ s.owner = .closing .ready then s.recording api else []

/-- Every accepted recording is somewhere once. -/
structure Leases (s : State C I ι) : Prop where
  balanced : Balanced s.leases (s.custody api ++ s.results.map Prod.snd)
  listed : ∀ i, i ∈ EffectLog.accepted s.leases ↔
    api.lease (completion i) = true ∧ s.pc i = .returned .accepted
  kept : committed s.leases = []
  gone : s.owner = .gone → s.results = []
  settling : s.owner = .settling → api.settles = true

variable {api completion} {s s' t : State C I ι}

theorem State.custody_loaded (h : s.loaded) : s.custody api = s.recording api := if_pos h

theorem State.custody_not_loaded (h : ¬ s.loaded) : s.custody api = [] := if_neg h

variable {i : ι}

theorem State.recording_some {c : C} (h : s.payload = some (i, c)) :
    s.recording api = if api.lease c = true then [i] else [] := by
  unfold State.recording
  rw [h]
  by_cases hlease : api.lease c = true <;> simp [hlease]

/-! ## Calls -/

section Calls

variable [DecidableEq ι] (h : Leases api completion s)
include h

theorem Leases.call {pc : Pc} (hlive : s.pc i ≠ .returned .accepted)
    (hpc : pc ≠ .returned .accepted) (hpcs : t.pc = update s.pc i pc)
    (hleases : t.leases = s.leases) (hresults : t.results = s.results) (howner : t.owner = s.owner)
    (hcustody : t.custody api = s.custody api) : Leases api completion t := by
  constructor
  · rw [hleases, hresults, hcustody]
    exact h.balanced
  · intro j
    rw [hleases, h.listed j, hpcs, update_apply]
    split_ifs with hji
    · rw [hji]
      exact and_congr_right fun _ => iff_of_false hlive hpc
    · rfl
  · rw [hleases]
    exact h.kept
  · rw [howner, hresults]
    exact h.gone
  · rw [howner]
    exact h.settling

/-- **A completion is accepted.** -/
theorem Leases.accept (hlive : s.pc i ≠ .returned .accepted)
    (hunloaded : ¬ s.loaded) (hpayload : s.payload = some (i, completion i))
    (hcell : t.cell = .ready) (hpayloads : t.payload = s.payload)
    (hpc : t.pc = update s.pc i (.returned .accepted)) (hresults : t.results = s.results)
    (howner : t.owner = s.owner) (hleases : t.leases =
      if api.lease (completion i) = true then s.leases ++ [.accepted i] else s.leases) :
    Leases api completion t := by
  have hcustody : t.custody api = if api.lease (completion i) = true then [i] else [] := by
    rw [State.custody_loaded (.inl hcell), State.recording_some (hpayloads.trans hpayload)]
  have hbalanced := h.balanced
  rw [State.custody_not_loaded hunloaded, List.nil_append] at hbalanced
  have hfresh : i ∉ EffectLog.accepted s.leases := fun hmem => hlive ((h.listed i).mp hmem).2
  have hlisted : ∀ j, (j ∈ EffectLog.accepted s.leases ∨ api.lease (completion i) = true ∧ j = i) ↔
      api.lease (completion j) = true ∧ t.pc j = .returned .accepted := by
    intro j
    rw [h.listed j, hpc, update_apply]
    split_ifs with hji
    · simp [hji, hlive]
    · simp [hji]
  constructor
  · rw [hcustody, hleases, hresults]
    split_ifs
    · exact (hbalanced.accept hfresh).reorder List.perm_append_comm
    · exact hbalanced
  · intro j
    rw [← hlisted j, hleases]
    split_ifs with hlease
    · simp [hlease]
    · simp [hlease]
  · rw [hleases]
    split_ifs
    · simpa using h.kept
    · exact h.kept
  · rw [howner, hresults]
    exact h.gone
  · rw [howner]
    exact h.settling

/-- **The exchange of `WRITING` for `READY`.** -/
theorem Leases.publish (hclaims : Claims api completion s)
    (hi : s.pc i = .written) : Leases api completion (s.publish api completion i) := by
  have hholds : (s.pc i).holds = true := by rw [hi]; rfl
  have hlive : s.pc i ≠ .returned .accepted := by rw [hi]; decide
  have hunloaded := hclaims.not_loaded hholds
  by_cases hcell : s.cell = .writing
  · unfold State.publish
    rw [if_pos hcell]
    exact h.accept hlive hunloaded (hclaims.written i hi hcell) rfl rfl rfl rfl rfl rfl
  · unfold State.publish
    rw [if_neg hcell]
    refine h.call hlive (by simp) rfl rfl rfl rfl ?_
    rw [State.custody_not_loaded hunloaded]
    exact State.custody_not_loaded hunloaded

/-- **The end of a claim.** -/
theorem Leases.leave (hclaims : Claims api completion s)
    {why : Refusal} (hi : s.pc i = .leaving why) :
    Leases api completion (s.leave api completion i why) := by
  have hholds : (s.pc i).holds = true := by rw [hi]; rfl
  have hlive : s.pc i ≠ .returned .accepted := by rw [hi]; simp
  have howner := (not_or.mp (hclaims.not_loaded hholds)).2
  have hempty : s.custody api = [] := State.custody_not_loaded (hclaims.not_loaded hholds)
  have hleft : ∀ (cell : Cell) (awaiting : Bool) (why : Refusal), cell ≠ .ready →
      Leases api completion
        (({ s with cell := cell, awaiting := awaiting } : State C I ι).refuse i why) := by
    intro cell awaiting why hcell
    refine h.call hlive (by simp) rfl rfl rfl rfl ?_
    rw [hempty]
    exact State.custody_not_loaded (not_or.mpr ⟨hcell, howner⟩)
  unfold State.leave
  dsimp only
  split_ifs
  · exact hleft _ s.awaiting _ (by decide)
  · exact hleft _ _ _ (by decide)
  · exact h.call hlive (by simp) rfl rfl rfl rfl rfl

theorem Leases.check (hlive : s.pc i ≠ .returned .accepted) (refused : Option Refusal) {pc : Pc}
    (hpc : pc ≠ .returned .accepted) : Leases api completion (s.check i refused pc) := by
  cases refused with
  | none => exact h.call hlive hpc rfl rfl rfl rfl rfl
  | some why => exact h.call hlive (by simp) rfl rfl rfl rfl rfl

theorem Leases.claim (hi : s.pc i = .checked) : Leases api completion (s.claim i) := by
  have hlive : s.pc i ≠ .returned .accepted := by rw [hi]; decide
  unfold State.claim
  split_ifs with hcell
  · refine h.call hlive (by simp) rfl rfl rfl rfl ?_
    simp [State.custody, State.goto, State.recording, hcell]
  · exact h.call hlive (by simp) rfl rfl rfl rfl rfl

theorem Leases.write (hclaims : Claims api completion s) (hi : s.pc i = .writing) :
    Leases api completion
      (({ s with payload := some (i, completion i) } : State C I ι).goto i .written) := by
  have hunloaded := hclaims.not_loaded (i := i) (by rw [hi]; rfl)
  refine h.call (by rw [hi]; decide) (by simp) rfl rfl rfl rfl ?_
  rw [State.custody_not_loaded hunloaded]
  exact State.custody_not_loaded hunloaded

omit h

end Calls

/-! ## The owner -/

theorem Leases.quiet (h : Leases api completion s) (hpc : t.pc = s.pc)
    (hleases : t.leases = s.leases) (hresults : t.results = s.results)
    (hcustody : t.custody api = s.custody api) (hgone : t.owner = .gone → t.results = [])
    (hsettling : t.owner = .settling → api.settles = true) : Leases api completion t := by
  constructor
  · rw [hleases, hresults, hcustody]
    exact h.balanced
  · rw [hleases, hpc]
    exact h.listed
  · rw [hleases]
    exact h.kept
  · exact hgone
  · exact hsettling

theorem Leases.discard (h : Leases api completion s) (hpc : t.pc = s.pc) {gone : List ι}
    (hleases : t.leases = s.leases ++ gone.map .discarded)
    (hlive : (gone ++ (t.custody api ++ t.results.map Prod.snd)).Perm
      (s.custody api ++ s.results.map Prod.snd))
    (hgone : t.owner = .gone → t.results = [])
    (hsettling : t.owner = .settling → api.settles = true) : Leases api completion t := by
  constructor
  · rw [hleases]
    exact (h.balanced.reorder hlive).discard_append
  · rw [hleases, hpc]
    simpa using h.listed
  · rw [hleases]
    simpa using h.kept
  · exact hgone
  · exact hsettling

theorem results_perm (results : List (ℕ × ι)) (gone : ℕ → Bool) :
    ((results.filter fun r => gone r.1).map Prod.snd ++
      (results.filter fun r => !gone r.1).map Prod.snd).Perm (results.map Prod.snd) := by
  rw [← List.map_append]
  exact (List.filter_append_perm _ _).map _

variable (h : Leases api completion s)
include h

theorem Leases.releaseResults (gone : ℕ → Bool) :
    Leases api completion (s.releaseResults gone) := by
  refine h.discard rfl rfl ?_ (fun howner => ?_) h.settling
  · exact (List.perm_append_comm_assoc _ _ _).trans ((results_perm s.results gone).append_left _)
  · show s.results.filter _ = []
    rw [h.gone howner, List.filter_nil]

theorem Leases.releasePayload (hloaded : s.loaded) :
    Leases api completion (s.releasePayload api) := by
  have hnone : (s.releasePayload api).custody api = [] := State.custody_loaded hloaded
  refine h.discard rfl rfl ?_ h.gone h.settling
  rw [hnone, State.custody_loaded hloaded]
  rfl

theorem Leases.adopt (hloaded : s.loaded)
    (howner : s.owner ≠ .gone) (slot : ℕ) : Leases api completion (s.adopt api slot) := by
  have hreset := h.releaseResults fun k => k == slot
  have hnone : (s.adopt api slot).custody api = [] := State.custody_loaded hloaded
  have hsnd : ∀ l : List ι, (l.map fun i => (slot, i)).map Prod.snd = l := by
    intro l
    rw [List.map_map]
    exact List.map_id l
  have hleases : (s.adopt api slot).leases =
      (s.resetResult slot).leases ++ ([] : List ι).map .discarded := (List.append_nil _).symm
  refine hreset.discard rfl hleases ?_ (fun hc => absurd hc howner) h.settling
  rw [hnone, State.custody_loaded (s := s.releaseResults fun k => k == slot) hloaded]
  show (List.map Prod.snd (((s.resetResult slot).recording api).map (fun i => (slot, i)) ++
    (s.resetResult slot).results)).Perm _
  rw [List.map_append, hsnd]
  rfl

/-- **What `run_ready` does with a recording keeps the leases.** -/
theorem Leases.settleConsumption (hclaims : Claims api completion s)
    (htaken : s.owner = .taken) (consumption : Consumption)
    (hkeeps : consumption.keeps = true → s.recording api = []) :
    Leases api completion (s.settleConsumption api consumption) := by
  have hloaded : s.loaded := .inr (.inl htaken)
  have hgone : s.owner ≠ .gone := by rw [htaken]; decide
  have hcell : s.cell ≠ .ready := by
    rw [(hclaims.owned (by rw [htaken]; rfl)).1]
    decide
  -- the mailbox has no accepted payload any more
  have hemptied : ∀ t : State C I ι, Leases api completion t → t.cell = s.cell →
      t.recording api = [] → ∀ owner, owner = .emptied ∨ owner = .idle →
      Leases api completion { t with owner := owner } := by
    intro t ht hsame hnone owner howner
    have hunloaded : ¬ ({ t with owner := owner } : State C I ι).loaded := by
      rintro (hc | hc | hc)
      · exact hcell (hsame.symm.trans hc)
      · rcases howner with rfl | rfl <;> cases hc
      · rcases howner with rfl | rfl <;> cases hc
    refine ht.quiet rfl rfl rfl ?_ (fun hc => ?_) fun hc => ?_
    · rw [State.custody_not_loaded hunloaded]
      unfold State.custody
      rw [hnone, ite_self]
    · rcases howner with rfl | rfl <;> cases hc
    · rcases howner with rfl | rfl <;> cases hc
  cases consumption with
  | discard reset =>
    cases reset with
    | none => exact hemptied _ (h.releasePayload hloaded) rfl rfl _ (.inl rfl)
    | some slot =>
      have hreset := h.releaseResults fun k => k == slot
      exact hemptied _ (hreset.releasePayload hloaded) rfl rfl _ (.inl rfl)
  | adopt slot => exact hemptied _ (h.adopt hloaded hgone slot) rfl rfl _ (.inl rfl)
  | lose => exact hemptied s h rfl (hkeeps rfl) _ (.inl rfl)
  | stop => exact hemptied s h rfl (hkeeps rfl) _ (.inr rfl)

omit h

theorem Leases.of_init (h : Init s) : Leases api completion s := by
  obtain ⟨hcell, howner, -, hresults, hpc, -, -, -, -, -, -, hleases⟩ := h
  constructor <;> simp [hcell, howner, hresults, hpc, hleases, State.custody, Balanced.nil]

end Leases

end Mailbox

end TurboScxml.Voice
