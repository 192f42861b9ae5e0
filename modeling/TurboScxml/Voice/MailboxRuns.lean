import TurboScxml.Voice.MailboxLeases

/-!
# Runs of a mailbox

* `Exact`: what the accepted and consumed completions and their leases promise in a state;
* `Sound`: what a machine promises in all its runs;
* `Invariant`: the claims, the records and the leases; **`Invariant.step`**: the regular steps keep
  them;
* **`sound_of_regular`**: the machine of the regular steps is sound.
-/

namespace TurboScxml.Voice

open EffectLog Function Machine

namespace Mailbox

section Runs

variable {C I ρ ι : Type} (api : Interface C I ρ) (completion : ι → C)

structure Exact (s : State C I ι) : Prop where
  once : (s.accepted.map Prod.fst).Nodup
  armed : ∀ p ∈ s.accepted, api.generation (completion p.2) = s.armedWith p.1
  returned : ∀ i, s.pc i = .returned .accepted ↔ ∃ e, (e, i) ∈ s.accepted
  ready : s.cell = .ready → ∃ i, s.payload = some (i, completion i) ∧ (s.epoch, i) ∈ s.accepted
  consumed : ∀ p ∈ s.consumed, (p.1, p.2.1) ∈ s.accepted ∧ p.2.2 = completion p.2.1
  consumedOnce : (s.consumed.map Prod.fst).Nodup
  offered : s.awaiting = true →
    s.generation = s.armedWith s.epoch ∧ (s.cell = .empty ∨ s.claimed)
  released : (discarded s.leases).Nodup ∧ ∀ i ∈ discarded s.leases,
    api.lease (completion i) = true ∧ s.pc i = .returned .accepted
  settled : s.owner = .gone → ∀ i, api.lease (completion i) = true →
    s.pc i = .returned .accepted → i ∈ discarded s.leases

def Passes (s : State C I ι) (c : C) : Prop :=
  api.arguments c = none ∧ api.enter s.view c = none ∧ api.check s.view s.generation c = none ∧
    api.recheck s.view s.generation c = none

structure Sound (machine : State C I ι → Action I ι ρ → Option (State C I ι)) : Prop where
  exact : ∀ s, Reachable machine Init s → Exact api completion s
  /-- Nothing is accepted after the mailbox was closed. -/
  absorbing : ∀ s s', Reachable machine Init s → Runs machine s s' → s.cell = .closed →
    s'.cell = .closed ∧ s'.accepted = s.accepted
  keeps : ∀ s s' i, Reachable machine Init s → machine s (.call i) = some s' →
    s.awaiting = true → api.generation (completion i) ≠ s.generation →
    s'.pc i ≠ .returned .accepted → s'.awaiting = true ∧ s'.generation = s.generation
  accepts : ∀ s i, Reachable machine Init s → s.awaiting = true → s.cell = .empty →
    s.pc i = .start → Passes api s (completion i) →
    ∃ s', Runs machine s s' ∧ (s.epoch, i) ∈ s'.accepted

variable {api completion} {s s' : State C I ι}

/-! ## The states -/

structure Invariant (api : Interface C I ρ) (completion : ι → C) (s : State C I ι) : Prop where
  claims : Claims api completion s
  records : Records api completion s
  leases : Leases api completion s

theorem Invariant.exact (h : Invariant api completion s) : Exact api completion s := by
  have hbalanced := h.leases.balanced
  have hdiscarded : ∀ i, i ∈ discarded s.leases → i ∈ EffectLog.accepted s.leases := fun i hi =>
    hbalanced.perm.subset (by simp [hi])
  have hnodup : (discarded s.leases).Nodup := by
    have hall := hbalanced.perm.nodup_iff.mpr hbalanced.nodup
    exact (List.nodup_append'.mp (List.nodup_append'.mp hall).1).2.1
  constructor
  · exact h.records.once
  · exact fun p hp => (h.records.armed p hp).2.1
  · exact fun i => ⟨h.records.back i, fun ⟨e, he⟩ => (h.records.armed _ he).2.2⟩
  · exact fun hready => h.records.loaded (.inl hready)
  · exact fun p hp => (h.records.consumed p hp).symm
  · exact h.records.consumedOnce
  · exact fun ha => (h.records.awaiting ha).2
  · exact ⟨hnodup, fun i hi => (h.leases.listed i).mp (hdiscarded i hi)⟩
  · intro hgone i hlease hreturned
    have hcell := h.claims.closed.mpr (by rw [hgone]; rfl)
    have hunloaded : ¬ s.loaded := by simp [State.loaded, hcell, hgone]
    have hmem := hbalanced.perm.symm.subset ((h.leases.listed i).mpr ⟨hlease, hreturned⟩)
    rw [State.custody_not_loaded hunloaded, h.leases.gone hgone, h.leases.kept] at hmem
    simpa using hmem

section Steps

variable [DecidableEq ι]

/-! ### Calls -/

section Calls

variable {i : ι} (h : Invariant api completion s)
include h

theorem Invariant.check {pc : Pc} (hlive : s.pc i ≠ .returned .accepted)
    (hfree : (s.pc i).holds = false) (refused : Option Refusal)
    (hnamed : refused = none → api.generation (completion i) ≠ 0) (hpc : pc ≠ .returned .accepted)
    (hholds : pc.holds = false) (hpast : pc.past = false) :
    Invariant api completion (s.check i refused pc) :=
  ⟨h.claims.check i refused hnamed hholds hpast, h.records.check hlive hfree refused hpc hholds,
    h.leases.check hlive refused hpc⟩

/-- **The regular steps of a call.** -/
theorem Invariant.stepCall (hregular : regular api completion s (.call i) = true)
    (hstep : s.stepCall api completion i = some s') : Invariant api completion s' := by
  unfold State.stepCall at hstep
  unfold regular at hregular
  cases hpc : s.pc i with
  | start =>
    simp only [hpc] at hstep
    cases hstep
    exact h.check (by rw [hpc]; decide) (by rw [hpc]; rfl) _
      (fun hnone => api.arguments_generation _ (Option.or_eq_none_iff.mp hnone).1) (by decide) rfl
      rfl
  | entered =>
    have hlive : s.pc i ≠ .returned .accepted := by rw [hpc]; decide
    have hfree : (s.pc i).holds = false := by rw [hpc]; rfl
    have hnamed := h.claims.named i (by rw [hpc]; rfl)
    simp only [hpc] at hstep
    cases hstep
    split_ifs
    · exact h.check hlive hfree none (fun _ => hnamed) (by decide) rfl rfl
    · exact h.check hlive hfree (some _) (fun hc => (by cases hc)) (by decide) rfl
        (show Pc.past .start = false from rfl)
  | loaded =>
    have hnamed := h.claims.named i (by rw [hpc]; rfl)
    simp only [hpc] at hstep
    cases hstep
    exact h.check (by rw [hpc]; decide) (by rw [hpc]; rfl) _ (fun _ => hnamed) (by decide) rfl rfl
  | checked =>
    simp only [hpc] at hstep
    cases hstep
    exact ⟨h.claims.claim hpc, h.records.claim hpc, h.leases.claim hpc⟩
  | claimed =>
    have hlive : s.pc i ≠ .returned .accepted := by rw [hpc]; decide
    have hholds : (s.pc i).holds = true := by rw [hpc]; rfl
    have hclaims := h.claims.recheck hpc
    simp only [hpc] at hstep
    cases hstep
    revert hclaims
    cases api.recheck s.view s.generation (completion i) <;> exact fun hclaims =>
      ⟨hclaims, h.records.goto hlive (by simp) (.inl hholds.symm),
        h.leases.call hlive (by simp) rfl rfl rfl rfl rfl⟩
  | writing =>
    simp only [hpc] at hstep
    cases hstep
    exact ⟨h.claims.write hpc, h.records.write h.claims hpc, h.leases.write h.claims hpc⟩
  | written =>
    simp only [hpc] at hstep
    cases hstep
    exact ⟨h.claims.publish hpc, h.records.publish h.claims hpc, h.leases.publish h.claims hpc⟩
  | leaving why =>
    simp only [hpc] at hstep hregular
    cases hstep
    exact ⟨h.claims.leave hpc hregular, h.records.leave h.claims hpc hregular,
      h.leases.leave h.claims hpc⟩
  | returned result =>
    simp only [hpc] at hstep
    cases hstep

end Calls

/-! ### The owner -/

section Owner

variable {t : State C I ι} (h : Invariant api completion s)
include h

omit [DecidableEq ι] in
theorem Invariant.begin {action : Action I ι ρ} (hidle : s.owner = .idle)
    (hbegin : s.begin api action = some s') : Invariant api completion s' := by
  have hnumbered : s.owner ≠ .numbered := by rw [hidle]; decide
  have hnumber := h.claims.number hnumbered
  have hopen : s.cell ≠ .closed := by
    rw [ne_eq, h.claims.closed, hidle]
    decide
  have hviewed : ∀ view prepared,
      Invariant api completion { s with view := view, prepared := prepared } := fun view prepared =>
    ⟨h.claims.withOwner rfl rfl (.inl rfl) (.inl rfl) rfl rfl (by rw [hidle]; decide) hnumbered
        (by rw [hidle]; exact fun hfalse => (by cases hfalse)) rfl
        (by rw [hidle]; exact fun hfalse => (by cases hfalse)),
      h.records.quiet rfl rfl rfl rfl rfl (.inl rfl) (fun hl => ⟨hl, rfl⟩)
        (fun ha => ⟨ha, rfl, rfl⟩) h.records.settling,
      h.leases.quiet rfl rfl rfl rfl h.leases.gone h.leases.settling⟩
  unfold State.begin at hbegin
  cases action with
  | call i => cases hbegin
  | proceed reply => cases hbegin
  | select generation item =>
    cases hbegin
    exact hviewed _ _
  | prepare =>
    dsimp only at hbegin
    split_ifs at hbegin
    cases hbegin
    exact hviewed _ _
  | discard =>
    dsimp only at hbegin
    split_ifs at hbegin
    cases hbegin
    exact hviewed _ _
  | reset slot => cases hbegin
  | commit =>
    dsimp only at hbegin
    split_ifs at hbegin with hrefused
    obtain ⟨view, hnote, rfl⟩ := Option.map_eq_some_iff.mp hbegin
    simp only [not_or, ne_eq, not_not] at hrefused
    obtain ⟨-, -, hgeneration, hcell⟩ := hrefused
    have hview := api.note_generation _ _ hnote
    refine ⟨h.claims.unclaimed rfl (h.claims.free (by rw [hcell]; decide) hopen) (fun _ => hnumber)
        (fun hfalse => (by cases hfalse)) (fun _ => ?_) (fun _ => hcell)
        (fun hfalse => (by cases hfalse)) (iff_of_false hopen Bool.false_ne_true),
      h.records.quiet rfl rfl rfl rfl rfl (.inl rfl) ?_ (fun ha => ⟨ha, rfl, rfl⟩)
        fun hfalse => (by cases hfalse),
      h.leases.quiet rfl rfl rfl ?_ (fun hc => (by cases hc)) fun hc => by cases hc⟩
    · show view.generation ≠ 0
      rw [hview]
      exact hgeneration
    · rintro (hc | hc | hc)
      · cases hcell.symm.trans hc
      · cases hc
      · cases hc
    · rw [State.custody_not_loaded (by simp [State.loaded, hcell]),
        State.custody_not_loaded (by simp [State.loaded, hcell, hidle])]
  | runReady =>
    dsimp only at hbegin
    split_ifs at hbegin with hrefused
    cases hbegin
    simp only [not_or, ne_eq, not_not] at hrefused
    refine ⟨h.claims.unclaimed rfl (h.claims.free (by rw [hrefused.2]; decide) hopen)
        (fun _ => hnumber) (fun hfalse => (by cases hfalse)) (fun hfalse => (by cases hfalse))
        (by simp) (fun _ => rfl) (by simp [Owner.shutting]),
      h.records.take h.claims hrefused.2,
      h.leases.quiet rfl rfl rfl ?_ (fun hc => (by cases hc)) fun hc => by cases hc⟩
    rw [State.custody_loaded (.inr (.inl rfl)), State.custody_loaded (.inl hrefused.2)]
    rfl
  | settle =>
    dsimp only at hbegin
    split_ifs at hbegin with hsettles
    cases hbegin
    refine ⟨h.claims.withOwner rfl rfl (.inl rfl) (.inr rfl) rfl rfl (by simp) hnumbered
        (fun hfalse => (by cases hfalse)) (by rw [hidle]; rfl) (fun hfalse => (by cases hfalse)),
      h.records.quiet rfl rfl rfl rfl rfl (.inl rfl) ?_ (fun hfalse => (by cases hfalse))
        fun _ => rfl,
      h.leases.quiet rfl rfl rfl ?_ (fun hc => (by cases hc)) fun _ => by simpa using hsettles⟩
    · rintro (hc | hc | hc)
      · exact ⟨.inl hc, rfl⟩
      · cases hc
      · cases hc
    · simp [State.custody, State.recording, hidle]
  | close =>
    cases hbegin
    have hclosed : ∀ i, (s.pc i).past = true → Cell.closed = .writing →
        api.generation (completion i) = s.armedWith s.epoch := fun _ _ hfalse => by cases hfalse
    refine ⟨⟨h.claims.unique, fun _ _ => .inr rfl, h.claims.named, fun _ => hnumber,
        fun hfalse => (by cases hfalse), fun hfalse => (by cases hfalse), hclosed,
        fun _ _ hfalse => (by cases hfalse), fun hfalse => (by simp at hfalse),
        fun hfalse => (by cases hfalse), iff_of_true rfl rfl, fun hready => ?_⟩,
      h.records.quiet rfl rfl rfl rfl rfl (.inr (.inr rfl)) ?_ (fun hfalse => (by cases hfalse))
        fun hfalse => (by cases hfalse),
      h.leases.quiet rfl rfl rfl ?_ (fun hc => (by cases hc)) fun hc => by cases hc⟩
    · have hcell : s.cell = .ready := by simpa using hready
      exact h.claims.free (by rw [hcell]; decide) hopen
    · rintro (hc | hc | hc)
      · cases hc
      · cases hc
      · refine ⟨.inl ?_, rfl⟩
        simpa using hc
    · simp [State.custody, State.recording, hidle]

omit [DecidableEq ι] in
theorem Invariant.settleConsumption (htaken : s.owner = .taken) (consumption : Consumption)
    (hkeeps : consumption.keeps = true → s.recording api = []) :
    Invariant api completion (s.settleConsumption api consumption) :=
  ⟨h.claims.settleConsumption htaken consumption,
    h.records.settleConsumption (h.claims.owned (by rw [htaken]; rfl)).1
      (h.records.idle_of_owned h.claims (by rw [htaken]; rfl)) consumption,
    h.leases.settleConsumption h.claims htaken consumption hkeeps⟩

omit [DecidableEq ι] in
/-- The owner goes on while no accepted completion is in the mailbox. -/
theorem Invariant.unloaded (hclaims : Claims api completion t) (hpc : t.pc = s.pc)
    (haccepted : t.accepted = s.accepted) (hconsumed : t.consumed = s.consumed)
    (hepoch : t.epoch = s.epoch) (harmed : t.armedWith = s.armedWith)
    (hleases : t.leases = s.leases) (hresults : t.results = s.results)
    (hcell : t.cell = s.cell ∨ t.cell = .disarmed ∨ t.cell = .closed)
    (hawaiting : t.awaiting = s.awaiting) (hidle : s.awaiting ≠ true) (hloaded : ¬ t.loaded)
    (hwas : ¬ s.loaded) (howner : t.owner ≠ .gone ∧ t.owner ≠ .settling) :
    Invariant api completion t := by
  refine ⟨hclaims, h.records.quiet hpc haccepted hconsumed hepoch harmed hcell
    (fun hl => absurd hl hloaded) (fun ha => absurd (hawaiting ▸ ha) hidle)
    (fun hc => absurd hc howner.2), h.leases.quiet hpc hleases hresults ?_
    (fun hc => absurd hc howner.1) fun hc => absurd hc howner.2⟩
  rw [State.custody_not_loaded hloaded, State.custody_not_loaded hwas]

omit [DecidableEq ι] in
/-- The owner shuts the mailbox: what is left of the payload is no recording that was accepted. -/
theorem Invariant.shut {previous : Cell} (howner : s.owner = .closing previous) :
    Invariant api completion (s.shut api previous) := by
  have hcell := h.claims.closed.mpr (by rw [howner]; rfl)
  have hwriting : s.cell ≠ .writing := by rw [hcell]; decide
  have hidle := h.records.idle_of_shut (.inr hcell)
  have hshut : ∀ t u : State C I ι, Leases api completion t → t.custody api = [] →
      u.leases = (t.releaseResults fun _ => true).leases → u.pc = t.pc → u.results = [] →
      u.owner = .gone → t.pc = s.pc → u.cell = s.cell → u.generation = 0 →
      u.armedWith = s.armedWith → u.epoch = s.epoch → u.accepted = s.accepted →
      u.consumed = s.consumed → u.awaiting = s.awaiting → Invariant api completion u := by
    intro t u ht hnone hleases hpc hresults hgone hpcs hsame hgeneration harmed hepoch haccepted
      hconsumed hwas
    have hunloaded : ¬ u.loaded := by simp [State.loaded, hsame, hcell, hgone]
    have hall := ht.releaseResults fun _ => true
    refine ⟨h.claims.withOwner (hpc.trans hpcs) hsame (.inr (.inl hwriting)) (.inr hgeneration)
        harmed hepoch (by rw [hgone]; decide) (by simp [howner]) ?_ (by rw [hgone, howner]; rfl) ?_,
      h.records.quiet (hpc.trans hpcs) haccepted hconsumed hepoch harmed (.inl hsame)
        (fun hl => absurd hl hunloaded) (fun ha => absurd (hwas.symm.trans ha) hidle) ?_,
      hall.quiet hpc hleases ?_ ?_ (fun _ => hresults) fun hc => (by cases hgone.symm.trans hc)⟩
    · rw [hgone]
      exact fun hfalse => (by cases hfalse)
    · rw [hgone]
      exact fun hfalse => (by cases hfalse)
    · exact fun hc => (by cases hgone.symm.trans hc)
    · rw [hresults]
      exact (List.filter_eq_nil_iff.mpr (by simp)).symm
    · exact (State.custody_not_loaded hunloaded).trans hnone.symm
  unfold State.shut
  split_ifs with hready
  · rw [hready] at howner
    have hloaded : s.loaded := .inr (.inr howner)
    exact hshut _ _ (h.leases.releasePayload hloaded) (State.custody_loaded hloaded) rfl rfl
      (List.filter_eq_nil_iff.mpr (by simp)) rfl rfl rfl rfl rfl rfl rfl rfl rfl
  · have hunloaded : ¬ s.loaded := by simp [State.loaded, hcell, howner, hready]
    have hnone : State.custody api { s with payload := none } = [] :=
      State.custody_not_loaded hunloaded
    have hempty : Leases api completion { s with payload := none } :=
      h.leases.quiet rfl rfl rfl (hnone.trans (State.custody_not_loaded hunloaded).symm)
        h.leases.gone h.leases.settling
    exact hshut _ _ hempty hnone rfl rfl (List.filter_eq_nil_iff.mpr (by simp)) rfl rfl rfl rfl rfl
      rfl rfl rfl rfl

omit [DecidableEq ι] in
/-- **The regular steps of the owner.** -/
theorem Invariant.proceed {reply : ρ} (hregular : proceedsRegularly api s reply = true)
    (hstep : s.proceed api reply = some s') : Invariant api completion s' := by
  unfold State.proceed at hstep
  unfold proceedsRegularly at hregular
  cases howner : s.owner with
  | idle =>
    simp only [howner] at hstep
    cases hstep
  | committing =>
    simp only [howner] at hstep
    cases hstep
    have hcell := h.claims.disarmed (.inl howner)
    refine h.unloaded (h.claims.unclaimed rfl
      (h.claims.free (by rw [hcell]; decide) (by rw [hcell]; decide))
      (fun hfalse => absurd rfl hfalse) (fun _ => h.claims.committing howner)
      (fun hfalse => (by cases hfalse)) (fun _ => hcell) (fun hfalse => (by cases hfalse))
      (iff_of_false (by rw [hcell]; decide) Bool.false_ne_true)) rfl rfl rfl rfl rfl rfl rfl
      (.inl rfl) rfl (h.records.idle_of_shut (.inl hcell)) ?_ ?_ (by simp)
    · simp [State.loaded, hcell]
    · simp [State.loaded, hcell, howner]
  | numbered =>
    simp only [howner] at hstep
    cases hstep
    have hcell := h.claims.disarmed (.inr howner)
    refine ⟨h.claims.unclaimed rfl (h.claims.free (by rw [hcell]; decide) (by rw [hcell]; decide))
        (fun _ => .inr ?_) (fun hfalse => (by cases hfalse)) (fun hfalse => (by cases hfalse))
        (fun hfalse => (by simp at hfalse)) (fun hfalse => (by cases hfalse))
        (iff_of_false (by simp) Bool.false_ne_true),
      h.records.arm h.claims howner,
      h.leases.quiet rfl rfl rfl ?_ (fun hc => (by cases hc)) fun hc => by cases hc⟩
    · simp
    · rw [State.custody_not_loaded (by simp [State.loaded]),
        State.custody_not_loaded (by simp [State.loaded, hcell, howner])]
  | arming =>
    simp only [howner] at hstep
    cases hstep
    refine ⟨h.claims.withOwner rfl rfl (.inl rfl) (.inl rfl) rfl rfl (by simp)
        (by rw [howner]; decide) (fun hfalse => (by cases hfalse)) (by rw [howner]; rfl)
        (fun hfalse => (by cases hfalse)),
      h.records.quiet rfl rfl rfl rfl rfl (.inl rfl) ?_ (fun ha => ⟨ha, rfl, rfl⟩)
        fun hfalse => (by cases hfalse),
      h.leases.quiet rfl rfl rfl ?_ (fun hc => (by cases hc)) fun hc => by cases hc⟩
    · rintro (hc | hc | hc)
      · exact ⟨.inl hc, rfl⟩
      · cases hc
      · cases hc
    · simp [State.custody, State.recording, howner]
  | taken =>
    simp only [howner] at hstep hregular
    unfold consumesRegularly at hregular
    split at hstep
    · have hnone : s.recording api = [] := by
        unfold State.recording
        simp [*]
      cases hstep
      exact h.settleConsumption howner .lose fun _ => hnone
    · rename_i p hpayload
      cases hstep
      refine h.settleConsumption howner _ fun hkeeps => ?_
      rw [State.recording_some hpayload, if_neg]
      simpa [hpayload, hkeeps] using hregular
  | emptied =>
    have howned := h.claims.owned (by rw [howner]; rfl)
    simp only [howner] at hstep
    cases hstep
    refine h.unloaded (h.claims.withOwner rfl rfl (.inl rfl) ?_ rfl rfl (by simp)
      (by rw [howner]; decide) (fun _ => howned) (by rw [howner]; rfl)
      (fun hfalse => (by cases hfalse))) rfl rfl rfl rfl rfl rfl rfl (.inl rfl) rfl
      (h.records.idle_of_owned h.claims (by rw [howner]; rfl)) ?_ ?_ (by simp)
    · split_ifs
      · exact .inr rfl
      · exact .inl rfl
    · simp [State.loaded, howned.1]
    · simp [State.loaded, howned.1, howner]
  | quit =>
    have howned := h.claims.owned (by rw [howner]; rfl)
    simp only [howner] at hstep
    cases hstep
    refine h.unloaded (h.claims.unclaimed rfl howned.2
      (fun _ => h.claims.number (by rw [howner]; decide)) (fun hfalse => (by cases hfalse))
      (fun hfalse => (by cases hfalse)) (fun hfalse => (by simp at hfalse))
      (fun hfalse => (by cases hfalse)) (iff_of_false (by simp) Bool.false_ne_true)) rfl rfl rfl rfl
      rfl rfl rfl (.inr (.inl rfl)) rfl (h.records.idle_of_owned h.claims (by rw [howner]; rfl))
      (by simp [State.loaded]) ?_ (by simp)
    simp [State.loaded, howned.1, howner]
  | settling =>
    simp only [howner] at hstep hregular
    cases hstep
    have hopen : s.cell ≠ .closed := by
      rw [ne_eq, h.claims.closed, howner]
      decide
    have hidle : s.awaiting ≠ true := fun ha =>
      (h.records.awaiting ha).1 (h.records.settling howner)
    -- a mailbox that can be withdrawn has no recordings
    have hcustody : ∀ t : State C I ι, t.custody api = [] := by
      intro t
      simp [State.custody, State.recording, api.settles_lease (h.leases.settling howner)]
    refine ⟨h.claims.unclaimed rfl (h.claims.free (by simpa using hregular) hopen)
        (fun _ => h.claims.number (by rw [howner]; decide)) (fun hfalse => (by cases hfalse))
        (fun hfalse => (by cases hfalse)) (fun hfalse => (by simp at hfalse))
        (fun hfalse => (by cases hfalse)) (iff_of_false (by simp [hopen]) Bool.false_ne_true),
      h.records.quiet rfl rfl rfl rfl rfl (.inr ?_) ?_ (fun ha => absurd ha hidle)
        fun hfalse => (by cases hfalse),
      h.leases.quiet rfl rfl rfl ((hcustody _).trans (hcustody _).symm) (fun hc => (by cases hc))
        fun hc => by cases hc⟩
    · dsimp only
      split_ifs
      · exact .inr rfl
      · exact .inl rfl
    · rintro (hc | hc | hc)
      · dsimp only at hc
        split_ifs at hc
      · cases hc
      · cases hc
  | closing previous =>
    simp only [howner] at hstep
    cases hstep
    exact h.shut howner
  | gone =>
    simp only [howner] at hstep
    cases hstep

end Owner

variable {action : Action I ι ρ}

/-- **The regular steps** keep the claims, the records and the leases. -/
theorem Invariant.step (h : Invariant api completion s)
    (hregular : regular api completion s action = true)
    (hstep : Mailbox.step api completion s action = some s') : Invariant api completion s' := by
  cases action with
  | call i => exact h.stepCall hregular hstep
  | proceed reply => exact h.proceed hregular hstep
  | reset slot =>
    simp only [Mailbox.step] at hstep
    split_ifs at hstep
    cases hstep
    exact ⟨{ h.claims with }, { h.records with }, h.leases.releaseResults _⟩
  | _ =>
    simp only [Mailbox.step] at hstep
    split_ifs at hstep with hidle
    exact h.begin hidle hstep

theorem invariant_of_reachable
    (h : Reachable (guarded (regular api completion) (step api completion)) Init s) :
    Invariant api completion s := by
  refine h.invariant (fun t ht => ⟨.of_init ht, .of_init ht, .of_init ht⟩) ?_
  intro t action t' ht hstep
  obtain ⟨hregular, hstep⟩ := guarded_eq_some hstep
  exact ht.step hregular hstep

/-! ## Closed mailboxes -/

/-- **A closed mailbox stays closed.** -/
theorem Claims.step_closed (h : Claims api completion s)
    (hregular : regular api completion s action = true)
    (hstep : Mailbox.step api completion s action = some s') (hclosed : s.cell = .closed) :
    s'.cell = .closed ∧ s'.accepted = s.accepted := by
  have hshutting := h.closed.mp hclosed
  have hidle : s.owner ≠ .idle := by
    intro hc
    rw [hc] at hshutting
    cases hshutting
  cases action with
  | call i =>
    have hcheck : ∀ refused pc,
        (s.check i refused pc).cell = .closed ∧ (s.check i refused pc).accepted = s.accepted := by
      intro refused pc
      cases refused <;> exact ⟨hclosed, rfl⟩
    simp only [Mailbox.step, State.stepCall] at hstep
    unfold regular at hregular
    cases hpc : s.pc i with
    | start =>
      simp only [hpc] at hstep
      cases hstep
      exact hcheck _ _
    | entered =>
      simp only [hpc] at hstep
      cases hstep
      split_ifs <;> exact ⟨hclosed, rfl⟩
    | loaded =>
      simp only [hpc] at hstep
      cases hstep
      exact hcheck _ _
    | checked =>
      simp only [hpc] at hstep
      cases hstep
      unfold State.claim
      rw [if_neg (by rw [hclosed]; decide)]
      exact ⟨hclosed, rfl⟩
    | claimed =>
      simp only [hpc] at hstep
      cases hstep
      cases api.recheck s.view s.generation (completion i) <;> exact ⟨hclosed, rfl⟩
    | writing =>
      simp only [hpc] at hstep
      cases hstep
      exact ⟨hclosed, rfl⟩
    | written =>
      simp only [hpc] at hstep
      cases hstep
      unfold State.publish
      rw [if_neg (by rw [hclosed]; decide)]
      exact ⟨hclosed, rfl⟩
    | leaving why =>
      simp only [hpc] at hstep hregular
      cases hstep
      unfold leavesRegularly at hregular
      unfold State.leave
      dsimp only
      split_ifs with hstores hwriting
      · -- a store would reopen the mailbox
        simp [hstores, hclosed] at hregular
      · cases hclosed.symm.trans hwriting
      · exact ⟨hclosed, rfl⟩
    | returned result =>
      simp only [hpc] at hstep
      cases hstep
  | proceed reply =>
    simp only [Mailbox.step, State.proceed] at hstep
    cases howner : s.owner with
    | closing previous =>
      simp only [howner] at hstep
      cases hstep
      unfold State.shut
      split_ifs <;> exact ⟨hclosed, rfl⟩
    | gone =>
      simp only [howner] at hstep
      cases hstep
    | _ =>
      rw [howner] at hshutting
      cases hshutting
  | reset slot =>
    simp only [Mailbox.step] at hstep
    split_ifs at hstep
    cases hstep
    exact ⟨hclosed, rfl⟩
  | _ =>
    simp only [Mailbox.step] at hstep
    rw [if_neg hidle] at hstep
    cases hstep

/-! ## Armed generations -/

theorem stepCall_awaiting {i : ι} (hstep : s.stepCall api completion i = some s')
    (hawaiting : s.awaiting = true) (hother : api.generation (completion i) ≠ s.generation)
    (hlost : s'.pc i ≠ .returned .accepted) :
    s'.awaiting = true ∧ s'.generation = s.generation := by
  have hcheck : ∀ refused pc, (s.check i refused pc).awaiting = true ∧
      (s.check i refused pc).generation = s.generation := by
    intro refused pc
    cases refused <;> exact ⟨hawaiting, rfl⟩
  unfold State.stepCall at hstep
  cases hpc : s.pc i with
  | start =>
    simp only [hpc] at hstep
    cases hstep
    exact hcheck _ _
  | entered =>
    simp only [hpc] at hstep
    cases hstep
    split_ifs <;> exact ⟨hawaiting, rfl⟩
  | loaded =>
    simp only [hpc] at hstep
    cases hstep
    exact hcheck _ _
  | checked =>
    simp only [hpc] at hstep
    cases hstep
    unfold State.claim
    split_ifs <;> exact ⟨hawaiting, rfl⟩
  | claimed =>
    simp only [hpc] at hstep
    cases hstep
    cases api.recheck s.view s.generation (completion i) <;> exact ⟨hawaiting, rfl⟩
  | writing =>
    simp only [hpc] at hstep
    cases hstep
    exact ⟨hawaiting, rfl⟩
  | written =>
    simp only [hpc] at hstep
    cases hstep
    unfold State.publish at hlost ⊢
    dsimp only at hlost ⊢
    split_ifs with hcell
    · rw [if_pos hcell] at hlost
      exact absurd (update_self i _ s.pc) hlost
    · rw [if_pos hcell] at hlost
      exact absurd (update_self i _ s.pc) hlost
    · exact ⟨hawaiting, rfl⟩
  | leaving why =>
    simp only [hpc] at hstep
    cases hstep
    unfold State.leave
    dsimp only
    split_ifs
    · exact ⟨hawaiting, rfl⟩
    · refine ⟨?_, rfl⟩
      show (s.awaiting && s.generation != api.generation (completion i)) = true
      simp [hawaiting, Ne.symm hother]
    · exact ⟨hawaiting, rfl⟩
  | returned result =>
    simp only [hpc] at hstep
    cases hstep

theorem runs_call {i : ι} {pc : Pc} (hpc : s.pc i = pc) (hleaving : ∀ why, pc ≠ .leaving why)
    (hstep : s.stepCall api completion i = some s') :
    Runs (guarded (regular api completion) (Mailbox.step api completion)) s s' := by
  refine Runs.single (a := .call i) ?_
  unfold guarded
  rw [if_pos]
  · exact hstep
  · unfold regular
    cases hcase : s.pc i with
    | leaving why => exact absurd (hpc.symm.trans hcase) (hleaving why)
    | _ => simp only [hcase]

/-- **A call whose checks pass is accepted** if no other steps in between. -/
theorem accepts_of_passes {i : ι} (hcell : s.cell = .empty) (howner : s.owner ≠ .gone)
    (hstart : s.pc i = .start) (hpasses : Passes api s (completion i)) :
    ∃ s', Runs (guarded (regular api completion) (Mailbox.step api completion)) s s' ∧
      (s.epoch, i) ∈ s'.accepted := by
  obtain ⟨harguments, henter, hcheck, hrecheck⟩ := hpasses
  have hgoto : ∀ (t : State C I ι) pc, (t.goto i pc).pc i = pc := fun t pc => by
    rw [goto_pc, if_pos rfl]
  let entered := s.goto i .entered
  let loaded := entered.goto i .loaded
  let checked := loaded.goto i .checked
  let claimed := ({ checked with cell := .writing } : State C I ι).goto i .claimed
  let writing := claimed.goto i .writing
  let written := ({ writing with payload := some (i, completion i) } : State C I ι).goto i .written
  have hentered : s.stepCall api completion i = some entered := by
    simp [State.stepCall, hstart, howner, harguments, henter, State.check, entered]
  have hloaded : entered.stepCall api completion i = some loaded := by
    simp [State.stepCall, State.goto, hcell, loaded, entered]
  have hchecked : loaded.stepCall api completion i = some checked := by
    simp [State.stepCall, State.goto, hcheck, State.check, checked, loaded, entered]
  have hclaimed : checked.stepCall api completion i = some claimed := by
    simp [State.stepCall, State.claim, State.goto, hcell, claimed, checked, loaded, entered]
  have hwriting : claimed.stepCall api completion i = some writing := by
    simp [State.stepCall, State.goto, hrecheck, writing, claimed, checked, loaded, entered]
  have hwritten : writing.stepCall api completion i = some written := by
    simp [State.stepCall, State.goto, written, writing]
  have haccepted : written.stepCall api completion i = some (written.publish api completion i) := by
    simp [State.stepCall, State.goto, written]
  refine ⟨written.publish api completion i, ?_, ?_⟩
  · exact (runs_call hstart (by simp) hentered).trans <|
      (runs_call (hgoto _ _) (by simp) hloaded).trans <|
      (runs_call (hgoto _ _) (by simp) hchecked).trans <|
      (runs_call (hgoto _ _) (by simp) hclaimed).trans <|
      (runs_call (hgoto _ _) (by simp) hwriting).trans <|
      (runs_call (hgoto _ _) (by simp) hwritten).trans <|
      runs_call (hgoto _ _) (by simp) haccepted
  · have hwriting : written.cell = .writing := rfl
    exact List.mem_cons_self

variable (api completion) in
/-- **Main.** The machine of the regular steps is sound. -/
theorem sound_of_regular :
    Sound api completion (guarded (regular api completion) (Mailbox.step api completion)) where
  exact _ h := (invariant_of_reachable h).exact
  absorbing s s' h hrun hclosed := by
    have hkeeps := hrun.invariant
      (P := fun t => Invariant api completion t ∧ t.cell = .closed ∧ t.accepted = s.accepted)
      ?_ ⟨invariant_of_reachable h, hclosed, rfl⟩
    · exact hkeeps.2
    · rintro t action t' ⟨ht, hcell, haccepted⟩ hstep
      obtain ⟨hregular, hstep⟩ := guarded_eq_some hstep
      obtain ⟨hcell', haccepted'⟩ := ht.claims.step_closed hregular hstep hcell
      exact ⟨ht.step hregular hstep, hcell', haccepted'.trans haccepted⟩
  keeps s s' i _ hstep hawaiting hother hlost :=
    stepCall_awaiting (guarded_eq_some hstep).2 hawaiting hother hlost
  accepts s i h _ hcell hstart hpasses := by
    refine accepts_of_passes hcell (fun hgone => ?_) hstart hpasses
    have hclosed := (invariant_of_reachable h).claims.closed.mpr (by rw [hgone]; rfl)
    cases hcell.symm.trans hclosed

end Steps

end Runs

end Mailbox

end TurboScxml.Voice
