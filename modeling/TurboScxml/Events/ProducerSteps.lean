import TurboScxml.Events.Invariant

/-!
# The steps of the senders keep the invariant

* `attachEventContent_spec`, `Work.fill_spec`: what a filled row holds;
* `Held.producer`: a thread goes on with its row;
* **`Invariant.stepProducer`**.
-/

namespace TurboScxml.Events

open Function Parties Tokens

variable {S T K V ι : Type} {n : ℕ} {P : Program S T K}

/-! ## Filling a row -/

section Fill

variable [DecidableEq S] {row row' : Row S T V} {ledger ledger' : Ledger S T V} {copied : Bool}

omit [DecidableEq S] in
theorem Fills.refl (h : row.dataObjectLive = false) : Fills P row row ledger ledger :=
  ⟨rfl, rfl, rfl, .inl ⟨h, rfl⟩⟩

omit [DecidableEq S] in
theorem Ledger.copy_eq_some {type : T} {value : V} {object : Object T V}
    (h : ledger.copy type value copied = some (object, ledger')) :
    object = ⟨ledger.constructed, type, value⟩ ∧
      ledger' = { ledger with constructed := ledger.constructed + 1 } := by
  unfold Ledger.copy at h
  split_ifs at h
  cases h
  exact ⟨rfl, rfl⟩

/-- **A row with attached content** holds what the content stands for. -/
theorem attachEventContent_spec (row : Row S T V) {content : Content S K V}
    (hlive : row.dataObjectLive = false)
    (hdata : row.data = [])
    (h : attachEventContent P row content ledger copied = some (row', ledger')) :
    Fills P row row' ledger ledger' ∧ row'.given =
      some ⟨row.name, row.sendId, row.origin, row.originType, row.invokeId, content.given P⟩ := by
  unfold attachEventContent at h
  split_ifs at h with hinUse
  cases content with
  | invalid =>
    cases h
    exact ⟨Fills.refl hlive, by simp [Row.given, hlive, hdata, Content.given]⟩
  | scalar value =>
    obtain ⟨text, htext, hpair⟩ := Option.map_eq_some_iff.mp h
    cases hpair
    exact ⟨⟨rfl, rfl, rfl, .inl ⟨hlive, rfl⟩⟩, by simp [Row.given, hlive, Content.given, htext]⟩
  | textUtf8 bytes =>
    dsimp only at h
    split_ifs at h
    cases h
    exact ⟨⟨rfl, rfl, rfl, .inl ⟨hlive, rfl⟩⟩, by simp [Row.given, hlive, Content.given]⟩
  | xmlUtf8 bytes =>
    dsimp only at h
    split_ifs at h
    cases h
    exact ⟨⟨rfl, rfl, rfl, .inl ⟨hlive, rfl⟩⟩, by simp [Row.given, hlive, Content.given]⟩
  | cmeta schema value =>
    dsimp only at h
    split_ifs at h
    obtain ⟨⟨object, ledger''⟩, hcopy, hpair⟩ := Option.map_eq_some_iff.mp h
    cases hpair
    obtain ⟨rfl, rfl⟩ := Ledger.copy_eq_some hcopy
    exact ⟨⟨rfl, rfl, rfl, .inr ⟨rfl, ⟨schema, _, rfl, rfl, rfl⟩, rfl, rfl⟩⟩, rfl⟩

omit [DecidableEq S] in
theorem NamedPayload.fill_spec {p : NamedPayload P V} (hlive : row.dataObjectLive = false) :
    Fills P row (p.fill row ledger copied).1 ledger (p.fill row ledger copied).2.1 ∧
      ((p.fill row ledger copied).2.2 = true → (p.fill row ledger copied).1.given =
        some ⟨row.name, row.sendId, row.origin, row.originType, row.invokeId,
          .object p.schema (p.assigned.getD p.state)⟩) := by
  unfold NamedPayload.fill
  split
  next root hroot _ =>
    split
    next => exact ⟨Fills.refl hlive, (by intros; contradiction)⟩
    next object ledger' hcopy =>
      obtain ⟨rfl, rfl⟩ := Ledger.copy_eq_some hcopy
      split
      next =>
        exact ⟨⟨rfl, rfl, rfl, .inr ⟨rfl, ⟨root, _, rfl, rfl, rfl⟩, rfl, rfl⟩⟩,
          (by intros; contradiction)⟩
      next value hvalue =>
        refine ⟨⟨rfl, rfl, rfl, .inr ⟨rfl, ⟨p.schema, _, rfl, rfl, ?_⟩, rfl, rfl⟩⟩, fun _ => ?_⟩
        · exact (p.sameStorage root hroot).symm
        · simp [Row.given, hvalue]
  next => exact ⟨Fills.refl hlive, (by intros; contradiction)⟩

/-- **A row that the executor filled** holds what the executor sends. -/
theorem Work.fill_spec {work : Work P V} {token : ℕ} (ledger : Ledger S T V) (copied : Bool)
    (hrow : row = Row.zero.reserve token work.metadata) :
    Fills P row (work.fill row ledger copied).1 ledger (work.fill row ledger copied).2.1 ∧
      ((work.fill row ledger copied).2.2 = true →
        (work.fill row ledger copied).1.given = some work.given) := by
  subst hrow
  cases work with
  | send event payload =>
    cases payload with
    | content view =>
      simp only [Work.fill]
      split
      next row' ledger' hattach =>
        obtain ⟨hfills, hgiven⟩ := attachEventContent_spec _ rfl rfl hattach
        exact ⟨hfills, fun _ => hgiven⟩
      next => exact ⟨Fills.refl rfl, (by intros; contradiction)⟩
    | named payload => exact NamedPayload.fill_spec rfl
  | failed execution id => exact ⟨Fills.refl rfl, fun _ => rfl⟩

end Fill

variable {s s' s₁ : State n ι P V} {use use' : Fin n → RowUse ι} {r : Fin n} {row : Row S T V}
  {w : Option ι} {ledger : Ledger S T V} {x : Purpose}

/-! ## Releasing a row -/

theorem Core.release_enter (h : Core s use) (huse : use r = .held w .filling) :
    ((s.release r .enter).2 = none ∧ Core (s.release r .enter).1 (update use r (.other .free)) ∧
      (s.release r .enter).1.rows = update s.rows r Row.zero) ∨
    ((s.release r .enter).2 = some (.destroy (s.rows r).dataSchema) ∧
      Core (s.release r .enter).1 (update use r (.held w .draining)) ∧
      (s.release r .enter).1.rows = update s.rows r { s.rows r with inUse := false }) := by
  have hfits := h.pool.fits r
  rw [huse] at hfits
  cases hlive : (s.rows r).dataObjectLive with
  | false =>
    have hrelease : (s.rows r).release = (Row.zero, none) := by
      simp [Row.release, hfits.session, hfits.inUse, hlive]
    left
    simp only [State.release, hrelease, hfits.inUse]
    exact ⟨rfl, h.free huse hlive, rfl⟩
  | true =>
    have hrelease : (s.rows r).release
        = ({ s.rows r with inUse := false }, some (s.rows r).dataSchema) := by
      simp [Row.release, hfits.session, hfits.inUse, hlive]
    right
    simp only [State.release, hrelease, hfits.inUse]
    exact ⟨rfl, h.drain huse hlive, rfl⟩

/-- **A step of a release** keeps the row or gives it back. -/
theorem Core.release (h : Core s use) {phase : Phase S} {token : ℕ}
    (huse : use r = .held w phase.stage) (hholds : phase.Holds token (s.rows r)) :
    (∃ phase' row, (s.release r phase).2 = some phase' ∧ phase'.Holds token row ∧
      (s.release r phase).1.rows = update s.rows r row ∧
      Core (s.release r phase).1 (update use r (.held w phase'.stage))) ∨
    (∃ row, (s.release r phase).2 = none ∧ (s.release r phase).1.rows = update s.rows r row ∧
      Core (s.release r phase).1 (update use r (.other .free))) := by
  cases phase with
  | enter =>
    rcases h.release_enter huse with ⟨hnone, hcore, hrows⟩ | ⟨hsome, hcore, hrows⟩
    · exact .inr ⟨_, hnone, hrows, hcore⟩
    · exact .inl ⟨.destroy (s.rows r).dataSchema, { s.rows r with inUse := false }, hsome, rfl,
        hrows, hcore⟩
  | destroy schema =>
    obtain rfl : (s.rows r).dataSchema = schema := hholds
    exact .inl ⟨.clear, s.rows r, rfl, trivial, (update_eq_self r s.rows).symm, h.destroy huse⟩
  | clear => exact .inr ⟨_, rfl, rfl, h.clear huse⟩

theorem release_aside (phase : Phase S) :
    (s.release r phase).1.producers = s.producers ∧
      (s.release r phase).1.executor = s.executor ∧ (s.release r phase).1.current = s.current ∧
      (s.release r phase).1.observed = s.observed := by
  cases phase with
  | enter =>
    simp only [State.release]
    split <;> exact ⟨rfl, rfl, rfl, rfl⟩
  | destroy schema => exact ⟨rfl, rfl, rfl, rfl⟩
  | clear => exact ⟨rfl, rfl, rfl, rfl⟩

/-! ## Threads -/

section Producers

variable [DecidableEq ι] {i : ι} {pc : Producer n S K V}

theorem Held.producer (h : Held s use) (new : Option Stage)
    (hgrip : pc.grip = new.map fun stage => (r, stage))
    (hr : (∃ stage, s.grip (some i) = some (r, stage)) ∨ ∃ x, use r = .other x)
    (hmatched : Matched (update s.grip (some i) pc.grip) use')
    (hholds : new.isSome → pc.Holds P row) (hrows : s₁.rows = update s.rows r row)
    (haside : s₁.producers = s.producers ∧ s₁.executor = s.executor ∧ s₁.current = s.current ∧
      s₁.observed = s.observed) :
    Held (s₁.setProducer i pc) use' := by
  obtain ⟨hproducers, hexecutor, hcurrent, hobserved⟩ := haside
  have hsgrip : s₁.grip = s.grip := by
    funext w
    cases w with
    | none => simp only [State.grip, hexecutor]
    | some j => simp only [State.grip, hproducers]
  have hgrip' : (s₁.setProducer i pc).grip = update s.grip (some i) pc.grip := by
    rw [grip_setProducer, hsgrip]
  refine ⟨hgrip' ▸ hmatched, ?_, ?_, ?_⟩
  · rw [hgrip', hgrip]
    change ∀ w r' stage, _ → (s₁.setProducer i pc).Holds (s₁.rows r') w
    rw [hrows]
    refine h.holds_update hr (fun w hw row' hrow' => ?_) fun stage hstage => ?_
    · cases w with
      | none =>
        change s₁.executor.Holds s₁.current row'
        rw [hexecutor, hcurrent]
        exact hrow'
      | some j =>
        have hj : j ≠ i := fun heq => hw (congrArg some heq)
        change (update s₁.producers i pc j).Holds P row'
        rw [update_of_ne hj, hproducers]
        exact hrow'
    · change (update s₁.producers i pc i).Holds P row
      rw [update_self]
      exact hholds (by rw [hstage]; rfl)
  · change s₁.executor.Shows s₁.current
    rw [hexecutor, hcurrent]
    exact h.shows
  · change ∀ o ∈ s₁.observed, _
    rw [hobserved]
    exact h.observed

omit [DecidableEq ι] in
theorem Held.of_producer (h : Held s use) (stage : Stage) (hpc : s.producers i = pc)
    (hgrip : pc.grip = some (r, stage)) :
    s.grip (some i) = some (r, stage) ∧ use r = .held (some i) stage ∧ pc.Holds P (s.rows r) := by
  have hs : s.grip (some i) = some (r, stage) := by
    simp only [State.grip, hpc]
    exact hgrip
  have hholds := h.holds _ _ _ hs
  simp only [State.Holds, hpc] at hholds
  exact ⟨hs, (h.matched _ _ _).mp hs, hholds⟩

theorem Held.producerIdle (h : Held s use) (hold : (s.producers i).grip = none)
    (hnew : pc.grip = none) : Held (s.setProducer i pc) use := by
  have hgrip : (s.setProducer i pc).grip = s.grip := by
    rw [grip_setProducer, hnew, ← hold]
    exact update_eq_self _ _
  refine ⟨hgrip ▸ h.matched, fun w r stage hw => ?_, h.shows, h.observed⟩
  cases w with
  | none => exact h.holds none r stage hw
  | some j =>
    by_cases hj : j = i
    · rw [hgrip, hj] at hw
      exact absurd (hold.symm.trans hw) (by simp)
    · change (update s.producers i pc j).Holds P _
      rw [update_of_ne hj]
      rw [hgrip] at hw
      exact h.holds (some j) r stage hw

theorem Core.setProducer (h : Core s use) : Core (s.setProducer i pc) use :=
  ⟨h.pool, h.nextToken, h.queued, h.raised, h.dropped, h.ticketed, h.objects⟩

omit [DecidableEq ι] in
theorem Core.enqueue (h : Core s use) (huse : use r = .held w .filling) {e : Event S V}
    {g : Given S V} (hgiven : e.given = some g) (htoken : (s.rows r).token = e.token)
    (hrow : (s.rows r).given = some g) :
    Core { s with external := s.external ++ [e] } (update use r (.other .queued)) := by
  have hfits := h.pool.fits r
  rw [huse] at hfits
  have hother : ∀ x, use r ≠ .other x := by simp [huse]
  have hpushed : Linked (s.queue ++ [e]) s.rows (update use r (.other .queued)) .queued := by
    refine h.queued.push hgiven ?_ htoken hrow fun q hq heq => ?_
    · rw [← htoken]
      exact hasTokenBit_of_lt (h.pool.bit r hfits.inUse)
    · have hqfits := h.pool.fits q
      rw [hq] at hqfits
      have hqr := h.pool.eq_of_token hfits.inUse hqfits.inUse (htoken.trans heq.symm)
      exact hother _ (hqr ▸ hq)
  refine ⟨h.pool.rename hfits, h.nextToken, hpushed.perm ?_, fun hd => ?_, h.dropped,
    h.ticketed.rename (hother _) (by simp), h.objects.rename (by rw [huse]; rfl)⟩
  · change (s.external ++ [e] ++ s.internal ++ s.executor.event.toList).Perm _
    simp only [State.queue, List.append_assoc]
    refine List.Perm.append_left _ ?_
    rw [← List.append_assoc s.internal]
    exact List.perm_append_comm
  · exact (h.raised hd).rename (hother _) (by simp)

variable [DecidableEq S]

/-- **A step of a thread.** -/
theorem Invariant.stepProducer (h : Invariant s) {a : ProducerStep S K V}
    (hs : s.stepProducer i a = some s') (hbound : s'.reservations + 1 < tokenBit) :
    Invariant s' := by
  obtain ⟨use, hcore, hheld⟩ := h
  cases a with
  | trySendWithMetadata event metadata =>
    simp only [State.stepProducer] at hs
    split at hs
    next status hpc =>
      cases hs
      refine ⟨use, hcore.setProducer, hheld.producerIdle (by rw [hpc]; rfl) ?_⟩
      unfold Call.begin
      split <;> rfl
    next => cases hs
  | trySendNamedWithMetadata name metadata =>
    simp only [State.stepProducer] at hs
    split at hs
    next status hpc =>
      split at hs
      next =>
        cases hs
        exact ⟨use, hcore.setProducer, hheld.producerIdle (by rw [hpc]; rfl) rfl⟩
      next =>
        cases hs
        refine ⟨use, hcore.setProducer, hheld.producerIdle (by rw [hpc]; rfl) ?_⟩
        unfold Call.begin
        split <;> rfl
    next => cases hs
  | reserve =>
    simp only [State.stepProducer] at hs
    split at hs
    next call hpc =>
      split at hs
      next =>
        cases hs
        exact ⟨use, hcore.setProducer, hheld.producerIdle (by rw [hpc]; rfl) rfl⟩
      next r s₁ hreserve =>
        cases hs
        obtain ⟨huse, hs₁, hcore'⟩ := hcore.reserve hreserve hbound (some i)
        have hnone : s.grip (some i) = none := by
          simp only [State.grip, hpc]
          rfl
        refine ⟨update use r (.held (some i) .filling), hcore'.setProducer,
          hheld.producer (some .filling) rfl (.inr ⟨_, huse⟩)
            (hheld.matched.take hnone huse .filling) (fun _ => rfl) ?_ ?_⟩
        · rw [hs₁]
        · rw [hs₁]
          exact ⟨rfl, rfl, rfl, rfl⟩
    next => cases hs
  | attach copied =>
    simp only [State.stepProducer] at hs
    split at hs
    next call r token hpc =>
      obtain ⟨hgrip, huse, hrow⟩ := hheld.of_producer .filling hpc rfl
      have hempty : (s.rows r).dataObjectLive = false := by
        rw [hrow]
        rfl
      have hdata : (s.rows r).data = [] := by
        rw [hrow]
        rfl
      split at hs
      next =>
        cases hs
        have hfills : Fills P (s.rows r) { s.rows r with name := call.name } s.ledger s.ledger :=
          ⟨rfl, rfl, rfl, .inl ⟨hempty, rfl⟩⟩
        refine ⟨use, (hcore.fill huse hempty hfills).setProducer,
          hheld.producer (some .filling) rfl (.inl ⟨_, hgrip⟩) (hheld.matched.stay hgrip)
            (fun _ => ?_) rfl ⟨rfl, rfl, rfl, rfl⟩⟩
        change (s.rows r).token = token
        rw [hrow]
        rfl
      next row' ledger hattach =>
        cases hs
        obtain ⟨hfills, hgiven⟩ := attachEventContent_spec
          { s.rows r with name := call.name } hempty hdata hattach
        refine ⟨use, (hcore.fill huse hempty hfills).setProducer,
          hheld.producer (some .filling) rfl (.inl ⟨_, hgrip⟩) (hheld.matched.stay hgrip)
            (fun _ => ⟨?_, ?_⟩) rfl ⟨rfl, rfl, rfl, rfl⟩⟩
        · rw [hfills.2.2.1, hrow]
          rfl
        · rw [hgiven, hrow]
          rfl
    next => cases hs
  | trySendTagged status =>
    simp only [State.stepProducer] at hs
    split at hs
    next call r token hpc =>
      obtain ⟨hgrip, huse, htoken, hgiven⟩ := hheld.of_producer .filling hpc rfl
      split_ifs at hs
      · cases hs
        exact ⟨update use r (.other .queued), (hcore.enqueue huse rfl htoken hgiven).setProducer,
          hheld.producer none rfl (.inl ⟨_, hgrip⟩) (hheld.matched.give hgrip .queued)
            (by intros; contradiction)
            (update_eq_self r s.rows).symm ⟨rfl, rfl, rfl, rfl⟩⟩
      · cases hs
        exact ⟨use, hcore.setProducer, hheld.producer (some .filling) rfl (.inl ⟨_, hgrip⟩)
          (hheld.matched.stay hgrip) (fun _ => htoken) (update_eq_self r s.rows).symm
          ⟨rfl, rfl, rfl, rfl⟩⟩
    next => cases hs
  | release =>
    simp only [State.stepProducer] at hs
    split at hs
    next r token phase status hpc =>
      obtain ⟨hgrip, huse, hholds⟩ := hheld.of_producer phase.stage hpc rfl
      have haside := release_aside (s := s) (r := r) phase
      rcases hcore.release huse hholds with
        ⟨phase', row, hsome, hholds', hrows, hcore'⟩ | ⟨row, hnone, hrows, hcore'⟩
      · split at hs
        next s₁ phase'' heq =>
          cases hs
          rw [heq] at hsome hrows hcore' haside
          cases hsome
          exact ⟨_, hcore'.setProducer, hheld.producer (some phase'.stage) rfl (.inl ⟨_, hgrip⟩)
            (hheld.matched.move hgrip phase'.stage) (fun _ => hholds') hrows haside⟩
        next s₁ heq =>
          rw [heq] at hsome
          cases hsome
      · split at hs
        next s₁ phase'' heq =>
          rw [heq] at hnone
          cases hnone
        next s₁ heq =>
          cases hs
          rw [heq] at hrows hcore' haside
          exact ⟨_, hcore'.setProducer, hheld.producer none rfl (.inl ⟨_, hgrip⟩)
            (hheld.matched.give hgrip .free) (by intros; contradiction) hrows haside⟩
    next => cases hs

end Producers

end TurboScxml.Events
