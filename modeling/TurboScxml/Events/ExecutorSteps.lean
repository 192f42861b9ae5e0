import TurboScxml.Events.ProducerSteps

/-!
# The steps of the executor keep the invariant

* `Held.executor`: the executor goes on with its row;
* `Core.stage`, `Core.commit`, `Core.unstage`: the tickets of a step;
* `Invariant.take`, `Invariant.lookup`, `Invariant.copy`, `Invariant.complete`: an observation.
-/

namespace TurboScxml.Events

open Function Parties Tokens

variable {S T K V ι : Type} {n : ℕ} {P : Program S T K} {s s' s₁ : State n ι P V}
  {use use' : Fin n → RowUse ι} {r : Fin n} {row : Row S T V} {pc : Executor n P V}
  {event : Event S V} {kind : Kind} {g : Given S V}

/-! ## The executor and its row -/

theorem Held.executor [DecidableEq ι] (h : Held s use) (new : Option Stage)
    (hgrip : pc.grip = new.map fun stage => (r, stage))
    (hr : (∃ stage, s.grip none = some (r, stage)) ∨ ∃ x, use r = .other x)
    (hmatched : Matched (update s.grip none pc.grip) use')
    (hholds : new.isSome → pc.Holds s₁.current row) (hshows : pc.Shows s₁.current)
    (hobserved : ∀ o ∈ s₁.observed, o.Faithful P) (hrows : s₁.rows = update s.rows r row)
    (hproducers : s₁.producers = s.producers) : Held (s₁.goto pc) use' := by
  have hgrip' : (s₁.goto pc).grip = update s.grip none pc.grip := by
    funext w
    cases w with
    | none => rw [update_self]; rfl
    | some j =>
      rw [update_of_ne (by simp)]
      simp only [State.grip, State.goto, hproducers]
  refine ⟨hgrip' ▸ hmatched, ?_, hshows, hobserved⟩
  rw [hgrip', hgrip]
  change ∀ w r' stage, _ → (s₁.goto pc).Holds (s₁.rows r') w
  rw [hrows]
  refine h.holds_update hr (fun w hw row' hrow' => ?_) fun stage hstage => ?_
  · cases w with
    | none => exact absurd rfl hw
    | some j =>
      change (s₁.producers j).Holds P row'
      rw [hproducers]
      exact hrow'
  · exact hholds (by rw [hstage]; rfl)

theorem Held.executorIdle (h : Held s use) (hold : s.executor.grip = none)
    (hnew : pc.grip = none)
    (huse : ∀ r w stage, use' r = .held w stage ↔ use r = .held w stage)
    (hshows : pc.Shows s₁.current) (hobserved : ∀ o ∈ s₁.observed, o.Faithful P)
    (hrows : ∀ r, (∀ x, use r ≠ .other x) → s₁.rows r = s.rows r)
    (hproducers : s₁.producers = s.producers) : Held (s₁.goto pc) use' := by
  have hgrip : (s₁.goto pc).grip = s.grip := by
    funext w
    cases w with
    | none => exact hnew.trans hold.symm
    | some j => simp only [State.grip, State.goto, hproducers]
  refine ⟨hgrip ▸ h.matched.relabel huse, fun w r stage hw => ?_, hshows, hobserved⟩
  rw [hgrip] at hw
  have hr : ∀ x, use r ≠ .other x := by
    rw [(h.matched w r stage).mp hw]
    simp
  change (s₁.goto pc).Holds (s₁.rows r) w
  rw [hrows r hr]
  cases w with
  | none => exact absurd (hold.symm.trans hw) (by simp)
  | some j =>
    change (s₁.producers j).Holds P _
    rw [hproducers]
    exact h.holds (some j) r stage hw

theorem Held.observe (h : Held s use) (hold : s.executor.grip = none)
    {invocation : Option Invocation}
    (huse : ∀ r w stage, use' r = .held w stage ↔ use r = .held w stage)
    (hfaithful : s₁.current.values = event.expected P kind invocation)
    (hrows : ∀ r, (∀ x, use r ≠ .other x) → s₁.rows r = s.rows r)
    (hproducers : s₁.producers = s.producers) (hobserved : s₁.observed = s.observed) :
    Held (s₁.observe event kind invocation) use' := by
  change Held (State.goto { s₁ with
    observed := ⟨event, kind, invocation, s₁.current.values⟩ :: s₁.observed } .idle) use'
  refine h.executorIdle hold rfl huse trivial (fun o ho => ?_) hrows hproducers
  rcases List.mem_cons.mp ho with rfl | ho
  · exact hfaithful
  · rw [hobserved] at ho
    exact h.observed o ho

theorem Held.of_executor (h : Held s use) (stage : Stage) (hpc : s.executor = pc)
    (hgrip : pc.grip = some (r, stage)) :
    s.grip none = some (r, stage) ∧ use r = .held none stage ∧ pc.Holds s.current (s.rows r) := by
  have hs : s.grip none = some (r, stage) := by
    simp only [State.grip, hpc]
    exact hgrip
  have hholds := h.holds _ _ _ hs
  simp only [State.Holds, hpc] at hholds
  exact ⟨hs, (h.matched _ _ _).mp hs, hholds⟩

/-! ## Events and tickets of a step -/

theorem Core.raisePlain (h : Core s use) (hpc : s.executor.discards = false) (id : ℕ) :
    Core (s.raisePlain id) use :=
  ⟨h.pool, h.nextToken, h.queued, fun hd => (h.raised hd).pushPlain rfl rfl,
    fun hd => absurd (hpc.symm.trans hd) (by simp), h.ticketed, h.objects⟩

theorem Core.stage (h : Core s use) (hpc : s.executor.doomed = false)
    (hdiscards : s.executor.discards = false) (huse : use r = .held none .filling)
    (hgiven : event.given = some g) (htoken : (s.rows r).token = event.token)
    (hrow : (s.rows r).given = some g) :
    Core { s with raised := s.raised ++ [event], staged := s.staged ++ [⟨r, event.token⟩] }
      (update use r (.other .staged)) := by
  have hfits := h.pool.fits r
  rw [huse] at hfits
  have hother : ∀ x, use r ≠ .other x := by simp [huse]
  refine ⟨h.pool.rename hfits, h.nextToken, h.queued.rename (hother _) (by simp), fun hd => ?_,
    fun hd => absurd (hdiscards.symm.trans hd) (by simp), ?_,
    h.objects.rename (by rw [huse]; rfl)⟩
  · refine (h.raised hpc).push hgiven ?_ htoken hrow fun q hq heq => ?_
    · rw [← htoken]
      exact hasTokenBit_of_lt (h.pool.bit r hfits.inUse)
    · have hqfits := h.pool.fits q
      rw [hq] at hqfits
      have hqr := h.pool.eq_of_token hfits.inUse hqfits.inUse (htoken.trans heq.symm)
      exact hother _ (hqr ▸ hq)
  · exact h.ticketed.push (hother _) htoken

def committedUse (use : Fin n → RowUse ι) (r : Fin n) : RowUse ι :=
  match use r with
  | .other .staged => .other .queued
  | u => u

theorem committedUse_held {w : Option ι} {stage : Stage} :
    committedUse use r = .held w stage ↔ use r = .held w stage := by
  unfold committedUse
  split
  next h => simp [h]
  next => rfl

theorem committedUse_queued :
    committedUse use r = .other .queued ↔ use r = .other .queued ∨ use r = .other .staged := by
  unfold committedUse
  split
  next h => simp [h]
  next h => exact ⟨.inl, fun hor => hor.resolve_right h⟩

theorem committedUse_staged : committedUse use r ≠ .other .staged := by
  unfold committedUse
  split
  next => simp
  next h => exact h

theorem committedUse_fits (hfits : row.Fits P (use r)) : row.Fits P (committedUse use r) := by
  unfold committedUse
  split
  next h =>
    rw [h] at hfits
    exact hfits
  next => exact hfits

theorem committedUse_object : row.object (committedUse use r) = row.object (use r) := by
  unfold committedUse
  split
  next h =>
    rw [h]
    rfl
  next => rfl

/-- **A commit** queues the raised events with their rows. -/
theorem Core.commit (h : Core s use) (hpc : s.executor = .idle) :
    Core { s with internal := s.internal ++ s.raised, raised := [], staged := [] }
      (committedUse use) := by
  have hraised := h.raised (by rw [hpc]; rfl)
  refine ⟨h.pool.relabel fun r hfits => committedUse_fits hfits, h.nextToken, ?_, fun _ => ?_,
    fun _ => rfl, Ticketed.nil fun r => committedUse_staged,
    h.objects.relabel fun r => committedUse_object⟩
  · have hmerged : Linked (s.queue ++ s.raised) s.rows (committedUse use) .queued := by
      refine h.queued.merge hraised (fun q r hq hr heq => ?_) fun r => committedUse_queued
      have hqfits := h.pool.fits q
      have hrfits := h.pool.fits r
      rw [hq] at hqfits
      rw [hr] at hrfits
      obtain rfl := h.pool.eq_of_token hqfits.inUse hrfits.inUse heq
      rw [hq] at hr
      cases hr
    refine hmerged.perm ?_
    change (s.external ++ (s.internal ++ s.raised) ++ s.executor.event.toList).Perm _
    simp [State.queue, hpc, Executor.event]
  · exact Linked.nil fun r => committedUse_staged

theorem Core.drop (h : Core s use) (hevent : pc.event = s.executor.event)
    (hpc : pc.doomed = true) : Core ({ s with raised := [] }.goto pc) use where
  pool := h.pool
  nextToken := h.nextToken
  queued := by
    change Linked (s.external ++ s.internal ++ pc.event.toList) s.rows use .queued
    rw [hevent]
    exact h.queued
  raised hd := absurd (hpc.symm.trans hd) (by simp)
  dropped _ := rfl
  ticketed := h.ticketed
  objects := h.objects

theorem Core.unstage (h : Core s use) {ticket : Ticket n} {rest : List (Ticket n)}
    (hstaged : s.staged = ticket :: rest) (hpc : s.executor.doomed = true) :
    use ticket.row = .other .staged ∧ (s.rows ticket.row).token = ticket.token ∧
      Core { s with staged := rest } (update use ticket.row (.held none .filling)) := by
  have hticketed := h.ticketed
  rw [hstaged] at hticketed
  obtain ⟨huse, htoken⟩ := hticketed.marked ticket List.mem_cons_self
  have hfits := h.pool.fits ticket.row
  rw [huse] at hfits
  refine ⟨huse, htoken, h.pool.rename hfits, h.nextToken,
    h.queued.rename (by simp [huse]) (by simp), fun hd => absurd (hpc.symm.trans hd) (by simp),
    h.dropped, hticketed.pop (by simp), h.objects.rename (by rw [huse]; rfl)⟩

/-! ## Observations -/

variable {external internal : List (Event S V)}

theorem Core.requeue (h : Core s use)
    {c : Current S T V} {ledger : Ledger S T V} {observed : List (Observation S V)}
    (hqueue : Linked (external ++ internal ++ pc.event.toList) s.rows use .queued)
    (hobjects : Objects P s.rows use c ledger)
    (hdoomed : pc.doomed = false → s.executor.doomed = false) (hpc : pc.discards = false) :
    Core { s with
      external, internal, current := c, ledger, executor := pc, observed } use where
  pool := h.pool
  nextToken := h.nextToken
  queued := hqueue
  raised hd := h.raised (hdoomed hd)
  dropped hd := absurd (hpc.symm.trans hd) (by simp)
  ticketed := h.ticketed
  objects := hobjects

/-- **The first part of an observation.** -/
theorem Invariant.take (hcore : Core s use) (hheld : Held s use) (hpc : s.executor = .idle)
    (hperm : s.queue.Perm (event :: (external ++ internal))) :
    Invariant (({ s with external, internal } : State n ι P V).take event kind) := by
  have hgrip : s.executor.grip = none := by
    rw [hpc]
    rfl
  have hdoomed : s.executor.doomed = false := by
    rw [hpc]
    rfl
  have hobjects := hcore.objects.clear
  have hkept : Linked (external ++ internal ++ [event]) s.rows use .queued :=
    hcore.queued.perm (List.perm_append_comm.trans hperm.symm)
  have hmem : event ∈ s.queue := hperm.mem_iff.mpr List.mem_cons_self
  simp only [State.take]
  split
  next =>
    exact ⟨use, hcore.requeue hkept hobjects (fun _ => hdoomed) rfl,
      hheld.executorIdle hgrip rfl (fun _ _ _ => Iff.rfl) trivial hheld.observed
        (fun _ _ => rfl) rfl⟩
  next =>
    split
    next =>
      exact ⟨use, hcore.requeue hkept hobjects (fun _ => hdoomed) rfl,
        hheld.executorIdle hgrip rfl (fun _ _ _ => Iff.rfl) trivial hheld.observed
          (fun _ _ => rfl) rfl⟩
    next name hname =>
      have hentitled : Objects P s.rows use
          ((s.current.clear s.ledger).1.entitle name (P.eventType kind event.id))
          (s.current.clear s.ledger).2 := hobjects.setCurrent rfl rfl fun _ => rfl
      split
      next htoken =>
        have hplain : event.given = none := by
          cases hgiven : event.given with
          | none => rfl
          | some g =>
            have hbit := (hcore.queued.tagged event hmem g hgiven).1
            rcases Bool.or_eq_true_iff.mp htoken with hzero | hkind
            · rw [of_decide_eq_true hzero] at hbit
              exact absurd hbit (by decide)
            · rw [hbit] at hkind
              simp at hkind
        have hpopped : Linked (external ++ internal ++ []) s.rows use .queued := by
          rw [List.append_nil]
          exact (hcore.queued.perm hperm.symm).popPlain hplain
        refine ⟨use, hcore.requeue hpopped hentitled (fun _ => hdoomed) rfl,
          hheld.observe hgrip (fun _ _ _ => Iff.rfl) ?_ (fun _ _ => rfl) rfl rfl⟩
        simp only [Event.expected, hplain, hname]
        rfl
      next =>
        exact ⟨use, hcore.requeue hkept hentitled (fun _ => hdoomed) rfl,
          hheld.executorIdle hgrip rfl (fun _ _ _ => Iff.rfl) ⟨rfl, name, hname, rfl⟩
            hheld.observed (fun _ _ => rfl) rfl⟩

theorem Row.given_text (h : row.dataObjectLive = false) : row.given =
    some ⟨row.name, row.sendId, row.origin, row.originType, row.invokeId, .text row.data⟩ := by
  simp [Row.given, h]

theorem Row.given_object (h : row.dataObjectLive = true)
    (hhoused : Housed P row.dataSchema row.dataObject) :
    ∃ schema object, row.dataSchema = some schema ∧ row.dataObject = some object ∧
      row.given = some ⟨row.name, row.sendId, row.origin, row.originType, row.invokeId,
        .object schema object.value⟩ := by
  obtain ⟨schema, object, hschema, hobject, -⟩ := hhoused
  exact ⟨schema, object, hschema, hobject, by simp [Row.given, h, hschema, hobject]⟩

theorem held_update_other {x y : Purpose} (hr : use r = .other x) (q : Fin n) (w : Option ι)
    (stage : Stage) : update use r (.other y) q = .held w stage ↔ use q = .held w stage := by
  by_cases hq : q = r
  · rw [hq, update_self, hr]
    simp
  · rw [update_of_ne hq]

theorem rows_update_other {x : Purpose} (hr : use r = .other x) (q : Fin n)
    (hq : ∀ y, use q ≠ .other y) : update s.rows r row q = s.rows q :=
  update_of_ne (fun heq => hq x (by rw [heq, hr])) _ _

theorem Core.find (h : Core s use) (hmem : event ∈ s.queue)
    (hbit : hasTokenBit event.token = true) :
    ∃ r g, event.given = some g ∧ use r = .other .queued ∧ (s.rows r).token = event.token ∧
      (s.rows r).given = some g ∧
      Fin.find? (fun r => (s.rows r).inUse && (s.rows r).token == event.token) = some r := by
  cases hgiven : event.given with
  | none => exact absurd (hbit.symm.trans (h.queued.plain event hmem hgiven)) (by simp)
  | some g =>
    obtain ⟨-, r, huse, htoken, hrow⟩ := h.queued.tagged event hmem g hgiven
    have hfits := h.pool.fits r
    rw [huse] at hfits
    refine ⟨r, g, rfl, huse, htoken, hrow, Fin.find?_eq_some_iff.mpr ⟨?_, fun q hq => ?_⟩⟩
    · simp [hfits.inUse, htoken]
    · by_contra hfound
      simp only [Bool.not_eq_false, Bool.and_eq_true, beq_iff_eq] at hfound
      have heq := h.pool.eq_of_token hfits.inUse hfound.1 (htoken.trans hfound.2.symm)
      exact absurd hq (heq ▸ Fin.lt_irrefl _)

variable [DecidableEq ι]

variable (hcore : Core s use)
include hcore

/-- **The lookup** finds the row of a tagged event. -/
theorem Invariant.lookup (hheld : Held s use)
    (hpc : s.executor = .taken event kind) (invocation : Option Invocation) :
    Invariant (s.lookup event kind invocation) := by
  have hgrip : s.executor.grip = none := by
    rw [hpc]
    rfl
  have hqueue : s.queue = s.external ++ s.internal ++ [event] := by
    simp only [State.queue, hpc]
    rfl
  have hperm : s.queue.Perm (event :: (s.external ++ s.internal)) := by
    rw [hqueue]
    exact List.perm_append_comm
  have hmem : event ∈ s.queue := hperm.mem_iff.mpr List.mem_cons_self
  have hshows := hheld.shows
  rw [hpc] at hshows
  obtain ⟨hlive, name, hname, hvalues⟩ := hshows
  have hdoomed : s.executor.doomed = false := by
    rw [hpc]
    rfl
  unfold State.lookup
  split
  next hbit =>
    obtain ⟨r, g, hgiven, huse, htoken, hrow, hfind⟩ := hcore.find hmem hbit
    have hfits := hcore.pool.fits r
    rw [huse] at hfits
    have hunique : ∀ q, use q = .other .queued → (s.rows q).token = event.token → q = r := by
      intro q hq heq
      have hqfits := hcore.pool.fits q
      rw [hq] at hqfits
      exact hcore.pool.eq_of_token hqfits.inUse hfits.inUse (heq.trans htoken.symm)
    have hstaged : use r ≠ .other .staged := by simp [huse]
    rw [hfind]
    dsimp only
    split
    next hobject =>
      obtain ⟨schema, object, hschema, hobject', hgiven'⟩ :=
        Row.given_object hobject (hfits.housed hobject)
      obtain rfl := Option.some_inj.mp (hrow.symm.trans hgiven')
      refine ⟨update use r (.held none .draining), ⟨?_, hcore.nextToken, ?_, fun _ => ?_,
        (by intros; contradiction),
        hcore.ticketed.frame hstaged (by simp), ?_⟩, ?_⟩
      · exact hcore.pool.free ⟨rfl, hobject, hfits.housed hobject⟩ hfits.inUse rfl (.inr rfl)
      · change Linked (s.external ++ s.internal ++ []) _ _ _
        rw [List.append_nil]
        exact (hcore.queued.perm hperm.symm).pop hgiven htoken (by simp) hunique
      · exact (hcore.raised hdoomed).frame hstaged (by simp)
      · refine (hcore.objects.write (by rw [huse]; rfl) fun hnone => ?_).setCurrent rfl rfl
          fun _ => rfl
        simp [Row.object, hobject, hobject'] at hnone
      · refine hheld.executor (some .draining) rfl (.inr ⟨_, huse⟩)
          (hheld.matched.take (w := none) hgrip huse .draining) (fun _ => ⟨?_, hlive⟩) trivial
          hheld.observed rfl rfl
        refine ⟨schema, object, _, hschema, hobject', hgiven, ?_⟩
        simp [State.setRow, Current.copyRow, hvalues, plainValues, Given.shown, hname]
    next hobject =>
      have hempty : (s.rows r).dataObjectLive = false := by simpa using hobject
      obtain rfl := Option.some_inj.mp (hrow.symm.trans (Row.given_text hempty))
      refine ⟨update use r (.other .free), ⟨?_, hcore.nextToken, ?_, fun _ => ?_,
        (by intros; contradiction),
        hcore.ticketed.frame hstaged (by simp), ?_⟩, ?_⟩
      · exact hcore.pool.free rfl hfits.inUse rfl (.inl rfl)
      · change Linked (s.external ++ s.internal ++ []) _ _ _
        rw [List.append_nil]
        exact (hcore.queued.perm hperm.symm).pop hgiven htoken (by simp) hunique
      · exact (hcore.raised hdoomed).frame hstaged (by simp)
      · refine (hcore.objects.write ?_ fun _ => rfl).setCurrent rfl rfl fun _ => rfl
        rw [huse, Row.object_other, Row.object_other]
        simp [hempty, Row.zero]
      · refine hheld.observe hgrip (held_update_other huse) ?_ (rows_update_other huse) rfl rfl
        simp [State.setRow, Current.copyRow, hvalues, plainValues, Event.expected, hgiven,
          Given.shown, hname]
  next hbit =>
    have hplain : event.given = none := by
      cases hgiven : event.given with
      | none => rfl
      | some g => exact absurd (hcore.queued.tagged event hmem g hgiven).1 hbit
    have hkept : Linked (s.external ++ s.internal ++ [event]) s.rows use .queued :=
      hqueue ▸ hcore.queued
    have hpopped : Linked (s.external ++ s.internal ++ []) s.rows use .queued := by
      rw [List.append_nil]
      exact (hcore.queued.perm hperm.symm).popPlain hplain
    split
    next =>
      refine ⟨use, hcore.requeue hpopped hcore.objects (fun _ => hdoomed) rfl,
        hheld.observe hgrip (fun _ _ _ => Iff.rfl) ?_ (fun _ _ => rfl) rfl rfl⟩
      simp only [Event.expected, hplain, hname]
      exact hvalues
    next v =>
      have hobjects : Objects P s.rows use (s.current.showInvocation v) s.ledger :=
        hcore.objects.setCurrent rfl rfl fun _ => rfl
      split
      next =>
        exact ⟨use, hcore.requeue hkept hcore.objects (fun _ => hdoomed) rfl,
          hheld.executorIdle hgrip rfl (fun _ _ _ => Iff.rfl) trivial hheld.observed
            (fun _ _ => rfl) rfl⟩
      next =>
        split
        next hdone =>
          refine ⟨use, hcore.requeue hpopped hobjects (fun _ => hdoomed) rfl,
            hheld.observe hgrip (fun _ _ _ => Iff.rfl) ?_ (fun _ _ => rfl) rfl rfl⟩
          simp [Event.expected, hplain, hname, hdone, Current.showInvocation, hvalues, plainValues]
        next done hdone =>
          split
          next =>
            exact ⟨use, hcore.requeue hkept hobjects (fun _ => hdoomed) rfl,
              hheld.executorIdle hgrip rfl (fun _ _ _ => Iff.rfl) trivial hheld.observed
                (fun _ _ => rfl) rfl⟩
          next =>
            have hentitled : Objects P s.rows use ((s.current.showInvocation v).entitle done
                (s.current.showInvocation v).values.eventType) s.ledger :=
              hobjects.setCurrent rfl rfl fun _ => rfl
            refine ⟨use, hcore.requeue hpopped hentitled (fun _ => hdoomed) rfl,
              hheld.observe hgrip (fun _ _ _ => Iff.rfl) ?_ (fun _ _ => rfl) rfl rfl⟩
            simp [Event.expected, hplain, hdone, Current.showInvocation, Current.entitle, hvalues,
              plainValues]

/-- **The copy** shows the object of the row and destroys it there. -/
theorem Invariant.copy (hheld : Held s use)
    (hpc : s.executor = .copying event kind r) (copied : Bool) :
    Invariant (s.copy event kind r copied) := by
  obtain ⟨hgrip, huse, ⟨schema, object, g, hschema, hobject, hgiven, hvalues⟩, hlive⟩ :=
    hheld.of_executor .draining hpc rfl
  have hfits := hcore.pool.fits r
  rw [huse] at hfits
  have hdoomed : s.executor.doomed = false := by
    rw [hpc]
    rfl
  have hqueue : s.queue = s.external ++ s.internal ++ [] := by
    simp only [State.queue, hpc]
    rfl
  have hother : ∀ x, use r ≠ .other x := by simp [huse]
  have hcore' : ∀ (c : Current S T V) (ledger : Ledger S T V) (done : Bool),
      Objects P s.rows use c ledger →
      Core ({ s with
        current := c
        ledger := ledger.destroy (s.rows r).dataSchema (s.rows r).dataObject
        executor := .clearing event kind r done } : State n ι P V)
        (update use r (.held none .drained)) := by
    intro c ledger done hobjects
    refine ⟨hcore.pool.rename hfits, hcore.nextToken, ?_, fun _ => ?_, (by intros; contradiction),
      hcore.ticketed.rename (hother _) (by simp), hobjects.destroy hfits.housed ?_ rfl⟩
    · change Linked (s.external ++ s.internal ++ []) _ _ _
      rw [← hqueue]
      exact hcore.queued.rename (hother _) (by simp)
    · exact (hcore.raised hdoomed).rename (hother _) (by simp)
    · rw [huse]
      simp [Row.object, hfits.live]
  have hheld' : ∀ (c : Current S T V) (ledger : Ledger S T V) (done : Bool),
      (Executor.clearing event kind r done : Executor n P V).Shows c →
      Held (State.goto { s with current := c, ledger } (.clearing event kind r done))
        (update use r (.held none .drained)) := fun c ledger done hshows =>
    hheld.executor (some .drained) rfl (.inl ⟨_, hgrip⟩) (hheld.matched.move hgrip .drained)
      (fun _ => trivial) hshows hheld.observed (update_eq_self r s.rows).symm rfl
  rw [hschema, hobject] at hcore'
  simp only [State.copy, hschema, hobject]
  split
  next object' ledger hcopy =>
    obtain ⟨rfl, rfl⟩ := Ledger.copy_eq_some hcopy
    have hnone : s.current.object = none := by simp [Current.object, hlive]
    exact ⟨_, hcore' _ _ true (hcore.objects.copy hnone), hheld' _ _ true ⟨g, hgiven, hvalues⟩⟩
  next =>
    exact ⟨_, hcore' _ _ false hcore.objects, hheld' _ _ false trivial⟩

theorem Invariant.clear (hheld : Held s use) {copied : Bool}
    (hpc : s.executor = .clearing event kind r copied) :
    Invariant (if copied then (s.setRow r Row.zero).observe event kind none
      else (s.setRow r Row.zero).goto (.failed .copyFailed none)) := by
  obtain ⟨hgrip, huse, -⟩ := hheld.of_executor .drained hpc rfl
  have hcleared := hcore.clear huse
  have hshows := hheld.shows
  rw [hpc] at hshows
  cases copied with
  | true =>
    obtain ⟨g, hgiven, hvalues⟩ := hshows
    have hidle : Core ((s.setRow r Row.zero).goto .idle) (update use r (.other .free)) :=
      hcleared.goto hpc rfl (fun _ => rfl) (by intros; contradiction)
    refine ⟨_, ⟨hidle.pool, hidle.nextToken, hidle.queued, hidle.raised,
      (by intros; contradiction), hidle.ticketed,
      hidle.objects⟩, ?_⟩
    change Held (State.goto { s.setRow r Row.zero with
      observed := ⟨event, kind, none, s.current.values⟩ :: s.observed } .idle) _
    refine hheld.executor none rfl (.inl ⟨_, hgrip⟩) (hheld.matched.give hgrip .free)
      (by intros; contradiction)
      trivial (fun o ho => ?_) rfl rfl
    rcases List.mem_cons.mp ho with rfl | ho
    · simp only [Observation.Faithful, Event.expected, hgiven]
      exact hvalues
    · exact hheld.observed o ho
  | false =>
    exact ⟨_, hcleared.goto hpc rfl (fun _ => rfl) (by intros; contradiction),
      hheld.executor none rfl (.inl ⟨_, hgrip⟩) (hheld.matched.give hgrip .free)
        (by intros; contradiction) trivial
        hheld.observed rfl rfl⟩

omit [DecidableEq ι] in
/-- **The observation of a completion event.** -/
theorem Invariant.complete (hheld : Held s use) (hpc : s.executor = .idle)
    (state : Option Text) (data : DoneData S V) : Invariant (s.complete state data) := by
  have hgrip : s.executor.grip = none := by
    rw [hpc]
    rfl
  have hdoomed : s.executor.doomed = false := by
    rw [hpc]
    rfl
  have hobjects := hcore.objects.clear
  have hgoes : ∀ (c : Current S T V) (pc : Executor n P V), c.dataObject = s.current.dataObject →
      c.dataObjectLive = false → pc.event = none → pc.discards = false → pc.grip = none →
      (∀ c : Current S T V, pc.Shows c) →
      Invariant ({ s with
        current := c
        ledger := (s.current.clear s.ledger).2
        executor := pc } : State n ι P V) := by
    intro c pc hobject hlive hevent hdiscards hnew hshows
    have hheld' : Held (State.goto { s with
        current := c, ledger := (s.current.clear s.ledger).2 } pc) use :=
      hheld.executorIdle hgrip hnew (fun _ _ _ => Iff.rfl) (hshows c) hheld.observed
        (fun _ _ => rfl) rfl
    refine ⟨use, hcore.requeue ?_ (hobjects.setCurrent hobject hlive
      (by intros; contradiction)) (fun _ => hdoomed)
      hdiscards, hheld'⟩
    have hqueued := hcore.queued
    simp only [State.queue, hpc] at hqueued
    rw [hevent]
    exact hqueued
  have hstays : ∀ c : Current S T V, c.dataObject = s.current.dataObject →
      c.dataObjectLive = false →
      Invariant ({ s with
        current := c, ledger := (s.current.clear s.ledger).2 } : State n ι P V) := by
    intro c hobject hlive
    have hidle := hgoes c .idle hobject hlive rfl rfl rfl fun _ => trivial
    rwa [← hpc] at hidle
  unfold State.complete
  split
  next => exact hstays _ rfl rfl
  next name =>
    split
    next =>
      split
      next => exact hstays _ rfl rfl
      next bytes => exact hstays _ rfl rfl
      next schema value => exact hstays _ rfl rfl
      next => exact hgoes _ (.failed .completion none) rfl rfl rfl rfl rfl fun _ => trivial
    next => exact hgoes _ (.failed .completion none) rfl rfl rfl rfl rfl fun _ => trivial

end TurboScxml.Events
