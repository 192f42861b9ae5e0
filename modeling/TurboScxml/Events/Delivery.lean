import TurboScxml.Events.Steps
import TurboScxml.Lib.Table

/-!
# The metadata of the events arrives

* `State.Filling`, `State.Staged`, `State.Queued`: what a row in use is there for;
* `Exact`: what the rows promise in a state;
* **`metadataRows_exact`**: the reachable states are exact.
-/

namespace TurboScxml.Events

open Function Machine Parties Tokens

variable {S T K V ι : Type} {n : ℕ} {P : Program S T K}

/-! ## What a row is there for -/

variable (s : State n ι P V)

/-- A thread fills the row. -/
def State.Filling (r : Fin n) : Prop := ∃ w, s.grip w = some (r, .filling)

def State.Staged (r : Fin n) : Prop := ∃ t ∈ s.staged, t.row = r

/-- The tagged event of the row waits, or is looked up next. -/
def State.Queued (r : Fin n) : Prop :=
  ∃ e ∈ s.queue, e.tag = some (s.rows r).token

/-- A live storage holds the object `k`. -/
def State.Lives (k : ℕ) : Option (Fin n) → Prop
  | none => s.current.dataObjectLive = true ∧ s.current.dataObject.map Object.number = some k
  | some r => (s.rows r).dataObjectLive = true ∧ (s.rows r).dataObject.map Object.number = some k

def State.Quiet : Prop := ∀ w, s.grip w = none

/-- `session_free_storage`. -/
def State.freeStorage : Ledger S T V :=
  Slots.sweep (fun ledger r =>
    if (s.rows r).dataObjectLive then
      ledger.destroy (s.rows r).dataSchema (s.rows r).dataObject
    else ledger)
    (if s.current.dataObjectLive then
      s.ledger.destroy s.current.dataSchema s.current.dataObject
    else s.ledger)

/-- Nothing of an earlier event is shown but `data`. -/
def SystemValues.Untagged (v : SystemValues S V) (data : DoneData S V) : Prop :=
  v.eventSendId = [] ∧ v.eventOrigin = [] ∧ v.eventOriginType = [] ∧ v.eventInvokeId = [] ∧
    (data = .none → v.eventData = some [] ∧ v.eventDataSchema = none ∧ v.eventDataObject = none)

structure Exact (s : State n ι P V) : Prop where
  inUse : ∀ r, (s.rows r).inUse = true ↔ s.Filling r ∨ s.Staged r ∨ s.Queued r
  apart : ∀ r, (s.Filling r → ¬ s.Staged r ∧ ¬ s.Queued r) ∧ (s.Staged r → ¬ s.Queued r)
  token : ∀ q r, (s.rows q).inUse = true → (s.rows r).inUse = true →
    (s.rows q).token = (s.rows r).token → q = r
  fresh : ∀ e ∈ s.queue, ∀ g ∈ e.given, ∃ r, (s.rows r).inUse = true ∧
    (s.rows r).token = e.token ∧ (s.rows r).given = some g
  notStale : ∀ event, s.executor ≠ .failed .staleToken event
  observed : ∀ o ∈ s.observed, o.Faithful P
  completed : ∀ state data, (s.complete state data).current.values.Untagged data
  handedOut : ∀ (m : Metadata S K V) r s', s.reserve m = some (r, s') →
    ¬ s.Filling r ∧ ¬ s.Staged r ∧ ¬ s.Queued r
  freed : s.freed.Nodup ∧ ∀ r, (s.rows r).inUse = true → serial (s.rows r).token ∉ s.freed
  releasing : ∀ i r token status, s.producers i = .releasing r token .enter status →
    (s.rows r).inUse = true ∧ (s.rows r).token = token
  releasingExecutor : ∀ r token after, s.executor = .releasing r token .enter after →
    (s.rows r).inUse = true ∧ (s.rows r).token = token
  destroyed : s.ledger.numbers.Nodup ∧ ∀ d ∈ s.ledger.destroyed, Housed P d.2 d.1
  live : ∀ k < s.ledger.constructed, k ∉ s.ledger.numbers → ∃! p, s.Lives k p
  freeStorage : s.Quiet → s.freeStorage.numbers.Nodup ∧
    (∀ k, k ∈ s.freeStorage.numbers ↔ k < s.ledger.constructed) ∧
    ∀ d ∈ s.freeStorage.destroyed, Housed P d.2 d.1

/-! ## The states -/

variable {s s' : State n ι P V} {use : Fin n → RowUse ι} {r : Fin n}

theorem Held.filling_iff (h : Held s use) : s.Filling r ↔ ∃ w, use r = .held w .filling :=
  exists_congr fun w => h.matched w r .filling

theorem Core.staged_iff (h : Core s use) : s.Staged r ↔ use r = .other .staged := by
  constructor
  · rintro ⟨t, ht, rfl⟩
    exact (h.ticketed.marked t ht).1
  · intro huse
    obtain ⟨t, ht, hrow⟩ := List.mem_map.mp (h.ticketed.tickets r huse)
    exact ⟨t, ht, hrow⟩

theorem Core.queued_iff (h : Core s use) : s.Queued r ↔ use r = .other .queued := by
  constructor
  · rintro ⟨e, he, htag⟩
    obtain ⟨g, hgiven, htoken⟩ := Option.map_eq_some_iff.mp htag
    obtain ⟨-, q, huse, hqtoken, -⟩ := h.queued.tagged e he g hgiven
    have hfits := h.pool.fits q
    rw [huse] at hfits
    have hsame : (s.rows q).token = (s.rows r).token := hqtoken.trans htoken
    cases hinUse : (s.rows r).inUse with
    | true => exact h.pool.eq_of_token hfits.inUse hinUse hsame ▸ huse
    | false =>
      have hbit := h.pool.bit q hfits.inUse
      rcases h.pool.spent r hinUse with hzero | hspent
      · rw [hsame, hzero] at hbit
        exact absurd hbit (Nat.not_lt_zero _)
      · refine absurd hspent ?_
        rw [← hsame]
        exact h.pool.tokens.apart q _ (Row.reservation_of_inUse hfits.inUse)
  · intro huse
    obtain ⟨e, he, htag⟩ := List.mem_filterMap.mp (h.queued.queued r huse)
    exact ⟨e, he, htag⟩

/-- **A row is in use** exactly while it is filled, staged or queued. -/
theorem Core.inUse_iff (h : Core s use) (hheld : Held s use) :
    (s.rows r).inUse = true ↔ s.Filling r ∨ s.Staged r ∨ s.Queued r := by
  rw [hheld.filling_iff, h.staged_iff, h.queued_iff]
  have hfits := h.pool.fits r
  cases huse : use r with
  | held w stage =>
    rw [huse] at hfits
    cases stage with
    | filling => simp [hfits.inUse]
    | draining => simp [hfits.notInUse]
    | drained => simp [hfits.notInUse]
  | other x =>
    rw [huse] at hfits
    cases x with
    | free =>
      rw [show s.rows r = Row.zero from hfits]
      simp [Row.zero]
    | staged => simp [hfits.inUse]
    | queued => simp [hfits.inUse]

theorem Core.lives_iff (h : Core s use) {k : ℕ} (hk : k ∉ s.ledger.numbers)
    (p : Option (Fin n)) : s.Lives k p ↔ storages s.rows use s.current p = some k := by
  cases p with
  | none =>
    simp only [State.Lives, storages, Current.object]
    split <;> simp_all
  | some r =>
    simp only [State.Lives, storages]
    constructor
    · rintro ⟨hlive, hobject⟩
      cases hstored : (s.rows r).object (use r) with
      | none =>
        obtain ⟨object, hsome, rfl⟩ := Option.map_eq_some_iff.mp hobject
        exact absurd (h.objects.gone r hstored hlive object hsome) hk
      | some k' =>
        unfold Row.object at hstored
        split at hstored
        next => cases hstored
        next =>
          rw [if_pos hlive, hobject] at hstored
          exact hstored.symm
    · intro hstored
      unfold Row.object at hstored
      split at hstored
      next => cases hstored
      next =>
        split_ifs at hstored with hlive
        exact ⟨hlive, hstored⟩

/-! ## The end of the session -/

def left (rows : Fin n → Row S T V) (use : Fin n → RowUse ι) (k : ℕ) :
    Option (Fin n) → Option ℕ
  | none => none
  | some r => if r.val < k then none else (rows r).object (use r)

theorem left_succ {rows : Fin n → Row S T V} (r : Fin n) :
    left rows use (r + 1) = update (left rows use r) (some r) none := by
  funext p
  cases p with
  | none => rfl
  | some q =>
    by_cases hqr : q = r
    · rw [hqr, update_self]
      simp [left]
    · rw [update_of_ne (by simpa using hqr)]
      have hlt : q.val < r.val + 1 ↔ q.val < r.val := by omega
      simp only [left, hlt]

theorem Held.quiet_use (h : Held s use) (hquiet : s.Quiet) (w : Option ι) (stage : Stage) :
    use r ≠ .held w stage := fun huse => by
  have hgrip := (h.matched w r stage).mpr huse
  rw [hquiet w] at hgrip
  cases hgrip

theorem Core.quiet_housed (h : Core s use) (hheld : Held s use) (hquiet : s.Quiet)
    (hlive : (s.rows r).dataObjectLive = true) :
    Housed P (s.rows r).dataSchema (s.rows r).dataObject := by
  have hfits := h.pool.fits r
  cases huse : use r with
  | held w stage => exact absurd huse (hheld.quiet_use hquiet w stage)
  | other x =>
    rw [huse] at hfits
    cases x with
    | free =>
      rw [show s.rows r = Row.zero from hfits] at hlive
      cases hlive
    | staged => exact hfits.housed hlive
    | queued => exact hfits.housed hlive

/-- **The end of a session** destroys what is left, once. -/
theorem Core.freeStorage (h : Core s use) (hheld : Held s use) (hquiet : s.Quiet) :
    s.freeStorage.numbers.Nodup ∧ (∀ k, k ∈ s.freeStorage.numbers ↔ k < s.ledger.constructed) ∧
      ∀ d ∈ s.freeStorage.destroyed, Housed P d.2 d.1 := by
  have hcleared := h.objects.clear
  have hobject : ∀ r, (s.rows r).object (use r)
      = if (s.rows r).dataObjectLive then (s.rows r).dataObject.map Object.number else none := by
    intro r
    cases huse : use r with
    | held w stage => exact absurd huse (hheld.quiet_use hquiet w stage)
    | other x => rfl
  have hconstructed : (s.current.clear s.ledger).2.constructed = s.ledger.constructed := by
    unfold Current.clear
    split <;> rfl
  have hleft : left s.rows use 0 = storages s.rows use (s.current.clear s.ledger).1 := by
    funext p
    cases p with
    | none => rfl
    | some r => simp [left, storages]
  obtain ⟨hcustody, hhoused⟩ :
      Custody s.ledger.constructed s.freeStorage.numbers (left s.rows use n) ∧
        ∀ d ∈ s.freeStorage.destroyed, Housed P d.2 d.1 := by
    refine Slots.sweep_induction (fun k (ledger : Ledger S T V) =>
      Custody s.ledger.constructed ledger.numbers (left s.rows use k) ∧
        ∀ d ∈ ledger.destroyed, Housed P d.2 d.1) ⟨?_, hcleared.housed⟩ ?_
    · rw [hleft, ← hconstructed]
      exact hcleared.custody
    · rintro r ledger ⟨hcustody, hhoused⟩
      rw [left_succ]
      split_ifs with hlive
      · obtain ⟨schema, object, hschema, hrow, htype⟩ := h.quiet_housed hheld hquiet hlive
        refine ⟨?_, fun d hd => ?_⟩
        · rw [Ledger.numbers_destroy, hrow]
          refine hcustody.release ?_
          simp [left, hobject, hlive, hrow]
        · rcases List.mem_cons.mp hd with rfl | hd
          · exact ⟨schema, object, hschema, hrow, htype⟩
          · exact hhoused d hd
      · refine ⟨hcustody.stay ?_, hhoused⟩
        simp [left, hobject, hlive]
  refine ⟨hcustody.nodup, fun k => ?_, hhoused⟩
  rw [hcustody.known k]
  have hnone : ∀ p, left s.rows use n p ≠ some k := by
    intro p
    cases p with
    | none => simp [left]
    | some r => simp [left, r.isLt]
  constructor
  · exact .inl
  · rintro (hmem | ⟨p, hp⟩)
    · exact hmem
    · exact absurd hp (hnone p)

/-! ## Reachable states -/

theorem complete_untagged (state : Option Text) (data : DoneData S V) :
    (s.complete state data).current.values.Untagged data := by
  simp only [State.complete]
  split
  next => exact ⟨rfl, rfl, rfl, rfl, fun _ => ⟨rfl, rfl, rfl⟩⟩
  next name =>
    split
    next =>
      cases data with
      | none => exact ⟨rfl, rfl, rfl, rfl, fun _ => ⟨rfl, rfl, rfl⟩⟩
      | text bytes => exact ⟨rfl, rfl, rfl, rfl, (by intros; contradiction)⟩
      | object schema value => exact ⟨rfl, rfl, rfl, rfl, (by intros; contradiction)⟩
      | invalid => exact ⟨rfl, rfl, rfl, rfl, (by intros; contradiction)⟩
    next => exact ⟨rfl, rfl, rfl, rfl, fun _ => ⟨rfl, rfl, rfl⟩⟩

theorem Invariant.exact (h : Invariant s) : Exact s := by
  obtain ⟨use, hcore, hheld⟩ := h
  refine ⟨fun r => hcore.inUse_iff hheld, fun r => ?_,
    fun q r hq hr => hcore.pool.eq_of_token hq hr, fun e he g hg => ?_, fun event hevent => ?_,
    hheld.observed, complete_untagged, fun m r s' hs => ?_, ⟨hcore.pool.tokens.nodup, fun r hr =>
      hcore.pool.tokens.apart r _ (Row.reservation_of_inUse hr)⟩,
    fun i r token status hpc => ?_, fun r token after hpc => ?_,
    ⟨hcore.objects.custody.nodup, hcore.objects.housed⟩, fun k hk hlive => ?_,
    hcore.freeStorage hheld⟩
  · rw [hheld.filling_iff, hcore.staged_iff, hcore.queued_iff]
    constructor
    · rintro ⟨w, huse⟩
      simp [huse]
    · intro huse
      simp [huse]
  · obtain ⟨-, r, huse, htoken, hgiven⟩ := hcore.queued.tagged e he g hg
    have hfits := hcore.pool.fits r
    rw [huse] at hfits
    exact ⟨r, hfits.inUse, htoken, hgiven⟩
  · have hshows := hheld.shows
    rw [hevent] at hshows
    exact hshows
  · obtain ⟨⟨q, rows', next'⟩, hp, hpair⟩ := Option.map_eq_some_iff.mp hs
    cases hpair
    obtain ⟨-, hinUse, hlive, -⟩ := reserveEventMetadata_eq_some hp
    obtain ⟨huse, -⟩ := hcore.free_of_idle hinUse hlive
    rw [hheld.filling_iff, hcore.staged_iff, hcore.queued_iff]
    simp [huse]
  · obtain ⟨-, huse, htoken⟩ := hheld.of_producer .filling hpc rfl
    have hfits := hcore.pool.fits r
    rw [huse] at hfits
    exact ⟨hfits.inUse, htoken⟩
  · obtain ⟨-, huse, htoken⟩ := hheld.of_executor .filling hpc rfl
    have hfits := hcore.pool.fits r
    rw [huse] at hfits
    exact ⟨hfits.inUse, htoken⟩
  · rcases (hcore.objects.custody.known k).mp hk with hmem | ⟨p, hp⟩
    · exact absurd hmem hlive
    · refine ⟨p, (hcore.lives_iff hlive p).mpr hp, fun q hq => ?_⟩
      exact hcore.objects.custody.unique q p k ((hcore.lives_iff hlive q).mp hq) hp

/-- **Main.** Until the token counter wraps, a row is in use exactly while it is filled, staged or
queued, tokens are distinct and never stale, observed events show what was sent, and each object is
destroyed once under its own type. -/
theorem metadataRows_exact [DecidableEq S] [DecidableEq ι] (h : Reachable step Init s)
    (hbound : s.reservations + 1 < tokenBit) : Exact s :=
  (invariant_of_reachable h hbound).exact

/-! ## A run -/

def sampleProgram : Program Unit Unit Text where
  eventNames := [("go".toList, 1), ("error.execution".toList, 2)]
  executionError := 2
  communicationError := 0
  root := some ()
  storageType := id
  scalarToText := some

def sampleStart : State 1 Bool sampleProgram ℕ where
  rows := fun _ => Row.zero
  nextToken := tokenBit + 1
  ledger := ⟨0, []⟩
  current := ⟨plainValues [] .internal, none, false, none⟩
  producers := fun _ => .done none
  executor := .idle
  external := []
  internal := []
  raised := []
  staged := []
  freed := []
  reservations := 0
  observed := []

def sampleActions : List (Action Bool sampleProgram ℕ) :=
  [.producer true (.trySendNamedWithMetadata "go.on".toList
      ⟨"s".toList, "o".toList, [], [], .cmeta () 7⟩),
    .producer true .reserve, .producer true (.attach true),
    .producer false (.trySendWithMetadata 1 ⟨[], [], [], [], .invalid⟩), .producer false .reserve,
    .producer true (.trySendTagged .ok),
    .executor (.take .external), .executor (.lookup none), .executor (.copy true),
    .executor .clear,
    .executor (.work (.failed true "s".toList)), .executor (.fill true),
    .executor (.stage true true), .executor .commit,
    .executor (.take .internal), .executor (.lookup none)]

theorem sampleRun_isSome : (exec step sampleStart sampleActions).isSome = true := rfl

def sampleState : State 1 Bool sampleProgram ℕ :=
  (exec step sampleStart sampleActions).get sampleRun_isSome

theorem sampleState_reachable : Reachable step Init sampleState :=
  ⟨sampleStart, by constructor <;> intros <;> rfl, exec_runs (Option.some_get _).symm⟩

theorem metadataRows_exact_sample : Exact sampleState ∧ sampleState.ledger.numbers = [1, 0] ∧
    sampleState.observed.map (fun o => (o.shown.eventName, o.shown.eventSendId)) =
      [("error.execution".toList, "s".toList), ("go.on".toList, "s".toList)] :=
  ⟨metadataRows_exact sampleState_reachable (by decide), rfl, rfl⟩

end TurboScxml.Events
