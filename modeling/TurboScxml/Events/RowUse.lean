import TurboScxml.Events.System
import TurboScxml.Lib.Custody

/-!
# What the rows are used for

* `RowUse`: a row is free, held by a thread in some stage, staged or queued;
* `Pool`: the rows are as their use says, and each reservation is in one row or was freed once;
* `Linked`: the tagged events of a queue and the rows of a purpose belong together.
-/

namespace TurboScxml.Events

open Function Parties Tokens

variable {S T K V ι : Type} {n : ℕ}

/-! ## Uses -/

/-- The stage in which a thread holds a row. -/
inductive Stage
  | filling | draining | drained
  deriving DecidableEq

inductive Purpose
  | free | staged | queued
  deriving DecidableEq

/-- The use of a row; `none` is the executor. -/
abbrev RowUse (ι : Type) := Use (Option ι) Stage Purpose

/-! ## Rows -/

def Row.given (row : Row S T V) : Option (Given S V) :=
  (if row.dataObjectLive then
    row.dataSchema.bind fun schema => row.dataObject.map fun object => .object schema object.value
  else some (.text row.data)).map fun data =>
    ⟨row.name, row.sendId, row.origin, row.originType, row.invokeId, data⟩

def Housed (P : Program S T K) (schema : Option S) (object : Option (Object T V)) : Prop :=
  ∃ s o, schema = some s ∧ object = some o ∧ o.type = P.storageType s

structure Row.Full (P : Program S T K) (row : Row S T V) : Prop where
  session : row.session = true
  inUse : row.inUse = true
  housed : row.dataObjectLive = true → Housed P row.dataSchema row.dataObject

structure Row.Drains (P : Program S T K) (row : Row S T V) : Prop where
  notInUse : row.inUse = false
  live : row.dataObjectLive = true
  housed : Housed P row.dataSchema row.dataObject

def Row.Fits (P : Program S T K) (row : Row S T V) : RowUse ι → Prop
  | .other .free => row = Row.zero
  | .other .staged | .other .queued | .held _ .filling => row.Full P
  | .held _ .draining | .held _ .drained => row.Drains P

def Row.reservation (row : Row S T V) : Option ℕ :=
  if row.inUse then some (serial row.token) else none

structure Pool (P : Program S T K) (rows : Fin n → Row S T V) (use : Fin n → RowUse ι)
    (reservations : ℕ) (freed : List ℕ) : Prop where
  fits : ∀ r, (rows r).Fits P (use r)
  tokens : Custody reservations freed fun r => (rows r).reservation
  bit : ∀ r, (rows r).inUse = true → tokenBit < (rows r).token
  spent : ∀ r, (rows r).inUse = false → (rows r).token = 0 ∨ serial (rows r).token ∈ freed

variable {P : Program S T K} {rows : Fin n → Row S T V} {use : Fin n → RowUse ι} {r : Fin n}
  {row : Row S T V} {u : RowUse ι} {reservations : ℕ} {freed : List ℕ}

theorem reservation_update :
    (fun q => (update rows r row q).reservation)
      = update (fun q => (rows q).reservation) r row.reservation := by
  funext q
  by_cases hq : q = r
  · rw [hq, update_self, update_self]
  · rw [update_of_ne hq, update_of_ne hq]

theorem Row.reservation_of_inUse (h : row.inUse = true) :
    row.reservation = some (serial row.token) := by
  rw [Row.reservation, if_pos h]

theorem Row.reservation_of_not_inUse (h : row.inUse = false) : row.reservation = none := by
  rw [Row.reservation, h]
  rfl

namespace Pool

variable (h : Pool P rows use reservations freed)
include h

theorem fits_update (hrow : row.Fits P u) (q : Fin n) :
    (update rows r row q).Fits P (update use r u q) := by
  by_cases hq : q = r
  · rw [hq, update_self, update_self]
    exact hrow
  · rw [update_of_ne hq, update_of_ne hq]
    exact h.fits q

theorem eq_of_token {q : Fin n} (hr : (rows r).inUse = true) (hq : (rows q).inUse = true)
    (htoken : (rows r).token = (rows q).token) : r = q :=
  h.tokens.unique r q (serial (rows r).token) (Row.reservation_of_inUse hr)
    (by rw [htoken]; exact Row.reservation_of_inUse hq)

theorem write (hrow : row.Fits P u)
    (huse : row.inUse = (rows r).inUse) (htoken : row.token = (rows r).token) :
    Pool P (update rows r row) (update use r u) reservations freed := by
  refine ⟨h.fits_update hrow, ?_, fun q hq => ?_, fun q hq => ?_⟩
  · rw [reservation_update]
    refine h.tokens.stay ?_
    simp only [Row.reservation, huse, htoken]
  · by_cases hqr : q = r
    · subst hqr
      rw [update_self] at hq ⊢
      rw [htoken]
      exact h.bit q (huse ▸ hq)
    · rw [update_of_ne hqr] at hq ⊢
      exact h.bit q hq
  · by_cases hqr : q = r
    · subst hqr
      rw [update_self] at hq ⊢
      rw [htoken]
      exact h.spent q (huse ▸ hq)
    · rw [update_of_ne hqr] at hq ⊢
      exact h.spent q hq

theorem idle (hrow : row.Fits P u)
    (hold : (rows r).inUse = false) (hnew : row.inUse = false) (htoken : row.token = 0) :
    Pool P (update rows r row) (update use r u) reservations freed := by
  refine ⟨h.fits_update hrow, ?_, fun q hq => ?_, fun q hq => ?_⟩
  · rw [reservation_update]
    refine h.tokens.stay ?_
    rw [Row.reservation_of_not_inUse hold, Row.reservation_of_not_inUse hnew]
  · by_cases hqr : q = r
    · subst hqr
      rw [update_self, hnew] at hq
      cases hq
    · rw [update_of_ne hqr] at hq ⊢
      exact h.bit q hq
  · by_cases hqr : q = r
    · subst hqr
      rw [update_self]
      exact .inl htoken
    · rw [update_of_ne hqr] at hq ⊢
      exact h.spent q hq

theorem free (hrow : row.Fits P u) (hold : (rows r).inUse = true) (hnew : row.inUse = false)
    (htoken : row.token = 0 ∨ row.token = (rows r).token) :
    Pool P (update rows r row) (update use r u) reservations
      (serial (rows r).token :: freed) := by
  refine ⟨h.fits_update hrow, ?_, fun q hq => ?_, fun q hq => ?_⟩
  · rw [reservation_update, Row.reservation_of_not_inUse hnew]
    exact h.tokens.release (Row.reservation_of_inUse hold)
  · by_cases hqr : q = r
    · subst hqr
      rw [update_self, hnew] at hq
      cases hq
    · rw [update_of_ne hqr] at hq ⊢
      exact h.bit q hq
  · by_cases hqr : q = r
    · subst hqr
      rw [update_self]
      rcases htoken with htoken | htoken
      · exact .inl htoken
      · exact .inr (by rw [htoken]; exact List.mem_cons_self)
    · rw [update_of_ne hqr] at hq ⊢
      exact (h.spent q hq).imp_right (List.mem_cons_of_mem _)

theorem reserve (hrow : row.Fits P u) (hold : (rows r).inUse = false) (hnew : row.inUse = true)
    (htoken : row.token = tokenBit + 1 + reservations) :
    Pool P (update rows r row) (update use r u) (reservations + 1) freed := by
  refine ⟨h.fits_update hrow, ?_, fun q hq => ?_, fun q hq => ?_⟩
  · have hserial : serial row.token = reservations := by
      rw [htoken, serial]
      omega
    rw [reservation_update, Row.reservation_of_inUse hnew, hserial]
    exact h.tokens.acquire (Row.reservation_of_not_inUse hold)
  · by_cases hqr : q = r
    · subst hqr
      rw [update_self, htoken]
      omega
    · rw [update_of_ne hqr] at hq ⊢
      exact h.bit q hq
  · by_cases hqr : q = r
    · subst hqr
      rw [update_self, hnew] at hq
      cases hq
    · rw [update_of_ne hqr] at hq ⊢
      exact h.spent q hq

theorem rename (hrow : (rows r).Fits P u) : Pool P rows (update use r u) reservations freed := by
  have hwritten := h.write hrow rfl rfl
  rwa [update_eq_self] at hwritten

theorem relabel {use' : Fin n → RowUse ι}
    (hfits : ∀ r, (rows r).Fits P (use r) → (rows r).Fits P (use' r)) :
    Pool P rows use' reservations freed :=
  ⟨fun r => hfits r (h.fits r), h.tokens, h.bit, h.spent⟩

omit h

end Pool

/-! ## Queues -/

def Event.tag (e : Event S V) : Option ℕ := e.given.map fun _ => e.token

/-- The tagged events of a queue and the rows of `x` belong together. -/
structure Linked (queue : List (Event S V)) (rows : Fin n → Row S T V) (use : Fin n → RowUse ι)
    (x : Purpose) : Prop where
  nodup : (queue.filterMap Event.tag).Nodup
  queued : ∀ r, use r = .other x → (rows r).token ∈ queue.filterMap Event.tag
  tagged : ∀ e ∈ queue, ∀ g ∈ e.given, hasTokenBit e.token = true ∧
    ∃ r, use r = .other x ∧ (rows r).token = e.token ∧ (rows r).given = some g
  plain : ∀ e ∈ queue, e.given = none → hasTokenBit e.token = false

namespace Linked

variable {queue queue' : List (Event S V)} {x : Purpose} {e : Event S V} {g : Given S V}

theorem nil (h : ∀ r, use r ≠ .other x) : Linked ([] : List (Event S V)) rows use x :=
  ⟨List.nodup_nil, fun r hr => absurd hr (h r), by simp, by simp⟩

variable (h : Linked queue rows use x)
include h

theorem perm (hperm : queue'.Perm queue) : Linked queue' rows use x where
  nodup := (hperm.filterMap _).nodup_iff.mpr h.nodup
  queued r hr := (hperm.filterMap _).mem_iff.mpr (h.queued r hr)
  tagged e he := h.tagged e (hperm.mem_iff.mp he)
  plain e he := h.plain e (hperm.mem_iff.mp he)

theorem frame (hr : use r ≠ .other x) (hu : u ≠ .other x) :
    Linked queue (update rows r row) (update use r u) x := by
  refine ⟨h.nodup, fun q hq => ?_, fun e he g hg => ?_, h.plain⟩
  · by_cases hqr : q = r
    · rw [hqr, update_self] at hq
      exact absurd hq hu
    · rw [update_of_ne hqr] at hq ⊢
      exact h.queued q hq
  · obtain ⟨hbit, q, hq, htoken, hgiven⟩ := h.tagged e he g hg
    have hqr : q ≠ r := fun hqr => hr (hqr ▸ hq)
    exact ⟨hbit, q, by rw [update_of_ne hqr]; exact hq, by rw [update_of_ne hqr]; exact htoken,
      by rw [update_of_ne hqr]; exact hgiven⟩

theorem rename (hr : use r ≠ .other x) (hu : u ≠ .other x) :
    Linked queue rows (update use r u) x := by
  have hwritten : Linked queue (update rows r (rows r)) (update use r u) x := h.frame hr hu
  rwa [update_eq_self] at hwritten

theorem merge {y : Purpose} (h' : Linked queue' rows use y)
    (hdistinct : ∀ q r, use q = .other x → use r = .other y → (rows q).token ≠ (rows r).token)
    {use' : Fin n → RowUse ι}
    (huse : ∀ r, use' r = .other x ↔ use r = .other x ∨ use r = .other y) :
    Linked (queue ++ queue') rows use' x := by
  refine ⟨?_, fun r hr => ?_, fun e he g hg => ?_, fun e he => ?_⟩
  · rw [List.filterMap_append]
    refine List.nodup_append'.mpr ⟨h.nodup, h'.nodup, fun t ht ht' => ?_⟩
    obtain ⟨e, he, htag⟩ := List.mem_filterMap.mp ht
    obtain ⟨g, hg, rfl⟩ := Option.map_eq_some_iff.mp htag
    obtain ⟨e', he', htag'⟩ := List.mem_filterMap.mp ht'
    obtain ⟨g', hg', htoken⟩ := Option.map_eq_some_iff.mp htag'
    obtain ⟨-, q, hq, hqtoken, -⟩ := h.tagged e he g hg
    obtain ⟨-, r, hr, hrtoken, -⟩ := h'.tagged e' he' g' hg'
    exact hdistinct q r hq hr (hqtoken.trans (htoken.symm.trans hrtoken.symm))
  · rw [List.filterMap_append]
    rcases (huse r).mp hr with hr | hr
    · exact List.mem_append_left _ (h.queued r hr)
    · exact List.mem_append_right _ (h'.queued r hr)
  · rcases List.mem_append.mp he with he | he
    · obtain ⟨hbit, r, hr, hrest⟩ := h.tagged e he g hg
      exact ⟨hbit, r, (huse r).mpr (.inl hr), hrest⟩
    · obtain ⟨hbit, r, hr, hrest⟩ := h'.tagged e he g hg
      exact ⟨hbit, r, (huse r).mpr (.inr hr), hrest⟩
  · exact (List.mem_append.mp he).elim (h.plain e) (h'.plain e)

theorem pushPlain (hgiven : e.given = none)
    (hbit : hasTokenBit e.token = false) : Linked (queue ++ [e]) rows use x := by
  have htags : (queue ++ [e]).filterMap Event.tag = queue.filterMap Event.tag := by
    simp [List.filterMap_append, Event.tag, hgiven]
  refine ⟨htags ▸ h.nodup, fun r hr => htags ▸ h.queued r hr, ?_, ?_⟩
  · intro e' he' g hg
    rcases List.mem_append.mp he' with he' | he'
    · exact h.tagged e' he' g hg
    · rw [List.mem_singleton.mp he', hgiven] at hg
      cases hg
  · intro e' he' hnone
    rcases List.mem_append.mp he' with he' | he'
    · exact h.plain e' he' hnone
    · rw [List.mem_singleton.mp he']
      exact hbit

theorem push (hgiven : e.given = some g)
    (hbit : hasTokenBit e.token = true) (htoken : (rows r).token = e.token)
    (hrow : (rows r).given = some g)
    (hfresh : ∀ q, use q = .other x → (rows q).token ≠ e.token) :
    Linked (queue ++ [e]) rows (update use r (.other x)) x := by
  have htags : (queue ++ [e]).filterMap Event.tag = queue.filterMap Event.tag ++ [e.token] := by
    simp [List.filterMap_append, Event.tag, hgiven]
  have hnew : e.token ∉ queue.filterMap Event.tag := by
    intro hmem
    obtain ⟨e', he', htag⟩ := List.mem_filterMap.mp hmem
    obtain ⟨g', hg', heq⟩ := Option.map_eq_some_iff.mp htag
    obtain ⟨-, q, hq, hqtoken, -⟩ := h.tagged e' he' g' hg'
    exact hfresh q hq (hqtoken.trans heq)
  refine ⟨?_, fun q hq => ?_, fun e' he' g' hg' => ?_, fun e' he' hnone => ?_⟩
  · rw [htags]
    exact List.nodup_append'.mpr ⟨h.nodup, List.nodup_singleton _,
      List.disjoint_singleton.mpr hnew⟩
  · rw [htags]
    by_cases hqr : q = r
    · rw [hqr, htoken]
      simp
    · rw [update_of_ne hqr] at hq
      exact List.mem_append_left _ (h.queued q hq)
  · rcases List.mem_append.mp he' with he' | he'
    · obtain ⟨hbit', q, hq, hrest⟩ := h.tagged e' he' g' hg'
      refine ⟨hbit', q, ?_, hrest⟩
      by_cases hqr : q = r
      · rw [hqr, update_self]
      · rw [update_of_ne hqr]
        exact hq
    · obtain rfl := List.mem_singleton.mp he'
      obtain rfl := Option.some_inj.mp (hgiven.symm.trans hg')
      exact ⟨hbit, r, update_self _ _ _, htoken, hrow⟩
  · rcases List.mem_append.mp he' with he' | he'
    · exact h.plain e' he' hnone
    · rw [List.mem_singleton.mp he', hgiven] at hnone
      cases hnone

omit h

theorem popPlain (h : Linked (e :: queue) rows use x) (hgiven : e.given = none) :
    Linked queue rows use x := by
  have htags : (e :: queue).filterMap Event.tag = queue.filterMap Event.tag := by
    simp [Event.tag, hgiven]
  exact ⟨htags ▸ h.nodup, fun r hr => htags ▸ h.queued r hr,
    fun e' he' => h.tagged e' (List.mem_cons_of_mem _ he'),
    fun e' he' => h.plain e' (List.mem_cons_of_mem _ he')⟩

theorem pop (h : Linked (e :: queue) rows use x) (hgiven : e.given = some g)
    (htoken : (rows r).token = e.token) (hu : u ≠ .other x)
    (hunique : ∀ q, use q = .other x → (rows q).token = e.token → q = r) :
    Linked queue (update rows r row) (update use r u) x := by
  have htags : (e :: queue).filterMap Event.tag = e.token :: queue.filterMap Event.tag := by
    simp [Event.tag, hgiven]
  have hnodup := htags ▸ h.nodup
  refine ⟨hnodup.of_cons, fun q hq => ?_, fun e' he' g' hg' => ?_,
    fun e' he' => h.plain e' (List.mem_cons_of_mem _ he')⟩
  · by_cases hqr : q = r
    · rw [hqr, update_self] at hq
      exact absurd hq hu
    · rw [update_of_ne hqr] at hq ⊢
      have hmem := h.queued q hq
      rw [htags] at hmem
      rcases List.mem_cons.mp hmem with heq | hmem
      · exact absurd (hunique q hq heq) hqr
      · exact hmem
  · obtain ⟨hbit, q, hq, hqtoken, hqgiven⟩ := h.tagged e' (List.mem_cons_of_mem _ he') g' hg'
    have hqr : q ≠ r := by
      rintro rfl
      have hmem : e'.token ∈ queue.filterMap Event.tag :=
        List.mem_filterMap.mpr ⟨e', he', by rw [Event.tag, Option.mem_def.mp hg']; rfl⟩
      rw [← hqtoken, htoken] at hmem
      exact hnodup.notMem hmem
    exact ⟨hbit, q, by rw [update_of_ne hqr]; exact hq, by rw [update_of_ne hqr]; exact hqtoken,
      by rw [update_of_ne hqr]; exact hqgiven⟩

end Linked

end TurboScxml.Events
