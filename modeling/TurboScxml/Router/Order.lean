import TurboScxml.Router.Cancel

/-!
# The order of deliveries

* `OrderSound`: a delivered or INFLIGHT row leaves no older row behind that became READY before it;
* **`reachable_delivery_order`**: of two delivered rows the one that became READY first is delivered
  first, unless the other is a delayed send that was committed earlier; the clock fires in deadline
  order; the drain takes the READY row that was committed first, each row at most once.
-/

namespace TurboScxml.Router

open Function Slots Machine List

variable {cfg : Config} {σ : Type}

def Stamped (r : Router cfg σ) : Prop :=
  ∀ i, (r.rows i).state ≠ .free → (r.rows i).state ≠ .reserved →
    (r.rows i).sequence ≤ r.nextSequence

section Stamped

variable {r r' : Router cfg σ}

theorem Stamped.of_rows (hr : Stamped r) (hseq : r'.nextSequence = r.nextSequence)
    (hrows : ∀ i, r'.rows i = r.rows i ∨ (r'.rows i).state = .free ∨
      (r.rows i).fired = true ∧ (r'.rows i).sequence = (r.rows i).sequence) : Stamped r' := by
  intro i hfree hreserved
  rw [hseq]
  rcases hrows i with heq | hdrop | ⟨hfired, hsame⟩
  · rw [heq] at hfree hreserved ⊢
    exact hr i hfree hreserved
  · exact absurd hdrop hfree
  · rw [hsame]
    refine hr i ?_ ?_ <;> intro hc <;> simp [Row.fired, hc] at hfired

theorem Aloof.stamped (h : Aloof r r') (hr : Stamped r) : Stamped r' := by
  intro i hfree hreserved
  have hkept : r'.rows i = r.rows i → (r'.rows i).sequence ≤ r'.nextSequence := by
    intro heq
    rw [heq] at hfree hreserved ⊢
    exact (hr i hfree hreserved).trans h.sequence
  rcases h.moves with hdrop | ⟨j, hmoved, hothers⟩
  · rcases hdrop i with heq | heq
    · exact hkept heq
    · rw [heq] at hfree
      exact absurd rfl hfree
  by_cases hij : i = j
  · subst hij
    cases hmoved with
    | reserved hstate => exact absurd hstate hreserved
    | committed hold hstate hseq hnext => rw [hseq, hnext]
    | fired hold hseq hdelay =>
      rw [hseq]
      refine (hr i ?_ ?_).trans h.sequence <;>
        rcases hold with ⟨hold, -⟩ | ⟨hold, -⟩ <;> simp [hold]
  · exact hkept (hothers i hij)

/-- A fired row is an old one, or has just become READY. -/
theorem Aloof.fired (h : Aloof r r') (hformed : (r.rows i).Formed) (hi : (r'.rows i).fired = true) :
    r'.rows i = r.rows i ∨
      (r.rows i).fired = false ∧ (r'.rows i).state = .ready ∧
        ((r'.rows i).delayMs = 0 → (r'.rows i).sequence = r.nextSequence + 1) ∧
        ∀ j, j ≠ i → r'.rows j = r.rows j := by
  rcases h.moves with hdrop | ⟨j, hmoved, hothers⟩
  · rcases hdrop i with heq | heq
    · exact .inl heq
    · rw [heq] at hi
      cases hi
  by_cases hij : i = j
  · subst hij
    right
    cases hmoved with
    | reserved hstate => simp [Row.fired, hstate] at hi
    | committed hold hstate hseq hnext =>
      refine ⟨?_, ?_, fun _ => hseq, hothers⟩
      · rcases hold with hold | hold <;> simp [Row.fired, hold]
      · split at hstate
        · simp [Row.fired, hstate] at hi
        · exact hstate
    | fired hold hseq hdelay =>
      rcases hold with ⟨hold, hstate⟩ | ⟨hold, hstate | hstate⟩
      · simp [Row.fired, hstate] at hi
      · simp [Row.fired, hstate] at hi
      · exact ⟨by simp [Row.fired, hold], hstate,
          fun hzero => absurd (hdelay.symm.trans hzero) (hformed.delay (.inr hold)), hothers⟩
  · exact .inl (hothers i hij)

end Stamped

structure Mark where
  identity : ℕ
  sequence : ℕ
  delayMs : ℕ

def Row.mark (row : Row) : Mark := ⟨row.identity, row.sequence, row.delayMs⟩

/-- The rows that a section made READY. -/
def becameReady (r r' : Router cfg σ) : List (Mark) :=
  (List.finRange cfg.eventCapacity).filterMap fun i =>
    if (r'.rows i).state = .ready ∧ (r.rows i).fired = false then
      some (r'.rows i).mark
    else none

/-- The router, with the rows that became READY in that order. -/
structure Traced (cfg : Config) (σ : Type) where
  system : System cfg σ
  readied : List (Mark)

namespace Traced

def step [DecidableEq σ] (t : Traced cfg σ) (a : Action cfg σ) : Option (Traced cfg σ) :=
  (t.system.step a).map fun s' => ⟨s', t.readied ++ becameReady t.system.router s'.router⟩

def Initial (t : Traced cfg σ) : Prop := System.Initial t.system ∧ t.readied = []

abbrev Reachable [DecidableEq σ] (t : Traced cfg σ) : Prop :=
  Machine.Reachable (step : Traced cfg σ → Action cfg σ → Option (Traced cfg σ)) Initial t

end Traced

/-! ## Steps and identities -/

variable {r r' : Router cfg σ} {p : Mark}

section Step

variable {s s' : System cfg σ} {a : Action cfg σ}

theorem mem_becameReady :
    p ∈ becameReady r r' ↔ ∃ i, (r'.rows i).state = .ready ∧ (r.rows i).fired = false ∧
      p = (r'.rows i).mark := by
  simp only [becameReady, List.mem_filterMap, List.mem_finRange, true_and,
    Option.ite_none_right_eq_some, Option.some.injEq]
  constructor
  · rintro ⟨i, ⟨hi, hold⟩, rfl⟩
    exact ⟨i, hi, hold, rfl⟩
  · rintro ⟨i, hi, hold, rfl⟩
    exact ⟨i, ⟨hi, hold⟩, rfl⟩

theorem Row.used_of_fired {row : Row} (h : row.fired = true) : row.state ≠ .free := by
  intro hc
  simp [Row.fired, hc] at h

theorem becameReady_nodup (h : RowsSound r') : ((becameReady r r').map Mark.identity).Nodup := by
  rw [becameReady, List.map_filterMap]
  refine (List.nodup_finRange _).filterMap fun i j e hi hj => ?_
  simp only [Option.mem_def, Option.map_eq_some_iff, Option.ite_none_right_eq_some,
    Option.some.injEq] at hi hj
  obtain ⟨-, ⟨⟨hi, -⟩, rfl⟩, rfl⟩ := hi
  obtain ⟨-, ⟨⟨hj, -⟩, rfl⟩, heq⟩ := hj
  exact h.distinct i j (by simp [hi]) (by simp [hj]) heq.symm

variable [DecidableEq σ]

theorem step_origin (h : Sound s) (hs : s.step a = some s') (i : Fin cfg.eventCapacity)
    (hi : (s'.router.rows i).state ≠ .free) :
    s.router.nextRowIdentity < (s'.router.rows i).identity ∨
      (s.router.rows i).state ≠ .free ∧
        (s'.router.rows i).identity = (s.router.rows i).identity ∧
        ((s.router.rows i).fired = true → (s'.router.rows i).fired = true) := by
  have hrows : ∀ own, RowsStep own s.router s'.router → _ := fun own hstep =>
    hstep.origin i hi
  cases (step_spec h hs).work with
  | quiet own hstep =>
    rcases hrows own hstep with ⟨hid, -⟩ | ⟨hused, hid, -, -, -, hf, -⟩
    · exact .inl (by omega)
    · exact .inr ⟨hused, hid, hf⟩
  | acceptSend j row hfree hrow hs' =>
    subst hs'
    by_cases hij : i = j
    · left
      rw [hij, show (s.router.accepted j row).rows j = row from update_self .., hrow.identity]
      exact Nat.lt_succ_self _
    · have hsame : (s.router.accepted j row).rows i = s.router.rows i := update_of_ne hij _ _
      rw [hsame] at hi ⊢
      exact .inr ⟨hi, rfl, id⟩
  | acceptCancel j k source sendId hj hk hsource hcancel htable =>
    rcases hrows none (.of_rowTable htable) with ⟨hid, -⟩ | ⟨hused, hid, -, -, -, hf, -⟩
    · exact .inl (by omega)
    · exact .inr ⟨hused, hid, hf⟩
  | settle t ht own hstep =>
    rcases hrows own hstep with ⟨hid, -⟩ | ⟨hused, hid, -, -, -, hf, -⟩
    · exact .inl (by omega)
    · exact .inr ⟨hused, hid, hf⟩

theorem step_nextRowIdentity (h : Sound s) (hs : s.step a = some s') :
    s.router.nextRowIdentity ≤ s'.router.nextRowIdentity := by
  cases (step_spec h hs).work with
  | quiet own hstep => exact hstep.nextRowIdentity_le
  | acceptSend j row hfree hrow hs' =>
    subst hs'
    exact Nat.le_succ _
  | acceptCancel j k source sendId hj hk hsource hcancel htable =>
    exact (congrArg Prod.snd htable).ge
  | settle t ht own hstep => exact hstep.nextRowIdentity_le

end Step

/-! ## The invariant -/

def Absent (r : Router cfg σ) (e : ℕ) : Prop :=
  ∀ i, (r.rows i).state ≠ .free → (r.rows i).identity ≠ e

structure OrderSound (t : Traced cfg σ) : Prop where
  lane : ∀ i, (t.system.router.rows i).state = .inflight →
    ∃ event count maxEvents, t.system.drain = .delivering i event count maxEvents
  draining : t.system.router.draining = false → t.system.drain = .idle
  live : ∀ i, (t.system.router.rows i).fired = true → (t.system.router.rows i).mark ∈ t.readied
  known : ∀ p ∈ t.readied, p.identity ≤ t.system.router.nextRowIdentity ∧
    ∀ i, (t.system.router.rows i).state ≠ .free → (t.system.router.rows i).identity = p.identity →
      (t.system.router.rows i).fired = true
  nodup : (t.readied.map Mark.identity).Nodup
  stamped : Stamped t.system.router
  bounded : ∀ p ∈ t.readied, p.sequence ≤ t.system.router.nextSequence
  immediate : ∀ a b, [a, b] <+ t.readied → b.delayMs = 0 → a.sequence < b.sequence
  delivered : ∀ e ∈ t.system.deliveredIdentities, e ∈ t.readied.map Mark.identity
  once : t.system.deliveredIdentities.Nodup
  /-- A delivered or INFLIGHT row leaves no older row behind. -/
  settled : ∀ a b, [a, b] <+ t.readied → a.sequence < b.sequence →
    (b.identity ∈ t.system.deliveredIdentities ∨ ∃ i, (t.system.router.rows i).state = .inflight ∧
      (t.system.router.rows i).identity = b.identity) → Absent t.system.router a.identity
  ordered : ∀ a b, [a, b] <+ t.readied → a.sequence < b.sequence →
    a.identity ∈ t.system.deliveredIdentities → b.identity ∈ t.system.deliveredIdentities →
    [a.identity, b.identity] <+ t.system.deliveredIdentities

theorem init_orderSound {t : Traced cfg σ} (h : Traced.Initial t) : OrderSound t := by
  obtain ⟨⟨-, hs⟩, hr⟩ := h
  have hrow : ∀ i, t.system.router.rows i = .free := by
    intro i
    rw [hs]
    rfl
  have hnone : t.system.deliveredIdentities = [] := by
    rw [hs]
    rfl
  refine ⟨fun i hi => ?_, fun _ => by rw [hs]; rfl, fun i hi => ?_, ?_, ?_, fun i hi => ?_, ?_, ?_,
    ?_, ?_, ?_, ?_⟩
  · rw [hrow i] at hi
    cases hi
  · rw [hrow i] at hi
    cases hi
  · simp [hr]
  · simp [hr]
  · rw [hrow i] at hi
    exact absurd rfl hi
  · simp [hr]
  · intro a b hab
    simp [hr] at hab
  · simp [hnone]
  · simp [hnone]
  · intro a b hab
    simp [hr] at hab
  · intro a b hab
    simp [hr] at hab

theorem pair_sublist_append {α : Type} {a b : α} {l m : List α} (h : [a, b] <+ l ++ m) :
    [a, b] <+ l ∨ b ∈ m ∧ (a ∈ l ∨ [a, b] <+ m) := by
  obtain ⟨l₁, l₂, heq, h₁, h₂⟩ := List.sublist_append_iff.mp h
  match l₁, heq with
  | [], heq =>
    obtain rfl : l₂ = [a, b] := by simpa using heq.symm
    exact .inr ⟨h₂.subset (by simp), .inr h₂⟩
  | [c], heq =>
    obtain ⟨rfl, rfl⟩ : c = a ∧ l₂ = [b] := by simpa [eq_comm] using heq
    exact .inr ⟨h₂.subset (by simp), .inl (h₁.subset (by simp))⟩
  | [_, _], heq =>
    obtain ⟨rfl, rfl, -⟩ : _ ∧ _ ∧ l₂ = [] := by simpa [eq_comm] using heq
    exact .inl h₁
  | _ :: _ :: _ :: _, heq => simp at heq

variable {i : Fin cfg.eventCapacity} {count : ℕ}

section Advance

variable [DecidableEq σ] {t : Traced cfg σ} {s' : System cfg σ} {a : Action cfg σ}

theorem OrderSound.fresh (h : OrderSound t) (hsound : Sound t.system)
    (hs : t.system.step a = some s') (hp : p ∈ becameReady t.system.router s'.router) :
    p.identity ∉ t.readied.map Mark.identity := by
  obtain ⟨i, hi, hold, rfl⟩ := mem_becameReady.mp hp
  intro hmem
  obtain ⟨q, hq, heq⟩ := List.mem_map.mp hmem
  obtain ⟨hle, hfired⟩ := h.known q hq
  have hid' : q.identity = (s'.router.rows i).identity := heq
  rcases step_origin hsound hs i (by simp [hi]) with hnew | ⟨hused, hid, -⟩
  · omega
  · rw [hfired i hused (hid.symm.trans hid'.symm)] at hold
    cases hold

theorem absent_step (hsound : Sound t.system) (hs : t.system.step a = some s') {e : ℕ}
    (hle : e ≤ t.system.router.nextRowIdentity) (habsent : Absent t.system.router e) :
    Absent s'.router e := by
  intro i hi heq
  rcases step_origin hsound hs i hi with hnew | ⟨hused, hid, -⟩
  · omega
  · exact habsent i hused (hid.symm.trans heq)

omit [DecidableEq σ] in
theorem unsettled_of_becameReady (hsound' : Sound s') (hhistory' : HistorySound s')
    (hp : p ∈ becameReady t.system.router s'.router) :
    p.identity ∉ s'.deliveredIdentities ∧ ∀ i, (s'.router.rows i).state = .inflight →
      (s'.router.rows i).identity ≠ p.identity := by
  obtain ⟨i, hi, -, rfl⟩ := mem_becameReady.mp hp
  refine ⟨fun hmem => (hhistory' _ hmem).2 i (by simp [hi]) rfl, fun k hk heq => ?_⟩
  obtain rfl := hsound'.rows.distinct k i (by simp [hk]) (by simp [hi]) heq
  rw [hi] at hk
  cases hk

/-- **One step of the history.** -/
theorem OrderSound.advance (h : OrderSound t) (hsound : Sound t.system)
    (hhistory : HistorySound t.system) (hs : t.system.step a = some s') (hsound' : Sound s')
    (hhistory' : HistorySound s')
    (hlane : ∀ i, (s'.router.rows i).state = .inflight →
      ∃ event count maxEvents, s'.drain = .delivering i event count maxEvents)
    (hdraining : s'.router.draining = false → s'.drain = .idle)
    (hrows : ∀ i, (s'.router.rows i).fired = true →
      (t.system.router.rows i).fired = true ∧
          (s'.router.rows i).mark = (t.system.router.rows i).mark ∨
        (t.system.router.rows i).fired = false ∧ (s'.router.rows i).state = .ready ∧
          ((s'.router.rows i).delayMs = 0 →
            (s'.router.rows i).sequence = t.system.router.nextSequence + 1) ∧
          ∀ j, j ≠ i → s'.router.rows j = t.system.router.rows j)
    (hstamped : Stamped s'.router)
    (hseq : t.system.router.nextSequence ≤ s'.router.nextSequence)
    (hdelivered : s'.deliveredIdentities = t.system.deliveredIdentities ∨
      ∃ j, (t.system.router.rows j).state = .inflight ∧
        s'.deliveredIdentities =
          t.system.deliveredIdentities ++ [(t.system.router.rows j).identity])
    (hinflight : ∀ i, (s'.router.rows i).state = .inflight →
      (t.system.router.rows i).state = .inflight ∧
          (s'.router.rows i).identity = (t.system.router.rows i).identity ∨
        ∀ a b, [a, b] <+ t.readied → a.sequence < b.sequence →
          (s'.router.rows i).identity = b.identity →
          Absent t.system.router a.identity) :
    OrderSound ⟨s', t.readied ++ becameReady t.system.router s'.router⟩ := by
  have hknown : ∀ {x y : Mark}, [x, y] <+ t.readied →
      x.identity ≤ t.system.router.nextRowIdentity :=
    fun hxy => (h.known _ (hxy.subset (by simp))).1
  refine ⟨hlane, hdraining, fun i hi => ?_, fun p hp => ?_, ?_, hstamped, fun p hp => ?_,
    fun x y hxy hzero => ?_, fun e he => ?_, ?_, fun x y hxy hlt hy => ?_,
    fun x y hxy hlt hx hy => ?_⟩
  · rcases hrows i hi with ⟨hfired, hmark⟩ | ⟨hold, hready, -⟩
    · show Row.mark _ ∈ _
      rw [hmark]
      exact List.mem_append_left _ (h.live i hfired)
    · exact List.mem_append_right _ (mem_becameReady.mpr ⟨i, hready, hold, rfl⟩)
  · rcases List.mem_append.mp hp with hp | hp
    · obtain ⟨hle, hfired⟩ := h.known p hp
      refine ⟨hle.trans (step_nextRowIdentity hsound hs), fun i hi heq => ?_⟩
      rcases step_origin hsound hs i hi with hnew | ⟨hused, hid, hkeeps⟩
      · have heq' : (s'.router.rows i).identity = p.identity := heq
        omega
      · exact hkeeps (hfired i hused (hid.symm.trans heq))
    · obtain ⟨k, hk, -, rfl⟩ := mem_becameReady.mp hp
      refine ⟨hsound'.rows.identity k (by simp [hk]), fun i hi heq => ?_⟩
      obtain rfl := hsound'.rows.distinct i k hi (by simp [hk]) heq
      simp [Row.fired, hk]
  · show ((t.readied ++ _).map Mark.identity).Nodup
    rw [List.map_append]
    refine List.nodup_append.mpr ⟨h.nodup, becameReady_nodup hsound'.rows, fun x hx y hy => ?_⟩
    rintro rfl
    obtain ⟨p, hp, rfl⟩ := List.mem_map.mp hy
    exact h.fresh hsound hs hp hx
  · rcases List.mem_append.mp hp with hp | hp
    · exact (h.bounded p hp).trans hseq
    · obtain ⟨k, hk, -, rfl⟩ := mem_becameReady.mp hp
      exact hstamped k (by simp [hk]) (by simp [hk])
  · rcases pair_sublist_append hxy with hxy | ⟨hnew, hbefore⟩
    · exact h.immediate x y hxy hzero
    obtain ⟨i, hi, hold, rfl⟩ := mem_becameReady.mp hnew
    rcases hrows i (by simp [Row.fired, hi]) with ⟨hfired, -⟩ | ⟨-, -, hcommit, hothers⟩
    · rw [hold] at hfired
      cases hfired
    rcases hbefore with hx | hpair
    · have hle := h.bounded x hx
      have hnext : (s'.router.rows i).mark.sequence = t.system.router.nextSequence + 1 :=
        hcommit hzero
      omega
    -- one section makes at most one row READY
    · obtain ⟨k, hk, hold', rfl⟩ := mem_becameReady.mp (hpair.subset (by simp : x ∈ [x, _]))
      by_cases hki : k = i
      · subst hki
        exact absurd ((hpair.map Mark.identity).nodup (becameReady_nodup hsound'.rows)) (by simp)
      · rw [← hothers k hki] at hold'
        simp [Row.fired, hk] at hold'
  · show e ∈ (t.readied ++ _).map Mark.identity
    rw [List.map_append]
    refine List.mem_append_left _ ?_
    rcases hdelivered with hsame | ⟨j, hj, happend⟩
    · rw [show _ = _ from hsame] at he
      exact h.delivered e he
    · rw [show _ = _ from happend] at he
      rcases List.mem_append.mp he with he | he
      · exact h.delivered e he
      · obtain rfl := List.mem_singleton.mp he
        exact List.mem_map_of_mem (h.live j (by simp [Row.fired, hj]))
  · show s'.deliveredIdentities.Nodup
    rcases hdelivered with hsame | ⟨j, hj, happend⟩
    · rw [hsame]
      exact h.once
    · rw [happend]
      refine List.nodup_append.mpr ⟨h.once, List.nodup_singleton _, fun x hx y hy => ?_⟩
      rintro rfl
      obtain rfl := List.mem_singleton.mp hy
      exact (hhistory _ hx).2 j (by simp [hj]) rfl
  · rcases pair_sublist_append hxy with hxy | ⟨hnew, -⟩
    · refine absent_step hsound hs (hknown hxy) ?_
      rcases hy with hy | ⟨i, hi, heq⟩
      · rcases hdelivered with hsame | ⟨j, hj, happend⟩
        · exact h.settled x y hxy hlt (.inl (hsame ▸ hy))
        · rw [show _ = _ from happend] at hy
          rcases List.mem_append.mp hy with hy | hy
          · exact h.settled x y hxy hlt (.inl hy)
          · exact h.settled x y hxy hlt (.inr ⟨j, hj, (List.mem_singleton.mp hy).symm⟩)
      · rcases hinflight i hi with ⟨hold, hid⟩ | hclaimed
        · exact h.settled x y hxy hlt (.inr ⟨i, hold, hid.symm.trans heq⟩)
        · exact hclaimed x y hxy hlt heq
    · obtain ⟨hnot, hidle⟩ := unsettled_of_becameReady hsound' hhistory' hnew
      rcases hy with hy | ⟨i, hi, heq⟩
      · exact absurd hy hnot
      · exact absurd heq (hidle i hi)
  · rcases pair_sublist_append hxy with hxy | ⟨hnew, -⟩
    · rcases hdelivered with hsame | ⟨j, hj, happend⟩
      · show _ <+ s'.deliveredIdentities
        rw [hsame]
        exact h.ordered x y hxy hlt (hsame ▸ hx) (hsame ▸ hy)
      · show _ <+ s'.deliveredIdentities
        rw [show _ = _ from happend] at hx hy
        rw [happend]
        rcases List.mem_append.mp hy with hy | hy
        · rcases List.mem_append.mp hx with hx | hx
          · exact (h.ordered x y hxy hlt hx hy).trans (List.sublist_append_left _ _)
          · obtain hx := List.mem_singleton.mp hx
            exact absurd hx.symm (h.settled x y hxy hlt (.inl hy) j (by simp [hj]))
        · obtain hy := List.mem_singleton.mp hy
          rcases List.mem_append.mp hx with hx | hx
          · rw [← hy]
            exact (List.singleton_sublist.mpr hx).append (List.Sublist.refl [y.identity])
          · obtain hx := List.mem_singleton.mp hx
            have hsame : x = y := List.inj_on_of_nodup_map h.nodup (hxy.subset (by simp))
              (hxy.subset (by simp)) (hx.trans hy.symm)
            rw [hsame] at hlt
            exact absurd hlt (Nat.lt_irrefl _)
    · exact absurd hy (unsettled_of_becameReady hsound' hhistory' hnew).1

theorem OrderSound.aloof (h : OrderSound t) (hsound : Sound t.system)
    (hhistory : HistorySound t.system) (hs : t.system.step a = some s') (hsound' : Sound s')
    (hhistory' : HistorySound s') (ha : a.onDrain = false) :
    OrderSound ⟨s', t.readied ++ becameReady t.system.router s'.router⟩ := by
  obtain ⟨haloof, hdrain, hdelivered⟩ := (step_spec hsound hs).aloof ha
  have hfired := fun i hi => haloof.fired (i := i) (hsound.rows.formed i) hi
  have hkept : ∀ i, (s'.router.rows i).state = .inflight →
      s'.router.rows i = t.system.router.rows i := by
    intro i hi
    rcases hfired i (by simp [Row.fired, hi]) with heq | ⟨-, hready, -⟩
    · exact heq
    · rw [hi] at hready
      cases hready
  refine h.advance hsound hhistory hs hsound' hhistory' (fun i hi => ?_) (fun hidle => ?_)
    (fun i hi => ?_) (haloof.stamped h.stamped) haloof.sequence (.inl hdelivered)
    fun i hi => .inl ⟨hkept i hi ▸ hi, by rw [hkept i hi]⟩
  · rw [hdrain]
    exact h.lane i (hkept i hi ▸ hi)
  · rw [hdrain]
    exact h.draining (haloof.draining ▸ hidle)
  · rcases hfired i hi with heq | hnew
    · exact .inl ⟨heq ▸ hi, by rw [heq]⟩
    · exact .inr hnew

theorem OrderSound.idle (h : OrderSound t) (hsound : Sound t.system)
    (hhistory : HistorySound t.system) (hs : t.system.step a = some s') (hsound' : Sound s')
    (hhistory' : HistorySound s') (hrows : s'.router.rows = t.system.router.rows)
    (hseq : s'.router.nextSequence = t.system.router.nextSequence)
    (hdelivered : s'.deliveredIdentities = t.system.deliveredIdentities)
    (hlane : ∀ i event count maxEvents, t.system.drain = .delivering i event count maxEvents →
      s'.drain = .delivering i event count maxEvents)
    (hdraining : s'.router.draining = false → s'.drain = .idle) :
    OrderSound ⟨s', t.readied ++ becameReady t.system.router s'.router⟩ := by
  have hstamped : Stamped s'.router := by
    intro i hi hr
    rw [hrows] at hi hr ⊢
    exact (h.stamped i hi hr).trans hseq.ge
  refine h.advance hsound hhistory hs hsound' hhistory' (fun i hi => ?_) hdraining
    (fun i hi => ?_) hstamped hseq.ge (.inl hdelivered) fun i hi => ?_
  · rw [hrows] at hi
    obtain ⟨event, count, maxEvents, heq⟩ := h.lane i hi
    exact ⟨event, count, maxEvents, hlane i event count maxEvents heq⟩
  · rw [hrows] at hi ⊢
    exact .inl ⟨hi, rfl⟩
  · rw [hrows] at hi ⊢
    exact .inl ⟨hi, rfl⟩

variable {maxEvents : ℕ}

omit [DecidableEq σ] in
theorem drainBegin_cases {result : Except MailboxStatus (DrainLane cfg σ)}
    (h : r.drainBegin maxEvents = (r', result)) :
    r' = r ∧ (∃ e, result = .error e) ∨
      r.draining = false ∧ r' = { r with draining := true } ∧
        result = .ok (.scanning 0 maxEvents .empty) := by
  unfold drainBegin at h
  split at h
  · cases h
    exact .inl ⟨rfl, _, rfl⟩
  split at h
  · cases h
    exact .inl ⟨rfl, _, rfl⟩
  split at h
  · cases h
    exact .inl ⟨rfl, _, rfl⟩
  · rename_i hdraining _
    cases h
    exact .inr ⟨by simpa using hdraining, rfl, rfl⟩

omit [DecidableEq σ] in
theorem OrderSound.sequence_eq (h : OrderSound t) (hi : (t.system.router.rows i).fired = true)
    (hp : p ∈ t.readied) (heq : (t.system.router.rows i).identity = p.identity) :
    (t.system.router.rows i).sequence = p.sequence :=
  congrArg Mark.sequence (List.inj_on_of_nodup_map h.nodup (h.live i hi) hp heq)

omit [DecidableEq σ] in
/-- **The claim of the drain** leaves no older row. -/
theorem OrderSound.claim (h : OrderSound t) {result : MailboxStatus}
    (hlane : t.system.drain = .scanning count maxEvents result) {j : Fin cfg.eventCapacity}
    (hj : t.system.router.oldestReady = some j) {x y : Mark} (hxy : [x, y] <+ t.readied)
    (hlt : x.sequence < y.sequence) (hy : (t.system.router.rows j).identity = y.identity) :
    Absent t.system.router x.identity := by
  intro i hi heq
  obtain ⟨hready, hleast⟩ := oldestReady_least hj
  have hx : x ∈ t.readied := hxy.subset (by simp)
  have hfired := (h.known x hx).2 i hi heq
  have hseq := h.sequence_eq hfired hx heq
  have hseqj := h.sequence_eq (i := j) (by simp [Row.fired, hready])
    (hxy.subset (by simp : y ∈ [x, y])) hy
  have hstate : (t.system.router.rows i).state = .ready := by
    simp only [Row.fired, Bool.or_eq_true, beq_iff_eq] at hfired
    rcases hfired with hstate | hstate
    · exact hstate
    · obtain ⟨event, c, m, hbusy⟩ := h.lane i hstate
      rw [hlane] at hbusy
      cases hbusy
  have := hleast i hstate
  omega

theorem OrderSound.step (h : OrderSound t) (hsound : Sound t.system)
    (hhistory : HistorySound t.system) (hs : t.system.step a = some s') :
    OrderSound ⟨s', t.readied ++ becameReady t.system.router s'.router⟩ := by
  have hsound' := (step_spec hsound hs).sound
  have hhistory' := hhistory.step hsound hs
  by_cases ha : a.onDrain = false
  · exact h.aloof hsound hhistory hs hsound' hhistory' ha
  have hbusy : ∀ {i event count maxEvents},
      t.system.drain = .delivering i event count maxEvents → t.system.router.draining = true := by
    intro i event count maxEvents heq
    by_contra hc
    rw [h.draining (Bool.eq_false_of_not_eq_true hc)] at heq
    cases heq
  have hcopy := hs
  cases a <;> simp only [Action.onDrain, not_true_eq_false, Bool.true_eq_false,
    not_false_eq_true] at ha <;> simp only [System.step] at hcopy
  case drainBegin maxEvents =>
    split at hcopy
    · rename_i r' lane hbegin
      cases hcopy
      rcases drainBegin_cases hbegin with ⟨-, e, hc⟩ | ⟨hidle, rfl, hlane⟩
      · cases hc
      · have hnone := h.draining hidle
        refine h.idle hsound hhistory hs hsound' hhistory' rfl rfl rfl (fun i event c m heq => ?_)
          fun hc => by cases hc
        rw [hnone] at heq
        cases heq
    · rename_i r' e hbegin
      cases hcopy
      rcases drainBegin_cases hbegin with ⟨rfl, -⟩ | ⟨-, -, hc⟩
      · exact h.idle hsound hhistory hs hsound' hhistory' rfl rfl rfl (fun i event c m heq => heq)
          h.draining
      · cases hc
  case drainClaim =>
    split at hcopy
    · rename_i count maxEvents result hlane
      cases hcopy
      have hon : ∀ r' : Router cfg σ, r'.draining = t.system.router.draining →
          r'.draining ≠ false := by
        intro r' hsame hc
        rw [h.draining (hsame.symm.trans hc)] at hlane
        cases hlane
      rcases t.system.router.drainClaim_cases count maxEvents result with
        ⟨⟨_, _, heq⟩, -⟩ | ⟨j, event, hj, heq⟩
      · have hwork : (t.system.router.drainClaim count maxEvents result).1.work =
            t.system.router.work := by
          rw [heq]
          rfl
        refine h.idle hsound hhistory hs hsound' hhistory' (congrArg (·.1) hwork)
          (congrArg (·.2.2.2.2) hwork) rfl (fun i event c m hc => ?_)
          fun hc => absurd hc (hon _ (congrArg (·.2.2.2.1) hwork))
        rw [hlane] at hc
        cases hc
      · have hready := oldestReady_ready hj
        have hd : (t.system.router.drainClaim count maxEvents result).1.draining =
            t.system.router.draining := congrArg (·.1.draining) heq
        simp only [heq] at hs hsound' hhistory' hd ⊢
        have hrow : ∀ i, i ≠ j → (t.system.router.setRow j
            { t.system.router.rows j with state := .inflight }).rows i =
              t.system.router.rows i :=
          fun i hi => update_of_ne hi _ _
        have hself : (t.system.router.setRow j
            { t.system.router.rows j with state := .inflight }).rows j =
              { t.system.router.rows j with state := .inflight } := update_self ..
        have honly : ∀ i, ((t.system.router.setRow j
            { t.system.router.rows j with state := .inflight }).rows i).state = .inflight →
              i = j := by
          intro i hi
          by_contra hne
          rw [hrow i hne] at hi
          obtain ⟨event', c, m, hc⟩ := h.lane i hi
          rw [hlane] at hc
          cases hc
        have hstamped : Stamped (t.system.router.setRow j
            { t.system.router.rows j with state := .inflight }) := by
          refine h.stamped.of_rows rfl fun i => ?_
          by_cases hne : i = j
          · subst hne
            rw [hself]
            exact .inr (.inr ⟨by simp [Row.fired, hready], rfl⟩)
          · exact .inl (hrow i hne)
        refine h.advance hsound hhistory hs hsound' hhistory' (fun i hi => ?_)
          (fun hc => absurd hc (hon _ hd)) (fun i hi => ?_) hstamped le_rfl (.inl rfl)
          fun i hi => .inr ?_
        · obtain rfl := honly i hi
          exact ⟨event, count, maxEvents, rfl⟩
        · left
          by_cases hne : i = j
          · subst hne
            rw [hself]
            exact ⟨by simp [Row.fired, hready], rfl⟩
          · rw [hrow i hne] at hi ⊢
            exact ⟨hi, rfl⟩
        · intro x y hxy hlt hy
          obtain rfl := honly i hi
          rw [hself] at hy
          exact h.claim hlane hj hxy hlt hy
    · cases hcopy
  case drainSettle status =>
    split at hcopy
    · rename_i j event count maxEvents hlane
      cases hcopy
      have hj := hsound.lanes.drain j event count maxEvents hlane
      have hp := drainSettle_pace (r := t.system.router) status j count maxEvents
      have hd : (t.system.router.drainSettle status j count maxEvents).1.draining =
          t.system.router.draining := congrArg Prod.fst hp
      have hon : (t.system.router.drainSettle status j count maxEvents).1.draining ≠ false := by
        rw [hd, hbusy hlane]
        exact Bool.noConfusion
      have honly : ∀ i, (t.system.router.rows i).state = .inflight → i = j := by
        intro i hi
        obtain ⟨event', c, m, hc⟩ := h.lane i hi
        rw [hlane] at hc
        cases hc
        rfl
      have hdelivered : (if status = .ok then
          t.system.deliveredIdentities ++ [(t.system.router.rows j).identity]
          else t.system.deliveredIdentities) = t.system.deliveredIdentities ∨
          ∃ k, (t.system.router.rows k).state = .inflight ∧ (if status = .ok then
            t.system.deliveredIdentities ++ [(t.system.router.rows j).identity]
            else t.system.deliveredIdentities) =
              t.system.deliveredIdentities ++ [(t.system.router.rows k).identity] := by
        split
        · exact .inr ⟨j, hj, rfl⟩
        · exact .inl rfl
      have hnone : ∀ i, ((t.system.router.drainSettle status j count maxEvents).1.rows i).state
          ≠ .inflight := by
        intro i hi
        have hleft := drainSettle_settles hsound.accounted hj status count maxEvents
        by_cases hne : i = j
        · exact hleft (hne ▸ hi)
        · refine hne (honly i ?_)
          rcases drainSettle_rows hj status count maxEvents with hdrop | ⟨-, hback⟩
          · rcases hdrop i with heq | heq
            · rwa [heq] at hi
            · rw [heq] at hi
              cases hi
          · rwa [hback, update_of_ne hne] at hi
      have hkept : ∀ i, (t.system.router.drainSettle status j count maxEvents).1.rows i =
            t.system.router.rows i ∨
          ((t.system.router.drainSettle status j count maxEvents).1.rows i).state = .free ∨
          (t.system.router.rows i).fired = true ∧
            ((t.system.router.drainSettle status j count maxEvents).1.rows i).mark =
              (t.system.router.rows i).mark := by
        intro i
        rcases drainSettle_rows hj status count maxEvents with hdrop | ⟨-, hback⟩
        · rcases hdrop i with heq | heq
          · exact .inl heq
          · exact .inr (.inl (by rw [heq]; rfl))
        · rw [hback]
          by_cases hne : i = j
          · subst hne
            rw [update_self]
            exact .inr (.inr ⟨by simp [Row.fired, hj], rfl⟩)
          · exact .inl (update_of_ne hne _ _)
      refine h.advance hsound hhistory hs hsound' hhistory'
        (fun i hi => absurd hi (hnone i)) (fun hc => absurd hc hon) (fun i hi => .inl ?_)
        (h.stamped.of_rows (congrArg Prod.snd hp) fun i => ?_) (congrArg Prod.snd hp).ge
        hdelivered fun i hi => absurd hi (hnone i)
      · rcases hkept i with heq | hfree | hsame
        · have hi' : ((t.system.router.drainSettle status j count maxEvents).1.rows i).fired
            = true := hi
          rw [heq] at hi'
          exact ⟨hi', congrArg Row.mark heq⟩
        · exact absurd hfree (Row.used_of_fired hi)
        · exact hsame
      · rcases hkept i with heq | hfree | ⟨hfired, hmark⟩
        · exact .inl heq
        · exact .inr (.inl hfree)
        · exact .inr (.inr ⟨hfired, congrArg Mark.sequence hmark⟩)
    · cases hcopy
  case drainFinish =>
    split at hcopy
    · rename_i count result hlane
      cases hcopy
      refine h.idle hsound hhistory hs hsound' hhistory' rfl rfl rfl (fun i event c m hc => ?_)
        fun _ => rfl
      rw [hlane] at hc
      cases hc
    · cases hcopy

end Advance

/-! ## The order of a run -/

section Run

variable [DecidableEq σ] {t : Traced cfg σ}

theorem Traced.step_eq_some {t t' : Traced cfg σ} {a : Action cfg σ} (h : t.step a = some t') :
    t.system.step a = some t'.system ∧
      t'.readied = t.readied ++ becameReady t.system.router t'.system.router := by
  obtain ⟨s', hs, rfl⟩ := Option.map_eq_some_iff.mp h
  exact ⟨hs, rfl⟩

theorem reachable_orderSound (h : t.Reachable) :
    Sound t.system ∧ HistorySound t.system ∧ OrderSound t := by
  refine h.invariant (P := fun t => Sound t.system ∧ HistorySound t.system ∧ OrderSound t)
    (fun t ht => ?_) fun t a t' ⟨hsound, hhistory, horder⟩ hs => ?_
  · obtain ⟨hsound, -, hhistory⟩ := reachable_history (Reachable.of_init ht.1)
    exact ⟨hsound, hhistory, init_orderSound ht⟩
  · obtain ⟨hs, hr⟩ := Traced.step_eq_some hs
    refine ⟨(step_spec hsound hs).sound, hhistory.step hsound hs, ?_⟩
    have horder' := horder.step hsound hhistory hs
    rwa [← hr] at horder'

structure DeliveryOrder (t : Traced cfg σ) : Prop where
  once : t.system.deliveredIdentities.Nodup
  readiedOnce : (t.readied.map Mark.identity).Nodup
  delivered : ∀ e ∈ t.system.deliveredIdentities, e ∈ t.readied.map Mark.identity
  /-- What became READY first is delivered first, but for delayed sends committed earlier. -/
  ordered : ∀ a b, [a, b] <+ t.readied → b.delayMs = 0 ∨ a.sequence < b.sequence →
    a.identity ∈ t.system.deliveredIdentities → b.identity ∈ t.system.deliveredIdentities →
    [a.identity, b.identity] <+ t.system.deliveredIdentities
  unskipped : ∀ a b, [a, b] <+ t.readied → b.delayMs = 0 ∨ a.sequence < b.sequence →
    b.identity ∈ t.system.deliveredIdentities → Absent t.system.router a.identity
  drains : ∀ t' j event count maxEvents, t.step .drainClaim = some t' →
    t'.system.drain = .delivering j event count maxEvents →
    (t.system.router.rows j).state = .ready ∧ ∀ i, (t.system.router.rows i).state = .ready →
      (t.system.router.rows j).sequence ≤ (t.system.router.rows i).sequence
  /-- The clock takes the due row of the least deadline, committed first. -/
  fires : ∀ now t' i count maxFires, t.step (.runDueClaim now) = some t' →
    t'.system.timer = .reporting i count maxFires →
    (t.system.router.rows i).state = .delayed ∧ (t.system.router.rows i).deadlineNs ≤ now ∧
      ∀ j, (t.system.router.rows j).state = .delayed → (t.system.router.rows j).deadlineNs ≤ now →
        t.system.router.activeAt (t.system.router.rows j).source = true →
        (t.system.router.rows i).deadlineNs < (t.system.router.rows j).deadlineNs ∨
          (t.system.router.rows i).deadlineNs = (t.system.router.rows j).deadlineNs ∧
            (t.system.router.rows i).sequence ≤ (t.system.router.rows j).sequence

omit [DecidableEq σ] in
theorem runDueClaim_least (r : Router cfg σ) {now maxFires c m : ℕ}
    (h : (r.runDueClaim now count maxFires).2 = .reporting i c m) :
    r.dueRow now = some i := by
  unfold runDueClaim at h
  split at h
  · cases h
  split at h
  · cases h
  split at h
  · cases h
  · rename_i j hj
    cases h
    exact hj

/-- **Main.** The delivery order of every run. -/
theorem reachable_delivery_order (h : t.Reachable) : DeliveryOrder t := by
  obtain ⟨-, -, horder⟩ := reachable_orderSound h
  have hearlier : ∀ a b, [a, b] <+ t.readied → b.delayMs = 0 ∨ a.sequence < b.sequence →
      a.sequence < b.sequence := fun a b hab => Or.rec (horder.immediate a b hab) id
  refine ⟨horder.once, horder.nodup, horder.delivered,
    fun a b hab hlt => horder.ordered a b hab (hearlier a b hab hlt),
    fun a b hab hlt hb => horder.settled a b hab (hearlier a b hab hlt) (.inl hb),
    fun t' j event count maxEvents hs hlane => ?_, fun now t' i count maxFires hs hlane => ?_⟩
  · obtain ⟨hs, -⟩ := Traced.step_eq_some hs
    simp only [System.step] at hs
    split at hs
    · rename_i c m result hscan
      cases hs' : t'.system
      rw [hs'] at hs hlane
      cases hs
      rcases t.system.router.drainClaim_cases c m result with
        ⟨-, result', hleave⟩ | ⟨k, event', hk, heq⟩
      · rw [show _ = _ from hleave] at hlane
        cases hlane
      · rw [show _ = _ from congrArg Prod.snd heq] at hlane
        cases hlane
        exact oldestReady_least hk
    · cases hs
  · obtain ⟨hs, -⟩ := Traced.step_eq_some hs
    simp only [System.step] at hs
    split at hs
    · cases hs' : t'.system
      rw [hs'] at hs hlane
      cases hs
      exact dueRow_least (runDueClaim_least _ hlane)
    · cases hs

end Run

def firstRow : Fin smallConfig.eventCapacity := ⟨0, Nat.zero_lt_two⟩

def secondRow : Fin smallConfig.eventCapacity := ⟨1, Nat.one_lt_two⟩

def overtakingRun : List (Action smallConfig Unit) :=
  [.attach () (some ['a']), .prepareTarget ⟨0, 1⟩ [] ['e'] ['x'] none 2,
    .commit 0 ⟨0, ⟨0, 1⟩, .send firstRow 1⟩,
    .prepareTarget ⟨0, 1⟩ [] ['e'] ['y'] none 1,
    .commit 0 ⟨1, ⟨0, 1⟩, .send secondRow 2⟩,
    .runDueBegin 2, .runDueClaim 3000000, .runDueSettle true, .runDueClaim 3000000,
    .runDueSettle true, .runDueClaim 3000000, .runDueFinish,
    .drainBegin 2, .drainClaim, .drainSettle .ok, .drainClaim, .drainSettle .ok]

theorem overtakingRun_isSome :
    (exec Traced.step (⟨System.init smallConfig Unit, []⟩ : Traced smallConfig Unit)
      overtakingRun).isSome = true := by
  decide

def overtakingState : Traced smallConfig Unit :=
  (exec Traced.step ⟨System.init smallConfig Unit, []⟩ overtakingRun).get overtakingRun_isSome

theorem overtakingState_reachable : overtakingState.Reachable :=
  Reachable.runs (.of_init ⟨⟨by decide, rfl⟩, rfl⟩)
    (exec_runs (Option.some_get overtakingRun_isSome).symm)

theorem overtakingState_delivery_order :
    overtakingState.system.deliveredIdentities = [1, 2] ∧ DeliveryOrder overtakingState :=
  ⟨by decide, reachable_delivery_order overtakingState_reachable⟩

/-- **A delayed send that is overtaken**, since it was committed last. -/
theorem overtaken_by_commit : ∃ t : Traced smallConfig Unit, t.Reachable ∧
    ∃ a b, [a, b] <+ t.readied ∧ a.identity ∈ t.system.deliveredIdentities ∧
      b.identity ∈ t.system.deliveredIdentities ∧
      ¬ [a.identity, b.identity] <+ t.system.deliveredIdentities :=
  ⟨overtakingState, overtakingState_reachable, ⟨2, 2, 1⟩, ⟨1, 1, 2⟩,
    by rw [show overtakingState.readied = [⟨2, 2, 1⟩, ⟨1, 1, 2⟩] from rfl], by decide, by decide,
    by decide⟩

end TurboScxml.Router
