import TurboScxml.Session.LifecycleEnds

/-!
# What holds of the invocations

The parts of the invariant of the invocations, each with what keeps it.

* `EffectsHeld`: the lifecycle effects in use are the staged ones;
* `TokensSound`: the tokens of the rows were issued and are distinct;
* `Balanced`: the counters account for the rows;
* `Alternates`: the staged entries and exits alternate;
* `RowsReserved`: a staged start or failure holds its row, unless the row was exited.
-/

namespace TurboScxml.Session

open Function Slots InvocationTable

variable {cfg : Config}

abbrev Lifecycles (cfg : Config) :=
  List (Fin (cfg.effectCapacity + 1) × InvocationEffect cfg.invocationCount)

/-! ## The effects in use -/

structure EffectsHeld (staged : Lifecycles cfg)
    (effects : Fin (cfg.effectCapacity + 1) → InvocationEffect cfg.invocationCount) : Prop where
  nodup : (staged.map Prod.fst).Nodup
  backs : ∀ e x, (e, x) ∈ staged → effects e = x ∧ x.Proper
  held : ∀ e, (effects e).inUse = true → ∃ x, (e, x) ∈ staged

variable {e' : Fin (cfg.effectCapacity + 1)} {x' : InvocationEffect cfg.invocationCount}

namespace EffectsHeld

variable {staged before after : Lifecycles cfg}
  {effects effects' : Fin (cfg.effectCapacity + 1) → InvocationEffect cfg.invocationCount}
  {e : Fin (cfg.effectCapacity + 1)} {x : InvocationEffect cfg.invocationCount}

theorem slot_ne (h : EffectsHeld staged effects) (hfree : (effects e).inUse = false)
    (hmem : (e', x') ∈ staged) : e' ≠ e := by
  rintro rfl
  obtain ⟨heq, hproper⟩ := h.backs e' x' hmem
  rw [heq, hproper.inUse] at hfree
  exact absurd hfree (by simp)

theorem push (h : EffectsHeld staged effects) (hfree : (effects e).inUse = false)
    (hproper : x.Proper) : EffectsHeld (staged ++ [(e, x)]) (update effects e x) where
  nodup := by
    rw [List.map_append, List.nodup_append]
    refine ⟨h.nodup, by simp, fun e' hmem b hb => ?_⟩
    obtain ⟨⟨e'', x'⟩, hmem', rfl⟩ := List.mem_map.mp hmem
    obtain rfl : b = e := by simpa using hb
    exact h.slot_ne hfree hmem'
  backs e' x' hmem := by
    obtain hmem | hmem := List.mem_append.mp hmem
    · rw [update_of_ne (h.slot_ne hfree hmem)]
      exact h.backs e' x' hmem
    · obtain ⟨rfl, rfl⟩ : e' = e ∧ x' = x := by simpa using hmem
      exact ⟨update_self .., hproper⟩
  held e' huse := by
    by_cases he : e' = e
    · exact ⟨x, by simp [he]⟩
    · rw [update_of_ne he] at huse
      obtain ⟨x', hmem⟩ := h.held e' huse
      exact ⟨x', List.mem_append_left _ hmem⟩

theorem take (h : EffectsHeld (before ++ (e, x) :: after) effects) :
    EffectsHeld (before ++ after) (update effects e { x with inUse := false }) := by
  have hperm : (before ++ (e, x) :: after).Perm ((e, x) :: (before ++ after)) :=
    List.perm_middle
  have hnodup := (hperm.map Prod.fst).nodup_iff.mp h.nodup
  rw [List.map_cons, List.nodup_cons] at hnodup
  have hother : ∀ e' x', (e', x') ∈ before ++ after → e' ≠ e := by
    intro e' x' hmem he
    exact hnodup.1 (List.mem_map.mpr ⟨(e', x'), hmem, he⟩)
  refine ⟨hnodup.2, fun e' x' hmem => ?_, fun e' huse => ?_⟩
  · rw [update_of_ne (hother e' x' hmem)]
    exact h.backs e' x' (hperm.mem_iff.mpr (List.mem_cons_of_mem _ hmem))
  · by_cases he : e' = e
    · rw [he, update_self] at huse
      exact absurd huse (by simp)
    · rw [update_of_ne he] at huse
      obtain ⟨x', hmem⟩ := h.held e' huse
      obtain heq | hmem' := List.mem_cons.mp (hperm.mem_iff.mp hmem)
      · exact absurd (Prod.mk.inj heq).1 he
      · exact ⟨x', hmem'⟩

theorem congr (h : EffectsHeld staged effects)
    (heffects : ∀ e, (effects' e).inUse = (effects e).inUse ∧
      ((effects e).inUse = true → effects' e = effects e)) : EffectsHeld staged effects' where
  nodup := h.nodup
  backs e x hmem := by
    obtain ⟨heq, hproper⟩ := h.backs e x hmem
    rw [(heffects e).2 (by rw [heq, hproper.inUse]), heq]
    exact ⟨rfl, hproper⟩
  held e huse := h.held e (by rwa [(heffects e).1] at huse)

end EffectsHeld

variable {i : Fin cfg.invocationCount}

theorem lifecycle_proper {kind : InvocationEffectKind} {token : ℕ}
    {ticket : Option AdapterTicket} (hkind : kind ≠ .unset)
    (hticket : ticket.isSome = (kind == .start || kind == .forward)) :
    (lifecycle kind i token ticket).Proper :=
  ⟨rfl, rfl, hkind, hticket⟩

/-! ## Tokens -/

def Issued (next token : ℕ) : Prop := token ≠ 0 ∧ token ≤ uint64Max ∧ (next ≠ 0 → token < next)

def issuedCount (next : ℕ) : ℕ := if next = 0 then uint64Max else next - 1

structure TokensSound (rows : Fin cfg.invocationCount → InvocationRow) (next : ℕ)
    (completed : List ℕ) : Prop where
  bounded : next ≤ uint64Max
  blank : ∀ i, (rows i).state = .inactive ∨ (rows i).state = .pending →
    rows i = .blank (rows i).state
  named : ∀ i, (rows i).state ≠ .inactive → (rows i).state ≠ .pending →
    Issued next (rows i).token
  distinct : ∀ i j, (rows i).token = (rows j).token → (rows i).token ≠ 0 → i = j
  nodup : completed.Nodup
  issued : ∀ token ∈ completed, Issued next token
  gone : ∀ token ∈ completed, ∀ i, (rows i).token ≠ token

namespace TokensSound

variable {rows rows' : Fin cfg.invocationCount → InvocationRow} {next : ℕ} {completed : List ℕ}
  {i : Fin cfg.invocationCount} {row : InvocationRow} (h : TokensSound rows next completed)
include h

theorem token_ne_zero (hinactive : (rows i).state ≠ .inactive)
    (hpending : (rows i).state ≠ .pending) : (rows i).token ≠ 0 :=
  (h.named i hinactive hpending).1

theorem zero_or_issued (i : Fin cfg.invocationCount) :
    (rows i).token = 0 ∨ Issued next (rows i).token := by
  by_cases hblank : (rows i).state = .inactive ∨ (rows i).state = .pending
  · rw [h.blank i hblank]
    exact .inl rfl
  · rw [not_or] at hblank
    exact .inr (h.named i hblank.1 hblank.2)

variable {state : InvocationState}

theorem clear (hstate : state = .inactive ∨ state = .pending) :
    TokensSound (update rows i (.blank state)) next completed where
  bounded := h.bounded
  blank j hj := by
    by_cases hji : j = i
    · subst hji
      simp [InvocationRow.blank]
    · rw [update_of_ne hji] at hj ⊢
      exact h.blank j hj
  named j hinactive hpending := by
    by_cases hji : j = i
    · subst hji
      rw [update_self] at hinactive hpending
      exact absurd hstate (not_or.mpr ⟨hinactive, hpending⟩)
    · rw [update_of_ne hji] at hinactive hpending ⊢
      exact h.named j hinactive hpending
  distinct j k htoken hne := by
    by_cases hji : j = i
    · subst hji
      rw [update_self] at hne
      exact absurd rfl hne
    · by_cases hki : k = i
      · subst hki
        rw [htoken, update_self] at hne
        exact absurd rfl hne
      · rw [update_of_ne hji] at htoken hne
        rw [update_of_ne hki] at htoken
        exact h.distinct j k htoken hne
  nodup := h.nodup
  issued := h.issued
  gone token hmem j := by
    by_cases hji : j = i
    · subst hji
      rw [update_self]
      exact (h.issued token hmem).1.symm
    · rw [update_of_ne hji]
      exact h.gone token hmem j

theorem change (hinactive : (rows i).state ≠ .inactive) (hpending : (rows i).state ≠ .pending)
    (hstate : state ≠ .inactive ∧ state ≠ .pending) :
    TokensSound (update rows i { rows i with state }) next completed := by
  have htoken : ∀ j, (update rows i { rows i with state } j).token = (rows j).token := by
    intro j
    by_cases hji : j = i
    · subst hji
      rw [update_self]
    · rw [update_of_ne hji]
  refine ⟨h.bounded, fun j hj => ?_, fun j hj hj' => ?_, fun j k hjk hne => ?_, h.nodup, h.issued,
    fun token hmem j => ?_⟩
  · by_cases hji : j = i
    · subst hji
      rw [update_self] at hj
      exact absurd hj (not_or.mpr hstate)
    · rw [update_of_ne hji] at hj ⊢
      exact h.blank j hj
  · rw [htoken]
    by_cases hji : j = i
    · subst hji
      exact h.named j hinactive hpending
    · rw [update_of_ne hji] at hj hj'
      exact h.named j hj hj'
  · rw [htoken] at hjk hne
    rw [htoken] at hjk
    exact h.distinct j k hjk hne
  · rw [htoken]
    exact h.gone token hmem j

theorem complete (hstate : (rows i).state = .active) :
    TokensSound (update rows i (.blank .inactive)) next (completed ++ [(rows i).token]) := by
  have hissued := h.named i (by simp [hstate]) (by simp [hstate])
  have hclear := h.clear (i := i) (.inl (rfl : InvocationState.inactive = .inactive))
  refine ⟨hclear.bounded, hclear.blank, hclear.named, hclear.distinct, ?_, ?_, ?_⟩
  · rw [List.nodup_append]
    refine ⟨h.nodup, by simp, fun token hmem b hb => ?_⟩
    obtain rfl : b = (rows i).token := by simpa using hb
    exact (h.gone token hmem i).symm
  · intro token hmem
    obtain hmem | hmem := List.mem_append.mp hmem
    · exact h.issued token hmem
    · obtain rfl : token = (rows i).token := by simpa using hmem
      exact hissued
  · intro token hmem j
    obtain hmem | hmem := List.mem_append.mp hmem
    · exact hclear.gone token hmem j
    · obtain rfl : token = (rows i).token := by simpa using hmem
      by_cases hji : j = i
      · subst hji
        rw [update_self]
        exact hissued.1.symm
      · rw [update_of_ne hji]
        exact fun heq => hji (h.distinct i j heq.symm hissued.1).symm

omit h

end TokensSound

section Taken

variable {t t' : InvocationTable cfg} {token : ℕ} {old : ℕ}

theorem Issued.take (h : Issued t.nextToken old) (htake : t.takeToken = some (t', token)) :
    Issued t'.nextToken old := by
  obtain ⟨rfl, hne, rfl⟩ := takeToken_some htake
  refine ⟨h.1, h.2.1, fun _ => ?_⟩
  have := h.2.2 hne
  dsimp only at *
  split_ifs at * <;> omega

theorem Issued.lt_token (h : Issued t.nextToken old) (htake : t.takeToken = some (t', token)) :
    old < token := by
  obtain ⟨rfl, hne, -⟩ := takeToken_some htake
  exact h.2.2 hne

theorem issued_of_take (hbounded : t.nextToken ≤ uint64Max)
    (htake : t.takeToken = some (t', token)) :
    Issued t'.nextToken token ∧ t'.nextToken ≤ uint64Max ∧
      issuedCount t'.nextToken = issuedCount t.nextToken + 1 := by
  obtain ⟨rfl, hne, rfl⟩ := takeToken_some htake
  by_cases hmax : t.nextToken = uint64Max
  · simp only [hmax, if_true, Issued, issuedCount]
    have : uint64Max ≠ 0 := by omega
    simp only [this, if_false]
    exact ⟨⟨by omega, le_refl _, by simp⟩, by omega, by omega⟩
  · simp only [if_neg hmax, Issued, issuedCount, if_neg hne, Nat.succ_ne_zero, if_false]
    exact ⟨⟨hne, hbounded, fun _ => by omega⟩, by omega, by omega⟩

namespace TokensSound

variable {rows : Fin cfg.invocationCount → InvocationRow} {completed : List ℕ}
  {i : Fin cfg.invocationCount}

theorem take (h : TokensSound rows t.nextToken completed)
    (htake : t.takeToken = some (t', token)) : TokensSound rows t'.nextToken completed where
  bounded := (issued_of_take h.bounded htake).2.1
  blank := h.blank
  named j hinactive hpending := (h.named j hinactive hpending).take htake
  distinct := h.distinct
  nodup := h.nodup
  issued token hmem := (h.issued token hmem).take htake
  gone := h.gone

theorem reserve (h : TokensSound rows t.nextToken completed)
    (htake : t.takeToken = some (t', token)) (id : Text) (ownsId : Bool) {state : InvocationState}
    (hstate : state ≠ .inactive ∧ state ≠ .pending) :
    TokensSound (update rows i ⟨token, id, ownsId, state⟩) t'.nextToken completed := by
  have hnew : ∀ j, (rows j).token ≠ token := by
    intro j heq
    obtain hzero | hissued := h.zero_or_issued j
    · exact (takeToken_some htake).2.1 (heq.symm.trans hzero)
    · have := hissued.lt_token htake
      omega
  have htaken := h.take htake
  refine ⟨htaken.bounded, fun j hj => ?_, fun j hj hj' => ?_, fun j k hjk hne => ?_, h.nodup,
    htaken.issued, fun old hmem j => ?_⟩
  · by_cases hji : j = i
    · subst hji
      rw [update_self] at hj
      exact absurd hj (not_or.mpr hstate)
    · rw [update_of_ne hji] at hj ⊢
      exact h.blank j hj
  · by_cases hji : j = i
    · subst hji
      rw [update_self]
      exact (issued_of_take h.bounded htake).1
    · rw [update_of_ne hji] at hj hj' ⊢
      exact htaken.named j hj hj'
  · by_cases hji : j = i <;> by_cases hki : k = i
    · exact hji.trans hki.symm
    · subst hji
      rw [update_self, update_of_ne hki] at hjk
      exact absurd hjk.symm (hnew k)
    · subst hki
      rw [update_self, update_of_ne hji] at hjk
      exact absurd hjk (hnew j)
    · rw [update_of_ne hji] at hjk hne
      rw [update_of_ne hki] at hjk
      exact h.distinct j k hjk hne
  · by_cases hji : j = i
    · subst hji
      rw [update_self]
      exact ne_of_gt ((h.issued old hmem).lt_token htake)
    · rw [update_of_ne hji]
      exact h.gone old hmem j

end TokensSound

end Taken

/-! ## Counters -/

def InvocationRow.isIn (state : InvocationState) (row : InvocationRow) : Bool := row.state == state

variable {row : InvocationRow}

theorem InvocationRow.isIn_eq {state : InvocationState}
    (h : row.state = state) (state' : InvocationState) :
    row.isIn state' = decide (state = state') := by
  rw [Bool.eq_iff_iff]
  simp [isIn, h]

/-- **The counters account for the rows.** -/
structure Balanced (rows : Fin cfg.invocationCount → InvocationRow) (stats : InvokeStats)
    (next : ℕ) : Prop where
  active : stats.active = tally (InvocationRow.isIn .active) rows
  started : stats.started
    = stats.active + stats.completed + stats.cancelled + stats.cancelFailed
  bound : stats.started + tally (InvocationRow.isIn .startReserved) rows ≤ issuedCount next

theorem issuedCount_le {next : ℕ} (h : next ≤ uint64Max) : issuedCount next ≤ uint64Max := by
  unfold issuedCount
  split_ifs <;> omega

theorem incrementU64_eq {value : ℕ} (h : value < uint64Max) : incrementU64 value = value + 1 := by
  simp [incrementU64, ne_of_lt h]

namespace Balanced

variable {rows : Fin cfg.invocationCount → InvocationRow} {a b : InvokeStats} {next next' : ℕ}
  {i : Fin cfg.invocationCount} {row : InvocationRow}
  {x : InvocationEffect cfg.invocationCount} {completed : List ℕ} (h : Balanced rows a next)
include h

theorem core (hcore : CoreSame a b)
    (hnext : issuedCount next ≤ issuedCount next') : Balanced rows b next' := by
  obtain ⟨hactive, hstarted, hbound⟩ := h
  refine ⟨by rw [hcore.active, hactive], ?_, ?_⟩
  · rw [hcore.started, hcore.active, hcore.completed, hcore.cancelled, hcore.cancelFailed,
      hstarted]
  · rw [hcore.started]
    omega

theorem change (hcore : CoreSame a b) (hold : (rows i).state ≠ .active) (hnew : row.state ≠ .active)
    (hreserved : row.state = .startReserved → issuedCount next < issuedCount next')
    (hnext : issuedCount next ≤ issuedCount next') : Balanced (update rows i row) b next' := by
  obtain ⟨hactive, hstarted, hbound⟩ := h.core hcore hnext
  have hb := h.bound
  have htally := tally_update (InvocationRow.isIn .active) rows i row
  have htally' := tally_update (InvocationRow.isIn .startReserved) rows i row
  have hold' : InvocationRow.isIn .active (rows i) = false := by simpa [InvocationRow.isIn]
  have hnew' : InvocationRow.isIn .active row = false := by simpa [InvocationRow.isIn]
  rw [hold', hnew'] at htally
  refine ⟨by omega, hstarted, ?_⟩
  by_cases hr : row.state = .startReserved
  · have := hreserved hr
    have := Bool.toNat_le (InvocationRow.isIn .startReserved row)
    rw [hcore.started]
    omega
  · have hr' : InvocationRow.isIn .startReserved row = false := by simpa [InvocationRow.isIn]
    rw [hr', Bool.toNat_false] at htally'
    omega

theorem leave (hnext : next ≤ uint64Max)
    (hstate : (rows i).state = .active) (hstarted : b.started = a.started)
    (hactive : b.active = a.active - 1)
    (hsum : a.completed + a.cancelled + a.cancelFailed < uint64Max →
      b.completed + b.cancelled + b.cancelFailed
        = a.completed + a.cancelled + a.cancelFailed + 1) :
    Balanced (update rows i (.blank .inactive)) b next := by
  have htally := tally_update (InvocationRow.isIn .active) rows i (.blank .inactive)
  have htally' := tally_update (InvocationRow.isIn .startReserved) rows i (.blank .inactive)
  have hblank : (InvocationRow.blank .inactive).state = .inactive := rfl
  rw [InvocationRow.isIn_eq hstate, InvocationRow.isIn_eq hblank] at htally htally'
  simp only [reduceCtorEq, decide_true, decide_false, Bool.toNat_true, Bool.toNat_false]
    at htally htally'
  obtain ⟨ha, hs, hb⟩ := h
  have hcount := issuedCount_le hnext
  exact ⟨by omega, by omega, by omega⟩

theorem start (hnext : next ≤ uint64Max)
    (hold : (rows i).state = .startReserved) (hnew : row.state = .active)
    (hactive : b.active = a.active + 1)
    (hstarted : a.started < uint64Max → b.started = a.started + 1)
    (hcompleted : b.completed = a.completed) (hcancelled : b.cancelled = a.cancelled)
    (hfailed : b.cancelFailed = a.cancelFailed) : Balanced (update rows i row) b next := by
  have htally := tally_update (InvocationRow.isIn .active) rows i row
  have htally' := tally_update (InvocationRow.isIn .startReserved) rows i row
  rw [InvocationRow.isIn_eq hold, InvocationRow.isIn_eq hnew] at htally htally'
  simp only [reduceCtorEq, decide_true, decide_false, Bool.toNat_true, Bool.toNat_false]
    at htally htally'
  obtain ⟨ha, hs, hb⟩ := h
  have hcount := issuedCount_le hnext
  exact ⟨by omega, by omega, by omega⟩

/-- **The commit of an effect keeps the balance.** -/
theorem ended (hnext : next ≤ uint64Max) (hended : Ended x (rows i) a row b completed)
    (henter : x.kind = .enter → (rows i).state = .inactive) :
    Balanced (update rows i row) b next := by
  cases hended with
  | kept _ hcore =>
    rw [update_eq_self]
    exact h.core hcore (le_refl _)
  | entered _ hcore hkind =>
    exact h.change hcore (by simp [henter hkind]) (by simp [InvocationRow.blank])
      (by simp [InvocationRow.blank]) (le_refl _)
  | left _ hcore _ hstate =>
    exact h.change hcore hstate (by simp [InvocationRow.blank]) (by simp [InvocationRow.blank])
      (le_refl _)
  | cancelled _ _ hstate hs ha hc hcancelled =>
    refine h.leave hnext hstate hs ha fun hlt => ?_
    obtain ⟨hcan, hfail⟩ | ⟨hcan, hfail⟩ := hcancelled
    · rw [incrementU64_eq (by omega)] at hcan
      omega
    · rw [incrementU64_eq (by omega)] at hfail
      omega
  | started _ _ hstate _ hs ha hc hcan hfail =>
    refine h.start hnext hstate rfl ha (fun hlt => ?_) hc hcan hfail
    rw [hs, incrementU64_eq hlt]
  | failed _ hcore _ hstate =>
    exact h.change hcore (by simp [hstate]) (by simp) (by simp) (le_refl _)
  | completed _ _ hstate _ hs ha hc hcan hfail =>
    refine h.leave hnext hstate hs ha fun hlt => ?_
    rw [incrementU64_eq (by omega)] at hc
    omega

theorem givenBack (hback : GivenBack x (rows i) row) : Balanced (update rows i row) a next := by
  cases hback with
  | kept =>
    rw [update_eq_self]
    exact h
  | pending hreserved =>
    have hstate : (rows i).state ≠ .active := by
      intro hactive
      have hfor := hreserved.1
      rw [hactive] at hfor
      unfold reservedState at hfor
      split at hfor <;> cases hfor
    exact h.change (.refl a) hstate (by simp [InvocationRow.blank]) (by simp [InvocationRow.blank])
      (le_refl _)

omit h

end Balanced

/-! ## Entries and exits -/

/-- The staged entries and exits lead from the committed flags to the staged ones. -/
def Alternates (present : Fin cfg.invocationCount → Bool) :
    Lifecycles cfg → (Fin cfg.invocationCount → Bool) → Prop
  | [], entered => entered = present
  | (_, x) :: rest, entered =>
    (x.kind = .enter → ∀ i, x.invocation = some i → present i = false) ∧
      Alternates (System.presentAfter present x) rest entered

namespace Alternates

variable {present entered : Fin cfg.invocationCount → Bool} {staged : Lifecycles cfg}
  {e : Fin (cfg.effectCapacity + 1)} {x : InvocationEffect cfg.invocationCount}

theorem push (h : Alternates present staged entered)
    (henter : x.kind = .enter → ∀ i, x.invocation = some i → entered i = false) :
    Alternates present (staged ++ [(e, x)]) (System.presentAfter entered x) := by
  induction staged generalizing present with
  | nil =>
    obtain rfl : entered = present := h
    exact ⟨henter, rfl⟩
  | cons first rest ih => exact ⟨h.1, ih h.2⟩

end Alternates

variable {x : InvocationEffect cfg.invocationCount}

theorem presentAfter_eq_self (henter : x.kind ≠ .enter)
    (hexit : x.kind ≠ .exit) (present : Fin cfg.invocationCount → Bool) :
    System.presentAfter present x = present := by
  unfold System.presentAfter
  split
  · exact absurd ‹_› henter
  · exact absurd ‹_› hexit
  · rfl

theorem presentAfter_enter (hkind : x.kind = .enter) (hi : x.invocation = some i)
    (present : Fin cfg.invocationCount → Bool) :
    System.presentAfter present x = update present i true := by
  simp [System.presentAfter, hkind, hi]

theorem presentAfter_exit (hkind : x.kind = .exit) (hi : x.invocation = some i)
    (present : Fin cfg.invocationCount → Bool) :
    System.presentAfter present x = update present i false := by
  simp [System.presentAfter, hkind, hi]

def Present (rows : Fin cfg.invocationCount → InvocationRow)
    (present : Fin cfg.invocationCount → Bool) : Prop :=
  ∀ i, (rows i).state ≠ .inactive → present i = true

namespace Present

variable {rows : Fin cfg.invocationCount → InvocationRow}
  {present : Fin cfg.invocationCount → Bool} {i : Fin cfg.invocationCount} {row : InvocationRow}
  {a b : InvokeStats} {completed : List ℕ} {x : InvocationEffect cfg.invocationCount}

theorem change (h : Present rows present)
    (hrow : row.state ≠ .inactive → (rows i).state ≠ .inactive) :
    Present (update rows i row) present := by
  intro j hj
  by_cases hji : j = i
  · subst hji
    rw [update_self] at hj
    exact h j (hrow hj)
  · rw [update_of_ne hji] at hj
    exact h j hj

theorem ended (h : Present rows present) (hi : x.invocation = some i)
    (hended : Ended x (rows i) a row b completed) :
    Present (update rows i row) (System.presentAfter present x) := by
  cases hended with
  | kept _ _ henter hexit =>
    rw [presentAfter_eq_self henter hexit, update_eq_self]
    exact h
  | entered _ _ hkind =>
    rw [presentAfter_enter hkind hi]
    intro j hj
    by_cases hji : j = i
    · rw [hji, update_self]
    · rw [update_of_ne hji] at hj ⊢
      exact h j hj
  | left _ _ hkind | cancelled _ hkind =>
    rw [presentAfter_exit hkind hi]
    intro j hj
    by_cases hji : j = i
    · subst hji
      rw [update_self] at hj
      exact absurd rfl hj
    · rw [update_of_ne hji] at hj ⊢
      exact h j hj
  | started _ hkind hstate | failed _ _ hkind hstate =>
    rw [presentAfter_eq_self (by simp [hkind]) (by simp [hkind])]
    exact h.change fun _ => by simp [hstate]
  | completed _ hkind =>
    rw [presentAfter_eq_self (by simp [hkind]) (by simp [hkind])]
    exact h.change fun hne => absurd rfl hne

end Present

/-! ## Reserved rows -/

/-- A staged start or failure holds its row unless it was exited. -/
structure RowsReserved (rows : Fin cfg.invocationCount → InvocationRow) (staged : Lifecycles cfg)
    (exited : Fin cfg.invocationCount → Bool) : Prop where
  held : ∀ e x i, (e, x) ∈ staged → Reserves x i → ReservedFor (rows i) x ∨ exited i = true
  single : ∀ e x e' x' i, (e, x) ∈ staged → (e', x') ∈ staged → Reserves x i → Reserves x' i →
    e = e'
  left : ∀ i, exited i = true → (rows i).state ≠ .startReserved ∧ (rows i).state ≠ .failReserved

theorem exitedAfter_eq_self (hexit : x.kind ≠ .exit)
    (exited : Fin cfg.invocationCount → Bool) : System.exitedAfter exited x = exited := by
  unfold System.exitedAfter
  split
  · exact absurd ‹_› hexit
  · rfl

theorem exitedAfter_exit (hkind : x.kind = .exit) (hi : x.invocation = some i)
    (exited : Fin cfg.invocationCount → Bool) :
    System.exitedAfter exited x = update exited i true := by
  simp [System.exitedAfter, hkind, hi]

theorem InvocationTable.ReservedFor.state (h : ReservedFor row x) :
    x.kind = .start ∧ row.state = .startReserved ∨ x.kind = .fail ∧ row.state = .failReserved := by
  have hstate := h.1
  unfold reservedState at hstate
  split at hstate
  · exact .inl ⟨‹_›, (Option.some.inj hstate).symm⟩
  · exact .inr ⟨‹_›, (Option.some.inj hstate).symm⟩
  · cases hstate

theorem InvocationTable.ReservedFor.ne {state : InvocationState} (hrow : row.state = state)
    (hstate : state ≠ .startReserved ∧ state ≠ .failReserved) : ¬ReservedFor row x := by
  intro h
  obtain ⟨-, hs⟩ | ⟨-, hs⟩ := h.state
  · exact hstate.1 (hrow.symm.trans hs)
  · exact hstate.2 (hrow.symm.trans hs)

namespace RowsReserved

variable {rows : Fin cfg.invocationCount → InvocationRow} {staged before after : Lifecycles cfg}
  {exited : Fin cfg.invocationCount → Bool} {e : Fin (cfg.effectCapacity + 1)}
  {i : Fin cfg.invocationCount} {x : InvocationEffect cfg.invocationCount} {row : InvocationRow}
  {a b : InvokeStats} {completed : List ℕ}

theorem push (h : RowsReserved rows staged exited) (hkind : x.kind ≠ .start ∧ x.kind ≠ .fail) :
    RowsReserved rows (staged ++ [(e, x)]) exited := by
  have hold : ∀ e' x' j, (e', x') ∈ staged ++ [(e, x)] → Reserves x' j → (e', x') ∈ staged := by
    intro e' x' j hmem hres
    obtain hmem | hmem := List.mem_append.mp hmem
    · exact hmem
    · obtain ⟨rfl, rfl⟩ : e' = e ∧ x' = x := by simpa using hmem
      exact absurd hres.2 (not_or.mpr hkind)
  refine ⟨fun e' x' j hmem hres => ?_, fun e' x' e'' x'' j hmem hmem' hres hres' => ?_, h.left⟩
  · exact h.held e' x' j (hold e' x' j hmem hres) hres
  · exact h.single e' x' e'' x'' j (hold e' x' j hmem hres) (hold e'' x'' j hmem' hres') hres hres'

theorem reserve (h : RowsReserved rows staged exited) (hpending : (rows i).state = .pending)
    (hopen : ∀ j, exited j = false) (hi : x.invocation = some i) (hrow : ReservedFor row x) :
    RowsReserved (update rows i row) (staged ++ [(e, x)]) exited := by
  have hnone : ∀ e' x', (e', x') ∈ staged → ¬Reserves x' i := by
    intro e' x' hmem hres
    obtain hfor | hexit := h.held e' x' i hmem hres
    · exact ReservedFor.ne hpending (by simp) hfor
    · rw [hopen i] at hexit
      exact absurd hexit (by simp)
  refine ⟨fun e' x' j hmem hres => ?_, fun e' x' e'' x'' j hmem hmem' hres hres' => ?_,
    fun j hj => ?_⟩
  · obtain hmem | hmem := List.mem_append.mp hmem
    · have hji : j ≠ i := by
        rintro rfl
        exact hnone e' x' hmem hres
      rw [update_of_ne hji]
      exact h.held e' x' j hmem hres
    · obtain ⟨rfl, rfl⟩ : e' = e ∧ x' = x := by simpa using hmem
      obtain rfl : i = j := Option.some.inj (hi.symm.trans hres.1)
      rw [update_self]
      exact .inl hrow
  · obtain hold | hnew := List.mem_append.mp hmem <;>
      obtain hold' | hnew' := List.mem_append.mp hmem'
    · exact h.single e' x' e'' x'' j hold hold' hres hres'
    · obtain ⟨rfl, rfl⟩ : e'' = e ∧ x'' = x := by simpa using hnew'
      obtain rfl : i = j := Option.some.inj (hi.symm.trans hres'.1)
      exact absurd hres (hnone e' x' hold)
    · obtain ⟨rfl, rfl⟩ : e' = e ∧ x' = x := by simpa using hnew
      obtain rfl : i = j := Option.some.inj (hi.symm.trans hres.1)
      exact absurd hres' (hnone e'' x'' hold')
    · obtain ⟨rfl, -⟩ : e' = e ∧ x' = x := by simpa using hnew
      obtain ⟨rfl, -⟩ : e'' = e' ∧ x'' = x := by simpa using hnew'
      rfl
  · rw [hopen j] at hj
    exact absurd hj (by simp)

theorem take (h : RowsReserved rows (before ++ (e, x) :: after) exited)
    (exited' : Fin cfg.invocationCount → Bool) (hexited : ∀ j, exited j = true → exited' j = true)
    (hothers : ∀ j, j ≠ i → exited' j = exited j)
    (hheld : ∀ e' x', (e', x') ∈ before ++ after → Reserves x' i →
      ReservedFor (rows i) x' ∨ exited i = true → ReservedFor row x' ∨ exited' i = true)
    (hleft : exited' i = true → row.state ≠ .startReserved ∧ row.state ≠ .failReserved) :
    RowsReserved (update rows i row) (before ++ after) exited' := by
  have hsub : ∀ y, y ∈ before ++ after → y ∈ before ++ (e, x) :: after := fun y hy =>
    List.perm_middle.mem_iff.mpr (List.mem_cons_of_mem _ hy)
  refine ⟨fun e' x' j hmem hres => ?_, fun e' x' e'' x'' j hmem hmem' => ?_, fun j hj => ?_⟩
  · by_cases hji : j = i
    · subst hji
      rw [update_self]
      exact hheld e' x' hmem hres (h.held e' x' j (hsub _ hmem) hres)
    · rw [update_of_ne hji]
      exact (h.held e' x' j (hsub _ hmem) hres).imp_right (hexited j)
  · exact h.single e' x' e'' x'' j (hsub _ hmem) (hsub _ hmem')
  · by_cases hji : j = i
    · subst hji
      rw [update_self]
      exact hleft hj
    · rw [update_of_ne hji]
      rw [hothers j hji] at hj
      exact h.left j hj

theorem not_reserves (h : RowsReserved rows (before ++ (e, x) :: after) exited)
    (hnodup : ((before ++ (e, x) :: after).map Prod.fst).Nodup) (hres : Reserves x i)
    (hmem : (e', x') ∈ before ++ after) : ¬Reserves x' i := by
  intro hres'
  have hperm : (before ++ (e, x) :: after).Perm ((e, x) :: (before ++ after)) := List.perm_middle
  rw [(hperm.map Prod.fst).nodup_iff, List.map_cons, List.nodup_cons] at hnodup
  have heq := h.single e x e' x' i (by simp) (hperm.mem_iff.mpr (List.mem_cons_of_mem _ hmem))
    hres hres'
  exact hnodup.1 (List.mem_map.mpr ⟨(e', x'), hmem, heq.symm⟩)

theorem ended (h : RowsReserved rows ((e, x) :: after) exited)
    (hnodup : (((e, x) :: after).map Prod.fst).Nodup) (hi : x.invocation = some i)
    (hended : Ended x (rows i) a row b completed)
    (henter : x.kind = .enter → (rows i).state = .inactive) :
    RowsReserved (update rows i row) after (System.exitedAfter exited x) := by
  have hblank : ∀ state, state ≠ InvocationState.startReserved →
      state ≠ InvocationState.failReserved → (InvocationRow.blank state).state ≠ .startReserved ∧
        (InvocationRow.blank state).state ≠ .failReserved := fun _ h h' => ⟨h, h'⟩
  have h' : RowsReserved rows ([] ++ (e, x) :: after) exited := h
  refine h'.take _ ?_ ?_ ?_ ?_
  · intro j hj
    by_cases hexit : x.kind = .exit
    · rw [exitedAfter_exit hexit hi]
      by_cases hji : j = i
      · rw [hji, update_self]
      · rwa [update_of_ne hji]
    · rwa [exitedAfter_eq_self hexit]
  · intro j hji
    by_cases hexit : x.kind = .exit
    · rw [exitedAfter_exit hexit hi, update_of_ne hji]
    · rw [exitedAfter_eq_self hexit]
  · intro e' x' hmem hres hor
    cases hended with
    | kept _ _ _ hexit =>
      rwa [exitedAfter_eq_self hexit]
    | entered _ _ hkind =>
      rw [exitedAfter_eq_self (by simp [hkind])]
      exact .inr (hor.resolve_left (ReservedFor.ne (henter hkind) (by simp)))
    | left _ _ hkind | cancelled _ hkind =>
      rw [exitedAfter_exit hkind hi, update_self]
      exact .inr rfl
    | started _ hkind =>
      exact absurd hres (h'.not_reserves hnodup ⟨hi, .inl hkind⟩ hmem)
    | failed _ _ hkind =>
      exact absurd hres (h'.not_reserves hnodup ⟨hi, .inr hkind⟩ hmem)
    | completed _ hkind hstate =>
      rw [exitedAfter_eq_self (by simp [hkind])]
      exact .inr (hor.resolve_left (ReservedFor.ne hstate (by simp)))
  · intro hexited
    cases hended with
    | kept _ _ _ hexit =>
      rw [exitedAfter_eq_self hexit] at hexited
      exact h.left i hexited
    | entered | left | cancelled | completed => exact hblank _ (by simp) (by simp)
    | started | failed => simp

theorem givenBack (h : RowsReserved rows (before ++ (e, x) :: after) exited)
    (hnodup : ((before ++ (e, x) :: after).map Prod.fst).Nodup) (hi : x.invocation = some i)
    (hback : GivenBack x (rows i) row) :
    RowsReserved (update rows i row) (before ++ after) exited := by
  refine h.take exited (fun _ hj => hj) (fun _ _ => rfl) ?_ ?_
  · intro e' x' hmem hres hor
    cases hback with
    | kept => exact hor
    | pending hreserved =>
      have hres' : Reserves x i := ⟨hi, hreserved.state.imp And.left And.left⟩
      exact absurd hres (h.not_reserves hnodup hres' hmem)
  · intro hexited
    cases hback with
    | kept => exact h.left i hexited
    | pending => simp [InvocationRow.blank]

end RowsReserved

end TurboScxml.Session
