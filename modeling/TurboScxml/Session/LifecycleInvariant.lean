import TurboScxml.Session.LifecycleParts
import TurboScxml.Session.SendInvariant

/-!
# The invariant of the invocations

* `LifecycleSound`: the parts of the invariant, for the state of a Session;
* `LifecycleSound.move` keeps it along every step; `reachable_lifecycleSound`.
-/

namespace TurboScxml.Session

open Function Slots InvocationTable

variable {cfg : Config}

namespace System

/-- **The invariant of the invocations.** -/
structure LifecycleSound (s : System cfg) : Prop where
  held : EffectsHeld s.lifecycleStaged s.invocations.effects
  tokens : TokensSound s.invocations.rows s.invocations.nextToken s.completed
  balanced : Balanced s.invocations.rows s.invocations.stats s.invocations.nextToken
  reserved : RowsReserved s.invocations.rows s.lifecycleStaged s.exited
  present : Present s.invocations.rows s.present
  alternates : s.lane ≠ .discarding → Alternates s.present s.lifecycleStaged s.entered
  exitedLane : s.lane ≠ .idle → s.lane ≠ .committing → ∀ i, s.exited i = false
  idle : s.lane = .idle → s.lifecycleStaged = []

variable {s s' : System cfg}

theorem init_lifecycleSound : (init cfg).LifecycleSound where
  held := ⟨by simp [init, lifecycleStaged], by simp [init, lifecycleStaged],
    fun e huse => absurd huse (by simp [init, InvocationTable.init, InvocationEffect.free])⟩
  tokens := by
    refine ⟨(by decide : 1 ≤ uint64Max), fun i _ => rfl, fun i h => absurd rfl h,
      fun i j _ h => absurd rfl h,
      by simp [init], by simp [init], by simp [init]⟩
  balanced := by
    have hzero : ∀ state, state ≠ InvocationState.inactive →
        tally (InvocationRow.isIn state) (init cfg).invocations.rows = 0 := fun state hne =>
      tally_eq_zero fun i => by
        have hrow : ((init cfg).invocations.rows i).state = .inactive := rfl
        simpa [InvocationRow.isIn_eq hrow] using hne.symm
    refine ⟨(hzero .active (by simp)).symm, rfl, ?_⟩
    rw [hzero .startReserved (by simp)]
    simp [init, InvocationTable.init, InvokeStats.zero]
  reserved := by
    refine ⟨by simp [init, lifecycleStaged], by simp [init, lifecycleStaged], by simp [init]⟩
  present i h := absurd rfl h
  alternates _ := rfl
  exitedLane h := absurd rfl h
  idle _ := rfl

variable (h : s.LifecycleSound)
include h

theorem LifecycleSound.opened (hlane : s.lane ≠ .idle ∧ s.lane ≠ .committing ∧ s.lane ≠ .discarding)
    (i : Fin cfg.invocationCount) : s.exited i = false :=
  h.exitedLane hlane.1 hlane.2.1 i

theorem LifecycleSound.aside (haside : LifecycleAside s s')
    (halternates : s'.lane ≠ .discarding → Alternates s.present s.lifecycleStaged s'.entered)
    (hexited : s'.lane ≠ .idle → s'.lane ≠ .committing → ∀ i, s.exited i = false)
    (hidle : s'.lane = .idle → s.lifecycleStaged = []) : s'.LifecycleSound := by
  obtain ⟨hrows, heffects, hnext, hcore, hstaged, hpresent, hexited', hcompleted⟩ := haside
  refine ⟨?_, ?_, ?_, ?_, ?_, ?_, ?_, ?_⟩
  · rw [hstaged, heffects]
    exact h.held
  · rw [hrows, hnext, hcompleted]
    exact h.tokens
  · rw [hrows, hnext]
    exact h.balanced.core hcore (le_refl _)
  · rw [hrows, hstaged, hexited']
    exact h.reserved
  · rw [hrows, hpresent]
    exact h.present
  · rw [hstaged, hpresent]
    exact halternates
  · rw [hexited']
    exact hexited
  · rw [hstaged]
    exact hidle

variable {e : Fin (cfg.effectCapacity + 1)} {x : InvocationEffect cfg.invocationCount}

theorem LifecycleSound.commit (answer : Answer) (admitted : Bool)
    (hlane : s.lane = .committing) (hlane' : s'.lane = .committing)
    (hstaged : s.lifecycleStaged = (e, x) :: s'.lifecycleStaged)
    (htable : s'.invocations = committedTable s.invocations e answer admitted)
    (hpresent : s'.present = presentAfter s.present x) (hentered : s'.entered = s.entered)
    (hexited : s'.exited = exitedAfter s.exited x)
    (hcompleted : s'.completed = s.completed ++ completedBy s.invocations x) :
    s'.LifecycleSound := by
  have hheld := hstaged ▸ h.held
  obtain ⟨hx, hproper⟩ := hheld.backs e x (by simp)
  obtain ⟨i, hi⟩ := Option.isSome_iff_exists.mp hproper.invocation
  have halternates := hstaged ▸ h.alternates (by simp [hlane])
  have henter : x.kind = .enter → (s.invocations.rows i).state = .inactive := by
    intro hkind
    by_contra hne
    have := halternates.1 hkind i hi
    rw [h.present i hne] at this
    exact absurd this (by simp)
  have htoken : (s.invocations.rows i).state = .active → (s.invocations.rows i).token ≠ 0 :=
    fun hactive => h.tokens.token_ne_zero (by simp [hactive]) (by simp [hactive])
  obtain ⟨-, heffects, hnext⟩ := committedTable_frame hx hproper.inUse hi answer admitted
  obtain ⟨row, hrows, hended⟩ := commit_ended hx hproper hi htoken answer admitted
  rw [← htable] at heffects hnext hrows hended
  refine ⟨?_, ?_, ?_, ?_, ?_, ?_, ?_, ?_⟩
  · rw [heffects]
    exact (show EffectsHeld ([] ++ (e, x) :: s'.lifecycleStaged) _ from hheld).take
  · rw [hrows, hnext, hcompleted]
    generalize completedBy s.invocations x = tokens at hended ⊢
    cases hended with
    | kept => simpa using h.tokens
    | entered => simpa using h.tokens.clear (.inr rfl)
    | left | cancelled => simpa using h.tokens.clear (.inl rfl)
    | started _ _ hstate | failed _ _ _ hstate =>
      simpa using h.tokens.change (by simp [hstate]) (by simp [hstate]) (by simp)
    | completed _ _ hstate htok =>
      rw [← htok]
      exact h.tokens.complete hstate
  · rw [hrows, hnext]
    exact h.balanced.ended h.tokens.bounded hended henter
  · rw [hrows, hexited]
    exact (hstaged ▸ h.reserved).ended hheld.nodup hi hended henter
  · rw [hrows, hpresent]
    exact h.present.ended hi hended
  · intro _
    rw [hpresent, hentered]
    exact halternates.2
  · exact fun _ hne => absurd hlane' hne
  · simp [hlane']

theorem LifecycleSound.discard {before after : Lifecycles cfg}
    (hlane : s.lane = .discarding) (hlane' : s'.lane = .discarding)
    (hstaged : s.lifecycleStaged = before ++ (e, x) :: after)
    (hstaged' : s'.lifecycleStaged = before ++ after)
    (htable : s'.invocations = (s.invocations.discardInvocationLifecycle e).1)
    (hpresent : s'.present = s.present) (hexited : s'.exited = s.exited)
    (hcompleted : s'.completed = s.completed) : s'.LifecycleSound := by
  have hheld := hstaged ▸ h.held
  obtain ⟨hx, hproper⟩ := hheld.backs e x (by simp)
  obtain ⟨i, hi⟩ := Option.isSome_iff_exists.mp hproper.invocation
  obtain ⟨⟨row, hrows, hback⟩, heffects, hnext, hstats⟩ := discard_givenBack hx hproper.inUse hi
  rw [← htable] at hrows heffects hnext hstats
  refine ⟨?_, ?_, ?_, ?_, ?_, ?_, ?_, ?_⟩
  · rw [heffects, hstaged']
    exact hheld.take
  · rw [hrows, hnext, hcompleted]
    cases hback with
    | kept => simpa using h.tokens
    | pending => exact h.tokens.clear (.inr rfl)
  · rw [hrows, hnext, hstats]
    exact h.balanced.givenBack hback
  · rw [hrows, hstaged', hexited]
    exact (hstaged ▸ h.reserved).givenBack hheld.nodup hi hback
  · rw [hrows, hpresent]
    refine h.present.change fun hne => ?_
    cases hback with
    | kept => exact hne
    | pending hreserved =>
      obtain ⟨-, hstate⟩ | ⟨-, hstate⟩ := hreserved.state <;> simp [hstate]
  · exact fun hne => absurd hlane' hne
  · rw [hexited]
    exact fun _ _ => h.exitedLane (by simp [hlane]) (by simp [hlane])
  · simp [hlane']

/-- **The invariant holds after every step.** -/
theorem LifecycleSound.move (hmove : LifecycleMove s s') : s'.LifecycleSound := by
  cases hmove with
  | quiet haside hentered hlane =>
    refine h.aside haside ?_ ?_ ?_
    · intro hdiscarding
      rw [hentered]
      obtain hlane | ⟨-, -, hne, -⟩ := hlane
      · exact h.alternates (hlane ▸ hdiscarding)
      · exact h.alternates hne
    · intro hidle hcommitting
      obtain hlane | ⟨hne, hne', -, -⟩ := hlane
      · exact h.exitedLane (hlane ▸ hidle) (hlane ▸ hcommitting)
      · exact h.exitedLane hne hne'
    · intro hidle
      obtain hlane | ⟨-, -, -, hne⟩ := hlane
      · exact h.idle (hlane ▸ hidle)
      · exact absurd hidle hne
  | begin haside hentered hexited hlane hlane' =>
    have hs : ({ s with exited := s'.exited } : System cfg).LifecycleSound := by
      refine { h with reserved := ?_, exitedLane := fun _ _ i => congrFun hexited i }
      have hnone : s.lifecycleStaged = [] := h.idle hlane
      refine ⟨fun e x i hmem => ?_, fun e x e' x' i hmem => ?_, fun i hi => ?_⟩
      · exact absurd (hnone ▸ hmem : (e, x) ∈ ([] : Lifecycles cfg)) (by simp)
      · exact absurd (hnone ▸ hmem : (e, x) ∈ ([] : Lifecycles cfg)) (by simp)
      · exact absurd (congrFun hexited i ▸ hi : false = true) (by simp)
    refine hs.aside haside ?_ (fun _ _ i => congrFun hexited i) (by simp [hlane'])
    intro _
    rw [hentered]
    exact h.alternates (by simp [hlane])
  | stage e kind i token ticket hkind _ hticket hfree hrows heffects hnext hcore hstaged hpresent
      hentered hexited hcompleted hlane hlane' =>
    have hticket' : ticket.isSome = (kind == .start || kind == .forward) := by
      rw [hticket]
      obtain ⟨rfl, -⟩ | rfl | rfl | rfl := hkind <;> rfl
    refine ⟨?_, ?_, ?_, ?_, ?_, ?_, ?_, ?_⟩
    · rw [hstaged, heffects]
      refine h.held.push hfree (lifecycle_proper ?_ hticket')
      obtain ⟨rfl, -⟩ | rfl | rfl | rfl := hkind <;> simp
    · rw [hrows, hnext, hcompleted]
      exact h.tokens
    · rw [hrows, hnext]
      exact h.balanced.core hcore (le_refl _)
    · rw [hrows, hstaged, hexited]
      refine h.reserved.push ?_
      obtain ⟨rfl, -⟩ | rfl | rfl | rfl := hkind <;> simp [lifecycle]
    · rw [hrows, hpresent]
      exact h.present
    · intro _
      rw [hstaged, hpresent, hentered]
      refine (h.alternates hlane.2.2).push fun henter j hj => ?_
      obtain rfl : i = j := Option.some.inj hj
      obtain ⟨-, hout⟩ | rfl | rfl | rfl := hkind
      · exact hout
      all_goals exact absurd henter (by simp [lifecycle])
    · rw [hexited]
      exact fun _ _ => h.opened hlane
    · exact fun hidle => absurd hidle hlane'.1
  | reserve e i token id ownId ticket t htoken hpending hfree hrows heffects hnext hcore hstaged
      hpresent hentered hexited hcompleted hlane hlane' =>
    obtain ⟨hissued, -, hcount⟩ := issued_of_take h.tokens.bounded htoken
    have hproper : (lifecycle (if ticket.isSome then .start else .fail) i token ticket :
        InvocationEffect cfg.invocationCount).Proper := by
      refine lifecycle_proper ?_ ?_ <;> cases ticket <;> simp
    refine ⟨?_, ?_, ?_, ?_, ?_, ?_, ?_, ?_⟩
    · rw [hstaged, heffects]
      exact h.held.push hfree hproper
    · rw [hrows, hnext, hcompleted]
      refine h.tokens.reserve htoken id ownId ?_
      cases ticket <;> simp
    · rw [hrows, hnext]
      refine h.balanced.change hcore (by simp [hpending]) ?_ (fun _ => by omega) (by omega)
      cases ticket <;> simp
    · rw [hrows, hstaged, hexited]
      refine h.reserved.reserve hpending (h.opened hlane) rfl ⟨?_, rfl⟩
      cases ticket <;> rfl
    · rw [hrows, hpresent]
      exact h.present.change fun _ => by simp [hpending]
    · intro _
      have hout : presentAfter s.entered
          (lifecycle (if ticket.isSome then .start else .fail) i token ticket) = s.entered := by
        refine presentAfter_eq_self ?_ ?_ _ <;> cases ticket <;> simp [lifecycle]
      rw [hstaged, hpresent, hentered, ← hout]
      refine (h.alternates hlane.2.2).push fun henter => ?_
      cases ticket <;> simp [lifecycle] at henter
    · rw [hexited]
      exact fun _ _ => h.opened hlane
    · exact fun hidle => absurd hidle hlane'.1
  | drop hrows heffects hnext hcore hstaged hpresent hexited hcompleted hlane hlane' =>
    have hsame : s'.invocations.rows = s.invocations.rows := by
      funext i
      obtain hrow | ⟨hpending, hrow⟩ := hrows i
      · exact hrow
      · rw [hrow, h.tokens.blank i (.inr hpending), hpending]
    have hnext' : TokensSound s.invocations.rows s'.invocations.nextToken s.completed ∧
        issuedCount s.invocations.nextToken ≤ issuedCount s'.invocations.nextToken := by
      obtain hnext | ⟨t, token, htoken, hnext⟩ := hnext
      · rw [hnext]
        exact ⟨h.tokens, le_refl _⟩
      · rw [hnext]
        have := (issued_of_take h.tokens.bounded htoken).2.2
        exact ⟨h.tokens.take htoken, by omega⟩
    refine ⟨?_, ?_, ?_, ?_, ?_, ?_, ?_, ?_⟩
    · rw [hstaged]
      exact h.held.congr heffects
    · rw [hsame, hcompleted]
      exact hnext'.1
    · rw [hsame]
      exact h.balanced.core hcore hnext'.2
    · rw [hsame, hstaged, hexited]
      exact h.reserved
    · rw [hsame, hpresent]
      exact h.present
    · exact fun hne => absurd hlane' hne
    · rw [hexited]
      exact fun _ _ => h.opened hlane
    · simp [hlane']
  | commit e x answer admitted hlane hlane' hstaged htable hpresent hentered hexited hcompleted =>
    exact h.commit answer admitted hlane hlane' hstaged htable hpresent hentered hexited hcompleted
  | discard e x before after hlane hlane' hstaged hstaged' htable hpresent hexited hcompleted =>
    exact h.discard hlane hlane' hstaged hstaged' htable hpresent hexited hcompleted
  | finish haside hnone hlane hlane' hentered =>
    refine h.aside haside ?_ (fun hidle => absurd hlane' hidle) fun _ => hnone
    intro _
    rw [hentered, hnone]
    split_ifs with hcommitting
    · have halternates := h.alternates (by simp [hcommitting])
      rwa [hnone] at halternates
    · rfl

theorem LifecycleSound.step {a : Action cfg} (hs : s.SendsSound)
    (hstep : s.step a = some s') : s'.SendsSound ∧ s'.LifecycleSound :=
  ⟨hs.step hstep, h.move (step_moves hstep hs.askedUse).lifecycle⟩

omit h

theorem reachable_lifecycleSound (h : Reachable s) : s.LifecycleSound := by
  have hall : s.SendsSound ∧ s.LifecycleSound := by
    refine h.invariant (P := fun s => s.SendsSound ∧ s.LifecycleSound) ?_ ?_
    · rintro s rfl
      exact ⟨init_sendsSound, init_lifecycleSound⟩
    · rintro s a s' ⟨hs, hl⟩ hstep
      exact hl.step hs hstep
  exact hall.2

theorem LifecycleSound.unused (h : s.LifecycleSound) (hidle : s.lane = .idle)
    (e : Fin (cfg.effectCapacity + 1)) : (s.invocations.effects e).inUse = false := by
  by_contra huse
  obtain ⟨x, hmem⟩ := h.held.held e (by simpa using huse)
  rw [h.idle hidle] at hmem
  cases hmem

end System

end TurboScxml.Session
