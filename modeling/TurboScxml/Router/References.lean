import TurboScxml.Lib.Acyclic
import TurboScxml.Router.Steps

/-!
# References name live endpoints

Four tables hold generation-tagged references to endpoints: rows, cancel intents, aliases and the
endpoints' own parents. Slots are recycled under a new generation.

* `Referential`: every reference held names a live endpoint of its generation, no endpoint is its
  own ancestor, and aliases, Sessions and locations are unique;
* **`reachable_referential`**: `Referential` holds in every reachable state, no reference is given
  out twice, and the drain never meets a stale one.
-/

namespace TurboScxml.Router

open Function Slots Machine Pointers Relation

variable {cfg : Config} {σ : Type}

/-! ## References -/

def Names (r : Router cfg σ) (ref : SessionRef) : Prop := r.locate ref ≠ none

variable {ref : SessionRef} {i : Fin cfg.endpointCapacity} {r : Router cfg σ}

theorem locate_eq_some :
    r.locate ref = some i ↔ ref.slot = i ∧ ref.generation ≠ 0 ∧ (r.endpoints i).live = true ∧
      (r.endpoints i).generation = ref.generation := by
  refine ⟨locate_some, fun ⟨hslot, hlive⟩ => ?_⟩
  have hlt : ref.slot < cfg.endpointCapacity := by
    rw [hslot]
    exact i.2
  obtain rfl : (⟨ref.slot, hlt⟩ : Fin cfg.endpointCapacity) = i := Fin.ext hslot
  rw [locate, dif_pos hlt, if_pos hlive]

theorem Names.generation (h : Names r ref) : ref.generation ≠ 0 := by
  obtain ⟨i, hi⟩ := Option.ne_none_iff_exists'.mp h
  exact (locate_eq_some.mp hi).2.1

theorem locate_inj {a b : SessionRef} (ha : r.locate a = some i)
    (hb : r.locate b = some i) : a = b := by
  obtain ⟨hslot, -, -, hgen⟩ := locate_eq_some.mp ha
  obtain ⟨hslot', -, -, hgen'⟩ := locate_eq_some.mp hb
  cases a
  cases b
  simp_all

def parentStep (r : Router cfg σ) (i j : Fin cfg.endpointCapacity) : Prop :=
  (r.endpoints i).live = true ∧ r.locate (r.endpoints i).parent = some j

/-- **Referential integrity.** -/
structure Referential (r : Router cfg σ) : Prop where
  rowTarget : ∀ i, (r.rows i).state ≠ .free → Names r (r.rows i).target
  rowSource : ∀ i, (r.rows i).state ≠ .free → (r.rows i).source.generation ≠ 0 →
    Names r (r.rows i).source
  intentSource : ∀ k, (r.cancelRows k).inUse = true → Names r (r.cancelRows k).source
  routeOwner : ∀ j, (r.invokeRoutes j).live = true → Names r (r.invokeRoutes j).owner
  routeTarget : ∀ j, (r.invokeRoutes j).live = true → Names r (r.invokeRoutes j).target
  parent : ∀ i, (r.endpoints i).live = true → (r.endpoints i).parent.generation ≠ 0 →
    Names r (r.endpoints i).parent
  acyclic : Acyclic (parentStep r)
  routeUnique : ∀ j k, (r.invokeRoutes j).live = true → (r.invokeRoutes k).live = true →
    (r.invokeRoutes j).owner = (r.invokeRoutes k).owner →
    (r.invokeRoutes j).id = (r.invokeRoutes k).id → j = k
  activeLive : ∀ i, (r.endpoints i).active = true → (r.endpoints i).live = true
  attached : ∀ i j, (r.endpoints i).active = true → (r.endpoints j).active = true → i ≠ j →
    (r.endpoints i).session ≠ (r.endpoints j).session ∧
      (r.endpoints i).location ≠ (r.endpoints j).location

variable {p : Endpoint σ}

section Referential

variable {r r' : Router cfg σ}

theorem locate_of_directory (h : r'.directory = r.directory) (ref : SessionRef) :
    r'.locate ref = r.locate ref :=
  locate_congr (congrArg Prod.fst h) ref

theorem Referential.work (h : Referential r) (hdir : r'.directory = r.directory)
    (hrows : ∀ i, (r'.rows i).state ≠ .free → (r.rows i).state ≠ .free ∧
      (r'.rows i).target = (r.rows i).target ∧ (r'.rows i).source = (r.rows i).source ∨
      Names r (r'.rows i).target ∧
        ((r'.rows i).source.generation ≠ 0 → Names r (r'.rows i).source))
    (hintents : ∀ k, (r'.cancelRows k).inUse = true →
      r'.cancelRows k = r.cancelRows k ∨ Names r (r'.cancelRows k).source) : Referential r' := by
  have hends : r'.endpoints = r.endpoints := congrArg Prod.fst hdir
  have hroutes : r'.invokeRoutes = r.invokeRoutes := congrArg Prod.snd hdir
  have hnames : ∀ ref, Names r' ref ↔ Names r ref := fun ref => by
    rw [Names, Names, locate_of_directory hdir]
  have hparent : parentStep r' = parentStep r := by
    funext i j
    simp only [parentStep, hends, locate_of_directory hdir]
  refine ⟨fun i hi => ?_, fun i hi hsource => ?_, fun k hk => ?_, ?_, ?_, ?_, ?_, ?_, ?_, ?_⟩
  · rw [hnames]
    rcases hrows i hi with ⟨hused, htarget, -⟩ | ⟨htarget, -⟩
    · rw [htarget]
      exact h.rowTarget i hused
    · exact htarget
  · rw [hnames]
    rcases hrows i hi with ⟨hused, -, heq⟩ | ⟨-, hnew⟩
    · rw [heq] at hsource ⊢
      exact h.rowSource i hused hsource
    · exact hnew hsource
  · rw [hnames]
    rcases hintents k hk with heq | hnew
    · rw [heq] at hk ⊢
      exact h.intentSource k hk
    · exact hnew
  · simpa only [hroutes, hnames] using h.routeOwner
  · simpa only [hroutes, hnames] using h.routeTarget
  · simpa only [hends, hnames] using h.parent
  · rw [hparent]
    exact h.acyclic
  · simpa only [hroutes] using h.routeUnique
  · simpa only [hends] using h.activeLive
  · simpa only [hends] using h.attached

theorem RowsStep.references {own : Option (Fin cfg.eventCapacity)} (hstep : RowsStep own r r')
    (i : Fin cfg.eventCapacity) (hi : (r'.rows i).state ≠ .free) : (r.rows i).state ≠ .free ∧
      (r'.rows i).target = (r.rows i).target ∧ (r'.rows i).source = (r.rows i).source ∨
      Names r (r'.rows i).target ∧
        ((r'.rows i).source.generation ≠ 0 → Names r (r'.rows i).source) := by
  cases hstep with
  | drop hrows hid =>
    rcases hrows i with heq | ⟨heq, -⟩
    · rw [heq] at hi ⊢
      exact .inl ⟨hi, rfl, rfl⟩
    · rw [heq] at hi
      exact absurd rfl hi
  | post j row sequence hfree hrow hsource hrows hid =>
    by_cases hij : i = j
    · rw [hrows, hij, update_self]
      refine .inr ⟨hrow.target, fun hgen => ?_⟩
      simp only [hsource.1] at hgen
      exact absurd rfl hgen
    · rw [hrows, update_of_ne hij] at hi ⊢
      exact .inl ⟨hi, rfl, rfl⟩
  | advance j row hrow hown hrows hid =>
    by_cases hij : i = j
    · subst hij
      rw [hrows, update_self]
      exact .inl ⟨hrow.follows.used.1, hrow.target, hrow.source⟩
    · rw [hrows, update_of_ne hij] at hi ⊢
      exact .inl ⟨hi, rfl, rfl⟩

theorem WorkStep.referential {s s' : System cfg σ} (hstep : WorkStep s s')
    (hdir : s'.router.directory = s.router.directory) (h : Referential s.router) :
    Referential s'.router := by
  cases hstep with
  | quiet own hrows hown hcancel =>
    exact h.work hdir hrows.references fun k _ => .inl (by rw [hcancel])
  | acceptSend i row hfree hrow hs' =>
    subst hs'
    refine h.work hdir (fun j hj => ?_) fun k _ => .inl rfl
    change ((s.router.accepted i row).rows j).state ≠ .free at hj
    change _ ∧ ((s.router.accepted i row).rows j).target = _ ∧
      ((s.router.accepted i row).rows j).source = _ ∨
      Names _ ((s.router.accepted i row).rows j).target ∧
        (((s.router.accepted i row).rows j).source.generation ≠ 0 →
          Names _ ((s.router.accepted i row).rows j).source)
    by_cases hji : j = i
    · rw [hji, show (s.router.accepted i row).rows i = row from update_self ..]
      refine .inr ⟨hrow.target, fun hgen => ?_⟩
      rcases hrow.source with ⟨habsent, -⟩ | hsource
      · rw [habsent] at hgen
        exact absurd rfl hgen
      · exact hsource
    · rw [show (s.router.accepted i row).rows j = s.router.rows j from update_of_ne hji _ _]
        at hj ⊢
      exact .inl ⟨hj, rfl, rfl⟩
  | acceptCancel i k source sendId hi hk hsource hcancel htable =>
    have hrowsEq : s'.router.rows = s.router.rows := congrArg Prod.fst htable
    refine h.work hdir (fun j hj => .inl ?_) fun l _ => ?_
    · rw [hrowsEq] at hj ⊢
      exact ⟨hj, rfl, rfl⟩
    · rw [hcancel]
      by_cases hlk : l = k
      · rw [hlk, update_self]
        exact .inr hsource
      · rw [update_of_ne hlk]
        exact .inl rfl
  | settle t ht own hrows hown hcancel =>
    exact h.work hdir hrows.references fun k hk => .inl (hcancel k hk)

/-! ## One endpoint changes -/

variable {j : Fin cfg.endpointCapacity} (hends : r'.endpoints = update r.endpoints i p)
include hends

theorem locate_update_of_ne (hj : j ≠ i) (ref : SessionRef) :
    r'.locate ref = some j ↔ r.locate ref = some j := by
  rw [locate_eq_some, locate_eq_some, hends, update_of_ne hj]

theorem locate_update
    (hlive : p.live = (r.endpoints i).live) (hgen : p.generation = (r.endpoints i).generation)
    (ref : SessionRef) :
    r'.locate ref = r.locate ref := by
  refine Option.ext fun j => ?_
  by_cases hj : j = i
  · rw [locate_eq_some, locate_eq_some, hends, hj, update_self, hlive, hgen]
  · exact locate_update_of_ne hends hj ref

theorem Names.open (hfree : (r.endpoints i).live = false) (h : Names r ref) : Names r' ref := by
  obtain ⟨j, hj⟩ := Option.ne_none_iff_exists'.mp h
  have hji : j ≠ i := by
    rintro rfl
    rw [(locate_eq_some.mp hj).2.2.1] at hfree
    cases hfree
  rw [Names, (locate_update_of_ne hends hji ref).mpr hj]
  simp

omit hends

theorem Referential.attached_update (h : Referential r)
    (hfresh : p.active = true → ∀ j, j ≠ i → (r.endpoints j).active = true →
      (r.endpoints j).session ≠ p.session ∧ (r.endpoints j).location ≠ p.location)
    {k : Fin cfg.endpointCapacity} (hj : (update r.endpoints i p j).active = true)
    (hk : (update r.endpoints i p k).active = true) (hne : j ≠ k) :
    (update r.endpoints i p j).session ≠ (update r.endpoints i p k).session ∧
      (update r.endpoints i p j).location ≠ (update r.endpoints i p k).location := by
  by_cases hji : j = i <;> by_cases hki : k = i
  · exact absurd (hji.trans hki.symm) hne
  · rw [hji, update_self] at hj ⊢
    rw [update_of_ne hki] at hk ⊢
    exact ⟨(hfresh hj k hki hk).1.symm, (hfresh hj k hki hk).2.symm⟩
  · rw [hki, update_self] at hk ⊢
    rw [update_of_ne hji] at hj ⊢
    exact hfresh hk j hji hj
  · rw [update_of_ne hji] at hj ⊢
    rw [update_of_ne hki] at hk ⊢
    exact h.attached j k hj hk hne

theorem Referential.open (h : Referential r) (hends : r'.endpoints = update r.endpoints i p)
    (hwork : r'.work = r.work) (hroutes : r'.invokeRoutes = r.invokeRoutes)
    (hfree : (r.endpoints i).live = false) (hlive : p.live = true) (hparent : p.parent = .absent)
    (hfresh : p.active = true → ∀ j, (r.endpoints j).active = true →
      (r.endpoints j).session ≠ p.session ∧ (r.endpoints j).location ≠ p.location) :
    Referential r' := by
  have hrowsEq : r'.rows = r.rows := congrArg (·.1) hwork
  have hcancelEq : r'.cancelRows = r.cancelRows := congrArg (·.2.2.1) hwork
  have hmono : ∀ {ref}, Names r ref → Names r' ref := fun hn => hn.open hends hfree
  have hself : r'.endpoints i = p := by rw [hends, update_self]
  have hother : ∀ j, j ≠ i → r'.endpoints j = r.endpoints j := fun j hj => by
    rw [hends, update_of_ne hj]
  refine ⟨?_, ?_, ?_, ?_, ?_, fun j hj hgen => ?_, ?_, ?_, fun j hj => ?_, fun j k hj hk hne => ?_⟩
  · rw [hrowsEq]
    exact fun j hj => hmono (h.rowTarget j hj)
  · rw [hrowsEq]
    exact fun j hj hgen => hmono (h.rowSource j hj hgen)
  · rw [hcancelEq]
    exact fun k hk => hmono (h.intentSource k hk)
  · rw [hroutes]
    exact fun j hj => hmono (h.routeOwner j hj)
  · rw [hroutes]
    exact fun j hj => hmono (h.routeTarget j hj)
  · by_cases hji : j = i
    · rw [hji, hself, hparent] at hgen
      exact absurd rfl hgen
    · rw [hother j hji] at hj hgen ⊢
      exact hmono (h.parent j hj hgen)
  · refine h.acyclic.mono fun x y hxy => ?_
    obtain ⟨hx, hy⟩ := hxy
    by_cases hxi : x = i
    · rw [hxi, hself, hparent] at hy
      exact absurd rfl (locate_eq_some.mp hy).2.1
    · rw [hother x hxi] at hx hy
      refine ⟨hx, ?_⟩
      obtain ⟨z, hz⟩ := Option.ne_none_iff_exists'.mp
        (h.parent x hx (locate_eq_some.mp hy).2.1)
      have hzi : z ≠ i := by
        rintro rfl
        rw [(locate_eq_some.mp hz).2.2.1] at hfree
        cases hfree
      rw [(locate_update_of_ne hends hzi _).mpr hz] at hy
      rw [hz, hy]
  · rw [hroutes]
    exact h.routeUnique
  · by_cases hji : j = i
    · rw [hji, hself]
      exact hlive
    · rw [hother j hji] at hj ⊢
      exact h.activeLive j hj
  · rw [hends] at hj hk ⊢
    exact h.attached_update (fun hp j _ hj => hfresh hp j hj) hj hk hne

/-- A live endpoint keeps its generation, and a new parent does not lead back. -/
theorem Referential.edit (h : Referential r) (hends : r'.endpoints = update r.endpoints i p)
    (hwork : r'.work = r.work) (hroutes : r'.invokeRoutes = r.invokeRoutes)
    (hold : (r.endpoints i).live = true) (hlive : p.live = true)
    (hgen : p.generation = (r.endpoints i).generation)
    (hparent : p.parent = (r.endpoints i).parent ∨ p.parent = .absent ∨
      ∃ j, r.locate p.parent = some j ∧ ¬ ReflTransGen (parentStep r) j i)
    (hfresh : p.active = true → ∀ j, j ≠ i → (r.endpoints j).active = true →
      (r.endpoints j).session ≠ p.session ∧ (r.endpoints j).location ≠ p.location) :
    Referential r' := by
  have hrowsEq : r'.rows = r.rows := congrArg (·.1) hwork
  have hcancelEq : r'.cancelRows = r.cancelRows := congrArg (·.2.2.1) hwork
  have hlocate : ∀ ref, r'.locate ref = r.locate ref :=
    locate_update hends (hlive.trans hold.symm) hgen
  have hnames : ∀ ref, Names r' ref ↔ Names r ref := fun ref => by rw [Names, Names, hlocate]
  have hself : r'.endpoints i = p := by rw [hends, update_self]
  have hother : ∀ j, j ≠ i → r'.endpoints j = r.endpoints j := fun j hj => by
    rw [hends, update_of_ne hj]
  refine ⟨?_, ?_, ?_, ?_, ?_, fun j hj hjgen => ?_, ?_, ?_, fun j hj => ?_,
    fun j k hj hk hne => ?_⟩
  · simpa only [hrowsEq, hnames] using h.rowTarget
  · simpa only [hrowsEq, hnames] using h.rowSource
  · simpa only [hcancelEq, hnames] using h.intentSource
  · simpa only [hroutes, hnames] using h.routeOwner
  · simpa only [hroutes, hnames] using h.routeTarget
  · rw [hnames]
    by_cases hji : j = i
    · rw [hji, hself] at hjgen ⊢
      rcases hparent with heq | heq | ⟨k, hk, -⟩
      · rw [heq] at hjgen ⊢
        exact h.parent i hold hjgen
      · rw [heq] at hjgen
        exact absurd rfl hjgen
      · rw [Names, hk]
        simp
    · rw [hother j hji] at hj hjgen ⊢
      exact h.parent j hj hjgen
  · have hsub : ∀ x y, parentStep r' x y →
        parentStep r x y ∨ x = i ∧ r.locate p.parent = some y := fun x y hxy => by
      obtain ⟨hx, hy⟩ := hxy
      rw [hlocate] at hy
      by_cases hxi : x = i
      · rw [hxi, hself] at hy
        exact .inr ⟨hxi, hy⟩
      · rw [hother x hxi] at hx hy
        exact .inl ⟨hx, hy⟩
    rcases hparent with heq | heq | ⟨k, hk, hpath⟩
    · refine h.acyclic.mono fun x y hxy => (hsub x y hxy).elim id fun ⟨hxi, hy⟩ => ?_
      rw [heq] at hy
      exact ⟨by rw [hxi]; exact hold, by rw [hxi]; exact hy⟩
    · refine h.acyclic.mono fun x y hxy => (hsub x y hxy).elim id fun ⟨_, hy⟩ => ?_
      rw [heq] at hy
      exact absurd rfl (locate_eq_some.mp hy).2.1
    · refine h.acyclic.addEdge hpath fun x y hxy => (hsub x y hxy).imp_right fun ⟨hxi, hy⟩ => ?_
      rw [hk] at hy
      exact ⟨hxi, (Option.some.inj hy).symm⟩
  · rw [hroutes]
    exact h.routeUnique
  · by_cases hji : j = i
    · rw [hji, hself]
      exact hlive
    · rw [hother j hji] at hj ⊢
      exact h.activeLive j hj
  · rw [hends] at hj hk ⊢
    exact h.attached_update hfresh hj hk hne

theorem Referential.retire (h : Referential r) {target : SessionRef} {generation : ℕ}
    (hi : r.locate target = some i)
    (hends : r'.endpoints = update r.endpoints i (.retired generation)) (hwork : r'.work = r.work)
    (hroutes : r'.invokeRoutes = r.invokeRoutes)
    (hrow : ∀ j, (r.rows j).state ≠ .free → (r.rows j).target ≠ target ∧ (r.rows j).source ≠ target)
    (hintent : ∀ k, (r.cancelRows k).inUse = true → (r.cancelRows k).source ≠ target)
    (hparent : ∀ j, (r.endpoints j).live = true → (r.endpoints j).parent ≠ target)
    (hroute : ∀ j, (r.invokeRoutes j).live = true →
      (r.invokeRoutes j).owner ≠ target ∧ (r.invokeRoutes j).target ≠ target) :
    Referential r' := by
  have hrowsEq : r'.rows = r.rows := congrArg (·.1) hwork
  have hcancelEq : r'.cancelRows = r.cancelRows := congrArg (·.2.2.1) hwork
  have hnames : ∀ {ref}, Names r ref → ref ≠ target → Names r' ref := fun {ref} hn hne => by
    obtain ⟨j, hj⟩ := Option.ne_none_iff_exists'.mp hn
    have hji : j ≠ i := by
      rintro rfl
      exact hne (locate_inj hj hi)
    rw [Names, (locate_update_of_ne hends hji ref).mpr hj]
    simp
  have hother : ∀ j, (r'.endpoints j).live = true → j ≠ i ∧ r'.endpoints j = r.endpoints j :=
    fun j hj => by
      by_cases hji : j = i
      · rw [hends, hji, update_self] at hj
        cases hj
      · exact ⟨hji, by rw [hends, update_of_ne hji]⟩
  refine ⟨?_, ?_, ?_, ?_, ?_, fun j hj hgen => ?_, ?_, ?_, fun j hj => ?_, fun j k hj hk hne => ?_⟩
  · rw [hrowsEq]
    exact fun j hj => hnames (h.rowTarget j hj) (hrow j hj).1
  · rw [hrowsEq]
    exact fun j hj hgen => hnames (h.rowSource j hj hgen) (hrow j hj).2
  · rw [hcancelEq]
    exact fun k hk => hnames (h.intentSource k hk) (hintent k hk)
  · rw [hroutes]
    exact fun j hj => hnames (h.routeOwner j hj) (hroute j hj).1
  · rw [hroutes]
    exact fun j hj => hnames (h.routeTarget j hj) (hroute j hj).2
  · have heq := (hother j hj).2
    rw [heq] at hj hgen ⊢
    exact hnames (h.parent j hj hgen) (hparent j hj)
  · refine h.acyclic.mono fun x y hxy => ?_
    obtain ⟨hx, hy⟩ := hxy
    have heq := (hother x hx).2
    rw [heq] at hx hy
    exact ⟨hx, (locate_update_of_ne hends (hother y (locate_eq_some.mp hy).2.2.1).1 _).mp hy⟩
  · rw [hroutes]
    exact h.routeUnique
  · by_cases hji : j = i
    · rw [hends, hji, update_self] at hj
      cases hj
    · rw [hends, update_of_ne hji] at hj ⊢
      exact h.activeLive j hj
  · rw [hends] at hj hk ⊢
    exact h.attached_update (fun hp => by cases hp) hj hk hne

theorem ancestry_clear {child : SessionRef} {c : Fin cfg.endpointCapacity}
    (hc : r.locate child = some c) {steps : ℕ} {ancestor : SessionRef}
    (h : r.ancestry child steps ancestor = .clear) (hj : r.locate ancestor = some j) :
    ¬ ReflTransGen (parentStep r) j c := by
  induction steps generalizing ancestor j with
  | zero =>
    have hgen := (locate_eq_some.mp hj).2.1
    simp [ancestry, hgen] at h
  | succ n ih =>
    have hgen := (locate_eq_some.mp hj).2.1
    rw [ancestry, if_neg hgen] at h
    split_ifs at h with hcyclic
    rw [hj] at h
    intro hpath
    rcases ReflTransGen.cases_head hpath with rfl | ⟨k, hjk, hkc⟩
    · exact hcyclic (refsEqual_iff.mpr ⟨hgen, locate_inj hj hc⟩)
    · exact ih h hjk.2 hkc

/-! ## The sections of the directory -/

theorem reserve_referential (h : Referential r) : Referential r.reserve.1 := by
  have hwork := r.reserve_work
  unfold reserve at hwork ⊢
  split at hwork
  · rename_i hclosed
    rwa [if_pos hclosed]
  rename_i hclosed
  rw [if_neg hclosed]
  split at hwork
  · exact h
  · rename_i i hi
    exact h.open rfl hwork rfl (vacant_live hi) rfl rfl fun hactive => by cases hactive

section Sessions

variable [DecidableEq σ]

theorem attach_referential (h : Referential r) (session : σ) (location : Option Text) :
    Referential (r.attach session location).1 := by
  unfold attach
  split
  · exact h
  split
  · exact h
  split
  · exact h
  rename_i hunique
  split
  · exact h
  · rename_i i hi
    refine h.open rfl rfl rfl (vacant_live hi) rfl rfl fun _ j hj => ?_
    simp only [Bool.not_eq_true, Option.isSome_eq_false_iff, Option.isNone_iff_eq_none,
      Fin.find?_eq_none_iff] at hunique
    simpa [h.activeLive j hj] using hunique j

theorem activate_referential (h : Referential r) (ref : SessionRef) (session : σ)
    (location : Option Text) : Referential (r.activate ref session location).1 := by
  unfold activate
  split
  · exact h
  split
  · exact h
  split
  · exact { h with }
  rename_i i hi
  dsimp only
  split_ifs with hactive hunique
  · exact h
  · exact h
  · have hlive := (locate_eq_some.mp hi).2.2.1
    refine h.edit (i := i) rfl rfl rfl hlive hlive rfl (.inl rfl) fun _ j _ hj => ?_
    simp only [Bool.not_eq_true, Option.isSome_eq_false_iff, Option.isNone_iff_eq_none,
      Fin.find?_eq_none_iff] at hunique
    simpa [hj] using hunique j

end Sessions

variable (h : Referential r)
include h

theorem setExternalAccess_referential (ref : SessionRef) (enabled : Bool) :
    Referential (r.setExternalAccess ref enabled).1 := by
  unfold setExternalAccess
  split
  · exact h
  split
  · exact { h with }
  · rename_i i hi
    have hlive := (locate_eq_some.mp hi).2.2.1
    exact h.edit (i := i) rfl rfl rfl hlive hlive rfl (.inl rfl)
      fun hactive j hne hj => h.attached j i hj hactive hne

theorem setParent_referential (child parent : SessionRef) :
    Referential (r.setParent child parent).1 := by
  unfold setParent
  split
  · exact h
  split
  · exact h
  split
  · exact { h with }
  rename_i i hi
  have hlive := (locate_eq_some.mp hi).2.2.1
  have hlink : parent = .absent ∨
      (∃ j, r.locate parent = some j ∧ ¬ ReflTransGen (parentStep r) j i) →
      Referential (r.setEndpoint i { r.endpoints i with parent }) := fun hparent =>
    h.edit (i := i) rfl rfl rfl hlive hlive rfl (.inr hparent)
      fun hactive j hne hj => h.attached j i hj hactive hne
  split
  · exact hlink (.inl ‹_›)
  split
  · exact { h with }
  rename_i hnames
  split
  · rename_i hclear
    obtain ⟨j, hj⟩ := Option.ne_none_iff_exists'.mp hnames
    exact hlink (.inr ⟨j, hj, ancestry_clear hi hclear hj⟩)
  · exact h
  · exact { h with }
  · exact h

theorem detach_referential (target : SessionRef) : Referential (r.detach target).1 := by
  unfold detach
  split
  · exact { h with }
  rename_i i hi
  have hgen : target.generation ≠ 0 := (locate_eq_some.mp hi).2.1
  have hne : ∀ {ref}, refsEqual ref target = false → ref ≠ target := fun href heq => by
    rw [heq] at href
    have := refsEqual_iff.mpr ⟨hgen, Eq.refl target⟩
    rw [this] at href
    cases href
  split
  · exact h
  split
  · exact h
  split
  · exact h
  split
  · exact h
  rename_i hrow hintent hparent hroute
  simp only [Bool.not_eq_true, Option.isSome_eq_false_iff, Option.isNone_iff_eq_none,
    Fin.find?_eq_none_iff, Bool.and_eq_false_imp, Bool.or_eq_false_iff, bne_iff_ne, ne_eq]
    at hrow hintent hparent hroute
  exact h.retire hi rfl rfl rfl (fun j hj => ⟨hne (hrow j hj).1, hne (hrow j hj).2⟩)
    (fun k hk => hne (hintent k hk)) (fun j hj => hne (hparent j hj))
    fun j hj => ⟨hne (hroute j hj).1, hne (hroute j hj).2⟩

theorem Referential.writeRoute {j : Fin cfg.invokeCapacity}
    {route : InvokeRoute} (hroutes : r'.invokeRoutes = update r.invokeRoutes j route)
    (hends : r'.endpoints = r.endpoints) (hwork : r'.work = r.work)
    (hnames : route.live = true → Names r route.owner ∧ Names r route.target)
    (hfresh : route.live = true → ∀ k, k ≠ j → (r.invokeRoutes k).live = true →
      (r.invokeRoutes k).owner = route.owner → (r.invokeRoutes k).id ≠ route.id) :
    Referential r' := by
  have hrowsEq : r'.rows = r.rows := congrArg (·.1) hwork
  have hcancelEq : r'.cancelRows = r.cancelRows := congrArg (·.2.2.1) hwork
  have hlocate : ∀ ref, r'.locate ref = r.locate ref := fun ref => locate_congr hends ref
  have hnamesEq : ∀ ref, Names r' ref ↔ Names r ref := fun ref => by rw [Names, Names, hlocate]
  have hparentStep : parentStep r' = parentStep r := by
    funext x y
    simp only [parentStep, hends, hlocate]
  refine ⟨?_, ?_, ?_, fun k hk => ?_, fun k hk => ?_, ?_, ?_, fun k l hk hl howner hid => ?_, ?_, ?_⟩
  · simpa only [hrowsEq, hnamesEq] using h.rowTarget
  · simpa only [hrowsEq, hnamesEq] using h.rowSource
  · simpa only [hcancelEq, hnamesEq] using h.intentSource
  · rw [hnamesEq]
    by_cases hkj : k = j
    · rw [hroutes, hkj, update_self] at hk ⊢
      exact (hnames hk).1
    · rw [hroutes, update_of_ne hkj] at hk ⊢
      exact h.routeOwner k hk
  · rw [hnamesEq]
    by_cases hkj : k = j
    · rw [hroutes, hkj, update_self] at hk ⊢
      exact (hnames hk).2
    · rw [hroutes, update_of_ne hkj] at hk ⊢
      exact h.routeTarget k hk
  · simpa only [hends, hnamesEq] using h.parent
  · rw [hparentStep]
    exact h.acyclic
  · rw [hroutes] at hk hl howner hid
    by_cases hkj : k = j <;> by_cases hlj : l = j
    · exact hkj.trans hlj.symm
    · rw [hkj, update_self, update_of_ne hlj] at howner hid
      rw [hkj, update_self] at hk
      rw [update_of_ne hlj] at hl
      exact absurd hid.symm (hfresh hk l hlj hl howner.symm)
    · rw [hlj, update_self, update_of_ne hkj] at howner hid
      rw [hlj, update_self] at hl
      rw [update_of_ne hkj] at hk
      exact absurd hid (hfresh hl k hkj hk howner)
    · rw [update_of_ne hkj] at hk howner hid
      rw [update_of_ne hlj] at hl howner hid
      exact h.routeUnique k l hk hl howner hid
  · simpa only [hends] using h.activeLive
  · simpa only [hends] using h.attached

theorem bindInvoke_referential (source : SessionRef) (invokeId : Text)
    (target : SessionRef) : Referential (r.bindInvoke source invokeId target).1 := by
  unfold bindInvoke
  split
  · exact h
  split
  · exact h
  split
  · exact { h with }
  rename_i hnames
  split
  · exact h
  rename_i hunique
  split
  · exact h
  · rename_i j hj
    push Not at hnames
    refine h.writeRoute (j := j) rfl rfl rfl (fun _ => hnames) fun _ k _ hk howner hid => ?_
    simp only [Bool.not_eq_true, Option.isSome_eq_false_iff, Option.isNone_iff_eq_none, route,
      Fin.find?_eq_none_iff] at hunique
    have hgen : source.generation ≠ 0 := Names.generation hnames.1
    have howner' : refsEqual (r.invokeRoutes k).owner source = true := by
      rw [howner]
      exact refsEqual_iff.mpr ⟨hgen, rfl⟩
    have := hunique k
    rw [hk, howner', hid] at this
    simp at this

theorem unbindInvoke_referential (source : SessionRef) (invokeId : Text) :
    Referential (r.unbindInvoke source invokeId).1 := by
  unfold unbindInvoke
  split
  · exact h
  split
  · exact { h with }
  split
  · exact h
  · rename_i j hj
    exact h.writeRoute (j := j) rfl rfl rfl (fun hlive => by cases hlive) fun hlive => by cases hlive

theorem resolve_referential (source : SessionRef) (target : Text) :
    Referential (r.resolve source target).1 := by
  unfold resolve
  split
  · exact h
  split
  · exact h
  · split_ifs
    · exact { h with }
    · exact h

/-- **The stale branches of the drain are dead.** -/
theorem drainClaim_fresh (count maxEvents : ℕ) (result : MailboxStatus) :
    (r.drainClaim count maxEvents result).1.staleRefs = r.staleRefs ∧
      (r.drainClaim count maxEvents result).1.deliveryErrors = r.deliveryErrors := by
  unfold drainClaim
  dsimp only
  split
  · exact ⟨rfl, rfl⟩
  split
  · exact ⟨rfl, rfl⟩
  split
  · exact ⟨rfl, rfl⟩
  rename_i j hj
  have hstate : (r.rows j).state = .ready := by simpa using bestSlot_eligible hj
  have hused : (r.rows j).state ≠ .free := by simp [hstate]
  split
  · exact absurd ‹_› (h.rowTarget j hused)
  split
  · exact ⟨rfl, rfl⟩
  split
  · exact ⟨rfl, rfl⟩
  rename_i hgen
  split
  · exact absurd ‹_› (h.rowSource j hused hgen)
  split <;> exact ⟨rfl, rfl⟩

omit h

end Referential

/-! ## References given out -/

/-- No reference was given out twice. -/
structure IssuedSound (s : System cfg σ) : Prop where
  nodup : s.issued.Nodup
  bound : ∀ ref ∈ s.issued, ∀ i : Fin cfg.endpointCapacity, ref.slot = i →
    ref.generation ≤ (s.router.endpoints i).generation

section Issued

variable {s s' : System cfg σ} {r r' : Router cfg σ}

theorem IssuedSound.keep (h : IssuedSound s) (hissued : s'.issued = s.issued)
    (hgen : ∀ i, (s.router.endpoints i).generation ≤ (s'.router.endpoints i).generation) :
    IssuedSound s' := by
  refine ⟨by rw [hissued]; exact h.nodup, fun ref href i hi => ?_⟩
  rw [hissued] at href
  exact (h.bound ref href i hi).trans (hgen i)

theorem IssuedSound.give (h : IssuedSound s) (hends : r'.endpoints = update s.router.endpoints i p)
    (hgen : p.generation = (s.router.endpoints i).generation + 1) :
    IssuedSound { s with router := r', issued := s.issued ++ [⟨i, p.generation⟩] } := by
  refine ⟨List.nodup_append.mpr ⟨h.nodup, List.nodup_singleton _, ?_⟩, fun ref href j hj => ?_⟩
  · intro ref href ref' href' heq
    obtain rfl := List.mem_singleton.mp href'
    have := h.bound ref href i (by rw [heq])
    rw [heq] at this
    change p.generation ≤ _ at this
    omega
  · change ref.generation ≤ (r'.endpoints j).generation
    rw [hends]
    rcases List.mem_append.mp href with hold | hnew
    · have hle := h.bound ref hold j hj
      by_cases hji : j = i
      · rw [hji, update_self, hgen]
        rw [hji] at hle
        omega
      · rwa [update_of_ne hji]
    · obtain rfl := List.mem_singleton.mp hnew
      obtain rfl : i = j := Fin.ext hj
      rw [update_self]

variable (r)

theorem generation_update (hgen : p.generation = (r.endpoints i).generation)
    (j : Fin cfg.endpointCapacity) :
    (r.endpoints j).generation ≤ (update r.endpoints i p j).generation := by
  by_cases hji : j = i
  · rw [hji, update_self, hgen]
  · rw [update_of_ne hji]

theorem setEndpoint_generation (hgen : p.generation = (r.endpoints i).generation)
    (j : Fin cfg.endpointCapacity) :
    (r.endpoints j).generation ≤ ((r.setEndpoint i p).endpoints j).generation :=
  generation_update r hgen j

theorem detach_generation (target : SessionRef) (j : Fin cfg.endpointCapacity) :
    (r.endpoints j).generation ≤ ((r.detach target).1.endpoints j).generation := by
  unfold detach
  split
  · exact le_rfl
  split_ifs
  iterate 4 exact le_rfl
  rename_i i _ _ _ _ _
  exact generation_update r (i := i) (p := .retired (r.endpoints i).generation) rfl j

theorem setParent_generation (child parent : SessionRef) (j : Fin cfg.endpointCapacity) :
    (r.endpoints j).generation ≤ ((r.setParent child parent).1.endpoints j).generation := by
  unfold setParent
  repeat' split
  all_goals first | exact le_rfl | exact setEndpoint_generation r (by rfl) j

theorem setExternalAccess_generation (ref : SessionRef) (enabled : Bool)
    (j : Fin cfg.endpointCapacity) :
    (r.endpoints j).generation ≤ ((r.setExternalAccess ref enabled).1.endpoints j).generation := by
  unfold setExternalAccess
  repeat' split
  all_goals first | exact le_rfl | exact setEndpoint_generation r (by rfl) j

variable {r}

section Sessions

variable [DecidableEq σ]

theorem activate_generation (r : Router cfg σ) (ref : SessionRef) (session : σ)
    (location : Option Text) (j : Fin cfg.endpointCapacity) :
    (r.endpoints j).generation ≤ ((r.activate ref session location).1.endpoints j).generation := by
  unfold activate
  dsimp only
  repeat' split
  all_goals first | exact le_rfl | exact setEndpoint_generation r (by rfl) j

omit [DecidableEq σ] in
theorem reserve_issued (h : IssuedSound s) : IssuedSound (s.issue s.router.reserve) := by
  unfold System.issue reserve
  split
  · simpa [System.issuedBy] using h.keep rfl fun _ => le_rfl
  split
  · simpa [System.issuedBy] using h.keep rfl fun _ => le_rfl
  · rename_i i hi
    exact h.give (p := { Endpoint.retired ((s.router.endpoints i).generation + 1) with live := true })
      rfl rfl

theorem attach_issued (h : IssuedSound s) (session : σ) (location : Option Text) :
    IssuedSound (s.issue (s.router.attach session location)) := by
  unfold System.issue attach
  split
  · simpa [System.issuedBy] using h.keep rfl fun _ => le_rfl
  rename_i l hl
  split
  · simpa [System.issuedBy] using h.keep rfl fun _ => le_rfl
  split
  · simpa [System.issuedBy] using h.keep rfl fun _ => le_rfl
  split
  · simpa [System.issuedBy] using h.keep rfl fun _ => le_rfl
  · rename_i i hi
    exact h.give (p :=
      { session := some session, generation := (s.router.endpoints i).generation + 1,
        parent := .absent, location := l, live := true, active := true, accessible := false })
      rfl rfl

theorem step_referential {a : Action cfg σ} (hsound : Sound s) (h : Referential s.router)
    (hissued : IssuedSound s) (hs : s.step a = some s') :
    Referential s'.router ∧ IssuedSound s' := by
  by_cases ha : a.onDirectory = true
  · cases a <;> simp only [Action.onDirectory, Bool.false_eq_true] at ha <;>
      simp only [System.step, Option.some.injEq] at hs <;> subst hs
    case reserve => exact ⟨reserve_referential h, reserve_issued hissued⟩
    case activate ref session location =>
      exact ⟨activate_referential h ref session location,
        hissued.keep rfl (s.router.activate_generation ref session location)⟩
    case attach session location =>
      exact ⟨attach_referential h session location, attach_issued hissued session location⟩
    case detach target =>
      exact ⟨detach_referential h target, hissued.keep rfl (s.router.detach_generation target)⟩
    case setParent child parent =>
      exact ⟨setParent_referential h child parent,
        hissued.keep rfl (s.router.setParent_generation child parent)⟩
    case setExternalAccess ref enabled =>
      exact ⟨setExternalAccess_referential h ref enabled,
        hissued.keep rfl (s.router.setExternalAccess_generation ref enabled)⟩
    case bindInvoke source invokeId target =>
      refine ⟨bindInvoke_referential h source invokeId target, hissued.keep rfl fun j => ?_⟩
      unfold bindInvoke
      repeat' split
      all_goals exact le_rfl
    case unbindInvoke source invokeId =>
      refine ⟨unbindInvoke_referential h source invokeId, hissued.keep rfl fun j => ?_⟩
      unfold unbindInvoke
      repeat' split
      all_goals exact le_rfl
    case resolve source target =>
      refine ⟨resolve_referential h source target, hissued.keep rfl fun j => ?_⟩
      unfold resolve
      repeat' split
      all_goals exact le_rfl
  · have ha : a.onDirectory = false := by simpa using ha
    have hspec := step_spec hsound hs
    obtain ⟨hdir, hgiven⟩ := hspec.kept ha
    refine ⟨hspec.work.referential hdir h, hissued.keep hgiven fun i => ?_⟩
    rw [show s'.router.endpoints = s.router.endpoints from congrArg Prod.fst hdir]

omit [DecidableEq σ] in
theorem init_referential : Referential (Router.init cfg σ) where
  rowTarget := fun _ h => absurd rfl h
  rowSource := fun _ h => absurd rfl h
  intentSource := fun _ h => by cases h
  routeOwner := fun _ h => by cases h
  routeTarget := fun _ h => by cases h
  parent := fun _ h => by cases h
  acyclic := fun x hx => by
    rcases TransGen.head'_iff.mp hx with ⟨y, ⟨hlive, -⟩, -⟩
    cases hlive
  routeUnique := fun _ _ h => by cases h
  activeLive := fun _ h => by cases h
  attached := fun _ _ h => by cases h

theorem reachable_invariant (h : s.Reachable) : Sound s ∧ Referential s.router ∧ IssuedSound s := by
  refine Machine.Reachable.invariant (P := fun s => Sound s ∧ Referential s.router ∧ IssuedSound s)
    (fun s hs => ?_) (fun s a s' hs hstep => ?_) h
  · rw [hs.2]
    exact ⟨init_sound, init_referential, List.nodup_nil, by simp [System.init]⟩
  · obtain ⟨hsound, href, hissued⟩ := hs
    exact ⟨(step_spec hsound hstep).sound, step_referential hsound href hissued hstep⟩

/-- **Referential integrity.** In every reachable state every held reference names a live endpoint
of its generation, no endpoint is its own ancestor, aliases, Sessions and locations are unique, no
reference was given out twice, and the drain meets no stale one. -/
theorem reachable_referential (h : s.Reachable) :
    Referential s.router ∧ s.issued.Nodup ∧ ∀ count maxEvents result,
      (s.router.drainClaim count maxEvents result).1.staleRefs = s.router.staleRefs ∧
      (s.router.drainClaim count maxEvents result).1.deliveryErrors = s.router.deliveryErrors := by
  obtain ⟨-, href, hissued⟩ := reachable_invariant h
  exact ⟨href, hissued.nodup, drainClaim_fresh href⟩

end Sessions

end Issued

theorem delayedSendState_referential : (delayedSendState.router.rows ⟨0, by decide⟩).source =
    ⟨0, 1⟩ ∧ Referential delayedSendState.router :=
  ⟨by decide, (reachable_referential delayedSendState_reachable).1⟩

end TurboScxml.Router
