import TurboScxml.Voice.SubdialogLedgers

/-!
# Logs of a subdialog owner

* `Entry`: what the logs say of the reservation of a row;
* `Logs`: what was started was committed, and what was delivered was prepared by its receiver.
-/

namespace TurboScxml.Voice

open Function

namespace Subdialogs

variable {ι : Type} {s t : State ι}

structure Entry (s : State ι) (k r : ℕ) : Prop where
  committed : (s.rows k).state = .pending → r ∈ s.committed
  started : (s.rows k).state = .active ∨ s.run.serves = some k → r ∈ s.started
  marked : ∀ m, (r, m) ∈ s.marks →
    (s.rows k).state = .canceled ∧ (s.run.serves = some k → s.runs ≤ m)
  delivered : ∀ d ∈ s.delivered, d.reservation = r → s.run.delivers = some k

/-- What was started was committed, and what was delivered was prepared by its receiver. -/
structure Logs (s : State ι) : Prop where
  entry : ∀ k r, (s.rows k).reservation = some r → Entry s k r
  started : ∀ r ∈ s.started, r ∈ s.committed
  once : (s.delivered.map Delivery.reservation).Nodup
  known : ∀ d ∈ s.delivered, d.reservation < s.accepted ∧ d.run ≤ s.runs
  prepared : ∀ d ∈ s.delivered, d.reservation ∈ s.started ∧ s.origin d.reservation = d.receiver
  marks : ∀ m ∈ s.marks, m.1 < s.accepted
  late : ∀ m ∈ s.marks, ∀ d ∈ s.delivered, d.reservation = m.1 → d.run ≤ m.2

def State.logs (s : State ι) : List ℕ × List ℕ × List (ℕ × ℕ) × List Delivery :=
  (s.committed, s.started, s.marks, s.delivered)

theorem Logs.init (hrows : ∀ k, s.rows k = .blank) (hlogs : s.logs = ([], [], [], [])) :
    Logs s := by
  simp only [State.logs, Prod.mk.injEq] at hlogs
  obtain ⟨-, hstarted, hmarks, hdelivered⟩ := hlogs
  constructor
  · intro k r hr
    rw [hrows k] at hr
    cases hr
  · simp [hstarted]
  · simp [hdelivered]
  · simp [hdelivered]
  · simp [hdelivered]
  · simp [hmarks]
  · simp [hmarks]

variable (h : Logs s)
include h

theorem Logs.frame (hlogs : t.logs = s.logs) (hruns : t.runs = s.runs)
    (haccepted : t.accepted = s.accepted) (horigin : t.origin = s.origin)
    (hrows : ∀ k r, (t.rows k).reservation = some r → (s.rows k).reservation = some r ∧
      ((t.rows k).state = (s.rows k).state ∨
        (s.rows k).state ≠ .canceled ∧ (t.rows k).state = .writing))
    (hserves : ∀ k, t.run.serves = some k → s.run.serves = some k ∨ (s.rows k).state = .active)
    (hdelivers : ∀ k r, (t.rows k).reservation = some r → s.run.delivers = some k →
      t.run.delivers = some k) : Logs t := by
  simp only [State.logs, Prod.mk.injEq] at hlogs
  obtain ⟨hcommitted, hstarted, hmarks, hdelivered⟩ := hlogs
  constructor
  · intro k r hr
    obtain ⟨hr', hstate⟩ := hrows k r hr
    have hentry := h.entry k r hr'
    constructor
    · intro hpending
      rw [hcommitted]
      rcases hstate with hstate | ⟨-, hwriting⟩
      · exact hentry.committed (hstate ▸ hpending)
      · rw [hwriting] at hpending
        cases hpending
    · intro hactive
      rw [hstarted]
      rcases hactive with hactive | hk
      · rcases hstate with hstate | ⟨-, hwriting⟩
        · exact hentry.started (.inl (hstate ▸ hactive))
        · rw [hwriting] at hactive
          cases hactive
      · exact hentry.started (hserves k hk).symm
    · intro m hm
      rw [hmarks] at hm
      obtain ⟨hcanceled, hle⟩ := hentry.marked m hm
      rw [hruns]
      constructor
      · rcases hstate with hstate | ⟨hne, -⟩
        · exact hstate.trans hcanceled
        · exact absurd hcanceled hne
      · intro hk
        rcases hserves k hk with hk | hactive
        · exact hle hk
        · rw [hactive] at hcanceled
          cases hcanceled
    · intro d hd hdr
      rw [hdelivered] at hd
      exact hdelivers k r hr (hentry.delivered d hd hdr)
  · rw [hstarted, hcommitted]
    exact h.started
  · rw [hdelivered]
    exact h.once
  · rw [hdelivered, haccepted, hruns]
    exact h.known
  · rw [hdelivered, hstarted, horigin]
    exact h.prepared
  · rw [hmarks, haccepted]
    exact h.marks
  · rw [hmarks, hdelivered]
    exact h.late

theorem Logs.goto {run : Run} (hpasses : Passes s run) : Logs (s.goto run) :=
  h.frame rfl rfl rfl rfl (fun _ _ hr => ⟨hr, .inl rfl⟩) hpasses.serves fun k _ _ hk =>
    hpasses.delivers k hk

variable {k : ℕ} {w : Row}

theorem Logs.setRow (hrows : t.rows = update s.rows k w) (hlogs : t.logs = s.logs)
    (hruns : t.runs = s.runs) (haccepted : t.accepted = s.accepted) (horigin : t.origin = s.origin)
    (hrun : t.run = s.run) (hrow : ∀ r, w.reservation = some r → (s.rows k).reservation = some r ∧
      (w.state = (s.rows k).state ∨ (s.rows k).state ≠ .canceled ∧ w.state = .writing)) :
    Logs t := by
  refine h.frame hlogs hruns haccepted horigin ?_ ?_ ?_
  · intro j r hr
    rw [hrows, update_apply] at hr ⊢
    split_ifs at hr ⊢ with hjk
    · rw [hjk]
      exact hrow r hr
    · exact ⟨hr, .inl rfl⟩
  · rw [hrun]
    exact fun _ hk => .inl hk
  · rw [hrun]
    exact fun _ _ _ hk => hk

theorem Logs.call (hrun : s.run = .idle) : Logs { s with run := .row 0, runs := s.runs + 1 } := by
  constructor
  · intro k r hr
    have hentry := h.entry k r hr
    refine ⟨hentry.committed, ?_, ?_, ?_⟩
    · rintro (hactive | hk)
      · exact hentry.started (.inl hactive)
      · cases hk
    · intro m hm
      refine ⟨(hentry.marked m hm).1, ?_⟩
      intro hk
      cases hk
    · intro d hd hdr
      have hk := hentry.delivered d hd hdr
      rw [hrun] at hk
      cases hk
  · exact h.started
  · exact h.once
  · exact fun d hd => ⟨(h.known d hd).1, Nat.le_succ_of_le (h.known d hd).2⟩
  · exact h.prepared
  · exact h.marks
  · exact h.late

theorem Logs.change (hrows : t.rows = update s.rows k w) (hrun : t.run = s.run)
    (hruns : t.runs = s.runs) (hle : s.accepted ≤ t.accepted)
    (horigin : ∀ r, r < s.accepted → t.origin r = s.origin r)
    (hcommitted : ∀ r ∈ s.committed, r ∈ t.committed) (hstarted : ∀ r ∈ s.started, r ∈ t.started)
    (hnew : ∀ r ∈ t.started, r ∈ t.committed)
    (hmarks : ∀ m ∈ t.marks, m ∈ s.marks ∨ (s.rows k).reservation = some m.1 ∧ m.2 = s.runs)
    (hmarked : ∀ r, (s.rows k).reservation = some r → r < s.accepted ∧
      ∀ j, (s.rows j).reservation = some r → j = k) (hdelivered : t.delivered = s.delivered)
    (hentry : ∀ r, w.reservation = some r → Entry t k r) : Logs t := by
  constructor
  · intro j r hr
    by_cases hjk : j = k
    · subst hjk
      rw [hrows, update_self] at hr
      exact hentry r hr
    · have hrow : t.rows j = s.rows j := by rw [hrows, update_of_ne hjk]
      rw [hrow] at hr
      have hold := h.entry j r hr
      constructor
      · rw [hrow]
        exact fun hpending => hcommitted r (hold.committed hpending)
      · rw [hrow, hrun]
        exact fun hactive => hstarted r (hold.started hactive)
      · intro m hm
        rw [hrow, hrun, hruns]
        rcases hmarks _ hm with hm | ⟨hk, -⟩
        · exact hold.marked m hm
        · exact absurd ((hmarked r hk).2 j hr) hjk
      · rw [hrun, hdelivered]
        exact hold.delivered
  · exact hnew
  · rw [hdelivered]
    exact h.once
  · rw [hdelivered, hruns]
    exact fun d hd => ⟨Nat.lt_of_lt_of_le (h.known d hd).1 hle, (h.known d hd).2⟩
  · rw [hdelivered]
    intro d hd
    rw [horigin _ (h.known d hd).1]
    exact ⟨hstarted _ (h.prepared d hd).1, (h.prepared d hd).2⟩
  · intro m hm
    rcases hmarks m hm with hm | ⟨hk, -⟩
    · exact Nat.lt_of_lt_of_le (h.marks m hm) hle
    · exact Nat.lt_of_lt_of_le (hmarked _ hk).1 hle
  · rw [hdelivered]
    intro m hm d hd hdm
    rcases hmarks m hm with hm | ⟨-, hm⟩
    · exact h.late m hm d hd hdm
    · rw [hm]
      exact (h.known d hd).2

theorem Logs.fill {o : Origin} (hnone : (s.rows k).reservation = none)
    (hreservation : w.reservation = some s.accepted) (hstate : w.state = .reserved)
    (hserves : s.run.serves ≠ some k) :
    Logs { s.setRow k w with
      accepted := s.accepted + 1
      origin := update s.origin s.accepted o } := by
  refine h.change (k := k) (w := w) rfl rfl rfl (Nat.le_succ _)
    (fun r hr => update_of_ne (Nat.ne_of_lt hr) _ _) (fun _ hr => hr) (fun _ hr => hr) h.started
    (fun _ hm => .inl hm) ?_ rfl ?_
  · intro r hr
    rw [hnone] at hr
    cases hr
  · intro r hr
    rw [hreservation] at hr
    obtain rfl := Option.some_inj.mp hr
    have hrow : update s.rows k w k = w := update_self k w s.rows
    constructor
    · intro hpending
      change (update s.rows k w k).state = _ at hpending
      rw [hrow, hstate] at hpending
      cases hpending
    · rintro (hactive | hk)
      · change (update s.rows k w k).state = _ at hactive
        rw [hrow, hstate] at hactive
        cases hactive
      · exact absurd hk hserves
    · exact fun m hm => absurd (h.marks _ hm) (Nat.lt_irrefl _)
    · intro d hd hdr
      exact absurd (hdr ▸ (h.known d hd).1) (Nat.lt_irrefl _)

variable {r : ℕ}

theorem Logs.commit (hstate : (s.rows k).state = .reserved)
    (hreservation : (s.rows k).reservation = some r)
    (hmarked : ∀ q, (s.rows k).reservation = some q → q < s.accepted ∧
      ∀ j, (s.rows j).reservation = some q → j = k) :
    Logs { s.setRow k { s.rows k with state := .pending } with committed := r :: s.committed } := by
  refine h.change (k := k) rfl rfl rfl (Nat.le_refl _) (fun _ _ => rfl)
    (fun _ hq => List.mem_cons_of_mem r hq) (fun _ hq => hq)
    (fun q hq => List.mem_cons_of_mem r (h.started q hq)) (fun _ hm => .inl hm) hmarked rfl ?_
  intro q hq
  obtain rfl : r = q := Option.some_inj.mp (hreservation.symm.trans hq)
  have hentry := h.entry k r hreservation
  have hrow : update s.rows k { s.rows k with state := .pending } k =
      { s.rows k with state := .pending } := update_self _ _ _
  constructor
  · exact fun _ => List.mem_cons_self
  · rintro (hactive | hk)
    · change (update s.rows k _ k).state = _ at hactive
      rw [hrow] at hactive
      cases hactive
    · exact hentry.started (.inr hk)
  · intro m hm
    have hcanceled := (hentry.marked m hm).1
    rw [hstate] at hcanceled
    cases hcanceled
  · exact hentry.delivered

theorem Logs.start (hstate : (s.rows k).state = .pending)
    (hreservation : (s.rows k).reservation = some r)
    (hmarked : ∀ q, (s.rows k).reservation = some q → q < s.accepted ∧
      ∀ j, (s.rows j).reservation = some q → j = k) :
    Logs { s.setRow k { s.rows k with state := .active } with started := r :: s.started } := by
  have hentry := h.entry k r hreservation
  refine h.change (k := k) rfl rfl rfl (Nat.le_refl _) (fun _ _ => rfl) (fun _ hq => hq)
    (fun _ hq => List.mem_cons_of_mem r hq) ?_ (fun _ hm => .inl hm) hmarked rfl ?_
  · intro q hq
    rcases List.mem_cons.mp hq with rfl | hq
    · exact hentry.committed hstate
    · exact h.started q hq
  · intro q hq
    obtain rfl : r = q := Option.some_inj.mp (hreservation.symm.trans hq)
    have hrow : update s.rows k { s.rows k with state := .active } k =
        { s.rows k with state := .active } := update_self _ _ _
    constructor
    · intro hpending
      change (update s.rows k _ k).state = _ at hpending
      rw [hrow] at hpending
      cases hpending
    · exact fun _ => List.mem_cons_self
    · intro m hm
      have hcanceled := (hentry.marked m hm).1
      rw [hstate] at hcanceled
      cases hcanceled
    · exact hentry.delivered

theorem Logs.mark (hreservation : (s.rows k).reservation = some r)
    (hmarked : ∀ q, (s.rows k).reservation = some q → q < s.accepted ∧
      ∀ j, (s.rows j).reservation = some q → j = k) : Logs (s.markRow k) := by
  have hentry := h.entry k r hreservation
  refine h.change (k := k) (w := { s.rows k with state := .canceled }) rfl rfl rfl
    (Nat.le_refl _) (fun _ _ => rfl) (fun _ hq => hq) (fun _ hq => hq) h.started ?_ hmarked rfl ?_
  · intro m hm
    change m ∈ (s.rows k).reservation.toList.map (fun r => (r, s.runs)) ++ s.marks at hm
    rw [hreservation] at hm
    rcases List.mem_cons.mp hm with rfl | hm
    · exact .inr ⟨hreservation, rfl⟩
    · exact .inl hm
  · intro q hq
    obtain rfl : r = q := Option.some_inj.mp (hreservation.symm.trans hq)
    have hrow : (s.markRow k).rows k = { s.rows k with state := .canceled } := update_self _ _ _
    constructor
    · intro hpending
      rw [hrow] at hpending
      cases hpending
    · rw [hrow]
      rintro (hactive | hk)
      · cases hactive
      · exact hentry.started (.inr hk)
    · intro m hm
      rw [hrow]
      refine ⟨rfl, fun hk => ?_⟩
      change _ ∈ (s.rows k).reservation.toList.map (fun r => (r, s.runs)) ++ s.marks at hm
      rw [hreservation] at hm
      rcases List.mem_cons.mp hm with hm | hm
      · exact Nat.le_of_eq (Prod.mk.inj hm).2.symm
      · exact (hentry.marked m hm).2 hk
    · exact hentry.delivered

theorem Logs.deliver {receiver : Origin}
    (hreservation : (s.rows k).reservation = some r) (hr : r < s.accepted)
    (hserves : s.run.serves = some k) (hdelivers : s.run.delivers = some k)
    (hunique : ∀ j, (s.rows j).reservation = some r → j = k)
    (hnew : ∀ d ∈ s.delivered, d.reservation ≠ r) (horigin : s.origin r = receiver) :
    Logs { s with delivered := ⟨r, receiver, s.runs⟩ :: s.delivered } := by
  have hentry := h.entry k r hreservation
  constructor
  · intro j q hq
    have hold := h.entry j q hq
    refine ⟨hold.committed, hold.started, hold.marked, ?_⟩
    intro d hd hdq
    rcases List.mem_cons.mp hd with rfl | hd
    · obtain rfl : r = q := hdq
      rw [hunique j hq]
      exact hdelivers
    · exact hold.delivered d hd hdq
  · exact h.started
  · refine List.nodup_cons.mpr ⟨?_, h.once⟩
    rintro hmem
    obtain ⟨d, hd, hdr⟩ := List.mem_map.mp hmem
    exact hnew d hd hdr
  · intro d hd
    rcases List.mem_cons.mp hd with rfl | hd
    · exact ⟨hr, Nat.le_refl _⟩
    · exact h.known d hd
  · intro d hd
    rcases List.mem_cons.mp hd with rfl | hd
    · exact ⟨hentry.started (.inr hserves), horigin⟩
    · exact h.prepared d hd
  · exact h.marks
  · intro m hm d hd hdm
    rcases List.mem_cons.mp hd with rfl | hd
    · obtain rfl : r = m.1 := hdm
      exact (hentry.marked m.2 hm).2 hserves
    · exact h.late m hm d hd hdm

omit h

end Subdialogs

end TurboScxml.Voice
