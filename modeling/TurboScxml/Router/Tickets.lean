import TurboScxml.Router.Rows
import TurboScxml.Router.System

/-!
# Tickets, lanes and the rows they hold

* `RowsSound`: every row is formed and the used rows carry distinct identities;
* `TicketsSound`: the outstanding send tickets are the RESERVED rows and the outstanding cancel
  tickets the intents in use; a cancel of a RESERVED row is younger than the row's own ticket;
* `LanesSound`: the rows outside the lock are FIRING and INFLIGHT.
-/

namespace TurboScxml.Router

open Function Slots

variable {cfg : Config} {σ : Type}

/-! ## Rows -/

structure RowsSound (r : Router cfg σ) : Prop where
  formed : ∀ i, (r.rows i).Formed
  identity : ∀ i, (r.rows i).state ≠ .free → (r.rows i).identity ≤ r.nextRowIdentity
  distinct : ∀ i j, (r.rows i).state ≠ .free → (r.rows j).state ≠ .free →
    (r.rows i).identity = (r.rows j).identity → i = j

theorem Row.formed_free : Row.free.Formed := ⟨fun _ => rfl, by simp [Row.free]⟩

theorem Follows.used {delayMs : ℕ} {a b : RowState} (h : Follows delayMs a b) :
    a ≠ .free ∧ b ≠ .free ∧ b ≠ .reserved := by
  cases h <;> simp

theorem Follows.formed {delayMs : ℕ} {a b : RowState} (h : Follows delayMs a b)
    (ha : a = .delayed ∨ a = .firing → delayMs ≠ 0) : b = .delayed ∨ b = .firing → delayMs ≠ 0 := by
  cases h <;> simp_all

section Advances

variable {row row' : Row} (h : Advances row row')
include h

theorem Advances.identity : row'.identity = row.identity := by
  rw [h.data]

theorem Advances.target : row'.target = row.target := by rw [h.data]

theorem Advances.source : row'.source = row.source := by rw [h.data]

theorem Advances.delayMs : row'.delayMs = row.delayMs := by rw [h.data]

theorem Advances.sendId : row'.sendId = row.sendId := by rw [h.data]

omit h

end Advances

variable {i : Fin cfg.eventCapacity}

section RowsSound

variable {r r' : Router cfg σ} {own : Option (Fin cfg.eventCapacity)}

theorem RowsSound.write (h : RowsSound r) {row : Row} (hrows : r'.rows = update r.rows i row)
    (hid : r.nextRowIdentity ≤ r'.nextRowIdentity) (hformed : row.Formed)
    (hle : row.identity ≤ r'.nextRowIdentity)
    (hfresh : ∀ j, j ≠ i → (r.rows j).state ≠ .free → (r.rows j).identity ≠ row.identity) :
    RowsSound r' := by
  refine ⟨fun j => ?_, fun j => ?_, fun j k => ?_⟩
  · by_cases hj : j = i
    · rw [hrows, hj, update_self]
      exact hformed
    · rw [hrows, update_of_ne hj]
      exact h.formed j
  · by_cases hj : j = i
    · rw [hrows, hj, update_self]
      exact fun _ => hle
    · rw [hrows, update_of_ne hj]
      exact fun hused => (h.identity j hused).trans hid
  · rw [hrows]
    by_cases hj : j = i <;> by_cases hk : k = i
    · exact fun _ _ _ => hj.trans hk.symm
    · rw [hj, update_self, update_of_ne hk]
      exact fun _ hused heq => absurd heq.symm (hfresh k hk hused)
    · rw [hk, update_self, update_of_ne hj]
      exact fun hused _ heq => absurd heq (hfresh j hj hused)
    · rw [update_of_ne hj, update_of_ne hk]
      exact h.distinct j k

theorem RowsSound.rowsStep (h : RowsSound r) (hstep : RowsStep own r r') : RowsSound r' := by
  cases hstep with
  | drop hrows hid =>
    have hkeep : ∀ i, (r'.rows i).state ≠ .free → r'.rows i = r.rows i := fun i hi => by
      rcases hrows i with heq | ⟨heq, -⟩
      · exact heq
      · rw [heq] at hi
        exact absurd rfl hi
    refine ⟨fun i => ?_, fun i hi => ?_, fun i j hi hj heq => ?_⟩
    · rcases hrows i with heq | ⟨heq, -⟩
      · rw [heq]
        exact h.formed i
      · rw [heq]
        exact Row.formed_free
    · have hrow := hkeep i hi
      rw [hrow] at hi ⊢
      rw [hid]
      exact h.identity i hi
    · have hrow := hkeep i hi
      have hrow' := hkeep j hj
      rw [hrow] at hi heq
      rw [hrow'] at hj heq
      exact h.distinct i j hi hj heq
  | post i row sequence hfree hrow hsource hrows hid =>
    refine h.write hrows (by omega) ⟨by simp, by simp⟩ ?_ fun j _ hj => ?_
    · rw [hid]
      exact hrow.identity.le
    · have hle := h.identity j hj
      have hnew := hrow.identity
      change _ ≠ row.identity
      omega
  | advance i row hrow hown hrows hid =>
    have hused := hrow.follows.used
    refine h.write hrows hid.ge ⟨fun hfree => absurd hfree hused.2.1, ?_⟩ ?_ fun j hj hj' heq => ?_
    · rw [hrow.delayMs]
      exact hrow.follows.formed (h.formed i).delay
    · rw [hrow.identity, hid]
      exact h.identity i hused.1
    · rw [hrow.identity] at heq
      exact hj (h.distinct j i hj' hused.1 heq)

theorem RowsSound.accepted (h : RowsSound r) {row : Row} (hrow : Reserves r row) :
    RowsSound (r.accepted i row) := by
  refine h.write (show (r.accepted i row).rows = update r.rows i row from rfl) (Nat.le_succ _)
    ⟨?_, ?_⟩ hrow.identity.le
    fun j _ hj => ?_
  · simp [hrow.state]
  · simp [hrow.state]
  · have hle := h.identity j hj
    have hnew := hrow.identity
    omega

theorem RowsStep.held (hstep : RowsStep own r r') (hi : (r.rows i).held = true)
    (hown : own ≠ some i) :
    (r'.rows i).state = (r.rows i).state ∧ (r'.rows i).identity = (r.rows i).identity ∧
      (r'.rows i).source = (r.rows i).source := by
  cases hstep with
  | drop hrows hid =>
    rcases hrows i with heq | ⟨-, -, hheld⟩
    · rw [heq]
      exact ⟨rfl, rfl, rfl⟩
    · exact absurd (hheld hi) hown
  | post j row sequence hfree hrow hsource hrows hid =>
    have hij : i ≠ j := by
      rintro rfl
      rw [hfree] at hi
      cases hi
    rw [hrows, update_of_ne hij]
    exact ⟨rfl, rfl, rfl⟩
  | advance j row hrow hj hrows hid =>
    by_cases hij : i = j
    · subst hij
      rw [hrows, update_self]
      exact ⟨(hj hi).resolve_left hown, hrow.identity, hrow.source⟩
    · rw [hrows, update_of_ne hij]
      exact ⟨rfl, rfl, rfl⟩

theorem RowsStep.reserved (hstep : RowsStep own r r') (hi : (r'.rows i).state = .reserved) :
    (r.rows i).state = .reserved := by
  cases hstep with
  | drop hrows hid =>
    rcases hrows i with heq | ⟨heq, -⟩
    · rwa [heq] at hi
    · rw [heq] at hi
      cases hi
  | post j row sequence hfree hrow hsource hrows hid =>
    by_cases hij : i = j
    · rw [hrows, hij, update_self] at hi
      cases hi
    · rwa [hrows, update_of_ne hij] at hi
  | advance j row hrow hown hrows hid =>
    by_cases hij : i = j
    · rw [hrows, hij, update_self] at hi
      exact absurd hi hrow.follows.used.2.2
    · rwa [hrows, update_of_ne hij] at hi

theorem RowsStep.nextRowIdentity_le (hstep : RowsStep own r r') :
    r.nextRowIdentity ≤ r'.nextRowIdentity := by
  cases hstep <;> omega

end RowsSound

/-! ## Tickets -/

/-- Nothing is held without a ticket. -/
structure TicketsSound (s : System cfg σ) : Prop where
  serial : ∀ t ∈ s.tickets, t.serial < s.nextSerial
  ordered : s.tickets.Pairwise fun t u => t.serial < u.serial
  send : ∀ t ∈ s.tickets, ∀ i d, t.effect = .send i d → (s.router.rows i).state = .reserved ∧
    (s.router.rows i).identity = d ∧ (s.router.rows i).source = t.source
  reserved : ∀ i, (s.router.rows i).state = .reserved →
    ∃ t ∈ s.tickets, t.effect = .send i (s.router.rows i).identity
  sendUnique : ∀ t ∈ s.tickets, ∀ u ∈ s.tickets, ∀ i d e, t.effect = .send i d →
    u.effect = .send i e → t = u
  cancel : ∀ t ∈ s.tickets, ∀ k d, t.effect = .cancel k d →
    (s.router.cancelRows k).inUse = true ∧ (s.router.cancelRows k).targetIdentity = d ∧
      (s.router.cancelRows k).source = t.source
  inUse : ∀ k, (s.router.cancelRows k).inUse = true →
    ∃ t ∈ s.tickets, t.effect = .cancel k (s.router.cancelRows k).targetIdentity
  cancelUnique : ∀ t ∈ s.tickets, ∀ u ∈ s.tickets, ∀ k d e, t.effect = .cancel k d →
    u.effect = .cancel k e → t = u
  target : ∀ k, (s.router.cancelRows k).inUse = true →
    (s.router.cancelRows k).targetIdentity ≤ s.router.nextRowIdentity
  order : ∀ t ∈ s.tickets, ∀ u ∈ s.tickets, ∀ k i d, t.effect = .cancel k d →
    u.effect = .send i d → u.serial < t.serial ∧ refsEqual u.source t.source = true

section TicketsSound

variable {s s' : System cfg σ} {own : Option (Fin cfg.eventCapacity)} {r' : Router cfg σ}

variable (h : TicketsSound s)
include h

theorem TicketsSound.nodup : s.tickets.Nodup :=
  h.ordered.imp fun hlt heq => by
    rw [heq] at hlt
    omega

variable {t : Ticket cfg}

theorem TicketsSound.mem_settle {u : Ticket cfg} :
    u ∈ (s.settle t r').tickets ↔ u ≠ t ∧ u ∈ s.tickets :=
  h.nodup.mem_erase_iff

theorem TicketsSound.keep (hstep : RowsStep own s.router s'.router)
    (hown : ∀ i, own = some i → (s.router.rows i).state ≠ .reserved)
    (hcancel : s'.router.cancelRows = s.router.cancelRows) (htickets : s'.tickets = s.tickets)
    (hserial : s'.nextSerial = s.nextSerial) : TicketsSound s' := by
  have hheld : ∀ i, (s.router.rows i).state = .reserved →
      (s'.router.rows i).state = .reserved ∧
        (s'.router.rows i).identity = (s.router.rows i).identity ∧
        (s'.router.rows i).source = (s.router.rows i).source := fun i hi => by
    rw [← hi]
    exact hstep.held (by simp [Row.held, hi]) fun heq => hown i heq hi
  refine ⟨?_, ?_, ?_, ?_, ?_, ?_, ?_, ?_, ?_, ?_⟩
  · rw [htickets, hserial]
    exact h.serial
  · rw [htickets]
    exact h.ordered
  · rw [htickets]
    intro t ht i d hd
    obtain ⟨hstate, hid, hsource⟩ := h.send t ht i d hd
    obtain ⟨hstate', hid', hsource'⟩ := hheld i hstate
    exact ⟨hstate', hid'.trans hid, hsource'.trans hsource⟩
  · intro i hi
    have hi := hstep.reserved hi
    rw [htickets, (hheld i hi).2.1]
    exact h.reserved i hi
  · rw [htickets]
    exact h.sendUnique
  · rw [htickets, hcancel]
    exact h.cancel
  · rw [htickets, hcancel]
    exact h.inUse
  · rw [htickets]
    exact h.cancelUnique
  · rw [hcancel]
    exact fun k hk => (h.target k hk).trans hstep.nextRowIdentity_le
  · rw [htickets]
    exact h.order

theorem TicketsSound.settle
    (hrows : ∀ i, (s.router.rows i).state = .reserved → (∀ d, t.effect ≠ .send i d) →
      (r'.rows i).state = .reserved ∧ (r'.rows i).identity = (s.router.rows i).identity ∧
        (r'.rows i).source = (s.router.rows i).source)
    (hreserved : ∀ i, (r'.rows i).state = .reserved →
      (s.router.rows i).state = .reserved ∧ ∀ d, t.effect ≠ .send i d)
    (hintents : ∀ k, (∀ d, t.effect ≠ .cancel k d) → r'.cancelRows k = s.router.cancelRows k)
    (hinUse : ∀ k, (r'.cancelRows k).inUse = true → ∀ d, t.effect ≠ .cancel k d)
    (hid : s.router.nextRowIdentity ≤ r'.nextRowIdentity) (ht : t ∈ s.tickets) :
    TicketsSound (s.settle t r') := by
  have hsub : ∀ u ∈ (s.settle t r').tickets, u ∈ s.tickets := fun u hu => (h.mem_settle.mp hu).2
  refine ⟨fun u hu => h.serial u (hsub u hu), h.ordered.sublist List.erase_sublist, ?_, ?_,
    fun u hu v hv => h.sendUnique u (hsub u hu) v (hsub v hv), ?_, ?_,
    fun u hu v hv => h.cancelUnique u (hsub u hu) v (hsub v hv), ?_,
    fun u hu v hv => h.order u (hsub u hu) v (hsub v hv)⟩
  · intro u hu i e he
    obtain ⟨hne, hmem⟩ := h.mem_settle.mp hu
    obtain ⟨hstate, hid, hsource⟩ := h.send u hmem i e he
    obtain ⟨hstate', hid', hsource'⟩ := hrows i hstate fun d hd =>
      hne (h.sendUnique u hmem t ht i e d he hd)
    exact ⟨hstate', hid'.trans hid, hsource'.trans hsource⟩
  · intro i hi
    obtain ⟨hstate, hother⟩ := hreserved i hi
    obtain ⟨u, hu, he⟩ := h.reserved i hstate
    refine ⟨u, h.mem_settle.mpr ⟨?_, hu⟩, he.trans ?_⟩
    · rintro rfl
      exact hother _ he
    · rw [← (hrows i hstate hother).2.1]
      rfl
  · intro u hu k e he
    obtain ⟨hne, hmem⟩ := h.mem_settle.mp hu
    have heq := hintents k fun d hd => hne (h.cancelUnique u hmem t ht k e d he hd)
    have := h.cancel u hmem k e he
    rwa [← heq] at this
  · intro k hk
    have hother := hinUse k hk
    have heq := hintents k hother
    change (r'.cancelRows k).inUse = true at hk
    rw [heq] at hk
    obtain ⟨u, hu, he⟩ := h.inUse k hk
    refine ⟨u, h.mem_settle.mpr ⟨?_, hu⟩, ?_⟩
    · rintro rfl
      exact hother _ he
    · rw [he, ← heq]
      rfl
  · intro k hk
    have heq := hintents k (hinUse k hk)
    change (r'.cancelRows k).inUse = true at hk
    change (r'.cancelRows k).targetIdentity ≤ r'.nextRowIdentity
    rw [heq] at hk ⊢
    exact (h.target k hk).trans hid

variable {d : ℕ}

theorem TicketsSound.settleSend (ht : t ∈ s.tickets)
    (hd : t.effect = .send i d) (hstep : RowsStep (some i) s.router r')
    (hi : (r'.rows i).state ≠ .reserved) (hcancel : r'.cancelRows = s.router.cancelRows) :
    TicketsSound (s.settle t r') := by
  refine h.settle (fun j hj hother => ?_) (fun j hj => ⟨hstep.reserved hj, fun e he => ?_⟩)
    (fun k _ => by rw [hcancel]) (fun k _ e he => ?_) hstep.nextRowIdentity_le ht
  · rw [← hj]
    refine hstep.held (by simp [Row.held, hj]) fun heq => ?_
    obtain rfl := Option.some.inj heq
    exact hother d hd
  · rw [hd] at he
    cases he
    exact hi hj
  · rw [hd] at he
    cases he

variable {k : Fin cfg.cancelCapacity}

theorem TicketsSound.settleCancel (ht : t ∈ s.tickets)
    (hd : t.effect = .cancel k d) (hstep : RowsStep none s.router r')
    (hcancel : r'.cancelRows = update s.router.cancelRows k .free) :
    TicketsSound (s.settle t r') := by
  have hk : ∀ l e, t.effect = .cancel l e → l = k := fun l e he => by
    rw [hd] at he
    cases he
    rfl
  refine h.settle (fun j hj _ => ?_) (fun j hj => ⟨hstep.reserved hj, fun e he => ?_⟩)
    (fun l hl => ?_) (fun l hl e he => ?_) hstep.nextRowIdentity_le ht
  · rw [← hj]
    exact hstep.held (by simp [Row.held, hj]) (by simp)
  · rw [hd] at he
    cases he
  · have hlk : l ≠ k := by
      rintro rfl
      exact hl d hd
    rw [hcancel, update_of_ne hlk]
  · obtain rfl := hk l e he
    rw [hcancel, update_self] at hl
    cases hl

/-! ### New tickets -/

/-- The row or the intent of a new ticket is added to what the tickets hold. -/
structure Takes (s : System cfg σ) (r' : Router cfg σ) (u : Ticket cfg) : Prop where
  rows : ∀ j, (s.router.rows j).state = .reserved → r'.rows j = s.router.rows j
  reserved : ∀ j, (r'.rows j).state = .reserved →
    (s.router.rows j).state = .reserved ∨ u.effect = .send j (r'.rows j).identity
  send : ∀ j d, u.effect = .send j d → (s.router.rows j).state ≠ .reserved ∧
    (r'.rows j).state = .reserved ∧ (r'.rows j).identity = d ∧ (r'.rows j).source = u.source
  intents : ∀ k, (s.router.cancelRows k).inUse = true → r'.cancelRows k = s.router.cancelRows k
  inUse : ∀ k, (r'.cancelRows k).inUse = true → (s.router.cancelRows k).inUse = true ∨
    u.effect = .cancel k (r'.cancelRows k).targetIdentity
  cancel : ∀ k d, u.effect = .cancel k d → (s.router.cancelRows k).inUse ≠ true ∧
    (r'.cancelRows k).inUse = true ∧ (r'.cancelRows k).targetIdentity = d ∧
      (r'.cancelRows k).source = u.source
  target : ∀ k, (r'.cancelRows k).inUse = true →
    (r'.cancelRows k).targetIdentity ≤ r'.nextRowIdentity
  orderSend : ∀ t ∈ s.tickets, ∀ k i d, t.effect = .cancel k d → u.effect ≠ .send i d
  orderCancel : ∀ t ∈ s.tickets, ∀ k i d, u.effect = .cancel k d → t.effect = .send i d →
    refsEqual t.source u.source = true

/-- **A new ticket.** -/
theorem TicketsSound.accept {u : Ticket cfg} (hu : u.serial = s.nextSerial)
    (htakes : Takes s r' u) :
    TicketsSound { s with
      router := r'
      tickets := s.tickets ++ [u]
      nextSerial := s.nextSerial + 1 } := by
  have hmem : ∀ {t}, t ∈ s.tickets ++ [u] → t ∈ s.tickets ∨ t = u := fun ht => by simpa using ht
  have hsend : ∀ t ∈ s.tickets, ∀ j d e, t.effect = .send j d → u.effect ≠ .send j e :=
    fun t ht j d e hd he => (htakes.send j e he).1 (h.send t ht j d hd).1
  have hcancel : ∀ t ∈ s.tickets, ∀ k d e, t.effect = .cancel k d → u.effect ≠ .cancel k e :=
    fun t ht k d e hd he => (htakes.cancel k e he).1 (h.cancel t ht k d hd).1
  refine ⟨?_, ?_, ?_, ?_, ?_, ?_, ?_, ?_, htakes.target, ?_⟩
  · intro t ht
    rcases hmem ht with ht | rfl
    · exact (h.serial t ht).trans (Nat.lt_succ_self _)
    · exact hu.trans_lt (Nat.lt_succ_self _)
  · refine List.pairwise_append.mpr ⟨h.ordered, List.pairwise_singleton .., fun t ht v hv => ?_⟩
    obtain rfl := List.mem_singleton.mp hv
    exact (h.serial t ht).trans_eq hu.symm
  · intro t ht j d hd
    rcases hmem ht with ht | rfl
    · obtain ⟨hstate, hrow⟩ := h.send t ht j d hd
      dsimp only
      rw [htakes.rows j hstate]
      exact ⟨hstate, hrow⟩
    · exact (htakes.send j d hd).2
  · intro j hj
    rcases htakes.reserved j hj with hold | hnew
    · obtain ⟨t, ht, hd⟩ := h.reserved j hold
      exact ⟨t, List.mem_append_left _ ht, by rw [hd]; dsimp only; rw [htakes.rows j hold]⟩
    · exact ⟨u, List.mem_append_right _ (List.mem_singleton_self _), hnew⟩
  · intro t ht v hv j d e hd he
    rcases hmem ht with htold | rfl <;> rcases hmem hv with hvold | rfl
    · exact h.sendUnique t htold v hvold j d e hd he
    · exact absurd he (hsend t htold j d e hd)
    · exact absurd hd (hsend v hvold j e d he)
    · rfl
  · intro t ht k d hd
    rcases hmem ht with ht | rfl
    · obtain ⟨huse, hrow⟩ := h.cancel t ht k d hd
      dsimp only
      rw [htakes.intents k huse]
      exact ⟨huse, hrow⟩
    · exact (htakes.cancel k d hd).2
  · intro k hk
    rcases htakes.inUse k hk with hold | hnew
    · obtain ⟨t, ht, hd⟩ := h.inUse k hold
      exact ⟨t, List.mem_append_left _ ht, by rw [hd]; dsimp only; rw [htakes.intents k hold]⟩
    · exact ⟨u, List.mem_append_right _ (List.mem_singleton_self _), hnew⟩
  · intro t ht v hv k d e hd he
    rcases hmem ht with htold | rfl <;> rcases hmem hv with hvold | rfl
    · exact h.cancelUnique t htold v hvold k d e hd he
    · exact absurd he (hcancel t htold k d e hd)
    · exact absurd hd (hcancel v hvold k e d he)
    · rfl
  · intro t ht v hv k j d hd he
    rcases hmem ht with htold | rfl <;> rcases hmem hv with hvold | rfl
    · exact h.order t htold v hvold k j d hd he
    · exact absurd he (htakes.orderSend t htold k j d hd)
    · exact ⟨(h.serial v hvold).trans_eq hu.symm, htakes.orderCancel v hvold k j d hd he⟩
    · rw [hd] at he
      cases he

theorem TicketsSound.acceptSend {row : Row} (hfree : s.router.rows i = .free)
    (hrow : Reserves s.router row) {source : SessionRef} (hsource : row.source = source)
    (hs' : s' = { s with
      router := s.router.accepted i row
      tickets := s.tickets ++ [⟨s.nextSerial, source, .send i row.identity⟩]
      nextSerial := s.nextSerial + 1 }) : TicketsSound s' := by
  subst hs'
  have hother : ∀ j, j ≠ i → (s.router.accepted i row).rows j = s.router.rows j := fun j hj =>
    update_of_ne hj _ _
  have hself : (s.router.accepted i row).rows i = row := update_self ..
  refine h.accept rfl ⟨fun j hj => ?_, fun j hj => ?_, fun j d hd => ?_, fun k _ => rfl,
    fun k => .inl, fun k d hd => ?_, fun k hk => (h.target k hk).trans (Nat.le_succ _),
    fun t ht k j d hd he => ?_, fun t ht k j d hd => ?_⟩
  · refine hother j ?_
    rintro rfl
    rw [hfree] at hj
    cases hj
  · by_cases hji : j = i
    · subst hji
      exact .inr (by rw [hself])
    · rw [hother j hji] at hj
      exact .inl hj
  · cases hd
    rw [hself, hfree]
    exact ⟨by decide, hrow.state, rfl, hsource⟩
  · cases hd
  · cases he
    -- the new row has an identity that no intent was taken for
    have hcancel := h.cancel t ht k _ hd
    have := h.target k hcancel.1
    have := hrow.identity
    omega
  · cases hd

theorem TicketsSound.acceptCancel (hrows : RowsSound s.router)
    {source : SessionRef} {sendId : Text} (hi : (s.router.rows i).delayedSend source sendId = true)
    (hk : (s.router.cancelRows k).inUse = false) (hcancelRows : r'.cancelRows =
      update s.router.cancelRows k ⟨some i, source, (s.router.rows i).identity, true⟩)
    (htable : r'.rowTable = s.router.rowTable) (hs' : s' = { s with
      router := r'
      tickets := s.tickets ++ [⟨s.nextSerial, source, .cancel k (s.router.rows i).identity⟩]
      nextSerial := s.nextSerial + 1 }) : TicketsSound s' := by
  subst hs'
  have hrowsEq : r'.rows = s.router.rows := congrArg Prod.fst htable
  have hidEq : r'.nextRowIdentity = s.router.nextRowIdentity := congrArg Prod.snd htable
  simp only [Row.delayedSend, Bool.and_eq_true, bne_iff_ne, ne_eq, beq_iff_eq] at hi
  obtain ⟨⟨⟨-, hused⟩, hsource⟩, -⟩ := hi
  have hother : ∀ l, l ≠ k → r'.cancelRows l = s.router.cancelRows l := fun l hl => by
    rw [hcancelRows, update_of_ne hl]
  have hself : r'.cancelRows k = ⟨some i, source, (s.router.rows i).identity, true⟩ := by
    rw [hcancelRows, update_self]
  refine h.accept rfl ⟨fun j _ => by rw [hrowsEq], fun j hj => .inl (by rwa [hrowsEq] at hj),
    fun j d hd => ?_, fun l hl => ?_, fun l hl => ?_, fun l d hd => ?_, fun l hl => ?_,
    fun t _ l j d _ he => ?_, fun t ht l j d hd he => ?_⟩
  · cases hd
  · refine hother l ?_
    rintro rfl
    rw [hk] at hl
    cases hl
  · by_cases hlk : l = k
    · subst hlk
      exact .inr (by rw [hself])
    · rw [hother l hlk] at hl
      exact .inl hl
  · cases hd
    rw [hself, hk]
    exact ⟨by decide, rfl, rfl, rfl⟩
  · rw [hidEq]
    by_cases hlk : l = k
    · subst hlk
      rw [hself]
      exact hrows.identity i hused
    · rw [hother l hlk] at hl ⊢
      exact h.target l hl
  · cases he
  · cases hd
    -- the outstanding send is the ticket of the row found, which has the source asked for
    obtain ⟨hstate, hid, htsource⟩ := h.send t ht j _ he
    obtain rfl := hrows.distinct j i (by simp [hstate]) hused hid
    rw [← htsource]
    exact hsource

/-- The ticket of a RESERVED row is older than a cancel of it. -/
theorem TicketsSound.intentRow_settleable (ht : s.settleable t = true)
    (hd : t.effect = .cancel k d) (hi : s.router.intentRow (s.router.cancelRows k) = some i) :
    (s.router.rows i).state ≠ .reserved := by
  intro hstate
  simp only [System.settleable, Bool.and_eq_true, List.contains_iff_mem, List.all_eq_true] at ht
  obtain ⟨hmem, hfirst⟩ := ht
  obtain ⟨u, hu, he⟩ := h.reserved i hstate
  have hidentity : (s.router.rows i).identity = (s.router.cancelRows k).targetIdentity := by
    simp only [intentRow, Option.filter_eq_some_iff, beq_iff_eq] at hi
    exact hi.2
  rw [hidentity, (h.cancel t hmem k d hd).2.1] at he
  obtain ⟨hlt, hsource⟩ := h.order t hmem u hu k i d hd he
  have := hfirst u hu
  simp only [hsource, Bool.not_true, Bool.false_or, decide_eq_true_eq] at this
  omega

omit h

end TicketsSound

/-! ## Lanes -/

/-- The rows outside the lock are in the state of their lane. -/
structure LanesSound (s : System cfg σ) : Prop where
  timer : ∀ i count maxFires, s.timer = .reporting i count maxFires →
    (s.router.rows i).state = .firing
  drain : ∀ j event count maxEvents, s.drain = .delivering j event count maxEvents →
    (s.router.rows j).state = .inflight

section LanesSound

variable {s s' : System cfg σ} {own : Option (Fin cfg.eventCapacity)}

theorem LanesSound.keep (h : LanesSound s) (hstep : RowsStep own s.router s'.router)
    (hown : ∀ i, own = some i → (s.router.rows i).state = .reserved) (htimer : s'.timer = s.timer)
    (hdrain : s'.drain = s.drain) : LanesSound s' := by
  refine ⟨fun i count maxFires hi => ?_, fun j event count maxEvents hj => ?_⟩
  · rw [htimer] at hi
    have hstate := h.timer i count maxFires hi
    rw [← hstate]
    refine (hstep.held (by simp [Row.held, hstate]) fun heq => ?_).1
    rw [hown i heq] at hstate
    cases hstate
  · rw [hdrain] at hj
    have hstate := h.drain j event count maxEvents hj
    rw [← hstate]
    refine (hstep.held (by simp [Row.held, hstate]) fun heq => ?_).1
    rw [hown j heq] at hstate
    cases hstate

theorem LanesSound.accepted (h : LanesSound s) {row : Row} (hfree : s.router.rows i = .free)
    (hrouter : s'.router = s.router.accepted i row) (htimer : s'.timer = s.timer)
    (hdrain : s'.drain = s.drain) : LanesSound s' := by
  have hother : ∀ j, (s.router.rows j).state ≠ .free → s'.router.rows j = s.router.rows j :=
    fun j hj => by
      have hji : j ≠ i := by
        rintro rfl
        rw [hfree] at hj
        exact hj rfl
      rw [hrouter]
      exact update_of_ne hji _ _
  refine ⟨fun j count maxFires hj => ?_, fun j event count maxEvents hj => ?_⟩
  · rw [htimer] at hj
    have hstate := h.timer j count maxFires hj
    rw [hother j (by simp [hstate]), hstate]
  · rw [hdrain] at hj
    have hstate := h.drain j event count maxEvents hj
    rw [hother j (by simp [hstate]), hstate]

end LanesSound

end TurboScxml.Router
