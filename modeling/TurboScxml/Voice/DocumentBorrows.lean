import Mathlib.Tactic.Push
import TurboScxml.Voice.DocumentStore

/-!
# Borrows of the document store

* `Sound`: kept by eviction, publication, activation and release (`Sound.evict` and so on);
* `Spent`: a borrow row has moved past a reference, so that it matches no row;
* **`reachable_borrows`**: the agreement of pins, borrows, bytes and URIs in every state.
-/

namespace TurboScxml.Voice

namespace DocumentStore

open Function Slots

namespace Store

variable {P : Type} {n : ℕ} {cfg : Config} {s s' s'' : Store P n} {i j k : Fin n} {ref : Ref}

/-! ## Eviction -/

theorem bytesOf_empty (generation : ℕ) : bytesOf (Entry.empty P generation) = 0 := rfl

theorem Sound.not_named (h : Sound cfg s) (hpins : (s.entries i).pins = 0)
    (hk : (s.borrows k).active = true) : (s.borrows k).entryIndex ≠ i := by
  intro hindex
  obtain ⟨i', hi', hoccupied, hgeneration⟩ := h.live k hk
  obtain rfl : i' = i := Fin.ext (hi'.symm.trans hindex)
  have hnames : names i' (s.entries i').generation (s.borrows k) = true := by
    simp [names, hk, hindex, hgeneration]
  have hpos := tally_pos (p := names i' (s.entries i').generation) (t := s.borrows) hnames
  rw [← h.pins i', hpins] at hpos
  exact absurd hpos (Nat.lt_irrefl 0)

theorem Sound.unpinned (h : Sound cfg s) (hoccupied : (s.entries i).occupied = false) :
    (s.entries i).pins = 0 := by
  rw [h.pins i]
  refine tally_eq_zero fun k => ?_
  by_contra hnames
  simp only [names, Bool.not_eq_false, Bool.and_eq_true, beq_iff_eq] at hnames
  obtain ⟨i', hi', hlive, -⟩ := h.live k hnames.1.1
  obtain rfl : i' = i := Fin.ext (hi'.symm.trans hnames.1.2)
  rw [hoccupied] at hlive
  cases hlive

/-- **Eviction.** -/
theorem Sound.evict (h : Sound cfg s) (i : Fin n) : Sound cfg (s.evict i) := by
  unfold Store.evict
  split_ifs with hkept hsize
  · exact h
  all_goals
    push Not at hkept
    have hoccupied : (s.entries i).occupied = true := by simpa using hkept.1
    have hweight : bytesOf (s.entries i) = (s.entries i).allocationSize := by
      simp [bytesOf, hoccupied]
    have htotal := total_update bytesOf s.entries i (.empty P (s.entries i).generation)
    have hle := le_total bytesOf s.entries i
    rw [bytesOf_empty, hweight] at htotal
    rw [hweight] at hle
  · constructor
    · intro j
      by_cases hj : j = i
      · subst hj
        have hpins := h.pins j
        rw [hkept.2] at hpins
        simpa [Entry.empty] using hpins
      · simpa [hj] using h.pins j
    · intro k hk
      obtain ⟨i', hi', hlive⟩ := h.live k hk
      have hne : i' ≠ i := by
        rintro rfl
        exact h.not_named hkept.2 hk hi'
      exact ⟨i', hi', by simpa [hne] using hlive⟩
    · exact h.active
    · have hbytes := h.bytes
      dsimp only
      omega
    · have hbound := h.bound
      dsimp only
      omega
    · intro j j' hj hj' huri
      have hne : ∀ m, (update s.entries i (.empty P (s.entries i).generation) m).occupied = true →
          m ≠ i := by
        rintro m hm rfl
        simp [Entry.empty] at hm
      have hji := hne j hj
      have hji' := hne j' hj'
      simp only [update_of_ne hji, update_of_ne hji'] at hj hj' huri
      exact h.uris j j' hj hj' huri
  · -- the bytes of the row are counted
    exact absurd (h.bytes ▸ hle) hsize

/-- Only rows without pins were evicted. -/
structure Trimmed (s s' : Store P n) : Prop where
  borrows : s'.borrows = s.borrows
  active : s'.activeBorrows = s.activeBorrows
  entries : ∀ i, s'.entries i = s.entries i ∨
    ((s'.entries i).occupied = false ∧ (s.entries i).pins = 0)

theorem Trimmed.refl (s : Store P n) : Trimmed s s := ⟨rfl, rfl, fun _ => .inl rfl⟩

theorem Trimmed.trans (h : Trimmed s s') (h' : Trimmed s' s'') : Trimmed s s'' where
  borrows := h'.borrows.trans h.borrows
  active := h'.active.trans h.active
  entries := fun i => by
    rcases h'.entries i with hsame | ⟨hempty, hpins⟩
    · rw [hsame]
      exact h.entries i
    · rcases h.entries i with hsame | ⟨-, hpins'⟩
      · exact .inr ⟨hempty, hsame ▸ hpins⟩
      · exact .inr ⟨hempty, hpins'⟩

theorem Trimmed.eq_of_occupied (h : Trimmed s s') (hi : (s'.entries i).occupied = true) :
    s'.entries i = s.entries i := by
  refine (h.entries i).resolve_right fun hempty => ?_
  rw [hempty.1] at hi
  cases hi

theorem Trimmed.eq_of_pinned (h : Trimmed s s') (hi : (s.entries i).pins ≠ 0) :
    s'.entries i = s.entries i :=
  (h.entries i).resolve_right fun hempty => hi hempty.2

theorem evict_trimmed (s : Store P n) (i : Fin n) : Trimmed s (s.evict i) := by
  have hentries : ∀ (j : Fin n), ¬ ((s.entries i).occupied = false ∨ (s.entries i).pins ≠ 0) →
      update s.entries i (.empty P (s.entries i).generation) j = s.entries j ∨
        ((update s.entries i (.empty P (s.entries i).generation) j).occupied = false ∧
          (s.entries j).pins = 0) := by
    intro j hkept
    push Not at hkept
    by_cases hj : j = i
    · subst hj
      exact .inr ⟨by simp [Entry.empty], hkept.2⟩
    · exact .inl (by simp [hj])
  unfold Store.evict
  split_ifs with hkept
  · exact .refl s
  · exact ⟨rfl, rfl, fun j => hentries j hkept⟩
  · exact ⟨rfl, rfl, fun j => hentries j hkept⟩

theorem findEmpty_eq_some (h : s.findEmpty = some i) : (s.entries i).occupied = false := by
  simpa using (Fin.find?_eq_some_iff.mp h).1

/-- **The loop that makes room.** -/
theorem makeRoomLoop_spec (budget fuel : ℕ) (h : Sound cfg s) :
    Sound cfg (makeRoomLoop budget fuel s).1 ∧ Trimmed s (makeRoomLoop budget fuel s).1 ∧
      ∀ i, (makeRoomLoop budget fuel s).2 = some i →
        ((makeRoomLoop budget fuel s).1.entries i).occupied = false ∧
          (makeRoomLoop budget fuel s).1.cachedBytes ≤ budget := by
  induction fuel generalizing s with
  | zero => exact ⟨h, .refl s, fun i hi => by cases hi⟩
  | succ fuel ih =>
    unfold makeRoomLoop
    cases hempty : s.findEmpty.filter fun _ => s.cachedBytes ≤ budget with
    | some slot =>
      obtain ⟨hslot, hroom⟩ := Option.filter_eq_some_iff.mp hempty
      refine ⟨h, .refl s, fun i hi => ?_⟩
      cases hi
      exact ⟨findEmpty_eq_some hslot, by simpa using hroom⟩
    | none =>
      dsimp only
      cases s.findLruUnpinned with
      | none => exact ⟨h, .refl s, fun i hi => by cases hi⟩
      | some slot =>
        obtain ⟨hsound, htrimmed, hslot⟩ := ih (h.evict slot)
        exact ⟨hsound, (evict_trimmed s slot).trans htrimmed, hslot⟩

theorem findLruUnpinned_eq_some (h : s.findLruUnpinned = some i) :
    (s.entries i).occupied = true ∧ (s.entries i).pins = 0 := by
  simpa using bestSlot_eligible h

theorem evict_occupied (h : s.findLruUnpinned = some i) :
    tally Entry.occupied (s.evict i).entries + 1 = tally Entry.occupied s.entries := by
  obtain ⟨hoccupied, hpins⟩ := findLruUnpinned_eq_some h
  have hwrite := tally_update Entry.occupied s.entries i (.empty P (s.entries i).generation)
  simp only [hoccupied, Entry.empty, Bool.toNat_true, Bool.toNat_false] at hwrite
  unfold Store.evict
  simp only [hoccupied, hpins, Entry.empty]
  exact hwrite

theorem makeRoomLoop_none {budget fuel : ℕ} (hfuel : tally Entry.occupied s.entries < fuel)
    (h : (makeRoomLoop budget fuel s).2 = none) :
    (makeRoomLoop budget fuel s).1.findLruUnpinned = none := by
  induction fuel generalizing s with
  | zero => exact absurd hfuel (Nat.not_lt_zero _)
  | succ fuel ih =>
    unfold makeRoomLoop at h ⊢
    cases hempty : s.findEmpty.filter fun _ => s.cachedBytes ≤ budget with
    | some slot =>
      rw [hempty] at h
      cases h
    | none =>
      rw [hempty] at h
      dsimp only at h ⊢
      cases hlru : s.findLruUnpinned with
      | none => exact hlru
      | some slot =>
        rw [hlru] at h
        have hless := evict_occupied hlru
        exact ih (by omega) h

/-- **A full store.** Every row that is left is pinned. -/
theorem makeRoom_none {maxCacheBytes newBytes : ℕ} (hle : newBytes ≤ maxCacheBytes)
    (h : (s.makeRoom maxCacheBytes newBytes).2 = none) :
    (s.makeRoom maxCacheBytes newBytes).1.findLruUnpinned = none := by
  unfold makeRoom at h ⊢
  rw [if_neg (Nat.not_lt.mpr hle)] at h ⊢
  exact makeRoomLoop_none (Nat.lt_succ_of_le (tally_le _ _)) h

theorem makeRoom_spec (maxCacheBytes newBytes : ℕ) (h : Sound cfg s) :
    Sound cfg (s.makeRoom maxCacheBytes newBytes).1 ∧
      Trimmed s (s.makeRoom maxCacheBytes newBytes).1 ∧
      ∀ i, (s.makeRoom maxCacheBytes newBytes).2 = some i →
        ((s.makeRoom maxCacheBytes newBytes).1.entries i).occupied = false ∧
          (s.makeRoom maxCacheBytes newBytes).1.cachedBytes + newBytes ≤ maxCacheBytes := by
  unfold makeRoom
  split_ifs with hlarge
  · exact ⟨h, .refl s, fun i hi => by cases hi⟩
  · obtain ⟨hsound, htrimmed, hslot⟩ := makeRoomLoop_spec (maxCacheBytes - newBytes) (n + 1) h
    refine ⟨hsound, htrimmed, fun i hi => ?_⟩
    obtain ⟨hoccupied, hroom⟩ := hslot i hi
    exact ⟨hoccupied, by omega⟩

/-! ## Publication and borrows -/

theorem update_pins (s : Store P n) (i : Fin n) (pins lastUsed : ℕ) (j : Fin n) :
    ∃ pins' lastUsed', update s.entries i { s.entries i with pins, lastUsed } j
      = { s.entries j with pins := pins', lastUsed := lastUsed' } := by
  by_cases hj : j = i
  · subst hj
    exact ⟨pins, lastUsed, by rw [update_self]⟩
  · exact ⟨_, _, update_of_ne hj _ _⟩

variable (h : Sound cfg s)
include h

/-- Rows that differ in pins and last use only keep their bytes and URIs. -/
theorem Sound.moved (hbytes : s'.cachedBytes = s.cachedBytes)
    (hentries : ∀ i, ∃ pins lastUsed, s'.entries i = { s.entries i with pins, lastUsed })
    (hpins : ∀ i, (s'.entries i).pins = tally (names i (s.entries i).generation) s'.borrows)
    (hlive : ∀ k, (s'.borrows k).active = true → ∃ i : Fin n, (s'.borrows k).entryIndex = i ∧
      (s.entries i).occupied = true ∧ (s.entries i).generation = (s'.borrows k).entryGeneration)
    (hactive : s'.activeBorrows = tally Borrow.active s'.borrows) : Sound cfg s' := by
  have hweight : total bytesOf s'.entries = total bytesOf s.entries := by
    refine total_congr fun i => ?_
    obtain ⟨pins, lastUsed, heq⟩ := hentries i
    simp [heq, bytesOf]
  constructor
  · intro i
    obtain ⟨pins, lastUsed, heq⟩ := hentries i
    rw [hpins, heq]
  · intro k hk
    obtain ⟨i, hi, hlive⟩ := hlive k hk
    obtain ⟨pins, lastUsed, heq⟩ := hentries i
    exact ⟨i, hi, by rw [heq]; exact hlive⟩
  · exact hactive
  · rw [hbytes, hweight]
    exact h.bytes
  · rw [hbytes]
    exact h.bound
  · intro i j hi hj huri
    obtain ⟨pins, lastUsed, heq⟩ := hentries i
    obtain ⟨pins', lastUsed', heq'⟩ := hentries j
    rw [heq] at hi huri
    rw [heq'] at hj huri
    exact h.uris i j hi hj huri

theorem Sound.congr (hborrows : s'.borrows = s.borrows)
    (hactive : s'.activeBorrows = s.activeBorrows) (hbytes : s'.cachedBytes = s.cachedBytes)
    (hentries : ∀ i, ∃ lastUsed, s'.entries i = { s.entries i with lastUsed }) : Sound cfg s' := by
  refine h.moved hbytes (fun i => ?_) (fun i => ?_) (hborrows ▸ h.live) ?_
  · obtain ⟨lastUsed, heq⟩ := hentries i
    exact ⟨(s.entries i).pins, lastUsed, heq⟩
  · obtain ⟨lastUsed, heq⟩ := hentries i
    rw [heq, hborrows]
    exact h.pins i
  · rw [hactive, hborrows]
    exact h.active

/-- **A write of a borrow row**, the pins following it. -/
theorem Sound.write {b : Borrow} (hbytes : s'.cachedBytes = s.cachedBytes)
    (hborrows : s'.borrows = update s.borrows k b)
    (hentries : ∀ i, ∃ pins lastUsed, s'.entries i = { s.entries i with pins, lastUsed })
    (hpins : ∀ j, (s'.entries j).pins + (names j (s.entries j).generation (s.borrows k)).toNat
      = (s.entries j).pins + (names j (s.entries j).generation b).toNat)
    (hlive : b.active = true → ∃ i : Fin n, b.entryIndex = i ∧ (s.entries i).occupied = true ∧
      (s.entries i).generation = b.entryGeneration)
    (hactive : s'.activeBorrows + (s.borrows k).active.toNat
      = s.activeBorrows + b.active.toNat) : Sound cfg s' := by
  refine h.moved hbytes hentries (fun j => ?_) (fun k' hk' => ?_) ?_
  · have hwrite := tally_update (names j (s.entries j).generation) s.borrows k b
    have hold := h.pins j
    have hnew := hpins j
    rw [hborrows]
    omega
  · rw [hborrows] at hk' ⊢
    by_cases hsame : k' = k
    · subst hsame
      rw [update_self] at hk' ⊢
      exact hlive hk'
    · rw [update_of_ne hsame] at hk' ⊢
      exact h.live k' hk'
  · have hwrite := tally_update Borrow.active s.borrows k b
    have hold := h.active
    rw [hborrows]
    omega

theorem Sound.touch (i : Fin n) : Sound cfg (s.touch i) := by
  refine h.congr rfl rfl rfl fun j => ?_
  by_cases hj : j = i
  · subst hj
    exact ⟨s.clock + 1, by simp [Store.touch]⟩
  · exact ⟨(s.entries j).lastUsed, by simp [Store.touch, hj]⟩

theorem Sound.counters (hits misses : ℕ) : Sound cfg { s with hits, misses } :=
  h.congr rfl rfl rfl fun i => ⟨(s.entries i).lastUsed, rfl⟩

variable {canonical : Text} {source : List UInt8} {program : P}

/-- **Publication** fills an empty row. -/
theorem Sound.publish (hempty : (s.entries i).occupied = false)
    (hroom : s.cachedBytes + Config.allocationSize canonical source ≤ cfg.maxCacheBytes)
    (hfresh : ∀ j, (s.entries j).occupied = true → (s.entries j).uri ≠ canonical) :
    Sound cfg (s.publish i canonical source program) := by
  have hnamed : ∀ k, (s.borrows k).active = true → (s.borrows k).entryIndex ≠ i := fun k hk =>
    h.not_named (h.unpinned hempty) hk
  constructor
  · intro j
    by_cases hj : j = i
    · subst hj
      have hzero : tally (names j (nextGeneration (s.entries j).generation)) s.borrows = 0 := by
        refine tally_eq_zero fun k => ?_
        by_contra hnames
        simp only [names, Bool.not_eq_false, Bool.and_eq_true, beq_iff_eq] at hnames
        exact hnamed k hnames.1.1 hnames.1.2
      simp [Store.publish, hzero]
    · simpa [Store.publish, hj] using h.pins j
  · intro k hk
    obtain ⟨i', hi', hlive⟩ := h.live k hk
    have hne : i' ≠ i := by
      rintro rfl
      exact hnamed k hk hi'
    exact ⟨i', hi', by simpa [Store.publish, hne] using hlive⟩
  · exact h.active
  · have htotal := total_update bytesOf s.entries i
      { generation := nextGeneration (s.entries i).generation
        occupied := true
        pins := 0
        lastUsed := s.clock + 1
        allocationSize := Config.allocationSize canonical source
        uri := canonical
        source
        program := some program }
    have hold : bytesOf (s.entries i) = 0 := by simp [bytesOf, hempty]
    rw [hold] at htotal
    have hbytes := h.bytes
    simp only [bytesOf, if_true, Nat.add_zero] at htotal
    simp only [Store.publish]
    rw [htotal, hbytes]
  · exact hroom
  · intro j j' hj hj' huri
    by_cases hji : j = i <;> by_cases hji' : j' = i
    · rw [hji, hji']
    · subst hji
      simp only [Store.publish, update_self, update_of_ne hji'] at hj' huri
      exact absurd huri.symm (hfresh j' hj')
    · subst hji'
      simp only [Store.publish, update_self, update_of_ne hji] at hj huri
      exact absurd huri (hfresh j hj)
    · simp only [Store.publish, update_of_ne hji, update_of_ne hji'] at hj hj' huri
      exact h.uris j j' hj hj' huri

/-- **A borrow.** -/
theorem Sound.activate (hoccupied : (s.entries i).occupied = true)
    (hk : (s.borrows k).active = false) : Sound cfg (s.activate i k) := by
  refine h.write rfl rfl (fun j => ?_) (fun j => ?_) (fun _ => ⟨i, rfl, hoccupied, rfl⟩)
    (by simp [Store.activate, hk])
  · exact update_pins s i _ _ j
  · have hold : names j (s.entries j).generation (s.borrows k) = false := by simp [names, hk]
    by_cases hj : j = i
    · subst hj
      rw [hold]
      simp [Store.activate, names]
    · have hval : (i : ℕ) ≠ j := fun heq => hj (Fin.ext heq.symm)
      rw [hold]
      simp [Store.activate, hj, names, hval]

/-- **A release.** -/
theorem Sound.deactivate (hk : (s.borrows k).active = true) (hindex : (s.borrows k).entryIndex = i)
    (hgeneration : (s.entries i).generation = (s.borrows k).entryGeneration) :
    Sound cfg (s.deactivate i k) := by
  have hnames : names i (s.entries i).generation (s.borrows k) = true := by
    simp [names, hk, hindex, hgeneration]
  refine h.write rfl rfl (fun j => ?_) (fun j => ?_) (fun hactive => by cases hactive) ?_
  · exact update_pins s i _ _ j
  · by_cases hj : j = i
    · subst hj
      -- the pin of the row is counted
      have hpos := tally_pos (p := names j (s.entries j).generation) (t := s.borrows) hnames
      rw [← h.pins j] at hpos
      simp only [Store.deactivate, update_self, hnames, Bool.toNat_true]
      simp only [names, Bool.false_and, Bool.toNat_false]
      omega
    · have hval : (i : ℕ) ≠ j := fun heq => hj (Fin.ext heq.symm)
      simp [Store.deactivate, hj, names, hindex, hval]
  · have hpos := tally_pos (p := Borrow.active) (t := s.borrows) hk
    rw [← h.active] at hpos
    simp only [Store.deactivate, hk, Bool.toNat_true, Bool.toNat_false]
    rw [if_pos (by omega)]
    omega

omit h

/-! ## Acquiring a document -/

theorem SameDocument.refl (e : Entry P) : SameDocument e e := ⟨rfl, rfl, rfl, rfl, rfl⟩

structure Advances (cfg : Config) (s s' : Store P n) : Prop where
  sound : Sound cfg s'
  borrows : s'.borrows = s.borrows ∨ ∃ k b, (s.borrows k).active = false ∧
    b.generation = nextGeneration (s.borrows k).generation ∧ s'.borrows = update s.borrows k b
  pinned : ∀ i, (s.entries i).pins ≠ 0 → SameDocument (s.entries i) (s'.entries i)

theorem Sound.advances (h : Sound cfg s) : Advances cfg s s :=
  ⟨h, .inl rfl, fun i _ => .refl (s.entries i)⟩

theorem update_same (s : Store P n) (i : Fin n) (pins lastUsed : ℕ) (j : Fin n) :
    SameDocument (s.entries j) (update s.entries i { s.entries i with pins, lastUsed } j) := by
  obtain ⟨pins', lastUsed', heq⟩ := update_pins s i pins lastUsed j
  rw [heq]
  exact ⟨rfl, rfl, rfl, rfl, rfl⟩

theorem SameDocument.trans {e e' e'' : Entry P} (h : SameDocument e e') (h' : SameDocument e' e'') :
    SameDocument e e'' :=
  ⟨h'.occupied.trans h.occupied, h'.generation.trans h.generation, h'.uri.trans h.uri,
    h'.source.trans h.source, h'.program.trans h.program⟩

theorem allocateBorrow_ok {r : Store P n × Ref} (h : s.allocateBorrow i = .ok r) :
    ∃ k, (s.entries i).occupied = true ∧ (s.borrows k).active = false ∧
      r = (s.activate i k, s.refOf i k) := by
  unfold allocateBorrow at h
  split_ifs at h with hempty
  cases hfind : Fin.find? fun k => !(s.borrows k).active with
  | none =>
    rw [hfind] at h
    cases h
  | some k =>
    rw [hfind] at h
    cases h
    exact ⟨k, by simpa using hempty, by simpa using (Fin.find?_eq_some_iff.mp hfind).1, rfl⟩

theorem Sound.hit (h : Sound cfg s) (i : Fin n) : Advances cfg s (s.hit i).1 := by
  unfold Store.hit
  cases hborrow : s.allocateBorrow i with
  | error status => exact h.advances
  | ok r =>
    obtain ⟨k, hoccupied, hk, rfl⟩ := allocateBorrow_ok hborrow
    have hsound := (h.activate hoccupied hk).touch i
    refine ⟨hsound.counters _ _, .inr ⟨k, _, hk, rfl, rfl⟩, fun j _ => ?_⟩
    exact (update_same s i _ _ j).trans (update_same (s.activate i k) i _ _ j)

/-- **Insertion.** -/
theorem Sound.insert (h : Sound cfg s)
    (hfresh : ∀ j, (s.entries j).occupied = true → (s.entries j).uri ≠ canonical) :
    Advances cfg s (s.insert cfg canonical source program).1 := by
  obtain ⟨hsound, htrimmed, hslot⟩ := makeRoom_spec cfg.maxCacheBytes
    (Config.allocationSize canonical source) h
  unfold Store.insert
  cases hroom : s.makeRoom cfg.maxCacheBytes (Config.allocationSize canonical source) with
  | mk s' slot =>
    rw [hroom] at hsound htrimmed hslot
    dsimp only at hsound htrimmed hslot
    have hpinned : ∀ j, (s.entries j).pins ≠ 0 → s'.entries j = s.entries j := fun j hj =>
      htrimmed.eq_of_pinned hj
    cases slot with
    | none => exact ⟨hsound, .inl htrimmed.borrows, fun j hj => by rw [hpinned j hj]; exact .refl _⟩
    | some i =>
      obtain ⟨hempty, hbytes⟩ := hslot i rfl
      have hpublished : Sound cfg (s'.publish i canonical source program) := by
        refine hsound.publish hempty hbytes fun j hj => ?_
        have hsame := htrimmed.eq_of_occupied hj
        rw [hsame] at hj ⊢
        exact hfresh j hj
      -- the row of the new document was not pinned
      have hsame : ∀ j, (s.entries j).pins ≠ 0 →
          SameDocument (s.entries j) ((s'.publish i canonical source program).entries j) := by
        intro j hj
        have hne : j ≠ i := by
          rintro rfl
          rw [hpinned j hj] at hempty
          exact hj (h.unpinned hempty)
        simpa [Store.publish, hne, hpinned j hj] using SameDocument.refl (s.entries j)
      dsimp only
      cases hborrow : (s'.publish i canonical source program).allocateBorrow i with
      | error status =>
        refine ⟨hpublished.evict i, .inl ?_, fun j hj => ?_⟩
        · exact ((evict_trimmed _ i).borrows).trans htrimmed.borrows
        · have hne : j ≠ i := by
            rintro rfl
            rw [hpinned j hj] at hempty
            exact hj (h.unpinned hempty)
          have hkept : ((s'.publish i canonical source program).evict i).entries j
              = (s'.publish i canonical source program).entries j := by
            unfold Store.evict
            split_ifs <;> simp [hne]
          rw [hkept]
          exact hsame j hj
      | ok r =>
        obtain ⟨k, hoccupied, hk, rfl⟩ := allocateBorrow_ok hborrow
        have hborrows : (s'.publish i canonical source program).borrows = s.borrows :=
          htrimmed.borrows
        have hactivated : ((s'.publish i canonical source program).activate i k).borrows
            = update s.borrows k ⟨true, nextGeneration (s.borrows k).generation, i,
              ((s'.publish i canonical source program).entries i).generation⟩ := by
          simp only [Store.activate, hborrows]
        rw [hborrows] at hk
        exact ⟨hpublished.activate hoccupied (by rw [hborrows]; exact hk),
          .inr ⟨k, _, hk, rfl, hactivated⟩,
          fun j hj => (hsame j hj).trans (update_same _ i _ _ j)⟩

theorem findEntry_eq_none (h : s.findEntry canonical = none) (j : Fin n)
    (hj : (s.entries j).occupied = true) : (s.entries j).uri ≠ canonical := by
  have hj' := Fin.find?_eq_none_iff.mp h j
  simpa [hj] using hj'

/-- **A call of `acquire`.** -/
theorem Sound.acquire (h : Sound cfg s) (uri : Text) (policy : Option FetchPolicy)
    (answers : Answers P) : Advances cfg s (s.acquire cfg uri policy answers).1 := by
  unfold Store.acquire
  split_ifs
  · exact h.advances
  · exact h.advances
  · exact h.advances
  · exact h.advances
  cases normalizeAbsoluteUri cfg.maxUriBytes uri with
  | none => exact h.advances
  | some canonical =>
    dsimp only
    cases hfind : s.findEntry canonical with
    | some i => exact h.hit i
    | none =>
      have hmissed := h.counters s.hits (s.misses + 1)
      have hsame : Advances cfg s { s with misses := s.misses + 1 } :=
        ⟨hmissed, .inl rfl, fun j _ => .refl (s.entries j)⟩
      unfold Store.miss
      dsimp only
      split_ifs
      · exact hsame
      cases cfg.load canonical policy answers with
      | error failure => exact hsame
      | ok r =>
        have hinsert : Advances cfg { s with misses := s.misses + 1 }
            (Store.insert cfg { s with misses := s.misses + 1 } canonical r.1 r.2).1 :=
          hmissed.insert (findEntry_eq_none hfind)
        exact ⟨hinsert.sound, hinsert.borrows, hinsert.pinned⟩

/-! ## References -/

theorem borrowFromRef_eq_some (h : s.borrowFromRef ref = some k) :
    ref.borrowSlot = k + 1 ∧ (s.borrows k).active = true ∧
      (s.borrows k).generation = ref.borrowGeneration ∧
      (s.borrows k).entryIndex + 1 = ref.slot ∧
      (s.borrows k).entryGeneration = ref.generation := by
  unfold borrowFromRef at h
  dsimp only at h
  split_ifs at h with hrange hmatch
  cases h
  push Not at hrange
  exact ⟨(Nat.sub_add_cancel (Nat.pos_of_ne_zero hrange.1)).symm, hmatch⟩

theorem entryFromRef_eq_some (h : s.entryFromRef ref = some i) :
    ∃ k, s.borrowFromRef ref = some k ∧ (s.entries i).occupied = true ∧
      (s.entries i).generation = (s.borrows k).entryGeneration ∧ (s.borrows k).entryIndex = i := by
  unfold entryFromRef at h
  cases hborrow : s.borrowFromRef ref with
  | none =>
    rw [hborrow] at h
    cases h
  | some k =>
    rw [hborrow] at h
    dsimp only at h
    split_ifs at h with hrange hmatch
    cases h
    exact ⟨k, rfl, hmatch.1, hmatch.2.1.trans (borrowFromRef_eq_some hborrow).2.2.2.2.symm,
      hmatch.2.2⟩

def Spent (s : Store P n) (ref : Ref) : Prop :=
  ∀ k : Fin n, ref.borrowSlot = k + 1 → ref.borrowGeneration ≤ (s.borrows k).generation ∧
    ((s.borrows k).active = true → ref.borrowGeneration < (s.borrows k).generation)

theorem Spent.borrowFromRef_eq_none (h : Spent s ref) : s.borrowFromRef ref = none := by
  cases hborrow : s.borrowFromRef ref with
  | none => rfl
  | some k =>
    obtain ⟨hslot, hactive, hgeneration, -⟩ := borrowFromRef_eq_some hborrow
    exact absurd ((h k hslot).2 hactive) (by rw [hgeneration]; exact Nat.lt_irrefl _)

theorem Spent.stale (h : Spent s ref) :
    s.view ref = .error .stale ∧ s.release ref = (s, .stale) := by
  have hborrow := h.borrowFromRef_eq_none
  have hentry : s.entryFromRef ref = none := by simp only [entryFromRef, hborrow]
  exact ⟨by simp only [view, hentry], by simp only [Store.release, hborrow]⟩

theorem Spent.of_borrows (h : Spent s ref) (hborrows : s'.borrows = s.borrows) : Spent s' ref := by
  intro k hk
  rw [hborrows]
  exact h k hk

theorem Spent.acquire (h : Spent s ref) (hadvances : Advances cfg s s')
    (hwraps : System.wraps s s' = false) : Spent s' ref := by
  rcases hadvances.borrows with hsame | ⟨k, b, hk, hgeneration, hborrows⟩
  · exact h.of_borrows hsame
  · intro k' hk'
    obtain ⟨hle, hlt⟩ := h k' hk'
    by_cases hkk : k' = k
    · subst hkk
      have hup : ¬ (s'.borrows k').generation < (s.borrows k').generation := by
        intro hdown
        have hany : System.wraps s s' = true := by
          simp only [System.wraps, List.any_eq_true, decide_eq_true_eq]
          exact ⟨k', List.mem_finRange k', hdown⟩
        rw [hwraps] at hany
        cases hany
      have hnext : (s'.borrows k').generation = nextGeneration (s.borrows k').generation := by
        rw [hborrows, update_self, hgeneration]
      rw [hnext] at hup ⊢
      unfold nextGeneration at hup ⊢
      split_ifs at hup ⊢ with hmax
      · rw [hmax] at hup
        exact absurd (by decide) hup
      · exact ⟨by omega, fun _ => by omega⟩
    · rw [hborrows, update_of_ne hkk]
      exact ⟨hle, hlt⟩

/-! ## Release, clear and destroy -/

theorem release_cases (s : Store P n) (ref : Ref) : s.release ref = (s, .stale) ∨
    ∃ i k : Fin n, s.borrowFromRef ref = some k ∧ (s.borrows k).entryIndex = i ∧
      (s.entries i).generation = (s.borrows k).entryGeneration ∧
      s.release ref = (s.deactivate i k, .ok) := by
  unfold Store.release
  cases hborrow : s.borrowFromRef ref with
  | none => exact .inl rfl
  | some k =>
    cases hentry : s.entryFromRef ref with
    | none => exact .inl rfl
    | some i =>
      obtain ⟨k', hk', -, hgeneration, hindex⟩ := entryFromRef_eq_some hentry
      rw [hborrow] at hk'
      cases hk'
      dsimp only
      split_ifs
      · exact .inl rfl
      · exact .inr ⟨i, k, rfl, hindex, hgeneration, rfl⟩

/-- **A call of `release`.** -/
theorem Sound.release (h : Sound cfg s) (ref : Ref) :
    Sound cfg (s.release ref).1 ∧
      ∀ i, SameDocument (s.entries i) ((s.release ref).1.entries i) := by
  rcases release_cases s ref with heq | ⟨i, k, hborrow, hindex, hgeneration, heq⟩
  · rw [heq]
    exact ⟨h, fun i => .refl _⟩
  · rw [heq]
    exact ⟨h.deactivate (borrowFromRef_eq_some hborrow).2.1 hindex hgeneration,
      update_same s i _ _⟩

theorem Spent.release (h : Spent s ref) (other : Ref) : Spent (s.release other).1 ref := by
  rcases release_cases s other with heq | ⟨i, k, -, -, -, heq⟩
  · rw [heq]
    exact h
  · rw [heq]
    intro k' hk'
    obtain ⟨hle, hlt⟩ := h k' hk'
    by_cases hkk : k' = k
    · subst hkk
      simpa [Store.deactivate] using hle
    · simpa [Store.deactivate, hkk] using ⟨hle, hlt⟩

/-- **A released reference** is spent. -/
theorem spent_of_release (h : (s.release ref).2 = .ok) : Spent (s.release ref).1 ref := by
  rcases release_cases s ref with heq | ⟨i, k, hborrow, -, -, heq⟩
  · rw [heq] at h
    cases h
  · obtain ⟨hslot, -, hgeneration, -⟩ := borrowFromRef_eq_some hborrow
    rw [heq]
    intro k' hk'
    obtain rfl : k' = k := Fin.ext (by omega)
    simp [Store.deactivate, hgeneration]

/-- **A call of `clear`.** -/
theorem Sound.clear (h : Sound cfg s) : Sound cfg s.clear.1 ∧ Trimmed s s.clear.1 := by
  refine sweep_induction (fun _ (r : Store P n × Status) => Sound cfg r.1 ∧ Trimmed s r.1)
    ⟨h, .refl s⟩ ?_
  rintro i ⟨s', status⟩ ⟨hsound, htrimmed⟩
  dsimp only
  split_ifs
  · exact ⟨hsound, htrimmed⟩
  · exact ⟨hsound, htrimmed⟩
  · exact ⟨hsound.evict i, htrimmed.trans (evict_trimmed s' i)⟩

theorem init_sound : Sound cfg (Store.init P n) where
  pins := fun i => by
    have hzero : tally (names i 0) (Store.init P n).borrows = 0 :=
      tally_eq_zero fun k => by simp [Store.init, names]
    simpa [Store.init, Entry.empty] using hzero.symm
  live := fun k hk => by cases hk
  active := by
    have hzero : tally Borrow.active (Store.init P n).borrows = 0 := tally_eq_zero fun _ => rfl
    exact hzero.symm
  bytes := by
    have hzero : total bytesOf (Store.init P n).entries = 0 := by
      simp [total, Store.init, bytesOf, Entry.empty]
    exact hzero.symm
  bound := Nat.zero_le _
  uris := fun i j hi => by cases hi

theorem Sound.active_ne_zero (h : Sound cfg s) (hi : (s.entries i).pins ≠ 0) :
    s.activeBorrows ≠ 0 := by
  intro hzero
  have hnone := eq_false_of_tally_eq_zero (h.active.symm.trans hzero)
  refine hi ?_
  rw [h.pins i]
  exact tally_eq_zero fun k => by simp [names, hnone k]

end Store

/-! ## Every state -/

namespace System

open Store

variable {P : Type} {n : ℕ} {cfg : Config} {s s' : System P n} {st : Store P n}

structure Sound (cfg : Config) (s : System P n) : Prop where
  store : ∀ st, s.store = some st → Store.Sound cfg st
  released : ∀ st, s.store = some st → s.wrapped = false → ∀ ref ∈ s.released, Spent st ref

variable {a : Action P}

/-- **One call.** -/
theorem Sound.step (h : Sound cfg s) (hstep : step cfg s a = some s') : Sound cfg s' := by
  cases a with
  | acquire uri policy answers =>
    obtain ⟨st, hst, rfl⟩ := Option.map_eq_some_iff.mp hstep
    have hadvances := (h.store st hst).acquire uri policy answers
    constructor
    · rintro _ ⟨⟩
      exact hadvances.sound
    · rintro _ ⟨⟩ hwrapped ref href
      obtain ⟨hbefore, hwraps⟩ := Bool.or_eq_false_iff.mp hwrapped
      exact (h.released st hst hbefore ref href).acquire hadvances hwraps
  | view ref =>
    cases hstep
    exact h
  | release ref =>
    obtain ⟨st, hst, rfl⟩ := Option.map_eq_some_iff.mp hstep
    constructor
    · rintro _ ⟨⟩
      exact ((h.store st hst).release ref).1
    · rintro _ ⟨⟩ hwrapped other hother
      have hold : other ∈ s.released → Spent (st.release ref).1 other := fun hmem =>
        (h.released st hst hwrapped other hmem).release ref
      unfold System.release at hother
      dsimp only at hother
      split_ifs at hother with hok
      · rcases List.mem_cons.mp hother with rfl | hmem
        · exact spent_of_release hok
        · exact hold hmem
      · exact hold hother
  | clear =>
    obtain ⟨st, hst, rfl⟩ := Option.map_eq_some_iff.mp hstep
    obtain ⟨hsound, htrimmed⟩ := (h.store st hst).clear
    constructor
    · rintro _ ⟨⟩
      exact hsound
    · rintro _ ⟨⟩ hwrapped ref href
      exact (h.released st hst hwrapped ref href).of_borrows htrimmed.borrows
  | destroy =>
    obtain ⟨st, hst, rfl⟩ := Option.map_eq_some_iff.mp hstep
    have hstore : ∀ st', (st.destroy).1 = some st' → st' = st := by
      intro st' hst'
      unfold Store.destroy at hst'
      split_ifs at hst'
      exact (Option.some.inj hst').symm
    constructor
    · intro st' hst'
      rw [hstore st' hst']
      exact h.store st hst
    · intro st' hst' hwrapped ref href
      rw [hstore st' hst']
      exact h.released st hst hwrapped ref href

theorem Reachable.sound (h : Reachable cfg s) : Sound cfg s := by
  refine Machine.Reachable.invariant ?_ (fun _ _ _ hs hstep => hs.step hstep) h
  rintro _ rfl
  constructor
  · rintro _ ⟨⟩
    exact init_sound
  · intro st hst hwrapped ref href
    cases href

/-- **A pinned entry** keeps its document. -/
theorem Sound.pinned (h : Sound cfg s) (hst : s.store = some st)
    (hstep : System.step cfg s a = some s') (i : Fin n) (hi : (st.entries i).pins ≠ 0) :
    ∃ st', s'.store = some st' ∧ SameDocument (st.entries i) (st'.entries i) := by
  have hsound := h.store st hst
  cases a with
  | acquire uri policy answers =>
    simp only [System.step, hst, Option.map_some, Option.some.injEq] at hstep
    subst hstep
    exact ⟨_, rfl, (hsound.acquire uri policy answers).pinned i hi⟩
  | view ref =>
    cases hstep
    exact ⟨st, hst, .refl _⟩
  | release ref =>
    simp only [System.step, hst, Option.map_some, Option.some.injEq] at hstep
    subst hstep
    exact ⟨_, rfl, (hsound.release ref).2 i⟩
  | clear =>
    simp only [System.step, hst, Option.map_some, Option.some.injEq] at hstep
    subst hstep
    refine ⟨_, rfl, ?_⟩
    rw [hsound.clear.2.eq_of_pinned hi]
    exact .refl _
  | destroy =>
    simp only [System.step, hst, Option.map_some, Option.some.injEq] at hstep
    subst hstep
    refine ⟨st, ?_, .refl _⟩
    simp only [Store.destroy, if_pos (hsound.active_ne_zero hi)]

/-- **Main.** In every reachable state pins, borrows, bytes and URIs agree, every call keeps the
pinned documents, and a released reference is stale. -/
theorem reachable_borrows (h : Reachable cfg s) (hst : s.store = some st) :
    Store.Sound cfg st ∧ st.activeBorrows ≤ n ∧
      (∀ a s', step cfg s a = some s' → ∀ i, (st.entries i).pins ≠ 0 →
        ∃ st', s'.store = some st' ∧ SameDocument (st.entries i) (st'.entries i)) ∧
      (s.wrapped = false → ∀ ref ∈ s.released,
        st.view ref = .error .stale ∧ st.release ref = (st, .stale)) := by
  have hsound := h.sound
  have hstore := hsound.store st hst
  refine ⟨hstore, ?_, fun a s' hstep => hsound.pinned hst hstep, fun hwrapped ref href =>
    (hsound.released st hst hwrapped ref href).stale⟩
  rw [hstore.active]
  exact tally_le _ _

/-! ## A sample run -/

def storeConfig : Config where
  maxUriBytes := 16
  maxDocumentBytes := 4
  maxCacheBytes := 32
  openWithPolicy := false
  fetchAudioEnabled := false
  policySize := 1
  fetchaudioFlagTail := 2
  fetchaudioTail := 3

def oneByte : Answers Unit where
  canonicalAllocated := true
  audio := .other
  openStatus := .ok
  document := .bytes [0]
  copyAllocated := true
  compileStatus := .ok
  program := some ()
  diagnostic := .ok

def sharedState : System Unit 2 :=
  (Machine.exec (step storeConfig) (init Unit 2)
    [.acquire "http://h/a".toList none oneByte, .acquire "http://h/./a".toList none oneByte,
      .release ⟨1, 1, 1, 1⟩, .release ⟨1, 1, 1, 1⟩]).get rfl

def sharedStore : Store Unit 2 := sharedState.store.get rfl

theorem sharedStore_borrows : sharedStore.activeBorrows = 1 ∧
    sharedStore.view ⟨1, 1, 1, 1⟩ = .error .stale := by
  have hinit : Reachable storeConfig (init Unit 2) := .of_init rfl
  have hreachable : Reachable storeConfig sharedState :=
    hinit.runs (Machine.exec_runs (Option.some_get _).symm)
  obtain ⟨-, -, -, hreleased⟩ := reachable_borrows hreachable (Option.some_get _).symm
  exact ⟨by decide, (hreleased (by decide) ⟨1, 1, 1, 1⟩ (by decide)).1⟩

end System

end DocumentStore

end TurboScxml.Voice
