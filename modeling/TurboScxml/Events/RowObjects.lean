import TurboScxml.Events.RowUse

/-!
# Tickets and objects

* `Ticketed`: the staged rows are those of the tickets;
* `Objects`: each constructed object is in one live storage or was destroyed once, under a schema of
  its own type.
-/

namespace TurboScxml.Events

open Function Parties Tokens

variable {S T K V ι : Type} {n : ℕ} {P : Program S T K} {rows : Fin n → Row S T V}
  {use : Fin n → RowUse ι} {r : Fin n} {row : Row S T V} {u : RowUse ι}

/-! ## Tickets -/

structure Ticketed (staged : List (Ticket n)) (rows : Fin n → Row S T V)
    (use : Fin n → RowUse ι) : Prop where
  nodup : (staged.map Ticket.row).Nodup
  marked : ∀ t ∈ staged, use t.row = .other .staged ∧ (rows t.row).token = t.token
  tickets : ∀ r, use r = .other .staged → r ∈ staged.map Ticket.row

namespace Ticketed

variable {staged : List (Ticket n)} {t : Ticket n}

theorem nil (h : ∀ r, use r ≠ .other .staged) : Ticketed [] rows use :=
  ⟨List.nodup_nil, by simp, fun r hr => absurd hr (h r)⟩

theorem none_staged (h : Ticketed [] rows use) (r : Fin n) : use r ≠ .other .staged :=
  fun hr => by simpa using h.tickets r hr

theorem frame (h : Ticketed staged rows use) (hr : use r ≠ .other .staged)
    (hu : u ≠ .other .staged) : Ticketed staged (update rows r row) (update use r u) := by
  refine ⟨h.nodup, fun t ht => ?_, fun q hq => ?_⟩
  · obtain ⟨huse, htoken⟩ := h.marked t ht
    have hne : t.row ≠ r := fun heq => hr (heq ▸ huse)
    rw [update_of_ne hne, update_of_ne hne]
    exact ⟨huse, htoken⟩
  · by_cases hqr : q = r
    · rw [hqr, update_self] at hq
      exact absurd hq hu
    · rw [update_of_ne hqr] at hq
      exact h.tickets q hq

theorem rename (h : Ticketed staged rows use) (hr : use r ≠ .other .staged)
    (hu : u ≠ .other .staged) : Ticketed staged rows (update use r u) := by
  have hwritten : Ticketed staged (update rows r (rows r)) (update use r u) := h.frame hr hu
  rwa [update_eq_self] at hwritten

theorem push (h : Ticketed staged rows use) (hr : use t.row ≠ .other .staged)
    (htoken : (rows t.row).token = t.token) :
    Ticketed (staged ++ [t]) rows (update use t.row (.other .staged)) := by
  have hnew : t.row ∉ staged.map Ticket.row := by
    intro hmem
    obtain ⟨t', ht', heq⟩ := List.mem_map.mp hmem
    exact hr (heq ▸ (h.marked t' ht').1)
  refine ⟨?_, fun t' ht' => ?_, fun q hq => ?_⟩
  · rw [List.map_append]
    exact List.nodup_append'.mpr ⟨h.nodup, List.nodup_singleton _,
      List.disjoint_singleton.mpr hnew⟩
  · rcases List.mem_append.mp ht' with ht' | ht'
    · obtain ⟨huse, htoken'⟩ := h.marked t' ht'
      have hne : t'.row ≠ t.row := fun heq => hr (heq ▸ huse)
      rw [update_of_ne hne]
      exact ⟨huse, htoken'⟩
    · rw [List.mem_singleton.mp ht', update_self]
      exact ⟨rfl, htoken⟩
  · rw [List.map_append]
    by_cases hqr : q = t.row
    · simp [hqr]
    · rw [update_of_ne hqr] at hq
      exact List.mem_append_left _ (h.tickets q hq)

theorem pop (h : Ticketed (t :: staged) rows use) (hu : u ≠ .other .staged) :
    Ticketed staged rows (update use t.row u) := by
  have hnodup : t.row ∉ staged.map Ticket.row ∧ (staged.map Ticket.row).Nodup :=
    List.nodup_cons.mp h.nodup
  refine ⟨hnodup.2, fun t' ht' => ?_, fun q hq => ?_⟩
  · have hne : t'.row ≠ t.row := fun heq =>
      hnodup.1 (heq ▸ List.mem_map_of_mem ht')
    rw [update_of_ne hne]
    exact h.marked t' (List.mem_cons_of_mem _ ht')
  · by_cases hqr : q = t.row
    · rw [hqr, update_self] at hq
      exact absurd hq hu
    · rw [update_of_ne hqr] at hq
      rcases List.mem_cons.mp (h.tickets q hq) with heq | hmem
      · exact absurd heq hqr
      · exact hmem

end Ticketed

/-! ## Objects -/

def Row.object (row : Row S T V) : RowUse ι → Option ℕ
  | .held _ .drained => none
  | _ => if row.dataObjectLive then row.dataObject.map Object.number else none

theorem Row.object_filling {w : Option ι} : row.object (.held w .filling) =
    if row.dataObjectLive then row.dataObject.map Object.number else none := rfl

theorem Row.object_other {x : Purpose} : row.object (.other x : RowUse ι) =
    if row.dataObjectLive then row.dataObject.map Object.number else none := rfl

def Current.object (c : Current S T V) : Option ℕ :=
  if c.dataObjectLive then c.dataObject.map Object.number else none

/-- The storages with their objects. -/
def storages (rows : Fin n → Row S T V) (use : Fin n → RowUse ι) (c : Current S T V) :
    Option (Fin n) → Option ℕ
  | none => c.object
  | some r => (rows r).object (use r)

def Ledger.numbers (ledger : Ledger S T V) : List ℕ :=
  ledger.destroyed.filterMap fun d => d.1.map Object.number

/-- Each object is in one live storage or was destroyed once. -/
structure Objects (P : Program S T K) (rows : Fin n → Row S T V) (use : Fin n → RowUse ι)
    (c : Current S T V) (ledger : Ledger S T V) : Prop where
  custody : Custody ledger.constructed ledger.numbers (storages rows use c)
  housed : ∀ d ∈ ledger.destroyed, Housed P d.2 d.1
  current : c.dataObjectLive = true → Housed P c.dataSchema c.dataObject
  gone : ∀ r, (rows r).object (use r) = none → (rows r).dataObjectLive = true →
    ∀ object ∈ (rows r).dataObject, object.number ∈ ledger.numbers

variable {c c' : Current S T V} {ledger : Ledger S T V}

theorem storages_update_row :
    storages (update rows r row) (update use r u) c
      = update (storages rows use c) (some r) (row.object u) := by
  funext p
  cases p with
  | none => rw [update_of_ne (by simp)]; rfl
  | some q =>
    by_cases hq : q = r
    · simp [storages, hq]
    · rw [update_of_ne (by simpa using hq)]
      simp [storages, hq]

theorem storages_update_current :
    storages rows use c' = update (storages rows use c) none c'.object := by
  funext p
  cases p with
  | none => rw [update_self]; rfl
  | some q => rw [update_of_ne (by simp)]; rfl

theorem storages_congr {use' : Fin n → RowUse ι}
    (hsame : ∀ r, (rows r).object (use' r) = (rows r).object (use r)) :
    storages rows use' c = storages rows use c := by
  funext p
  cases p with
  | none => rfl
  | some q => exact hsame q

theorem Ledger.numbers_destroy {schema : Option S} {object : Option (Object T V)} :
    (ledger.destroy schema object).numbers
      = (object.map Object.number).toList ++ ledger.numbers := by
  cases object <;> rfl

namespace Objects

variable (h : Objects P rows use c ledger)
include h

theorem write (hsame : row.object u = (rows r).object (use r))
    (hlive : row.object u = none → row.dataObjectLive = false) :
    Objects P (update rows r row) (update use r u) c ledger := by
  refine ⟨storages_update_row ▸ h.custody.stay hsame, h.housed, h.current, fun q => ?_⟩
  by_cases hqr : q = r
  · subst hqr
    rw [update_self, update_self]
    exact fun hnone hl => absurd ((hlive hnone).symm.trans hl) (by simp)
  · rw [update_of_ne hqr, update_of_ne hqr]
    exact h.gone q

theorem relabel {use' : Fin n → RowUse ι}
    (hsame : ∀ r, (rows r).object (use' r) = (rows r).object (use r)) :
    Objects P rows use' c ledger :=
  ⟨(storages_congr (c := c) hsame).symm ▸ h.custody, h.housed, h.current, fun r => by
    rw [hsame r]
    exact h.gone r⟩

theorem rename (hsame : (rows r).object u = (rows r).object (use r)) :
    Objects P rows (update use r u) c ledger := by
  refine h.relabel fun q => ?_
  by_cases hqr : q = r
  · rw [hqr, update_self, hsame]
  · rw [update_of_ne hqr]

theorem construct (hold : (rows r).object (use r) = none)
    (hnew : row.object u = some ledger.constructed) :
    Objects P (update rows r row) (update use r u) c
      { ledger with constructed := ledger.constructed + 1 } := by
  refine ⟨?_, h.housed, h.current, fun q => ?_⟩
  · rw [storages_update_row, hnew]
    exact h.custody.acquire hold
  · by_cases hqr : q = r
    · subst hqr
      rw [update_self, update_self, hnew]
      intros; contradiction
    · rw [update_of_ne hqr, update_of_ne hqr]
      exact h.gone q

theorem destroy (hhoused : Housed P (rows r).dataSchema (rows r).dataObject)
    (hold : (rows r).object (use r) = (rows r).dataObject.map Object.number)
    (hnew : (rows r).object u = none) :
    Objects P rows (update use r u) c
      (ledger.destroy (rows r).dataSchema (rows r).dataObject) := by
  obtain ⟨s, o, hs, ho, htype⟩ := hhoused
  rw [ho] at hold
  rw [hs, ho]
  refine ⟨?_, fun d hd => ?_, h.current, fun q hnone hlive object hobject => ?_⟩
  · have hstorages : storages (update rows r (rows r)) (update use r u) c =
        update (storages rows use c) (some r) ((rows r).object u) := storages_update_row
    rw [update_eq_self, hnew] at hstorages
    rw [hstorages, Ledger.numbers_destroy]
    exact h.custody.release hold
  · rcases List.mem_cons.mp hd with rfl | hd
    · exact ⟨s, o, rfl, rfl, htype⟩
    · exact h.housed d hd
  · rw [Ledger.numbers_destroy]
    by_cases hqr : q = r
    · subst hqr
      obtain rfl := Option.some_inj.mp (ho.symm.trans hobject)
      exact List.mem_cons_self
    · rw [update_of_ne hqr] at hnone
      exact List.mem_append_right _ (h.gone q hnone hlive object hobject)

theorem setCurrent (hobject : c'.dataObject = c.dataObject)
    (hlive : c'.dataObjectLive = c.dataObjectLive)
    (hschema : c.dataObjectLive = true → c'.dataSchema = c.dataSchema) :
    Objects P rows use c' ledger := by
  refine ⟨?_, h.housed, fun hc => ?_, h.gone⟩
  · rw [storages_update_current (c := c)]
    exact h.custody.stay (by simp only [Current.object, hobject, hlive]; rfl)
  · rw [hlive] at hc
    rw [hobject, hschema hc]
    exact h.current hc

theorem clear : Objects P rows use (c.clear ledger).1 (c.clear ledger).2 := by
  cases hlive : c.dataObjectLive with
  | false =>
    simp only [Current.clear, hlive, Bool.false_eq_true, if_false]
    refine ⟨?_, h.housed, fun hc => (by cases hc), h.gone⟩
    rw [storages_update_current (c := c)]
    exact h.custody.stay (by simp [Current.object, storages, hlive])
  | true =>
    obtain ⟨s, o, hs, ho, htype⟩ := h.current hlive
    simp only [Current.clear, hlive, if_true]
    refine ⟨?_, fun d hd => ?_, fun hc => (by cases hc), fun r hnone hl object hobject => ?_⟩
    · rw [storages_update_current (c := c), Ledger.numbers_destroy, ho]
      exact h.custody.release (by simp [storages, Current.object, hlive, ho])
    · rcases List.mem_cons.mp hd with rfl | hd
      · exact ⟨s, o, hs, ho, htype⟩
      · exact h.housed d hd
    · rw [Ledger.numbers_destroy]
      exact List.mem_append_right _ (h.gone r hnone hl object hobject)

theorem copy (hold : c.object = none) {schema : S} {value : V} : Objects P rows use
      (c.showObject (some schema) ⟨ledger.constructed, P.storageType schema, value⟩)
      { ledger with constructed := ledger.constructed + 1 } := by
  refine ⟨?_, h.housed, fun _ => ⟨schema, _, rfl, rfl, rfl⟩, h.gone⟩
  rw [storages_update_current (c := c)]
  exact h.custody.acquire hold

omit h

end Objects

end TurboScxml.Events
