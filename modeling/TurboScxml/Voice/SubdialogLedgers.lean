import TurboScxml.Lib.Custody
import TurboScxml.Voice.SubdialogRows

/-!
# Ledgers of a subdialog owner

* `Ledgers`: each reservation, child session and borrow is held by one row, or was given back once;
* `Entry`: what the logs say of the reservation of a row;
* `Logs`: what was started was committed, and what was delivered was prepared by its receiver.
-/

namespace TurboScxml.Voice

open Function Tokens

namespace Subdialogs

variable {ι : Type} {config : Config} {s t : State ι}

/-! ## Ledgers -/

def Row.number (row : Row) : Option ℕ := row.session.map Session.number

def State.places (s : State ι) : Option ℕ → Option ℕ
  | none => s.run.hand
  | some k => (s.rows k).document

/-- Each handle is held once, or was given back once. -/
structure Ledgers (s : State ι) : Prop where
  reservations : Custody s.accepted s.emptied (fun k => (s.rows k).reservation)
  sessions : Custody s.sessions s.destroyed (fun k => (s.rows k).number)
  documents : Custody s.documents s.released s.places

def State.books (s : State ι) : ℕ × List ℕ × ℕ × List ℕ × ℕ × List ℕ :=
  (s.accepted, s.emptied, s.sessions, s.destroyed, s.documents, s.released)

theorem field_update (f : Row → Option ℕ) (rows : ℕ → Row) (k : ℕ) (row : Row) :
    (fun j => f (update rows k row j)) = update (fun j => f (rows j)) k (f row) := by
  funext j
  simp only [update_apply]
  split_ifs <;> rfl

variable {k : ℕ} {row : Row}

theorem places_update (hrows : t.rows = update s.rows k row) (hhand : t.run.hand = s.run.hand) :
    t.places = update s.places (some k) row.document := by
  funext p
  cases p with
  | none => exact hhand
  | some j =>
    show (t.rows j).document = _
    rw [hrows]
    simp only [update_apply, Option.some.injEq]
    split_ifs <;> rfl

theorem Ledgers.change (hrows : t.rows = update s.rows k row) (hhand : t.run.hand = s.run.hand)
    (hreservations : Custody t.accepted t.emptied
      (update (fun j => (s.rows j).reservation) k row.reservation))
    (hsessions : Custody t.sessions t.destroyed (update (fun j => (s.rows j).number) k row.number))
    (hdocuments : Custody t.documents t.released (update s.places (some k) row.document)) :
    Ledgers t := by
  refine ⟨?_, ?_, ?_⟩
  · rw [hrows, field_update Row.reservation]
    exact hreservations
  · rw [hrows, field_update Row.number]
    exact hsessions
  · rw [places_update hrows hhand]
    exact hdocuments

theorem Ledgers.init (hrows : ∀ k, s.rows k = .blank) (hrun : s.run = .idle)
    (hbooks : s.books = (0, [], 0, [], 0, [])) : Ledgers s := by
  simp only [State.books, Prod.mk.injEq] at hbooks
  obtain ⟨haccepted, hemptied, hsessions, hdestroyed, hdocuments, hreleased⟩ := hbooks
  have hnone : ∀ f : Row → Option ℕ, f .blank = none → (fun k => f (s.rows k)) = fun _ => none := by
    intro f hf
    funext k
    rw [hrows k, hf]
  constructor
  · rw [haccepted, hemptied, hnone Row.reservation rfl]
    exact .empty
  · rw [hsessions, hdestroyed, hnone Row.number rfl]
    exact .empty
  · have hplaces : s.places = fun _ => none := by
      funext p
      cases p with
      | none =>
        show s.run.hand = none
        rw [hrun]
        rfl
      | some k =>
        show (s.rows k).document = none
        rw [hrows k]
        rfl
    rw [hdocuments, hreleased, hplaces]
    exact .empty

variable (h : Ledgers s)
include h

theorem Ledgers.frame (hbooks : t.books = s.books) (hhand : t.run.hand = s.run.hand)
    (hrows : ∀ k, (t.rows k).reservation = (s.rows k).reservation ∧
      (t.rows k).number = (s.rows k).number ∧ (t.rows k).document = (s.rows k).document) :
    Ledgers t := by
  simp only [State.books, Prod.mk.injEq] at hbooks
  obtain ⟨haccepted, hemptied, hsessions, hdestroyed, hdocuments, hreleased⟩ := hbooks
  constructor
  · rw [haccepted, hemptied, funext fun k => (hrows k).1]
    exact h.reservations
  · rw [hsessions, hdestroyed, funext fun k => (hrows k).2.1]
    exact h.sessions
  · have hplaces : t.places = s.places := by
      funext p
      cases p with
      | none => exact hhand
      | some k => exact (hrows k).2.2
    rw [hdocuments, hreleased, hplaces]
    exact h.documents

variable {w : Row}

theorem Ledgers.setRow (hrows : t.rows = update s.rows k w)
    (hbooks : t.books = s.books) (hhand : t.run.hand = s.run.hand)
    (hreservation : w.reservation = (s.rows k).reservation) (hnumber : w.number = (s.rows k).number)
    (hdocument : w.document = (s.rows k).document) : Ledgers t := by
  refine h.frame hbooks hhand fun j => ?_
  rw [hrows, update_apply]
  split_ifs with hjk
  · rw [hjk]
    exact ⟨hreservation, hnumber, hdocument⟩
  · exact ⟨rfl, rfl, rfl⟩

theorem Ledgers.fill (hrows : t.rows = update s.rows k w) (hbooks : t.books =
      (s.accepted + 1, s.emptied, s.sessions, s.destroyed, s.documents, s.released))
    (hhand : t.run.hand = s.run.hand) (hreservation : (s.rows k).reservation = none)
    (hreservation' : w.reservation = some s.accepted) (hnumber : w.number = (s.rows k).number)
    (hdocument : w.document = (s.rows k).document) : Ledgers t := by
  simp only [State.books, Prod.mk.injEq] at hbooks
  obtain ⟨haccepted, hemptied, hsessions, hdestroyed, hdocuments, hreleased⟩ := hbooks
  refine .change hrows hhand ?_ ?_ ?_
  · rw [haccepted, hemptied, hreservation']
    exact h.reservations.acquire hreservation
  · rw [hsessions, hdestroyed]
    exact h.sessions.stay hnumber
  · rw [hdocuments, hreleased]
    exact h.documents.stay hdocument

theorem Ledgers.emptyRow (hsession : (s.rows k).session = none)
    (hdocument : (s.rows k).document = none) : Ledgers (s.emptyRow k) := by
  have hnumber : (s.rows k).number = none := by rw [Row.number, hsession, Option.map_none]
  exact .change (s := s) (k := k) rfl rfl (h.reservations.drop k) (h.sessions.stay hnumber.symm)
    (h.documents.stay hdocument.symm)

theorem Ledgers.pass (hhand : t.run.hand = s.run.hand)
    (hrows : ∀ k, (t.rows k).reservation = (s.rows k).reservation ∧
      (t.rows k).number = (s.rows k).number ∧ (t.rows k).document = (s.rows k).document)
    (hbooks : t.books = (s.accepted, s.emptied, s.sessions, s.destroyed, s.documents + 1,
      s.documents :: s.released)) : Ledgers t := by
  let u : State ι :=
    { s with documents := s.documents + 1, released := s.documents :: s.released }
  have hu : Ledgers u := ⟨h.reservations, h.sessions, h.documents.pass⟩
  exact hu.frame hbooks hhand hrows

theorem Ledgers.fetch {run : Run} (hhand : s.run.hand = none) (hrun : run.hand = some s.documents) :
    Ledgers { s with documents := s.documents + 1, run := run } := by
  refine ⟨h.reservations, h.sessions, ?_⟩
  have hplaces : State.places { s with documents := s.documents + 1, run := run } =
      update s.places none (some s.documents) := by
    funext p
    cases p with
    | none => exact hrun
    | some k => rfl
  rw [hplaces]
  exact h.documents.acquire hhand

theorem Ledgers.install {document : ℕ} (hrows : t.rows = update s.rows k row)
    (hbooks : t.books = s.books) (hhand : s.run.hand = some document) (hhand' : t.run.hand = none)
    (hdocument : (s.rows k).document = none) (hdocument' : row.document = some document)
    (hreservation : row.reservation = (s.rows k).reservation)
    (hnumber : row.number = (s.rows k).number) : Ledgers t := by
  simp only [State.books, Prod.mk.injEq] at hbooks
  obtain ⟨haccepted, hemptied, hsessions, hdestroyed, hdocuments, hreleased⟩ := hbooks
  constructor
  · rw [haccepted, hemptied, hrows, field_update Row.reservation]
    exact h.reservations.stay hreservation
  · rw [hsessions, hdestroyed, hrows, field_update Row.number]
    exact h.sessions.stay hnumber
  · have hplaces : t.places = update (update s.places none none) (some k) (some document) := by
      funext p
      cases p with
      | none => exact hhand'
      | some j =>
        show (t.rows j).document = _
        rw [hrows]
        simp only [update_apply, Option.some.injEq, reduceCtorEq, if_false]
        split_ifs
        · exact hdocument'
        · rfl
    rw [hdocuments, hreleased, hplaces]
    exact h.documents.move hhand hdocument

theorem Ledgers.keep (hrows : t.rows = update s.rows k row) (hbooks : t.books =
      (s.accepted, s.emptied, s.sessions, s.destroyed, s.documents + 1, s.released))
    (hhand : t.run.hand = s.run.hand) (hdocument : (s.rows k).document = none)
    (hdocument' : row.document = some s.documents)
    (hreservation : row.reservation = (s.rows k).reservation)
    (hnumber : row.number = (s.rows k).number) : Ledgers t := by
  simp only [State.books, Prod.mk.injEq] at hbooks
  obtain ⟨haccepted, hemptied, hsessions, hdestroyed, hdocuments, hreleased⟩ := hbooks
  refine .change hrows hhand ?_ ?_ ?_
  · rw [haccepted, hemptied]
    exact h.reservations.stay hreservation
  · rw [hsessions, hdestroyed]
    exact h.sessions.stay hnumber
  · rw [hdocuments, hreleased, hdocument']
    exact h.documents.acquire hdocument

theorem Ledgers.destroyRow (k : ℕ) : Ledgers (s.destroyRow k) :=
  .change (s := s) (k := k) rfl rfl (h.reservations.stay rfl) (h.sessions.drop k)
    (h.documents.drop (some k))

omit h

@[simp] theorem Session.moved_number (session : Session) (answers : Answers) :
    (session.moved answers).number = session.number := by
  unfold Session.moved
  split <;> rfl

theorem Ledgers.initSession (h : Ledgers s) (hsession : (s.rows k).session = none)
    (answers : Answers) : Ledgers (s.initSession k answers) := by
  have hnumber : (s.rows k).number = none := by rw [Row.number, hsession, Option.map_none]
  unfold State.initSession
  dsimp only
  split_ifs
  · exact .change (s := s) (k := k) rfl rfl (h.reservations.stay rfl) (h.sessions.stay rfl)
      (h.documents.drop (some k))
  · exact .change (s := s) (k := k) rfl rfl (h.reservations.stay rfl) (h.sessions.pass.stay rfl)
      (h.documents.drop (some k))
  · refine .change (s := s) (k := k) rfl rfl (h.reservations.stay rfl) ?_ (h.documents.stay rfl)
    have hfresh : ({ s.rows k with session := some (.fresh s.sessions answers) } : Row).number =
        some s.sessions := by simp [Row.number, Session.fresh]
    rw [hfresh]
    exact h.sessions.acquire hnumber

end Subdialogs

end TurboScxml.Voice
