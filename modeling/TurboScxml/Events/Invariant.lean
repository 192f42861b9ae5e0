import TurboScxml.Events.RowObjects

/-!
# The invariant of the metadata rows

* `Event.expected`: what an event that was sent so is shown as;
* `Producer.Holds`, `Executor.Holds`: what a thread knows of the row it holds;
* `Core`: the rows, the queues, the tickets and the objects of a state;
* `Held`: the threads and their rows, and what was observed.
-/

namespace TurboScxml.Events

open Function Parties Tokens

variable {S T K V ι : Type} {n : ℕ} {P : Program S T K}

/-! ## What is shown -/

/-- What a named event is shown as. -/
def Given.shown (P : Program S T K) (kind : Kind) (id : ℕ) (g : Given S V) : SystemValues S V where
  eventName := if g.name = [] then (P.nameOf id).getD [] else g.name
  eventType := P.eventType kind id
  eventSendId := g.sendId
  eventOrigin := g.origin
  eventOriginType := g.originType
  eventInvokeId := g.invokeId
  eventData := match g.data with
    | .text bytes => some bytes
    | .object _ _ => none
  eventDataSchema := match g.data with
    | .text _ => none
    | .object schema _ => some schema
  eventDataObject := match g.data with
    | .text _ => none
    | .object _ value => some value

/-- What an event is shown as. -/
def Event.expected (P : Program S T K) (e : Event S V) (kind : Kind)
    (invocation : Option Invocation) : SystemValues S V :=
  match e.given, invocation with
  | some g, _ => g.shown P kind e.id
  | none, none => plainValues ((P.nameOf e.id).getD []) (P.eventType kind e.id)
  | none, some v =>
    { plainValues (v.doneName.getD ((P.nameOf e.id).getD [])) (P.eventType kind e.id) with
      eventInvokeId := v.id }

def Observation.Faithful (P : Program S T K) (o : Observation S V) : Prop :=
  o.shown = o.event.expected P o.kind o.invocation

/-! ## Threads -/

def Phase.stage : Phase S → Stage
  | .enter => .filling
  | .destroy _ => .draining
  | .clear => .drained

/-- The row that a producer holds, and how far it is with it. -/
def Producer.grip : Producer n S K V → Option (Fin n × Stage)
  | .done _ | .start _ => none
  | .reserved _ r _ | .filled _ r _ => some (r, .filling)
  | .releasing r _ phase _ => some (r, phase.stage)

/-- The row that the executor holds. -/
def Executor.grip : Executor n P V → Option (Fin n × Stage)
  | .reserved _ r _ | .filled _ r _ => some (r, .filling)
  | .releasing r _ phase _ => some (r, phase.stage)
  | .copying _ _ r => some (r, .draining)
  | .clearing _ _ r _ => some (r, .drained)
  | _ => none

def State.grip (s : State n ι P V) : Option ι → Option (Fin n × Stage)
  | none => s.executor.grip
  | some i => (s.producers i).grip

def Phase.Holds (token : ℕ) (row : Row S T V) : Phase S → Prop
  | .enter => row.token = token
  | .destroy schema => row.dataSchema = schema
  | .clear => True

def Producer.Holds (P : Program S T K) (row : Row S T V) : Producer n S K V → Prop
  | .done _ | .start _ => True
  | .reserved call _ token => row = Row.zero.reserve token call.metadata
  | .filled call _ token => row.token = token ∧ row.given = some (call.given P)
  | .releasing _ token phase _ => phase.Holds token row

/-- The row of the event has the object that the script will see. -/
def Copies (c : Current S T V) (row : Row S T V) (event : Event S V) (kind : Kind)
    (P : Program S T K) : Prop :=
  ∃ schema object g, row.dataSchema = some schema ∧ row.dataObject = some object ∧
    event.given = some g ∧
    { c.values with
      eventData := none
      eventDataSchema := some schema
      eventDataObject := some object.value } = g.shown P kind event.id

def Executor.Holds (c : Current S T V) (row : Row S T V) : Executor n P V → Prop
  | .reserved work _ token => row = Row.zero.reserve token work.metadata
  | .filled work _ token => row.token = token ∧ row.given = some work.given
  | .releasing _ token phase _ => phase.Holds token row
  | .copying event kind _ => Copies c row event kind P ∧ c.dataObjectLive = false
  | _ => True

def State.Holds (s : State n ι P V) (row : Row S T V) : Option ι → Prop
  | none => s.executor.Holds s.current row
  | some i => (s.producers i).Holds P row

def Executor.Shows (c : Current S T V) : Executor n P V → Prop
  | .taken event kind => c.dataObjectLive = false ∧ ∃ name, P.nameOf event.id = some name ∧
    c.values = plainValues name (P.eventType kind event.id)
  | .clearing event kind _ true => ∃ g, event.given = some g ∧
    c.values = g.shown P kind event.id
  | .failed .staleToken _ => False
  | _ => True

def Executor.event : Executor n P V → Option (Event S V)
  | .taken event _ => some event
  | .failed _ event => event
  | _ => none

/-- The executor drops what was raised. -/
def Executor.discards : Executor n P V → Bool
  | .releasing _ _ _ (.discard _) | .discarding _ => true
  | _ => false

def Executor.doomed : Executor n P V → Bool
  | .releasing _ _ _ .fatal | .fatal | .failed _ _ => true
  | pc => pc.discards

/-- The events that are not shown yet. -/
def State.queue (s : State n ι P V) : List (Event S V) :=
  s.external ++ s.internal ++ s.executor.event.toList

/-! ## The invariant -/

/-- The rows, the queues, the tickets and the objects. -/
structure Core (s : State n ι P V) (use : Fin n → RowUse ι) : Prop where
  pool : Pool P s.rows use s.reservations s.freed
  nextToken : s.nextToken = tokenBit + 1 + s.reservations
  queued : Linked s.queue s.rows use .queued
  raised : s.executor.doomed = false → Linked s.raised s.rows use .staged
  dropped : s.executor.discards = true → s.raised = []
  ticketed : Ticketed s.staged s.rows use
  objects : Objects P s.rows use s.current s.ledger

/-- The threads know the rows that they hold, and what was shown is as expected. -/
structure Held (s : State n ι P V) (use : Fin n → RowUse ι) : Prop where
  matched : Matched s.grip use
  holds : ∀ w r stage, s.grip w = some (r, stage) → s.Holds (s.rows r) w
  shows : s.executor.Shows s.current
  observed : ∀ o ∈ s.observed, o.Faithful P

def Invariant (s : State n ι P V) : Prop := ∃ use, Core s use ∧ Held s use

variable {s s' : State n ι P V} {use : Fin n → RowUse ι} {r : Fin n} {row : Row S T V}
  {w : Option ι} {ledger : Ledger S T V}

/-! ## Threads -/

section Grip

variable [DecidableEq ι]

theorem grip_setProducer (i : ι) (pc : Producer n S K V) :
    (s.setProducer i pc).grip = update s.grip (some i) pc.grip := by
  funext w
  cases w with
  | none => rw [update_of_ne (by simp)]; rfl
  | some j =>
    by_cases hj : j = i
    · simp [State.grip, State.setProducer, hj]
    · rw [update_of_ne (by simpa using hj)]
      simp [State.grip, State.setProducer, hj]

/-- A thread whose row changes. -/
theorem Held.holds_update (h : Held s use) {new : Option Stage}
    (hr : (∃ stage, s.grip w = some (r, stage)) ∨ ∃ x, use r = .other x)
    {holds : Row S T V → Option ι → Prop} (hsame : ∀ w' ≠ w, ∀ row, s.Holds row w' → holds row w')
    (hnew : ∀ stage, new = some stage → holds row w) :
    ∀ w' r' stage, update s.grip w (new.map fun stage => (r, stage)) w' = some (r', stage) →
      holds (update s.rows r row r') w' := by
  intro w' r' stage hgrip
  by_cases hw : w' = w
  · subst hw
    rw [update_self] at hgrip
    obtain ⟨_, hstage, hpair⟩ := Option.map_eq_some_iff.mp hgrip
    cases hpair
    rw [update_self]
    exact hnew _ hstage
  · rw [update_of_ne hw] at hgrip
    have hne : r' ≠ r := by
      rintro rfl
      rcases hr with ⟨stage', hown⟩ | ⟨x, hx⟩
      · exact h.matched.ne hgrip hown hw rfl
      · exact h.matched.ne_of_use hgrip hx rfl
    rw [update_of_ne hne]
    exact hsame w' hw _ (h.holds w' r' stage hgrip)

end Grip

/-! ## The executor -/

theorem Core.goto (h : Core s use) {old pc : Executor n P V} (hold : s.executor = old)
    (hevent : pc.event = old.event) (hdoomed : pc.doomed = false → old.doomed = false)
    (hdropped : pc.discards = true → s.raised = []) : Core (s.goto pc) use where
  pool := h.pool
  nextToken := h.nextToken
  queued := by
    change Linked (s.external ++ s.internal ++ pc.event.toList) s.rows use .queued
    rw [hevent, ← hold]
    exact h.queued
  raised hd := h.raised (hold ▸ hdoomed hd)
  dropped := hdropped
  ticketed := h.ticketed
  objects := h.objects

/-! ## Operations on one row -/

theorem hasTokenBit_of_lt {token : ℕ} (h : tokenBit < token) : hasTokenBit token = true :=
  decide_eq_true (Nat.le_of_lt h)

theorem followingToken_eq {k : ℕ} (h : k + 2 < tokenBit) :
    followingToken (tokenBit + 1 + k) = tokenBit + 1 + (k + 1) := by
  have hmod : (tokenBit + 1 + k) % tokenBit = k + 1 := by
    rw [Nat.add_assoc, Nat.add_mod_left, Nat.mod_eq_of_lt (by omega), Nat.add_comm]
  have hnext : (k + 1 + 1) % tokenBit = k + 2 := Nat.mod_eq_of_lt h
  simp only [followingToken, hmod, hnext]
  split_ifs <;> omega

/-- A reservation takes a free row and the next token. -/
theorem reserveEventMetadata_eq_some {rows rows' : Fin n → Row S T V} {next next' : ℕ}
    {m : Metadata S K V} (h : reserveEventMetadata rows next m = some (r, rows', next')) :
    m.valid = true ∧ (rows r).inUse = false ∧ (rows r).dataObjectLive = false ∧
      rows' = update rows r ((rows r).reserve next m) ∧ next' = followingToken next := by
  unfold reserveEventMetadata at h
  split_ifs at h with hvalid
  obtain ⟨q, hq, hpair⟩ := Option.map_eq_some_iff.mp h
  cases hpair
  have hfree := (Fin.find?_eq_some_iff.mp hq).1
  simp only [Bool.and_eq_true, Bool.not_eq_true'] at hfree
  exact ⟨hvalid, hfree.1, hfree.2, rfl, rfl⟩

theorem Core.free_of_idle (h : Core s use) (hinUse : (s.rows r).inUse = false)
    (hlive : (s.rows r).dataObjectLive = false) :
    use r = .other .free ∧ s.rows r = Row.zero := by
  have hfits := h.pool.fits r
  cases huse : use r with
  | held w stage =>
    rw [huse] at hfits
    cases stage with
    | filling => exact absurd (hinUse.symm.trans hfits.inUse) (by simp)
    | draining => exact absurd (hlive.symm.trans hfits.live) (by simp)
    | drained => exact absurd (hlive.symm.trans hfits.live) (by simp)
  | other x =>
    rw [huse] at hfits
    cases x with
    | free => exact ⟨rfl, hfits⟩
    | staged => exact absurd (hinUse.symm.trans hfits.inUse) (by simp)
    | queued => exact absurd (hinUse.symm.trans hfits.inUse) (by simp)

/-- **A reservation** takes a free row. -/
theorem Core.reserve (h : Core s use) {m : Metadata S K V} (hs : s.reserve m = some (r, s'))
    (hbound : s'.reservations + 1 < tokenBit) (w : Option ι) :
    use r = .other .free ∧
      s' = { s with
        rows := update s.rows r (Row.zero.reserve s.nextToken m)
        nextToken := s'.nextToken
        reservations := s.reservations + 1 } ∧
      Core s' (update use r (.held w .filling)) := by
  obtain ⟨⟨q, rows', next'⟩, hp, hpair⟩ := Option.map_eq_some_iff.mp hs
  cases hpair
  obtain ⟨-, hinUse, hlive, rfl, rfl⟩ := reserveEventMetadata_eq_some hp
  obtain ⟨huse, hzero⟩ := h.free_of_idle hinUse hlive
  rw [hzero]
  refine ⟨huse, rfl, ?_, ?_, ?_, fun hd => ?_, h.dropped, ?_, ?_⟩
  · refine h.pool.reserve ⟨rfl, rfl, fun hl => by cases hl⟩ hinUse rfl ?_
    exact h.nextToken
  · change followingToken s.nextToken = _
    rw [h.nextToken]
    exact followingToken_eq hbound
  · exact h.queued.frame (by simp [huse]) (by simp)
  · exact (h.raised hd).frame (by simp [huse]) (by simp)
  · exact h.ticketed.frame (by simp [huse]) (by simp)
  · refine h.objects.write ?_ fun _ => rfl
    rw [huse, hzero]
    rfl

def Fills (P : Program S T K) (row row' : Row S T V) (ledger ledger' : Ledger S T V) : Prop :=
  row'.session = row.session ∧ row'.inUse = row.inUse ∧ row'.token = row.token ∧
    ((row'.dataObjectLive = false ∧ ledger' = ledger) ∨
      (row'.dataObjectLive = true ∧ Housed P row'.dataSchema row'.dataObject ∧
        row'.dataObject.map Object.number = some ledger.constructed ∧
        ledger' = { ledger with constructed := ledger.constructed + 1 }))

variable (h : Core s use)
include h

/-- **A reserved row** is filled. -/
theorem Core.fill (huse : use r = .held w .filling)
    (hempty : (s.rows r).dataObjectLive = false) (hfills : Fills P (s.rows r) row s.ledger ledger) :
    Core ({ s with ledger }.setRow r row) use := by
  obtain ⟨hsession, hinUse, htoken, hobjects⟩ := hfills
  have hfits := h.pool.fits r
  rw [huse] at hfits
  have hold : (s.rows r).object (use r) = none := by
    rw [huse, Row.object_filling]
    simp [hempty]
  have hsame : update use r (.held w .filling) = use := by
    rw [← huse, update_eq_self]
  have hother : ∀ x, use r ≠ .other x := by simp [huse]
  rw [← hsame]
  refine ⟨?_, h.nextToken, ?_, fun hd => ?_, h.dropped, ?_, ?_⟩
  · refine h.pool.write ⟨hsession.trans hfits.session, hinUse.trans hfits.inUse, fun hl => ?_⟩
      hinUse htoken
    rcases hobjects with ⟨hlive, -⟩ | ⟨-, hhoused, -⟩
    · exact absurd (hl.symm.trans hlive) (by simp)
    · exact hhoused
  · exact h.queued.frame (hother _) (by simp)
  · exact (h.raised hd).frame (hother _) (by simp)
  · exact h.ticketed.frame (hother _) (by simp)
  · rcases hobjects with ⟨hlive, rfl⟩ | ⟨hlive, -, hnumber, rfl⟩
    · refine h.objects.write ?_ fun _ => hlive
      rw [hold, Row.object_filling]
      simp [hlive]
    · refine h.objects.construct hold ?_
      rw [Row.object_filling]
      simp [hlive, hnumber]

/-- **A reserved row** that is not filled is freed. -/
theorem Core.free (huse : use r = .held w .filling) (hempty : (s.rows r).dataObjectLive = false) :
    Core { s with
      rows := update s.rows r Row.zero
      freed := serial (s.rows r).token :: s.freed } (update use r (.other .free)) := by
  have hfits := h.pool.fits r
  rw [huse] at hfits
  have hother : ∀ x, use r ≠ .other x := by simp [huse]
  refine ⟨?_, h.nextToken, ?_, fun hd => ?_, h.dropped, ?_, ?_⟩
  · exact h.pool.free rfl hfits.inUse rfl (.inl rfl)
  · exact h.queued.frame (hother _) (by simp)
  · exact (h.raised hd).frame (hother _) (by simp)
  · exact h.ticketed.frame (hother _) (by simp)
  · refine h.objects.write ?_ fun _ => rfl
    rw [huse, Row.object_filling, Row.object_other]
    simp [hempty, Row.zero]

/-- **A row** is taken to be released. -/
theorem Core.drain (huse : use r = .held w .filling) (hlive : (s.rows r).dataObjectLive = true) :
    Core { s with
      rows := update s.rows r { s.rows r with inUse := false }
      freed := serial (s.rows r).token :: s.freed } (update use r (.held w .draining)) := by
  have hfits := h.pool.fits r
  rw [huse] at hfits
  have hother : ∀ x, use r ≠ .other x := by simp [huse]
  refine ⟨?_, h.nextToken, ?_, fun hd => ?_, h.dropped, ?_, ?_⟩
  · exact h.pool.free ⟨rfl, hlive, hfits.housed hlive⟩ hfits.inUse rfl (.inr rfl)
  · exact h.queued.frame (hother _) (by simp)
  · exact (h.raised hd).frame (hother _) (by simp)
  · exact h.ticketed.frame (hother _) (by simp)
  · obtain ⟨_, object, -, hobject, -⟩ := hfits.housed hlive
    refine h.objects.write (by rw [huse]; rfl) fun hnone => ?_
    simp [Row.object, hlive, hobject] at hnone

/-- **The object** of a row is destroyed once. -/
theorem Core.destroy (huse : use r = .held w .draining) :
    Core { s with ledger := s.ledger.destroy (s.rows r).dataSchema (s.rows r).dataObject }
      (update use r (.held w .drained)) := by
  have hfits := h.pool.fits r
  rw [huse] at hfits
  have hother : ∀ x, use r ≠ .other x := by simp [huse]
  refine ⟨h.pool.rename hfits, h.nextToken, h.queued.rename (hother _) (by simp), fun hd => ?_,
    h.dropped, h.ticketed.rename (hother _) (by simp), ?_⟩
  · exact (h.raised hd).rename (hother _) (by simp)
  · refine h.objects.destroy hfits.housed ?_ rfl
    rw [huse]
    simp [Row.object, hfits.live]

/-- **A drained row** is free again. -/
theorem Core.clear (huse : use r = .held w .drained) :
    Core (s.setRow r Row.zero) (update use r (.other .free)) := by
  have hfits := h.pool.fits r
  rw [huse] at hfits
  have hother : ∀ x, use r ≠ .other x := by simp [huse]
  refine ⟨?_, h.nextToken, ?_, fun hd => ?_, h.dropped, ?_, ?_⟩
  · exact h.pool.idle rfl hfits.notInUse rfl rfl
  · exact h.queued.frame (hother _) (by simp)
  · exact (h.raised hd).frame (hother _) (by simp)
  · exact h.ticketed.frame (hother _) (by simp)
  · refine h.objects.write ?_ fun _ => rfl
    rw [huse]
    rfl

end TurboScxml.Events
