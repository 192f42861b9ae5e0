import Mathlib.Data.List.MinMax
import Mathlib.Data.Prod.Lex
import Mathlib.Tactic.SplitIfs
import TurboScxml.Voice.EventDispatch

/-!
# The rules of scoped events

* `Occurrences`: how often each event was looked up in each scope;
* `selected`: the most specific matching handler, then the highest count, then the earliest;
* `Rules`, `findHandler`, `follow`: a lookup outwards, and the chain of lookups of one event;
* `dispatchLoop_follow`: the dispatcher follows the rules;
* `dispatchEventImpl_follows`: so does every event that is admitted.
-/

namespace TurboScxml.Voice.Events

open Content

variable {σ X G S : Type}

/-! ## Rules -/

/-- How often each event was looked up in each scope. -/
structure Occurrences where
  count : EventScope → Text → ℕ
  known : List (EventScope × Text)

structure Rules where
  bounded : Bool
  recovers : Bool
  throwsAtOrigin : Bool

def Occurrences.bump (o : Occurrences) (scope : EventScope) (event : Text) :
    EventScope → Text → ℕ :=
  fun s e => if s = scope ∧ e = event then o.count s e + 1 else o.count s e

def Occurrences.visit (R : Rules) (L : Limits) (scope : EventScope) (event : Text)
    (o : Occurrences) : Except Status Occurrences :=
  if R.bounded && (event.isEmpty || L.eventNameStride == 0 || L.eventNameStride ≤ event.length) then
    .error .invalidContract
  else if (scope, event) ∈ o.known then .ok ⟨o.bump scope event, o.known⟩
  else if R.bounded && o.known.length ≥ L.eventCounterCapacity then .error .limitExceeded
  else .ok ⟨o.bump scope event, o.known ++ [(scope, event)]⟩

def Occurrences.reset (resets : List EventScope) (o : Occurrences) : Occurrences :=
  ⟨fun s e => if resets.contains s && recoveryEventName e then 0 else o.count s e, o.known⟩

variable (P : Program σ X G S)

/-- Of the matching handlers of a scope the most specific one, then the one with the highest count,
then the earliest. -/
def selected (scope : EventScope) (event : Text) (occurrence : ℕ) : Option (HandlerRow σ X G S) :=
  (P.handlers.filter fun row => row.eligible scope event occurrence).argmax
    fun row => toLex (row.event.length, row.count)

def scopesFrom (active : Active) (c : Cursor) : List (ℕ × EventScope) :=
  (ranksFrom c.startScope).filterMap fun rank =>
    (scopeAt P active c.origin rank).map fun scope => (rank, scope)

/-- A lookup visits scopes up to the first that has a handler. -/
def findHandler (R : Rules) (P : Program σ X G S) (L : Limits) (event : Text) :
    List (ℕ × EventScope) → Occurrences → Found σ X G S × Occurrences
  | [], o => (.unhandled, o)
  | (rank, scope) :: outer, o =>
    match o.visit R L scope event with
    | .error status => (.failed status, o)
    | .ok o =>
      match selected P scope event (o.count scope event) with
      | none => findHandler R P L event outer o
      | some row => (.handler rank row, o)

structure Followed (σ X G S : Type) where
  ran : List (HandlerRow σ X G S)
  status : Option Status
  session : Session σ X G S
  occurrences : Occurrences

def perform (H : Host σ) (active : Active) (row : HandlerRow σ X G S)
    (s : Session σ X G S) : Option Status × List EventScope × Session σ X G S :=
  (handlerScopes P active row.scope).elim (some .invalidStructure, [], s)
    fun scopes => runHandler H scopes row.actions s

def throwCursor (R : Rules) (c : Cursor) (row : HandlerRow σ X G S) (event : Text) : Cursor :=
  if R.throwsAtOrigin && c.origin.isSome then
    ⟨event, eventOriginRank row.scope, some row.scope, .semanticError⟩
  else ⟨event, 0, none, .semanticError⟩

def failing (ran : List (HandlerRow σ X G S)) (status : Status) (s : Session σ X G S)
    (o : Occurrences) : Followed σ X G S :=
  ⟨ran, some status, s.fail status, o⟩

def follow (R : Rules) (P : Program σ X G S) (L : Limits) (H : Host σ) (active : Active) :
    ℕ → Cursor → Session σ X G S → Occurrences → Followed σ X G S
  | 0, _, s, o => failing [] .limitExceeded s o
  | depth + 1, c, s, o =>
    match findHandler R P L c.event (scopesFrom P active c) o with
    | (.failed status, o) => failing [] status s o
    | (.unhandled, o) => failing [] c.unhandledStatus s o
    | (.handler rank row, o) =>
      match perform P H active row s with
      | (some status, resets, s) =>
        match s.staged.backendFailureEvent with
        | none => failing [row] status s (o.reset resets)
        | some event =>
          let s := { s with staged := { s.staged with backendFailureEvent := none } }
          if !R.recovers || event.isEmpty then failing [row] status s (o.reset resets)
          else
            let r := follow R P L H active depth
              ⟨event, eventOriginRank row.scope, some row.scope, status⟩ s (o.reset resets)
            { r with ran := row :: r.ran }
      | (none, resets, s) =>
        if s.state ≠ .running then ⟨[row], none, s, o.reset resets⟩
        else
          match s.thrownEvent with
          | some event =>
            let s := { s with thrownEvent := none }
            if event.isEmpty then failing [row] .semanticError s (o.reset resets)
            else
              let r := follow R P L H active depth (throwCursor R c row event) s (o.reset resets)
              { r with ran := row :: r.ran }
          | none =>
            if s.rethrowRequested then
              let s := { s with rethrowRequested := false }
              if rank + 1 < 3 then
                let r := follow R P L H active depth { c with startScope := rank + 1 } s
                  (o.reset resets)
                { r with ran := row :: r.ran }
              else failing [row] c.unhandledStatus s (o.reset resets)
            else ⟨[row], none, s, o.reset resets⟩

def Rules.plain : Rules := ⟨false, false, false⟩

def Rules.source : Rules := ⟨true, true, true⟩

/-! ## Selection -/

theorem selectEventHandler_eq (scope : EventScope) (event : Text)
    (occurrence : ℕ) : selectEventHandler P scope event occurrence =
      selected P scope event occurrence := by
  rw [selectEventHandler, selected, List.argmax, List.foldl_filter]
  congr 1
  funext best row
  split
  · cases best with
    | none => rfl
    | some chosen =>
      simp only [List.argAux, Prod.Lex.toLex_lt_toLex]
      congr 1
      simp only [Bool.or_eq_true, decide_eq_true_eq, Bool.and_eq_true, beq_iff_eq,
        eq_comm (a := row.event.length)]
  · rfl

theorem selected_min (scope : EventScope) (event : Text) (occurrence : ℕ) :
    selected P scope event (min occurrence uintMax) = selected P scope event occurrence := by
  rw [selected, selected]
  congr 1
  refine List.filter_congr fun row _ => ?_
  have hle := row.count_le
  rw [HandlerRow.eligible, HandlerRow.eligible]
  congr 2
  rw [decide_eq_decide]
  omega

/-! ## Counters -/

def Counter.key (c : Counter) : EventScope × Text := (c.scope, c.event)

structure Represents (counters : List Counter) (o : Occurrences) : Prop where
  nodup : (counters.map Counter.key).Nodup
  known : o.known = counters.map Counter.key
  count : ∀ c ∈ counters, c.count = min (o.count c.scope c.event) uintMax
  absent : ∀ scope event, (scope, event) ∉ o.known → o.count scope event = 0

theorem represents_nil : Represents [] ⟨fun _ _ => 0, []⟩ where
  nodup := List.nodup_nil
  known := rfl
  count _ h := by cases h
  absent _ _ _ := rfl

variable {counters : List Counter} {o : Occurrences}

theorem Represents.reset (h : Represents counters o) (resets : List EventScope) :
    Represents (applyRetryResets resets counters) (o.reset resets) := by
  have hkeys : (applyRetryResets resets counters).map Counter.key =
      counters.map Counter.key := by
    rw [applyRetryResets, List.map_map]
    refine List.map_congr_left fun c _ => ?_
    rw [Function.comp_apply]
    split <;> rfl
  refine ⟨hkeys ▸ h.nodup, hkeys ▸ h.known, fun c hc => ?_, fun scope event habsent => ?_⟩
  · obtain ⟨old, hold, rfl⟩ := List.mem_map.mp hc
    cases hreset : resets.contains old.scope && recoveryEventName old.event with
    | true =>
      simp only [Occurrences.reset, hreset, if_true]
      rw [Nat.zero_min]
    | false =>
      rw [if_neg (by simp)]
      simp only [Occurrences.reset, hreset]
      exact h.count old hold
  · simp only [Occurrences.reset]
    split
    · rfl
    · exact h.absent scope event habsent

variable {scope : EventScope} {event : Text}

theorem find_eq_none_of_key (h : (scope, event) ∉ counters.map Counter.key) :
    (counters.find? fun c => c.scope = scope && c.event = event) = none := by
  rw [List.find?_eq_none]
  intro c hc hmatch
  simp only [Bool.and_eq_true, decide_eq_true_eq] at hmatch
  exact h (List.mem_map.mpr ⟨c, hc, Prod.ext hmatch.1 hmatch.2⟩)

theorem Represents.find (h : Represents counters o)
    (hkey : (scope, event) ∈ counters.map Counter.key) :
    ∃ counter, (counters.find? fun c => c.scope = scope && c.event = event) = some counter ∧
      counter.count = min (o.count scope event) uintMax := by
  cases hfind : counters.find? fun c => c.scope = scope && c.event = event with
  | none =>
    rw [List.find?_eq_none] at hfind
    obtain ⟨c, hc, hc'⟩ := List.mem_map.mp hkey
    obtain ⟨hscope, hevent⟩ := Prod.mk.inj hc'
    exact absurd (by simp [hscope, hevent]) (hfind c hc)
  | some counter =>
    have hmatch := List.find?_some hfind
    simp only [Bool.and_eq_true, decide_eq_true_eq] at hmatch
    refine ⟨counter, rfl, ?_⟩
    rw [h.count counter (List.mem_of_find?_eq_some hfind), hmatch.1, hmatch.2]

@[simp]
theorem Occurrences.bump_self (o : Occurrences) (scope : EventScope) (event : Text) :
    o.bump scope event scope event = o.count scope event + 1 := by
  simp [Occurrences.bump]

theorem Occurrences.bump_of_ne {s : EventScope} {e : Text} (h : ¬ (s = scope ∧ e = event)) :
    o.bump scope event s e = o.count s e := by
  rw [Occurrences.bump, if_neg h]

variable (h : Represents counters o)
include h

theorem Represents.setCount (hkey : (scope, event) ∈ o.known) :
    Represents (setCount scope event (min (o.count scope event + 1) uintMax) counters)
      ⟨o.bump scope event, o.known⟩ := by
  have hkeys : (Events.setCount scope event (min (o.count scope event + 1) uintMax) counters).map
      Counter.key = counters.map Counter.key := by
    rw [Events.setCount, List.map_map]
    refine List.map_congr_left fun c _ => ?_
    rw [Function.comp_apply]
    split <;> rfl
  refine ⟨hkeys ▸ h.nodup, hkeys ▸ h.known, fun c hc => ?_, fun s e habsent => ?_⟩
  · obtain ⟨old, hold, rfl⟩ := List.mem_map.mp hc
    by_cases hsame : old.scope = scope ∧ old.event = event
    · rw [if_pos (by simp [hsame])]
      dsimp only
      rw [hsame.1, hsame.2, Occurrences.bump_self]
    · rw [if_neg (by simpa using hsame)]
      dsimp only
      rw [Occurrences.bump_of_ne hsame]
      exact h.count old hold
  · have hne : ¬ (s = scope ∧ e = event) := by
      rintro ⟨rfl, rfl⟩
      exact habsent hkey
    dsimp only
    rw [Occurrences.bump_of_ne hne]
    exact h.absent s e habsent

theorem Represents.append (hkey : (scope, event) ∉ o.known) :
    Represents (counters ++ [⟨scope, event, 1⟩])
      ⟨o.bump scope event, o.known ++ [(scope, event)]⟩ := by
  refine ⟨?_, ?_, fun c hc => ?_, fun s e habsent => ?_⟩
  · rw [List.map_append, List.nodup_append]
    refine ⟨h.nodup, by simp, ?_⟩
    rintro key hin _ hnew rfl
    cases List.mem_singleton.mp hnew
    exact hkey (h.known ▸ hin)
  · rw [List.map_append, h.known]
    rfl
  · rcases List.mem_append.mp hc with hold | hnew
    · have hne : ¬ (c.scope = scope ∧ c.event = event) := by
        rintro ⟨rfl, rfl⟩
        exact hkey (h.known ▸ List.mem_map_of_mem hold)
      dsimp only
      rw [Occurrences.bump_of_ne hne]
      exact h.count c hold
    · cases List.mem_singleton.mp hnew
      dsimp only
      rw [Occurrences.bump_self, h.absent scope event hkey]
      rfl
  · rw [List.mem_append, not_or] at habsent
    have hne : ¬ (s = scope ∧ e = event) := by
      rintro ⟨rfl, rfl⟩
      exact habsent.2 (List.mem_singleton.mpr rfl)
    dsimp only
    rw [Occurrences.bump_of_ne hne]
    exact h.absent s e habsent.1

theorem Represents.next (L : Limits) (scope : EventScope) (event : Text) :
    (∃ status, eventCounterNext L scope event counters = .error status ∧
        o.visit .source L scope event = .error status) ∨
      ∃ counters' o', o.visit .source L scope event = .ok o' ∧ Represents counters' o' ∧
        eventCounterNext L scope event counters =
          .ok (min (o'.count scope event) uintMax, counters') := by
  rw [eventCounterNext, Occurrences.visit]
  simp only [Rules.source, Bool.true_and]
  split
  · exact .inl ⟨_, rfl, rfl⟩
  · by_cases hkey : (scope, event) ∈ o.known
    · right
      obtain ⟨counter, hfind, hcount⟩ := h.find (h.known ▸ hkey)
      have hnext : (if counter.count = uintMax then counter.count else counter.count + 1) =
          min (o.count scope event + 1) uintMax := by
        split <;> omega
      rw [hfind, if_pos hkey]
      refine ⟨_, _, rfl, h.setCount hkey, ?_⟩
      dsimp only
      rw [hnext, Occurrences.bump_self]
    · rw [find_eq_none_of_key (h.known ▸ hkey), if_neg hkey]
      have hlength : o.known.length = counters.length := by rw [h.known, List.length_map]
      rw [hlength]
      by_cases hfull : counters.length ≥ L.eventCounterCapacity
      · rw [if_pos hfull, if_pos (by simpa using hfull)]
        exact .inl ⟨_, rfl, rfl⟩
      · rw [if_neg hfull, if_neg (by simpa using hfull)]
        refine .inr ⟨_, _, rfl, h.append hkey, ?_⟩
        dsimp only
        rw [Occurrences.bump_self, h.absent scope event hkey]
        rfl

/-! ## Lookups and dispatches -/

theorem Represents.lookup (P : Program σ X G S) (L : Limits)
    (active : Active) (c : Cursor) (ranks : List ℕ) :
    ∃ counters' o', Represents counters' o' ∧
      findHandler .source P L c.event (ranks.filterMap fun rank =>
        (scopeAt P active c.origin rank).map fun scope => (rank, scope)) o =
          ((lookup P L active c ranks counters).1, o') ∧
      (lookup P L active c ranks counters).2 = counters' := by
  induction ranks generalizing counters o with
  | nil => exact ⟨counters, o, h, rfl, rfl⟩
  | cons rank ranks ih =>
    rw [Events.lookup, List.filterMap_cons]
    cases hscope : scopeAt P active c.origin rank with
    | none => exact ih h
    | some scope =>
      rw [Option.map_some]
      dsimp only
      rw [findHandler]
      rcases h.next L scope c.event with
        ⟨status, hnext, hvisit⟩ | ⟨counters', o', hvisit, hnew, hnext⟩
      · rw [hnext, hvisit]
        exact ⟨counters, o, h, rfl, rfl⟩
      · rw [hnext, hvisit]
        dsimp only
        rw [selectEventHandler_eq, selected_min]
        cases selected P scope c.event (o'.count scope c.event) with
        | none => exact ih hnew
        | some row => exact ⟨counters', o', hnew, rfl, rfl⟩

omit h

theorem executeEventHandler_eq (H : Host σ) (row : HandlerRow σ X G S) (d : Dispatcher σ X G S) :
    executeEventHandler P H row d =
      ((perform P H d.active row d.session).1,
        { d with
          session := (perform P H d.active row d.session).2.2
          counters := applyRetryResets (perform P H d.active row d.session).2.1 d.counters }) := by
  rw [executeEventHandler, perform]
  cases handlerScopes P d.active row.scope with
  | none => simp [applyRetryResets]
  | some scopes => rfl

structure Agrees (r : Dispatched σ X G S) (q : Followed σ X G S) (active : Active) : Prop where
  ran : r.ran = q.ran
  status : r.status = q.status
  session : r.dispatcher.session = q.session
  active : r.dispatcher.active = active
  counters : Represents r.dispatcher.counters q.occurrences

theorem Agrees.after {r : Dispatched σ X G S} {q : Followed σ X G S} {active : Active}
    (h : Agrees r q active) (row : HandlerRow σ X G S) :
    Agrees (r.after row) { q with ran := row :: q.ran } active where
  ran := congrArg (row :: ·) h.ran
  status := h.status
  session := h.session
  active := h.active
  counters := h.counters

theorem dispatchLoop_follow (L : Limits) (H : Host σ) (depth : ℕ) (c : Cursor)
    (d : Dispatcher σ X G S) (h : Represents d.counters o) :
    Agrees (dispatchLoop P L H depth c d) (follow .source P L H d.active depth c d.session o)
      d.active := by
  induction depth generalizing c d o with
  | zero => exact ⟨rfl, rfl, rfl, rfl, h⟩
  | succ depth ih =>
    obtain ⟨counters', o', hnew, hfind, hcounters⟩ :=
      h.lookup P L d.active c (ranksFrom c.startScope)
    rw [dispatchLoop, follow, scopesFrom, hfind]
    cases hlookup : lookup P L d.active c (ranksFrom c.startScope) d.counters with
    | mk found counters'' =>
      rw [hlookup] at hcounters
      cases hcounters
      cases found with
      | failed status => exact ⟨rfl, rfl, rfl, rfl, hnew⟩
      | unhandled => exact ⟨rfl, rfl, rfl, rfl, hnew⟩
      | handler rank row =>
        dsimp only
        rw [executeEventHandler_eq]
        cases hrun : perform P H d.active row d.session with
        | mk status r =>
          obtain ⟨resets, s⟩ := r
          have hreset := hnew.reset resets
          cases status with
          | some status =>
            dsimp only
            cases hevent : s.staged.backendFailureEvent with
            | none => exact ⟨rfl, rfl, rfl, rfl, hreset⟩
            | some event =>
              dsimp only
              cases hempty : event.isEmpty with
              | true => exact ⟨rfl, rfl, rfl, rfl, hreset⟩
              | false => exact (ih _ _ hreset).after row
          | none =>
            dsimp only
            by_cases hstate : s.state = .running
            · rw [if_neg (not_not.mpr hstate), if_neg (not_not.mpr hstate)]
              cases hthrown : s.thrownEvent with
              | some event =>
                dsimp only
                cases hempty : event.isEmpty with
                | true => exact ⟨rfl, rfl, rfl, rfl, hreset⟩
                | false => exact (ih _ _ hreset).after row
              | none =>
                cases hrethrow : s.rethrowRequested with
                | false => exact ⟨rfl, rfl, rfl, rfl, hreset⟩
                | true =>
                  by_cases houter : rank + 1 < 3
                  · rw [if_pos rfl, if_pos rfl, if_pos houter, if_pos houter]
                    exact (ih _ _ hreset).after row
                  · rw [if_pos rfl, if_pos rfl, if_neg houter, if_neg houter]
                    exact ⟨rfl, rfl, rfl, rfl, hreset⟩
            · rw [if_pos hstate, if_pos hstate]
              exact ⟨rfl, rfl, rfl, rfl, hreset⟩

theorem follow_ran_le (R : Rules) (P : Program σ X G S) (L : Limits) (H : Host σ)
    (active : Active) (depth : ℕ) (c : Cursor) (s : Session σ X G S) (o : Occurrences) :
    (follow R P L H active depth c s o).ran.length ≤ depth := by
  induction depth generalizing c s o with
  | zero => exact Nat.le_refl 0
  | succ depth ih =>
    rw [follow]
    split
    · exact Nat.zero_le _
    · exact Nat.zero_le _
    · split
      · split
        · simp [failing]
        · split
          · simp [failing]
          · exact Nat.succ_le_succ (ih _ _ _)
      · split
        · simp
        · split
          · split
            · simp [failing]
            · exact Nat.succ_le_succ (ih _ _ _)
          · split
            · split
              · exact Nat.succ_le_succ (ih _ _ _)
              · simp [failing]
            · simp

/-- The end of a dispatch: it is handled, or the session is failed. -/
def Followed.Settled (q : Followed σ X G S) : Prop :=
  q.status = none ∨ q.session.state = .failed

theorem follow_settled (R : Rules) (P : Program σ X G S) (L : Limits) (H : Host σ)
    (active : Active) (depth : ℕ) (c : Cursor) (s : Session σ X G S) (o : Occurrences) :
    (follow R P L H active depth c s o).Settled := by
  induction depth generalizing c s o with
  | zero => exact .inr rfl
  | succ depth ih =>
    rw [follow]
    split
    · exact .inr rfl
    · exact .inr rfl
    · split
      · split
        · exact .inr rfl
        · split
          · exact .inr rfl
          · exact ih _ _ _
      · split
        · exact .inl rfl
        · split
          · split
            · exact .inr rfl
            · exact ih _ _ _
          · split
            · split
              · exact ih _ _ _
              · exact .inr rfl
            · exact .inl rfl

/-! ## The transaction of a handler -/

/-- A failing handler leaves what was committed and published. -/
structure Untouched (s s' : Session σ X G S) : Prop where
  committed : s'.committed = s.committed
  repromptRequested : s'.repromptRequested = s.repromptRequested
  state : s'.state = s.state
  terminal : s'.terminal = s.terminal
  navigation : s'.navigation = s.navigation
  submit : s'.submit = s.submit
  thrownEvent : s'.thrownEvent = none ∨ s'.thrownEvent = s.thrownEvent
  rethrowRequested : s'.rethrowRequested = false ∨ s'.rethrowRequested = s.rethrowRequested

variable {s s' : Session σ X G S} {H : Host σ}

theorem transactionBegin_cases {begun : Bool} (h : s.transactionBegin H = (begun, s')) :
    Kept { s with allocations := s'.allocations } s' ∧ s'.thrownEvent = s.thrownEvent ∧
      s'.rethrowRequested = s.rethrowRequested ∧
      s'.handlerRepromptRequested = s.handlerRepromptRequested ∧
      s'.exitRequested = s.exitRequested ∧
      (begun = true → s'.pendingNavigation = none ∧ s'.submitRequested = none ∧
        s'.staged.values = s.committed ∧ s'.staged.retryResets = []) := by
  rw [Session.transactionBegin] at h
  split at h
  · cases h
    exact ⟨Kept.refl _, rfl, rfl, rfl, rfl, fun h => absurd h (by simp)⟩
  · dsimp only at h
    split at h
    · cases h
      exact ⟨⟨rfl, rfl, rfl, rfl, rfl, rfl, rfl, rfl, rfl, rfl, rfl⟩, rfl, rfl, rfl, rfl,
        fun _ => ⟨rfl, rfl, rfl, rfl⟩⟩
    · cases h
      exact ⟨⟨rfl, rfl, rfl, rfl, rfl, rfl, rfl, rfl, rfl, rfl, rfl⟩, rfl, rfl, rfl, rfl,
        fun h => absurd h (by simp)⟩

theorem publishHandler_ok (hs : s.controls.length ≤ 1) : (publishHandler s).1 = none := by
  rw [publishHandler]
  split
  · rw [Session.publishPendingControl]
    split
    · rename_i hboth
      obtain ⟨hsubmit, hnavigation⟩ := Bool.and_eq_true_iff.mp hboth
      obtain ⟨request, hrequest⟩ := Option.isSome_iff_exists.mp hsubmit
      obtain ⟨target, htarget⟩ := Option.isSome_iff_exists.mp hnavigation
      simp [Session.controls, hrequest, htarget] at hs
    · split
      · rfl
      · split <;> rfl
  · dsimp only
    split <;> rfl

variable {resets : List EventScope}

theorem runHandler_failed {scopes : List ℕ} {actions : Actions σ X G S} {status : Status}
    (h : runHandler H scopes actions s = (some status, resets, s')) :
    resets = [] ∧ Untouched s s' := by
  rw [runHandler] at h
  cases hprepare : s.exitSnapshotPrepare H with
  | mk allocated prepared =>
    have hprepared : prepared = (s.exitSnapshotPrepare H).2 := by rw [hprepare]
    rw [hprepare] at h
    cases allocated with
    | false =>
      cases h
      rw [hprepared]
      exact ⟨rfl, rfl, rfl, rfl, rfl, rfl, rfl, .inr rfl, .inr rfl⟩
    | true =>
      dsimp only at h
      split at h
      · rename_i started hbegin
        obtain ⟨hkept, hthrown, hrethrow, -⟩ := transactionBegin_cases hbegin
        cases h
        rw [hprepared] at hkept hthrown hrethrow
        exact ⟨rfl, hkept.committed, hkept.repromptRequested, hkept.state, hkept.terminal,
          hkept.navigation, hkept.submit, .inl hthrown, .inl hrethrow⟩
      · rename_i started hbegin
        obtain ⟨hkept, -, -, -, hexit, hstarted⟩ := transactionBegin_cases hbegin
        obtain ⟨hnavigation, hsubmit, -⟩ := hstarted rfl
        have hrange : Kept started (executeActionRange H scopes actions started).2 :=
          respected_kept.executeActionRange actions started
        have hrequests : Requests started (executeActionRange H scopes actions started) :=
          respected_requests.executeActionRange actions started
        have hcontrols : started.controls = [] :=
          Session.controls_eq_nil.mpr ⟨hexit, hnavigation, hsubmit⟩
        rw [hprepared] at hkept
        split at h
        · rename_i ended hended
          rw [hended] at hrange
          cases h
          exact ⟨rfl, hrange.committed.trans hkept.committed,
            hrange.repromptRequested.trans hkept.repromptRequested,
            hrange.state.trans hkept.state, hrange.terminal.trans hkept.terminal,
            hrange.navigation.trans hkept.navigation, hrange.submit.trans hkept.submit, .inl rfl,
            .inl rfl⟩
        · rename_i flow ended hnofail hended
          have hlength := (hrequests hcontrols).2
          rw [hended] at hlength
          have hok : (publishHandler ({ ended with
              eventDispatchActive := false }.transactionCommit H)).1 = none :=
            publishHandler_ok hlength
          have hstatus := congrArg Prod.fst h
          rw [hok] at hstatus
          cases hstatus

theorem perform_failed {P : Program σ X G S} {active : Active} {row : HandlerRow σ X G S}
    {status : Status} (h : perform P H active row s = (some status, resets, s')) :
    resets = [] ∧ Untouched s s' := by
  rw [perform] at h
  cases hscopes : handlerScopes P active row.scope with
  | none =>
    rw [hscopes] at h
    cases h
    exact ⟨rfl, rfl, rfl, rfl, rfl, rfl, rfl, .inr rfl, .inr rfl⟩
  | some scopes =>
    rw [hscopes] at h
    exact runHandler_failed h

/-! ## Events -/

/-- **Main.** An event that is admitted runs the handlers that the rules give and ends as they say,
at most as many as the depth allows, and none that fails leaves an effect. One that is not admitted
runs none, and leaves the session as it was or failed. -/
theorem dispatchEventImpl_follows (P : Program σ X G S) (L : Limits) (H : Host σ) {event : Text}
    {allowSubdialog : Bool} (origin : Option EventScope) {unhandledStatus : Status}
    {d : Dispatcher σ X G S} :
    (admission P L event allowSubdialog unhandledStatus d = none →
      ∀ o : Occurrences, Represents d.counters o →
      Agrees (dispatchEventImpl P L H event allowSubdialog origin unhandledStatus d)
          (follow .source P L H d.active L.maxEventDispatchDepth
            (Cursor.start event origin unhandledStatus) d.session o) d.active ∧
        (dispatchEventImpl P L H event allowSubdialog origin unhandledStatus d).ran.length ≤
          L.maxEventDispatchDepth ∧
        (follow .source P L H d.active L.maxEventDispatchDepth
          (Cursor.start event origin unhandledStatus) d.session o).Settled ∧
        ∀ row s s' status resets, perform P H d.active row s = (some status, resets, s') →
          resets = [] ∧ Untouched s s') ∧
    (∀ status, admission P L event allowSubdialog unhandledStatus d = some (.failed status) →
      dispatchEventImpl P L H event allowSubdialog origin unhandledStatus d =
        ⟨[], some status, d.fail status⟩ ∧ (d.fail status).session.state = .failed) ∧
    ∀ status, admission P L event allowSubdialog unhandledStatus d = some (.rejected status) →
      dispatchEventImpl P L H event allowSubdialog origin unhandledStatus d =
        ⟨[], some status, d⟩ := by
  refine ⟨fun hadmitted o h => ?_, fun status hfailed => ⟨?_, rfl⟩, fun status hrejected => ?_⟩
  case refine_2 =>
    rw [dispatchEventImpl, hfailed]
    rfl
  case refine_3 => rw [dispatchEventImpl, hrejected]
  have hfollow := dispatchLoop_follow P L H L.maxEventDispatchDepth
    (Cursor.start event origin unhandledStatus) d h
  have hloop : dispatchEventImpl P L H event allowSubdialog origin unhandledStatus d =
      dispatchLoop P L H L.maxEventDispatchDepth (Cursor.start event origin unhandledStatus) d := by
    rw [dispatchEventImpl, hadmitted]
  rw [hloop]
  refine ⟨hfollow, ?_, follow_settled _ _ _ _ _ _ _ _ _, fun _ _ _ _ _ => perform_failed⟩
  rw [hfollow.ran]
  exact follow_ran_le _ _ _ _ _ _ _ _ _

/-- A backend failure that is not handled leaves no running session. -/
theorem recoverBackendFailure_ends (P : Program σ X G S) (L : Limits) (H : Host σ)
    (status : Status) (d : Dispatcher σ X G S)
    (h : (recoverBackendFailure P L H status d).status ≠ none) :
    (recoverBackendFailure P L H status d).dispatcher.session.state ≠ .running := by
  rw [recoverBackendFailure.eq_def] at h ⊢
  split at h
  · exact fun hrunning => State.noConfusion hrunning
  · dsimp only at h ⊢
    split at h
    · rename_i hleft
      rw [if_pos hleft]
      exact fun hrunning => State.noConfusion hrunning
    · rename_i hended
      rw [if_neg hended]
      intro hrunning
      exact hended (by simp [Option.isSome_iff_ne_none.mpr h, hrunning])

/-! ## A script that fails in a handler -/

def sampleHost : Host Unit where
  maxExecutionSteps := 10
  execFrameCapacity := 1
  allocate _ := true
  cleared := ()

def sampleLimits (capacity : ℕ) : Limits := ⟨16, capacity, 4⟩

def sampleProgram : Program Unit Unit Unit Unit where
  handlers := [
    { scope := ⟨.form, 0⟩, event := "a".toList, count := 1,
      actions := .cons (.compute fun _ staged => (.error .semanticError,
        { staged with backendFailureEvent := some "error.semantic".toList })) .nil,
      event_ne := by decide, count_pos := by decide, count_le := by decide },
    { scope := ⟨.form, 0⟩, event := "error".toList, count := 1,
      actions := .cons (.throw "t".toList) .nil,
      event_ne := by decide, count_pos := by decide, count_le := by decide },
    { scope := ⟨.field, 0⟩, event := "t".toList, count := 1, actions := .nil,
      event_ne := by decide, count_pos := by decide, count_le := by decide },
    { scope := ⟨.form, 0⟩, event := "t".toList, count := 1, actions := .nil,
      event_ne := by decide, count_pos := by decide, count_le := by decide }]
  documentScope := 0
  forms := [1]
  fieldCount := 1
  initialCount := 0
  subdialogCount := 0
  recordCount := 0
  transferCount := 0

def sampleDispatcher : Dispatcher Unit Unit Unit Unit where
  session := .quiet ()
  counters := []
  active := ⟨some 0, some 0, none, none, none, none, none, none⟩

def sampleRaise (capacity : ℕ) : Dispatched Unit Unit Unit Unit :=
  raiseEvent sampleProgram (sampleLimits capacity) sampleHost "a".toList false sampleDispatcher

def sampleFollow (R : Rules) (capacity : ℕ) : Followed Unit Unit Unit Unit :=
  follow R sampleProgram (sampleLimits capacity) sampleHost sampleDispatcher.active 4
    (Cursor.start "a".toList none .semanticError) sampleDispatcher.session ⟨fun _ _ => 0, []⟩

def HandlerRow.label (row : HandlerRow σ X G S) : EventScope × Text := (row.scope, row.event)

theorem dispatchEventImpl_follows_sample :
    (sampleRaise 8).ran.map HandlerRow.label =
      [(⟨.form, 0⟩, "a".toList), (⟨.form, 0⟩, "error".toList), (⟨.form, 0⟩, "t".toList)] ∧
    Agrees (dispatchEventImpl sampleProgram (sampleLimits 8) sampleHost "a".toList false none
      .semanticError sampleDispatcher) (sampleFollow .source 8) sampleDispatcher.active := by
  refine ⟨by decide +kernel, ?_⟩
  exact ((dispatchEventImpl_follows sampleProgram (sampleLimits 8) sampleHost none).1
    (by decide +kernel) _ represents_nil).1

/-- The rules need the bounds, the recovery and the scope of a throw. -/
theorem not_dispatch_plain :
    (sampleRaise 8).ran.map HandlerRow.label ≠
        (sampleFollow .plain 8).ran.map HandlerRow.label ∧
      (sampleRaise 1).ran.map HandlerRow.label ≠
        (sampleFollow ⟨false, true, true⟩ 1).ran.map HandlerRow.label ∧
      (sampleRaise 8).ran.map HandlerRow.label ≠
        (sampleFollow ⟨true, false, true⟩ 8).ran.map HandlerRow.label ∧
      (sampleRaise 8).ran.map HandlerRow.label ≠
        (sampleFollow ⟨true, true, false⟩ 8).ran.map HandlerRow.label := by
  decide +kernel

end TurboScxml.Voice.Events
