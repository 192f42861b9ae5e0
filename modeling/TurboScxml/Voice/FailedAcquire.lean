import TurboScxml.Lib.Handles
import TurboScxml.Voice.DocumentBorrows

/-!
# Calls of `acquire` that fail

A failed call takes a lease and a playback ticket and returns both. It evicts rows one by one before
it is known whether there is room at all: documents are lost if the pinned rows leave too little.

* `loadLogged`, `acquireLogged`: the calls with what they take and return, and with `*out_ref`;
* `makeRoom_none_iff`: the pinned rows and the new document do not fit;
* **`acquire_failure`**: what a failed call leaves behind.
-/

namespace TurboScxml.Voice

namespace DocumentStore

open Function Handles Slots

/-! ## The calls with a log -/

/-- A document lease, or a playback ticket with a `finish`. -/
inductive Handle
  | lease
  | ticket
  deriving DecidableEq

/-- The reference that `acquire` writes first. -/
def Ref.zero : Ref := ⟨0, 0, 0, 0⟩

namespace Config

variable (cfg : Config)

/-- A ticket whose `finish` comes with another result. -/
def finishAtOnce (finish : Bool) : List (Event Handle) :=
  if finish then [.taken .ticket, .returned .ticket] else []

/-- `vxml_document_store_fetch_audio_begin`. -/
def fetchAudioBeginLogged (uri : Text) (answer : AudioAnswer) (other : Bool) :
    List (Event Handle) × Except Status Bool :=
  if (uri.length ≤ cfg.maxUriBytes && uriBytesValid uri && (parseAbsoluteUri uri).isSome) = false
  then ([], .error .invalidArgument)
  else if cfg.fetchAudioEnabled = false then ([], .ok false)
  else
    match answer with
    | .started finish =>
      if finish then ([.taken .ticket], .ok true) else ([], .error .invalidArgument)
    | .skipped finish user =>
      if finish || user then (finishAtOnce finish, .error .invalidArgument) else ([], .ok false)
    | .other => (finishAtOnce other, .error .invalidArgument)

variable {P : Type}

def beginPlaybackLogged (policy : Option FetchPolicy) (answers : Answers P) (other : Bool) :
    List (Event Handle) × Except Status Bool :=
  if cfg.hasFetchaudio policy then
    cfg.fetchAudioBeginLogged ((policy.bind FetchPolicy.fetchaudioUri).getD []) answers.audio other
  else ([], .ok false)

/-- The call of `open`, and of `finish` after it. -/
def openLog (started : Bool) (status : ResourceStatus) : List (Event Handle) :=
  (if status = .ok then [.taken .lease] else []) ++ if started then [.returned .ticket] else []

def loadLogged (canonical : Text) (policy : Option FetchPolicy) (answers : Answers P)
    (other : Bool) : List (Event Handle) × Except Failure (List UInt8 × P) :=
  if policy.any (·.hasTimeout) ∧ cfg.openWithPolicy = false then
    ([], .error (failed .resourceError .documentError .ok))
  else
    match cfg.beginPlaybackLogged policy answers other with
    | (log, .error status) => (log, .error (failed status .invalidArgument .ok))
    | (log, .ok started) =>
      if answers.openStatus ≠ .ok then
        (log ++ openLog started answers.openStatus,
          .error (failed .resourceError answers.openStatus .ok))
      else if cfg.maxDocumentBytes < answers.document.size ∨
          (answers.document.size ≠ 0 ∧ answers.document.data = []) then
        (log ++ openLog started answers.openStatus ++ [.returned .lease],
          .error (failed .limitExceeded .ok .ok))
      else if cfg.maxCacheBytes < allocationSize canonical answers.document.data then
        (log ++ openLog started answers.openStatus ++ [.returned .lease],
          .error (failed .limitExceeded .ok .ok))
      else if answers.copyAllocated = false then
        (log ++ openLog started answers.openStatus ++ [.returned .lease],
          .error (failed .allocationFailed .ok .ok))
      else
        -- the lease is closed as soon as the source is copied
        (log ++ openLog started answers.openStatus ++ [.returned .lease],
          (compileSource answers.document.data answers).map (answers.document.data, ·))

end Config

/-- A call of `acquire`, with what it took and returned. -/
structure Call (P : Type) (n : ℕ) where
  store : Store P n
  out : Ref
  log : List (Event Handle)
  result : Except Failure Unit

namespace Call

variable {P : Type} {n : ℕ}

def fail (s : Store P n) (out : Ref) (log : List (Event Handle)) (failure : Failure) : Call P n :=
  ⟨s, out, log, .error failure⟩

/-- A step that ends in `allocate_borrow`. -/
def borrow (out : Ref) (log : List (Event Handle)) :
    Store P n × Except Failure Ref → Call P n
  | (s, .error failure) => fail s out log failure
  | (s, .ok ref) => ⟨s, ref, log, .ok ()⟩

end Call

namespace Store

variable {P : Type} {n : ℕ} (cfg : Config) (s : Store P n)

def missLogged (out : Ref) (canonical : Text) (policy : Option FetchPolicy)
    (answers : Answers P) (other : Bool) : Call P n :=
  let s := { s with misses := s.misses + 1 }
  if s.hasInsertCapacity = false then Call.fail s out [] (failed .full .ok .ok)
  else
    match cfg.loadLogged canonical policy answers other with
    | (log, .error failure) => Call.fail s out log failure
    | (log, .ok (source, program)) => Call.borrow out log (s.insert cfg canonical source program)

/-- `vxml_document_store_acquire_with_policy`. -/
def acquireLogged (uri : Text) (policy : Option FetchPolicy)
    (answers : Answers P) (other : Bool) : Call P n :=
  if uriBytesValid uri = false ∨ cfg.maxUriBytes < uri.length ∨ policy.any cfg.malformed then
    Call.fail s .zero [] ⟨.invalidArgument, .clear⟩
  else if cfg.hasFetchaudio policy ∧ ¬ policy.any cfg.fetchaudioAccepted then
    Call.fail s .zero [] (failed .invalidArgument .invalidArgument .ok)
  else if n ≤ s.activeBorrows then Call.fail s .zero [] (failed .full .ok .ok)
  else if answers.canonicalAllocated = false then
    Call.fail s .zero [] (failed .allocationFailed .ok .ok)
  else
    match normalizeAbsoluteUri cfg.maxUriBytes uri with
    | none => Call.fail s .zero [] (failed .invalidUri .ok .ok)
    | some canonical =>
      match s.findEntry canonical with
      | some i => Call.borrow .zero [] (s.hit i)
      | none => s.missLogged cfg .zero canonical policy answers other

/-! ## When documents are lost -/

def pinnedBytes : ℕ :=
  Slots.total (fun e => if e.pins = 0 then 0 else e.allocationSize) s.entries

def passesChecks (uri : Text) (policy : Option FetchPolicy) (answers : Answers P) : Bool :=
  uriBytesValid uri && decide (uri.length ≤ cfg.maxUriBytes) && !policy.any cfg.malformed &&
    (!cfg.hasFetchaudio policy || policy.any cfg.fetchaudioAccepted) &&
    decide (s.activeBorrows < n) && answers.canonicalAllocated

/-- Rows are evicted, and there is too little room still. -/
def evictsInVain (uri : Text) (policy : Option FetchPolicy) (answers : Answers P) : Bool :=
  s.passesChecks cfg uri policy answers &&
    (normalizeAbsoluteUri cfg.maxUriBytes uri).any fun canonical =>
      (s.findEntry canonical).isNone && s.findLruUnpinned.isSome &&
        (cfg.load canonical policy answers).toOption.any fun document =>
          decide (cfg.maxCacheBytes <
            s.pinnedBytes + Config.allocationSize canonical document.1)

structure SameCache (s s' : Store P n) : Prop where
  entries : s'.entries = s.entries
  borrows : s'.borrows = s.borrows
  activeBorrows : s'.activeBorrows = s.activeBorrows
  cachedBytes : s'.cachedBytes = s.cachedBytes

end Store

/-! ## The log -/

/-- Each handle is taken at most once, and returned once. -/
structure Clean (log : List (Event Handle)) : Prop where
  settles : Settles [] log []
  once : ∀ handle, log.count (.taken handle) ≤ 1

theorem Clean.nil : Clean [] := ⟨rfl, fun handle => by cases handle <;> decide⟩

theorem Clean.finished (finish : Bool) : Clean (Config.finishAtOnce finish) := by
  cases finish
  · exact .nil
  · exact ⟨by decide, fun handle => by cases handle <;> decide⟩

namespace Config

variable {cfg : Config} {P : Type} {canonical : Text} {policy : Option FetchPolicy}
  {answers : Answers P} {other started : Bool} {log : List (Event Handle)}

theorem fetchAudioBeginLogged_result (uri : Text) (answer : AudioAnswer) (other : Bool) :
    (cfg.fetchAudioBeginLogged uri answer other).2 = cfg.fetchAudioBegin uri answer := by
  unfold fetchAudioBeginLogged fetchAudioBegin
  split_ifs
  · rfl
  · rfl
  · cases answer with
    | started finish => cases finish <;> rfl
    | skipped finish user => cases finish <;> cases user <;> rfl
    | other => rfl

def ticketLog (started : Bool) : List (Event Handle) := if started then [.taken .ticket] else []

theorem fetchAudioBeginLogged_log (uri : Text) (answer : AudioAnswer) (other : Bool) :
    (∃ status, (cfg.fetchAudioBeginLogged uri answer other).2 = .error status ∧
      Clean (cfg.fetchAudioBeginLogged uri answer other).1) ∨
    ∃ started, cfg.fetchAudioBeginLogged uri answer other
      = (ticketLog started, .ok started) := by
  unfold fetchAudioBeginLogged
  split_ifs
  · exact .inl ⟨_, rfl, .nil⟩
  · exact .inr ⟨false, rfl⟩
  · cases answer with
    | started finish =>
      cases finish
      · exact .inl ⟨_, rfl, .nil⟩
      · exact .inr ⟨true, rfl⟩
    | skipped finish user =>
      cases finish
      · cases user
        · exact .inr ⟨false, rfl⟩
        · exact .inl ⟨_, rfl, .nil⟩
      · exact .inl ⟨_, rfl, .finished true⟩
    | other => exact .inl ⟨_, rfl, .finished other⟩

theorem beginPlaybackLogged_result (policy : Option FetchPolicy) (answers : Answers P)
    (other : Bool) :
    (cfg.beginPlaybackLogged policy answers other).2 = cfg.beginPlayback policy answers := by
  unfold beginPlaybackLogged beginPlayback
  split_ifs
  · exact fetchAudioBeginLogged_result _ _ _
  · rfl

theorem beginPlaybackLogged_log (policy : Option FetchPolicy) (answers : Answers P)
    (other : Bool) :
    (∃ status, (cfg.beginPlaybackLogged policy answers other).2 = .error status ∧
      Clean (cfg.beginPlaybackLogged policy answers other).1) ∨
    ∃ started, cfg.beginPlaybackLogged policy answers other
      = (ticketLog started, .ok started) := by
  unfold beginPlaybackLogged
  split_ifs
  · exact fetchAudioBeginLogged_log _ _ _
  · exact .inr ⟨false, rfl⟩

theorem openLog_failed {status : ResourceStatus} (h : status ≠ .ok) (started : Bool) :
    Clean (ticketLog started ++ openLog started status) := by
  rw [openLog, if_neg h]
  cases started
  · exact .nil
  · exact .finished true

theorem openLog_closed (started : Bool) :
    Clean (ticketLog started ++ openLog started .ok ++
      [.returned .lease]) := by
  cases started
  · exact ⟨by decide, fun handle => by cases handle <;> decide⟩
  · exact ⟨by decide, fun handle => by cases handle <;> decide⟩

theorem loadLogged_result (canonical : Text) (policy : Option FetchPolicy) (answers : Answers P)
    (other : Bool) :
    (cfg.loadLogged canonical policy answers other).2 = cfg.load canonical policy answers := by
  unfold loadLogged load
  rw [← beginPlaybackLogged_result policy answers other]
  by_cases htimeout : policy.any (·.hasTimeout) ∧ cfg.openWithPolicy = false
  · rw [if_pos htimeout, if_pos htimeout]
  rw [if_neg htimeout, if_neg htimeout]
  obtain ⟨log, result⟩ := cfg.beginPlaybackLogged policy answers other
  cases result with
  | error status => rfl
  | ok started =>
    split_ifs <;> rfl

/-- **The load.** Every way out closes the lease and finishes the ticket. -/
theorem loadLogged_clean (canonical : Text) (policy : Option FetchPolicy) (answers : Answers P)
    (other : Bool) : Clean (cfg.loadLogged canonical policy answers other).1 := by
  unfold loadLogged
  by_cases htimeout : policy.any (·.hasTimeout) ∧ cfg.openWithPolicy = false
  · rw [if_pos htimeout]
    exact .nil
  rw [if_neg htimeout]
  rcases cfg.beginPlaybackLogged_log policy answers other with
    ⟨status, hstatus, hclean⟩ | ⟨started, hbegin⟩
  · generalize cfg.beginPlaybackLogged policy answers other = playback at hstatus hclean
    obtain ⟨log, result⟩ := playback
    cases hstatus
    exact hclean
  · rw [hbegin]
    dsimp only
    by_cases hopen : answers.openStatus = .ok
    · rw [if_neg (not_not.mpr hopen), hopen]
      split_ifs <;> exact openLog_closed started
    · rw [if_pos hopen]
      exact openLog_failed hopen started

end Config

namespace Store

variable {P : Type} {n : ℕ} {cfg : Config} {s s' : Store P n} {i : Fin n}

/-- The call with a log does what `r` says, with the reference that was written. -/
structure Logs (call : Call P n) (r : Store P n × Except Failure Ref) : Prop where
  store : call.store = r.1
  clean : Clean call.log
  ok : ∀ ref, r.2 = .ok ref → call.result = .ok () ∧ call.out = ref
  error : ∀ failure, r.2 = .error failure → call.result = .error failure ∧ call.out = .zero

variable {log : List (Event Handle)}

theorem Logs.fail (hclean : Clean log) (s : Store P n)
    (failure : Failure) : Logs (Call.fail s .zero log failure) (s, .error failure) where
  store := rfl
  clean := hclean
  ok := fun ref h => by cases h
  error := fun other h => by
    cases h
    exact ⟨rfl, rfl⟩

theorem Logs.borrow (hclean : Clean log)
    (r : Store P n × Except Failure Ref) : Logs (Call.borrow .zero log r) r := by
  obtain ⟨s, result⟩ := r
  cases result with
  | error failure => exact .fail hclean s failure
  | ok ref =>
    constructor
    · rfl
    · exact hclean
    · intro other h
      cases h
      exact ⟨rfl, rfl⟩
    · intro failure h
      cases h

/-- **The call with its log** is the call of `acquire`. -/
theorem acquireLogged_eq (s : Store P n) (uri : Text) (policy : Option FetchPolicy)
    (answers : Answers P) (other : Bool) :
    Logs (s.acquireLogged cfg uri policy answers other) (s.acquire cfg uri policy answers) := by
  unfold acquireLogged acquire
  split_ifs
  · exact .fail .nil s _
  · exact .fail .nil s _
  · exact .fail .nil s _
  · exact .fail .nil s _
  cases normalizeAbsoluteUri cfg.maxUriBytes uri with
  | none => exact .fail .nil s _
  | some canonical =>
    dsimp only
    cases s.findEntry canonical with
    | some i => exact .borrow .nil (s.hit i)
    | none =>
      unfold missLogged miss
      by_cases hroom : { s with misses := s.misses + 1 }.hasInsertCapacity = false
      · rw [if_pos hroom, if_pos hroom]
        exact .fail .nil _ _
      rw [if_neg hroom, if_neg hroom]
      have hclean := cfg.loadLogged_clean canonical policy answers other
      rw [← Config.loadLogged_result canonical policy answers other]
      generalize cfg.loadLogged canonical policy answers other = loaded at hclean
      obtain ⟨log, result⟩ := loaded
      cases result with
      | error failure => exact .fail hclean _ failure
      | ok document => exact .borrow hclean _

/-! ## The store after a failure -/

theorem allocateBorrow_free (hactive : tally Borrow.active s.borrows < n)
    (hoccupied : (s.entries i).occupied = true) : ∃ r, s.allocateBorrow i = .ok r := by
  obtain ⟨k, hk⟩ := exists_of_tally_lt hactive
  unfold allocateBorrow
  rw [hoccupied, if_neg (by decide)]
  cases hfind : Fin.find? fun k => !(s.borrows k).active with
  | none =>
    have hall := Fin.find?_eq_none_iff.mp hfind k
    rw [hk] at hall
    cases hall
  | some k' => exact ⟨_, rfl⟩

theorem Sound.bytesOf_pinned (h : Sound cfg s) (hpins : (s.entries i).pins ≠ 0) :
    bytesOf (s.entries i) = (s.entries i).allocationSize := by
  have hoccupied : (s.entries i).occupied = true := by
    by_contra hempty
    exact hpins (h.unpinned (Bool.eq_false_of_not_eq_true hempty))
  rw [bytesOf, if_pos hoccupied]

theorem Trimmed.pinnedBytes_le (h : Trimmed s s') (hs : Sound cfg s) (hs' : Sound cfg s') :
    s.pinnedBytes ≤ s'.cachedBytes := by
  rw [hs'.bytes]
  refine total_mono fun i => ?_
  split_ifs with hpins
  · exact Nat.zero_le _
  · rw [h.eq_of_pinned hpins, hs.bytesOf_pinned hpins]

theorem Trimmed.cachedBytes_eq (h : Trimmed s s') (hs : Sound cfg s) (hs' : Sound cfg s')
    (hnone : s'.findLruUnpinned = none) : s'.cachedBytes = s.pinnedBytes := by
  rw [hs'.bytes]
  refine total_congr fun i => ?_
  have hkept := bestSlot_eq_none hnone i
  rcases h.entries i with hsame | ⟨hempty, hpins⟩
  · rw [hsame] at hkept ⊢
    split_ifs with hpins
    · have hempty : (s.entries i).occupied = false := by simpa [hpins] using hkept
      rw [bytesOf, hempty, if_neg Bool.false_ne_true]
    · exact hs.bytesOf_pinned hpins
  · rw [bytesOf, hempty, if_neg Bool.false_ne_true, if_pos hpins]

theorem makeRoomLoop_kept (budget fuel : ℕ) (h : s.findLruUnpinned = none) :
    (makeRoomLoop budget fuel s).1 = s := by
  cases fuel with
  | zero => rfl
  | succ fuel =>
    unfold makeRoomLoop
    cases s.findEmpty.filter fun _ => s.cachedBytes ≤ budget with
    | some slot => rfl
    | none =>
      rw [h]

theorem makeRoomLoop_full {budget fuel : ℕ} (hfuel : tally Entry.occupied s.entries < fuel)
    (h : (makeRoomLoop budget fuel s).2 = none)
    (hempty : (makeRoomLoop budget fuel s).1.findEmpty = some i) :
    budget < (makeRoomLoop budget fuel s).1.cachedBytes := by
  induction fuel generalizing s with
  | zero => exact absurd hfuel (Nat.not_lt_zero _)
  | succ fuel ih =>
    unfold makeRoomLoop at h hempty ⊢
    cases hroom : s.findEmpty.filter fun _ => s.cachedBytes ≤ budget with
    | some slot =>
      rw [hroom] at h
      cases h
    | none =>
      rw [hroom] at h hempty
      cases hlru : s.findLruUnpinned with
      | none =>
        rw [hlru] at hempty
        rw [hempty] at hroom
        simpa using hroom
      | some slot =>
        rw [hlru] at h hempty
        have hless := evict_occupied hlru
        exact ih (by omega) h hempty

theorem Trimmed.findEmpty_isSome (h : Trimmed s s') (hcapacity : s.hasInsertCapacity = true)
    (hnone : s'.findLruUnpinned = none) : ∃ i, s'.findEmpty = some i := by
  have hempty : ∃ i, (s'.entries i).occupied = false := by
    rcases Bool.or_eq_true_iff.mp hcapacity with hfree | hlru
    · obtain ⟨i, hi⟩ := Option.isSome_iff_exists.mp hfree
      refine ⟨i, ?_⟩
      rcases h.entries i with hsame | hempty
      · rw [hsame]
        exact findEmpty_eq_some hi
      · exact hempty.1
    · obtain ⟨i, hi⟩ := Option.isSome_iff_exists.mp hlru
      obtain ⟨-, hpins⟩ := findLruUnpinned_eq_some hi
      refine ⟨i, ?_⟩
      rcases h.entries i with hsame | hempty
      · have hkept := bestSlot_eq_none hnone i
        rw [hsame] at hkept ⊢
        simpa [hpins] using hkept
      · exact hempty.1
  obtain ⟨i, hi⟩ := hempty
  cases hfind : s'.findEmpty with
  | some i' => exact ⟨i', rfl⟩
  | none =>
    have hall := Fin.find?_eq_none_iff.mp hfind i
    rw [hi] at hall
    cases hall

/-- **No room.** The pinned rows and the new document do not fit. -/
theorem makeRoom_none_iff {maxCacheBytes newBytes : ℕ} (h : Sound cfg s)
    (hcapacity : s.hasInsertCapacity = true) (hle : newBytes ≤ maxCacheBytes) :
    (s.makeRoom maxCacheBytes newBytes).2 = none ↔ maxCacheBytes < s.pinnedBytes + newBytes := by
  obtain ⟨hsound, htrimmed, hslot⟩ := makeRoom_spec maxCacheBytes newBytes h
  constructor
  · intro hnone
    have hlru := makeRoom_none hle hnone
    obtain ⟨i, hi⟩ := htrimmed.findEmpty_isSome hcapacity hlru
    rw [← htrimmed.cachedBytes_eq h hsound hlru]
    unfold makeRoom at hnone hi ⊢
    rw [if_neg (Nat.not_lt.mpr hle)] at hnone hi ⊢
    have hfuel : tally Entry.occupied s.entries < n + 1 := Nat.lt_succ_of_le (tally_le _ _)
    have hfull := makeRoomLoop_full hfuel hnone hi
    omega
  · intro hfull
    cases hroom : (s.makeRoom maxCacheBytes newBytes).2 with
    | none => rfl
    | some i =>
      have hbytes := (hslot i hroom).2
      have hpinned := htrimmed.pinnedBytes_le h hsound
      omega

variable {canonical : Text} {policy : Option FetchPolicy} {answers : Answers P}

theorem load_le {document : List UInt8 × P} (h : cfg.load canonical policy answers = .ok document) :
    Config.allocationSize canonical document.1 ≤ cfg.maxCacheBytes := by
  unfold Config.load at h
  by_cases htimeout : policy.any (·.hasTimeout) ∧ cfg.openWithPolicy = false
  · rw [if_pos htimeout] at h
    cases h
  rw [if_neg htimeout] at h
  cases hbegin : cfg.beginPlayback policy answers with
  | error status =>
    rw [hbegin] at h
    cases h
  | ok started =>
    rw [hbegin] at h
    split_ifs at h with hopen hsize hcache hcopy
    cases hcompile : Config.compileSource answers.document.data answers with
    | error failure =>
      rw [hcompile] at h
      cases h
    | ok program =>
      rw [hcompile] at h
      cases h
      exact Nat.not_lt.mp hcache

variable {failure : Failure}

/-- **A failed insertion.** There was no room. -/
theorem Sound.insert_failure {source : List UInt8} {program : P}
    (h : Sound cfg s) (hactive : s.activeBorrows < n)
    (hfail : (s.insert cfg canonical source program).2 = .error failure) :
    (s.makeRoom cfg.maxCacheBytes (Config.allocationSize canonical source)).2 = none ∧
      (s.insert cfg canonical source program).1
        = (s.makeRoom cfg.maxCacheBytes (Config.allocationSize canonical source)).1 := by
  obtain ⟨hsound, htrimmed, hslot⟩ := makeRoom_spec cfg.maxCacheBytes
    (Config.allocationSize canonical source) h
  unfold Store.insert at hfail ⊢
  generalize s.makeRoom cfg.maxCacheBytes (Config.allocationSize canonical source) = room
    at hsound htrimmed hslot hfail ⊢
  obtain ⟨s', slot⟩ := room
  cases slot with
  | none => exact ⟨rfl, rfl⟩
  | some i =>
    dsimp only at hfail htrimmed
    have hfree : tally Borrow.active (s'.publish i canonical source program).borrows < n := by
      change tally Borrow.active s'.borrows < n
      rw [htrimmed.borrows, ← h.active]
      exact hactive
    have hoccupied : ((s'.publish i canonical source program).entries i).occupied = true := by
      simp [Store.publish]
    obtain ⟨r, hr⟩ := allocateBorrow_free hfree hoccupied
    rw [hr] at hfail
    cases hfail

theorem makeRoom_failure {newBytes : ℕ}
    (hnone : (s.makeRoom cfg.maxCacheBytes newBytes).2 = none)
    (hle : newBytes ≤ cfg.maxCacheBytes) :
    SameCache s (s.makeRoom cfg.maxCacheBytes newBytes).1 ↔ s.findLruUnpinned = none := by
  constructor
  · intro hsame
    have hlru := makeRoom_none hle hnone
    unfold findLruUnpinned at hlru ⊢
    rw [hsame.entries] at hlru
    exact hlru
  · intro hlru
    unfold makeRoom
    rw [if_neg (Nat.not_lt.mpr hle), makeRoomLoop_kept _ _ hlru]
    exact ⟨rfl, rfl, rfl, rfl⟩

theorem Sound.miss_failure (h : Sound cfg s) (hactive : s.activeBorrows < n)
    (hfail : (s.miss cfg canonical policy answers).2 = .error failure) :
    SameCache s (s.miss cfg canonical policy answers).1 ↔
      (s.findLruUnpinned.isSome &&
        (cfg.load canonical policy answers).toOption.any fun document =>
          decide (cfg.maxCacheBytes <
            s.pinnedBytes + Config.allocationSize canonical document.1)) = false := by
  have hcounted : Sound cfg { s with misses := s.misses + 1 } := h.counters s.hits (s.misses + 1)
  have hkept : SameCache s { s with misses := s.misses + 1 } := ⟨rfl, rfl, rfl, rfl⟩
  unfold miss at hfail ⊢
  by_cases hcapacity : { s with misses := s.misses + 1 }.hasInsertCapacity = false
  · rw [if_pos hcapacity]
    have hlru : s.findLruUnpinned.isSome = false := (Bool.or_eq_false_iff.mp hcapacity).2
    rw [hlru, Bool.false_and]
    exact ⟨fun _ => rfl, fun _ => hkept⟩
  rw [if_neg hcapacity] at hfail ⊢
  cases hload : cfg.load canonical policy answers with
  | error other =>
    dsimp only [Except.toOption, Option.any]
    rw [Bool.and_false]
    exact ⟨fun _ => rfl, fun _ => hkept⟩
  | ok document =>
    rw [hload] at hfail
    have hle := load_le hload
    obtain ⟨hnone, hstore⟩ := hcounted.insert_failure hactive hfail
    have hfull := (makeRoom_none_iff hcounted (Bool.eq_true_of_not_eq_false hcapacity) hle).mp hnone
    have hroom := makeRoom_failure hnone hle
    have hany : (Except.ok document : Except Failure (List UInt8 × P)).toOption.any
        (fun document => decide (cfg.maxCacheBytes <
          s.pinnedBytes + Config.allocationSize canonical document.1)) = true :=
      decide_eq_true hfull
    rw [hstore, hany, Bool.and_true, Option.isSome_eq_false_iff, Option.isNone_iff_eq_none]
    refine Iff.trans ⟨fun hsame => ?_, fun hsame => ?_⟩ hroom
    · exact ⟨hsame.entries, hsame.borrows, hsame.activeBorrows, hsame.cachedBytes⟩
    · exact ⟨hsame.entries, hsame.borrows, hsame.activeBorrows, hsame.cachedBytes⟩

variable {uri : Text}

theorem passesChecks_iff : s.passesChecks cfg uri policy answers = true ↔
      ¬(uriBytesValid uri = false ∨ cfg.maxUriBytes < uri.length ∨ policy.any cfg.malformed) ∧
      ¬(cfg.hasFetchaudio policy ∧ ¬ policy.any cfg.fetchaudioAccepted) ∧
      ¬n ≤ s.activeBorrows ∧ ¬answers.canonicalAllocated = false := by
  simp only [passesChecks, Bool.and_eq_true, Bool.or_eq_true, decide_eq_true_eq,
    Bool.not_eq_true']
  grind

theorem acquire_checks (h : s.passesChecks cfg uri policy answers = false) :
    (s.acquire cfg uri policy answers).1 = s := by
  unfold acquire
  split_ifs with huri haudio hactive halloc
  · rfl
  · rfl
  · rfl
  · rfl
  · rw [passesChecks_iff.mpr ⟨huri, haudio, hactive, halloc⟩] at h
    cases h

/-- **A failed call of `acquire`.** -/
theorem Sound.acquire_failed (h : Sound cfg s)
    (hfail : (s.acquire cfg uri policy answers).2 = .error failure) :
    SameCache s (s.acquire cfg uri policy answers).1 ↔
      s.evictsInVain cfg uri policy answers = false := by
  have hrefl : SameCache s s := ⟨rfl, rfl, rfl, rfl⟩
  unfold evictsInVain
  cases hchecks : s.passesChecks cfg uri policy answers with
  | false =>
    rw [acquire_checks hchecks, Bool.false_and]
    exact ⟨fun _ => rfl, fun _ => hrefl⟩
  | true =>
    obtain ⟨huri, haudio, hactive, halloc⟩ := passesChecks_iff.mp hchecks
    unfold Store.acquire at hfail ⊢
    rw [if_neg huri, if_neg haudio, if_neg hactive, if_neg halloc] at hfail ⊢
    cases hcanonical : normalizeAbsoluteUri cfg.maxUriBytes uri with
    | none => exact ⟨fun _ => rfl, fun _ => hrefl⟩
    | some canonical =>
      rw [hcanonical] at hfail
      dsimp only [Option.any] at hfail ⊢
      cases hentry : s.findEntry canonical with
      | some i =>
        -- a borrow row is free, so that a hit does not fail
        rw [hentry] at hfail
        dsimp only at hfail
        unfold Store.hit at hfail
        have hfree : tally Borrow.active s.borrows < n := by
          rw [← h.active]
          exact Nat.not_le.mp hactive
        have hoccupied : (s.entries i).occupied = true :=
          (Bool.and_eq_true_iff.mp (Fin.find?_eq_some_iff.mp hentry).1).1
        obtain ⟨r, hr⟩ := allocateBorrow_free hfree hoccupied
        rw [hr] at hfail
        cases hfail
      | none =>
        rw [hentry] at hfail
        exact h.miss_failure (Nat.not_le.mp hactive) hfail

end Store

namespace System

variable {P : Type} {n : ℕ} {cfg : Config} {s : System P n} {st : Store P n}

/-- **Main.** A failed call of `acquire` writes no reference, returns what it took once, and keeps
the documents and the borrows unless it evicts rows in vain. -/
theorem acquire_failure (h : Reachable cfg s) (hst : s.store = some st) (uri : Text)
    (policy : Option FetchPolicy) (answers : Answers P) (other : Bool)
    (hfail : (st.acquireLogged cfg uri policy answers other).result.isOk = false) :
    (st.acquireLogged cfg uri policy answers other).out = .zero ∧
    Settles [] (st.acquireLogged cfg uri policy answers other).log [] ∧
    (∀ handle,
      (st.acquireLogged cfg uri policy answers other).log.count (.taken handle) ≤ 1 ∧
      (st.acquireLogged cfg uri policy answers other).log.count (.returned handle)
        = (st.acquireLogged cfg uri policy answers other).log.count (.taken handle)) ∧
    (Store.SameCache st (st.acquireLogged cfg uri policy answers other).store ↔
      st.evictsInVain cfg uri policy answers = false) := by
  have hlogs : Store.Logs _ (st.acquire cfg uri policy answers) :=
    Store.acquireLogged_eq st uri policy answers other
  have hclean := hlogs.clean
  cases hresult : (st.acquire cfg uri policy answers).2 with
  | ok ref =>
    rw [(hlogs.ok ref hresult).1] at hfail
    cases hfail
  | error failure =>
    refine ⟨(hlogs.error failure hresult).2, hclean.settles,
      fun handle => ⟨hclean.once handle, hclean.settles.once handle⟩, ?_⟩
    rw [hlogs.store]
    exact (h.sound.store st hst).acquire_failed hresult

def fourBytes : Answers Unit := { oneByte with document := .bytes [0, 0, 0, 0] }

def crowdedState : System Unit 2 :=
  (Machine.exec (step storeConfig) (init Unit 2)
    [.acquire "http://h/a".toList none fourBytes, .acquire "http://h/b".toList none oneByte,
      .release ⟨2, 1, 2, 1⟩]).get rfl

def crowdedStore : Store Unit 2 := crowdedState.store.get rfl

theorem crowdedState_reachable : Reachable storeConfig crowdedState := by
  have hinit : Reachable storeConfig (init Unit 2) := .of_init rfl
  exact hinit.runs (Machine.exec_runs (Option.some_get _).symm)

theorem crowdedStore_compileError :
    Store.SameCache crowdedStore (crowdedStore.acquireLogged storeConfig "http://h/c".toList none
      { fourBytes with compileStatus := .xmlError } false).store :=
  (acquire_failure crowdedState_reachable (Option.some_get _).symm "http://h/c".toList none
    { fourBytes with compileStatus := .xmlError } false (by decide +kernel)).2.2.2.mpr
      (by decide +kernel)

theorem crowdedStore_evicted :
    ¬∀ (cfg : Config) (s : System Unit 2) (st : Store Unit 2) (uri : Text)
      (policy : Option FetchPolicy) (answers : Answers Unit) (other : Bool),
      Reachable cfg s → s.store = some st →
      (st.acquireLogged cfg uri policy answers other).result.isOk = false →
      Store.SameCache st (st.acquireLogged cfg uri policy answers other).store := by
  intro h
  have hsame := h storeConfig crowdedState crowdedStore "http://h/abcdefg".toList none fourBytes
    false crowdedState_reachable (Option.some_get _).symm (by decide +kernel)
  have hoccupied : ((crowdedStore.acquireLogged storeConfig "http://h/abcdefg".toList none
      fourBytes false).store.entries 1).occupied = false := by decide +kernel
  rw [hsame.entries] at hoccupied
  revert hoccupied
  decide +kernel

end System

end DocumentStore

end TurboScxml.Voice
