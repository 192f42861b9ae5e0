import TurboScxml.Lib.Machine
import TurboScxml.Lib.Table
import TurboScxml.Voice.Uri

/-!
# The document store

`voicexml_document_store.c`: a cache of compiled documents with a fixed number of rows and a bound
on its bytes. Borrows pin a row; a row without pins may be evicted.

* `Store` and its parts: entries, borrows and counters;
* `System.step`: the calls in any order, with the references that were released.
-/

namespace TurboScxml.Voice

namespace DocumentStore

open Function

/-! ## Data -/

/-- `vxml_document_store_status`. -/
inductive Status
  | ok | invalidArgument | allocationFailed | invalidUri | limitExceeded | full | resourceError
  | compileError | stale | busy
  deriving DecidableEq

/-- `vxml_dialog_manager_status`. -/
inductive ResourceStatus
  | ok | invalidArgument | allocationFailed | full | closed | notFound | invalidState
  | documentError | vxmlError | eventFull | eventClosed | busy
  deriving DecidableEq

inductive VoiceStatus
  | ok | invalidArgument | xmlError | allocationFailed | limitExceeded | invalidNamespace
  | invalidVersion | duplicateId | invalidStructure | unsupportedFeature | invalidState | closed
  | invalidContract | semanticError
  deriving DecidableEq

/-- `vxml_document_store_error`. -/
structure StoreError where
  status : Status
  resource : ResourceStatus
  voice : VoiceStatus
  deriving DecidableEq

def StoreError.clear : StoreError := ⟨.ok, .ok, .ok⟩

/-- What a failed call returns and writes to `out_error`. -/
structure Failure where
  status : Status
  error : StoreError
  deriving DecidableEq

def failed (status : Status) (resource : ResourceStatus) (voice : VoiceStatus) : Failure :=
  ⟨status, status, resource, voice⟩

/-- `vxml_document_entry`. -/
structure Entry (P : Type) where
  generation : ℕ
  occupied : Bool
  pins : ℕ
  lastUsed : ℕ
  allocationSize : ℕ
  uri : Text
  source : List UInt8
  program : Option P

def Entry.empty (P : Type) (generation : ℕ) : Entry P :=
  ⟨generation, false, 0, 0, 0, [], [], none⟩

/-- `vxml_document_borrow`. -/
structure Borrow where
  active : Bool
  generation : ℕ
  entryIndex : ℕ
  entryGeneration : ℕ
  deriving DecidableEq

/-- `vxml_document_ref`. -/
structure Ref where
  slot : ℕ
  generation : ℕ
  borrowSlot : ℕ
  borrowGeneration : ℕ
  deriving DecidableEq

/-- `vxml_document_view`. -/
structure View (P : Type) where
  uri : Text
  source : List UInt8
  program : Option P

/-- `vxml_document_store_impl`. -/
structure Store (P : Type) (n : ℕ) where
  entries : Fin n → Entry P
  borrows : Fin n → Borrow
  cachedBytes : ℕ
  activeBorrows : ℕ
  clock : ℕ
  hits : ℕ
  misses : ℕ
  evictions : ℕ

def nextGeneration (g : ℕ) : ℕ := if g = uint32Max then 1 else g + 1

/-- `vxml_document_fetch_policy_v1`. -/
structure FetchPolicy where
  abiVersion : ℕ
  structSize : ℕ
  hasTimeout : Bool
  hasFetchaudio : Bool
  /-- `none` is a null pointer. -/
  fetchaudioUri : Option Text
  deriving DecidableEq

/-- What `vxml_document_store_init` fixes. -/
structure Config where
  maxUriBytes : ℕ
  maxDocumentBytes : ℕ
  maxCacheBytes : ℕ
  openWithPolicy : Bool
  fetchAudioEnabled : Bool
  policySize : ℕ
  fetchaudioFlagTail : ℕ
  fetchaudioTail : ℕ

/-- What `begin` of the fetch audio adapter returns. -/
inductive AudioAnswer
  | started (finish : Bool)
  | skipped (finish user : Bool)
  | other
  deriving DecidableEq

/-- `vxml_dialog_document`. -/
inductive Document
  | null (size : ℕ)
  | bytes (data : List UInt8)
  deriving DecidableEq

def Document.size : Document → ℕ
  | .null size => size
  | .bytes data => data.length

def Document.data : Document → List UInt8
  | .null _ => []
  | .bytes data => data

structure Answers (P : Type) where
  canonicalAllocated : Bool
  audio : AudioAnswer
  openStatus : ResourceStatus
  document : Document
  copyAllocated : Bool
  compileStatus : VoiceStatus
  program : Option P
  diagnostic : VoiceStatus

/-! ## Entries -/

namespace Store

variable {P : Type} {n : ℕ}

def init (P : Type) (n : ℕ) : Store P n where
  entries := fun _ => .empty P 0
  borrows := fun _ => ⟨false, 0, 0, 0⟩
  cachedBytes := 0
  activeBorrows := 0
  clock := 0
  hits := 0
  misses := 0
  evictions := 0

variable (s : Store P n)

def evict (i : Fin n) : Store P n :=
  if (s.entries i).occupied = false ∨ (s.entries i).pins ≠ 0 then s
  else
    { s with
      entries := update s.entries i (.empty P (s.entries i).generation)
      cachedBytes :=
        if (s.entries i).allocationSize ≤ s.cachedBytes
        then s.cachedBytes - (s.entries i).allocationSize else s.cachedBytes
      evictions := s.evictions + 1 }

def findEntry (uri : Text) : Option (Fin n) :=
  Fin.find? fun i => (s.entries i).occupied && (s.entries i).uri == uri

def findEmpty : Option (Fin n) := Fin.find? fun i => !(s.entries i).occupied

def findLruUnpinned : Option (Fin n) :=
  Slots.bestSlot (fun i => (s.entries i).occupied && (s.entries i).pins == 0)
    fun i best => (s.entries i).lastUsed < (s.entries best).lastUsed

def hasInsertCapacity : Bool := s.findEmpty.isSome || s.findLruUnpinned.isSome

/-- The loop of `make_room`. -/
def makeRoomLoop (budget : ℕ) : ℕ → Store P n → Store P n × Option (Fin n)
  | 0, s => (s, none)
  | fuel + 1, s =>
    match s.findEmpty.filter fun _ => s.cachedBytes ≤ budget with
    | some slot => (s, some slot)
    | none =>
      match s.findLruUnpinned with
      | none => (s, none)
      | some slot => makeRoomLoop budget fuel (s.evict slot)

def makeRoom (maxCacheBytes newBytes : ℕ) (s : Store P n) : Store P n × Option (Fin n) :=
  if maxCacheBytes < newBytes then (s, none)
  else makeRoomLoop (maxCacheBytes - newBytes) (n + 1) s

/-! ## Borrows -/

variable (s : Store P n)

def borrowFromRef (ref : Ref) : Option (Fin n) :=
  if h : ref.borrowSlot = 0 ∨ n < ref.borrowSlot ∨ ref.borrowGeneration = 0 then none
  else
    let k : Fin n := ⟨ref.borrowSlot - 1, by omega⟩
    if (s.borrows k).active = true ∧ (s.borrows k).generation = ref.borrowGeneration ∧
        (s.borrows k).entryIndex + 1 = ref.slot ∧ (s.borrows k).entryGeneration = ref.generation
    then some k else none

def entryFromRef (ref : Ref) : Option (Fin n) :=
  match s.borrowFromRef ref with
  | none => none
  | some k =>
    if h : ref.slot = 0 ∨ n < ref.slot ∨ ref.generation = 0 then none
    else
      let i : Fin n := ⟨ref.slot - 1, by omega⟩
      if (s.entries i).occupied = true ∧ (s.entries i).generation = ref.generation ∧
          (s.borrows k).entryIndex = ref.slot - 1
      then some i else none

def refOf (i k : Fin n) : Ref where
  slot := i + 1
  generation := (s.entries i).generation
  borrowSlot := k + 1
  borrowGeneration := nextGeneration (s.borrows k).generation

def activate (i k : Fin n) : Store P n :=
  { s with
    entries := update s.entries i { s.entries i with pins := (s.entries i).pins + 1 }
    borrows := update s.borrows k
      ⟨true, nextGeneration (s.borrows k).generation, i, (s.entries i).generation⟩
    activeBorrows := s.activeBorrows + 1 }

def allocateBorrow (i : Fin n) : Except Status (Store P n × Ref) :=
  if (s.entries i).occupied = false then .error .invalidArgument
  else
    match Fin.find? fun k => !(s.borrows k).active with
    | none => .error .full
    | some k => .ok (s.activate i k, s.refOf i k)

/-- `last_used = ++clock`. -/
def touch (i : Fin n) : Store P n :=
  { s with
    entries := update s.entries i { s.entries i with lastUsed := s.clock + 1 }
    clock := s.clock + 1 }

end Store

/-! ## Acquiring a document -/

namespace Config

variable (cfg : Config)

def malformed (policy : FetchPolicy) : Bool :=
  policy.abiVersion ≠ 1 || policy.structSize < cfg.policySize

def hasFetchaudio (policy : Option FetchPolicy) : Bool :=
  policy.any fun policy => cfg.fetchaudioFlagTail ≤ policy.structSize && policy.hasFetchaudio

def fetchaudioAccepted (policy : FetchPolicy) : Bool :=
  cfg.fetchaudioTail ≤ policy.structSize &&
    policy.fetchaudioUri.any fun uri =>
      uri.length ≤ cfg.maxUriBytes && uriBytesValid uri && (parseAbsoluteUri uri).isSome

/-- `vxml_document_store_fetch_audio_begin`. -/
def fetchAudioBegin (uri : Text) (answer : AudioAnswer) : Except Status Bool :=
  if (uri.length ≤ cfg.maxUriBytes && uriBytesValid uri && (parseAbsoluteUri uri).isSome) = false
  then .error .invalidArgument
  else if cfg.fetchAudioEnabled = false then .ok false
  else
    match answer with
    | .started finish => if finish then .ok true else .error .invalidArgument
    | .skipped finish user => if finish || user then .error .invalidArgument else .ok false
    | .other => .error .invalidArgument

variable {P : Type}

def beginPlayback (policy : Option FetchPolicy) (answers : Answers P) : Except Status Bool :=
  if cfg.hasFetchaudio policy then
    cfg.fetchAudioBegin ((policy.bind FetchPolicy.fetchaudioUri).getD []) answers.audio
  else .ok false

/-- `vxml_document_store_compile_source`. -/
def compileSource (source : List UInt8) (answers : Answers P) : Except Failure P :=
  if source = [] then .error (failed .invalidArgument .ok .invalidContract)
  else if answers.compileStatus ≠ .ok then
    .error (failed .compileError .ok
      (if answers.diagnostic = .ok then answers.compileStatus else answers.diagnostic))
  else
    match answers.program with
    | none => .error (failed .compileError .ok
      (if answers.diagnostic = .ok then .invalidContract else answers.diagnostic))
    | some program => .ok program

def allocationSize (canonical : Text) (source : List UInt8) : ℕ :=
  canonical.length + 1 + source.length + 1

def load (canonical : Text) (policy : Option FetchPolicy) (answers : Answers P) :
    Except Failure (List UInt8 × P) :=
  if policy.any (·.hasTimeout) ∧ cfg.openWithPolicy = false then
    .error (failed .resourceError .documentError .ok)
  else
    match cfg.beginPlayback policy answers with
    | .error status => .error (failed status .invalidArgument .ok)
    | .ok _ =>
      if answers.openStatus ≠ .ok then
        .error (failed .resourceError answers.openStatus .ok)
      else if cfg.maxDocumentBytes < answers.document.size ∨
          (answers.document.size ≠ 0 ∧ answers.document.data = []) then
        .error (failed .limitExceeded .ok .ok)
      else if cfg.maxCacheBytes < allocationSize canonical answers.document.data then
        .error (failed .limitExceeded .ok .ok)
      else if answers.copyAllocated = false then
        .error (failed .allocationFailed .ok .ok)
      else (compileSource answers.document.data answers).map (answers.document.data, ·)

end Config

namespace Store

variable {P : Type} {n : ℕ} (cfg : Config) (s : Store P n)

def publish (i : Fin n) (canonical : Text) (source : List UInt8) (program : P) : Store P n :=
  { s with
    entries := update s.entries i
      { generation := nextGeneration (s.entries i).generation
        occupied := true
        pins := 0
        lastUsed := s.clock + 1
        allocationSize := Config.allocationSize canonical source
        uri := canonical
        source
        program := some program }
    clock := s.clock + 1
    cachedBytes := s.cachedBytes + Config.allocationSize canonical source }

def insert (canonical : Text) (source : List UInt8) (program : P) :
    Store P n × Except Failure Ref :=
  match s.makeRoom cfg.maxCacheBytes (Config.allocationSize canonical source) with
  | (s', none) => (s', .error (failed .full .ok .ok))
  | (s', some i) =>
    match (s'.publish i canonical source program).allocateBorrow i with
    | .error status =>
      ((s'.publish i canonical source program).evict i, .error (failed status .ok .ok))
    | .ok (s'', ref) => (s'', .ok ref)

def hit (i : Fin n) : Store P n × Except Failure Ref :=
  match s.allocateBorrow i with
  | .error status => (s, .error (failed status .ok .ok))
  | .ok (s', ref) => ({ s'.touch i with hits := s.hits + 1 }, .ok ref)

def miss (canonical : Text) (policy : Option FetchPolicy) (answers : Answers P) :
    Store P n × Except Failure Ref :=
  let s := { s with misses := s.misses + 1 }
  if s.hasInsertCapacity = false then (s, .error (failed .full .ok .ok))
  else
    match cfg.load canonical policy answers with
    | .error failure => (s, .error failure)
    | .ok (source, program) => s.insert cfg canonical source program

def acquire (uri : Text) (policy : Option FetchPolicy) (answers : Answers P) :
    Store P n × Except Failure Ref :=
  if uriBytesValid uri = false ∨ cfg.maxUriBytes < uri.length ∨ policy.any cfg.malformed then
    (s, .error ⟨.invalidArgument, .clear⟩)
  else if cfg.hasFetchaudio policy ∧ ¬ policy.any cfg.fetchaudioAccepted then
    (s, .error (failed .invalidArgument .invalidArgument .ok))
  else if n ≤ s.activeBorrows then (s, .error (failed .full .ok .ok))
  else if answers.canonicalAllocated = false then
    (s, .error (failed .allocationFailed .ok .ok))
  else
    match normalizeAbsoluteUri cfg.maxUriBytes uri with
    | none => (s, .error (failed .invalidUri .ok .ok))
    | some canonical =>
      match s.findEntry canonical with
      | some i => s.hit i
      | none => s.miss cfg canonical policy answers

/-! ## The other calls -/

def view (ref : Ref) : Except Status (View P) :=
  match s.entryFromRef ref with
  | none => .error .stale
  | some i =>
    if (s.entries i).pins = 0 then .error .stale
    else .ok ⟨(s.entries i).uri, (s.entries i).source, (s.entries i).program⟩

def deactivate (i k : Fin n) : Store P n :=
  { s with
    entries := update s.entries i
      { s.entries i with pins := (s.entries i).pins - 1, lastUsed := s.clock + 1 }
    borrows := update s.borrows k { s.borrows k with active := false }
    activeBorrows := if s.activeBorrows ≠ 0 then s.activeBorrows - 1 else s.activeBorrows
    clock := s.clock + 1 }

def release (ref : Ref) : Store P n × Status :=
  match s.borrowFromRef ref, s.entryFromRef ref with
  | some k, some i => if (s.entries i).pins = 0 then (s, .stale) else (s.deactivate i k, .ok)
  | _, _ => (s, .stale)

def clear : Store P n × Status :=
  Slots.sweep (fun (s, status) i =>
    if (s.entries i).occupied = false then (s, status)
    else if (s.entries i).pins ≠ 0 then (s, .busy)
    else (s.evict i, status)) (s, .ok)

/-- `vxml_document_store_destroy`; `none`: it is freed. -/
def destroy : Option (Store P n) × Status :=
  if s.activeBorrows ≠ 0 then (some s, .busy) else (none, .ok)

end Store

/-! ## Calls in any order -/

/-- A store with the references that were released. -/
structure System (P : Type) (n : ℕ) where
  store : Option (Store P n)
  released : List Ref
  /-- The generation of some borrow row has started over. -/
  wrapped : Bool

inductive Action (P : Type)
  | acquire (uri : Text) (policy : Option FetchPolicy) (answers : Answers P)
  /-- The reference of `view` and `release` is any value. -/
  | view (ref : Ref)
  | release (ref : Ref)
  | clear
  | destroy

namespace System

variable {P : Type} {n : ℕ}

def init (P : Type) (n : ℕ) : System P n := ⟨some (.init P n), [], false⟩

def wraps (s s' : Store P n) : Bool :=
  (List.finRange n).any fun k => (s'.borrows k).generation < (s.borrows k).generation

def acquire (cfg : Config) (s : System P n) (st : Store P n) (uri : Text)
    (policy : Option FetchPolicy) (answers : Answers P) : System P n :=
  { s with
    store := some (st.acquire cfg uri policy answers).1
    wrapped := s.wrapped || wraps st (st.acquire cfg uri policy answers).1 }

def release (s : System P n) (st : Store P n) (ref : Ref) : System P n :=
  { s with
    store := some (st.release ref).1
    released := if (st.release ref).2 = .ok then ref :: s.released else s.released }

/-- **One call.** -/
def step (cfg : Config) (s : System P n) : Action P → Option (System P n)
  | .acquire uri policy answers => s.store.map fun st => s.acquire cfg st uri policy answers
  | .view _ => some s
  | .release ref => s.store.map fun st => s.release st ref
  | .clear => s.store.map fun st => { s with store := some st.clear.1 }
  | .destroy => s.store.map fun st => { s with store := st.destroy.1 }

def Initial (s : System P n) : Prop := s = init P n

abbrev Reachable (cfg : Config) (s : System P n) : Prop :=
  Machine.Reachable (step cfg) Initial s

end System

/-! ## What holds of a store -/

namespace Store

variable {P : Type} {n : ℕ}

def names (i : Fin n) (generation : ℕ) (b : Borrow) : Bool :=
  b.active && b.entryIndex == i && b.entryGeneration == generation

def bytesOf (e : Entry P) : ℕ := if e.occupied then e.allocationSize else 0

/-- Pins, borrows, bytes and URIs agree. -/
structure Sound (cfg : Config) (s : Store P n) : Prop where
  pins : ∀ i, (s.entries i).pins
    = Slots.tally (names i (s.entries i).generation) s.borrows
  live : ∀ k, (s.borrows k).active = true → ∃ i : Fin n, (s.borrows k).entryIndex = i ∧
    (s.entries i).occupied = true ∧ (s.entries i).generation = (s.borrows k).entryGeneration
  active : s.activeBorrows = Slots.tally Borrow.active s.borrows
  bytes : s.cachedBytes = Slots.total bytesOf s.entries
  bound : s.cachedBytes ≤ cfg.maxCacheBytes
  uris : ∀ i j, (s.entries i).occupied = true → (s.entries j).occupied = true →
    (s.entries i).uri = (s.entries j).uri → i = j

structure SameDocument (e e' : Entry P) : Prop where
  occupied : e'.occupied = e.occupied
  generation : e'.generation = e.generation
  uri : e'.uri = e.uri
  source : e'.source = e.source
  program : e'.program = e.program

end Store

end DocumentStore

end TurboScxml.Voice
