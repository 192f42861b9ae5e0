import Mathlib.Data.List.Basic
import Mathlib.Data.List.Nodup
import TurboScxml.Basic
import TurboScxml.Lib.Fallible

/-!
# Names of typed scopes

A dotted path is compiled to a list of candidates, and a session picks the first declared one.

* `appendPathCandidates`, `appendNamespaceCandidates`: the candidates of a path;
* `resolveLocation`: the first candidate that is a root field or a declared slot;
* `bare`, `member`, `select`: what a name means, without candidates and without objects.
-/

namespace TurboScxml.Voice.Scopes

open Fallible

abbrev Name := String

/-! ## Tables -/

/-- `vxml_cmeta_scope_kind`. -/
inductive ScopeKind
  | document | form | block
  deriving DecidableEq

/-- The named scopes, `scope_names`. -/
inductive Namespace
  | application | document | dialog
  deriving DecidableEq

def Namespace.name : Namespace → Name
  | .application => "application"
  | .document => "document"
  | .dialog => "dialog"

theorem Namespace.name_injective : Function.Injective Namespace.name := by
  intro s t h
  cases s <;> cases t <;> first | rfl | (revert h; decide)

def ScopeKind.namespaceId : ScopeKind → Option Namespace
  | .document => some .document
  | .form => some .dialog
  | .block => none

structure StorageType where
  supported : Bool
  size : ℕ
  align : ℕ
  deriving DecidableEq

/-- `cmeta_scope_slot` or a field of the root shape. -/
structure Slot where
  name : Name
  type : StorageType
  deriving DecidableEq

/-- `vxml_cmeta_scope_row`: its owner is a form for a form scope. -/
structure ScopeRow where
  kind : ScopeKind
  owner : ℕ
  slots : List Slot
  deriving DecidableEq

/-- What is read of a `vxml_cmeta_form_row`. -/
structure FormRow where
  firstField : ℕ
  fieldCount : ℕ
  firstSubdialog : ℕ
  subdialogCount : ℕ
  deriving DecidableEq

/-- The tables of a compiled program. A schema has each name once. -/
structure Program where
  scopes : List ScopeRow
  forms : List FormRow
  fields : List ℕ
  subdialogs : List ℕ
  root : List Slot
  qualifiedLocations : Bool
  slots_nodup : ∀ row ∈ scopes, (row.slots.map Slot.name).Nodup
  root_nodup : (root.map Slot.name).Nodup

inductive Cell
  | slot (scope index : ℕ)
  | root (field : ℕ)
  deriving DecidableEq

variable (P : Program)

def rangeValid (first count total : ℕ) : Bool := first ≤ total && count ≤ total - first

def formUsesRootField (form field : ℕ) : Bool :=
  match P.forms[form]? with
  | none => false
  | some row =>
    rangeValid row.firstField row.fieldCount P.fields.length &&
      rangeValid row.firstSubdialog row.subdialogCount P.subdialogs.length &&
      (((P.fields.drop row.firstField).take row.fieldCount).contains field ||
        ((P.subdialogs.drop row.firstSubdialog).take row.subdialogCount).contains field)

def scopeFind (scope : ℕ) (name : Name) : Option ℕ :=
  P.scopes[scope]?.bind fun row => row.slots.findIdx? (·.name == name)

def rootField (name : Name) : Option ℕ := P.root.findIdx? (·.name == name)

/-! ## Candidates -/

/-- `vxml_status` as far as locations use it. -/
inductive Status
  | invalidContract | invalidStructure | limitExceeded | semanticError
  deriving DecidableEq

/-- `vxml_cmeta_location_candidate_row`. -/
structure Candidate where
  cell : Cell
  rest : List Name
  deriving DecidableEq

/-- The types of paths, and which may stand for one location. -/
structure Types (D : Type) where
  locate : Cell → List Name → Except Status D
  scalar : D → Bool
  same : Bool → D → D → Bool

/-- `vxml_cmeta_location_row`. -/
structure LocationRow (D : Type) where
  collection : Bool
  value : Option D
  candidates : List Candidate

variable {D : Type} (T : Types D)

def addLocationCandidate (row : LocationRow D) (candidate : Candidate) (value : D) :
    Except Status (LocationRow D) :=
  if !row.collection && !T.scalar value then .error .semanticError
  else if row.value.any fun first => !T.same row.collection first value then .error .semanticError
  else .ok { row with
    value := row.value.or (some value)
    candidates := row.candidates ++ [candidate] }

/-- `cmeta_append_scope_candidate` and `…_root_candidate`. -/
def appendCandidate (row : LocationRow D) (cell : Cell) (rest : List Name) :
    Except Status (LocationRow D) := do
  let value ← T.locate cell rest
  addLocationCandidate T row ⟨cell, rest⟩ value

def appendScopeCandidate (row : LocationRow D) (first : Name) (rest : List Name) (scope : ℕ) :
    Except Status (LocationRow D) :=
  match scopeFind P scope first with
  | none => .ok row
  | some index => appendCandidate T row (.slot scope index) rest

def namespaceRootField (scope : Option ℕ) (name : Name) : Option ℕ :=
  (rootField P name).filter fun field =>
    match scope with
    | none => true
    | some id =>
      match P.scopes[id]? with
      | some row => row.kind == .form && formUsesRootField P row.owner field
      | none => false

/-- The slot of a named scope; `application` has none. -/
def appendOwnerCandidate (row : LocationRow D) (first : Name) (rest : List Name) :
    Option ℕ → Except Status (LocationRow D)
  | none => .ok row
  | some id => appendScopeCandidate P T row first rest id

/-- `cmeta_append_namespace_candidates`. -/
def appendNamespaceCandidates (qualifier : Name) (scope : Option ℕ) :
    List Name → LocationRow D → Except Status (LocationRow D)
  | [], row => .ok row
  | first :: rest, row => do
    let row ← appendOwnerCandidate P T row first rest scope
    match namespaceRootField P scope first with
    | some field => appendCandidate T row (.root field) rest
    | none =>
      if first != qualifier then .ok row
      else appendNamespaceCandidates qualifier scope rest row

def namespaceOf (scope : ℕ) : Option Namespace :=
  P.scopes[scope]?.bind fun row => row.kind.namespaceId

def appendPathCandidates (first : Name) (rest : List Name) :
    List ℕ → LocationRow D → Except Status (LocationRow D)
  | [], row =>
    match rootField P first with
    | some field => appendCandidate T row (.root field) rest
    | none =>
      if P.qualifiedLocations && first == Namespace.application.name then
        appendNamespaceCandidates P T Namespace.application.name none rest row
      else .ok row
  | id :: chain, row => do
    let row ← appendScopeCandidate P T row first rest id
    match (namespaceOf P id).filter fun s => P.qualifiedLocations && first == s.name with
    | some s => appendNamespaceCandidates P T s.name (some id) rest row
    | none => appendPathCandidates first rest chain row

/-- `cmeta_append_location_view`. -/
def appendLocationView (maxPathDepth : ℕ) (chain : List ℕ) (collection : Bool) :
    List Name → Except Status (LocationRow D)
  | [] => .error .semanticError
  | first :: rest =>
    if rest.length + 1 > maxPathDepth then .error .limitExceeded
    else do
      let row ← appendPathCandidates P T first rest chain ⟨collection, none, []⟩
      if row.candidates.isEmpty then .error .semanticError else .ok row

/-! ## Resolution -/

abbrev Declared := ℕ → ℕ → Bool

def Cell.declared (declared : Declared) : Cell → Bool
  | .slot scope index => declared scope index
  | .root _ => true

def resolveLocation (declared : Declared) (candidates : List Candidate) : Except Status Candidate :=
  match candidates.find? fun candidate => candidate.cell.declared declared with
  | some candidate => .ok candidate
  | none => .error .semanticError

/-! ## What names mean -/

inductive Target
  | cell (cell : Cell)
  | scope (owner : Namespace)
  | nothing
  deriving DecidableEq

variable (declared : Declared)

def declaredSlot (scope : ℕ) (name : Name) : Option ℕ :=
  (scopeFind P scope name).filter (declared scope)

def bare (name : Name) : List ℕ → Target
  | [] =>
    match rootField P name with
    | some field => .cell (.root field)
    | none => if name = Namespace.application.name then .scope .application else .nothing
  | id :: chain =>
    match declaredSlot P declared id name with
    | some index => .cell (.slot id index)
    | none =>
      match (namespaceOf P id).filter fun s => name == s.name with
      | some s => .scope s
      | none => bare name chain

variable (chain : List ℕ)

/-- The scope of the chain that a namespace names; `application` has none. -/
def ownerOf (s : Namespace) : Option ℕ :=
  chain.find? fun id => namespaceOf P id == some s

def member (s : Namespace) (name : Name) : Target :=
  match (ownerOf P chain s).bind fun id => (declaredSlot P declared id name).map (Cell.slot id) with
  | some cell => .cell cell
  | none =>
    match namespaceRootField P (ownerOf P chain s) name with
    | some field => .cell (.root field)
    | none => if name = s.name then .scope s else .nothing

def selectMember (chain : List ℕ) (s : Namespace) : List Name → Option Candidate
  | [] => none
  | first :: rest =>
    match member P declared chain s first with
    | .cell cell => some ⟨cell, rest⟩
    | .scope _ => selectMember chain s rest
    | .nothing => none

def follow (rest : List Name) : Target → Option Candidate
  | .cell cell => some ⟨cell, rest⟩
  | .scope s => selectMember P declared chain s rest
  | .nothing => none

def select : List Name → Option Candidate
  | [] => none
  | first :: rest => follow P declared chain rest (bare P declared first chain)

/-! ## Candidates mean the same -/

section Candidates

variable {P T declared}
variable {row row' : LocationRow D} {chain : List ℕ} {rest : List Name}

def Extends (declared : Declared) (row row' : LocationRow D) (choice : Option Candidate) : Prop :=
  ∃ more, row'.candidates = row.candidates ++ more ∧
    more.find? (fun candidate => candidate.cell.declared declared) = choice

theorem Extends.refl (row : LocationRow D) : Extends declared row row none :=
  ⟨[], by simp⟩

theorem Extends.trans {row'' : LocationRow D} {first second : Option Candidate}
    (h : Extends declared row row' first) (h' : Extends declared row' row'' second) :
    Extends declared row row'' (first.or second) := by
  obtain ⟨more, hmore, hfirst⟩ := h
  obtain ⟨more', hmore', hsecond⟩ := h'
  refine ⟨more ++ more', by rw [hmore', hmore, List.append_assoc], ?_⟩
  rw [List.find?_append, hfirst, hsecond]

variable (declared) in
theorem appendCandidate_extends {cell : Cell} (h : appendCandidate T row cell rest = .ok row') :
    Extends declared row row'
      (if cell.declared declared then some ⟨cell, rest⟩ else none) := by
  unfold appendCandidate at h
  cases hlocate : T.locate cell rest with
  | error e =>
    rw [hlocate] at h
    cases h
  | ok value =>
    rw [hlocate] at h
    change addLocationCandidate T row ⟨cell, rest⟩ value = .ok row' at h
    unfold addLocationCandidate at h
    split at h
    next => cases h
    next =>
      split at h
      next => cases h
      next =>
        cases h
        refine ⟨[⟨cell, rest⟩], rfl, ?_⟩
        simp [List.find?_singleton]

variable (declared) in
theorem appendScopeCandidate_extends {first : Name} {scope : ℕ}
    (h : appendScopeCandidate P T row first rest scope = .ok row') :
    Extends declared row row'
      ((declaredSlot P declared scope first).map fun index => ⟨.slot scope index, rest⟩) := by
  unfold appendScopeCandidate at h
  rw [declaredSlot]
  cases hfind : scopeFind P scope first with
  | none =>
    rw [hfind] at h
    cases h
    exact Extends.refl _
  | some index =>
    rw [hfind] at h
    have := appendCandidate_extends declared h
    simp only [Option.filter_some]
    rw [Cell.declared] at this
    cases hdeclared : declared scope index with
    | true => simpa [hdeclared] using this
    | false => simpa [hdeclared] using this

variable (declared) in
theorem appendNamespaceCandidates_extends {s : Namespace}
    (h : appendNamespaceCandidates P T s.name (ownerOf P chain s) rest row = .ok row') :
    Extends declared row row' (selectMember P declared chain s rest) := by
  induction rest generalizing row with
  | nil =>
    cases h
    exact Extends.refl _
  | cons first rest ih =>
    obtain ⟨middle, hmiddle, hnext⟩ := bind_eq_ok.mp h
    have hslot : Extends declared row middle
        (((ownerOf P chain s).bind fun id => (declaredSlot P declared id first).map
          (Cell.slot id)).map fun cell => ⟨cell, rest⟩) := by
      cases howner : ownerOf P chain s with
      | none =>
        rw [howner] at hmiddle
        cases hmiddle
        exact Extends.refl _
      | some id =>
        rw [howner] at hmiddle
        simpa [Function.comp_def] using appendScopeCandidate_extends declared hmiddle
    rw [selectMember, member]
    have hfield : Extends declared middle row'
        (((namespaceRootField P (ownerOf P chain s) first).map fun field => ⟨.root field, rest⟩).or
          (if first = s.name then selectMember P declared chain s rest else none)) := by
      cases hroot : namespaceRootField P (ownerOf P chain s) first with
      | some field =>
        rw [hroot] at hnext
        exact appendCandidate_extends declared hnext
      | none =>
        rw [hroot] at hnext
        by_cases hself : first = s.name
        · simp only [hself, bne_self_eq_false, Bool.false_eq_true, if_false] at hnext
          simpa [hself] using ih hnext
        · rw [if_pos (by simpa using hself)] at hnext
          cases hnext
          simpa [hself] using Extends.refl _
    have hboth := hslot.trans hfield
    cases hdeclared : (ownerOf P chain s).bind fun id =>
        (declaredSlot P declared id first).map (Cell.slot id) with
    | some cell =>
      rw [hdeclared] at hboth
      simpa using hboth
    | none =>
      rw [hdeclared] at hboth
      cases hroot : namespaceRootField P (ownerOf P chain s) first with
      | some field =>
        rw [hroot] at hboth
        simpa using hboth
      | none =>
        rw [hroot] at hboth
        by_cases hself : first = s.name
        · simpa [hself] using hboth
        · simpa [hself] using hboth

theorem namespaceOf_ne_application (id : ℕ) : namespaceOf P id ≠ some .application := by
  intro h
  obtain ⟨row, -, hrow⟩ := Option.bind_eq_some_iff.mp h
  cases hkind : row.kind <;> simp [hkind, ScopeKind.namespaceId] at hrow

theorem ownerOf_application (chain : List ℕ) : ownerOf P chain .application = none := by
  rw [ownerOf, List.find?_eq_none]
  intro id _
  simpa using namespaceOf_ne_application id

variable {before after : List ℕ}

theorem ownerOf_eq_some {id : ℕ} {s : Namespace}
    (hbefore : ∀ x ∈ before, namespaceOf P x ≠ some s) (hid : namespaceOf P id = some s) :
    ownerOf P (before ++ id :: after) s = some id := by
  rw [ownerOf, List.find?_append, List.find?_eq_none.mpr, Option.none_or, List.find?_cons_of_pos]
  · simpa using hid
  · intro x hx
    simpa using hbefore x hx

variable (declared) in
theorem appendPathCandidates_extends (hqualified : P.qualifiedLocations = true) {first : Name}
    (hbefore : ∀ id ∈ before, ∀ s, namespaceOf P id = some s → first ≠ s.name)
    (h : appendPathCandidates P T first rest after row = .ok row') :
    Extends declared row row'
      (follow P declared (before ++ after) rest (bare P declared first after)) := by
  induction after generalizing before row with
  | nil =>
    rw [appendPathCandidates] at h
    rw [bare]
    cases hroot : rootField P first with
    | some field =>
      rw [hroot] at h
      exact appendCandidate_extends declared h
    | none =>
      rw [hroot] at h
      by_cases happlication : first = Namespace.application.name
      · simp only [hqualified, happlication, beq_self_eq_true, Bool.and_self, if_true] at h
        rw [← ownerOf_application (P := P) (before ++ [])] at h
        have hnamespace := appendNamespaceCandidates_extends declared h
        simpa [happlication, follow] using hnamespace
      · rw [if_neg (by simpa [hqualified] using happlication)] at h
        cases h
        simpa [happlication, follow] using Extends.refl _
  | cons id chain ih =>
    obtain ⟨middle, hmiddle, hnext⟩ := bind_eq_ok.mp h
    have hslot := appendScopeCandidate_extends declared hmiddle
    rw [bare]
    have hrest : Extends declared middle row' (follow P declared (before ++ id :: chain) rest
        (((namespaceOf P id).filter fun s => first == s.name).elim
          (bare P declared first chain) Target.scope)) := by
      simp only [hqualified, Bool.true_and] at hnext
      cases hfilter : (namespaceOf P id).filter fun s => first == s.name with
      | some s =>
        rw [hfilter] at hnext
        obtain ⟨hid, -⟩ := Option.filter_eq_some_iff.mp hfilter
        have hfirst : first = s.name := by simpa using (Option.filter_eq_some_iff.mp hfilter).2
        have howner : ownerOf P (before ++ id :: chain) s = some id :=
          ownerOf_eq_some (fun x hx hs => hbefore x hx s hs hfirst) hid
        rw [← howner] at hnext
        exact appendNamespaceCandidates_extends declared hnext
      | none =>
        rw [hfilter] at hnext
        have happend : before ++ id :: chain = (before ++ [id]) ++ chain := by simp
        rw [happend]
        refine ih (fun x hx s hs => ?_) hnext
        rcases List.mem_append.mp hx with hin | hlast
        · exact hbefore x hin s hs
        · rw [List.mem_singleton.mp hlast] at hs
          rw [hs, Option.filter_some] at hfilter
          intro hfirst
          simp [hfirst] at hfilter
    cases hdeclared : declaredSlot P declared id first with
    | some index =>
      rw [hdeclared] at hslot
      simpa [follow] using hslot.trans hrest
    | none =>
      rw [hdeclared] at hslot
      cases hfilter : (namespaceOf P id).filter fun s => first == s.name with
      | some s =>
        rw [hfilter] at hrest
        simpa using hslot.trans hrest
      | none =>
        rw [hfilter] at hrest
        simpa using hslot.trans hrest

variable (declared) in
/-- **Main.** A compiled path resolves to what it selects. -/
theorem resolveLocation_appendLocationView (hqualified : P.qualifiedLocations = true)
    {maxPathDepth : ℕ} {collection : Bool} {path : List Name}
    (h : appendLocationView P T maxPathDepth chain collection path = .ok row) :
    resolveLocation declared row.candidates =
      (select P declared chain path).elim (.error .semanticError) .ok := by
  cases path with
  | nil => cases h
  | cons first rest =>
    rw [appendLocationView] at h
    split at h
    next => cases h
    next =>
      obtain ⟨found, hfound, hrow⟩ := bind_eq_ok.mp h
      split at hrow
      next => cases hrow
      next =>
        cases hrow
        have hextends : Extends declared ⟨collection, none, []⟩ row
            (follow P declared ([] ++ chain) rest (bare P declared first chain)) :=
          appendPathCandidates_extends declared hqualified (by simp) hfound
        obtain ⟨more, hmore, hchoice⟩ := hextends
        rw [resolveLocation, hmore, List.nil_append, hchoice, select, List.nil_append]
        cases follow P declared chain rest (bare P declared first chain) <;> rfl

end Candidates

end TurboScxml.Voice.Scopes
