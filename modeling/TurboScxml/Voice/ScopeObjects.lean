import TurboScxml.Lib.Properties
import TurboScxml.Voice.ScopeNames

/-!
# Script objects for typed scopes

Each evaluation of a script gives every declared slot and root field a cell, and reaches the cells
through accessors on the global object and on one object for each named scope.

* `Property`, `Engine`: what an object holds, and the global object of a fresh engine;
* `projectBindings`: the accessors and the names of the scopes are defined;
* `evaluate`, `assign`: what a script reaches by a dotted path and by assigning to it.
-/

namespace TurboScxml.Voice.Scopes

open Fallible Properties

/-! ## Bindings -/

structure Binding where
  name : Name
  type : StorageType
  cell : Cell
  bound : Bool
  rank : ℕ
  namespaceId : Option Namespace
  dialogResult : Bool
  deriving DecidableEq

structure Limits where
  maxProperties : ℕ
  maxSnapshotBytes : ℕ

structure Storage where
  declared : Declared
  bound : Cell → Bool

/-- The locals of `bindings_create`. -/
structure Collected where
  bindings : List Binding
  ranks : Namespace → Option ℕ
  form : Option ℕ

variable (P : Program) (limits : Limits) (storage : Storage)

def pushBinding (bindings : List Binding) (binding : Binding) : Except Status (List Binding) :=
  if bindings.length = limits.maxProperties then .error .limitExceeded
  else .ok (bindings ++ [binding])

def slotBindings (rank scope : ℕ) (row : ScopeRow) : List Binding :=
  row.slots.zipIdx.filterMap fun (slot, index) =>
    if storage.declared scope index then
      some ⟨slot.name, slot.type, .slot scope index, storage.bound (.slot scope index), rank,
        row.kind.namespaceId, false⟩
    else none

/-- The pass of `bindings_create` over one scope of the chain. -/
def collectScope (rank scope : ℕ) (collected : Collected) : Except Status Collected :=
  match P.scopes[scope]? with
  | none => .error .invalidContract
  | some row =>
    let form := if row.kind = .form then some row.owner else collected.form
    match row.kind.namespaceId with
    | none => do
      let bindings ← (slotBindings storage rank scope row).foldlM (pushBinding limits)
        collected.bindings
      .ok { collected with bindings := bindings, form := form }
    | some s =>
      if (collected.ranks s).isSome then .error .invalidContract
      else do
        let bindings ← (slotBindings storage rank scope row).foldlM (pushBinding limits)
          collected.bindings
        .ok ⟨bindings, Function.update collected.ranks s (some rank), form⟩

/-- The loop of `bindings_create` over the chain. -/
def collectScopes : ℕ → List ℕ → Collected → Except Status Collected
  | _, [], collected => .ok collected
  | rank, scope :: chain, collected => do
    let collected ← collectScope P limits storage rank scope collected
    collectScopes (rank + 1) chain collected

def rootBinding (rank : ℕ) (form : Option ℕ) (slot : Slot) (field : ℕ) : Binding :=
  ⟨slot.name, slot.type, .root field, storage.bound (.root field), rank, some .application,
    form.any fun form => formUsesRootField P form field⟩

def rootBindings (rank : ℕ) (form : Option ℕ) : List Binding :=
  P.root.zipIdx.map fun (slot, field) => rootBinding P storage rank form slot field

/-- The pass of `bindings_create` over one root field. -/
def pushRoot (rank : ℕ) (form : Option ℕ) (bindings : List Binding) (entry : Slot × ℕ) :
    Except Status (List Binding) :=
  if bindings.length = limits.maxProperties then .error .limitExceeded
  else if form.any (P.forms.length ≤ ·) then .error .invalidContract
  else .ok (bindings ++ [rootBinding P storage rank form entry.1 entry.2])

/-- The last loop of `bindings_create`. -/
def snapshotBytes : ℕ → List Binding → Except Status ℕ
  | bytes, [] => .ok bytes
  | bytes, binding :: rest =>
    if !binding.type.supported then .error .invalidContract
    else if binding.type.size + binding.type.align - 1 > limits.maxSnapshotBytes - bytes then
      .error .limitExceeded
    else snapshotBytes (bytes + (binding.type.size + binding.type.align - 1)) rest

def bindingsCreate (chain : List ℕ) : Except Status (List Binding × (Namespace → Option ℕ)) :=
  if limits.maxProperties > uint32Max then .error .limitExceeded
  else do
    let collected ← collectScopes P limits storage 0 chain
      ⟨[], fun s => if s = .application then some chain.length else none, none⟩
    let bindings ← P.root.zipIdx.foldlM (pushRoot P limits storage chain.length collected.form)
      collected.bindings
    let _ ← snapshotBytes limits 0 bindings
    .ok (bindings, collected.ranks)

/-! ## Objects -/

inductive Object
  | global
  | scope (owner : Namespace)
  deriving DecidableEq

inductive Property
  | accessor (index : ℕ)
  | owner (s : Namespace)
  | builtin (configurable : Bool)
  deriving DecidableEq

def Property.frozen : Property → Bool
  | .builtin configurable => !configurable
  | _ => true

structure Engine where
  own : Name → Option Bool
  inherited : Name → Bool
  /-- The text of the path is a member expression. -/
  parses : List Name → Bool
  /-- The path behind a global of the engine has a value: no name is asked of `undefined` or `null`,
  and no getter throws. -/
  reads : List Name → Bool
  /-- An assignment to that path does not throw. -/
  writes : List Name → Bool
  /-- The value of a bound cell converts within the limits. -/
  imports : Cell → Bool

abbrev Objects := Heap (Object × Name) Property

variable (E : Engine)

def Engine.objects : Objects
  | (.global, name) => (E.own name).map .builtin
  | (.scope _, _) => none

variable (ranks : Namespace → Option ℕ)

/-- `define_cell` or a plain definition; the object of an absent scope is not there. -/
def defineProperty (heap : Objects) (object : Object) (name : Name)
    (property : Property) : Option Objects :=
  match object with
  | .global => define Property.frozen heap (.global, name) property
  | .scope s =>
    if (ranks s).isSome then define Property.frozen heap (.scope s, name) property else none

def defineWhen (condition : Bool) (ranks : Namespace → Option ℕ) (heap : Objects) (object : Object)
    (name : Name) (property : Property) : Option Objects :=
  if condition then defineProperty ranks heap object name property else some heap

/-- `visible`: no earlier binding has the name, and no closer scope is called so. -/
def Binding.visible (earlier : List Binding) (binding : Binding) : Bool :=
  !(earlier.any fun other => other.name == binding.name) &&
    [Namespace.application, .document, .dialog].all fun s =>
      !((ranks s).any (· < binding.rank) && binding.name == s.name)

/-- The first loop of `project_bindings`. -/
def projectCells (ranks : Namespace → Option ℕ) (earlier : List Binding) (heap : Objects) :
    List Binding → Option Objects
  | [] => some heap
  | binding :: rest =>
    if binding.bound && !E.imports binding.cell then none
    else do
      let accessor := Property.accessor earlier.length
      let heap ← binding.namespaceId.elim (some heap) fun s =>
        defineProperty ranks heap (.scope s) binding.name accessor
      let heap ← defineWhen binding.dialogResult ranks heap (.scope .dialog) binding.name accessor
      let heap ← defineWhen (binding.visible ranks earlier) ranks heap .global binding.name accessor
      projectCells ranks (earlier ++ [binding]) heap rest

/-- `hidden`. -/
def hidden (bindings : List Binding) (s : Namespace) : Bool :=
  bindings.any fun binding => binding.name == s.name && (ranks s).any (binding.rank ≤ ·)

def Binding.shows (binding : Binding) (s : Namespace) : Bool :=
  binding.namespaceId == some s || (s == .dialog && binding.dialogResult)

/-- `self_hidden`. -/
def selfHidden (bindings : List Binding) (s : Namespace) : Bool :=
  bindings.any fun binding => binding.name == s.name && binding.shows s

def projectOwners (ranks : Namespace → Option ℕ) (bindings : List Binding) (heap : Objects) :
    List Namespace → Option Objects
  | [] => some heap
  | s :: rest =>
    if (ranks s).isNone then projectOwners ranks bindings heap rest
    else do
      let heap ← defineWhen (!selfHidden bindings s) ranks heap (.scope s) s.name (.owner s)
      let heap ← defineWhen (!hidden ranks bindings s) ranks heap .global s.name (.owner s)
      projectOwners ranks bindings heap rest

def projectBindings (bindings : List Binding) : Option Objects := do
  let heap ← projectCells E ranks [] E.objects bindings
  projectOwners ranks bindings heap [.application, .document, .dialog]

/-! ## Scripts -/

inductive Outcome
  | cell (index : ℕ) (rest : List Name)
  | value
  | throws
  | otherText
  deriving DecidableEq

def readMember (heap : Objects) (s : Namespace) : List Name → Outcome
  | [] => .value
  | name :: rest =>
    match heap (.scope s, name) with
    | some (.accessor index) => .cell index rest
    | some (.owner s) => readMember heap s rest
    | some (.builtin _) => .value
    | none => if rest.isEmpty then .value else .throws

/-- A path behind a global of the engine. -/
def engineOutcome (succeeds : Bool) : Outcome := if succeeds then .value else .throws

def evaluate (heap : Objects) : List Name → Outcome
  | [] => .otherText
  | name :: rest =>
    if !E.parses (name :: rest) then .otherText
    else match heap (.global, name) with
      | some (.accessor index) => .cell index rest
      | some (.owner s) => readMember heap s rest
      | some (.builtin _) => engineOutcome (E.reads (name :: rest))
      | none => engineOutcome (E.inherited name && E.reads (name :: rest))

/-- A write behind the object of a scope. -/
def writeMember (heap : Objects) (s : Namespace) : List Name → Outcome
  | [] => .throws
  | name :: rest =>
    match heap (.scope s, name) with
    | some (.accessor index) => .cell index rest
    | some (.owner s) => writeMember heap s rest
    | some (.builtin _) => .value
    | none => .throws

def assign (heap : Objects) : List Name → Outcome
  | [] => .otherText
  | name :: rest =>
    if !E.parses (name :: rest) then .otherText
    else match heap (.global, name) with
      | some (.accessor index) => .cell index rest
      | some (.owner s) => writeMember heap s rest
      | some (.builtin _) => engineOutcome (E.writes (name :: rest))
      | none => engineOutcome (E.inherited name && E.writes (name :: rest))

end TurboScxml.Voice.Scopes
