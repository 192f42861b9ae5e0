import Mathlib.Logic.Function.Basic
import TurboScxml.Lib.Cells
import TurboScxml.Voice.ScopeNames

/-!
# Typed locations and their assignment

* `Desc`, `Cmeta`, `Layout`: descriptors of values, what their library supplies, and where the
  slots of the scopes and the fields of the root lie;
* `parserCompileLocation`, `compilePath`: the candidates that an expression gets for a path;
* `Frame`, `readScalar`, `evaluate`: the staged or committed values, and a path read from them;
* `assignScalarObject`, `assignResolvedLocation`: the write of one value.
-/

namespace TurboScxml.Voice.Locations

open Fallible Cells Scopes

/-! ## Descriptors -/

/-- `cmeta_data_kind` of a value without members. -/
inductive Kind
  | bool
  | sint (bits : ℕ)
  | uint (bits : ℕ)
  | float (bits : ℕ)
  | string (ops : ℕ)
  | other
  deriving DecidableEq

/-- The address, the storage type and the size of a `cmeta_data_desc`. -/
structure Header where
  address : ℕ
  type : ℕ
  size : ℕ
  size_pos : 0 < size
  deriving DecidableEq

mutual
/-- `cmeta_data_desc`. -/
inductive Desc
  | leaf (header : Header) (kind : Kind)
  | struct (header : Header) (fields : Fields)
  deriving DecidableEq
/-- `cmeta_data_struct_shape`: names, offsets and values. -/
inductive Fields
  | nil
  | cons (name : Name) (offset : ℕ) (value : Desc) (rest : Fields)
  deriving DecidableEq
end

def Desc.header : Desc → Header
  | .leaf header _ => header
  | .struct header _ => header

def Desc.size (d : Desc) : ℕ := d.header.size

def Fields.find (name : Name) : Fields → Option (ℕ × Desc)
  | .nil => none
  | .cons field offset value rest => if field = name then some (offset, value) else rest.find name

/-- A byte of a number, or a cell of a string object. -/
inductive StorageCell
  | byte (value : ℕ)
  | owned (text : List ℕ) (index : ℕ)
  deriving DecidableEq

def StorageCell.value : StorageCell → ℕ
  | .byte value => value
  | .owned _ _ => 0

/-- `cmeta_status` as far as buffers use it. -/
inductive CmetaStatus
  | outOfMemory | capacityExceeded | failed
  deriving DecidableEq

/-- `cmeta_data_buffer_ops`: an assigned text is read back within its limit, and an object keeps its
size. -/
structure BufferOps where
  type : ℕ
  size : ℕ
  abiVersion : ℕ
  owned : Bool
  read : List StorageCell → ℕ → Option (List ℕ)
  restoreZero : List StorageCell → Except CmetaStatus (List StorageCell)
  assign : List StorageCell → List ℕ → ℕ → Except CmetaStatus (List StorageCell)
  restoreZero_length : ∀ old zero, restoreZero old = .ok zero → zero.length = old.length
  assign_length : ∀ zero text limit object,
    assign zero text limit = .ok object → object.length = zero.length
  read_assign : ∀ old zero text limit object, restoreZero old = .ok zero →
    assign zero text limit = .ok object → read object limit = some text
  read_length : ∀ object limit text, read object limit = some text → text.length ≤ limit

structure Cmeta where
  typeEqual : ℕ → ℕ → Bool
  typeEqual_refl : ∀ type, typeEqual type type = true
  buffer : ℕ → BufferOps
  narrow : BitVec 64 → BitVec 32
  widen : BitVec 32 → BitVec 64

variable (M : Cmeta)

/-- `vxml_cmeta_value_kind`. -/
inductive ValueKind
  | undefined | bool | sint | uint | float | string
  deriving DecidableEq

/-- `scalar_kind`. -/
def scalarKind : Desc → Option ValueKind
  | .leaf header .bool => if header.size = 1 then some .bool else none
  | .leaf header (.sint bits) =>
    if bits ∈ [8, 16, 32, 64] ∧ header.size = bits / 8 then some .sint else none
  | .leaf header (.uint bits) =>
    if bits ∈ [8, 16, 32, 64] ∧ header.size = bits / 8 then some .uint else none
  | .leaf header (.float bits) =>
    if bits ∈ [32, 64] ∧ header.size = bits / 8 then some .float else none
  | .leaf _ (.string _) => some .string
  | .leaf _ .other => none
  | .struct _ _ => none

/-- The widths or the buffer operations of two values of one kind agree. -/
def kindsCompatible : Desc → Desc → Bool
  | .leaf _ (.sint left), .leaf _ (.sint right) => left == right
  | .leaf _ (.uint left), .leaf _ (.uint right) => left == right
  | .leaf _ (.float left), .leaf _ (.float right) => left == right
  | .leaf _ (.string left), .leaf _ (.string right) =>
    (M.buffer left).owned == (M.buffer right).owned &&
      (M.buffer left).abiVersion == (M.buffer right).abiVersion &&
      M.typeEqual (M.buffer left).type (M.buffer right).type &&
      (M.buffer left).size == (M.buffer right).size
  | _, _ => true

def scalarDescriptorsCompatible (left right : Desc) : Bool :=
  (scalarKind left).isSome && scalarKind left == scalarKind right &&
    M.typeEqual left.header.type right.header.type && kindsCompatible M left right

/-- A slot of a scope or a top-level field of the root. -/
structure Field where
  value : Desc
  offset : ℕ

def Field.Apart (f g : Field) : Prop := Cells.Apart f.offset f.value.size g.offset g.value.size

/-- `cmeta_scope_schema`: no two slots share a cell. -/
structure Schema where
  slots : List Field
  storageSize : ℕ
  within : ∀ slot ∈ slots, slot.offset + slot.value.size ≤ storageSize
  apart : slots.Pairwise Field.Apart

def aligned (size align : ℕ) : ℕ := (size + (align - 1)) / align * align

theorem le_aligned {size align : ℕ} (h : 0 < align) : size ≤ aligned size align := by
  have hdiv := Nat.div_add_mod (size + (align - 1)) align
  have hmod := Nat.mod_lt (size + (align - 1)) h
  rw [aligned, Nat.mul_comm]
  omega

structure Layout (P : Program) where
  scopes : List Schema
  scopes_length : scopes.map (·.slots.length) = P.scopes.map (·.slots.length)
  rootFields : List Field
  rootFields_length : rootFields.length = P.root.length
  rootSize : ℕ
  root_apart : rootFields.Pairwise Field.Apart
  maxPathDepth : ℕ
  maxStringBytes : ℕ

variable {P : Program} (L : Layout P)

def Layout.field : Cell → Option Field
  | .slot scope index => L.scopes[scope]?.bind fun schema => schema.slots[index]?
  | .root field => L.rootFields[field]?

variable (f : Field)

def Field.base : Cell → ℕ
  | .slot _ _ => f.offset
  | .root _ => 0

def Field.start : Cell → ℕ
  | .slot _ _ => 0
  | .root _ => f.offset

theorem Field.base_add_start (cell : Cell) : f.base cell + f.start cell = f.offset := by
  cases cell with
  | slot scope index => rfl
  | root field => exact Nat.zero_add _

def Layout.extent : Cell → ℕ
  | .slot _ _ => f.value.size
  | .root _ => L.rootSize

/-! ## Compiled locations -/

/-- A compiled `cmeta_location`: its value and its offset. -/
structure Location where
  value : Desc
  offset : ℕ
  deriving DecidableEq

/-- The loop of `cmeta_location_compile_detailed`. -/
def descend : List Name → ℕ → Desc → Except Status Location
  | [], offset, value => .ok ⟨value, offset⟩
  | _ :: _, _, .leaf _ _ => .error .semanticError
  | name :: rest, offset, .struct header fields =>
    match fields.find name with
    | none => .error .semanticError
    | some (inner, value) =>
      if inner > header.size ∨ value.size > header.size - inner then .error .semanticError
      else descend rest (offset + inner) value

/-- The object at an offset leaves the slot or the root. -/
def Layout.outside (cell : Cell) (location : Location) : Bool :=
  L.extent f cell < location.offset || L.extent f cell - location.offset < location.value.size

/-- `cmeta_location_compile_detailed`. -/
def locationCompile (cell : Cell) (rest : List Name) : Except Status Location := do
  if L.outside f cell ⟨f.value, f.start cell⟩ then .error .semanticError
  else
    let location ← descend rest (f.start cell) f.value
    if L.outside f cell location then .error .semanticError else .ok location

def Layout.locate (cell : Cell) (rest : List Name) : Except Status Location :=
  match L.field cell with
  | none => .error .invalidStructure
  | some f =>
    if rest.length + 1 > L.maxPathDepth then .error .limitExceeded
    else locationCompile L f cell rest

abbrev Row := LocationRow Location

/-- `expr_candidate`. -/
structure ExprCandidate where
  cell : Cell
  location : Location
  deriving DecidableEq

/-- `expr_operand` of a location. -/
structure Operand where
  data : Option Desc
  candidates : List ExprCandidate

inductive Expression
  | literal (value : Bool)
  | location (operand : Operand)

/-- The names that `parser_parse_primary` refuses. -/
def reserved : List Name :=
  ["_event", "_name", "_sessionid", "_ioprocessors", "In", "is_bound", "isBound"]

/-- `vxml_cmeta_value_view`: integers and floats by their 64 bits. -/
inductive Value
  | undefined
  | bool (value : Bool)
  | sint (value : BitVec 64)
  | uint (value : BitVec 64)
  | float (value : BitVec 64)
  | string (text : List ℕ)
  deriving DecidableEq

def Value.kind : Value → ValueKind
  | .undefined => .undefined
  | .bool _ => .bool
  | .sint _ => .sint
  | .uint _ => .uint
  | .float _ => .float
  | .string _ => .string

def isFinite (value : BitVec 64) : Bool := value.toNat / 2 ^ 52 % 2048 != 2047

/-- `isfinite` of a `float`. -/
def isFiniteSingle (value : BitVec 32) : Bool := value.toNat / 2 ^ 23 % 256 != 255

def bytes {bits : ℕ} (value : BitVec bits) : List StorageCell :=
  (encode (bits / 8) value.toNat).map .byte

def number (bits : ℕ) (object : List StorageCell) : BitVec bits :=
  BitVec.ofNat bits (decode (object.map StorageCell.value))

def readScalar (maxStringBytes : ℕ) (object : List StorageCell) : Desc → Option Value
  | .leaf _ .bool => some (.bool ((object.map StorageCell.value).head? != some 0))
  | .leaf _ (.sint bits) => some (.sint ((number bits object).signExtend 64))
  | .leaf _ (.uint bits) => some (.uint ((number bits object).setWidth 64))
  | .leaf _ (.float bits) =>
    let value := if bits = 32 then M.widen (number 32 object) else number 64 object
    if isFinite value then some (.float value) else none
  | .leaf _ (.string ops) => ((M.buffer ops).read object maxStringBytes).map .string
  | .leaf _ .other => none
  | .struct _ _ => none

/-- `store_sint`. -/
def storeSint (bits : ℕ) (value : BitVec 64) : Option (List StorageCell) :=
  if bits ∈ [8, 16, 32, 64] ∧ (value.setWidth bits).signExtend 64 = value then
    some (bytes (value.setWidth bits))
  else none

def storeUint (bits : ℕ) (value : BitVec 64) : Option (List StorageCell) :=
  if bits ∈ [8, 16, 32, 64] ∧ (value.setWidth bits).setWidth 64 = value then
    some (bytes (value.setWidth bits))
  else none

/-- `store_float`; equal numbers have equal bits. -/
def storeFloat (bits : ℕ) (value : BitVec 64) : Option (List StorageCell) :=
  if !isFinite value then none
  else if bits = 32 then
    if isFiniteSingle (M.narrow value) && M.widen (M.narrow value) == value then
      some (bytes (M.narrow value))
    else none
  else if bits = 64 then some (bytes value)
  else none

/-- `vxml_status` of a session call. -/
inductive SessionStatus
  | ok
  | allocationFailed
  | failed (status : Status)
  deriving DecidableEq

def bufferStatus : CmetaStatus → SessionStatus
  | .outOfMemory => .allocationFailed
  | .capacityExceeded => .failed .limitExceeded
  | .failed => .failed .semanticError

def stored (object : List StorageCell) :
    Option (List StorageCell) → SessionStatus × List StorageCell
  | some cells => (.ok, cells)
  | none => (.failed .semanticError, object)

/-- The string case of `assign_scalar_object`. -/
def assignString (ops : BufferOps) (object : List StorageCell) (text : List ℕ)
    (maxStringBytes : ℕ) : SessionStatus × List StorageCell :=
  if !ops.owned then (.failed .semanticError, object)
  else
    match ops.restoreZero object with
    | .error e => (bufferStatus e, object)
    | .ok zero =>
      match ops.assign zero text maxStringBytes with
      | .error e => (bufferStatus e, zero)
      | .ok cells => (.ok, cells)

def assignScalarObject (maxStringBytes : ℕ) (object : List StorageCell) :
    Desc → Value → SessionStatus × List StorageCell
  | _, .undefined => (.failed .invalidStructure, object)
  | .leaf header .bool, .bool value =>
    stored object (if header.size = 1 then some [.byte value.toNat] else none)
  | .leaf _ (.sint bits), .sint value => stored object (storeSint bits value)
  | .leaf _ (.uint bits), .uint value => stored object (storeUint bits value)
  | .leaf _ (.float bits), .float value => stored object (storeFloat M bits value)
  | .leaf _ (.string ops), .string text => assignString (M.buffer ops) object text maxStringBytes
  | _, _ => (.failed .semanticError, object)

/-! ## Frames -/

/-- The cells of a scope or of the root, and what is bound. -/
structure Storage where
  cells : Memory StorageCell
  bound : ℕ → Bool

structure Frame where
  declared : Declared
  scopes : ℕ → Storage
  root : Storage

/-- The number of a slot in its scope, or of a field in the root. -/
def index : Cell → ℕ
  | .slot _ index => index
  | .root field => field

variable (frame : Frame)

def Frame.storage : Cell → Storage
  | .slot scope _ => frame.scopes scope
  | .root _ => frame.root

def Frame.setStorage (storage : Storage) : Cell → Frame
  | .slot scope _ => { frame with scopes := Function.update frame.scopes scope storage }
  | .root _ => { frame with root := storage }

def Frame.bound (cell : Cell) : Bool := (frame.storage cell).bound (index cell)

def Frame.object (f : Field) (cell : Cell) (location : Location) : List StorageCell :=
  read (frame.storage cell).cells (f.base cell + location.offset) location.value.size

/-- A selected candidate in `resolve_location`. -/
def readLocation (cell : Cell) (location : Location) : Except Status Value :=
  match L.field cell with
  | none => .error .semanticError
  | some f =>
    if !frame.bound cell then .ok .undefined
    else if L.outside f cell location then .error .semanticError
    else
      match readScalar M L.maxStringBytes (frame.object f cell location) location.value with
      | some value => .ok value
      | none => .error .semanticError

def resolveOperand (frame : Frame) (chain : List ℕ) (data : Option Desc) :
    List ExprCandidate → Except Status Value
  | [] => .error .semanticError
  | candidate :: rest =>
    if !data.any fun d => scalarDescriptorsCompatible M d candidate.location.value then
      .error .semanticError
    else
      match candidate.cell with
      | .slot scope slot =>
        if scope ∉ chain then .error .semanticError
        else if !frame.declared scope slot then resolveOperand frame chain data rest
        else readLocation M L frame candidate.cell candidate.location
      | .root _ => readLocation M L frame candidate.cell candidate.location

/-- `expr_program_measure_scratch`. -/
def Operand.scratchBytes (operand : Operand) : ℕ :=
  if operand.data.bind scalarKind = some .string then L.maxStringBytes else 0

/-- `copy_runtime_string` and the kind of the result. -/
def finishOperand (capacity : ℕ) (operand : Operand) : Value → Except Status Value
  | .undefined => .ok .undefined
  | .string text =>
    if text.length > capacity then .error .limitExceeded
    else if operand.data.bind scalarKind ≠ some .string then .error .semanticError
    else .ok (.string text)
  | value =>
    if operand.data.bind scalarKind ≠ some value.kind then .error .semanticError else .ok value

/-- `evaluate_expression`. -/
def evaluate (others : ℕ) (frame : Frame) (chain : List ℕ) : Expression → Except Status Value
  | .literal value => if chain.Nodup then .ok (.bool value) else .error .invalidStructure
  | .location operand =>
    if chain.Nodup then do
      let value ← resolveOperand M L frame chain operand.data operand.candidates
      finishOperand (max others (operand.scratchBytes L)) operand value
    else .error .invalidStructure

/-! ## Assignment -/

/-- `cmeta_scope_view_clear_slot` and `root_storage_clear_field`. -/
def Frame.clear (f : Field) (cell : Cell) : Frame :=
  frame.setStorage
    { cells := fill (frame.storage cell).cells f.offset f.value.size (.byte 0)
      bound := Function.update (frame.storage cell).bound (index cell) false } cell

def Frame.store (f : Field) (cell : Cell) (location : Location)
    (result : SessionStatus × List StorageCell) : Frame :=
  frame.setStorage
    { cells := write (frame.storage cell).cells (f.base cell + location.offset) result.2
      bound :=
        if result.1 = .ok then Function.update (frame.storage cell).bound (index cell) true
        else (frame.storage cell).bound } cell

def direct (f : Field) (cell : Cell) (location : Location) : Bool :=
  location.value == f.value && location.offset == f.start cell

/-- `assign_resolved_location` once the candidate is resolved. -/
def assignAt (value : Value) (frame : Frame) (f : Field) (cell : Cell) (location : Location) :
    SessionStatus × Frame :=
  if value = .undefined then (.ok, frame.clear f cell)
  else if !frame.bound cell && !direct f cell location then (.failed .semanticError, frame)
  else if L.outside f cell location then (.failed .invalidStructure, frame)
  else
    let result := assignScalarObject M L.maxStringBytes (frame.object f cell location)
      location.value value
    (result.1, frame.store f cell location result)

def assignResolvedLocation (row : Row) (value : Value) (frame : Frame) : SessionStatus × Frame :=
  match resolveLocation frame.declared row.candidates with
  | .error e => (.failed e, frame)
  | .ok candidate =>
    match L.locate candidate.cell candidate.rest, L.field candidate.cell with
    | .ok location, some f =>
      if row.value.map Location.value ≠ some location.value then (.failed .invalidStructure, frame)
      else assignAt M L value frame f candidate.cell location
    | _, _ => (.failed .invalidStructure, frame)

structure Session where
  committed : Frame
  staged : Frame

def Frame.empty : Frame where
  declared _ _ := false
  scopes _ := ⟨fun _ => .byte 0, fun _ => false⟩
  root := ⟨fun _ => .byte 0, fun _ => false⟩

def Session.transactionReset (s : Session) : Session := { s with staged := .empty }

/-- `execute_assign` after its expression. -/
def Session.assign (row : Row) (value : Value) (s : Session) : SessionStatus × Session :=
  let result := assignResolvedLocation M L row value s.staged
  (result.1, { s with staged := result.2 })

end TurboScxml.Voice.Locations
