import TurboScxml.Expr.Comparison

/-!
# Assignments

`assign_apply` of `scxml_assign.c`: an evaluated value is stored in its destination if that can be
done without a change of the value.

* `Destination`, `Object`: the kinds of destinations, and what lies in one;
* `assignApply`: the assignment, with what it finds before it stores.
-/

namespace TurboScxml.Expr

open Float.Model Float.Model.UnpackedFloat Binary64

/-! ## Numbers -/

def convert (format : Format) : UnpackedFloat → UnpackedFloat
  | .finite s m e _ => UnpackedFloat.round format s m e
  | u => u

/-- `(float)number`. -/
def castSingle (number : Float) : Float32 :=
  .ofModel (.pack (convert .binary32 number.toModel.unpack))

/-- `(double)number` of a `float`. -/
def widen (number : Float32) : Float :=
  .ofModel (.pack (convert .binary64 number.toModel.unpack))

def trunc (number : Float) : Float :=
  if number.isFinite then .ofModel (.ofInt ((scaled number.toModel.unpack).tdiv scale))
  else number

def assignSintValue : Value → Option Int64
  | .sint sint => some sint
  | .uint uint => if 9223372036854775807 < uint then none else some uint.toInt64
  | .float number =>
    if number.isFinite && trunc number == number && decide (-sint64UpperBound ≤ number) &&
        decide (number < sint64UpperBound) then some (castSint number)
    else none
  | _ => none

def assignUintValue : Value → Option UInt64
  | .uint uint => some uint
  | .sint sint => if sint < 0 then none else some sint.toUInt64
  | .float number =>
    if number.isFinite && trunc number == number && decide (0.0 ≤ number) &&
        decide (number < uint64UpperBound) then some number.toUInt64
    else none
  | _ => none

def assignFloatValue : Value → Option Float
  | .float number => some number
  | .sint sint =>
    let value := castDouble sint
    if value < -sint64UpperBound ∨ sint64UpperBound ≤ value ∨ castSint value ≠ sint then none
    else some value
  | .uint uint =>
    let value := uint.toFloat
    if uint64UpperBound ≤ value ∨ value.toUInt64 ≠ uint then none else some value
  | _ => none

/-! ## Destinations -/

/-- What lies at a destination. -/
inductive Object where
  | bool (value : Bool)
  | int8 (value : Int8)
  | int16 (value : Int16)
  | int32 (value : Int32)
  | int64 (value : Int64)
  | uint8 (value : UInt8)
  | uint16 (value : UInt16)
  | uint32 (value : UInt32)
  | uint64 (value : UInt64)
  | single (value : Float32)
  | double (value : Float)
  | custom (bytes : List UInt8)

/-- `cmeta_data_enum_ops`, whose functions are not part of the repository. -/
structure EnumOps where
  values : Int64 → Bool
  zero : Object
  restoreZero : Object → Bool × Object
  assign : Object → Int64 → Bool × Object
  read : Object → Int64
  restoreZero_eq : ∀ object, restoreZero object = (true, zero)
  assign_value : ∀ value, values value = true →
    (assign zero value).1 = true ∧ read (assign zero value).2 = value
  assign_other : ∀ value, values value = false → assign zero value = (false, zero)

/-- `cmeta_data_buffer_ops`. -/
structure BufferOps where
  owned : Bool
  available : List UInt8 → Bool
  zero : Object
  restoreZero : Object → Bool × Object
  assign : Object → List UInt8 → ℕ → Bool × Object
  read : Object → List UInt8
  restoreZero_eq : ∀ object, restoreZero object = (true, zero)
  assign_available : ∀ bytes limit, bytes.length ≤ limit → available bytes = true →
    (assign zero bytes limit).1 = true ∧ read (assign zero bytes limit).2 = bytes
  assign_exhausted : ∀ bytes limit, available bytes = false →
    assign zero bytes limit = (false, zero)

/-- `cmeta_data_desc`, with the operations of its kind. -/
inductive Destination where
  | bool
  | sint (bits : UInt8)
  | uint (bits : UInt8)
  | float (bits : UInt8)
  | enum (ops : EnumOps)
  | string (ops : BufferOps)
  | other

def assignStoreSint (bits : UInt8) (value : Int64) : Option Object :=
  if bits = 8 then
    let converted := value.toInt8
    if converted.toInt64 ≠ value then none else some (.int8 converted)
  else if bits = 16 then
    let converted := value.toInt16
    if converted.toInt64 ≠ value then none else some (.int16 converted)
  else if bits = 32 then
    let converted := value.toInt32
    if converted.toInt64 ≠ value then none else some (.int32 converted)
  else if bits = 64 then some (.int64 value)
  else none

def assignStoreUint (bits : UInt8) (value : UInt64) : Option Object :=
  if bits = 8 then
    let converted := value.toUInt8
    if converted.toUInt64 ≠ value then none else some (.uint8 converted)
  else if bits = 16 then
    let converted := value.toUInt16
    if converted.toUInt64 ≠ value then none else some (.uint16 converted)
  else if bits = 32 then
    let converted := value.toUInt32
    if converted.toUInt64 ≠ value then none else some (.uint32 converted)
  else if bits = 64 then some (.uint64 value)
  else none

def assignStoreFloat (bits : UInt8) (value : Float) : Option Object :=
  if bits = 32 then
    let converted := castSingle value
    if widen converted == value then some (.single converted) else none
  else if bits = 64 then some (.double value)
  else none

/-- The `scxml_expr_status` values of an assignment. -/
inductive Status where
  | ok
  | invalidArgument
  | unknownLocation
  | typeMismatch
  | limitExceeded
  | allocationFailed
  | evaluationError
  deriving DecidableEq

/-- `assign_destination_accepts`. -/
def assignDestinationAccepts : Destination → Value → Bool
  | .bool, .bool _ => true
  | .sint _, .sint _ | .sint _, .uint _ | .sint _, .float _ => true
  | .uint _, .sint _ | .uint _, .uint _ | .uint _, .float _ => true
  | .float _, .sint _ | .float _, .uint _ | .float _, .float _ => true
  | .enum _, .sint _ | .enum _, .uint _ => true
  | .string _, .string _ => true
  | _, _ => false

/-! ## The assignment -/

inductive DestinationKind where
  | mutable
  | supplemental
  | readOnlySystem
  | invalid
  deriving DecidableEq

inductive Source where
  | expression
  | stringLiteral (bytes : List UInt8)
  | external

/-- `scxml_assign_program_impl`. -/
structure AssignProgram where
  destination : Destination
  maxStringBytes : ℕ
  destinationKind : DestinationKind
  source : Source

structure Call where
  arguments : Bool
  checkDestinationBinding : Bool
  storage : Bool
  /-- `scxml_expr_require_data_bound`. -/
  requireDataBound : Status
  evaluate : Status × Value
  slotBound : Bool
  copied : Bool

/-- The evaluated value, or what ends the assignment. -/
def AssignProgram.prepare (program : AssignProgram) (call : Call) : Except Status Value :=
  if !call.arguments then .error .invalidArgument
  else if program.destinationKind = .readOnlySystem then .error .evaluationError
  else if program.destinationKind = .invalid then .error .unknownLocation
  else
    let binds := call.checkDestinationBinding && program.destinationKind = .mutable
    if binds && !call.storage then .error .invalidArgument
    else if binds && call.requireDataBound ≠ .ok then .error call.requireDataBound
    else
      let unbound := program.destinationKind = .supplemental && !call.slotBound
      match program.source with
      | .external => .error .invalidArgument
      | .stringLiteral bytes => if unbound then .error .unknownLocation else .ok (.string bytes)
      | .expression =>
        if call.evaluate.1 ≠ .ok then .error call.evaluate.1
        else if unbound then .error .unknownLocation
        else .ok call.evaluate.2

def Value.boolean : Value → Bool
  | .bool boolean => boolean
  | _ => false

/-- `source->data.string`. -/
def Value.bytes : Value → List UInt8
  | .string str => str
  | _ => []

def assignString (ops : BufferOps) (limit : ℕ) (copied : Bool) (object : Object)
    (bytes : List UInt8) : Status × Object :=
  if limit < bytes.length then (.limitExceeded, object)
  else if ops.owned && !bytes.isEmpty && !copied then (.allocationFailed, object)
  else
    let (restored, object) := ops.restoreZero object
    if !restored then (.evaluationError, object)
    else
      let (assigned, object) := ops.assign object bytes limit
      (if assigned then .ok else .evaluationError, object)

def assignEnum (ops : EnumOps) (object : Object) (sint : Int64) : Status × Object :=
  let (restored, object) := ops.restoreZero object
  if !restored then (.evaluationError, object)
  else
    let (assigned, object) := ops.assign object sint
    (if assigned then .ok else .evaluationError, object)

def stored (object : Object) : Option Object → Status × Object
  | some object => (.ok, object)
  | none => (.typeMismatch, object)

/-- `assign_apply`: the status and the destination. -/
def assignApply (program : AssignProgram) (call : Call) (object : Object) : Status × Object :=
  match program.prepare call with
  | .error status => (status, object)
  | .ok source =>
    match program.destination with
    | .bool => (.ok, .bool source.boolean)
    | .sint bits => stored object ((assignSintValue source).bind (assignStoreSint bits))
    | .uint bits => stored object ((assignUintValue source).bind (assignStoreUint bits))
    | .float bits => stored object ((assignFloatValue source).bind (assignStoreFloat bits))
    | .enum ops =>
      match assignSintValue source with
      | none => (.typeMismatch, object)
      | some sint => assignEnum ops object sint
    | .string ops => assignString ops program.maxStringBytes call.copied object source.bytes
    | .other => (.typeMismatch, object)

end TurboScxml.Expr
