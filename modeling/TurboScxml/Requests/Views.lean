import TurboScxml.Basic
import TurboScxml.Lib.Overlay
import Mathlib.Logic.Function.Basic
import Mathlib.Data.Int.Notation
import Mathlib.Tactic.SplitIfs

/-!
# Expression results as borrowed views

`expr_resolve` of `scxml_expr.c` and `quickjs_convert_scalar_result` of `scxml_quickjs.c`, as far as
strings go: a string result is a view of storage that somebody else owns.

* `DataModel`: the parameters, which are CMeta, the doubles and the text functions;
* `Owner`, `View`, `Memory`, `Memory.denote`: who owns the bytes, and what a view shows later.
-/

namespace TurboScxml.Requests

open Overlay

/-- A value that is no string. -/
inductive Scalar (Real : Type)
  | bool (value : Bool)
  | sint (value : ℤ)
  | uint (value : ℕ)
  | float (value : Real)

/-- `scxml_expr_value` and `scxml_payload_value`. -/
inductive Datum (Real S : Type)
  | scalar (value : Scalar Real)
  | string (text : S)

/-- CMeta and the C library, as far as requests rest on them. -/
structure DataModel where
  Real : Type
  Location : Type
  locationDecEq : DecidableEq Location
  Path : Type
  Object : Type
  leaves : Object → List Location
  isRoot : Object → Bool
  exactSint : Real → Option ℤ
  exactUint : Real → Option ℕ
  /-- `cmeta_data_buffer_assign` finds the storage. -/
  assigns : Text → Bool
  nmtoken : Text → Bool
  /-- `snprintf` of a number or a boolean. -/
  printed : Scalar Real → Text
  decimal : ℕ → Text
  store : Location → Datum Real Text → (Location → Datum Real Text) →
    Option (Location → Datum Real Text)
  /-- `scxml_runtime_copy_event_data_object`. -/
  copyData : (Location → Datum Real Text) → Option (Location → Datum Real Text)

variable (M : DataModel)

instance : DecidableEq M.Location := M.locationDecEq

abbrev DataModel.Root := M.Location → Datum M.Real Text

/-! ## Views -/

inductive Owner
  | constant (text : Text)
  /-- The buffer of an owned string at a given time. -/
  | managed (location : M.Location) (generation : ℕ)
  /-- `runtime->core.result_string`. -/
  | result

structure View where
  owner : Owner M
  size : ℕ

structure Memory where
  root : M.Root
  generation : M.Location → ℕ
  result : Text
  nextSendToken : ℕ

inductive EventField
  | name | type | sendId | origin | originType | invokeId | data
  deriving DecidableEq

/-- `scxml_expr_system_values`. -/
structure SystemValues where
  name : Option Text
  sessionId : Option Text
  event : EventField → Option Text
  eventData : M.Path → Option Text
  supplemental : M.Path → Option Text
  ioprocessors : List (Text × Option Text)
  active : ℕ → Bool
  bound : M.Location → Bool
  objectBound : M.Object → Bool

variable {M}

def View.constant (text : Text) : View M := ⟨.constant text, text.length⟩

/-- What a view shows; `none` is a freed buffer. -/
def Memory.denote (m : Memory M) (v : View M) : Option Text :=
  if v.size = 0 then some []
  else
    match v.owner with
    | .constant text => some (text.take v.size)
    | .managed location generation =>
      if m.generation location = generation then
        match m.root location with
        | .string text => some (text.take v.size)
        | .scalar _ => none
      else none
    | .result => some (m.result.take v.size)

def Memory.keepResult (m : Memory M) (text : Text) : Memory M :=
  { m with result := overlay (text ++ ['\x00']) m.result }

/-- `cmeta_location_assign_owned_string`. -/
def Memory.assignOwnedString (m : Memory M) (location : M.Location) (text : Text) : Memory M :=
  { m with
    root := Function.update m.root location (.string text)
    generation := Function.update m.generation location (m.generation location + 1) }

/-! ## Programs -/

variable (M) in
inductive StringOperand
  | location (location : M.Location)
  | supplementalLocation (path : M.Path)
  | unresolvedLocation
  | eventDataLocation (path : M.Path)
  | literal (text : Text)
  | systemName
  | sessionId
  | eventField (field : EventField)
  | ioprocessorLocation (name : Text)

inductive JsValue (Real : Type)
  | boolean (value : Bool)
  | number (value : Real)
  | string (text : Text)
  | other

/-- `scxml_expr_value_kind`. -/
inductive ValueKind
  | invalid | bool | sint | uint | float | string
  deriving DecidableEq

variable (M) in
inductive ExprProgram
  | text (operand : StringOperand M) (maxStringBytes : ℕ)
  | scalar (evaluate : M.Root → SystemValues M → Option (Scalar M.Real))
  | external (expected : ValueKind) (evaluate : M.Root → SystemValues M → Option (JsValue M.Real))

variable (system : SystemValues M)

def StringOperand.constantText (maxStringBytes : ℕ) : StringOperand M → Option Text
  | .location _ | .unresolvedLocation => none
  | .supplementalLocation path =>
    (system.supplemental path).filter (·.length ≤ maxStringBytes)
  | .eventDataLocation path => (system.eventData path).filter (·.length ≤ maxStringBytes)
  | .literal text => some text
  | .systemName => system.name.filter (·.length ≤ maxStringBytes)
  | .sessionId => system.sessionId.filter (·.length ≤ maxStringBytes)
  | .eventField field => (system.event field).filter (·.length ≤ maxStringBytes)
  | .ioprocessorLocation name =>
    ((system.ioprocessors.find? (·.1 = name)).bind (·.2)).filter (·.length ≤ maxStringBytes)

def readText (maxStringBytes : ℕ) (root : M.Root) (location : M.Location) : Option Text :=
  if system.bound location then
    match root location with
    | .string text => if text.length ≤ maxStringBytes then some text else none
    | .scalar _ => none
  else none

def StringOperand.resolve (maxStringBytes : ℕ) (m : Memory M) : StringOperand M → Option (View M)
  | .location source =>
    (readText system maxStringBytes m.root source).map fun text =>
      ⟨.managed source (m.generation source), text.length⟩
  | operand => (operand.constantText system maxStringBytes).map .constant

def ValueKind.resolved {Real : Type} (expected : ValueKind) (value : JsValue Real) : ValueKind :=
  if expected = .invalid then
    match value with
    | .boolean _ => .bool
    | .number _ => .float
    | .string _ => .string
    | .other => .invalid
  else expected

def convertScalarResult (expected : ValueKind) (m : Memory M) (value : JsValue M.Real) :
    Option (Datum M.Real (View M) × Memory M) :=
  match expected.resolved value, value with
  | .bool, .boolean b => some (.scalar (.bool b), m)
  | .sint, .number n => (M.exactSint n).map fun i => (.scalar (.sint i), m)
  | .uint, .number n => (M.exactUint n).map fun i => (.scalar (.uint i), m)
  | .float, .number n => some (.scalar (.float n), m)
  | .string, .string text =>
    if text.length < m.result.length then
      some (.string ⟨.result, text.length⟩, m.keepResult text)
    else none
  | _, _ => none

def ExprProgram.evaluate (system : SystemValues M) (m : Memory M) :
    ExprProgram M → Option (Datum M.Real (View M) × Memory M)
  | .text operand maxStringBytes =>
    (operand.resolve system maxStringBytes m).map fun view => (.string view, m)
  | .scalar evaluate => (evaluate m.root system).map fun value => (.scalar value, m)
  | .external expected evaluate => (evaluate m.root system).bind (convertScalarResult expected m)

/-! ## The value of a program -/

def StringOperand.value (maxStringBytes : ℕ) (root : M.Root) : StringOperand M → Option Text
  | .location source => readText system maxStringBytes root source
  | operand => operand.constantText system maxStringBytes

def convertedValue (expected : ValueKind) (capacity : ℕ) (value : JsValue M.Real) :
    Option (Datum M.Real Text) :=
  match expected.resolved value, value with
  | .bool, .boolean b => some (.scalar (.bool b))
  | .sint, .number n => (M.exactSint n).map fun i => .scalar (.sint i)
  | .uint, .number n => (M.exactUint n).map fun i => .scalar (.uint i)
  | .float, .number n => some (.scalar (.float n))
  | .string, .string text => if text.length < capacity then some (.string text) else none
  | _, _ => none

def ExprProgram.value (capacity : ℕ) (root : M.Root) : ExprProgram M → Option (Datum M.Real Text)
  | .text operand maxStringBytes =>
    (operand.value system maxStringBytes root).map .string
  | .scalar evaluate => (evaluate root system).map .scalar
  | .external expected evaluate => (evaluate root system).bind (convertedValue expected capacity)

variable (m : Memory M)

def ExprProgram.view (t : Text) : ExprProgram M → View M
  | .text (.location source) _ => ⟨.managed source (m.generation source), t.length⟩
  | .external _ _ => ⟨.result, t.length⟩
  | _ => .constant t

def ExprProgram.represent (p : ExprProgram M) (m : Memory M) :
    Datum M.Real Text → Datum M.Real (View M)
  | .scalar s => .scalar s
  | .string t => .string (p.view m t)

def ExprProgram.kept (p : ExprProgram M) : Datum M.Real Text → List Text
  | .scalar _ => []
  | .string t =>
    match p with
    | .external _ _ => [t ++ ['\x00']]
    | _ => []

variable (texts : List Text)

/-- The memory after texts are copied to the result buffer. -/
def Memory.keepResults : Memory M :=
  { m with result := overlays m.result texts }

@[simp]
theorem Memory.keepResults_root : (m.keepResults texts).root = m.root := rfl

theorem Memory.keepResults_append (texts more : List Text) :
    m.keepResults (texts ++ more) = (m.keepResults texts).keepResults more := by
  simp only [keepResults, overlays_append]

theorem convertScalarResult_eq (expected : ValueKind)
    (f : M.Root → SystemValues M → Option (JsValue M.Real)) (m : Memory M) (v : JsValue M.Real) :
    convertScalarResult expected m v =
      (convertedValue expected m.result.length v).map fun d =>
        ((ExprProgram.external expected f).represent m d,
          m.keepResults ((ExprProgram.external expected f).kept d)) := by
  unfold convertScalarResult convertedValue
  cases expected.resolved v <;> cases v <;> try rfl
  case sint.number n => dsimp only; cases M.exactSint n <;> rfl
  case uint.number n => dsimp only; cases M.exactUint n <;> rfl
  case string.string t => dsimp only; split_ifs <;> rfl

/-- **Evaluation.** A program has its value, and writes the texts it keeps. -/
theorem ExprProgram.evaluate_eq (m : Memory M) (p : ExprProgram M) : p.evaluate system m =
      (p.value system m.result.length m.root).map fun d =>
        (p.represent m d, m.keepResults (p.kept d)) := by
  cases p with
  | text operand maxStringBytes =>
    cases operand <;>
      simp only [evaluate, value, StringOperand.resolve, StringOperand.value, Option.map_map] <;>
      rfl
  | scalar f => simp only [evaluate, value, Option.map_map]; rfl
  | external expected f =>
    simp only [evaluate, value]
    cases f m.root system with
    | none => rfl
    | some v => exact convertScalarResult_eq expected f m v

end TurboScxml.Requests
