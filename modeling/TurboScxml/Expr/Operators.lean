import TurboScxml.Lib.Binary64

/-!
# The binary operators of the expression evaluators

The numeric operators of `scxml_expr.c` and `voicexml_cmeta_expr.c`: the two files hold the same
text up to the names of the kinds, and differ in what calls it.

* `Value`, `Opcode`, `Relation`: registers, operators, and the relational ones of the grammar;
* `Scxml.exprBinary`, `Voice.exprBinary`: the operators as the two evaluators run them.
-/

namespace TurboScxml.Expr

/-! ## Values and operators -/

/-- `qvm_value_t`. -/
inductive Value where
  | undefined
  | bool (boolean : Bool)
  | sint (integer : Int64)
  | uint (uinteger : UInt64)
  | float (number : Float)
  | string (str : List UInt8)
  deriving DecidableEq

/-- The opcodes that reach the operators. -/
inductive Opcode where
  | add
  | sub
  | mul
  | div
  | mod
  | neg
  | band
  | bor
  | cmp
  deriving DecidableEq

/-- `EXPR_TOKEN_EQ` to `EXPR_TOKEN_GE`. -/
inductive Relation where
  | eq
  | ne
  | lt
  | le
  | gt
  | ge
  deriving DecidableEq

/-- The argument that `parser_parse_compare` emits. -/
def Relation.comparison : Relation → UInt32
  | .eq => 0
  | .ne => 1
  | .lt => 2
  | .le => 3
  | .gt => 4
  | .ge => 5

/-! ## Comparison -/

def castSint (number : Float) : Int64 :=
  number.toModel.toInt64

def castDouble (integer : Int64) : Float :=
  .ofModel (.ofInt64 integer)

def sint64UpperBound : Float :=
  9223372036854775808.0

def uint64UpperBound : Float :=
  18446744073709551616.0

/-- `*out_order` and `*out_unordered`. -/
structure Order where
  order : ℤ
  unordered : Bool
  deriving DecidableEq

def compareSintFloat (integer : Int64) (number : Float) : Order :=
  if number.isNaN then ⟨0, true⟩
  else if sint64UpperBound ≤ number then ⟨-1, false⟩
  else if number < -sint64UpperBound then ⟨1, false⟩
  else
    let truncated := castSint number
    if integer < truncated then ⟨-1, false⟩
    else if truncated < integer then ⟨1, false⟩
    else
      let integral := castDouble truncated
      ⟨if integral < number then -1 else if number < integral then 1 else 0, false⟩

def compareUintFloat (integer : UInt64) (number : Float) : Order :=
  if number.isNaN then ⟨0, true⟩
  else if uint64UpperBound ≤ number then ⟨-1, false⟩
  else if number < 0.0 then ⟨1, false⟩
  else
    let truncated := number.toUInt64
    if integer < truncated then ⟨-1, false⟩
    else if truncated < integer then ⟨1, false⟩
    else
      let integral := truncated.toFloat
      ⟨if integral < number then -1 else if number < integral then 1 else 0, false⟩

/-- `numeric_compare`. -/
def numericCompare (left right : Value) : Option Order :=
  match left, right with
  | .float left, .float right =>
    some (if left.isNaN || right.isNaN then ⟨0, true⟩
      else ⟨if left < right then -1 else if right < left then 1 else 0, false⟩)
  | .sint left, .float right => some (compareSintFloat left right)
  | .uint left, .float right => some (compareUintFloat left right)
  | .float left, .sint right =>
    let found := compareSintFloat right left
    some { found with order := -found.order }
  | .float left, .uint right =>
    let found := compareUintFloat right left
    some { found with order := -found.order }
  | .sint left, .sint right =>
    some ⟨if left < right then -1 else if right < left then 1 else 0, false⟩
  | .uint left, .uint right =>
    some ⟨if left < right then -1 else if right < left then 1 else 0, false⟩
  | .sint left, .uint right =>
    some ⟨if left < 0 then -1
      else if left.toUInt64 < right then -1 else if right < left.toUInt64 then 1 else 0, false⟩
  | .uint left, .sint right =>
    some ⟨if right < 0 then 1
      else if left < right.toUInt64 then -1 else if right.toUInt64 < left then 1 else 0, false⟩
  | _, _ => none

/-! ## Arithmetic -/

def checkedSintMultiply (left right : Int64) : Option Int64 :=
  if 0 < left then
    if (0 < right ∧ Int64.maxValue / right < left) ∨
        (right < 0 ∧ right < Int64.minValue / left) then none
    else some (left * right)
  else if left < 0 then
    if (0 < right ∧ left < Int64.minValue / right) ∨
        (right < 0 ∧ right < Int64.maxValue / left) then none
    else some (left * right)
  else some (left * right)

variable (op : Opcode)

def evaluateSintArithmetic (left right : Int64) : Option Int64 :=
  match op with
  | .add =>
    if (0 < right ∧ Int64.maxValue - right < left) ∨
        (right < 0 ∧ left < Int64.minValue - right) then none
    else some (left + right)
  | .sub =>
    if (0 < right ∧ left < Int64.minValue + right) ∨
        (right < 0 ∧ Int64.maxValue + right < left) then none
    else some (left - right)
  | .mul => checkedSintMultiply left right
  | .div =>
    if right = 0 ∨ (left = Int64.minValue ∧ right = -1) then none
    else some (left / right)
  | .mod =>
    if right = 0 ∨ (left = Int64.minValue ∧ right = -1) then none
    else some (left % right)
  | _ => none

def uint64Max : UInt64 :=
  18446744073709551615

def evaluateUintArithmetic (left right : UInt64) : Option UInt64 :=
  match op with
  | .add => if uint64Max - right < left then none else some (left + right)
  | .sub => if left < right then none else some (left - right)
  | .mul => if right ≠ 0 ∧ uint64Max / right < left then none else some (left * right)
  | .div => if right = 0 then none else some (left / right)
  | .mod => if right = 0 then none else some (left % right)
  | _ => none

def numericAsDouble : Value → Option Float
  | .float number => some number
  | .sint integer => some (castDouble integer)
  | .uint uinteger => some uinteger.toFloat
  | _ => none

def evaluateFloatArithmetic (left right : Value) : Option Float := do
  if op = .mod then none
  let leftNumber ← numericAsDouble left
  let rightNumber ← numericAsDouble right
  if op = .div ∧ rightNumber == 0.0 then none
  let out ← match op with
    | .add => some (leftNumber + rightNumber)
    | .sub => some (leftNumber - rightNumber)
    | .mul => some (leftNumber * rightNumber)
    | .div => some (leftNumber / rightNumber)
    | _ => none
  if out.isFinite then some out else none

def exprArithmeticBinary (left right : Value) : Option Value :=
  match left, right with
  | .sint left, .sint right => (evaluateSintArithmetic op left right).map .sint
  | .uint left, .uint right => (evaluateUintArithmetic op left right).map .uint
  | .float _, _ => (evaluateFloatArithmetic op left right).map .float
  | _, .float _ => (evaluateFloatArithmetic op left right).map .float
  | _, _ => none

def arithmeticOpcode : Bool :=
  op = .add || op = .sub || op = .mul || op = .div || op = .mod

/-! ## Operators -/

/-- `memcmp` on two strings of one length. -/
def memcmp : List UInt8 → List UInt8 → ℤ
  | a :: left, b :: right => if a < b then -1 else if b < a then 1 else memcmp left right
  | _, _ => 0

def stringOrder (left right : List UInt8) : ℤ :=
  let common := min left.length right.length
  let order := memcmp (left.take common) (right.take common)
  if order = 0 then
    if left.length < right.length then -1 else if right.length < left.length then 1 else 0
  else order

def boolOrder (left right : Bool) : ℤ :=
  if left = right then 0 else if left then 1 else -1

def comparisonResult (arg : UInt32) (found : Order) : Bool :=
  if arg = 0 then !found.unordered && found.order == 0
  else if arg = 1 then found.unordered || found.order != 0
  else if arg = 2 then !found.unordered && decide (found.order < 0)
  else if arg = 3 then !found.unordered && decide (found.order ≤ 0)
  else if arg = 4 then !found.unordered && decide (0 < found.order)
  else !found.unordered && decide (0 ≤ found.order)

def exprLogical (left right : Value) : Option Value :=
  match left, right with
  | .bool left, .bool right => some (.bool (if op = .band then left && right else left || right))
  | _, _ => none

def Scxml.exprBinary (arg : UInt32) (left right : Value) : Option Value :=
  if arithmeticOpcode op then exprArithmeticBinary op left right
  else if op = .band ∨ op = .bor then exprLogical op left right
  else if op ≠ .cmp ∨ 5 < arg then none
  else do
    let found ← match left, right with
      | .bool left, .bool right =>
        if 1 < arg then none else some ⟨boolOrder left right, false⟩
      | .string left, .string right => some ⟨stringOrder left right, false⟩
      | _, _ => numericCompare left right
    some (.bool (comparisonResult arg found))

/-- `expr_binary` of `voicexml_cmeta_expr.c`. -/
def Voice.exprBinary (failed : Bool) (op : Opcode) (arg : UInt32) (left right : Value) :
    Option Value × Bool :=
  let out :=
    if arithmeticOpcode op then exprArithmeticBinary op left right
    else if op = .band ∨ op = .bor then exprLogical op left right
    else if op = .cmp ∧ arg ≤ 5 then
      let found : Option Order := match left, right with
        | .string left, .string right => some ⟨stringOrder left right, false⟩
        | .bool left', .bool right' =>
          if arg ≤ 1 then some ⟨boolOrder left' right', false⟩ else numericCompare left right
        | _, _ => numericCompare left right
      found.map fun found => .bool (comparisonResult arg found)
    else none
  (out, failed || out.isNone)

end TurboScxml.Expr
