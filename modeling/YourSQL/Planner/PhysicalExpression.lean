import YourSQL.Binder.BoundExpression
import YourSQL.Storage.RowCodec

/-! # Expressions on a tuple

`Planner::TransformExpression`, and `Evaluate` of what it makes: each reference to a column
decodes the whole tuple.
-/

namespace YourSQL.Stored

inductive PhysicalExpression where
  | column (tableId columnId : UInt64)
  | constant (value : Value)
  | binary (op : BinaryOp) (left right : PhysicalExpression)
  deriving DecidableEq

/-- `Planner::TransformExpression`. -/
def Planner.transformExpression : BoundExpression → Except Fault PhysicalExpression
  | .absent => .error .nullPointer
  | .columnRef tableId columnId => .ok (.column tableId columnId)
  | .const value _ => .ok (.constant value)
  | .binary op left right => do
      let left ← transformExpression left
      let right ← transformExpression right
      return .binary op left right

/-- The default value that the constructor of `ColumnEntry` sets; it throws for a type that
    has none. -/
def defaultValueOf (type : ColumnTypes) : Value :=
  match type with
  | .bool => .of (.bool false)
  | .timestamp | .integer => .of (.int 0)
  | .varchar | .varchar2 => .of (.string [])
  | _ => .null

def ColumnEntry.defaultValue (column : ColumnEntry) : Value := defaultValueOf column.columnTypes

/-- A tuple of a scan: the bytes of a record, and the columns of its table. -/
structure Tuple where
  schema : List ColumnEntry
  data : List UInt8
  deriving DecidableEq

/-- `Row::Deserialize`, up to `values_`. -/
def Tuple.values (tuple : Tuple) : Except String (List Value) := do
  let (_, values) ← Row.deserializeRecord (tuple.schema.map ColumnEntry.columnTypes) tuple.data
  return values

/-- `Row::GetValue`. There is a value for each column. -/
def getValue (schema : List ColumnEntry) (values : List Value) (index : UInt64) :
    Except String Value :=
  match schema[index.toNat]? with
  | none => .error "index out of range"
  | some column =>
      let r := values.getD index.toNat .null
      .ok (if r.isNull then column.defaultValue else r)

/-- The value, as far as it is the variant's `int` or `double`. -/
def asDouble (value : Value) : Option Float :=
  match value.val with
  | .int val => some (Float.ofInt val)
  | .double bits => some (Float.ofBits bits)
  | _ => none

/-- `int`, with the lower 32 bits of a result that has more. -/
def wrapInt (n : Int) : Value := .of (.int (n.bmod (2 ^ 32)))

namespace PhysicalBinaryExpression

/-- `!value.IsNull() && !value.GetBool()`. -/
def isFalse (value : Value) : Except String Bool :=
  if value.isNull then .ok false else value.getBool.map not

/-- `!value.IsNull() && value.GetBool()`. -/
def isTrue (value : Value) : Except String Bool :=
  if value.isNull then .ok false else value.getBool

def evaluateLogical (op : BinaryOp) (leftVal rightVal : Value) : Except String Value := do
  if op = .and then
    if ← isFalse leftVal then return .of (.bool false)
    if ← isFalse rightVal then return .of (.bool false)
    return if leftVal.isNull || rightVal.isNull then .null else .of (.bool true)
  else
    if ← isTrue leftVal then return .of (.bool true)
    if ← isTrue rightVal then return .of (.bool true)
    return if leftVal.isNull || rightVal.isNull then .null else .of (.bool false)

def evaluateStringOp (op : BinaryOp) (leftVal rightVal : Value) : Except String Value := do
  let lStr ← leftVal.getString
  let rStr ← rightVal.getString
  match op with
  | .cancat => return .of (.string (lStr ++ rStr))
  | .like => return .of (.bool (decide (rStr <:+: lStr)))
  | .nlike => return .of (.bool (!decide (rStr <:+: lStr)))
  | _ => throw "Unsupported String Operation"

def evaluateInts (op : BinaryOp) (lInt rInt : Int) : Except String Value :=
  match op with
  | .add => .ok (wrapInt (lInt + rInt))
  | .sub => .ok (wrapInt (lInt - rInt))
  | .mu => .ok (wrapInt (lInt * rInt))
  | .de => if rInt = 0 then .error "Division by zero" else .ok (wrapInt (lInt.tdiv rInt))
  | .gt => .ok (.of (.bool (decide (lInt > rInt))))
  | .gte => .ok (.of (.bool (decide (lInt ≥ rInt))))
  | .lt => .ok (.of (.bool (decide (lInt < rInt))))
  | .lte => .ok (.of (.bool (decide (lInt ≤ rInt))))
  | .eq => .ok (.of (.bool (decide (lInt = rInt))))
  | .neq => .ok (.of (.bool (decide (lInt ≠ rInt))))
  | _ => .error "Unknown BinaryOp for Int"

def evaluateDoubles (op : BinaryOp) (lDouble rDouble : Float) : Except String Value :=
  match op with
  | .add => .ok (.of (.double (lDouble + rDouble).toBits))
  | .sub => .ok (.of (.double (lDouble - rDouble).toBits))
  | .mu => .ok (.of (.double (lDouble * rDouble).toBits))
  | .de =>
      if rDouble == 0.0 then .error "Division by zero"
      else .ok (.of (.double (lDouble / rDouble).toBits))
  | .gt => .ok (.of (.bool (decide (lDouble > rDouble))))
  | .gte => .ok (.of (.bool (decide (lDouble ≥ rDouble))))
  | .lt => .ok (.of (.bool (decide (lDouble < rDouble))))
  | .lte => .ok (.of (.bool (decide (lDouble ≤ rDouble))))
  | .eq => .ok (.of (.bool (lDouble == rDouble)))
  | .neq => .ok (.of (.bool (lDouble != rDouble)))
  | _ => .error "Unknown BinaryOp for Double"

/-- Strings are compared byte by byte, each as an unsigned number. -/
def evaluateStrings (op : BinaryOp) (lStr rStr : List UInt8) : Except String Value :=
  match op with
  | .gt => .ok (.of (.bool (decide (lStr > rStr))))
  | .gte => .ok (.of (.bool (decide (lStr ≥ rStr))))
  | .lt => .ok (.of (.bool (decide (lStr < rStr))))
  | .lte => .ok (.of (.bool (decide (lStr ≤ rStr))))
  | .eq => .ok (.of (.bool (decide (lStr = rStr))))
  | .neq => .ok (.of (.bool (decide (lStr ≠ rStr))))
  | _ => .error "Unknown BinaryOp for String"

def evaluateArithmeticOrComparison (op : BinaryOp) (leftVal rightVal : Value) :
    Except String Value :=
  match leftVal.val, rightVal.val with
  | .int lInt, .int rInt => evaluateInts op lInt rInt
  | .string lStr, .string rStr => evaluateStrings op lStr rStr
  | _, _ =>
      match asDouble leftVal, asDouble rightVal with
      | some lDouble, some rDouble => evaluateDoubles op lDouble rDouble
      | _, _ => .error "Type mismatch or unsupported operation between types"

/-- `Evaluate`, once both operands are evaluated. -/
def evaluate (op : BinaryOp) (leftVal rightVal : Value) : Except String Value :=
  if op = .and ∨ op = .or then
    evaluateLogical op leftVal rightVal
  else if leftVal.isNull || rightVal.isNull then
    .ok .null
  else if op = .cancat ∨ op = .like ∨ op = .nlike ∨ op = .in then
    evaluateStringOp op leftVal rightVal
  else
    evaluateArithmeticOrComparison op leftVal rightVal

end PhysicalBinaryExpression

/-- `PhysicalColumnExpression::Evaluate`. -/
def PhysicalColumnExpression.evaluate (tuple : Tuple) (columnId : UInt64) :
    Except String Value := do
  getValue tuple.schema (← tuple.values) columnId

namespace PhysicalExpression

/-- The value of an expression, given how a column is read. -/
def evaluateWith (read : UInt64 → Except String Value) :
    PhysicalExpression → Except String Value
  | .column _ columnId => read columnId
  | .constant value => .ok value
  | .binary op left right => do
      let leftVal ← left.evaluateWith read
      let rightVal ← right.evaluateWith read
      PhysicalBinaryExpression.evaluate op leftVal rightVal

/-- `Evaluate`. -/
def evaluate (tuple : Tuple) (expression : PhysicalExpression) : Except String Value :=
  expression.evaluateWith (PhysicalColumnExpression.evaluate tuple)

/-- The literals, from left to right. -/
def constants : PhysicalExpression → List Value
  | .column _ _ => []
  | .constant value => [value]
  | .binary _ left right => left.constants ++ right.constants

end PhysicalExpression

end YourSQL.Stored
