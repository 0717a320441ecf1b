import YourSQL.Storage.Row

/-! # WHERE as the parser delivers it

The trees of `hsql`, and what `Transformer::transformWhere` makes of them.
-/

namespace YourSQL

namespace Hsql

inductive OperatorType where
  | none
  | between
  | case
  | caseListElement
  | plus
  | minus
  | asterisk
  | slash
  | percentage
  | caret
  | equals
  | notEquals
  | less
  | lessEq
  | greater
  | greaterEq
  | like
  | notLike
  | iLike
  | and
  | or
  | in
  | concat
  | not
  | unaryMinus
  | isNull
  | exists
  deriving Repr, DecidableEq

/-- A pointer to an expression: `absent` is null, and `other` is of a kind that the
    transformer has no case for. -/
inductive Expr where
  | absent
  | star
  | operator (opType : OperatorType) (expr expr2 : Expr)
  | columnRef (name : List UInt8)
  | literalString (name : List UInt8)
  | literalInt (ival : Int64)
  | other
  deriving Repr, DecidableEq

end Hsql

inductive BinaryOp where
  | add
  | sub
  | mu
  | de
  | gt
  | gte
  | lt
  | lte
  | eq
  | neq
  | like
  | nlike
  | in
  | cancat
  | and
  | or
  deriving Repr, DecidableEq

/-- A pointer to an expression of the parser; `absent` is null. -/
inductive BaseExpression where
  | absent
  | columnRef (columnName : List UInt8)
  | const (type : ColumnTypes) (value : Value)
  | binary (left right : BaseExpression) (op : BinaryOp)
  deriving Repr, DecidableEq

/-- An item of a select list. -/
inductive SelectExpression where
  | star
  | column (columnName : List UInt8)
  deriving Repr, DecidableEq

namespace Transformer

def transformOperatorType (type : Hsql.OperatorType) : Except String BinaryOp :=
  match type with
  | .plus => .ok .add
  | .minus => .ok .sub
  | .asterisk => .ok .mu
  | .slash => .ok .de
  | .equals => .ok .eq
  | .notEquals => .ok .neq
  | .less => .ok .lt
  | .lessEq => .ok .lte
  | .greater => .ok .gt
  | .greaterEq => .ok .gte
  | .like => .ok .like
  | .notLike => .ok .nlike
  | .and => .ok .and
  | .or => .ok .or
  | .in => .ok .in
  | .concat => .ok .cancat
  | _ => .error "Invalid Operator Binary Type"

/-- The operands are given as what `transformWhere` makes of them. -/
def transformBinaryOperator (opType : Hsql.OperatorType)
    (left right : Except String BaseExpression) : Except String BaseExpression :=
  match opType with
  | .minus | .asterisk | .slash | .or | .and | .like | .notLike | .in | .less | .lessEq
  | .greater | .greaterEq | .equals | .notEquals | .not | .plus => do
      let left ← left
      let right ← right
      return .binary left right (← transformOperatorType opType)
  | _ => .error "[Transform]Invalid Unary Operator"

def transformOperator (opType : Hsql.OperatorType) (left right : Except String BaseExpression) :
    Except String BaseExpression :=
  match opType with
  | .concat | .plus | .minus | .asterisk | .slash | .or | .and | .like | .notLike | .in | .less
  | .lessEq | .greater | .greaterEq | .equals | .notEquals | .not =>
      transformBinaryOperator opType left right
  -- `transformUnaryOperator` has no case for the one operator that it is called with
  | .isNull => .error "[Transform]Invalid Unary Operator"
  | _ => .error "don`t know the opType"

def transformConstExpr (columnTypes : ColumnTypes) (value : Value) : BaseExpression :=
  .const columnTypes value

def transformWhere : Hsql.Expr → Except String BaseExpression
  | .absent => .ok .absent
  | .operator opType expr expr2 =>
      transformOperator opType (transformWhere expr) (transformWhere expr2)
  | .columnRef name => .ok (.columnRef name)
  | .literalString name => .ok (transformConstExpr .varchar (.of (.string name)))
  -- `static_cast<int>` keeps the lower 32 bits
  | .literalInt ival => .ok (transformConstExpr .integer (.of (.int ival.toInt32.toInt)))
  | .star | .other => .error "Invalid Where SQL expression"

/-- The first loop of `transformSelect`: an item of another kind is logged and left out. -/
def transformSelectList (selectList : List Hsql.Expr) : List SelectExpression :=
  selectList.filterMap fun item =>
    match item with
    | .star => some .star
    | .columnRef name => some (.column name)
    | _ => none

end Transformer

end YourSQL
