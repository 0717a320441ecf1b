import YourSQL.Catalog.ColumnNames
import YourSQL.Planner.PhysicalExpression

/-! # Conditions

What a WHERE means in SQL: comparisons of integers and of strings, joined by AND and OR, with
NULL as a third truth value. A condition whose types fit has a value wherever no column is
NULL.
-/

namespace YourSQL.Stored

inductive Comparison where
  | eq
  | neq
  | lt
  | lte
  | gt
  | gte
  deriving Repr, DecidableEq

namespace Comparison

def opType : Comparison → Hsql.OperatorType
  | eq => .equals
  | neq => .notEquals
  | lt => .less
  | lte => .lessEq
  | gt => .greater
  | gte => .greaterEq

def op : Comparison → BinaryOp
  | eq => .eq
  | neq => .neq
  | lt => .lt
  | lte => .lte
  | gt => .gt
  | gte => .gte

def test {α : Type} [DecidableEq α] [LT α] [DecidableLT α] [LE α] [DecidableLE α]
    (comparison : Comparison) (x y : α) : Bool :=
  match comparison with
  | eq => decide (x = y)
  | neq => decide (x ≠ y)
  | lt => decide (x < y)
  | lte => decide (x ≤ y)
  | gt => decide (x > y)
  | gte => decide (x ≥ y)

end Comparison

inductive Connective where
  | and
  | or
  deriving Repr, DecidableEq

namespace Connective

def opType : Connective → Hsql.OperatorType
  | and => .and
  | or => .or

def op : Connective → BinaryOp
  | and => .and
  | or => .or

/-- The truth value that one operand settles. -/
def decisive : Connective → Bool
  | and => false
  | or => true

end Connective

/-- A WHERE over columns, strings and integers. -/
inductive Condition where
  | connect (connective : Connective) (left right : Condition)
  | compare (comparison : Comparison) (left right : Condition)
  | column (name : List UInt8)
  | string (val : List UInt8)
  | int (val : Int64)
  deriving Repr, DecidableEq

/-- A value, NULL, or that the types do not fit together. -/
inductive Outcome where
  | mismatch
  | null
  | value (val : Variant)
  deriving Repr, DecidableEq

namespace Outcome

def of (value : Value) : Outcome := if value.isNull then null else .value value.val

/-- Integers are compared with integers, and strings with strings. -/
def compare (comparison : Comparison) : Outcome → Outcome → Outcome
  | mismatch, _ | _, mismatch => mismatch
  | null, _ | _, null => null
  | value (.int x), value (.int y) => value (.bool (comparison.test x y))
  | value (.string x), value (.string y) => value (.bool (comparison.test x y))
  | _, _ => mismatch

/-- The right operand has to be a truth value only if the left one does not settle it. -/
def connect (connective : Connective) : Outcome → Outcome → Outcome
  | mismatch, _ | _, mismatch => mismatch
  | null, null => null
  | null, value (.bool right) => if right = connective.decisive then value (.bool right) else null
  | value (.bool left), null => if left = connective.decisive then value (.bool left) else null
  | value (.bool left), value (.bool right) =>
      if left = connective.decisive then value (.bool left) else value (.bool right)
  | value (.bool left), _ => if left = connective.decisive then value (.bool left) else mismatch
  | _, _ => mismatch

end Outcome

namespace Condition

/-- What the condition says where the columns have these values. -/
def eval (cell : List UInt8 → Outcome) : Condition → Outcome
  | connect connective left right =>
      Outcome.connect connective (left.eval cell) (right.eval cell)
  | compare comparison left right =>
      Outcome.compare comparison (left.eval cell) (right.eval cell)
  | column name => cell name
  | string val => .value (.string val)
  | int val => .value (.int val.toInt)

/-- The tree that the parser has of it. -/
def toExpr : Condition → Hsql.Expr
  | connect connective left right => .operator connective.opType left.toExpr right.toExpr
  | compare comparison left right => .operator comparison.opType left.toExpr right.toExpr
  | column name => .columnRef name
  | string val => .literalString val
  | int val => .literalInt val

def columns : Condition → List (List UInt8)
  | connect _ left right | compare _ left right => left.columns ++ right.columns
  | column name => [name]
  | string _ | int _ => []

def literals : Condition → List Value
  | connect _ left right | compare _ left right => left.literals ++ right.literals
  | column _ => []
  | string val => [.of (.string val)]
  | int val => [.of (.int val.toInt)]

/-- Every integer of the condition is an `int`. -/
def Narrow : Condition → Prop
  | connect _ left right | compare _ left right => left.Narrow ∧ right.Narrow
  | column _ | string _ => True
  | int val => -2 ^ 31 ≤ val.toInt ∧ val.toInt < 2 ^ 31

instance instDecidableNarrow : (condition : Condition) → Decidable condition.Narrow
  | connect _ left right | compare _ left right =>
      @instDecidableAnd _ _ (instDecidableNarrow left) (instDecidableNarrow right)
  | column _ | string _ => isTrue trivial
  | int val => inferInstanceAs (Decidable (-2 ^ 31 ≤ val.toInt ∧ val.toInt < 2 ^ 31))

/-- The type of the condition, given those of the columns. -/
def typeOf (types : List UInt8 → Option ColumnTypes) : Condition → Option ColumnTypes
  | connect _ left right =>
      if left.typeOf types = some .bool ∧ right.typeOf types = some .bool then some .bool else none
  | compare _ left right =>
      match left.typeOf types, right.typeOf types with
      | some .integer, some .integer => some .bool
      | some .varchar, some .varchar => some .bool
      | _, _ => none
  | column name => types name
  | string _ => some .varchar
  | int _ => some .integer

end Condition

/-- There are no floating-point numbers in a condition. -/
def Outcome.Plain (outcome : Outcome) : Prop := ∀ bits, outcome ≠ .value (.double bits)

theorem connect_mismatch (connective : Connective) (left : Outcome) :
    Outcome.connect connective left .mismatch = .mismatch := by
  cases left <;> rfl

theorem compare_mismatch (comparison : Comparison) (left : Outcome) :
    Outcome.compare comparison left .mismatch = .mismatch := by
  cases left <;> rfl

theorem connect_plain (connective : Connective) (left right : Outcome) :
    (Outcome.connect connective left right).Plain := by
  intro bits
  fun_cases Outcome.connect connective left right <;> simp_all

theorem compare_plain (comparison : Comparison) (left right : Outcome) :
    (Outcome.compare comparison left right).Plain := by
  intro bits
  fun_cases Outcome.compare comparison left right <;> simp_all

theorem eval_plain {cell : List UInt8 → Outcome} (condition : Condition)
    (plain : ∀ name ∈ condition.columns, (cell name).Plain) : (condition.eval cell).Plain := by
  cases condition with
  | connect connective left right => exact connect_plain connective _ _
  | compare comparison left right => exact compare_plain comparison _ _
  | column name => exact plain name (List.mem_singleton_self name)
  | string val => nofun
  | int val => nofun

/-! ## Types that fit -/

/-- What a condition of the type can be on a tuple without NULL. -/
def Outcome.Fits : ColumnTypes → Outcome → Prop
  | .bool, value (.bool _) => True
  | .integer, value (.int _) => True
  | .varchar, value (.string _) => True
  | .timestamp, value _ => True
  | _, _ => False

theorem fits_connect {connective : Connective} {left right : Outcome} (leftFits : left.Fits .bool)
    (rightFits : right.Fits .bool) : (Outcome.connect connective left right).Fits .bool := by
  cases left with
  | value left =>
      cases left with
      | bool a =>
          cases right with
          | value right =>
              cases right with
              | bool b => cases connective <;> cases a <;> cases b <;> trivial
              | _ => cases rightFits
          | _ => cases rightFits
      | _ => cases leftFits
  | _ => cases leftFits

theorem fits_compare {comparison : Comparison} {left right : Outcome} {type : ColumnTypes}
    (comparable : type = .integer ∨ type = .varchar) (leftFits : left.Fits type)
    (rightFits : right.Fits type) : (Outcome.compare comparison left right).Fits .bool := by
  cases comparable with
  | inl isInteger =>
      subst isInteger
      cases left with
      | value left =>
          cases left with
          | int x =>
              cases right with
              | value right => cases right <;> trivial
              | _ => cases rightFits
          | _ => cases leftFits
      | _ => cases leftFits
  | inr isVarchar =>
      subst isVarchar
      cases left with
      | value left =>
          cases left with
          | string x =>
              cases right with
              | value right => cases right <;> trivial
              | _ => cases rightFits
          | _ => cases leftFits
      | _ => cases leftFits

theorem fits_of_typeOf {types : List UInt8 → Option ColumnTypes} {cell : List UInt8 → Outcome}
    (fits : ∀ name type, types name = some type → (cell name).Fits type) (condition : Condition)
    {type : ColumnTypes} (typed : condition.typeOf types = some type) :
    (condition.eval cell).Fits type := by
  induction condition generalizing type with
  | connect connective left right leftIh rightIh =>
      rw [Condition.typeOf] at typed
      split at typed
      · rename_i both
        cases typed
        exact fits_connect (leftIh both.1) (rightIh both.2)
      · cases typed
  | compare comparison left right leftIh rightIh =>
      rw [Condition.typeOf] at typed
      split at typed
      · rename_i leftTyped rightTyped
        cases typed
        exact fits_compare (.inl rfl) (leftIh leftTyped) (rightIh rightTyped)
      · rename_i leftTyped rightTyped
        cases typed
        exact fits_compare (.inr rfl) (leftIh leftTyped) (rightIh rightTyped)
      · cases typed
  | column name => exact fits name type typed
  | string val =>
      cases typed
      trivial
  | int val =>
      cases typed
      trivial

end YourSQL.Stored
