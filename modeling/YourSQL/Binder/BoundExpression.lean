import YourSQL.Catalog.CatalogReload
import YourSQL.Parser.Transformer

/-! # Names resolved by the catalog

`Binder::BoundCompExpression` and what it calls: each column of a condition becomes the
column's id.
-/

namespace YourSQL.Stored

/-- How a step of a statement ends without a result: with an exception, or with the process,
    where a null pointer is dereferenced. -/
inductive Fault where
  | exception (what : List UInt8)
  | nullPointer
  deriving DecidableEq

def Fault.message (what : String) : Fault := .exception what.toUTF8.data.toList

/-- A pointer to a bound expression; `absent` is null. -/
inductive BoundExpression where
  | absent
  | columnRef (tableId columnId : UInt64)
  | const (value : Value) (type : ColumnTypes)
  | binary (binaryOp : BinaryOp) (left right : BoundExpression)
  deriving DecidableEq

structure BoundTableRefExpression where
  tableId : UInt64
  tableName : List UInt8
  deriving DecidableEq

namespace Binder

def dontExist (path : List UInt8) : Fault :=
  .exception ("[".toUTF8.data.toList ++ path ++ "] don`t exist in the catalog.".toUTF8.data.toList)

/-- `BoundColumnRefExpression`, up to the ids of the table and of the column. -/
def boundColumnRefExpression (catalog : Catalog) (tableName columnName : List UInt8) :
    Except Fault (UInt64 × UInt64) :=
  match catalog.tableNameIdx tableName with
  | none => .error (dontExist tableName)
  | some tableId =>
      match catalog.tables tableId with
      | none => .error .nullPointer
      | some tableEntry =>
          match tableEntry.columnNameIdx columnName with
          | none => .error (dontExist (tableName ++ ".".toUTF8.data.toList ++ columnName))
          | some columnId => .ok (tableId, columnId)

def boundTableRefExpression (catalog : Catalog) (tableName : List UInt8) :
    Except Fault BoundTableRefExpression :=
  match catalog.tableNameIdx tableName with
  | none => .error (dontExist tableName)
  | some tableId => .ok ⟨tableId, tableName⟩

/-- `BoundCompExpression`, with `BoundBinaryExpression` for the operators that it lets pass. -/
def boundCompExpression (catalog : Catalog) (table : BoundTableRefExpression) :
    BaseExpression → Except Fault BoundExpression
  | .absent => .ok .absent
  | .columnRef columnName => do
      let (tableId, columnId) ← boundColumnRefExpression catalog table.tableName columnName
      return .columnRef tableId columnId
  | .const type value => .ok (.const value type)
  | .binary left right op =>
      match op with
      | .or | .and | .like | .nlike | .in | .lt | .lte | .gt | .gte | .eq | .neq => do
          let left ← boundCompExpression catalog table left
          let right ← boundCompExpression catalog table right
          return .binary op left right
      | _ => .error (.message "[Binder]Invalid expr binary Type")

/-- `BoundStarExpression`. -/
def boundStarExpression (catalog : Catalog) (tableName : List UInt8) :
    Except Fault (List (UInt64 × UInt64)) :=
  match catalog.tableNameIdx tableName with
  | none => .error (dontExist tableName)
  | some tableId =>
      match catalog.tables tableId with
      | none => .error .nullPointer
      | some tableEntry =>
          tableEntry.columns.mapM fun column =>
            boundColumnRefExpression catalog tableName column.name

/-- The select list of `BoundSelectStatement`: a list of one item is taken for a star, and a
    star in a longer list is no `ColumnExpression`. -/
def boundSelectList (catalog : Catalog) (tableName : List UInt8)
    (selectList : List SelectExpression) : Except Fault (List (UInt64 × UInt64)) :=
  if selectList.length = 1 then
    boundStarExpression catalog tableName
  else
    selectList.mapM fun column =>
      match column with
      | .column columnName => boundColumnRefExpression catalog tableName columnName
      | .star => .error .nullPointer

end Binder

end YourSQL.Stored
