import YourSQL.Executor.Statements

/-! # Statements of the terminal

A statement is run by `Execute`, one row at a time, and then the terminal ends its
transaction: by a commit, or by an abort where anything was thrown. The executors and
their iterators have no destructors of their own; what `Close` or the end of an iterator
would release stays pinned where neither is reached.
-/

namespace YourSQL

/-- `Next`. Of a column that the row does not have nothing is modelled. -/
def ExecutorProjection.project (schema : List ColumnTypes) (columnIds : List Nat)
    (payload : List UInt8) : Except String (List Value) := do
  let values ← Row.deserialize schema payload
  return columnIds.map fun columnId => values.getD columnId .null

namespace Execute

/-- What `PrintTuple` reads of a value. -/
def printValue (type : ColumnTypes) (value : Value) : Except String Unit :=
  if value.isNull then
    .ok ()
  else
    match type with
    | .integer => value.getInt.map fun _ => ()
    | .double => value.getDouble.map fun _ => ()
    | .varchar | .varchar2 => value.getString.map fun _ => ()
    | .bool => value.getBool.map fun _ => ()
    | .timestamp => value.getTimestamp.map fun _ => ()
    | _ => .ok ()

/-- `PrintTuple`. A projection does not touch the schema: each value is printed by the type of
    the table's column that stands where it stands. -/
def printTuple (schema : List ColumnTypes) (columnIds : List Nat) (payload : List UInt8) :
    Except String Unit := do
  let values ←
    if columnIds = [] then Row.deserialize schema payload
    else ExecutorProjection.project schema columnIds payload
  (schema.zip values).forM fun (type, value) => printValue type value

/-- WHERE, and what is done with a row that passes before the next one is asked for. -/
def consume (schema : List ColumnTypes) (columnIds : List Nat) (filter : Option Filter) : Filter :=
  fun payload => do
    let value ←
      match filter with
      | none => pure (.of (.bool true))
      | some filter => filter payload
    if ← value.getBool then
      printTuple schema columnIds payload
    return value

def executeQuery (trx tableId : Nat) (schema : List ColumnTypes) (columnIds : List Nat)
    (filter : Option Filter) : Exec Unit := do
  let _ ← ExecutorSeqScan.select (some trx) tableId (some (consume schema columnIds filter))

def executeInsert (trx tableId : Nat) (row : Except String (List UInt8)) : Exec Unit :=
  ExecutorInsert.insert (some trx) tableId row

def executeDelete (trx tableId : Nat) (filter : Option Filter) : Exec Unit := do
  let _ ← ExecutorDelete.delete (some trx) tableId filter

def executeUpdate (trx tableId : Nat) (schema : List ColumnTypes)
    (clauses : List ExecutorUpdate.SetClause) (filter : Option Filter) : Exec Unit := do
  let _ ← ExecutorUpdate.update (some trx) tableId schema clauses filter

end Execute

inductive Statement where
  | select (tableId : Nat) (schema : List ColumnTypes) (columnIds : List Nat)
      (filter : Option Filter)
  | insert (tableId : Nat) (row : Except String (List UInt8))
  | delete (tableId : Nat) (filter : Option Filter)
  | update (tableId : Nat) (schema : List ColumnTypes) (clauses : List ExecutorUpdate.SetClause)
      (filter : Option Filter)

def Statement.execute (trx : Nat) : Statement → Exec Unit
  | select tableId schema columnIds filter => Execute.executeQuery trx tableId schema columnIds filter
  | insert tableId row => Execute.executeInsert trx tableId row
  | delete tableId filter => Execute.executeDelete trx tableId filter
  | update tableId schema clauses filter => Execute.executeUpdate trx tableId schema clauses filter

/-- The `try` block of `ExecuteSQL`, for a statement that ends its transaction. -/
def executeSQL (trx : Nat) (statement : Statement) : Exec Unit :=
  tryCatch (do
    statement.execute trx
    commitTransaction trx) fun message => do
    abortTransaction trx
    throw message

end YourSQL
