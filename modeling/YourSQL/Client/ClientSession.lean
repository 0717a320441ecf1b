import YourSQL.Executor.Execute

/-! # The terminal and its session

BEGIN, COMMIT and ROLLBACK drive the session of the client and go to no binder. Any other
statement is run as it was bound and planned, in the transaction of the session or else in
one of its own, which ends with it. A statement that raises an exception takes its
transaction with it.
-/

namespace YourSQL

inductive IsolationLevel where
  | readUncommitted
  | readCommitted
  | repeatableRead
  | serialized
  deriving Repr, DecidableEq

/-- What the session reads of the transaction that it holds. -/
structure SessionTransaction where
  txId : Nat
  isolationLevel : IsolationLevel
  deriving Repr, DecidableEq

structure ClientSession where
  currentTxn : Option SessionTransaction := none
  isolationLevel : IsolationLevel := .repeatableRead
  deriving Repr, DecidableEq

def ClientSession.clearTxn (session : ClientSession) : ClientSession :=
  { session with currentTxn := none }

inductive TxnCommand where
  | begin
  | commit
  | rollback
  deriving Repr, DecidableEq

/-- What `Execute` prints: the values of each row, or that it is done, or a count. -/
inductive Printed where
  | rows (rows : List (List Value))
  | done
  | rowsDeleted (count : Nat)
  | rowsUpdated (count : Nat)
  deriving Repr, DecidableEq

/-- The values that `PrintTuple` prints of a row. -/
def Execute.valuesToPrint (schema : List ColumnTypes) (columnIds : List Nat)
    (payload : List UInt8) : Except String (List Value) :=
  if columnIds = [] then Row.deserialize schema payload
  else ExecutorProjection.project schema columnIds payload

/-- A statement run by `Execute`, with what it prints if it comes to its end. -/
def Statement.print (trx : Nat) : Statement → Exec Printed
  | select tableId schema columnIds filter => do
      let rows ← ExecutorSeqScan.select (some trx) tableId
        (some (Execute.consume schema columnIds filter))
      return .rows (rows.filterMap fun row =>
        (Execute.valuesToPrint schema columnIds row.payload).toOption)
  | insert tableId row => do
      ExecutorInsert.insert (some trx) tableId row
      return .done
  | delete tableId filter => do
      return .rowsDeleted (← ExecutorDelete.delete (some trx) tableId filter)
  | update tableId schema clauses filter => do
      return .rowsUpdated (← ExecutorUpdate.update (some trx) tableId schema clauses filter)

/-- What goes to the client for one input. -/
inductive Output where
  | cout (text : String)
  | cerr (text : String)
  | printed (printed : Printed)
  deriving Repr, DecidableEq

structure YourSQLTerminal where
  database : Database
  session : ClientSession := {}

inductive Input where
  | transaction (command : TxnCommand)
  | sql (statement : Statement)

namespace YourSQLTerminal

/-- An exception that nobody catches before `Run`. -/
def fail (database : Database) (session : ClientSession) (message : String) :
    Output × YourSQLTerminal :=
  (.cerr ("Error: " ++ message), ⟨database, session⟩)

/-- COMMIT or ROLLBACK: the session lets go of its transaction if the manager has ended it. -/
def endTransaction (terminal : YourSQLTerminal) (ending : Nat → Exec Unit) (text : String) :
    Output × YourSQLTerminal :=
  match terminal.session.currentTxn with
  | none => (.cerr "No transaction in progress", terminal)
  | some txn =>
      match (ending txn.txId).run terminal.database with
      | (.error message, database) => fail database terminal.session message
      | (.ok _, database) => (.cout text, ⟨database, terminal.session.clearTxn⟩)

def handleTransactionStatement (terminal : YourSQLTerminal) : TxnCommand → Output × YourSQLTerminal
  | .begin =>
      match terminal.session.currentTxn with
      | some _ => (.cerr "Already in a transaction", terminal)
      | none =>
          match beginTransaction.run terminal.database with
          | (.error message, database) => fail database terminal.session message
          | (.ok id, database) =>
              (.cout "BEGIN", ⟨database, { terminal.session with
                currentTxn := some ⟨id, terminal.session.isolationLevel⟩ }⟩)
  | .commit => terminal.endTransaction commitTransaction "COMMIT"
  | .rollback => terminal.endTransaction abortTransaction "ROLLBACK"

/-- The `try` block of `ExecuteSQL` and its handler. The session lets go of the transaction
    only after `Abort`, and `session` is what it is then. -/
def tryStatement (database : Database) (trx : Nat) (attempt : Exec Printed)
    (before after : ClientSession) : Output × YourSQLTerminal :=
  match attempt.run database with
  | (.ok printed, database) => (.printed printed, ⟨database, before⟩)
  | (.error message, database) =>
      match (abortTransaction trx).run database with
      | (.error message, database) => fail database before message
      | (.ok _, database) => fail database after message

/-- `ExecuteSQL`, from the choice of the transaction on. -/
def executeSQL (terminal : YourSQLTerminal) (statement : Statement) : Output × YourSQLTerminal :=
  match terminal.session.currentTxn with
  | none =>
      match beginTransaction.run terminal.database with
      | (.error message, database) => fail database terminal.session message
      | (.ok trx, database) =>
          let attempt : Exec Printed := do
            let printed ← statement.print trx
            commitTransaction trx
            return printed
          tryStatement database trx attempt terminal.session terminal.session
  | some txn =>
      let refreshed :=
        if txn.isolationLevel = .readCommitted then
          ((refreshReadView txn.txId).run terminal.database).2
        else
          terminal.database
      tryStatement refreshed txn.txId (statement.print txn.txId) terminal.session
        terminal.session.clearTxn

def step (terminal : YourSQLTerminal) : Input → Output × YourSQLTerminal
  | .transaction command => terminal.handleTransactionStatement command
  | .sql statement => terminal.executeSQL statement

end YourSQLTerminal

end YourSQL
