import YourSQL.Client.ClientSession
import YourSQL.Lib.TransactionalStore
import YourSQL.Mvcc.UpdateConserves
import Mathlib.Data.Multiset.Filter

/-! # What statements mean

A table is the bytes of its rows, in no order. A statement fails as a whole, or it answers
and leaves its table with other rows. Of pages, versions, addresses and logs nothing is
said here; all that is left of them are the rows that have no place.
-/

namespace YourSQL

open ExecutorUpdate (SetClause)

abbrev Row.Bytes := List UInt8

/-- The rows of every table. -/
abbrev Contents := Nat → Multiset Row.Bytes

inductive Answer where
  | rows (rows : Multiset (List Value))
  | done
  | rowsDeleted (count : Nat)
  | rowsUpdated (count : Nat)
  deriving DecidableEq

/-- WHERE holds of the row, as DELETE and UPDATE ask. -/
def holdsOf (filter : Option Filter) (row : Row.Bytes) : Bool :=
  decide (matchesFilter filter row = .ok true)

/-- An undo page has space for the row. -/
def undoable (row : Row.Bytes) : Bool := decide (REC_HEADER_SIZE + row.length ≤ UNDO_CAPACITY)

/-- The row with the SET columns replaced, if WHERE holds of it. -/
def rowAfter (schema : List ColumnTypes) (clauses : List SetClause) (filter : Option Filter)
    (row : Row.Bytes) : Row.Bytes :=
  if holdsOf filter row then (updatedBytes schema clauses row).toOption.getD row else row

namespace Statement

def tableId : Statement → Nat
  | select tableId _ _ _ => tableId
  | insert tableId _ => tableId
  | delete tableId _ => tableId
  | update tableId _ _ _ => tableId

/-- The statement does not come past the row: an expression raises an exception, or the row
    cannot be saved, or not be read or written. -/
def stopsAt (statement : Statement) (row : Row.Bytes) : Bool :=
  match statement with
  | select _ schema columnIds filter =>
      !(passes (some (Execute.consume schema columnIds filter)) row).isOk
  | insert _ _ => false
  | delete _ filter =>
      match matchesFilter filter row with
      | .error _ => true
      | .ok isMatch => isMatch && !undoable row
  | update _ schema clauses filter =>
      match matchesFilter filter row with
      | .error _ => true
      | .ok isMatch => isMatch && !((updatedBytes schema clauses row).isOk && undoable row)

/-- The row of an INSERT cannot be made, or an empty page has no space for it. -/
def rowRefused : Statement → Bool
  | insert _ (.error _) => true
  | insert _ (.ok row) => !decide (VersionFits row)
  | _ => false

def rowsAfter (statement : Statement) (rows : Multiset Row.Bytes) : Multiset Row.Bytes :=
  match statement with
  | select _ _ _ _ => rows
  | insert _ (.error _) => rows
  | insert _ (.ok row) => row ::ₘ rows
  | delete _ filter => rows.filter fun row => holdsOf filter row = false
  | update _ schema clauses filter => rows.map (rowAfter schema clauses filter)

def answer (statement : Statement) (rows : Multiset Row.Bytes) : Answer :=
  match statement with
  | select _ schema columnIds filter =>
      .rows ((rows.filter fun row =>
        passes (some (Execute.consume schema columnIds filter)) row = .ok true).filterMap
          fun row => (Execute.valuesToPrint schema columnIds row).toOption)
  | insert _ _ => .done
  | delete _ filter => .rowsDeleted (rows.filter fun row => holdsOf filter row = true).card
  | update _ _ _ filter => .rowsUpdated (rows.filter fun row => holdsOf filter row = true).card

/-- The statement fails: there is no such table, or it stops at a row, or its own row is
    refused. -/
def Fails (known : Nat → Bool) (statement : Statement) (contents : Contents) : Prop :=
  known statement.tableId = false ∨ statement.rowRefused = true ∨
    ∃ row ∈ contents statement.tableId, statement.stopsAt row = true

instance (known : Nat → Bool) (statement : Statement) (contents : Contents) :
    Decidable (statement.Fails known contents) :=
  have : Decidable (∃ row ∈ contents statement.tableId, statement.stopsAt row = true) :=
    Multiset.decidableExistsMultiset
  inferInstanceAs (Decidable (known statement.tableId = false ∨ statement.rowRefused = true ∨
    ∃ row ∈ contents statement.tableId, statement.stopsAt row = true))

/-- What the statement means, where `known` tells the tables that there are. -/
def meaning (known : Nat → Bool) (statement : Statement) (contents : Contents) :
    Option (Answer × Contents) :=
  if statement.Fails known contents then
    none
  else
    some (statement.answer (contents statement.tableId),
      Function.update contents statement.tableId
        (statement.rowsAfter (contents statement.tableId)))

theorem meaning_eq_none {known : Nat → Bool} {statement : Statement} {contents : Contents} :
    statement.meaning known contents = none ↔ statement.Fails known contents := by
  unfold meaning
  split <;> simp [*]

theorem meaning_eq_some {known : Nat → Bool} {statement : Statement} {contents after : Contents}
    {answer : Answer} (means : statement.meaning known contents = some (answer, after)) :
    ¬ statement.Fails known contents ∧ statement.answer (contents statement.tableId) = answer ∧
      Function.update contents statement.tableId
        (statement.rowsAfter (contents statement.tableId)) = after := by
  unfold meaning at means
  split at means
  · cases means
  · rename_i succeeds
    obtain ⟨answered, left⟩ := Prod.ext_iff.mp (Option.some.inj means)
    exact ⟨succeeds, answered, left⟩

/-- UPDATE makes of the row none that an empty page has no space for. -/
def rowFits (schema : List ColumnTypes) (clauses : List SetClause) (row : Row.Bytes) : Bool :=
  match updatedBytes schema clauses row with
  | .error _ => true
  | .ok bytes => decide (VersionFits bytes)

/-- A new row has a size that 16 bits hold, and an empty page has space for every row that
    UPDATE makes. -/
def Sized (contents : Contents) : Statement → Prop
  | select _ _ _ _ => True
  | insert _ row => ∀ bytes, row = .ok bytes → REC_HEADER_SIZE + bytes.length < 2 ^ 16
  | delete _ _ => True
  | update tableId schema clauses filter =>
      ∀ row ∈ contents tableId, holdsOf filter row = true → rowFits schema clauses row = true

instance (contents : Contents) : (statement : Statement) → Decidable (statement.Sized contents)
  | select _ _ _ _ => .isTrue trivial
  | insert _ (.error _) => .isTrue nofun
  | insert _ (.ok bytes) =>
      decidable_of_iff (REC_HEADER_SIZE + bytes.length < 2 ^ 16) (by simp [Sized])
  | delete _ _ => .isTrue trivial
  | update tableId schema clauses filter =>
      inferInstanceAs (Decidable (∀ row ∈ contents tableId,
        holdsOf filter row = true → rowFits schema clauses row = true))

end Statement

/-! ## Requests -/

open Transactional (Store Request Reply)

def Input.request : Input → Request Statement
  | .transaction .begin => .begin
  | .transaction .commit => .commit
  | .transaction .rollback => .rollback
  | .sql statement => .statement statement

/-- What the terminal prints tells the reply. -/
inductive Output.Tells : Output → Reply Answer → Prop
  | begun : Tells (.cout "BEGIN") .begun
  | committed : Tells (.cout "COMMIT") .committed
  | rolledBack : Tells (.cout "ROLLBACK") .rolledBack
  | alreadyBegun : Tells (.cerr "Already in a transaction") .alreadyBegun
  | notBegun : Tells (.cerr "No transaction in progress") .notBegun
  | rows (rows : List (List Value)) : Tells (.printed (.rows rows)) (.done (.rows rows))
  | done : Tells (.printed .done) (.done .done)
  | rowsDeleted (count : Nat) : Tells (.printed (.rowsDeleted count)) (.done (.rowsDeleted count))
  | rowsUpdated (count : Nat) : Tells (.printed (.rowsUpdated count)) (.done (.rowsUpdated count))
  | failed (message : String) : Tells (.cerr ("Error: " ++ message)) .failed

end YourSQL
