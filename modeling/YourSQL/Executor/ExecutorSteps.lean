import YourSQL.Executor.PinBalance
import YourSQL.Executor.HeapChain
import YourSQL.Lib.Transition

/-! # Executors step by step

An executor is opened, asked for its next tuple and closed, and other executors may take
their steps in between. What it keeps from one step to the next is a `TablePage` object or
an iterator with one, and so a copy of a page header as that was when the object was made.
A statement is the three steps without a pause.
-/

namespace YourSQL

/-! ## The steps of INSERT and DELETE -/

namespace ExecutorInsert

/-- `Open`. -/
def openTable (tableId : Nat) : Exec TablePage := do
  let s ← get
  match s.items tableId with
  | none => throw s!"ExecutorInsert::Open No meta page exists:{tableId}"
  | some item => openLastPage tableId item

/-- `Next`, with the tuple that was inserted and the address that `InsertTuple` gave it. -/
def next (txn : Option Nat) (tableId : Nat) (row : Except String (List UInt8)) (tp : TablePage) :
    Exec (TablePage × RID × Record) := do
  let payload ← Program.lift row
  let tuple := tupleOf ⟨txn.getD INVALID_TX_ID, .null, 0⟩ payload
  let tp ← makeRoom tp tuple
  match ← tp.insertTuple tuple with
  | (none, _) => throw "ExecutorInsert::Next tuple too large for an empty page"
  | (some rid, tp) =>
      let tp ← logAndSetLsn txn .insertRow tableId rid (some tuple) tp
      flush tp.pageId
      pushWrite txn { rid := rid, type := .insert, tableId := tableId }
      enter (.insert (txn.getD INVALID_TX_ID) tableId rid payload)
      return (tp, rid, tuple)

/-- `Close`. -/
def close (tp : TablePage) : Exec Unit := release tp.pageId

theorem run_insert_steps (txn : Option Nat) (t : Nat) (row : Except String (List UInt8)) (s : Database) :
    (insert txn t row).run s =
      (openTable t >>= fun tp => next txn t row tp >>= fun put => close put.1).run s := by
  unfold insert openTable
  rw [Program.run_get_bind, Program.run_bind_assoc, Program.run_get_bind]
  cases s.items t with
  | none => rfl
  | some item =>
      apply Program.run_bind_congr
      intro tp u
      unfold next
      rw [Program.run_bind_assoc]
      apply Program.run_bind_congr
      intro payload u
      rw [Program.run_bind_assoc]
      apply Program.run_bind_congr
      intro tp u
      rw [Program.run_bind_assoc]
      apply Program.run_bind_congr
      rintro ⟨_ | rid, tp⟩ u
      · rfl
      · dsimp only
        rw [Program.run_bind_assoc]
        apply Program.run_bind_congr
        intro tp u
        rw [Program.run_bind_assoc]
        apply Program.run_bind_congr
        intro _ u
        rw [Program.run_bind_assoc]
        apply Program.run_bind_congr
        intro _ u
        rw [Program.run_bind_assoc]
        apply Program.run_bind_congr
        intro _ u
        rfl

end ExecutorInsert

namespace ExecutorDelete

/-- `Open`. -/
def openTable (tableId : Nat) : Exec TableIterator := TableIterator.create tableId

/-- `Next`. -/
def next (txn : Option Nat) (filter : Option Filter) (it : TableIterator) : Exec Nat := do
  it.whileNotEnd (round txn filter) (← get).slotCount 0

theorem delete_eq (txn : Option Nat) (t : Nat) (filter : Option Filter) :
    delete txn t filter = openTable t >>= next txn filter := rfl

end ExecutorDelete

/-! ## Two executors on one table -/

inductive Executor where
  | insert (trx : Nat) (row : Except String (List UInt8))
  | delete (trx : Nat) (filter : Option Filter)

/-- Where an executor is, and what it holds. After an exception it is not closed. -/
inductive Phase where
  | created
  | inserting (tp : TablePage)
  | inserted (tp : TablePage)
  | scanning (it : TableIterator)
  | scanned
  | closed
  | failed

inductive ExecutorStep where
  | opens
  | next
  | closes
  deriving DecidableEq

inductive Side where
  | first
  | second
  deriving DecidableEq

/-- What a step does, if the executor can take it: the phase it leads to, and what was
    inserted. `ExecutorValues` has one row; `Close` of a DELETE deletes the iterator, which
    releases nothing. -/
def Executor.perform (t : Nat) :
    Executor → Phase → ExecutorStep → Option (Exec (Phase × List (RID × Record)))
  | .insert _ _, .created, .opens => some do return (.inserting (← ExecutorInsert.openTable t), [])
  | .insert trx row, .inserting tp, .next => some do
      let (tp, put) ← ExecutorInsert.next (some trx) t row tp
      return (.inserted tp, [put])
  | .insert _ _, .inserted tp, .next => some (return (.inserted tp, []))
  | .insert _ _, .inserting tp, .closes => some do
      ExecutorInsert.close tp
      return (.closed, [])
  | .insert _ _, .inserted tp, .closes => some do
      ExecutorInsert.close tp
      return (.closed, [])
  | .delete _ _, .created, .opens => some do return (.scanning (← ExecutorDelete.openTable t), [])
  | .delete trx filter, .scanning it, .next => some do
      let _ ← ExecutorDelete.next (some trx) filter it
      return (.scanned, [])
  | .delete _ _, .scanned, .next => some (return (.scanned, []))
  | .delete _ _, .scanning _, .closes => some (return (.closed, []))
  | .delete _ _, .scanned, .closes => some (return (.closed, []))
  | _, _, _ => none

/-- The database, both executors, and what has been inserted. -/
structure TwoExecutors where
  database : Database
  phase : Side → Phase
  given : List (RID × Record)

namespace TwoExecutors

/-- Both executors are new. -/
def begun (s : Database) : TwoExecutors := ⟨s, fun _ => .created, []⟩

/-- One executor takes a step. -/
def step (t : Nat) (executors : Side → Executor) (s : TwoExecutors) (call : Side × ExecutorStep) :
    Option TwoExecutors :=
  ((executors call.1).perform t (s.phase call.1) call.2).map fun body =>
    match body.run s.database with
    | (.ok (phase, put), database) =>
        { database := database
          phase := Function.update s.phase call.1 phase
          given := s.given ++ put }
    | (.error _, database) =>
        { s with
          database := database
          phase := Function.update s.phase call.1 .failed }

end TwoExecutors

end YourSQL
