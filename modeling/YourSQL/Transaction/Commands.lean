import YourSQL.Storage.TablePage

/-! # Begin, Commit and Abort of one client

The calls of `TransactionManager` as one client makes them, with the log records
they write and, for `Abort`, the rollback of the pages.
-/

namespace YourSQL

/-- A statement enters a write in the write set of its transaction, if it has one. -/
def pushWrite (txn : Option Nat) (wr : WriteRecord) : Exec Unit :=
  match txn with
  | none => return
  | some id => modify fun s => { s with txnManager := s.txnManager.pushWrite id wr }

theorem run_pushWrite (s : Database) (txn : Option Nat) (wr : WriteRecord) :
    (pushWrite txn wr).run s =
      (.ok ⟨⟩, { s with txnManager := s.txnManager.pushWriteFor txn wr }) := by
  cases txn with
  | none => rfl
  | some trx => rfl

/-- `CreateReadView`, kept in the transaction object. -/
def refreshReadView (id : Nat) : Exec Unit :=
  modify fun s =>
    { s with txnManager := s.txnManager.setReadView id (s.txnManager.createReadView id) }.enter
      (.view id)

def beginTransaction : Exec Nat := do
  let s ← get
  let (id, txnManager) := s.txnManager.beginAllocate
  set { s with txnManager := txnManager }
  refreshReadView id
  return id

/-- `WriteTxnControlLog` and the flush behind it. -/
def forceControlLog (id : Nat) (type : LogRecordType) : Exec Unit := do
  let s ← get
  if s.log.isSome then
    let _ ← appendLogRecord id type none
    flushLog

theorem run_forceControlLog (s : Database) (id : Nat) (type : LogRecordType)
    (fits : ∀ log, s.log = some log → kLogHeaderBytes ≤ log.capacity) :
    ∃ log io, (forceControlLog id type).run s = (.ok ⟨⟩, { s with log := log, io := io }) ∧
      log.map LogManager.capacity = s.log.map LogManager.capacity ∧
      s.Copies { s with log := log, io := io } := by
  unfold forceControlLog
  simp only [Program.run_get_bind]
  split
  · obtain ⟨lsn, log, io, appended, capacity, copies⟩ := run_appendLogRecord s id type none (by
      simpa [LogEntry.size] using fits)
    obtain ⟨log', io', flushed, capacity', copies'⟩ := run_flushLog { s with log := log, io := io }
    rw [Program.run_bind_of_ok appended]
    exact ⟨log', io', flushed, capacity'.trans capacity, copies.trans copies'⟩
  · exact ⟨s.log, s.io, rfl, rfl, .refl s⟩

def commitTransaction (id : Nat) : Exec Unit := do
  let s ← get
  match s.txnManager.commitSection id with
  | .error message => throw message
  | .ok txnManager => set ({ s with txnManager := txnManager }.enter (.commit id))
  forceControlLog id .commit

/-- The switch in `RollbackWrites`, on the page of the entry. -/
def undoWrite (wr : WriteRecord) : Exec Unit := do
  let tp ← TablePage.load wr.tableId wr.rid.pageId
  match wr.type with
  | .insert | .updateInsertNew => tp.markDead wr.rid
  | .delete | .updateDeleteOld =>
      tp.restoreRecord wr.rid ⟨wr.prevTrxId, wr.prevRollPtr, wr.prevFlags⟩

def rollbackWrite (wr : WriteRecord) : Exec Unit := do
  fetchPage wr.rid.pageId
  undoWrite wr
  flush wr.rid.pageId
  release wr.rid.pageId

/-- `RollbackWrites`, from the last entry to the first. -/
def rollbackWrites (writeSet : List WriteRecord) : Exec Unit := do
  let s ← get
  if s.storage then
    writeSet.reverse.forM rollbackWrite

def abortTransaction (id : Nat) : Exec Unit := do
  let s ← get
  match s.txnManager.abortLookup id with
  | .error message => throw message
  | .ok _ =>
      rollbackWrites (s.txnManager.transaction id).writeSet
      modify fun s => { s with txnManager := s.txnManager.abortFinish id }.enter (.abort id)
      forceControlLog id .abort

end YourSQL
