import YourSQL.Executor.TableIterator
import YourSQL.Storage.Row
import YourSQL.Transaction.Commands
import YourSQL.Transaction.UndoLog

/-! # INSERT, DELETE, UPDATE and SELECT

The executors, each as one run from `Open` to `Close`. A statement belongs to a
transaction or to none. The WHERE expression is what it computes from the bytes of a
row. Row changes are entered in the journal once their pages are flushed.
-/

namespace YourSQL

abbrev Filter := List UInt8 → Except String Value

/-- The `IsVisible` of the executors, which knows statements without a transaction. -/
def Database.isVisibleTo (s : Database) (txn : Option Nat) (versionTrxId : Nat) : Bool :=
  if versionTrxId = INVALID_TX_ID then
    true
  else
    match txn with
    | none => true
    | some id =>
        match (s.txnManager.transaction id).readView with
        | none => true
        | some view =>
            if id = versionTrxId then true else view.isVisible (some s.txnManager) versionTrxId

/-- A tuple over serialized bytes. `tuple_size_` keeps 16 bits of their number; of a
    tuple that ends within its record header nothing is modelled. -/
def tupleOf (header : RecordHeader) (payload : List UInt8) : Record where
  toRecordHeader := header
  payload := payload.take ((REC_HEADER_SIZE + payload.length) % 2 ^ 16 - REC_HEADER_SIZE)

/-- A row change is entered in the journal once its page is flushed. -/
def enter (event : Event) : Exec Unit := modify fun s => s.enter event

/-- A row change is logged, and the LSN goes to the page's header. -/
def logAndSetLsn (txn : Option Nat) (type : LogRecordType) (tableId : Nat) (rid : RID)
    (image : Option Record) (tp : TablePage) : Exec TablePage := do
  let lsn ← logDataChange txn type tableId rid image
  if lsn = INVALID_LSN then
    return tp
  tp.setLsn lsn

/-! ## INSERT -/

namespace ExecutorInsert

/-- The page at the end of the chain, with its first page allocated on demand. -/
def openLastPage (tableId : Nat) (item : MetaItem) : Exec TablePage := do
  if item.lastPageId = INVALID_PAGE_ID then
    let id ← newPage
    updateTableLastId tableId id
    if item.firstPageId = INVALID_PAGE_ID then
      updateTableFirstId tableId id
    TablePage.init tableId id
  else
    fetchPage item.lastPageId
    TablePage.load tableId item.lastPageId

/-- `AllocateAndLinkNewPage`. -/
def allocateAndLinkNewPage (tp : TablePage) : Exec TablePage := do
  let id ← newPage
  let tp ← tp.setNextPageId id
  flush tp.pageId
  release tp.pageId
  let last ← TablePage.init tp.tableId id
  updateTableLastId tp.tableId id
  return last

def makeRoom (tp : TablePage) (tuple : Record) : Exec TablePage :=
  if tp.hasSpaceFor tuple.size then pure tp else allocateAndLinkNewPage tp

/-- `Open`, `Next` and `Close`; `row` is what `ExecutorValues` serializes. -/
def insert (txn : Option Nat) (tableId : Nat) (row : Except String (List UInt8)) : Exec Unit := do
  let s ← get
  match s.items tableId with
  | none => throw s!"ExecutorInsert::Open No meta page exists:{tableId}"
  | some item =>
      let tp ← openLastPage tableId item
      let payload ← Program.lift row
      let tuple := tupleOf ⟨txn.getD INVALID_TX_ID, .null, 0⟩ payload
      let tp ← makeRoom tp tuple
      match ← tp.insertTuple tuple with
      | (none, _) => throw "ExecutorInsert::Next tuple too large for an empty page"
      | (some rid, tp) =>
          let tp ← logAndSetLsn txn .insertRow tableId rid (some tuple) tp
          flush tp.pageId
          pushWrite txn { rid := rid, type := .insert, tableId := tableId }
          enter (.insert (txn.getD INVALID_TX_ID) tableId rid payload)
          release tp.pageId

end ExecutorInsert

/-! ## Rows to delete or update -/

/-- WHERE, as DELETE and UPDATE take it: null is not a match. -/
def matchesFilter (filter : Option Filter) (payload : List UInt8) : Except String Bool :=
  match filter with
  | none => .ok true
  | some filter => do
      let value ← filter payload
      if value.isNull then
        return false
      value.getBool

/-- What DELETE and the first phase of UPDATE ask about a record before they touch it:
    not deleted, visible, not filtered out, and no conflict. -/
def Database.isTarget (s : Database) (txn : Option Nat) (filter : Option Filter)
    (record : Record) : Except String Bool := do
  if record.isDel || !s.isVisibleTo txn record.trxId then
    return false
  if !(← matchesFilter filter record.payload) then
    return false
  if record.trxId ≠ INVALID_TX_ID ∧ record.trxId ≠ txn.getD INVALID_TX_ID ∧
      s.txnManager.getState record.trxId = some .inProgress then
    throw "WriteConflict: row modified by another in-progress transaction"
  return true

/-- The undo record of an old version; without an undo log there is none. -/
def saveVersion (old : Record) : Exec UndoPointer := do
  match (← get).undoLog with
  | none => return ⟨INVALID_PAGE_ID, 0⟩
  | some undoLog => appendUndoRecord undoLog ⟨old.rollPtr, old.trxId, old⟩

/-! ## DELETE -/

namespace ExecutorDelete

def deleteRecord (txn : Option Nat) (tp : TablePage) (rid : RID) (old : Record) :
    Exec TablePage := do
  let rollPtr ← saveVersion old
  tp.markDelete rid (txn.getD INVALID_TX_ID) rollPtr
  let tp ← logAndSetLsn txn .deleteRow tp.tableId rid none tp
  pushWrite txn
    { rid := rid
      type := .delete
      tableId := tp.tableId
      prevTrxId := old.trxId
      prevRollPtr := old.rollPtr
      prevFlags := old.flags }
  flush tp.pageId
  enter (.delete (txn.getD INVALID_TX_ID) rid)
  return tp

/-- One round of the loop; the accumulator is `deleted_count_`. -/
def round (txn : Option Nat) (filter : Option Filter) (it : TableIterator) (deleted : Nat) :
    Exec (TableIterator × Nat) := do
  match ← it.current with
  | none => return (← it.advance, deleted)
  | some record =>
      let s ← get
      if ← Program.lift (s.isTarget txn filter record) then
        let tp ← deleteRecord txn it.tablePage it.rid record
        return (← { it with tablePage := tp }.advance, deleted + 1)
      else
        return (← it.advance, deleted)

def delete (txn : Option Nat) (tableId : Nat) (filter : Option Filter) : Exec Nat := do
  let it ← TableIterator.create tableId
  it.whileNotEnd (round txn filter) (← get).slotCount 0

end ExecutorDelete

/-! ## UPDATE -/

namespace ExecutorUpdate

structure SetClause where
  columnId : Nat
  value : Value
  deriving Repr, DecidableEq

structure Hit where
  rid : RID
  old : Record
  newValues : List Value
  deriving Repr, DecidableEq

/-- The SET clauses over the old values; a column out of range is skipped. -/
def applySet (clauses : List SetClause) (values : List Value) : List Value :=
  clauses.foldl (fun values clause => values.set clause.columnId clause.value) values

/-- One round of phase one. -/
def round (txn : Option Nat) (schema : List ColumnTypes) (clauses : List SetClause)
    (filter : Option Filter) (it : TableIterator) (hits : List Hit) :
    Exec (TableIterator × List Hit) := do
  match ← it.current with
  | none => return (← it.advance, hits)
  | some record =>
      let s ← get
      if ← Program.lift (s.isTarget txn filter record) then
        let values ← Program.lift (Row.deserialize schema record.payload)
        let hit : Hit := ⟨it.rid, record, applySet clauses values⟩
        return (← it.advance, hits ++ [hit])
      else
        return (← it.advance, hits)

/-- The old version is marked deleted on its own page. -/
def deleteOld (txn : Option Nat) (tableId : Nat) (hit : Hit) (rollPtr : UndoPointer) :
    Exec Unit := do
  fetchPage hit.rid.pageId
  let tp ← TablePage.load tableId hit.rid.pageId
  tp.markDelete hit.rid (txn.getD INVALID_TX_ID) rollPtr
  let tp ← logAndSetLsn txn .deleteRow tableId hit.rid none tp
  flush tp.pageId
  release tp.pageId
  pushWrite txn
    { rid := hit.rid
      type := .updateDeleteOld
      tableId := tableId
      prevTrxId := hit.old.trxId
      prevRollPtr := hit.old.rollPtr
      prevFlags := hit.old.flags }
  enter (.delete (txn.getD INVALID_TX_ID) hit.rid)

/-- `InsertNewVersion`. The result of `InsertTuple` is not looked at: a version that
    does not fit leaves the address (0, 0). -/
def insertNewVersion (txn : Option Nat) (tableId : Nat) (tuple : Record) : Exec RID := do
  let s ← get
  let tp ← ExecutorInsert.openLastPage tableId
    ((s.items tableId).getD { tableId := tableId, tableName := "" })
  let tp ← ExecutorInsert.makeRoom tp tuple
  let (inserted, tp) ← tp.insertTuple tuple
  let rid := inserted.getD ⟨0, 0⟩
  let tp ← logAndSetLsn txn .insertRow tableId rid (some tuple) tp
  flush tp.pageId
  release tp.pageId
  return rid

/-- Phase two for one hit. -/
def updateHit (txn : Option Nat) (tableId : Nat) (schema : List ColumnTypes) (hit : Hit) :
    Exec Unit := do
  let rollPtr ← saveVersion hit.old
  let payload ← Program.lift (Row.serialize schema hit.newValues)
  deleteOld txn tableId hit rollPtr
  let rid ← insertNewVersion txn tableId (tupleOf ⟨txn.getD INVALID_TX_ID, rollPtr, 0⟩ payload)
  pushWrite txn { rid := rid, type := .updateInsertNew, tableId := tableId }
  enter (.replace (txn.getD INVALID_TX_ID) hit.rid rid payload)

def update (txn : Option Nat) (tableId : Nat) (schema : List ColumnTypes)
    (clauses : List SetClause) (filter : Option Filter) : Exec Nat := do
  let it ← TableIterator.create tableId
  let hits ← it.whileNotEnd (round txn schema clauses filter) (← get).slotCount []
  hits.forM (updateHit txn tableId schema)
  return hits.length

end ExecutorUpdate

/-! ## SELECT -/

namespace ExecutorSeqScan

/-- The version that a record's chain shows. -/
def walk (txn : Option Nat) : (fuel : Nat) → Record → Exec (Option Record)
  | 0, _ => throw "ExecutorSeqScan: cyclic version chain"
  | fuel + 1, version => do
      let s ← get
      if s.isVisibleTo txn version.trxId then
        return if version.isDel then none else some version
      if version.rollPtr.isNull ∨ s.undoLog.isNone then
        return none
      match ← getUndoRecord version.rollPtr with
      | none => return none
      | some older => walk txn fuel older

/-- No chain is longer than the undo records there are. -/
def versionCount : Exec Nat := do
  let s ← get
  return ((List.range s.nextPageId).map fun p => (s.page p).asUndo.records.length).sum + 1

/-- What `Next` makes of a physical record. -/
def visibleVersion (txn : Option Nat) (physical : Record) : Exec (Option Record) := do
  if physical.isDead then
    return none
  let s ← get
  if txn.all fun id => (s.txnManager.transaction id).readView.isNone then
    return if physical.isDel then none else some physical
  walk txn (← versionCount) physical

/-- One call of `Next`, seen from the accumulated result; the filter is `ExecutorFilter`,
    which does not ask whether its value is null. -/
def round (txn : Option Nat) (filter : Option Filter) (it : TableIterator) (rows : List Record) :
    Exec (TableIterator × List Record) := do
  match ← it.current with
  | none => return (← it.advance, rows)
  | some physical =>
      let it ← it.advance
      match ← visibleVersion txn physical with
      | none => return (it, rows)
      | some version =>
          match filter with
          | none => return (it, rows ++ [version])
          | some filter =>
              let value ← Program.lift (filter version.payload)
              if ← Program.lift value.getBool then
                return (it, rows ++ [version])
              else
                return (it, rows)

def select (txn : Option Nat) (tableId : Nat) (filter : Option Filter) : Exec (List Record) := do
  let it ← TableIterator.create tableId
  it.whileNotEnd (round txn filter) (← get).slotCount []

end ExecutorSeqScan

end YourSQL
