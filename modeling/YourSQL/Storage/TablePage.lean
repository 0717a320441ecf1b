import YourSQL.Buffer.Database
import YourSQL.Storage.RecordStore

/-! # Table pages

A `TablePage` object works on a page of the pool and keeps a copy of the page header
of its own. Each write of the header copies all of it to the page.
-/

namespace YourSQL

def HEADER_SIZE : Nat := 32

def SLOT_SIZE : Nat := 4

/-- Slots are numbered from 1. -/
def TableImage.slot (image : TableImage) (rowId : Nat) : Option Record :=
  match rowId with
  | 0 => none
  | index + 1 => image.records[index]?

structure TablePage where
  tableId : Nat
  pageId : Nat
  header : TableHeader
  freeSize : Nat
  deriving Repr, DecidableEq

namespace TablePage

/-- The space that a page's records leave. -/
def freeSpace (records : List Record) : Nat :=
  PAGE_SIZE - HEADER_SIZE - (records.map fun record => SLOT_SIZE + record.size).sum

/-- The constructor with `read`: the header is copied from the page. -/
def load (tableId pageId : Nat) : Exec TablePage := do
  let s ← get
  let image := (s.page pageId).asTable
  return {
    tableId := tableId
    pageId := pageId
    header := image.header
    freeSize := freeSpace (image.records.take image.header.numRows) }

/-- `WriteHeader`. -/
def writeHeader (tp : TablePage) : Exec Unit :=
  modify fun s =>
    s.setPage tp.pageId (.table { (s.page tp.pageId).asTable with header := tp.header })

/-- The constructor without `read`: a new header on a new page. -/
def init (tableId pageId : Nat) : Exec TablePage := do
  let tp : TablePage := {
    tableId := tableId
    pageId := pageId
    header := { pageId := pageId }
    freeSize := PAGE_SIZE - HEADER_SIZE }
  tp.writeHeader
  return tp

def setNextPageId (tp : TablePage) (nextPageId : Nat) : Exec TablePage := do
  let tp := { tp with header := { tp.header with nextPageId := nextPageId } }
  tp.writeHeader
  return tp

def setLsn (tp : TablePage) (lsn : Nat) : Exec TablePage := do
  let tp := { tp with header := { tp.header with lsn := lsn } }
  tp.writeHeader
  return tp

def hasSpaceFor (tp : TablePage) (tupleSize : Nat) : Bool := tupleSize + SLOT_SIZE ≤ tp.freeSize

def putRecord (image : TableImage) (rowId : Nat) (record : Record) : TableImage :=
  { image with records := image.records.set (rowId - 1) record }

def getTuple (tp : TablePage) (rid : RID) : Exec (Option Record) := do
  let s ← get
  return (s.page tp.pageId).asTable.slot rid.rowId

/-- The new slot stands behind the rows that the object's header counts. -/
def insertTuple (tp : TablePage) (record : Record) : Exec (Option RID × TablePage) := do
  if record.size + SLOT_SIZE > tp.freeSize then
    return (none, tp)
  let numRows := tp.header.numRows + 1
  modify fun s =>
    let image := (s.page tp.pageId).asTable
    s.setPage tp.pageId (.table
      { image with records := image.records.take tp.header.numRows ++ [record] })
  let tp := { tp with
    freeSize := tp.freeSize - (SLOT_SIZE + record.size)
    header := { tp.header with numRows := numRows } }
  tp.writeHeader
  updateTableRows tp.tableId 1
  return (some ⟨tp.header.pageId, numRows⟩, tp)

/-- A slot that is not there stands for bytes outside the records; nothing is modelled
    of what the code does to those. -/
def markDelete (tp : TablePage) (rid : RID) (trxId : Nat) (rollPtr : UndoPointer) : Exec Unit := do
  let s ← get
  let image := (s.page tp.pageId).asTable
  match image.slot rid.rowId with
  | none => return
  | some record =>
      if record.isDel then
        return
      modify fun s => s.setPage tp.pageId (.table
        (putRecord image rid.rowId (record.deleted trxId rollPtr)))
      updateTableRows tp.tableId (-1)

def restoreRecord (tp : TablePage) (rid : RID) (header : RecordHeader) : Exec Unit := do
  let s ← get
  let image := (s.page tp.pageId).asTable
  match image.slot rid.rowId with
  | none => return
  | some record =>
      modify fun s => s.setPage tp.pageId (.table
        (putRecord image rid.rowId (record.restored header)))
      if record.isDel && !header.flags.isDel then
        updateTableRows tp.tableId 1

def markDead (tp : TablePage) (rid : RID) : Exec Unit := do
  let s ← get
  let image := (s.page tp.pageId).asTable
  match image.slot rid.rowId with
  | none => return
  | some record =>
      modify fun s => s.setPage tp.pageId (.table
        (putRecord image rid.rowId record.killed))
      if record.isLive then
        updateTableRows tp.tableId (-1)

end TablePage

end YourSQL
