import YourSQL.Lib.Bytes
import YourSQL.Storage.TablePage

/-! # Table pages as bytes

The records stand behind the header, one behind the other, and their slots stand at the
end of the page, the first one last. The 30 bytes of the header are packed into the 32
that are kept free for it.
-/

namespace YourSQL

open Bytes

def RecordHeader.encode (header : RecordHeader) : List UInt8 :=
  ofNat 8 header.trxId ++ ofNat 8 header.rollPtr.pageId ++ ofNat 4 header.rollPtr.slot ++
    ofNat 2 header.flags.toNat

def Record.encode (record : Record) : List UInt8 := record.toRecordHeader.encode ++ record.payload

/-- A tuple taken for a record. -/
def Record.decode (tuple : List UInt8) : Record where
  trxId := toNat (field tuple 0 8)
  rollPtr := ⟨toNat (field tuple 8 8), toNat (field tuple 16 4)⟩
  flags := BitVec.ofNat 16 (toNat (field tuple 20 2))
  payload := tuple.drop REC_HEADER_SIZE

/-- A `TablePage` object and the page it works on. -/
structure TablePageBytes where
  header : TableHeader
  freeSize : Nat
  data : List UInt8
  /-- What `UpdateTableRows` was called with. -/
  rowChanges : List Int := []
  deriving Repr, DecidableEq

namespace TablePageBytes

def NUM_ROWS_OFFSET : Nat := 2

def REC_ROLLPTR_OFFSET : Nat := 8

def REC_FLAGS_OFFSET : Nat := 20

def memcpy (page : TablePageBytes) (offset : Nat) (bytes : List UInt8) : TablePageBytes :=
  { page with data := write page.data offset bytes }

def readNat (page : TablePageBytes) (offset width : Nat) : Nat :=
  toNat (field page.data offset width)

def updateTableRows (page : TablePageBytes) (change : Int) : TablePageBytes :=
  { page with rowChanges := page.rowChanges ++ [change] }

/-- A difference of 32 bits. -/
def subtract (n k : Nat) : Nat := (n + 2 ^ 32 - k % 2 ^ 32) % 2 ^ 32

def writeHeader (page : TablePageBytes) : TablePageBytes :=
  ((((page.memcpy 0 (ofNat 2 page.header.version)).memcpy 2
    (ofNat 4 page.header.numRows)).memcpy 6
    (ofNat 8 page.header.pageId)).memcpy 14
    (ofNat 8 page.header.nextPageId)).memcpy 22
    (ofNat 8 page.header.lsn)

/-- `SlotOffset`. -/
def slotOffset (rowId : Nat) : Nat := PAGE_SIZE - rowId * SLOT_SIZE

/-- The constructor with `read`. -/
def load (data : List UInt8) : TablePageBytes :=
  let numRows := toNat (field data NUM_ROWS_OFFSET 4)
  let tupleSizes := (List.range numRows).map fun index =>
    toNat (field data (slotOffset (index + 1) + 2) 2)
  { header :=
      { version := toNat (field data 0 2)
        numRows := numRows
        pageId := toNat (field data 6 8)
        nextPageId := toNat (field data 14 8)
        lsn := toNat (field data 22 8) }
    freeSize := subtract (PAGE_SIZE - HEADER_SIZE) (SLOT_SIZE * numRows + tupleSizes.sum)
    data := data }

/-- The constructor without `read`. -/
def init (pageId : Nat) (data : List UInt8) : TablePageBytes :=
  writeHeader
    { header := { pageId := pageId }
      freeSize := PAGE_SIZE - HEADER_SIZE
      data := data }

def setNextPageId (page : TablePageBytes) (nextPageId : Nat) : TablePageBytes :=
  { page with header := { page.header with nextPageId := nextPageId } }.writeHeader

def setLsn (page : TablePageBytes) (lsn : Nat) : TablePageBytes :=
  { page with header := { page.header with lsn := lsn } }.writeHeader

def hasSpaceFor (page : TablePageBytes) (tupleSize : Nat) : Bool :=
  tupleSize + SLOT_SIZE ≤ page.freeSize

/-- `GetTuple`: the size of the tuple and its bytes. -/
def getTuple (page : TablePageBytes) (rowId : Nat) : Nat × List UInt8 :=
  let offset := slotOffset rowId
  let size := page.readNat (offset + 2) 2
  (size, field page.data (page.readNat offset 2) size)

/-- `InsertTuple`. The first tuple goes behind the header, the others behind the one of
    the last slot. -/
def insertTuple (page : TablePageBytes) (tuple : List UInt8) : Option RID × TablePageBytes :=
  if tuple.length + SLOT_SIZE > page.freeSize then
    (none, page)
  else
    let curSlotPoint := PAGE_SIZE - SLOT_SIZE * page.header.numRows
    let newSlotOffset := curSlotPoint - SLOT_SIZE
    let tupleOffset :=
      if page.header.numRows = 0 then
        HEADER_SIZE
      else
        (page.readNat curSlotPoint 2 + page.readNat (curSlotPoint + 2) 2) % 2 ^ 16
    let page := page.memcpy newSlotOffset (ofNat 2 tupleOffset)
    let page := page.memcpy (newSlotOffset + 2) (ofNat 2 tuple.length)
    let page := page.memcpy tupleOffset tuple
    let page := { page with
      freeSize := subtract page.freeSize (SLOT_SIZE + tuple.length)
      header := { page.header with numRows := page.header.numRows + 1 } }
    (some ⟨page.header.pageId, page.header.numRows⟩, page.writeHeader.updateTableRows 1)

/-- The offset of a record, from its slot. -/
def recordOffset (page : TablePageBytes) (rowId : Nat) : Nat := page.readNat (slotOffset rowId) 2

/-- `ReadRecordFlags`. -/
def readRecordFlags (page : TablePageBytes) (rowId : Nat) : Flags :=
  BitVec.ofNat 16 (page.readNat (page.recordOffset rowId + REC_FLAGS_OFFSET) 2)

/-- `ReadRecordRollPtr`. -/
def readRecordRollPtr (page : TablePageBytes) (rowId : Nat) : UndoPointer :=
  let offset := page.recordOffset rowId + REC_ROLLPTR_OFFSET
  ⟨page.readNat offset 8, page.readNat (offset + 8) 4⟩

/-- The four fields of a record header, as `MarkDelete` and `RestoreRecord` write them. -/
def writeRecordHeader (page : TablePageBytes) (offset : Nat) (header : RecordHeader) :
    TablePageBytes :=
  (((page.memcpy offset (ofNat 8 header.trxId)).memcpy (offset + REC_ROLLPTR_OFFSET)
    (ofNat 8 header.rollPtr.pageId)).memcpy (offset + REC_ROLLPTR_OFFSET + 8)
    (ofNat 4 header.rollPtr.slot)).memcpy (offset + REC_FLAGS_OFFSET)
    (ofNat 2 header.flags.toNat)

def markDelete (page : TablePageBytes) (rowId trxId : Nat) (rollPtr : UndoPointer) :
    TablePageBytes :=
  let flags := page.readRecordFlags rowId
  if flags.isDel then
    page
  else
    (page.writeRecordHeader (page.recordOffset rowId)
      { trxId := trxId, rollPtr := rollPtr, flags := flags ||| RECORD_DEL }).updateTableRows (-1)

def restoreRecord (page : TablePageBytes) (rowId : Nat) (header : RecordHeader) : TablePageBytes :=
  let oldFlags := page.readRecordFlags rowId
  let page := page.writeRecordHeader (page.recordOffset rowId) header
  if oldFlags.isDel && !header.flags.isDel then page.updateTableRows 1 else page

def markDead (page : TablePageBytes) (rowId : Nat) : TablePageBytes :=
  let flags := page.readRecordFlags rowId
  let wasLive := !flags.isDel && !flags.isDead
  let page := page.memcpy (page.recordOffset rowId + REC_FLAGS_OFFSET)
    (ofNat 2 (flags ||| RECORD_DEAD).toNat)
  if wasLive then page.updateTableRows (-1) else page

end TablePageBytes

end YourSQL
