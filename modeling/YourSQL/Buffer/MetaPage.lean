import Mathlib.Logic.Function.Basic
import YourSQL.Catalog.Catalog
import YourSQL.Lib.Bytes

/-! # The meta page, byte by byte

`MetaPage` keeps the entries of the tables twice: in maps, and in the bytes of page 0. A
table is appended as one record of variable length; later changes go to fields inside it,
whose place is computed from the length of the name.
-/

namespace YourSQL.Stored

/-- The type is the byte of a `ColumnTypes`. -/
structure MetaColumnItem where
  columnName : List UInt8
  type : UInt8
  flags : UInt8
  columnId : UInt64
  deriving Repr, DecidableEq

structure MetaItem where
  firstPageId : UInt64 := 0
  tableName : List UInt8
  numRows : UInt64 := 0
  tableId : UInt64
  lastPageId : UInt64 := 0
  offset : Nat := 0
  items : List MetaColumnItem := []
  deriving Repr, DecidableEq

/-- The object, the bytes of its page, and the size of the data file. -/
@[ext]
structure MetaPage where
  version : Nat := 0
  tableSize : Nat := 0
  lastPoint : Nat := ITEMS_OFFSET_BEGIN
  data : List UInt8
  fileSize : Nat
  nameTables : List UInt8 → Option UInt64 := fun _ => none
  idTables : UInt64 → Option UInt64 := fun _ => none
  items : UInt64 → Option MetaItem := fun _ => none

def META_INIT_VERSION : Nat := 0

def META_INIT_TABLE_SIZE : Nat := 0

def META_INIT_LAST_POINT : Nat := 24

namespace MetaPage

def readNat (m : MetaPage) (offset width : Nat) : Nat := Bytes.toNat (Bytes.field m.data offset width)

def memcpy (m : MetaPage) (offset : Nat) (bytes : List UInt8) : MetaPage :=
  { m with data := Bytes.write m.data offset bytes }

/-- `BufferManager::Flush` of the dirty page 0. -/
def flush (m : MetaPage) : MetaPage := { m with fileSize := max m.fileSize PAGE_SIZE }

/-- One round of the inner loop of `ReadMata`: a column, and the offset behind it. -/
def readColumn (m : MetaPage) (offset : Nat) : MetaColumnItem × Nat :=
  let nameSize := m.readNat offset 8
  let offset := offset + 8
  let name := Bytes.field m.data offset nameSize
  let offset := offset + nameSize
  let type := m.readNat offset 1
  let offset := offset + 1
  let flags := m.readNat offset 1
  let offset := offset + 1
  let columnId := m.readNat offset 8
  let offset := offset + 8
  (⟨name, UInt8.ofNat type, UInt8.ofNat flags, UInt64.ofNat columnId⟩, offset)

def readColumns (m : MetaPage) : (columnSize offset : Nat) → List MetaColumnItem × Nat
  | 0, offset => ([], offset)
  | columnSize + 1, offset =>
      let (column, offset) := m.readColumn offset
      let (columns, offset) := m.readColumns columnSize offset
      (column :: columns, offset)

/-- One round of the outer loop. The stored offset is passed over. -/
def readItem (m : MetaPage) (offset : Nat) : MetaItem × Nat :=
  let curOffset := offset
  let len := m.readNat offset 8
  let offset := offset + 8
  let tableName := Bytes.field m.data offset len
  let offset := offset + len
  let firstId := m.readNat offset 8
  let offset := offset + 8
  let rows := m.readNat offset 8
  let offset := offset + 8
  let tableId := m.readNat offset 8
  let offset := offset + 8
  let lastPageId := m.readNat offset 8
  let offset := offset + 8
  let offset := offset + 8
  let columnSize := m.readNat offset 8
  let offset := offset + 8
  let (columns, offset) := m.readColumns columnSize offset
  ({ firstPageId := UInt64.ofNat firstId
     tableName := tableName
     numRows := UInt64.ofNat rows
     tableId := UInt64.ofNat tableId
     lastPageId := UInt64.ofNat lastPageId
     offset := curOffset
     items := columns }, offset)

def readItems (m : MetaPage) : (tableSize offset : Nat) → List MetaItem × Nat
  | 0, offset => ([], offset)
  | tableSize + 1, offset =>
      let (item, offset) := m.readItem offset
      let (items, offset) := m.readItems tableSize offset
      (item :: items, offset)

/-- The entry goes into the three maps. -/
def enterItem (m : MetaPage) (item : MetaItem) : MetaPage :=
  { m with
    nameTables := Function.update m.nameTables item.tableName (some item.firstPageId)
    idTables := Function.update m.idTables item.tableId (some item.firstPageId)
    items := Function.update m.items item.tableId (some item) }

def readMata (m : MetaPage) : MetaPage :=
  let m := { m with
    version := m.readNat 0 8
    tableSize := m.readNat 8 8
    lastPoint := m.readNat 16 8 }
  if m.tableSize = 0 then
    m
  else
    let (items, offset) := m.readItems m.tableSize 24
    { items.foldl enterItem m with lastPoint := offset }

def init (m : MetaPage) : MetaPage :=
  if m.fileSize > 0 ∧ m.readNat 8 8 > 0 then
    m.readMata
  else
    let m := { m with
      version := META_INIT_VERSION
      tableSize := META_INIT_TABLE_SIZE
      lastPoint := META_INIT_LAST_POINT }
    let m := m.memcpy 0 (Bytes.ofNat 8 m.version)
    let m := m.memcpy 8 (Bytes.ofNat 8 m.tableSize)
    let m := m.memcpy 16 (Bytes.ofNat 8 m.lastPoint)
    m.flush

def writeLastPoint (m : MetaPage) : MetaPage := (m.memcpy 16 (Bytes.ofNat 8 m.lastPoint)).flush

def updateTableSize (m : MetaPage) (changeSize : Nat) : MetaPage :=
  let m := { m with tableSize := m.tableSize + changeSize }
  (m.memcpy 8 (Bytes.ofNat 8 m.tableSize)).flush

def getNameLen (m : MetaPage) (item : MetaItem) : Nat := m.readNat item.offset 8

/-- One `memcpy` to the end of the entries, which moves behind it. -/
def append (m : MetaPage) (bytes : List UInt8) : MetaPage :=
  { m.memcpy m.lastPoint bytes with lastPoint := m.lastPoint + bytes.length }

def appendColumn (m : MetaPage) (column : MetaColumnItem) : MetaPage :=
  let m := m.append (Bytes.ofNat 8 column.columnName.length)
  let m := m.append column.columnName
  let m := m.append [column.type]
  let m := m.append [column.flags]
  m.append (Bytes.ofNat 8 column.columnId.toNat)

/-- The space check knows nothing of the columns, the stored offset and their number. -/
def addTable (m : MetaPage) (item : MetaItem) : Except String MetaPage :=
  let itemOffset := if m.lastPoint = 0 then ITEMS_OFFSET_BEGIN else m.lastPoint
  let item := { item with offset := itemOffset }
  let needSize := ITEM_FIXED_SIZE + item.tableName.length
  if m.lastPoint + needSize ≥ PAGE_SIZE then
    .error "MetaPage::AddTable: Not enough space for last page"
  else
    let m := m.append (Bytes.ofNat 8 item.tableName.length)
    let m := m.append item.tableName
    let m := m.append (Bytes.ofNat 8 item.firstPageId.toNat)
    let m := m.append (Bytes.ofNat 8 item.numRows.toNat)
    let m := m.append (Bytes.ofNat 8 item.tableId.toNat)
    let m := m.append (Bytes.ofNat 8 item.lastPageId.toNat)
    let m := m.append (Bytes.ofNat 8 item.offset)
    let m := m.append (Bytes.ofNat 8 item.items.length)
    let m := item.items.foldl appendColumn m
    let m := m.enterItem item
    .ok (m.writeLastPoint.updateTableSize 1)

def changeRows (numRows : UInt64) (changeSize : Int64) : UInt64 :=
  if changeSize < 0 ∧ (-changeSize).toUInt64 > numRows then
    0
  else
    (numRows.toInt64 + changeSize).toUInt64

def updateTableRows (m : MetaPage) (tableId : UInt64) (changeSize : Int64) :
    Except String MetaPage :=
  match m.items tableId with
  | none => .error "MetaPage::UpdateTableRows don`t find target table_id"
  | some item =>
      let item := { item with numRows := changeRows item.numRows changeSize }
      let m := { m with items := Function.update m.items tableId (some item) }
      let offset := item.offset + 8 + m.getNameLen item + 8
      .ok (m.memcpy offset (Bytes.ofNat 8 item.numRows.toNat)).flush

def updateTableFirstId (m : MetaPage) (tableId firstPageId : UInt64) : Except String MetaPage :=
  match m.items tableId with
  | none => .error "MetaPage::UpdateTableLastId don`t find target table_id"
  | some item =>
      let item := { item with firstPageId := firstPageId }
      let m := { m with
        items := Function.update m.items tableId (some item)
        nameTables := Function.update m.nameTables item.tableName (some firstPageId)
        idTables := Function.update m.idTables tableId (some firstPageId) }
      let offset := item.offset + 8 + m.getNameLen item
      .ok (m.memcpy offset (Bytes.ofNat 8 item.firstPageId.toNat)).flush

def updateTableLastId (m : MetaPage) (tableId lastPageId : UInt64) : Except String MetaPage :=
  match m.items tableId with
  | none => .error "MetaPage::UpdateTableLastId don`t find target table_id"
  | some item =>
      let item := { item with lastPageId := lastPageId }
      let m := { m with items := Function.update m.items tableId (some item) }
      let offset := item.offset + 8 + m.getNameLen item + 8 + 8 + 8
      .ok (m.memcpy offset (Bytes.ofNat 8 item.lastPageId.toNat)).flush

end MetaPage

/-! ## The bytes of an entry -/

namespace MetaColumnItem

def encode (column : MetaColumnItem) : List UInt8 :=
  Bytes.ofNat 8 column.columnName.length ++ (column.columnName ++ ([column.type] ++
    ([column.flags] ++ Bytes.ofNat 8 column.columnId.toNat)))

end MetaColumnItem

namespace MetaItem

/-- What stands in front of the page id. -/
def encodeName (item : MetaItem) : List UInt8 :=
  Bytes.ofNat 8 item.tableName.length ++ item.tableName

/-- What stands behind the last page id. -/
def encodeTail (item : MetaItem) : List UInt8 :=
  Bytes.ofNat 8 item.offset ++ (Bytes.ofNat 8 item.items.length ++
    item.items.flatMap MetaColumnItem.encode)

def encode (item : MetaItem) : List UInt8 :=
  item.encodeName ++ (Bytes.ofNat 8 item.firstPageId.toNat ++
    (Bytes.ofNat 8 item.numRows.toNat ++ (Bytes.ofNat 8 item.tableId.toNat ++
      (Bytes.ofNat 8 item.lastPageId.toNat ++ item.encodeTail))))

end MetaItem

end YourSQL.Stored
