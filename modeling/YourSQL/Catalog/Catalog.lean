import YourSQL.Common.Types
import Mathlib.Logic.Function.Basic

/-! # Tables in memory and on the meta page

`CREATE TABLE` enters a table twice: the binder draws its id and puts it into the
catalog, the executor then writes it to the meta page. The two copies meet again
only when a process starts, and not on every way to start one.
-/

namespace YourSQL

inductive ColumnTypes where
  | invalid
  | integer
  | bool
  | double
  | varchar
  | varchar2
  | timestamp
  | nullType
  deriving Repr, DecidableEq

structure ColumnEntry where
  id : Nat
  name : String
  columnTypes : ColumnTypes
  deriving Repr, DecidableEq

/-- The constructor of `ColumnEntry`: it has a default value for these types only. -/
def ColumnEntry.create (id : Nat) (name : String) (type : ColumnTypes) :
    Except String ColumnEntry :=
  match type with
  | .bool | .timestamp | .integer | .varchar | .varchar2 => .ok ⟨id, name, type⟩
  | _ => .error "unknow column type."

structure TableEntry where
  id : Nat
  name : String
  columns : List ColumnEntry
  deriving Repr, DecidableEq

structure MetaColumnItem where
  columnId : Nat
  columnName : String
  type : ColumnTypes
  flags : UInt8
  deriving Repr, DecidableEq

/-- An entry of the meta page. `clamped` records that `UpdateTableRows` has stopped the
    counter at zero; no operation reads it. -/
structure MetaItem where
  tableId : Nat
  tableName : String
  firstPageId : Nat := INVALID_PAGE_ID
  lastPageId : Nat := INVALID_PAGE_ID
  numRows : Nat := 0
  columns : List MetaColumnItem := []
  clamped : Bool := false
  deriving Repr, DecidableEq

def ITEMS_OFFSET_BEGIN : Nat := 24

def ITEM_FIXED_SIZE : Nat := 40

/-- The bytes an entry takes on the meta page, its columns included. -/
def MetaItem.encodedSize (item : MetaItem) : Nat :=
  8 + item.tableName.utf8ByteSize + 8 + 8 + 8 + 8 + 8 + 8 +
    (item.columns.map fun column => 8 + column.columnName.utf8ByteSize + 1 + 1 + 8).sum

/-- The entries a `MetaPage` object knows, in the order of the page. The end of the
    last one is where the object appends. -/
structure MetaPage where
  items : List MetaItem := []
  deriving Repr, DecidableEq

namespace MetaPage

def lastPoint (page : MetaPage) : Nat :=
  ITEMS_OFFSET_BEGIN + (page.items.map MetaItem.encodedSize).sum

/-- `AddTable`. The space check counts neither the columns nor all fixed fields. -/
def addTable (page : MetaPage) (item : MetaItem) : Except String MetaPage :=
  if page.lastPoint + (ITEM_FIXED_SIZE + item.tableName.utf8ByteSize) ≥ PAGE_SIZE then
    .error "MetaPage::AddTable: Not enough space for last page"
  else
    .ok { page with items := page.items ++ [item] }

end MetaPage

/-- The in-memory catalog: two maps that `AddTable` updates together. -/
structure Catalog where
  tableNameIdx : String → Option Nat := fun _ => none
  tables : Nat → Option TableEntry := fun _ => none

namespace Catalog

def addTable (catalog : Catalog) (table : TableEntry) : Catalog where
  tableNameIdx := Function.update catalog.tableNameIdx table.name (some table.id)
  tables := Function.update catalog.tables table.id (some table)

def tableOfItem (item : MetaItem) : TableEntry where
  id := item.tableId
  name := item.tableName
  columns := item.columns.map fun column => ⟨column.columnId, column.columnName, column.type⟩

/-- `InitFromMetaPage`. -/
def initFromMetaPage (page : MetaPage) : Catalog :=
  page.items.foldl (fun catalog item => catalog.addTable (tableOfItem item)) {}

end Catalog

/-- The entry that `ExecutorCreateTable::Next` builds from the catalog's table. -/
def TableEntry.toMetaItem (table : TableEntry) : MetaItem where
  tableId := table.id
  tableName := table.name
  columns := table.columns.map fun column => ⟨column.id, column.name, column.columnTypes, 0⟩

end YourSQL
