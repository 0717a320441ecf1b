import YourSQL.Buffer.MetaRoundTrip

/-! # The catalog that a meta page brings back

`Catalog(MetaPage)` initialises the meta page and builds a table entry from each item, in
the order in which the map of items is walked. What comes out are the tables that the
binder had built when they were created.
-/

namespace YourSQL.Stored

/-- A byte that is none of the enumerators names no type. -/
def columnTypeOf (type : UInt8) : Option ColumnTypes :=
  match type.toNat with
  | 0 => some .invalid
  | 1 => some .integer
  | 2 => some .bool
  | 3 => some .double
  | 4 => some .varchar
  | 5 => some .varchar2
  | 6 => some .timestamp
  | 7 => some .nullType
  | _ => none

structure ColumnEntry where
  id : UInt64
  name : List UInt8
  columnTypes : ColumnTypes
  deriving Repr, DecidableEq

/-- The constructor: it has a default value for these types only. -/
def ColumnEntry.create (id : UInt64) (name : List UInt8) (type : UInt8) :
    Except String ColumnEntry :=
  match columnTypeOf type with
  | some .bool => .ok ⟨id, name, .bool⟩
  | some .timestamp => .ok ⟨id, name, .timestamp⟩
  | some .integer => .ok ⟨id, name, .integer⟩
  | some .varchar => .ok ⟨id, name, .varchar⟩
  | some .varchar2 => .ok ⟨id, name, .varchar2⟩
  | _ => .error "unknow column type."

/-- `std::map::emplace`: the columns are sorted by id, and one that is there stays. -/
def emplace : List ColumnEntry → ColumnEntry → List ColumnEntry
  | [], column => [column]
  | first :: columns, column =>
      if column.id < first.id then
        column :: first :: columns
      else if first.id < column.id then
        first :: emplace columns column
      else
        first :: columns

structure TableEntry where
  id : UInt64
  name : List UInt8
  columnNameIdx : List UInt8 → Option UInt64 := fun _ => none
  columns : List ColumnEntry := []

namespace TableEntry

def addColumn (table : TableEntry) (column : ColumnEntry) : TableEntry :=
  { table with
    columnNameIdx := Function.update table.columnNameIdx column.name (some column.id)
    columns := emplace table.columns column }

def getSchema (table : TableEntry) : List ColumnEntry := table.columns

def getColumnIds (table : TableEntry) : List UInt64 := table.columns.map ColumnEntry.id

def getNextColumnId (table : TableEntry) : UInt64 := UInt64.ofNat table.columns.length

end TableEntry

/-- The table that `Binder::BoundCreateTableStatement` builds. -/
def boundTable (id : UInt64) (name : List UInt8) (columns : List (List UInt8 × UInt8)) :
    Except String TableEntry :=
  columns.foldlM (fun table column => do
    let entry ← ColumnEntry.create table.getNextColumnId column.1 column.2
    return table.addColumn entry) { id := id, name := name }

structure Catalog where
  tableNameIdx : List UInt8 → Option UInt64 := fun _ => none
  tables : UInt64 → Option TableEntry := fun _ => none

namespace Catalog

/-- The loop over the columns of an item. -/
def tableOfItem (table : MetaItem) : Except String TableEntry :=
  table.items.foldlM (fun entry item => do
    let column ← ColumnEntry.create item.columnId item.columnName item.type
    return entry.addColumn column) { id := table.tableId, name := table.tableName }

/-- `InitFromMetaPage`, given the order in which the items are walked. -/
def initFromMetaPage (items : List MetaItem) : Except String Catalog :=
  items.foldlM (fun catalog table => do
    let catalog := { catalog with
      tableNameIdx := Function.update catalog.tableNameIdx table.tableName (some table.tableId) }
    let entry ← tableOfItem table
    return { catalog with
      tables := Function.update catalog.tables table.tableId (some entry) }) {}

end Catalog

/-! ## Tables come back as they were built -/

/-- The types that `ColumnEntry` accepts. -/
def Accepted (type : UInt8) : Prop := (ColumnEntry.create 0 [] type).isOk

/-- The columns have the ids that the binder gives them. -/
def Numbered (columns : List MetaColumnItem) : Prop :=
  columns.map MetaColumnItem.columnId = (List.range columns.length).map UInt64.ofNat

theorem create_of_accepted {type : UInt8} (accepted : Accepted type) :
    ∃ columnTypes, columnTypeOf type = some columnTypes ∧
      ∀ id name, ColumnEntry.create id name type = .ok ⟨id, name, columnTypes⟩ := by
  unfold Accepted at accepted
  unfold ColumnEntry.create at accepted ⊢
  split at accepted
  all_goals first
    | exact ⟨_, by assumption, fun _ _ => rfl⟩
    | cases accepted

/-- A column with the greatest id goes to the end. -/
theorem emplace_last {columns : List ColumnEntry} {column : ColumnEntry}
    (greatest : ∀ other ∈ columns, other.id < column.id) :
    emplace columns column = columns ++ [column] := by
  induction columns with
  | nil => rfl
  | cons first columns ih =>
      have less := greatest first (List.mem_cons_self ..)
      have others := ih fun other member => greatest other (List.mem_cons_of_mem _ member)
      rw [emplace, if_neg (UInt64.lt_asymm less), if_pos less, others, List.cons_append]

/-- What a schema shows of a column. -/
def ColumnEntry.shown (column : ColumnEntry) : UInt64 × List UInt8 × Option ColumnTypes :=
  (column.id, column.name, some column.columnTypes)

def MetaColumnItem.shown (column : MetaColumnItem) : UInt64 × List UInt8 × Option ColumnTypes :=
  (column.columnId, column.columnName, columnTypeOf column.type)

theorem getColumnIds_of_shown {table : TableEntry} {columns : List MetaColumnItem}
    (schema : table.getSchema.map ColumnEntry.shown = columns.map MetaColumnItem.shown) :
    table.getColumnIds = columns.map MetaColumnItem.columnId := by
  have ids := congrArg (List.map fun shown => shown.1) schema
  rw [List.map_map, List.map_map] at ids
  exact ids

theorem Numbered.of_concat {columns : List MetaColumnItem} {column : MetaColumnItem}
    (numbered : Numbered (columns ++ [column])) :
    Numbered columns ∧ column.columnId = UInt64.ofNat columns.length := by
  unfold Numbered at numbered ⊢
  rw [List.length_append, List.length_singleton, List.range_succ, List.map_append,
    List.map_append] at numbered
  have same := List.append_inj numbered (by simp)
  exact ⟨same.1, List.singleton_inj.mp same.2⟩

/-- The loop of the catalog and the loop of the binder build the same table. -/
theorem tableOfItem_eq {table : MetaItem} (columns : List MetaColumnItem)
    (few : columns.length < 2 ^ 64) (numbered : Numbered columns)
    (accepted : ∀ column ∈ columns, Accepted column.type) :
    ∃ entry, Catalog.tableOfItem { table with items := columns } = .ok entry ∧
      boundTable table.tableId table.tableName
        (columns.map fun column => (column.columnName, column.type)) = .ok entry ∧
      entry.id = table.tableId ∧ entry.name = table.tableName ∧
      entry.getSchema.map ColumnEntry.shown = columns.map MetaColumnItem.shown := by
  induction columns using List.reverseRecOn with
  | nil => exact ⟨_, rfl, rfl, rfl, rfl, rfl⟩
  | append_singleton columns last ih =>
      rw [List.length_append, List.length_singleton] at few
      obtain ⟨numbered, lastId⟩ := numbered.of_concat
      obtain ⟨entry, rebuilt, bound, id, name, schema⟩ := ih (by omega) numbered
        fun column member => accepted column (List.mem_append_left _ member)
      obtain ⟨columnTypes, named, created⟩ := create_of_accepted (accepted last (by simp))
      have ids := getColumnIds_of_shown schema
      have count : entry.columns.length = columns.length := by
        have := congrArg List.length schema
        rwa [List.length_map, List.length_map] at this
      have next : entry.getNextColumnId = last.columnId := by
        rw [TableEntry.getNextColumnId, count, lastId]
      let column : ColumnEntry := ⟨last.columnId, last.columnName, columnTypes⟩
      have greatest : ∀ other ∈ entry.columns, other.id < column.id := by
        intro other member
        have listed : other.id ∈ entry.getColumnIds := List.mem_map_of_mem member
        rw [ids, numbered] at listed
        obtain ⟨index, inside, isId⟩ := List.mem_map.mp listed
        have bound := List.mem_range.mp inside
        have columnId : column.id = UInt64.ofNat columns.length := lastId
        rw [UInt64.lt_iff_toNat_lt, ← isId, columnId, UInt64.toNat_ofNat',
          UInt64.toNat_ofNat', Nat.mod_eq_of_lt (by omega), Nat.mod_eq_of_lt (by omega)]
        exact bound
      refine ⟨entry.addColumn column, ?_, ?_, id, name, ?_⟩
      · unfold Catalog.tableOfItem at rebuilt ⊢
        dsimp only at rebuilt ⊢
        rw [List.foldlM_append, rebuilt]
        simp only [List.foldlM_cons, List.foldlM_nil, created]
        rfl
      · unfold boundTable at bound ⊢
        rw [List.map_append, List.foldlM_append, bound]
        simp only [List.map_cons, List.map_nil, List.foldlM_cons, List.foldlM_nil, bind, Except.bind,
          next, created]
        rfl
      · have columns : (entry.addColumn column).getSchema = entry.getSchema ++ [column] :=
          emplace_last greatest
        rw [columns, List.map_append, List.map_append, schema]
        simp [ColumnEntry.shown, MetaColumnItem.shown, column, named]

theorem initFromMetaPage_eq {items : List MetaItem} (names : (items.map MetaItem.tableName).Nodup)
    (ids : (items.map MetaItem.tableId).Nodup)
    (rebuilt : ∀ item ∈ items, ∃ entry, Catalog.tableOfItem item = .ok entry) :
    ∃ catalog, Catalog.initFromMetaPage items = .ok catalog ∧ ∀ item ∈ items,
      catalog.tableNameIdx item.tableName = some item.tableId ∧
      ∃ entry, Catalog.tableOfItem item = .ok entry ∧
        catalog.tables item.tableId = some entry := by
  induction items using List.reverseRecOn with
  | nil => exact ⟨{}, rfl, by simp⟩
  | append_singleton items last ih =>
      rw [List.map_append, List.map_singleton] at names ids
      obtain ⟨catalog, loaded, known⟩ := ih names.of_append_left ids.of_append_left
        fun item member => rebuilt item (List.mem_append_left _ member)
      obtain ⟨entry, built⟩ := rebuilt last (by simp)
      refine ⟨{
        tableNameIdx := Function.update catalog.tableNameIdx last.tableName (some last.tableId)
        tables := Function.update catalog.tables last.tableId (some entry) }, ?_, ?_⟩
      · unfold Catalog.initFromMetaPage at loaded ⊢
        rw [List.foldlM_append, loaded]
        simp only [List.foldlM_cons, List.foldlM_nil, bind, Except.bind, built]
        rfl
      · intro item member
        cases List.mem_append.mp member with
        | inl earlier =>
            have otherName : item.tableName ≠ last.tableName := fun same =>
              (List.nodup_append.mp names).2.2 _ (List.mem_map_of_mem earlier) _
                (List.mem_singleton_self _) same
            have otherId : item.tableId ≠ last.tableId := fun same =>
              (List.nodup_append.mp ids).2.2 _ (List.mem_map_of_mem earlier) _
                (List.mem_singleton_self _) same
            simp only [Function.update_of_ne otherName, Function.update_of_ne otherId]
            exact known item earlier
        | inr same =>
            rw [List.mem_singleton.mp same]
            simp only [Function.update_self]
            exact ⟨trivial, entry, built, rfl⟩

/-! ## The round trip -/

/-- Columns as the binder makes them, of types that it takes. -/
structure Admitted (calls : List Call) : Prop extends Proper calls where
  numbered : ∀ item ∈ added calls, Numbered item.items
  accepted : ∀ item ∈ added calls, ∀ column ∈ item.items, Accepted column.type

/-- A walk through the map of items meets each of them once. -/
structure Iterates (map : UInt64 → Option MetaItem) (items : List MetaItem) : Prop where
  once : (items.map MetaItem.tableId).Nodup
  all : ∀ item, item ∈ items ↔ map item.tableId = some item

/-- The entry stands behind all others, and these are as they were. -/
structure Appended (m m' : MetaPage) (item : MetaItem) : Prop where
  known : m'.items item.tableId = some { item with offset := m.lastPoint }
  lastPoint : m'.lastPoint = m.lastPoint + item.encode.length
  tableSize : m'.tableSize = m.tableSize + 1
  written : Bytes.field m'.data m.lastPoint item.encode.length =
    MetaItem.encode { item with offset := m.lastPoint }
  kept : Bytes.field m'.data ITEMS_OFFSET_BEGIN (m.lastPoint - ITEMS_OFFSET_BEGIN) =
    Bytes.field m.data ITEMS_OFFSET_BEGIN (m.lastPoint - ITEMS_OFFSET_BEGIN)

theorem Written.appended {m : MetaPage} {entries : List MetaItem} (written : Written m entries)
    {item : MetaItem} (fits : m.lastPoint + item.encode.length ≤ PAGE_SIZE) :
    ∃ m', m.addTable item = .ok m' ∧ Appended m m' item := by
  let stored := { item with offset := m.lastPoint }
  have size : stored.encode.length = item.encode.length := length_encode_of_fixed rfl
  have room : m.lastPoint + stored.encode.length ≤ PAGE_SIZE := by rwa [size]
  obtain ⟨m', called, written', lastPoint, -, -, items⟩ :=
    @Written.addTable _ _ written stored rfl room
  have behind : m.lastPoint - ITEMS_OFFSET_BEGIN = (encodeAll entries).length := by
    rw [written.lastPoint, Nat.add_sub_cancel_left]
  obtain ⟨tail, bytes⟩ := written.bytes
  obtain ⟨tail', bytes'⟩ := written'.bytes
  rw [encodeAll_concat, List.append_assoc] at bytes'
  refine ⟨m', called, ?_⟩
  exact
  { known := by rw [items]; exact Function.update_self ..
    lastPoint := by rw [lastPoint, size]
    tableSize := by
      rw [written'.tableSize, List.length_append, List.length_singleton, written.tableSize]
    written := by
      have field := Bytes.field_between
        (header m'.version m'.tableSize m'.lastPoint ++ encodeAll entries) stored.encode tail'
      rwa [List.append_assoc, ← bytes', List.length_append, length_header, ← written.lastPoint,
        size] at field
    kept := by
      have before := Bytes.field_between (header m.version m.tableSize m.lastPoint)
        (encodeAll entries) tail
      have after := Bytes.field_between (header m'.version m'.tableSize m'.lastPoint)
        (encodeAll entries) (stored.encode ++ tail')
      rw [← bytes, length_header] at before
      rw [← bytes', length_header] at after
      rw [behind, before, after] }

theorem exists_stored {entries others : List MetaItem}
    (fixed : entries.map MetaItem.fixed = others.map MetaItem.fixed) {item : MetaItem}
    (member : item ∈ others) : ∃ stored ∈ entries, stored.fixed = item.fixed := by
  have listed : item.fixed ∈ entries.map MetaItem.fixed := by
    rw [fixed]
    exact List.mem_map_of_mem member
  exact List.mem_map.mp listed

theorem Known.find_iff {m : MetaPage} {entries : List MetaItem} (known : Known m entries)
    {item : MetaItem} : m.items item.tableId = some item ↔ item ∈ entries := by
  refine ⟨fun found => ?_, fun member => (known.find member).1⟩
  rw [known.items] at found
  obtain ⟨stored, member, -, same⟩ := Index.exists_of_fill found
  exact same ▸ member

theorem length_items_le {entries : List MetaItem} {item : MetaItem} (member : item ∈ entries) :
    item.items.length ≤ (encodeAll entries).length := by
  obtain ⟨before, after, rfl⟩ := List.append_of_mem member
  have columns := length_le_length_encode item.items
  have size := length_encode item
  have split : encodeAll (item :: after) = item.encode ++ encodeAll after := rfl
  rw [encodeAll_append, List.length_append, split, List.length_append]
  omega

/-- A new object finds what the old one knew, further tables go behind, and a catalog made
    from it has the tables as they were built. -/
theorem reopen_run {calls : List Call} (admitted : Admitted calls) {data : List UInt8}
    {fileSize : Nat} (page : data.length = PAGE_SIZE)
    (empty : fileSize = 0 ∨ Bytes.toNat (Bytes.field data 8 8) = 0) :
    let m := (MetaPage.init { data := data, fileSize := fileSize }).run calls
    let r := m.reopen.init
    r = m ∧
    (∀ item ∈ added calls, ∃ stored, r.items item.tableId = some stored ∧
      stored.fixed = item.fixed ∧ r.nameTables item.tableName = some stored.firstPageId ∧
      r.idTables item.tableId = some stored.firstPageId) ∧
    (∀ item : MetaItem, r.lastPoint + item.encode.length ≤ PAGE_SIZE →
      ∃ r', r.addTable item = .ok r' ∧ Appended r r' item) ∧
    ∀ items, Iterates r.items items →
      ∃ catalog, Catalog.initFromMetaPage items = .ok catalog ∧ ∀ item ∈ added calls,
        catalog.tableNameIdx item.tableName = some item.tableId ∧
        ∃ entry, catalog.tables item.tableId = some entry ∧
          boundTable item.tableId item.tableName
            (item.items.map fun column => (column.columnName, column.type)) = .ok entry ∧
          entry.getSchema.map ColumnEntry.shown = item.items.map MetaColumnItem.shown ∧
          entry.getColumnIds = item.items.map MetaColumnItem.columnId := by
  intro m r
  obtain ⟨entries, holds, fixed⟩ := reached_run admitted.toProper (holds_init page empty)
  have same : r = m := holds.init_reopen
  rw [same]
  refine ⟨rfl, ?_, fun item fits => holds.written.appended fits, ?_⟩
  · intro item member
    obtain ⟨stored, known, fixed⟩ := exists_stored fixed member
    obtain ⟨found, byName, byId⟩ := holds.known.find known
    simp only [MetaItem.fixed, Prod.mk.injEq] at fixed
    rw [← fixed.1, ← fixed.2.1]
    exact ⟨stored, found, by simp [MetaItem.fixed, fixed], byName, byId⟩
  · intro items iterates
    have perm : items.Perm entries := by
      refine (List.perm_ext_iff_of_nodup iterates.once.of_map holds.known.ids.of_map).mpr ?_
      intro item
      rw [iterates.all item, holds.known.find_iff]
    have names := (perm.map MetaItem.tableName).nodup_iff.mpr holds.known.names
    have rebuild : ∀ stored ∈ entries, ∃ entry, Catalog.tableOfItem stored = .ok entry ∧
        boundTable stored.tableId stored.tableName
          (stored.items.map fun column => (column.columnName, column.type)) = .ok entry ∧
        entry.id = stored.tableId ∧ entry.name = stored.tableName ∧
        entry.getSchema.map ColumnEntry.shown = stored.items.map MetaColumnItem.shown := by
      intro stored member
      obtain ⟨item, known, fixed⟩ := exists_stored fixed.symm member
      simp only [MetaItem.fixed, Prod.mk.injEq] at fixed
      have few : stored.items.length < 2 ^ 64 := by
        have := length_items_le member
        have := holds.written.lastPoint
        have := holds.written.lastPoint_le
        have : PAGE_SIZE < 2 ^ 64 := by decide
        omega
      have numbered := admitted.numbered item known
      have accepted := admitted.accepted item known
      rw [fixed.2.2] at numbered accepted
      exact tableOfItem_eq stored.items few numbered accepted
    obtain ⟨catalog, loaded, tables⟩ := initFromMetaPage_eq names iterates.once
      fun stored member => (rebuild stored (perm.mem_iff.mp member)).imp fun _ built => built.1
    refine ⟨catalog, loaded, fun item member => ?_⟩
    obtain ⟨stored, known, fixed⟩ := exists_stored fixed member
    simp only [MetaItem.fixed, Prod.mk.injEq] at fixed
    obtain ⟨name, entry, rebuilt, table⟩ := tables stored (perm.mem_iff.mpr known)
    obtain ⟨same, built, bound, -, -, schema⟩ := rebuild stored known
    obtain rfl : same = entry := Except.ok.inj (built.symm.trans rebuilt)
    rw [← fixed.1, ← fixed.2.1, ← fixed.2.2]
    exact ⟨name, same, table, bound, schema, getColumnIds_of_shown schema⟩

def usersTable : MetaItem where
  tableName := [117]
  tableId := 1
  items := [⟨[105, 100], 1, 0, 0⟩, ⟨[110], 4, 0, 1⟩]

theorem reopen_run_usersTable :
    let m := (MetaPage.init { data := List.replicate PAGE_SIZE 0, fileSize := 0 }).run
      [.addTable usersTable, .updateTableFirstId 1 1, .updateTableRows 1 1]
    m.reopen.init = m ∧ ∃ stored, m.items 1 = some stored ∧ stored.items = usersTable.items := by
  have admitted : Admitted
      [.addTable usersTable, .updateTableFirstId 1 1, .updateTableRows 1 1] :=
    { names := by decide
      ids := by decide
      fits := by decide
      numbered := by
        intro item member
        obtain rfl := List.mem_singleton.mp member
        unfold Numbered
        decide
      accepted := by
        intro item member
        obtain rfl := List.mem_singleton.mp member
        unfold Accepted
        decide }
  obtain ⟨same, stored, -⟩ := reopen_run admitted List.length_replicate (.inl rfl)
  obtain ⟨item, found, fixed, -⟩ := stored usersTable (List.mem_singleton_self _)
  rw [same] at found
  refine ⟨same, item, found, ?_⟩
  exact congrArg (fun fixed => fixed.2.2) fixed

end YourSQL.Stored
