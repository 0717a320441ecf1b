import YourSQL.Planner.WhereMeaning

/-! # INSERT and the names it looks up

`Binder::BoundInsertStatement` looks names up with `operator[]`, which enters a name that is
not there. `ExecutorValues::Open` then builds the row by the ids of the columns.
-/

namespace YourSQL.Stored

/-- A parsed INSERT. The parser has no list without a name, and the transformer takes one value
    for each. -/
structure InsertStatement where
  tableName : List UInt8
  columns : List (List UInt8)
  values : List Value
  named : columns ≠ []
  same : values.length = columns.length

structure BoundInsertStatement where
  tableId : UInt64
  columnIds : List UInt64
  values : List Value
  deriving DecidableEq

namespace Binder

/-- One round of the loop. A table that is not there is a null pointer. -/
def boundInsertColumn (tableId : UInt64) (columnName : List UInt8) :
    Program Catalog Fault UInt64 := do
  match (← get).tables tableId with
  | none => throw .nullPointer
  | some table =>
      let (columnId, table) := Terminal.boundColumn table columnName
      modify fun catalog =>
        { catalog with tables := Function.update catalog.tables tableId (some table) }
      match columnId with
      | none => throw (.message "Column not found")
      | some columnId => return columnId

def boundInsertColumns (tableId : UInt64) : List (List UInt8) → Program Catalog Fault (List UInt64)
  | [] => return []
  | columnName :: columnNames => do
      let columnId ← boundInsertColumn tableId columnName
      return columnId :: (← boundInsertColumns tableId columnNames)

/-- `BoundInsertStatement`. A table name that is not there is entered, for table 0. -/
def boundInsertStatement (statement : InsertStatement) :
    Program Catalog Fault BoundInsertStatement := do
  let tableId := ((← get).tableNameIdx statement.tableName).getD 0
  modify fun catalog =>
    { catalog with
      tableNameIdx := Function.update catalog.tableNameIdx statement.tableName (some tableId) }
  let columnIds ← boundInsertColumns tableId statement.columns
  return { tableId := tableId, columnIds := columnIds, values := statement.values }

end Binder

namespace ExecutorValues

/-- The row of `Open`. Of two columns of one id `column_index_map` keeps the later one. -/
def fullValues (table : TableEntry) (columnIds : List UInt64) (values : List Value) : List Value :=
  table.columns.map fun column =>
    match Index.lastIndexOf? column.id columnIds with
    | none => .null
    | some index => values.getD index .null

/-- `Open`. -/
def openRow (catalog : Catalog) (bound : BoundInsertStatement) : Except Fault (List Value) :=
  match catalog.tables bound.tableId with
  | none => .error (.message "ExecutorValues::Open don`t find target table.")
  | some tableEntry => .ok (fullValues tableEntry bound.columnIds bound.values)

end ExecutorValues

/-! ## What binding should do -/

namespace Catalog

def find (catalog : Catalog) (tableName : List UInt8) : Option TableEntry :=
  (catalog.tableNameIdx tableName).bind catalog.tables

/-- The catalog's tables are created ones, and no id is 0. Names that a table knows beside those
    of its columns lead to column 0. -/
structure Sound (catalog : Catalog) : Prop where
  tables : ∀ name id, catalog.tableNameIdx name = some id → ∃ creation table,
    creation.name = name ∧ table.id = id ∧ catalog.HasTable creation table ∧
      creation.columns ≠ [] ∧
      ∀ column columnId, table.columnNameIdx column = some columnId →
        column ∈ creation.names ∨ columnId = 0
  ids : catalog.tables 0 = none

end Catalog

namespace TableEntry

def columnNames (table : TableEntry) : List (List UInt8) := table.columns.map ColumnEntry.name

def positionOf (table : TableEntry) (name : List UInt8) : Option Nat :=
  Index.lastIndexOf? name table.columnNames

end TableEntry

namespace InsertStatement

/-- The row has each value in the column of its name, and NULL in the columns not named. -/
structure Fills (statement : InsertStatement) (table : TableEntry) (row : List Value) : Prop where
  length : row.length = table.columns.length
  named : ∀ (i : Nat) (name : List UInt8) (position : Nat), statement.columns[i]? = some name →
    table.positionOf name = some position → row[position]? = statement.values[i]?
  others : ∀ position < table.columns.length,
    (∀ name ∈ statement.columns, table.positionOf name ≠ some position) →
    row[position]? = some .null

/-- A statement that names a table or a column that does not exist throws, and any other one
    returns and fills a row; the catalog stays as it was. -/
def Faithful (statement : InsertStatement) (catalog : Catalog) : Prop :=
  match catalog.find statement.tableName with
  | none => ∃ what, (Binder.boundInsertStatement statement).run catalog =
      (.error (.exception what), catalog)
  | some table =>
      if ∀ name ∈ statement.columns, name ∈ table.columnNames then
        ∃ bound row, (Binder.boundInsertStatement statement).run catalog = (.ok bound, catalog) ∧
          ExecutorValues.openRow catalog bound = .ok row ∧ statement.Fills table row
      else
        ∃ what, (Binder.boundInsertStatement statement).run catalog =
          (.error (.exception what), catalog)

/-- The table and the columns exist, and a column that is named twice gets one value. -/
def Resolved (statement : InsertStatement) (catalog : Catalog) : Prop :=
  ∃ table, catalog.find statement.tableName = some table ∧
    (∀ name ∈ statement.columns, name ∈ table.columnNames) ∧
    ∀ i j : Nat, statement.columns[i]? = statement.columns[j]? →
      statement.values[i]? = statement.values[j]?

end InsertStatement

/-! ## Columns that exist -/

variable {catalog : Catalog} {creation : Creation} {table : TableEntry}

namespace TableEntry.Made

theorem columnNames_eq (made : table.Made creation) : table.columnNames = creation.names :=
  made.columnNames

theorem positionOf_eq (made : table.Made creation) (name : List UInt8) :
    table.positionOf name = creation.indexOf name := by
  rw [TableEntry.positionOf, made.columnNames_eq]
  rfl

/-- Each position is the id of a column. -/
theorem ofNat_mem (made : table.Made creation) {i : Nat} (inside : i < table.getSchema.length) :
    UInt64.ofNat i ∈ table.getColumnIds := by
  rw [← (made.column (List.getElem?_eq_getElem inside)).1]
  exact List.mem_map_of_mem (List.getElem_mem inside)

theorem columnNameIdx_of_mem (made : table.Made creation) {name : List UInt8}
    (member : name ∈ creation.names) :
    table.columnNameIdx name = some (creation.idOf name) ∧
      creation.idOf name ∈ table.getColumnIds := by
  obtain ⟨i, last⟩ := Index.lastIndexOf?_isSome member
  have index : creation.indexOf name = some i := last
  rw [Creation.idOf, index, Option.getD_some]
  exact ⟨made.named name i index, made.ofNat_mem (made.indexOf_lt index)⟩

/-- A name that is looked up for a column leaves the table a created one. -/
theorem boundColumn (made : table.Made creation)
    (others : ∀ column columnId, table.columnNameIdx column = some columnId →
      column ∈ creation.names ∨ columnId = 0) (name : List UInt8) :
    (Terminal.boundColumn table name).2.Made creation ∧
      (Terminal.boundColumn table name).2.id = table.id ∧
      ∀ column columnId, (Terminal.boundColumn table name).2.columnNameIdx column = some columnId →
        column ∈ creation.names ∨ columnId = 0 := by
  unfold Terminal.boundColumn
  cases known : table.columnNameIdx name with
  | some columnId => exact ⟨made, rfl, others⟩
  | none =>
      refine ⟨⟨made.accepted, made.schema, fun column i index => ?_⟩, rfl,
        fun column columnId leads => ?_⟩
      · have named := made.named column i index
        have different : column ≠ name := by
          intro same
          rw [same, known] at named
          cases named
        exact (Function.update_of_ne different ..).trans named
      · cases decEq column name with
        | isTrue same =>
            simp only [same, Function.update_self, Option.some.injEq] at leads
            exact .inr leads.symm
        | isFalse different =>
            simp only [Function.update_of_ne different] at leads
            exact others column columnId leads

end TableEntry.Made

namespace Binder

theorem run_boundInsertColumn (tableId : UInt64) (name : List UInt8) {catalog : Catalog}
    {table : TableEntry} (found : catalog.tables tableId = some table) :
    (boundInsertColumn tableId name).run catalog =
      ((match (Terminal.boundColumn table name).1 with
        | none => .error (.message "Column not found")
        | some columnId => .ok columnId),
      { catalog with
        tables := Function.update catalog.tables tableId
          (some (Terminal.boundColumn table name).2) }) := by
  unfold boundInsertColumn
  rw [Program.run_get_bind, found]
  dsimp only
  rw [Program.run_modify_bind]
  cases (Terminal.boundColumn table name).1 <;> rfl

/-- A column that exists is looked up, and nothing changes. -/
theorem run_boundInsertColumn_of_mem (hasTable : catalog.HasTable creation table)
    {name : List UInt8} (member : name ∈ creation.names) :
    (boundInsertColumn table.id name).run catalog = (.ok (creation.idOf name), catalog) := by
  obtain ⟨named, isColumn⟩ := hasTable.made.columnNameIdx_of_mem member
  have column : Terminal.boundColumn table name = (some (creation.idOf name), table) := by
    rw [Terminal.boundColumn, named]
    dsimp only
    rw [if_pos isColumn]
  rw [run_boundInsertColumn table.id name hasTable.found, column]
  dsimp only
  rw [← hasTable.found, Function.update_eq_self]

theorem run_boundInsertColumns_of_mem (hasTable : catalog.HasTable creation table)
    {names : List (List UInt8)} (exist : ∀ name ∈ names, name ∈ creation.names) :
    (boundInsertColumns table.id names).run catalog = (.ok (names.map creation.idOf), catalog) := by
  induction names with
  | nil => rfl
  | cons name names ih =>
      have first := run_boundInsertColumn_of_mem hasTable (exist name (List.mem_cons_self ..))
      have rest := ih fun other member => exist other (List.mem_cons_of_mem _ member)
      rw [boundInsertColumns, Program.run_bind_of_ok first, Program.run_bind_of_ok rest]
      rfl

/-! ## Columns that do not exist -/

/-- A table whose names all lead to columns. -/
def Resolves (table : TableEntry) : Prop :=
  0 ∈ table.getColumnIds ∧
    ∀ name columnId, table.columnNameIdx name = some columnId → columnId ∈ table.getColumnIds

theorem Resolves.boundColumn (resolves : Resolves table) (name : List UInt8) :
    (∃ columnId, (Terminal.boundColumn table name).1 = some columnId) ∧
      Resolves (Terminal.boundColumn table name).2 := by
  obtain ⟨zero, each⟩ := resolves
  unfold Terminal.boundColumn
  cases named : table.columnNameIdx name with
  | some columnId => exact ⟨⟨columnId, if_pos (each name columnId named)⟩, zero, each⟩
  | none =>
      refine ⟨⟨0, if_pos zero⟩, zero, fun other columnId found => ?_⟩
      cases decEq other name with
      | isTrue same =>
          simp only [same, Function.update_self, Option.some.injEq] at found
          rwa [← found]
      | isFalse different =>
          simp only [Function.update_of_ne different] at found
          exact each other columnId found

/-- No name is refused. -/
theorem boundInsertColumns_returns {tableId : UInt64} {names : List (List UInt8)}
    {catalog : Catalog} {table : TableEntry} (found : catalog.tables tableId = some table)
    (resolves : Resolves table) :
    ∃ columnIds catalog', (boundInsertColumns tableId names).run catalog =
      (.ok columnIds, catalog') := by
  induction names generalizing catalog table with
  | nil => exact ⟨[], catalog, rfl⟩
  | cons name names ih =>
      obtain ⟨⟨columnId, column⟩, later⟩ := resolves.boundColumn name
      have first := run_boundInsertColumn tableId name found
      rw [column] at first
      let entered : Catalog := { catalog with
        tables := Function.update catalog.tables tableId
          (some (Terminal.boundColumn table name).2) }
      obtain ⟨columnIds, catalog', rest⟩ := @ih entered _ (Function.update_self ..) later
      refine ⟨columnId :: columnIds, catalog', ?_⟩
      rw [boundInsertColumns, Program.run_bind_of_ok first, Program.run_bind_of_ok rest]
      rfl

/-- A table name that is known is entered again as it was. -/
theorem run_boundInsertStatement (statement : InsertStatement) {tableId : UInt64}
    (known : catalog.tableNameIdx statement.tableName = some tableId) :
    (boundInsertStatement statement).run catalog =
      (boundInsertColumns tableId statement.columns >>= fun columnIds =>
        pure ⟨tableId, columnIds, statement.values⟩).run catalog := by
  unfold boundInsertStatement
  rw [Program.run_get_bind, Program.run_modify_bind, known, Option.getD_some, ← known,
    Function.update_eq_self]

/-- A table name that is not known leads to a null pointer. -/
theorem run_boundInsertStatement_unknown {statement : InsertStatement}
    (unknown : catalog.tableNameIdx statement.tableName = none) (ids : catalog.tables 0 = none) :
    ∃ catalog', (boundInsertStatement statement).run catalog = (.error .nullPointer, catalog') := by
  cases columns : statement.columns with
  | nil => exact absurd columns statement.named
  | cons first others =>
      refine ⟨{ catalog with
        tableNameIdx := Function.update catalog.tableNameIdx statement.tableName (some 0) }, ?_⟩
      unfold boundInsertStatement
      rw [Program.run_get_bind, Program.run_modify_bind, unknown, Option.getD_none, columns]
      refine Program.run_bind_of_error ?_
      refine Program.run_bind_of_error ?_
      unfold boundInsertColumn
      rw [Program.run_get_bind]
      dsimp only
      rw [ids]
      rfl

end Binder

namespace Catalog.Sound

theorem found (sound : catalog.Sound) {name : List UInt8} {id : UInt64}
    (known : catalog.tableNameIdx name = some id) :
    ∃ creation table, creation.name = name ∧ table.id = id ∧ catalog.HasTable creation table ∧
      catalog.find name = some table ∧ Binder.Resolves table := by
  obtain ⟨creation, table, named, tableId, hasTable, columns, others⟩ := sound.tables name id known
  have made := hasTable.made
  have find : catalog.find name = some table := by
    rw [Catalog.find, known, Option.bind_some, ← tableId, hasTable.found]
  have zero : 0 ∈ table.getColumnIds := by
    have inside : 0 < table.getSchema.length := by
      rw [made.length]
      exact List.length_pos_iff.mpr columns
    exact made.ofNat_mem inside
  refine ⟨creation, table, named, tableId, hasTable, find, zero, fun column columnId isId => ?_⟩
  cases others column columnId isId with
  | inl member =>
      obtain ⟨same, isColumn⟩ := made.columnNameIdx_of_mem member
      rw [isId] at same
      rwa [Option.some.inj same]
  | inr isZero => rwa [isZero]

theorem empty : ({} : Catalog).Sound where
  tables := nofun
  ids := rfl

/-- CREATE TABLE, with an id that is not in use. -/
theorem addTable (sound : catalog.Sound) {id : UInt64} (fresh : catalog.tables id = none)
    (positive : id ≠ 0) (columns : creation.columns ≠ [])
    (bound : boundTable id creation.name creation.columns = .ok table) :
    (catalog.addTable table).Sound := by
  obtain ⟨-, tableId, tableName⟩ := Terminal.of_boundTable bound
  constructor
  · intro name id' known
    change Function.update catalog.tableNameIdx table.name (some table.id) name = some id' at known
    cases decEq name table.name with
    | isTrue same =>
        rw [same, Function.update_self] at known
        refine ⟨creation, table, ?_, Option.some.inj known, hasTable_addTable catalog bound, columns,
          fun column columnId named => .inl ?_⟩
        · rw [same, tableName]
        · rw [columnNameIdx_of_boundTable bound] at named
          cases index : creation.indexOf column with
          | none =>
              rw [index] at named
              cases named
          | some i => exact List.mem_of_getElem? (Index.getElem?_of_lastIndexOf? index)
    | isFalse different =>
        rw [Function.update_of_ne different] at known
        obtain ⟨creation', table', named, sameId, hasTable, columns', others⟩ :=
          sound.tables name id' known
        have other : table'.id ≠ table.id := by
          intro same
          have found := hasTable.found
          rw [same, tableId, fresh] at found
          cases found
        refine ⟨creation', table', named, sameId, ⟨?_, ?_, hasTable.made⟩, columns', others⟩
        · change Function.update catalog.tableNameIdx _ _ _ = _
          rw [Function.update_of_ne (named ▸ different)]
          exact hasTable.named
        · change Function.update catalog.tables _ _ _ = _
          rw [Function.update_of_ne other]
          exact hasTable.found
  · change Function.update catalog.tables _ _ _ = _
    rw [Function.update_of_ne (by rw [tableId]; exact positive.symm)]
    exact sound.ids

/-- A round of the loop only enters a name for column 0. -/
theorem boundInsertColumn (sound : catalog.Sound) (tableId : UInt64) (name : List UInt8) :
    ((Binder.boundInsertColumn tableId name).run catalog).2.Sound := by
  cases found : catalog.tables tableId with
  | none =>
      unfold Binder.boundInsertColumn
      rw [Program.run_get_bind, found]
      exact sound
  | some table =>
      rw [Binder.run_boundInsertColumn tableId name found]
      constructor
      · intro tableName id known
        obtain ⟨creation, table', named, sameId, hasTable, columns, others⟩ :=
          sound.tables tableName id known
        cases decEq table'.id tableId with
        | isFalse different =>
            refine ⟨creation, table', named, sameId, ⟨hasTable.named, ?_, hasTable.made⟩, columns,
              others⟩
            exact (Function.update_of_ne different ..).trans hasTable.found
        | isTrue same =>
            obtain rfl : table = table' := by
              rw [← same, hasTable.found] at found
              exact (Option.some.inj found).symm
            obtain ⟨made, keepsId, keepsOthers⟩ := hasTable.made.boundColumn others name
            refine ⟨creation, (Terminal.boundColumn table name).2, named, keepsId.trans sameId,
              ⟨?_, ?_, made⟩, columns, keepsOthers⟩
            · rw [keepsId]
              exact hasTable.named
            · rw [keepsId, same]
              exact Function.update_self ..
      · have different : tableId ≠ 0 := by
          rintro rfl
          rw [sound.ids] at found
          cases found
        exact (Function.update_of_ne different.symm ..).trans sound.ids

theorem boundInsertColumns (sound : catalog.Sound) (tableId : UInt64) (names : List (List UInt8)) :
    ((Binder.boundInsertColumns tableId names).run catalog).2.Sound := by
  induction names generalizing catalog with
  | nil => exact sound
  | cons name names ih =>
      have first := sound.boundInsertColumn tableId name
      rw [Binder.boundInsertColumns, Program.run_bind]
      cases ran : (Binder.boundInsertColumn tableId name).run catalog with
      | mk result catalog' =>
          rw [ran] at first
          cases result with
          | error fault => exact first
          | ok columnId =>
              rw [Program.state_bind fun _ _ => rfl]
              exact ih first

/-- Whatever names an INSERT enters, the catalog stays sound while the process goes on. -/
theorem boundInsertStatement (sound : catalog.Sound) (statement : InsertStatement)
    {result : Except Fault BoundInsertStatement} {catalog' : Catalog}
    (ran : (Binder.boundInsertStatement statement).run catalog = (result, catalog'))
    (goesOn : result ≠ .error .nullPointer) : catalog'.Sound := by
  cases known : catalog.tableNameIdx statement.tableName with
  | none =>
      obtain ⟨catalog'', ended⟩ := Binder.run_boundInsertStatement_unknown known sound.ids
      exact absurd (congrArg Prod.fst (ran.symm.trans ended)) goesOn
  | some id =>
      have run := Binder.run_boundInsertStatement statement known
      have after := congrArg Prod.snd (run.symm.trans ran)
      rw [Program.state_bind fun _ _ => rfl] at after
      have later := sound.boundInsertColumns id statement.columns
      rwa [after] at later

end Catalog.Sound

/-! ## The row -/

namespace InsertStatement

variable {statement : InsertStatement}

theorem getElem?_fullValues {columnIds : List UInt64} {values : List Value}
    (made : table.Made creation) {position : Nat} (inside : position < table.columns.length) :
    (ExecutorValues.fullValues table columnIds values)[position]? =
      some (match Index.lastIndexOf? (UInt64.ofNat position) columnIds with
        | none => .null
        | some index => values.getD index .null) := by
  have here : table.getSchema[position]? = some table.columns[position] :=
    List.getElem?_eq_getElem inside
  rw [ExecutorValues.fullValues, List.getElem?_map, List.getElem?_eq_getElem inside,
    Option.map_some, (made.column here).1]

/-- The ids of a list of names, from the positions. -/
theorem idOf_eq_iff (made : table.Made creation) {name : List UInt8}
    (member : name ∈ creation.names) {position : Nat} (inside : position < table.columns.length) :
    creation.idOf name = UInt64.ofNat position ↔ creation.indexOf name = some position := by
  obtain ⟨i, last⟩ := Index.lastIndexOf?_isSome member
  have index : creation.indexOf name = some i := last
  have bound := made.indexOf_lt index
  rw [Creation.idOf, index, Option.getD_some, Option.some.injEq]
  constructor
  · intro same
    have numbers := congrArg UInt64.toNat same
    rwa [made.toNat_ofNat bound, made.toNat_ofNat inside] at numbers
  · intro same
    rw [same]

/-- A position is that of one name only. -/
theorem name_of_position {name other : List UInt8} {position : Nat}
    (first : creation.indexOf name = some position)
    (second : creation.indexOf other = some position) : name = other := by
  have here := Index.getElem?_of_lastIndexOf? first
  rw [Index.getElem?_of_lastIndexOf? second] at here
  exact (Option.some.inj here).symm

/-- The row is filled, unless a column that is named twice gets two values. -/
theorem fills_iff (made : table.Made creation)
    (exist : ∀ name ∈ statement.columns, name ∈ creation.names) :
    statement.Fills table
        (ExecutorValues.fullValues table (statement.columns.map creation.idOf) statement.values) ↔
      ∀ i j : Nat, statement.columns[i]? = statement.columns[j]? →
        statement.values[i]? = statement.values[j]? := by
  have atPosition : ∀ (i : Nat) (name : List UInt8) (position : Nat),
      statement.columns[i]? = some name → table.positionOf name = some position →
      ∃ j : Nat, statement.columns[j]? = some name ∧
        (ExecutorValues.fullValues table (statement.columns.map creation.idOf)
          statement.values)[position]? = statement.values[j]? := by
    intro i name position listed named
    rw [made.positionOf_eq] at named
    have inside := made.indexOf_lt named
    have id := (idOf_eq_iff made (exist name (List.mem_of_getElem? listed)) inside).mpr named
    have listedId : (statement.columns.map creation.idOf)[i]? = some (UInt64.ofNat position) := by
      rw [List.getElem?_map, listed, Option.map_some, id]
    obtain ⟨j, last, -⟩ := Index.exists_lastIndexOf? listedId
    have isId := Index.getElem?_of_lastIndexOf? last
    rw [List.getElem?_map] at isId
    cases lastName : statement.columns[j]? with
    | none =>
        rw [lastName] at isId
        cases isId
    | some other =>
        rw [lastName, Option.map_some, Option.some.injEq] at isId
        have position' := (idOf_eq_iff made (exist other (List.mem_of_getElem? lastName)) inside).mp isId
        obtain rfl := name_of_position named position'
        refine ⟨j, lastName, ?_⟩
        have within : j < statement.values.length := by
          rw [statement.same]
          exact (List.getElem?_eq_some_iff.mp lastName).1
        rw [getElem?_fullValues made inside, last]
        dsimp only
        rw [List.getD_eq_getElem?_getD, List.getElem?_eq_getElem within, Option.getD_some]
  constructor
  · intro fills i j same
    cases listed : statement.columns[i]? with
    | none =>
        have beyond := List.getElem?_eq_none_iff.mp listed
        have beyond' := List.getElem?_eq_none_iff.mp (same.symm.trans listed)
        rw [List.getElem?_eq_none (by rwa [statement.same]),
          List.getElem?_eq_none (by rwa [statement.same])]
    | some name =>
        obtain ⟨position, last⟩ :=
          Index.lastIndexOf?_isSome (exist name (List.mem_of_getElem? listed))
        have named : table.positionOf name = some position := by
          rw [made.positionOf_eq]
          exact last
        have first := fills.named i name position listed named
        rw [fills.named j name position (same.symm.trans listed) named] at first
        exact first.symm
  · intro repeated
    exact
    { length := by rw [ExecutorValues.fullValues, List.length_map]
      named := by
        intro i name position listed named
        obtain ⟨j, listed', value⟩ := atPosition i name position listed named
        rw [value, repeated i j (listed.trans listed'.symm)]
      others := by
        intro position inside unnamed
        have absent : UInt64.ofNat position ∉ statement.columns.map creation.idOf := by
          intro member
          obtain ⟨name, listed, id⟩ := List.mem_map.mp member
          refine unnamed name listed ?_
          rw [made.positionOf_eq]
          exact (idOf_eq_iff made (exist name listed) inside).mp id
        rw [getElem?_fullValues made inside, Index.lastIndexOf?_of_notMem absent] }

/-! ## When binding is faithful -/

theorem faithful_iff_resolved (sound : catalog.Sound) (statement : InsertStatement) :
    statement.Faithful catalog ↔ statement.Resolved catalog := by
  cases known : catalog.tableNameIdx statement.tableName with
  | none =>
      have find : catalog.find statement.tableName = none := by
        rw [Catalog.find, known, Option.bind_none]
      obtain ⟨catalog', ended⟩ := Binder.run_boundInsertStatement_unknown known sound.ids
      unfold Faithful Resolved
      rw [find, ended]
      exact iff_of_false (fun ⟨_, same⟩ => by cases same) (fun ⟨_, found, _⟩ => by cases found)
  | some id =>
      obtain ⟨creation, table, -, rfl, hasTable, find, resolves⟩ := sound.found known
      have made := hasTable.made
      have run := Binder.run_boundInsertStatement statement known
      unfold Faithful Resolved
      rw [find]
      dsimp only
      split
      · rename_i exist
        have exist' : ∀ name ∈ statement.columns, name ∈ creation.names := by
          rwa [made.columnNames_eq] at exist
        have ids := Binder.run_boundInsertColumns_of_mem hasTable exist'
        rw [Program.run_bind_of_ok ids] at run
        have opened : ExecutorValues.openRow catalog
            ⟨table.id, statement.columns.map creation.idOf, statement.values⟩ =
              .ok (ExecutorValues.fullValues table (statement.columns.map creation.idOf)
                statement.values) := by
          rw [ExecutorValues.openRow, hasTable.found]
        constructor
        · intro ⟨bound, row, ran, isRow, fills⟩
          obtain rfl : _ = bound := Except.ok.inj (congrArg Prod.fst (run.symm.trans ran))
          obtain rfl := Except.ok.inj (opened.symm.trans isRow)
          exact ⟨table, rfl, exist, (fills_iff made exist').mp fills⟩
        · intro ⟨table', same, _, repeated⟩
          exact ⟨_, _, run, opened, (fills_iff made exist').mpr repeated⟩
      · rename_i missing
        obtain ⟨columnIds, catalog', ids⟩ :=
          @Binder.boundInsertColumns_returns _ statement.columns _ _ hasTable.found resolves
        rw [Program.run_bind_of_ok ids] at run
        refine iff_of_false (fun ⟨what, ended⟩ => ?_) fun ⟨table', same, exist, _⟩ => ?_
        · cases run.symm.trans ended
        · obtain rfl := Option.some.inj same
          exact missing exist

def insertPair : InsertStatement where
  tableName := [116]
  columns := [[115], [105]]
  values := [.of (.string [97]), .of (.int 3)]
  named := by decide
  same := by decide

theorem sound_pairs : (({} : Catalog).addTable pairsTable).Sound :=
  @Catalog.Sound.addTable _ pairs _ .empty 1 rfl (by decide) (by decide) rfl

theorem faithful_iff_resolved_pair : insertPair.Faithful (({} : Catalog).addTable pairsTable) := by
  refine (faithful_iff_resolved sound_pairs insertPair).mpr ⟨pairsTable, rfl, by decide, ?_⟩
  intro i j same
  match i, j with
  | 0, 0 | 1, 1 => rfl
  | 0, 1 | 1, 0 => exact absurd same (by decide)
  | 0, j + 2 | 1, j + 2 | i + 2, 0 | i + 2, 1 => simp [insertPair] at same
  | i + 2, j + 2 => rfl

/-- A column that the table has not is taken for its first one. -/
theorem unknownColumn_not_faithful :
    ¬ InsertStatement.Faithful
      { tableName := [116], columns := [[120]], values := [.of (.int 3)]
        named := by decide, same := by decide } (({} : Catalog).addTable pairsTable) := by
  intro faithful
  obtain ⟨what, ended⟩ : ∃ what, (Binder.boundInsertStatement _).run _ =
    (.error (.exception what), _) := faithful
  cases congrArg Prod.fst ended

end InsertStatement

end YourSQL.Stored
