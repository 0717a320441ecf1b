import YourSQL.Catalog.CreateTable
import YourSQL.Lib.Index

/-! # The columns of a table and their names

A column is found by its name through `column_name_idx`, and by its id, which is its position.
Of two columns of one name the later one takes the name over.
-/

namespace YourSQL.Stored

namespace Creation

def names (creation : Creation) : List (List UInt8) := creation.columns.map Prod.fst

/-- The position of the column that has the name. -/
def indexOf (creation : Creation) (name : List UInt8) : Option Nat :=
  Index.lastIndexOf? name creation.names

end Creation

/-- A table with the columns of the statement, found by their names. Other names may be found
    as well. -/
structure TableEntry.Made (table : TableEntry) (creation : Creation) : Prop where
  accepted : ∀ column ∈ creation.columns, Accepted column.2
  schema : table.getSchema.map ColumnEntry.shown = creation.shown
  named : ∀ name i, creation.indexOf name = some i →
    table.columnNameIdx name = some (UInt64.ofNat i)

/-- `Catalog::AddTable`. -/
def Catalog.addTable (catalog : Catalog) (table : TableEntry) : Catalog where
  tableNameIdx := Function.update catalog.tableNameIdx table.name (some table.id)
  tables := Function.update catalog.tables table.id (some table)

/-- The catalog has the table under its name. -/
structure Catalog.HasTable (catalog : Catalog) (creation : Creation) (table : TableEntry) :
    Prop where
  named : catalog.tableNameIdx creation.name = some table.id
  found : catalog.tables table.id = some table
  made : table.Made creation

theorem columnNameIdx_of_boundTable {id : UInt64} {name : List UInt8} {creation : Creation}
    {table : TableEntry} (bound : boundTable id name creation.columns = .ok table)
    (column : List UInt8) :
    table.columnNameIdx column = (creation.indexOf column).map UInt64.ofNat := by
  obtain ⟨creationName, columns, few⟩ := creation
  induction columns using List.reverseRecOn generalizing table with
  | nil =>
      cases bound
      rfl
  | append_singleton columns last ih =>
      have fewer : columns.length < 2 ^ 64 := by
        rw [List.length_append, List.length_singleton] at few
        omega
      cases before : boundTable id name columns with
      | error message =>
          simp only [boundTable] at before bound
          rw [List.foldlM_append, before] at bound
          cases bound
      | ok built =>
          have earlier := ih fewer before
          obtain ⟨-, -, schema⟩ := @Terminal.boundTable_shown id ⟨name, columns, fewer⟩ built before
          have count := congrArg List.length schema
          simp only [Creation.shown, List.length_map, List.length_zipIdx] at count
          simp only [boundTable] at before bound
          rw [List.foldlM_append, before] at bound
          simp only [List.foldlM_cons, List.foldlM_nil, bind, Except.bind] at bound
          cases created : ColumnEntry.create built.getNextColumnId last.1 last.2 with
          | error message =>
              rw [created] at bound
              cases bound
          | ok entry =>
              obtain ⟨columnTypes, -, creates⟩ := create_of_accepted (Terminal.accepted_of_create created)
              obtain rfl := Except.ok.inj ((creates _ _).symm.trans created)
              rw [created] at bound
              cases bound
              have next : built.getNextColumnId = UInt64.ofNat columns.length :=
                congrArg UInt64.ofNat count
              simp only [Creation.indexOf, Creation.names, List.map_append, List.map_singleton,
                Index.lastIndexOf?_concat, List.length_map] at earlier ⊢
              simp only [TableEntry.addColumn, Function.update_apply, next]
              cases decEq column last.1 with
              | isTrue same => simp only [same, if_true, Option.map_some]
              | isFalse other => simp only [if_neg other, if_neg (Ne.symm other), earlier]

/-- The table that CREATE TABLE puts into the catalog. -/
theorem made_of_boundTable {id : UInt64} {creation : Creation} {table : TableEntry}
    (bound : boundTable id creation.name creation.columns = .ok table) : table.Made creation where
  accepted := (Terminal.of_boundTable bound).1
  schema := (Terminal.boundTable_shown bound).2.2
  named name i index := by rw [columnNameIdx_of_boundTable bound, index, Option.map_some]

theorem hasTable_addTable (catalog : Catalog) {id : UInt64} {creation : Creation}
    {table : TableEntry} (bound : boundTable id creation.name creation.columns = .ok table) :
    (catalog.addTable table).HasTable creation table where
  named := by
    rw [← (Terminal.of_boundTable bound).2.2]
    exact Function.update_self ..
  found := Function.update_self ..
  made := made_of_boundTable bound

namespace TableEntry.Made

variable {table : TableEntry} {creation : Creation}

theorem length (made : table.Made creation) :
    table.getSchema.length = creation.columns.length := by
  have count := congrArg List.length made.schema
  rwa [List.length_map, Creation.shown, List.length_map, List.length_zipIdx] at count

theorem columnNames (made : table.Made creation) :
    table.getSchema.map ColumnEntry.name = creation.names := by
  have names := congrArg (List.map fun shown => shown.2.1) made.schema
  simp only [Creation.shown, List.map_map] at names
  have first := congrArg (List.map Prod.fst) (List.zipIdx_map_fst 0 creation.columns)
  rw [List.map_map] at first
  exact names.trans first

/-- The id of a column is its position. -/
theorem column (made : table.Made creation) {i : Nat} {column : ColumnEntry}
    (here : table.getSchema[i]? = some column) :
    column.id = UInt64.ofNat i ∧ ∃ type, creation.columns[i]? = some (column.name, type) ∧
      columnTypeOf type = some column.columnTypes ∧ Accepted type := by
  have shown := congrArg (fun shown => shown[i]?) made.schema
  simp only [List.getElem?_map, here, Creation.shown, List.getElem?_zipIdx,
    Option.map_some] at shown
  cases given : creation.columns[i]? with
  | none =>
      rw [given] at shown
      cases shown
  | some pair =>
      rw [given] at shown
      simp only [Option.map_some, Nat.zero_add, ColumnEntry.shown, Option.some.injEq,
        Prod.mk.injEq] at shown
      obtain ⟨id, name, type⟩ := shown
      refine ⟨id, pair.2, ?_, type.symm, made.accepted pair (List.mem_of_getElem? given)⟩
      rw [name]

/-- A column's position is a `size_t`, so that the id leads back to it. -/
theorem toNat_ofNat (made : table.Made creation) {i : Nat} (inside : i < table.getSchema.length) :
    (UInt64.ofNat i).toNat = i := by
  rw [made.length] at inside
  have few := creation.few
  rw [UInt64.toNat_ofNat', Nat.mod_eq_of_lt (by omega)]

theorem indexOf_lt (made : table.Made creation) {name : List UInt8} {i : Nat}
    (index : creation.indexOf name = some i) : i < table.getSchema.length := by
  have here := Index.getElem?_of_lastIndexOf? index
  have inside := (List.getElem?_eq_some_iff.mp here).1
  rwa [Creation.names, List.length_map, ← made.length] at inside

end TableEntry.Made

end YourSQL.Stored
