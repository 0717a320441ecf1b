import YourSQL.Binder.InsertBinding
import YourSQL.Executor.Projection

/-! # Statements, from the parser to the executors

The trees of `hsql`, and what becomes of them on the way: literals are turned into values,
names into ids, and the WHERE into an expression on tuples. Only INSERT enters names into the
catalog while it is bound.
-/

namespace YourSQL

namespace Hsql

/-- A value of INSERT or UPDATE; `other` is of a kind that has no case. A string's length is a
    `size_t`. -/
inductive Literal where
  | literalString (name : List UInt8) (small : name.length < 2 ^ 64)
  | literalInt (ival : Int64)
  | literalFloat (fval : UInt64)
  | other
  deriving Repr, DecidableEq

structure UpdateClause where
  column : List UInt8
  value : Literal
  deriving Repr, DecidableEq

structure UpdateStatement where
  table : List UInt8
  updates : List UpdateClause
  where_ : Expr
  deriving Repr, DecidableEq

structure DeleteStatement where
  tableName : List UInt8
  expr : Expr
  deriving Repr, DecidableEq

/-- Without a list of columns, or of values, there is a null pointer. A list of columns is not
    empty. -/
structure InsertStatement where
  tableName : List UInt8
  columns : Option (List (List UInt8))
  values : Option (List Literal)
  named : columns ≠ some []

/-- The pointer `fromTable`; `other` is of a type that has no case. -/
inductive TableRef where
  | absent
  | tableName (name : List UInt8)
  | other
  deriving Repr, DecidableEq

structure SelectStatement where
  selectList : List Expr
  fromTable : TableRef
  whereClause : Expr
  deriving Repr, DecidableEq

end Hsql

/-! ## Parser -/

structure SelectStatement where
  selectList : List SelectExpression
  table : Option (List UInt8)
  whereExpression : BaseExpression
  deriving Repr, DecidableEq

structure UpdateSetClause where
  columnName : List UInt8
  value : Value
  deriving Repr, DecidableEq

structure UpdateStatement where
  tableName : List UInt8
  setClauses : List UpdateSetClause
  whereExpression : BaseExpression
  deriving Repr, DecidableEq

structure DeleteStatement where
  tableName : List UInt8
  whereExpression : BaseExpression
  deriving Repr, DecidableEq

namespace Transformer

/-- `LiteralToValue`. -/
def literalToValue : Hsql.Literal → Except String Value
  | .literalString name _ => .ok (.of (.string name))
  -- `static_cast<int>` keeps the lower 32 bits
  | .literalInt ival => .ok (.of (.int ival.toInt32.toInt))
  | .literalFloat fval => .ok (.of (.double fval))
  | .other => .error "Transformer: unsupported literal in SET/value clause"

def transformUpdate (statement : Hsql.UpdateStatement) : Except String UpdateStatement := do
  let setClauses ← statement.updates.mapM fun clause => do
    return { columnName := clause.column, value := ← literalToValue clause.value }
  let where_ ← transformWhere statement.where_
  return { tableName := statement.table, setClauses := setClauses, whereExpression := where_ }

def transformDelete (statement : Hsql.DeleteStatement) : Except String DeleteStatement := do
  return { tableName := statement.tableName, whereExpression := ← transformWhere statement.expr }

def transformTableRef : Hsql.TableRef → Except String (Option (List UInt8))
  | .absent => .ok none
  | .tableName name => .ok (some name)
  | .other => .error "Invalid table type"

def transformSelect (statement : Hsql.SelectStatement) : Except String SelectStatement := do
  let table ← transformTableRef statement.fromTable
  let where_ ← transformWhere statement.whereClause
  return {
    selectList := transformSelectList statement.selectList
    table := table
    whereExpression := where_ }

/-- The switch of `transformInsert`. -/
def insertValue : Hsql.Literal → Except String Value
  | .literalString name _ => .ok (.of (.string name))
  | .literalInt ival => .ok (.of (.int ival.toInt32.toInt))
  -- the case has no `break`, and runs on into the default
  | .literalFloat _ => .error "Transformer::transformInsert: unknown column type"
  | .other => .error "Transformer::transformInsert: unknown column type"

/-- The loop of `transformInsert`: `at` throws where there is no value for a column, and values
    without a column are left over. -/
def insertValues : (columns : List (List UInt8)) → List Hsql.Literal →
    Except String { values : List Value // values.length = columns.length }
  | [], _ => .ok ⟨[], rfl⟩
  | _ :: _, [] => .error "vector::_M_range_check"
  | _ :: columns, literal :: literals => do
      let value ← insertValue literal
      let values ← insertValues columns literals
      return ⟨value :: values.val, congrArg (· + 1) values.property⟩

end Transformer

namespace Stored

/-- `transformInsert`. -/
def transformInsert (statement : Hsql.InsertStatement) : Except Fault InsertStatement :=
  match given : statement.columns, statement.values with
  | none, _ => .error .nullPointer
  | some _, none => .error .nullPointer
  | some columns, some literals => do
      let values ← (Transformer.insertValues columns literals).mapError Fault.message
      return {
        tableName := statement.tableName
        columns := columns
        values := values.val
        named := fun empty => statement.named (given.trans (congrArg some empty))
        same := values.property }

/-! ## Binder -/

structure BoundUpdateSet where
  columnId : UInt64
  value : Value
  deriving Repr, DecidableEq

structure BoundUpdateStatement where
  tableId : UInt64
  setClauses : List BoundUpdateSet
  whereExpr : BoundExpression
  deriving DecidableEq

structure BoundDeleteStatement where
  tableId : UInt64
  whereExpr : BoundExpression
  deriving DecidableEq

structure BoundSelectStatement where
  select : List (UInt64 × UInt64)
  table : BoundTableRefExpression
  whereExpr : BoundExpression

namespace Binder

/-- `BoundSelectStatement`. The table is a pointer. -/
def boundSelectStatement (catalog : Catalog) (statement : SelectStatement) :
    Except Fault BoundSelectStatement :=
  match statement.table with
  | none => .error .nullPointer
  | some tableName => do
      let select ← boundSelectList catalog tableName statement.selectList
      let table ← boundTableRefExpression catalog tableName
      let whereExpr ← boundCompExpression catalog table statement.whereExpression
      return { select := select, table := table, whereExpr := whereExpr }

def notFound (what : String) (name : List UInt8) : Fault :=
  .exception (what.toUTF8.data.toList ++ name)

/-- One round of the loop over the SET clauses. The table is a pointer. -/
def boundSetClause (table : Option TableEntry) (clause : UpdateSetClause) :
    Except Fault BoundUpdateSet :=
  match table with
  | none => .error .nullPointer
  | some table =>
      match table.columnNameIdx clause.columnName with
      | none => .error (notFound "Binder::BoundUpdateStatement column not found: " clause.columnName)
      | some columnId => .ok { columnId := columnId, value := clause.value }

def boundUpdateStatement (catalog : Catalog) (statement : UpdateStatement) :
    Except Fault BoundUpdateStatement :=
  match catalog.tableNameIdx statement.tableName with
  | none =>
      .error (notFound "Binder::BoundUpdateStatement table not found: " statement.tableName)
  | some tableId => do
      let table ← boundTableRefExpression catalog statement.tableName
      let setClauses ← statement.setClauses.mapM (boundSetClause (catalog.tables tableId))
      let whereExpr ← boundCompExpression catalog table statement.whereExpression
      return { tableId := tableId, setClauses := setClauses, whereExpr := whereExpr }

def boundDeleteStatement (catalog : Catalog) (statement : DeleteStatement) :
    Except Fault BoundDeleteStatement :=
  match catalog.tableNameIdx statement.tableName with
  | none =>
      .error (notFound "Binder::BoundDeleteStatement table not found: " statement.tableName)
  | some tableId => do
      let table ← boundTableRefExpression catalog statement.tableName
      let whereExpr ← boundCompExpression catalog table statement.whereExpression
      return { tableId := tableId, whereExpr := whereExpr }

end Binder

/-! ## Planner and executors -/

/-- The filter of a plan: none for a WHERE that is a null pointer. -/
def Planner.filterOf : BoundExpression → Except Fault (Option PhysicalExpression)
  | .absent => .ok none
  | whereExpr => do return some (← transformExpression whereExpr)

/-! The statements that the executors run, over the schema that `Open` copies. The name that
`GetTableName` finds for the id of a bound table leads back to the id. -/

def ExecutorFactory.buildSelect (catalog : Catalog) (bound : BoundSelectStatement)
    (filter : Option PhysicalExpression) : Except Fault YourSQL.Statement :=
  match catalog.tables bound.table.tableId with
  | none => .error .nullPointer
  | some table =>
      .ok (.select bound.table.tableId.toNat (table.getSchema.map ColumnEntry.columnTypes)
        (bound.select.map fun column => column.2.toNat)
        (filter.map fun filter => filter.filter table.getSchema))

/-- `ExecutorValues` makes the row. -/
def ExecutorFactory.buildInsert (catalog : Catalog) (bound : BoundInsertStatement) :
    Except Fault YourSQL.Statement :=
  match catalog.tables bound.tableId with
  | none => .error (.message "ExecutorFactory::BuildExecutor Invalid table id")
  | some table =>
      .ok (.insert bound.tableId.toNat (Row.serialize (table.getSchema.map ColumnEntry.columnTypes)
        (ExecutorValues.fullValues table bound.columnIds bound.values)))

def ExecutorFactory.buildUpdate (catalog : Catalog) (bound : BoundUpdateStatement)
    (filter : Option PhysicalExpression) : Except Fault YourSQL.Statement :=
  match catalog.tables bound.tableId with
  | none => .error .nullPointer
  | some table =>
      .ok (.update bound.tableId.toNat (table.getSchema.map ColumnEntry.columnTypes)
        (bound.setClauses.map fun clause => ⟨clause.columnId.toNat, clause.value⟩)
        (filter.map fun filter => filter.filter table.getSchema))

def ExecutorFactory.buildDelete (catalog : Catalog) (bound : BoundDeleteStatement)
    (filter : Option PhysicalExpression) : Except Fault YourSQL.Statement :=
  match catalog.tables bound.tableId with
  | none => .error .nullPointer
  | some table =>
      .ok (.delete bound.tableId.toNat (filter.map fun filter => filter.filter table.getSchema))

/-- `transformSelect`, `BoundSelectStatement`, the two plans and `BuildExecutor`, one after the
    other; and so for the other statements. -/
def selectStatement (catalog : Catalog) (parsed : Hsql.SelectStatement) :
    Except Fault YourSQL.Statement := do
  let statement ← (Transformer.transformSelect parsed).mapError Fault.message
  let bound ← Binder.boundSelectStatement catalog statement
  let filter ← Planner.filterOf bound.whereExpr
  ExecutorFactory.buildSelect catalog bound filter

def insertStatement (parsed : Hsql.InsertStatement) : Program Catalog Fault YourSQL.Statement := do
  let statement ← Program.lift (transformInsert parsed)
  let bound ← Binder.boundInsertStatement statement
  let catalog ← get
  Program.lift (ExecutorFactory.buildInsert catalog bound)

def updateStatement (catalog : Catalog) (parsed : Hsql.UpdateStatement) :
    Except Fault YourSQL.Statement := do
  let statement ← (Transformer.transformUpdate parsed).mapError Fault.message
  let bound ← Binder.boundUpdateStatement catalog statement
  let filter ← Planner.filterOf bound.whereExpr
  ExecutorFactory.buildUpdate catalog bound filter

def deleteStatement (catalog : Catalog) (parsed : Hsql.DeleteStatement) :
    Except Fault YourSQL.Statement := do
  let statement ← (Transformer.transformDelete parsed).mapError Fault.message
  let bound ← Binder.boundDeleteStatement catalog statement
  let filter ← Planner.filterOf bound.whereExpr
  ExecutorFactory.buildDelete catalog bound filter

/-! ## Values that the parser makes -/

end Stored

/-- A value that the parser makes of a literal, or the default one. -/
def FromParser (value : Value) : Prop :=
  value = .null ∨ ∃ literal, Transformer.literalToValue literal = .ok value

/-- What is made of a list comes from its items. -/
theorem Except.exists_of_mapM {α β ε : Type} {f : α → Except ε β} {items : List α}
    {results : List β} (mapped : items.mapM f = .ok results) {b : β} (member : b ∈ results) :
    ∃ a ∈ items, f a = .ok b := by
  induction items generalizing results with
  | nil =>
      cases mapped
      cases member
  | cons a items ih =>
      rw [List.mapM_cons] at mapped
      obtain ⟨first, here, later⟩ := Except.bind_eq_ok.mp mapped
      obtain ⟨rest, others, returned⟩ := Except.bind_eq_ok.mp later
      obtain rfl := Except.ok.inj returned
      cases member with
      | head => exact ⟨a, List.mem_cons_self .., here⟩
      | tail _ member =>
          obtain ⟨other, inItems, made⟩ := ih others member
          exact ⟨other, List.mem_cons_of_mem _ inItems, made⟩

theorem Except.of_mapError {α ε ε' : Type} {x : Except ε α} {f : ε → ε'} {a : α}
    (returned : x.mapError f = .ok a) : x = .ok a := by
  cases x with
  | error e => cases returned
  | ok b => exact congrArg Except.ok (Except.ok.inj returned)

namespace Transformer

theorem fromParser_transformUpdate {parsed : Hsql.UpdateStatement} {statement : UpdateStatement}
    (transformed : transformUpdate parsed = .ok statement) :
    ∀ clause ∈ statement.setClauses, FromParser clause.value := by
  obtain ⟨setClauses, made, later⟩ := Except.bind_eq_ok.mp transformed
  obtain ⟨where_, -, returned⟩ := Except.bind_eq_ok.mp later
  obtain rfl := Except.ok.inj returned
  intro clause member
  obtain ⟨origin, -, made⟩ := Except.exists_of_mapM made member
  obtain ⟨value, converted, returned⟩ := Except.bind_eq_ok.mp made
  obtain rfl := Except.ok.inj returned
  exact .inr ⟨origin.value, converted⟩

theorem fromParser_insertValue {literal : Hsql.Literal} {value : Value}
    (made : insertValue literal = .ok value) : FromParser value := by
  cases literal with
  | literalString name small => exact .inr ⟨.literalString name small, made⟩
  | literalInt ival => exact .inr ⟨.literalInt ival, made⟩
  | literalFloat fval => cases made
  | other => cases made

theorem fromParser_insertValues {columns : List (List UInt8)} {literals : List Hsql.Literal}
    {values : { values : List Value // values.length = columns.length }}
    (made : insertValues columns literals = .ok values) :
    ∀ value ∈ values.val, FromParser value := by
  induction columns generalizing literals with
  | nil =>
      cases made
      exact nofun
  | cons column columns ih =>
      cases literals with
      | nil => cases made
      | cons literal literals =>
          obtain ⟨first, here, later⟩ := Except.bind_eq_ok.mp made
          obtain ⟨rest, others, returned⟩ := Except.bind_eq_ok.mp later
          obtain rfl := Except.ok.inj returned
          intro value member
          cases member with
          | head => exact fromParser_insertValue here
          | tail _ member => exact ih others value member

end Transformer

namespace Stored

theorem fromParser_transformInsert {parsed : Hsql.InsertStatement} {statement : InsertStatement}
    (transformed : transformInsert parsed = .ok statement) :
    ∀ value ∈ statement.values, FromParser value := by
  unfold transformInsert at transformed
  split at transformed
  · cases transformed
  · cases transformed
  · obtain ⟨values, made, returned⟩ := Except.bind_eq_ok.mp transformed
    obtain rfl := Except.ok.inj returned
    exact Transformer.fromParser_insertValues (Except.of_mapError made)

theorem fromParser_boundUpdateStatement {catalog : Catalog} {statement : UpdateStatement}
    {bound : BoundUpdateStatement} (parsed : ∀ clause ∈ statement.setClauses, FromParser clause.value)
    (binds : Binder.boundUpdateStatement catalog statement = .ok bound) :
    ∀ clause ∈ bound.setClauses, FromParser clause.value := by
  unfold Binder.boundUpdateStatement at binds
  split at binds
  · cases binds
  · rename_i tableId known
    obtain ⟨table, -, later⟩ := Except.bind_eq_ok.mp binds
    obtain ⟨setClauses, made, later⟩ := Except.bind_eq_ok.mp later
    obtain ⟨whereExpr, -, returned⟩ := Except.bind_eq_ok.mp later
    obtain rfl := Except.ok.inj returned
    intro clause member
    obtain ⟨origin, inStatement, made⟩ := Except.exists_of_mapM made member
    unfold Binder.boundSetClause at made
    split at made
    · cases made
    · split at made
      · cases made
      · obtain rfl := Except.ok.inj made
        exact parsed origin inStatement

theorem fromParser_fullValues (table : TableEntry) (columnIds : List UInt64) {values : List Value}
    (parsed : ∀ value ∈ values, FromParser value) :
    ∀ value ∈ ExecutorValues.fullValues table columnIds values, FromParser value := by
  intro value member
  obtain ⟨column, -, rfl⟩ := List.mem_map.mp member
  split
  · exact .inl rfl
  · rename_i index found
    rw [List.getD_eq_getElem?_getD]
    cases given : values[index]? with
    | none => exact .inl rfl
    | some value => exact parsed value (List.mem_of_getElem? given)

/-! ## Statements whose names are known -/

end Stored

/-- What a SET clause assigns. -/
def Hsql.Literal.assigns (literal : Hsql.Literal) : Value :=
  (Transformer.literalToValue literal).toOption.getD .null

namespace Stored

/-- A WHERE that may be missing. -/
def Condition.toWhere : Option Condition → Hsql.Expr
  | none => .absent
  | some condition => condition.toExpr

/-- The filter of the executors. -/
def Condition.filterOn (creation : Creation) (table : TableEntry) (condition : Option Condition) :
    Option Filter :=
  condition.map fun condition => (condition.compiled table.id creation.idOf).filter table.getSchema

/-- The columns that are named in the condition exist, and its integers are `int`s. -/
def Condition.Known (creation : Creation) : Option Condition → Prop
  | none => True
  | some condition => condition.Narrow ∧ ∀ name ∈ condition.columns, name ∈ creation.names

variable {catalog : Catalog} {creation : Creation} {table : TableEntry}
  {condition : Option Condition}

theorem filterOf_eq {bound : BoundExpression} {expression : PhysicalExpression}
    (planned : Planner.transformExpression bound = .ok expression) :
    Planner.filterOf bound = .ok (some expression) := by
  cases bound with
  | absent => cases planned
  | _ =>
      dsimp only [Planner.filterOf]
      rw [planned]
      rfl

/-- The way of a WHERE. -/
theorem exists_filterOf (hasTable : catalog.HasTable creation table)
    (known : Condition.Known creation condition) :
    ∃ base bound, Transformer.transformWhere (Condition.toWhere condition) = .ok base ∧
      Binder.boundCompExpression catalog ⟨table.id, creation.name⟩ base = .ok bound ∧
      Planner.filterOf bound =
        .ok (condition.map fun condition => condition.compiled table.id creation.idOf) := by
  cases condition with
  | none => exact ⟨.absent, .absent, rfl, rfl, rfl⟩
  | some condition =>
      obtain ⟨base, bound, parsed, binds, planned⟩ :=
        Condition.translated hasTable condition known.2
      exact ⟨base, bound, parsed, binds, filterOf_eq planned⟩

theorem boundTableRefExpression_eq (hasTable : catalog.HasTable creation table) :
    Binder.boundTableRefExpression catalog creation.name = .ok ⟨table.id, creation.name⟩ := by
  rw [Binder.boundTableRefExpression, hasTable.named]

theorem literalToValue_eq {literal : Hsql.Literal} (supported : literal ≠ .other) :
    Transformer.literalToValue literal = .ok literal.assigns := by
  cases literal with
  | other => exact absurd rfl supported
  | _ => rfl

theorem boundSetClause_eq (hasTable : catalog.HasTable creation table) {clause : UpdateSetClause}
    (named : clause.columnName ∈ creation.names) :
    Binder.boundSetClause (catalog.tables table.id) clause =
      .ok ⟨creation.idOf clause.columnName, clause.value⟩ := by
  unfold Binder.boundSetClause
  rw [hasTable.found]
  dsimp only
  rw [(hasTable.made.columnNameIdx_of_mem named).1]

/-- An UPDATE that is accepted. -/
theorem updateStatement_eq (hasTable : catalog.HasTable creation table)
    (known : Condition.Known creation condition) {updates : List Hsql.UpdateClause}
    (supported : ∀ clause ∈ updates, clause.value ≠ .other)
    (named : ∀ clause ∈ updates, clause.column ∈ creation.names) :
    updateStatement catalog ⟨creation.name, updates, Condition.toWhere condition⟩ =
      .ok (.update table.id.toNat (table.getSchema.map ColumnEntry.columnTypes)
        (updates.map fun clause => ⟨(creation.idOf clause.column).toNat, clause.value.assigns⟩)
        (Condition.filterOn creation table condition)) := by
  obtain ⟨base, bound, parsed, binds, filtered⟩ := exists_filterOf hasTable known
  have literals : (updates.mapM fun clause => do
      return ({ columnName := clause.column
                value := ← Transformer.literalToValue clause.value } : UpdateSetClause)) =
      .ok (updates.map fun clause => ⟨clause.column, clause.value.assigns⟩) :=
    mapM_eq_ok fun clause member => by rw [literalToValue_eq (supported clause member)]; rfl
  have ids : (updates.map fun clause =>
      (⟨clause.column, clause.value.assigns⟩ : UpdateSetClause)).mapM
        (Binder.boundSetClause (catalog.tables table.id)) =
      .ok (updates.map fun clause => ⟨creation.idOf clause.column, clause.value.assigns⟩) := by
    rw [List.mapM_map]
    exact mapM_eq_ok fun clause member => boundSetClause_eq hasTable (named clause member)
  have transformed : Transformer.transformUpdate
      ⟨creation.name, updates, Condition.toWhere condition⟩ =
      .ok ⟨creation.name, updates.map fun clause => ⟨clause.column, clause.value.assigns⟩, base⟩ := by
    unfold Transformer.transformUpdate
    dsimp only
    rw [literals, parsed]
    rfl
  have bound : Binder.boundUpdateStatement catalog
      ⟨creation.name, updates.map fun clause => ⟨clause.column, clause.value.assigns⟩, base⟩ =
      .ok ⟨table.id, updates.map fun clause => ⟨creation.idOf clause.column, clause.value.assigns⟩,
        bound⟩ := by
    unfold Binder.boundUpdateStatement
    dsimp only
    rw [hasTable.named]
    dsimp only
    rw [boundTableRefExpression_eq hasTable, Except.ok_bind, ids, Except.ok_bind, binds]
    rfl
  unfold updateStatement
  rw [transformed]
  change (Binder.boundUpdateStatement catalog _ >>= _) = _
  rw [bound, Except.ok_bind, filtered, Except.ok_bind, ExecutorFactory.buildUpdate]
  dsimp only
  rw [hasTable.found]
  simp [Condition.filterOn, List.map_map, Function.comp_def, Option.map_map]

/-- A DELETE that is accepted. -/
theorem deleteStatement_eq (hasTable : catalog.HasTable creation table)
    (known : Condition.Known creation condition) :
    deleteStatement catalog ⟨creation.name, Condition.toWhere condition⟩ =
      .ok (.delete table.id.toNat (Condition.filterOn creation table condition)) := by
  obtain ⟨base, bound, parsed, binds, filtered⟩ := exists_filterOf hasTable known
  have transformed : Transformer.transformDelete ⟨creation.name, Condition.toWhere condition⟩ =
      .ok ⟨creation.name, base⟩ := by
    unfold Transformer.transformDelete
    dsimp only
    rw [parsed]
    rfl
  have bound : Binder.boundDeleteStatement catalog ⟨creation.name, base⟩ =
      .ok ⟨table.id, bound⟩ := by
    unfold Binder.boundDeleteStatement
    dsimp only
    rw [hasTable.named]
    dsimp only
    rw [boundTableRefExpression_eq hasTable, Except.ok_bind, binds]
    rfl
  unfold deleteStatement
  rw [transformed]
  change (Binder.boundDeleteStatement catalog _ >>= _) = _
  rw [bound, Except.ok_bind, filtered, Except.ok_bind, ExecutorFactory.buildDelete]
  dsimp only
  rw [hasTable.found]
  simp [Condition.filterOn, Function.comp_def, Option.map_map]

end Stored

end YourSQL
