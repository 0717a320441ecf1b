import YourSQL.Executor.RowPredicate

/-! # The columns that SELECT puts out

From the select list to the values of a result tuple. The tuple keeps the schema of the table,
whatever columns were asked for, and a list of one name is taken for a star.
-/

namespace YourSQL.Stored

/-- A tuple with `query_result_`. -/
structure ResultTuple where
  schema : List ColumnEntry
  queryResult : List Value
  deriving DecidableEq

/-- `BoundSelectStatement`, `LogicalSelectPlan` and `CreatePhysicalPlan`, as far as the columns
    of the projection go. -/
def selectPlan (catalog : Catalog) (tableName : List UInt8) (selectList : List Hsql.Expr) :
    Except Fault (List UInt64) := do
  let select ← Binder.boundSelectList catalog tableName (Transformer.transformSelectList selectList)
  return select.map Prod.snd

/-- `ExecutorProjection::Next`. Without columns there is no projection, and no result either. -/
def ExecutorProjection.next (columnIds : List UInt64) (input : Tuple) :
    Except String ResultTuple := do
  let values ← ExecutorProjection.project (input.schema.map ColumnEntry.columnTypes)
    (columnIds.map UInt64.toNat) (input.data.drop REC_HEADER_SIZE)
  return { schema := input.schema, queryResult := values }

/-- A select list of a star, or of names. -/
inductive SelectList where
  | star
  | names (name : List UInt8) (others : List (List UInt8))
  deriving DecidableEq

namespace SelectList

def toExprs : SelectList → List Hsql.Expr
  | star => [.star]
  | names name others => (name :: others).map .columnRef

def Exists (creation : Creation) : SelectList → Prop
  | star => True
  | names name others => ∀ column ∈ name :: others, column ∈ creation.names

/-- The columns that are asked for, by their positions. -/
def positions (creation : Creation) : SelectList → List Nat
  | star => List.range creation.columns.length
  | names name others => (name :: others).map fun column => (creation.indexOf column).getD 0

/-- All columns of the table are asked for, in their order. For a star, columns of one name
    have one value. -/
def InOrder (creation : Creation) (values : List Value) : SelectList → Prop
  | star => creation.names.map (fun name => values.getD (creation.idOf name).toNat .null) = values
  | names name others =>
      (names name others).positions creation = List.range creation.columns.length

end SelectList

/-- Each tuple that comes out has the values of the columns that are asked for, and their
    entries in the same order. -/
def Projects (catalog : Catalog) (creation : Creation) (table : TableEntry) (select : SelectList)
    (data : List UInt8) : Prop :=
  ∃ columnIds, selectPlan catalog creation.name select.toExprs = .ok columnIds ∧
    ∀ values, (Tuple.mk table.getSchema data).values = .ok values →
      ∃ result, ExecutorProjection.next columnIds ⟨table.getSchema, data⟩ = .ok result ∧
        result.queryResult = (select.positions creation).map (fun i => values.getD i .null) ∧
        result.schema.map some = (select.positions creation).map (table.getSchema[·]?)

/-! ## The plan -/

theorem mapM_eq_ok {α β ε : Type} {f : α → Except ε β} {g : α → β} {items : List α}
    (each : ∀ a ∈ items, f a = .ok (g a)) : items.mapM f = .ok (items.map g) := by
  induction items with
  | nil => rfl
  | cons a items ih =>
      rw [List.mapM_cons, each a (List.mem_cons_self ..),
        ih fun b member => each b (List.mem_cons_of_mem _ member)]
      rfl

variable {catalog : Catalog} {creation : Creation} {table : TableEntry}

/-- A star is bound through the names of the columns. -/
theorem boundStarExpression_eq (hasTable : catalog.HasTable creation table) :
    Binder.boundStarExpression catalog creation.name =
      .ok (creation.names.map fun name => (table.id, creation.idOf name)) := by
  rw [Binder.boundStarExpression, hasTable.named]
  dsimp only
  rw [hasTable.found, ← hasTable.made.columnNames, List.map_map]
  refine mapM_eq_ok fun column member => ?_
  have named : column.name ∈ creation.names := by
    rw [← hasTable.made.columnNames]
    exact List.mem_map_of_mem member
  exact Condition.boundColumnRefExpression_of_mem hasTable named

/-- What the projection is told: for a list of one name, all columns. -/
def SelectList.planned (creation : Creation) : SelectList → List UInt64
  | star => creation.names.map creation.idOf
  | names _ [] => creation.names.map creation.idOf
  | names name others => (name :: others).map creation.idOf

theorem transformSelectList_columns (names : List (List UInt8)) :
    Transformer.transformSelectList (names.map .columnRef) = names.map .column := by
  induction names with
  | nil => rfl
  | cons name names ih => exact congrArg (SelectExpression.column name :: ·) ih

theorem selectPlan_eq (hasTable : catalog.HasTable creation table) {select : SelectList}
    (exist : select.Exists creation) :
    selectPlan catalog creation.name select.toExprs = .ok (select.planned creation) := by
  have all : (creation.names.map fun name => (table.id, creation.idOf name)).map Prod.snd =
      creation.names.map creation.idOf := List.map_map
  cases select with
  | star =>
      change (Binder.boundStarExpression catalog creation.name >>= _) = _
      rw [boundStarExpression_eq hasTable]
      exact congrArg Except.ok all
  | names name others =>
      cases others with
      | nil =>
          change (Binder.boundStarExpression catalog creation.name >>= _) = _
          rw [boundStarExpression_eq hasTable]
          exact congrArg Except.ok all
      | cons second others =>
          have bound : Binder.boundSelectList catalog creation.name
              ((name :: second :: others).map .column) =
                .ok ((name :: second :: others).map fun name => (table.id, creation.idOf name)) := by
            unfold Binder.boundSelectList
            rw [if_neg (by simp), List.mapM_map]
            exact mapM_eq_ok fun column member =>
              Condition.boundColumnRefExpression_of_mem hasTable (exist column member)
          unfold selectPlan SelectList.toExprs
          rw [transformSelectList_columns, bound]
          exact congrArg Except.ok List.map_map

/-! ## The result -/

variable {data : List UInt8} {values : List Value}

theorem next_eq (reads : (Tuple.mk table.getSchema data).values = .ok values)
    (columnIds : List UInt64) :
    ExecutorProjection.next columnIds ⟨table.getSchema, data⟩ =
      .ok ⟨table.getSchema, columnIds.map fun columnId => values.getD columnId.toNat .null⟩ := by
  rw [values_eq_deserialize] at reads
  unfold ExecutorProjection.next YourSQL.ExecutorProjection.project
  dsimp only
  rw [reads]
  simp only [bind, Except.bind, pure, Except.pure, List.map_map]
  rfl

theorem toNat_idOf (made : table.Made creation) {name : List UInt8}
    (member : name ∈ creation.names) :
    (creation.idOf name).toNat = (creation.indexOf name).getD 0 ∧
      (creation.indexOf name).getD 0 < table.getSchema.length := by
  obtain ⟨i, last⟩ := Index.lastIndexOf?_isSome member
  have index : creation.indexOf name = some i := last
  have inside := made.indexOf_lt index
  rw [Creation.idOf, index, Option.getD_some]
  exact ⟨made.toNat_ofNat inside, inside⟩

theorem positions_lt (made : table.Made creation) {select : SelectList}
    (exist : select.Exists creation) :
    ∀ i ∈ select.positions creation, i < table.getSchema.length := by
  intro i member
  cases select with
  | star =>
      rw [made.length]
      exact List.mem_range.mp member
  | names name others =>
      obtain ⟨column, listed, rfl⟩ := List.mem_map.mp member
      exact (toNat_idOf made (exist column listed)).2

/-- The schema of the table is the schema of all columns in their order, and of no other list. -/
theorem schema_eq_iff (made : table.Made creation) {positions : List Nat}
    (inside : ∀ i ∈ positions, i < table.getSchema.length) :
    table.getSchema.map some = positions.map (table.getSchema[·]?) ↔
      positions = List.range creation.columns.length := by
  rw [← made.length]
  constructor
  · intro same
    have count := congrArg List.length same
    rw [List.length_map, List.length_map] at count
    refine List.ext_getElem (by rw [List.length_range, count]) fun i here _ => ?_
    have bound : i < table.getSchema.length := by omega
    have entry := congrArg (fun entries => entries[i]?) same
    simp only [List.getElem?_map, List.getElem?_eq_getElem bound, List.getElem?_eq_getElem here,
      Option.map_some, Option.some.injEq] at entry
    have first := (made.column (List.getElem?_eq_getElem bound)).1
    have second := (made.column entry.symm).1
    have ids := congrArg UInt64.toNat (first.symm.trans second)
    rw [made.toNat_ofNat bound, made.toNat_ofNat (inside _ (List.getElem_mem here))] at ids
    rw [List.getElem_range]
    exact ids.symm
  · intro all
    rw [all]
    refine List.ext_getElem? fun i => ?_
    rw [List.getElem?_map, List.getElem?_map]
    cases Nat.lt_or_ge i table.getSchema.length with
    | inl bound =>
        rw [List.getElem?_range bound, List.getElem?_eq_getElem bound]
        simp [List.getElem?_eq_getElem bound]
    | inr beyond => 
        rw [List.getElem?_eq_none beyond, List.getElem?_eq_none (by rwa [List.length_range])]
        rfl

/-- All values in their order. -/
theorem values_range (made : table.Made creation)
    (reads : (Tuple.mk table.getSchema data).values = .ok values) :
    ((List.range creation.columns.length).map fun i => values.getD i .null) = values := by
  have count := (Tuple.typed reads).length_eq
  rw [List.length_map] at count
  have count : creation.columns.length = values.length := made.length ▸ count
  refine List.ext_getElem (by rw [List.length_map, List.length_range, count]) fun i _ here => ?_
  rw [List.getElem_map, List.getElem_range, List.getD_eq_getElem?_getD,
    List.getElem?_eq_getElem here, Option.getD_some]

/-- Names are looked up at the positions of their columns. -/
theorem values_of_names (made : table.Made creation) {names : List (List UInt8)}
    (exist : ∀ name ∈ names, name ∈ creation.names) (values : List Value) :
    ((names.map creation.idOf).map fun columnId => values.getD columnId.toNat .null) =
      (names.map fun name => (creation.indexOf name).getD 0).map fun i => values.getD i .null := by
  rw [List.map_map, List.map_map]
  refine List.map_congr_left fun name member => ?_
  simp only [Function.comp_apply, (toNat_idOf made (exist name member)).1]

/-- A single name that stands for all columns is the name of the only one. -/
theorem names_eq_singleton {name : List UInt8}
    (exist : name ∈ creation.names)
    (only : [(creation.indexOf name).getD 0] = List.range creation.columns.length) :
    creation.names = [name] := by
  have count := congrArg List.length only
  rw [List.length_singleton, List.length_range] at count
  have length : creation.names.length = 1 := by rw [Creation.names, List.length_map, ← count]
  obtain ⟨first, all⟩ := List.length_eq_one_iff.mp length
  rw [all] at exist ⊢
  rw [List.mem_singleton.mp exist]

theorem projects_iff (hasTable : catalog.HasTable creation table) {select : SelectList}
    (exist : select.Exists creation) (data : List UInt8) :
    Projects catalog creation table select data ↔
      ∀ values, (Tuple.mk table.getSchema data).values = .ok values →
        select.InOrder creation values := by
  have made := hasTable.made
  have whole := schema_eq_iff made (positions_lt made exist)
  constructor
  · intro ⟨columnIds, planned, each⟩ values reads
    obtain rfl := Except.ok.inj ((selectPlan_eq hasTable exist).symm.trans planned)
    obtain ⟨result, ran, query, schema⟩ := each values reads
    obtain rfl := Except.ok.inj ((next_eq reads _).symm.trans ran)
    have order := whole.mp schema
    cases select with
    | names name others => exact order
    | star =>
        rw [order, values_range made reads] at query
        exact List.map_map.symm.trans query
  · intro inOrder
    refine ⟨_, selectPlan_eq hasTable exist, fun values reads => ⟨_, next_eq reads _, ?_, ?_⟩⟩
    · have inOrder := inOrder values reads
      cases select with
      | star => 
          rw [SelectList.positions, values_range made reads]
          exact List.map_map.trans inOrder
      | names name others =>
          cases others with
          | nil =>
              have all := names_eq_singleton (exist name (List.mem_singleton_self name)) inOrder
              change ((creation.names.map creation.idOf).map _) = _
              rw [all]
              exact values_of_names made (all ▸ fun _ member => member) values
          | cons second others => exact values_of_names made exist values
    · have inOrder := inOrder values reads
      cases select with
      | star => exact whole.mpr rfl
      | names name others => exact whole.mpr inOrder

theorem projects_iff_pairs :
    Projects (({} : Catalog).addTable pairsTable) pairs pairsTable (.names [105] [[115]])
      pairsRow := by
  have exist : (SelectList.names [105] [[115]]).Exists pairs := by
    change ∀ column ∈ [[105], [115]], column ∈ pairs.names
    decide
  refine (projects_iff hasTable_pairs exist pairsRow).mpr fun values reads => ?_
  change (SelectList.names [105] [[115]]).positions pairs = List.range pairs.columns.length
  decide

/-- The second column alone comes out behind the first one. -/
theorem singleColumn_not_projects :
    ¬ Projects (({} : Catalog).addTable pairsTable) pairs pairsTable (.names [115] []) pairsRow := by
  intro ⟨columnIds, _, each⟩
  have row : (Tuple.mk pairsTable.getSchema pairsRow).values =
      .ok [.of (.int 3), .of (.string [97])] := by decide
  obtain ⟨result, ran, _, schema⟩ := each _ row
  obtain rfl := Except.ok.inj ((next_eq row columnIds).symm.trans ran)
  have lengths : pairsTable.getSchema.length = 1 := by
    have lengths := congrArg List.length schema
    rwa [List.length_map] at lengths
  exact absurd lengths (by decide)

end YourSQL.Stored
