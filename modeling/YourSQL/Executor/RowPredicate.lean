import YourSQL.Executor.Execute
import YourSQL.Planner.WhereMeaning

/-! # What WHERE sees of a row, and what the projection shows

`PhysicalColumnExpression` and `ExecutorProjection` decode the same tuple. The former puts the
default value of the column in place of NULL, so that the three-valued logic above it has no
NULL to work with.
-/

namespace YourSQL.Stored

/-- WHERE as the executors take it, from the bytes behind the record header. -/
def PhysicalExpression.filter (schema : List ColumnEntry) (expression : PhysicalExpression) :
    Filter := fun payload =>
  expression.evaluateWith fun columnId => do
    getValue schema (← Row.deserialize (schema.map ColumnEntry.columnTypes) payload) columnId

/-- `ExecutorFilter::Next` takes the value of a candidate for a truth value, also if it is
    NULL. -/
def ExecutorFilter.passes (filter : Filter) (payload : List UInt8) : Except String Bool := do
  (← filter payload).getBool

/-- A column as `ExecutorProjection` puts it out. -/
def projected (schema : List ColumnEntry) (payload : List UInt8) (columnId : UInt64) :
    Except String Value := do
  let values ← ExecutorProjection.project (schema.map ColumnEntry.columnTypes) [columnId.toNat] payload
  return values.headD .null

/-- A tree over the columns of a table, whose constants are not NULL. -/
def PhysicalExpression.Over (columns : Nat) : PhysicalExpression → Prop
  | .column _ columnId => columnId.toNat < columns
  | .constant value => value.isNull = false
  | .binary _ left right => left.Over columns ∧ right.Over columns

/-- The filter reads the columns as they are put out, a comparison with a column that is NULL is
    NULL, and above it the three-valued logic decides: a row is selected, deleted or updated if
    the tree is TRUE of the columns that are put out, and only then. -/
structure Agrees (schema : List ColumnEntry) (data : List UInt8) : Prop where
  columns : ∀ i < schema.length,
    PhysicalColumnExpression.evaluate ⟨schema, data⟩ (UInt64.ofNat i) =
      projected schema (data.drop REC_HEADER_SIZE) (UInt64.ofNat i)
  comparisons : ∀ i < schema.length,
    projected schema (data.drop REC_HEADER_SIZE) (UInt64.ofNat i) = .ok .null →
    ∀ (tableId : UInt64) (comparison : Comparison) (constant : Value), constant.isNull = false →
      (PhysicalExpression.binary comparison.op (.column tableId (UInt64.ofNat i))
        (.constant constant)).evaluate ⟨schema, data⟩ = .ok .null ∧
      (PhysicalExpression.binary comparison.op (.constant constant)
        (.column tableId (UInt64.ofNat i))).evaluate ⟨schema, data⟩ = .ok .null
  logic : ∀ expression : PhysicalExpression, expression.Over schema.length →
    expression.evaluate ⟨schema, data⟩ =
      expression.evaluateWith (projected schema (data.drop REC_HEADER_SIZE))
  chosen : ∀ expression : PhysicalExpression, expression.Over schema.length →
    let holds := expression.evaluateWith (projected schema (data.drop REC_HEADER_SIZE)) =
      .ok (.of (.bool true))
    (ExecutorFilter.passes (expression.filter schema) (data.drop REC_HEADER_SIZE) = .ok true ↔
      holds) ∧
    (matchesFilter (some (expression.filter schema)) (data.drop REC_HEADER_SIZE) = .ok true ↔ holds)

/-- No column of the tuple is NULL. -/
def NullFree (tuple : Tuple) : Prop :=
  ∀ values, tuple.values = .ok values → ∀ value ∈ values, value.isNull = false

/-! ## Reading a column -/

variable {schema : List ColumnEntry} {data : List UInt8}

theorem values_eq_deserialize (schema : List ColumnEntry) (data : List UInt8) :
    (Tuple.mk schema data).values =
      Row.deserialize (schema.map ColumnEntry.columnTypes) (data.drop REC_HEADER_SIZE) := by
  unfold Tuple.values Row.deserializeRecord
  dsimp only
  cases Row.deserialize (schema.map ColumnEntry.columnTypes) (data.drop REC_HEADER_SIZE) <;> rfl

/-- The filter of the executors is `Evaluate`. -/
theorem filter_eq_evaluate (expression : PhysicalExpression) (schema : List ColumnEntry)
    (data : List UInt8) :
    expression.filter schema (data.drop REC_HEADER_SIZE) = expression.evaluate ⟨schema, data⟩ := by
  unfold PhysicalExpression.filter PhysicalExpression.evaluate PhysicalColumnExpression.evaluate
  rw [values_eq_deserialize]

theorem projected_eq (columnId : UInt64) :
    projected schema (data.drop REC_HEADER_SIZE) columnId =
      (Tuple.mk schema data).values.map fun values => values.getD columnId.toNat .null := by
  rw [values_eq_deserialize, projected, ExecutorProjection.project]
  cases Row.deserialize (schema.map ColumnEntry.columnTypes) (data.drop REC_HEADER_SIZE) <;> rfl

theorem evaluate_column_eq {columnId : UInt64} (inside : columnId.toNat < schema.length) :
    PhysicalColumnExpression.evaluate ⟨schema, data⟩ columnId =
      (Tuple.mk schema data).values.map fun values =>
        let value := values.getD columnId.toNat .null
        if value.isNull then schema[columnId.toNat].defaultValue else value := by
  rw [PhysicalColumnExpression.evaluate]
  cases (Tuple.mk schema data).values with
  | error message => rfl
  | ok values =>
      change getValue schema values columnId = _
      rw [getValue, List.getElem?_eq_getElem inside]
      rfl

/-- Where no column is NULL, both read the same. -/
theorem NullFree.evaluate_eq_projected (nullFree : NullFree ⟨schema, data⟩) {columnId : UInt64}
    (inside : columnId.toNat < schema.length) :
    PhysicalColumnExpression.evaluate ⟨schema, data⟩ columnId =
      projected schema (data.drop REC_HEADER_SIZE) columnId := by
  rw [evaluate_column_eq inside, projected_eq]
  cases reads : (Tuple.mk schema data).values with
  | error message => rfl
  | ok values =>
      have given := nullFree values reads _ (Tuple.value_typed reads inside).1
      simp only [Except.map, given, Bool.false_eq_true, if_false]

/-! ## Trees -/

/-- The value of a tree depends on how its own columns are read. -/
theorem evaluateWith_congr {columns : Nat} {read read' : UInt64 → Except String Value}
    (same : ∀ columnId : UInt64, columnId.toNat < columns → read columnId = read' columnId)
    {expression : PhysicalExpression} (covered : expression.Over columns) :
    expression.evaluateWith read = expression.evaluateWith read' := by
  induction expression with
  | column tableId columnId => exact same columnId covered
  | constant value => rfl
  | binary op left right leftIh rightIh =>
      simp only [PhysicalExpression.evaluateWith, leftIh covered.1, rightIh covered.2]

/-- If it returns NULL, then NULL in its one form. -/
def OneNull (result : Except String Value) : Prop :=
  ∀ value, result = .ok value → value.isNull = true → value = .null

namespace OneNull

theorem error (message : String) : OneNull (.error message) := nofun

theorem of (val : Variant) : OneNull (.ok (.of val)) := by
  intro value returned isNull
  cases returned
  cases isNull

theorem null : OneNull (.ok .null) := by
  intro value returned _
  exact (Except.ok.inj returned).symm

theorem bind {α : Type} {x : Except String α} {f : α → Except String Value}
    (rest : ∀ a, OneNull (f a)) : OneNull (x >>= f) := by
  cases x with
  | error message => exact error message
  | ok a => exact rest a

theorem ite {condition : Prop} [Decidable condition] {x y : Except String Value}
    (yes : OneNull x) (no : OneNull y) : OneNull (if condition then x else y) := by
  split
  · exact yes
  · exact no

end OneNull

theorem oneNull_evaluateLogical (op : BinaryOp) (leftVal rightVal : Value) :
    OneNull (PhysicalBinaryExpression.evaluateLogical op leftVal rightVal) := by
  have last : ∀ b, OneNull (pure (if leftVal.isNull || rightVal.isNull then .null
      else .of (.bool b))) := by
    intro b
    split
    · exact .null
    · exact .of _
  unfold PhysicalBinaryExpression.evaluateLogical
  split
  · refine .bind fun settled => ?_
    split
    · exact .of _
    · refine .bind fun settled => ?_
      split
      · exact .of _
      · exact last _
  · refine .bind fun settled => ?_
    split
    · exact .of _
    · refine .bind fun settled => ?_
      split
      · exact .of _
      · exact last _

theorem oneNull_evaluate (op : BinaryOp) (leftVal rightVal : Value) :
    OneNull (PhysicalBinaryExpression.evaluate op leftVal rightVal) := by
  unfold PhysicalBinaryExpression.evaluate
  split
  · exact oneNull_evaluateLogical op leftVal rightVal
  · split
    · exact .null
    · split
      · refine .bind fun lStr => .bind fun rStr => ?_
        cases op <;> first | exact .of _ | exact .error _
      · unfold PhysicalBinaryExpression.evaluateArithmeticOrComparison
        split
        · cases op with
          | de => exact .ite (.error _) (.of _)
          | _ => first | exact .of _ | exact .error _
        · cases op <;> first | exact .of _ | exact .error _
        · split
          · cases op with
            | de => exact .ite (.error _) (.of _)
            | _ => first | exact .of _ | exact .error _
          · exact .error _

theorem oneNull_evaluateWith {columns : Nat} {read : UInt64 → Except String Value}
    (reads : ∀ columnId : UInt64, columnId.toNat < columns → OneNull (read columnId))
    {expression : PhysicalExpression} (covered : expression.Over columns) :
    OneNull (expression.evaluateWith read) := by
  cases expression with
  | column tableId columnId => exact reads columnId covered
  | constant value =>
      intro value' returned isNull
      obtain rfl := Except.ok.inj returned
      rw [PhysicalExpression.Over, isNull] at covered
      cases covered
  | binary op left right =>
      exact .bind fun leftVal => .bind fun rightVal => oneNull_evaluate op leftVal rightVal

theorem oneNull_projected (columnId : UInt64) (inside : columnId.toNat < schema.length) :
    OneNull (projected schema (data.drop REC_HEADER_SIZE) columnId) := by
  rw [projected_eq]
  cases reads : (Tuple.mk schema data).values with
  | error message => exact .error message
  | ok values =>
      intro value returned isNull
      obtain rfl := Except.ok.inj returned
      cases (Tuple.value_typed reads inside).2 with
      | inl isValue => exact isValue
      | inr given =>
          dsimp only at isNull
          rw [given.1] at isNull
          cases isNull

/-! ## What is chosen -/

theorem getBool_eq_true {value : Value} : value.getBool = .ok true ↔ value.val = .bool true := by
  unfold Value.getBool
  cases value.val with
  | bool val => cases val <;> simp
  | _ => simp

theorem eq_of_true {value : Value} :
    value = .of (.bool true) ↔ value.isNull = false ∧ value.val = .bool true := by
  obtain ⟨isNull, val⟩ := value
  exact Value.mk.injEq .. ▸ Iff.rfl

theorem passes_iff {filter : Filter} {payload : List UInt8} (oneNull : OneNull (filter payload)) :
    ExecutorFilter.passes filter payload = .ok true ↔ filter payload = .ok (.of (.bool true)) := by
  unfold ExecutorFilter.passes
  cases evaluated : filter payload with
  | error message => exact iff_of_false nofun nofun
  | ok value =>
      change value.getBool = .ok true ↔ _
      rw [getBool_eq_true, Except.ok.injEq, eq_of_true]
      refine ⟨fun isTrue => ⟨?_, isTrue⟩, And.right⟩
      cases isNull : value.isNull with
      | false => rfl
      | true =>
          rw [oneNull value evaluated isNull] at isTrue
          cases isTrue

theorem matchesFilter_iff {filter : Filter} {payload : List UInt8} :
    matchesFilter (some filter) payload = .ok true ↔ filter payload = .ok (.of (.bool true)) := by
  unfold matchesFilter
  dsimp only
  cases filter payload with
  | error message => exact iff_of_false nofun nofun
  | ok value =>
      change (if value.isNull then .ok false else value.getBool) = .ok true ↔ _
      rw [Except.ok.injEq, eq_of_true]
      cases value.isNull with
      | true => simp
      | false => simp [getBool_eq_true]

/-! ## Agreement -/

theorem toNat_ofNat_of_few (few : schema.length < 2 ^ 64) {i : Nat} (inside : i < schema.length) :
    (UInt64.ofNat i).toNat = i := by
  rw [UInt64.toNat_ofNat', Nat.mod_eq_of_lt (by omega)]

theorem NullFree.agrees (nullFree : NullFree ⟨schema, data⟩) (few : schema.length < 2 ^ 64) :
    Agrees schema data where
  columns i inside := by
    have id := toNat_ofNat_of_few few inside
    exact nullFree.evaluate_eq_projected (by rwa [id])
  comparisons i inside isNull := by
    have id := toNat_ofNat_of_few few inside
    rw [projected_eq, id] at isNull
    cases reads : (Tuple.mk schema data).values with
    | error message =>
        rw [reads] at isNull
        cases isNull
    | ok values =>
        rw [reads] at isNull
        have given := nullFree values reads _ (Tuple.value_typed reads inside).1
        have null : values.getD i .null = .null := Except.ok.inj isNull
        rw [null] at given
        cases given
  logic expression covered := evaluateWith_congr (fun _ => nullFree.evaluate_eq_projected) covered
  chosen expression covered := by
    have evaluated := filter_eq_evaluate expression schema data
    have same := evaluateWith_congr (fun _ => nullFree.evaluate_eq_projected) covered
    have oneNull : OneNull (expression.filter schema (data.drop REC_HEADER_SIZE)) := by
      rw [evaluated, PhysicalExpression.evaluate, same]
      exact oneNull_evaluateWith oneNull_projected covered
    rw [passes_iff oneNull, matchesFilter_iff, evaluated, PhysicalExpression.evaluate, same]
    exact ⟨Iff.rfl, Iff.rfl⟩

variable {creation : Creation} {table : TableEntry}

/-- The default value stands where the projection has NULL. -/
theorem Agrees.nullFree (made : table.Made creation) (agrees : Agrees table.getSchema data) :
    NullFree ⟨table.getSchema, data⟩ := by
  intro values reads value member
  obtain ⟨i, inValues, rfl⟩ := List.getElem_of_mem member
  have count := (Tuple.typed reads).length_eq
  rw [List.length_map] at count
  have inside : i < table.getSchema.length := count ▸ inValues
  have id := made.toNat_ofNat inside
  have same := agrees.columns i inside
  rw [evaluate_column_eq (by rwa [id]), projected_eq, reads] at same
  have value : values.getD i .null = values[i] := by
    rw [List.getD_eq_getElem?_getD, List.getElem?_eq_getElem inValues, Option.getD_some]
  simp only [Except.map, id, value, Except.ok.injEq] at same
  cases isNull : values[i].isNull with
  | false => rfl
  | true =>
      rw [isNull, if_pos rfl] at same
      obtain ⟨-, type, -, named, accepted⟩ := made.column (List.getElem?_eq_getElem inside)
      have given := (defaultValueOf_of_accepted accepted named).1
      change (ColumnEntry.defaultValue _).isNull = false at given
      rw [same, isNull] at given
      cases given

theorem agrees_iff_nullFree (made : table.Made creation) (data : List UInt8) :
    Agrees table.getSchema data ↔ NullFree ⟨table.getSchema, data⟩ := by
  constructor
  · exact Agrees.nullFree made
  · intro nullFree
    have few := creation.few
    exact nullFree.agrees (by rwa [made.length])

theorem agrees_iff_nullFree_pairs : Agrees pairsTable.getSchema pairsRow := by
  refine (agrees_iff_nullFree hasTable_pairs.made pairsRow).mpr ?_
  intro values reads
  have row : (Tuple.mk pairsTable.getSchema pairsRow).values =
      .ok [.of (.int 3), .of (.string [97])] := by decide
  obtain rfl := Except.ok.inj (row.symm.trans reads)
  decide

/-- The integer is NULL, and WHERE reads a zero. -/
theorem nullRow_not_agrees :
    ¬ Agrees pairsTable.getSchema (List.replicate 22 0 ++ [48, 48]) := by
  intro agrees
  exact absurd (agrees.columns 0 (by decide)) (by decide)

end YourSQL.Stored
