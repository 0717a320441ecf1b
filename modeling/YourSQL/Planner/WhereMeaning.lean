import YourSQL.Planner.Conditions

/-! # What becomes of a WHERE

The three translations on the way from the parser to an expression that is evaluated on each
tuple. Literals are cut to 32 bits on that way, and a NULL is read as the default value of its
column.
-/

namespace YourSQL.Stored

namespace Creation

/-- The type of a column; both kinds of strings are one type. -/
def typeOf (creation : Creation) (name : List UInt8) : Option ColumnTypes := do
  let index ← creation.indexOf name
  let (_, type) ← creation.columns[index]?
  let columnTypes ← columnTypeOf type
  return if columnTypes = .varchar2 then .varchar else columnTypes

/-- The id of the column that has the name. -/
def idOf (creation : Creation) (name : List UInt8) : UInt64 :=
  UInt64.ofNat ((creation.indexOf name).getD 0)

/-- The columns of a tuple, as they are read: none of those of a tuple that cannot be read. -/
def cells (creation : Creation) (values : Except String (List Value)) (name : List UInt8) :
    Outcome :=
  match creation.indexOf name, values with
  | some index, .ok values => .of (values.getD index .null)
  | _, _ => .mismatch

/-- The same columns, with the default values in place of NULL. -/
def filledCells (creation : Creation) (values : Except String (List Value)) (name : List UInt8) :
    Outcome :=
  match creation.cells values name with
  | .null =>
      match (creation.indexOf name).bind (creation.columns[·]?) with
      | some (_, type) => .value (defaultValueOf ((columnTypeOf type).getD .invalid)).val
      | none => .null
  | outcome => outcome

end Creation

/-! ## The three translations -/

/-- `transformWhere`, `BoundCompExpression` and `TransformExpression`, one after the other. -/
def whereExpression (catalog : Catalog) (tableName : List UInt8) (expr : Hsql.Expr) :
    Except Fault PhysicalExpression := do
  let parserWhere ← (Transformer.transformWhere expr).mapError Fault.message
  let table ← Binder.boundTableRefExpression catalog tableName
  let bound ← Binder.boundCompExpression catalog table parserWhere
  Planner.transformExpression bound

/-- The statement is refused, or its literals stay what they are and the expression has the
    value that the condition has on the tuple, or it throws and the types do not fit. -/
def Preserved (catalog : Catalog) (creation : Creation) (table : TableEntry)
    (condition : Condition) (data : List UInt8) : Prop :=
  let tuple : Tuple := ⟨table.getSchema, data⟩
  match whereExpression catalog creation.name condition.toExpr with
  | .error (.exception _) => True
  | .error .nullPointer => False
  | .ok expression =>
      expression.constants = condition.literals ∧
        match expression.evaluate tuple with
        | .ok value => condition.eval (creation.cells tuple.values) = .of value
        | .error _ => condition.typeOf creation.typeOf = none

/-- With the default values in place of NULL the condition is as it was, or it has no meaning
    and is ill-typed. -/
def Unaffected (creation : Creation) (condition : Condition)
    (values : Except String (List Value)) : Prop :=
  match condition.eval (creation.filledCells values) with
  | .mismatch => condition.typeOf creation.typeOf = none
  | outcome => condition.eval (creation.cells values) = outcome


/-! ## One operator -/

/-- What a computed value says; an exception says that the types do not fit. -/
def Outcome.ofResult : Except String Value → Outcome
  | .ok result => .of result
  | .error _ => .mismatch

/-- Whether an operand settles the connective by itself. -/
def settles (connective : Connective) (operand : Outcome) : Except String Bool :=
  match operand with
  | .null => .ok false
  | .value (.bool val) => .ok (val == connective.decisive)
  | _ => .error Value.badVariantAccess

theorem isFalse_eq (value : Value) :
    PhysicalBinaryExpression.isFalse value = settles .and (.of value) := by
  obtain ⟨isNull, val⟩ := value
  cases isNull with
  | true => rfl
  | false =>
      cases val with
      | bool val => cases val <;> rfl
      | _ => rfl

theorem isTrue_eq (value : Value) :
    PhysicalBinaryExpression.isTrue value = settles .or (.of value) := by
  obtain ⟨isNull, val⟩ := value
  cases isNull with
  | true => rfl
  | false =>
      cases val with
      | bool val => cases val <;> rfl
      | _ => rfl

theorem of_eq_null (value : Value) : Outcome.of value = .null ↔ value.isNull = true := by
  unfold Outcome.of
  cases value.isNull <;> simp

/-- Both connectives ask the left operand first, then the right one. -/
theorem evaluate_connective (connective : Connective) (left right : Value) :
    PhysicalBinaryExpression.evaluate connective.op left right = do
      if ← settles connective (.of left) then return .of (.bool connective.decisive)
      if ← settles connective (.of right) then return .of (.bool connective.decisive)
      return if Outcome.of left = .null ∨ Outcome.of right = .null then .null
        else .of (.bool !connective.decisive) := by
  have nulls : (Outcome.of left = .null ∨ Outcome.of right = .null) ↔
      (left.isNull || right.isNull) = true := by
    rw [of_eq_null, of_eq_null, Bool.or_eq_true]
  simp only [nulls]
  cases connective with
  | and => rw [← isFalse_eq, ← isFalse_eq]; rfl
  | or => rw [← isTrue_eq, ← isTrue_eq]; rfl

theorem ofResult_connective (connective : Connective) (left right : Value) :
    Outcome.ofResult (PhysicalBinaryExpression.evaluate connective.op left right) =
      Outcome.connect connective (.of left) (.of right) := by
  have given : ∀ operand : Value, Outcome.of operand ≠ .mismatch := by
    intro operand
    unfold Outcome.of
    cases operand.isNull <;> simp
  have leftGiven := given left
  have rightGiven := given right
  rw [evaluate_connective]
  generalize Outcome.of left = l at leftGiven ⊢
  generalize Outcome.of right = r at rightGiven ⊢
  cases r with
  | mismatch => exact absurd rfl rightGiven
  | null =>
      cases l with
      | mismatch => exact absurd rfl leftGiven
      | null => rfl
      | value l =>
          cases l with
          | bool a => cases connective <;> cases a <;> rfl
          | _ => rfl
  | value r =>
      cases l with
      | mismatch => exact absurd rfl leftGiven
      | null =>
          cases r with
          | bool b => cases connective <;> cases b <;> rfl
          | _ => rfl
      | value l =>
          cases l with
          | bool a =>
              cases r with
              | bool b => cases connective <;> cases a <;> cases b <;> rfl
              | _ => cases connective <;> cases a <;> rfl
          | _ => cases r <;> rfl

theorem ofResult_comparison (comparison : Comparison) {left right : Value}
    (leftPlain : (Outcome.of left).Plain) (rightPlain : (Outcome.of right).Plain) :
    Outcome.ofResult (PhysicalBinaryExpression.evaluate comparison.op left right) =
      Outcome.compare comparison (.of left) (.of right) := by
  obtain ⟨leftNull, leftVal⟩ := left
  obtain ⟨rightNull, rightVal⟩ := right
  cases leftNull with
  | true => cases comparison <;> cases rightNull <;> rfl
  | false =>
      cases rightNull with
      | true => cases comparison <;> rfl
      | false =>
          cases leftVal with
          | double bits => exact absurd rfl (leftPlain bits)
          | int x =>
              cases rightVal with
              | double bits => exact absurd rfl (rightPlain bits)
              | _ => cases comparison <;> rfl
          | string x =>
              cases rightVal with
              | double bits => exact absurd rfl (rightPlain bits)
              | _ => cases comparison <;> rfl
          | bool x => cases rightVal <;> cases comparison <;> rfl
          | longLong x => cases rightVal <;> cases comparison <;> rfl

/-! ## The whole tree -/

namespace Condition

/-- The expression that is evaluated in the end. -/
def compiled (tableId : UInt64) (resolve : List UInt8 → UInt64) : Condition → PhysicalExpression
  | connect connective left right =>
      .binary connective.op (left.compiled tableId resolve) (right.compiled tableId resolve)
  | compare comparison left right =>
      .binary comparison.op (left.compiled tableId resolve) (right.compiled tableId resolve)
  | column name => .column tableId (resolve name)
  | string val => .constant (.of (.string val))
  | int val => .constant (.of (.int val.toInt32.toInt))

variable {tableId : UInt64} {resolve : List UInt8 → UInt64}

theorem toInt32_eq_iff (val : Int64) :
    val.toInt32.toInt = val.toInt ↔ -2 ^ 31 ≤ val.toInt ∧ val.toInt < 2 ^ 31 := by
  rw [Int64.toInt_toInt32]
  constructor
  · intro same
    have low := @Int.le_bmod val.toInt (2 ^ 32) (by decide)
    have high := @Int.bmod_lt val.toInt (2 ^ 32) (by decide)
    rw [same] at low high
    exact ⟨low, high⟩
  · intro ⟨low, high⟩
    exact Int.bmod_eq_of_le low high

theorem length_constants_compiled (condition : Condition) :
    (condition.compiled tableId resolve).constants.length = condition.literals.length := by
  induction condition with
  | connect _ left right leftIh rightIh =>
      simp only [compiled, PhysicalExpression.constants, literals, List.length_append, leftIh, rightIh]
  | compare _ left right leftIh rightIh =>
      simp only [compiled, PhysicalExpression.constants, literals, List.length_append, leftIh, rightIh]
  | column name => simp only [compiled, PhysicalExpression.constants, literals]
  | string val => simp only [compiled, PhysicalExpression.constants, literals]
  | int val => simp only [compiled, PhysicalExpression.constants, literals, List.length_singleton]

/-- Two lists of literals one behind the other. -/
theorem constants_append {left right : Condition} :
    (left.compiled tableId resolve).constants ++ (right.compiled tableId resolve).constants =
        left.literals ++ right.literals ↔
      (left.compiled tableId resolve).constants = left.literals ∧
        (right.compiled tableId resolve).constants = right.literals := by
  constructor
  · intro same
    exact List.append_inj same (length_constants_compiled left)
  · intro ⟨leftSame, rightSame⟩
    rw [leftSame, rightSame]

/-- The literals stay what they are if each integer is an `int`, and only then. -/
theorem constants_compiled (condition : Condition) :
    (condition.compiled tableId resolve).constants = condition.literals ↔ condition.Narrow := by
  induction condition with
  | connect _ left right leftIh rightIh =>
      exact constants_append.trans (and_congr leftIh rightIh)
  | compare _ left right leftIh rightIh =>
      exact constants_append.trans (and_congr leftIh rightIh)
  | column name => exact iff_of_true rfl trivial
  | string val => exact iff_of_true rfl trivial
  | int val =>
      simp only [compiled, PhysicalExpression.constants, literals, Narrow, ← toInt32_eq_iff]
      simp [Value.of]

/-- Each column of the condition is read as its cell. -/
def ReadsAs (condition : Condition) (read : UInt64 → Except String Value)
    (resolve : List UInt8 → UInt64) (cell : List UInt8 → Outcome) : Prop :=
  ∀ name ∈ condition.columns,
    Outcome.ofResult (read (resolve name)) = cell name ∧ (cell name).Plain

/-- The expression means what the condition means. -/
theorem ofResult_compiled {read : UInt64 → Except String Value} {cell : List UInt8 → Outcome}
    (condition : Condition) (narrow : condition.Narrow)
    (reads : condition.ReadsAs read resolve cell) :
    Outcome.ofResult ((condition.compiled tableId resolve).evaluateWith read) =
      condition.eval cell := by
  induction condition with
  | connect connective left right leftIh rightIh =>
      have leftMeans := leftIh narrow.1 fun name member => reads name (List.mem_append_left _ member)
      have rightMeans := rightIh narrow.2
        fun name member => reads name (List.mem_append_right _ member)
      simp only [compiled, PhysicalExpression.evaluateWith, eval, ← leftMeans, ← rightMeans]
      cases (left.compiled tableId resolve).evaluateWith read with
      | error message => rfl
      | ok leftVal =>
          cases (right.compiled tableId resolve).evaluateWith read with
          | error message => exact (connect_mismatch connective _).symm
          | ok rightVal => exact ofResult_connective connective leftVal rightVal
  | compare comparison left right leftIh rightIh =>
      have leftReads : left.ReadsAs read resolve cell := fun name member =>
        reads name (List.mem_append_left _ member)
      have rightReads : right.ReadsAs read resolve cell := fun name member =>
        reads name (List.mem_append_right _ member)
      have leftMeans := leftIh narrow.1 leftReads
      have rightMeans := rightIh narrow.2 rightReads
      have leftPlain := eval_plain left fun name member => (leftReads name member).2
      have rightPlain := eval_plain right fun name member => (rightReads name member).2
      simp only [compiled, PhysicalExpression.evaluateWith, eval]
      rw [← leftMeans, ← rightMeans]
      rw [← leftMeans] at leftPlain
      rw [← rightMeans] at rightPlain
      cases leftRead : (left.compiled tableId resolve).evaluateWith read with
      | error message => rfl
      | ok leftVal =>
          cases rightRead : (right.compiled tableId resolve).evaluateWith read with
          | error message => exact (compare_mismatch comparison _).symm
          | ok rightVal =>
              rw [leftRead] at leftPlain
              rw [rightRead] at rightPlain
              exact ofResult_comparison comparison leftPlain rightPlain
  | column name => exact (reads name (List.mem_singleton_self name)).1
  | string val => rfl
  | int val =>
      have same := (toInt32_eq_iff val).mpr narrow
      simp only [compiled, same]
      rfl

/-! ## The compiler -/

section

variable {catalog : Catalog} {creation : Creation} {table : TableEntry}

/-- A name of the table is resolved to the id of its column. -/
theorem boundColumnRefExpression_of_mem (hasTable : catalog.HasTable creation table)
    {name : List UInt8} (member : name ∈ creation.names) :
    Binder.boundColumnRefExpression catalog creation.name name =
      .ok (table.id, creation.idOf name) := by
  obtain ⟨index, last⟩ := Index.lastIndexOf?_isSome member
  have index : creation.indexOf name = some index := last
  have found := hasTable.made.named name _ index
  simp only [Binder.boundColumnRefExpression, hasTable.named, hasTable.found, found,
    Creation.idOf, index, Option.getD_some]

theorem transformOperator_connective (connective : Connective) (left right : BaseExpression) :
    Transformer.transformOperator connective.opType (.ok left) (.ok right) =
      .ok (.binary left right connective.op) := by
  cases connective <;> rfl

theorem transformOperator_comparison (comparison : Comparison) (left right : BaseExpression) :
    Transformer.transformOperator comparison.opType (.ok left) (.ok right) =
      .ok (.binary left right comparison.op) := by
  cases comparison <;> rfl

/-- The three translations leave the shape of the tree as it is. -/
theorem translated (hasTable : catalog.HasTable creation table) (condition : Condition)
    (exist : ∀ name ∈ condition.columns, name ∈ creation.names) :
    ∃ base bound, Transformer.transformWhere condition.toExpr = .ok base ∧
      Binder.boundCompExpression catalog ⟨table.id, creation.name⟩ base = .ok bound ∧
      Planner.transformExpression bound =
        .ok (condition.compiled table.id creation.idOf) := by
  induction condition with
  | connect connective left right leftIh rightIh =>
      obtain ⟨leftBase, leftBound, leftParsed, leftBinds, leftPlanned⟩ :=
        leftIh fun name member => exist name (List.mem_append_left _ member)
      obtain ⟨rightBase, rightBound, rightParsed, rightBinds, rightPlanned⟩ :=
        rightIh fun name member => exist name (List.mem_append_right _ member)
      refine ⟨.binary leftBase rightBase connective.op,
        .binary connective.op leftBound rightBound, ?_, ?_, ?_⟩
      · rw [toExpr, Transformer.transformWhere, leftParsed, rightParsed]
        exact transformOperator_connective connective leftBase rightBase
      · cases connective <;>
          simp only [Connective.op, Binder.boundCompExpression, leftBinds, rightBinds] <;> rfl
      · rw [Planner.transformExpression, leftPlanned, rightPlanned]
        rfl
  | compare comparison left right leftIh rightIh =>
      obtain ⟨leftBase, leftBound, leftParsed, leftBinds, leftPlanned⟩ :=
        leftIh fun name member => exist name (List.mem_append_left _ member)
      obtain ⟨rightBase, rightBound, rightParsed, rightBinds, rightPlanned⟩ :=
        rightIh fun name member => exist name (List.mem_append_right _ member)
      refine ⟨.binary leftBase rightBase comparison.op,
        .binary comparison.op leftBound rightBound, ?_, ?_, ?_⟩
      · rw [toExpr, Transformer.transformWhere, leftParsed, rightParsed]
        exact transformOperator_comparison comparison leftBase rightBase
      · cases comparison <;>
          simp only [Comparison.op, Binder.boundCompExpression, leftBinds, rightBinds] <;> rfl
      · rw [Planner.transformExpression, leftPlanned, rightPlanned]
        rfl
  | column name =>
      refine ⟨_, .columnRef table.id (creation.idOf name), rfl, ?_, rfl⟩
      rw [Binder.boundCompExpression,
        boundColumnRefExpression_of_mem hasTable (exist name (List.mem_singleton_self name))]
      rfl
  | string val => exact ⟨_, _, rfl, rfl, rfl⟩
  | int val => exact ⟨_, _, rfl, rfl, rfl⟩

theorem whereExpression_toExpr (hasTable : catalog.HasTable creation table) (condition : Condition)
    (exist : ∀ name ∈ condition.columns, name ∈ creation.names) :
    whereExpression catalog creation.name condition.toExpr =
      .ok (condition.compiled table.id creation.idOf) := by
  obtain ⟨base, bound, parsed, binds, planned⟩ := translated hasTable condition exist
  have tableRef : Binder.boundTableRefExpression catalog creation.name =
      .ok ⟨table.id, creation.name⟩ := by
    rw [Binder.boundTableRefExpression, hasTable.named]
  rw [whereExpression, parsed, tableRef]
  change (Binder.boundCompExpression catalog ⟨table.id, creation.name⟩ base >>=
    Planner.transformExpression) = _
  rw [binds]
  exact planned

end

end Condition

/-! ## Columns of a tuple -/

/-- The alternative that `Deserialize` takes for a type. -/
def HasType : ColumnTypes → Variant → Prop
  | .bool, .bool _ => True
  | .integer, .int _ => True
  | .timestamp, .longLong _ => True
  | .varchar, .string _ => True
  | _, _ => False

/-- NULL, or a value of the column's type. -/
def Typed (type : ColumnTypes) (value : Value) : Prop :=
  value = .null ∨ value.isNull = false ∧ HasType type value.val

theorem typed_of_readValue {payload : List UInt8} {offset : Nat} {type : ColumnTypes}
    {read : Value × Nat} (reads : Row.readValue payload offset type = .ok read) :
    Typed type read.1 := by
  cases type with
  | bool => cases reads; exact .inr ⟨rfl, trivial⟩
  | integer => cases reads; exact .inr ⟨rfl, trivial⟩
  | timestamp => cases reads; exact .inr ⟨rfl, trivial⟩
  | varchar => cases reads; exact .inr ⟨rfl, trivial⟩
  | _ => cases reads

theorem typed_of_readValues {payload : List UInt8} {types : List ColumnTypes} {index offset : Nat}
    {values : List Value} (reads : Row.readValues payload index offset types = .ok values) :
    List.Forall₂ Typed types values := by
  induction types generalizing index offset values with
  | nil =>
      cases reads
      exact .nil
  | cons type types ih =>
      rw [Row.readValues] at reads
      split at reads
      · obtain ⟨rest, others, returned⟩ := Except.bind_eq_ok.mp reads
        cases returned
        exact .cons (.inl rfl) (ih others)
      · obtain ⟨read, first, later⟩ := Except.bind_eq_ok.mp reads
        obtain ⟨rest, others, returned⟩ := Except.bind_eq_ok.mp later
        cases returned
        exact .cons (typed_of_readValue first) (ih others)

/-- A tuple that can be read has a value for each column. -/
theorem Tuple.typed {tuple : Tuple} {values : List Value} (reads : tuple.values = .ok values) :
    List.Forall₂ Typed (tuple.schema.map ColumnEntry.columnTypes) values := by
  obtain ⟨⟨header, values'⟩, record, returned⟩ := Except.bind_eq_ok.mp reads
  obtain ⟨values'', read, paired⟩ := Except.bind_eq_ok.mp record
  cases returned
  cases paired
  exact typed_of_readValues read

theorem Tuple.value_typed {schema : List ColumnEntry} {data : List UInt8} {values : List Value}
    (reads : (Tuple.mk schema data).values = .ok values) {i : Nat} (inside : i < schema.length) :
    values.getD i .null ∈ values ∧ Typed schema[i].columnTypes (values.getD i .null) := by
  have typed := Tuple.typed reads
  have count : schema.length = values.length := by
    have length := typed.length_eq
    rwa [List.length_map] at length
  have value : values.getD i .null = values[i] := by
    rw [List.getD_eq_getElem?_getD, List.getElem?_eq_getElem (by omega), Option.getD_some]
  rw [value]
  refine ⟨List.getElem_mem .., ?_⟩
  have each := List.Forall₂.get typed (by rwa [List.length_map]) (by omega)
  simpa using each

theorem defaultValueOf_of_accepted {type : UInt8} (accepted : Accepted type)
    {columnTypes : ColumnTypes} (named : columnTypeOf type = some columnTypes) :
    (defaultValueOf columnTypes).isNull = false ∧
      ∀ bits, (defaultValueOf columnTypes).val ≠ .double bits := by
  unfold Accepted ColumnEntry.create at accepted
  rw [named] at accepted
  cases columnTypes with
  | bool => exact ⟨rfl, nofun⟩
  | timestamp => exact ⟨rfl, nofun⟩
  | integer => exact ⟨rfl, nofun⟩
  | varchar => exact ⟨rfl, nofun⟩
  | varchar2 => exact ⟨rfl, nofun⟩
  | _ => cases accepted

theorem Creation.cells_ok {creation : Creation} {name : List UInt8} {i : Nat}
    (index : creation.indexOf name = some i) (values : List Value) :
    creation.cells (.ok values) name = .of (values.getD i .null) := by
  unfold Creation.cells
  rw [index]

theorem Creation.cells_error (creation : Creation) (message : String) (name : List UInt8) :
    creation.cells (.error message) name = .mismatch := by
  rw [Creation.cells]
  nofun

namespace TableEntry.Made

variable {table : TableEntry} {creation : Creation}

/-- What a column of the table holds in a tuple. -/
theorem cell (made : table.Made creation) {data : List UInt8} {values : List Value}
    (reads : (Tuple.mk table.getSchema data).values = .ok values) {name : List UInt8} {i : Nat}
    (index : creation.indexOf name = some i) :
    ∃ column type, table.getSchema[i]? = some column ∧
      creation.columns[i]? = some (column.name, type) ∧
      columnTypeOf type = some column.columnTypes ∧ Accepted type ∧
      Typed column.columnTypes (values.getD i .null) := by
  have inside := made.indexOf_lt index
  have here : table.getSchema[i]? = some table.getSchema[i] := List.getElem?_eq_getElem inside
  obtain ⟨-, type, given, named, accepted⟩ := made.column here
  exact ⟨_, type, here, given, named, accepted, (Tuple.value_typed reads inside).2⟩

/-- A column is read as its value, or as the default value if it is NULL. -/
theorem ofResult_read (made : table.Made creation) (data : List UInt8) {name : List UInt8}
    {i : Nat} (index : creation.indexOf name = some i) :
    let tuple : Tuple := ⟨table.getSchema, data⟩
    Outcome.ofResult (PhysicalColumnExpression.evaluate tuple (creation.idOf name)) =
        creation.filledCells tuple.values name ∧
      (creation.filledCells tuple.values name).Plain := by
  intro tuple
  have id : (creation.idOf name).toNat = i := by
    rw [Creation.idOf, index]
    exact made.toNat_ofNat (made.indexOf_lt index)
  cases reads : tuple.values with
  | error message =>
      rw [PhysicalColumnExpression.evaluate, reads, Creation.filledCells, Creation.cells_error]
      exact ⟨rfl, nofun⟩
  | ok values =>
      obtain ⟨column, type, here, given, named, accepted, typed⟩ := made.cell reads index
      obtain ⟨defaultGiven, defaultPlain⟩ := defaultValueOf_of_accepted accepted named
      have evaluated : PhysicalColumnExpression.evaluate tuple (creation.idOf name) =
          .ok (if (values.getD i .null).isNull then column.defaultValue
            else values.getD i .null) := by
        rw [PhysicalColumnExpression.evaluate, reads]
        change getValue table.getSchema values (creation.idOf name) = _
        rw [getValue, id, here]
      rw [evaluated, Creation.filledCells, Creation.cells_ok index, index]
      cases typed with
      | inl isNull =>
          rw [isNull]
          simp only [Outcome.of, Value.null, if_true, Option.bind_some, given, named,
            Option.getD_some, Outcome.ofResult, ColumnEntry.defaultValue, defaultGiven]
          refine ⟨rfl, fun bits same => defaultPlain bits (Outcome.value.inj same)⟩
      | inr typed =>
          obtain ⟨isNull, hasType⟩ := typed
          simp only [Outcome.of, isNull, Outcome.ofResult, Bool.false_eq_true, if_false]
          refine ⟨trivial, fun bits same => ?_⟩
          rw [Outcome.value.inj same] at hasType
          cases columnTypes : column.columnTypes <;> rw [columnTypes] at hasType <;> exact hasType

end TableEntry.Made

/-! ## What is preserved -/

variable {catalog : Catalog} {creation : Creation} {table : TableEntry}

/-- The expression is evaluated as the condition with the default values in place of NULL. -/
theorem ofResult_evaluate (made : table.Made creation) {condition : Condition}
    (narrow : condition.Narrow) (exist : ∀ name ∈ condition.columns, name ∈ creation.names)
    (data : List UInt8) :
    let tuple : Tuple := ⟨table.getSchema, data⟩
    Outcome.ofResult ((condition.compiled table.id creation.idOf).evaluate tuple) =
      condition.eval (creation.filledCells tuple.values) := by
  intro tuple
  refine Condition.ofResult_compiled condition narrow fun name member => ?_
  obtain ⟨i, index⟩ := Index.lastIndexOf?_isSome (exist name member)
  exact made.ofResult_read data index

theorem where_preserved_iff (hasTable : catalog.HasTable creation table) {condition : Condition}
    (exist : ∀ name ∈ condition.columns, name ∈ creation.names) (data : List UInt8) :
    Preserved catalog creation table condition data ↔ condition.Narrow ∧
      Unaffected creation condition (Tuple.mk table.getSchema data).values := by
  unfold Preserved
  rw [Condition.whereExpression_toExpr hasTable condition exist]
  dsimp only
  rw [Condition.constants_compiled]
  refine and_congr_right fun narrow => ?_
  have means := ofResult_evaluate hasTable.made narrow exist data
  unfold Unaffected
  dsimp only at means
  rw [← means]
  cases (condition.compiled table.id creation.idOf).evaluate ⟨table.getSchema, data⟩ with
  | error message => rfl
  | ok result =>
      simp only [Outcome.ofResult, Outcome.of]
      cases result.isNull <;> rfl

def pairs : Creation where
  name := [116]
  columns := [([105], 1), ([115], 4)]
  few := by decide

def pairsTable : TableEntry :=
  ({ id := 1, name := [116] : TableEntry }.addColumn ⟨0, [105], .integer⟩).addColumn
    ⟨1, [115], .varchar⟩

theorem hasTable_pairs : (({} : Catalog).addTable pairsTable).HasTable pairs pairsTable :=
  @hasTable_addTable {} 1 pairs pairsTable rfl

/-- The row of 3 and a string of one letter. -/
def pairsRow : List UInt8 :=
  List.replicate 22 0 ++ [49, 49, 3, 0, 0, 0, 1, 0, 0, 0, 0, 0, 0, 0, 97]

theorem where_preserved_iff_pairs :
    let condition : Condition :=
      .connect .and (.compare .lt (.column [105]) (.int 5))
        (.compare .neq (.column [115]) (.string [98]))
    Preserved (({} : Catalog).addTable pairsTable) pairs pairsTable condition pairsRow := by
  intro condition
  have exist : ∀ name ∈ condition.columns, name ∈ pairs.names := by decide
  refine (where_preserved_iff hasTable_pairs exist pairsRow).mpr ⟨by decide, ?_⟩
  rfl

/-- A 33-bit literal loses its highest bit, and then equals the zero of the row. -/
theorem wideLiteral_not_preserved :
    ¬ Preserved (({} : Catalog).addTable pairsTable) pairs pairsTable
      (.compare .eq (.column [105]) (.int 4294967296))
      (List.replicate 22 0 ++ [49, 48, 0, 0, 0, 0]) := by
  have exist : ∀ name ∈ (Condition.compare .eq (.column [105]) (.int 4294967296)).columns,
      name ∈ pairs.names := by decide
  unfold Preserved
  rw [Condition.whereExpression_toExpr hasTable_pairs _ exist]
  intro ⟨literals, _⟩
  exact absurd ((Condition.constants_compiled _).mp literals) (by decide)

theorem filledCells_fits (made : table.Made creation) {data : List UInt8} {values : List Value}
    (reads : (Tuple.mk table.getSchema data).values = .ok values) (name : List UInt8)
    (type : ColumnTypes) (typed : creation.typeOf name = some type) :
    (creation.filledCells (.ok values) name).Fits type := by
  cases index : creation.indexOf name with
  | none =>
      rw [Creation.typeOf, index] at typed
      cases typed
  | some i =>
      obtain ⟨column, code, here, given, named, accepted, holds⟩ := made.cell reads index
      have isType : type = if column.columnTypes = .varchar2 then .varchar else column.columnTypes := by
        rw [Creation.typeOf, index] at typed
        simp only [bind, Option.bind, given, named] at typed
        exact (Option.some.inj typed).symm
      rw [Creation.filledCells, Creation.cells_ok index, index]
      cases holds with
      | inl isNull =>
          rw [isNull]
          simp only [Outcome.of, Value.null, if_true, Option.bind_some, given, named, Option.getD_some]
          unfold Accepted ColumnEntry.create at accepted
          rw [named] at accepted
          subst isType
          cases columnTypes : column.columnTypes <;> rw [columnTypes] at accepted <;>
            trivial
      | inr holds =>
          obtain ⟨isNull, hasType⟩ := holds
          simp only [Outcome.of, isNull, Bool.false_eq_true, if_false]
          subst isType
          cases columnTypes : column.columnTypes <;> rw [columnTypes] at hasType <;>
            cases val : (values.getD i Value.null).val <;> rw [val] at hasType <;>
              trivial

/-- A condition whose types fit is evaluated on every tuple that can be read, and not to NULL. -/
theorem evaluate_of_typed (made : table.Made creation) {condition : Condition}
    (narrow : condition.Narrow) (exist : ∀ name ∈ condition.columns, name ∈ creation.names)
    {type : ColumnTypes} (typed : condition.typeOf creation.typeOf = some type)
    {data : List UInt8} {values : List Value}
    (reads : (Tuple.mk table.getSchema data).values = .ok values) :
    ∃ result, (condition.compiled table.id creation.idOf).evaluate ⟨table.getSchema, data⟩ =
      .ok result ∧ result.isNull = false := by
  have means := ofResult_evaluate made narrow exist data
  have fits := fits_of_typeOf (filledCells_fits made reads) condition typed
  dsimp only at means
  rw [reads] at means
  rw [← means] at fits
  cases evaluated : (condition.compiled table.id creation.idOf).evaluate ⟨table.getSchema, data⟩ with
  | error message =>
      rw [evaluated] at fits
      cases type <;> cases fits
  | ok result =>
      refine ⟨result, rfl, ?_⟩
      rw [evaluated] at fits
      cases isNull : result.isNull with
      | false => rfl
      | true =>
          simp only [Outcome.ofResult, Outcome.of, isNull, if_true] at fits
          cases type <;> cases fits

end YourSQL.Stored
