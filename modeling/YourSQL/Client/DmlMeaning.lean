import YourSQL.Client.TableContents
import YourSQL.Planner.StatementPlans

/-! # What UPDATE and DELETE do to the rows of a table

Rows are lists of values here, and a statement is what the parser has of it. UPDATE assigns to
the columns that it names in the rows of which WHERE is true, and DELETE takes those rows away.
WHERE reads a NULL as the default value of its column.
-/

namespace YourSQL.Stored

variable {catalog : Catalog} {creation : Creation} {table : TableEntry}
  {condition : Option Condition} {updates : List Hsql.UpdateClause} {schema : List ColumnTypes}
  {values : List Value} {row : Row.Bytes}

abbrev TableEntry.types (table : TableEntry) : List ColumnTypes :=
  table.getSchema.map ColumnEntry.columnTypes

/-! ## What the statements mean -/

namespace Condition

/-- What WHERE says of a row. -/
def saysOf (creation : Creation) (condition : Option Condition)
    (values : Except String (List Value)) : Outcome :=
  match condition with
  | none => .value (.bool true)
  | some condition => condition.eval (creation.filledCells values)

def isTrueOf (creation : Creation) (condition : Option Condition)
    (values : Except String (List Value)) : Bool :=
  decide (saysOf creation condition values = .value (.bool true))

/-- WHERE has no truth value on the row: its types do not fit. -/
def isIllTypedOn (creation : Creation) (condition : Option Condition)
    (values : Except String (List Value)) : Bool :=
  match saysOf creation condition values with
  | .null => false
  | .value (.bool _) => false
  | _ => true

end Condition

/-- The literal for the column at a position: that of the last clause that names it. -/
def Creation.assigned (creation : Creation) (updates : List Hsql.UpdateClause) (position : Nat) :
    Option Hsql.Literal :=
  (updates.reverse.find? fun clause => creation.indexOf clause.column = some position).map
    Hsql.UpdateClause.value

/-- The row with the assigned values. -/
def Creation.assign (creation : Creation) (updates : List Hsql.UpdateClause) (values : List Value) :
    List Value :=
  values.mapIdx fun position value =>
    match creation.assigned updates position with
    | none => value
    | some literal => literal.assigns

/-- A column of the type takes the literal: an integer or a string, each for its own. -/
def takesLiteral (type : ColumnTypes) (literal : Hsql.Literal) : Bool :=
  match type, literal with
  | .integer, .literalInt _ => true
  | .varchar, .literalString _ _ => true
  | .varchar2, .literalString _ _ => true
  | _, _ => false

/-- Every literal that is assigned is taken by its column. -/
def Creation.WellTyped (creation : Creation) (updates : List Hsql.UpdateClause)
    (schema : List ColumnTypes) : Prop :=
  ∀ i type, schema[i]? = some type → ∀ literal, creation.assigned updates i = some literal →
    takesLiteral type literal = true

/-- A VARCHAR2 is assigned: the row cannot be read again. -/
def Creation.AssignsVarchar2 (creation : Creation) (updates : List Hsql.UpdateClause)
    (schema : List ColumnTypes) : Prop :=
  ∃ i < schema.length, schema[i]? = some .varchar2 ∧ (creation.assigned updates i).isSome = true

instance (creation : Creation) (updates : List Hsql.UpdateClause) (schema : List ColumnTypes) :
    Decidable (creation.AssignsVarchar2 updates schema) :=
  inferInstanceAs (Decidable (∃ i < schema.length, _ ∧ _))

/-- What UPDATE makes of a row that was read so, as it is read afterwards. -/
def Creation.updated (creation : Creation) (schema : List ColumnTypes)
    (updates : List Hsql.UpdateClause) (condition : Option Condition)
    (values : Except String (List Value)) : Option (List Value) :=
  if Condition.isTrueOf creation condition values then
    if creation.AssignsVarchar2 updates schema then none
    else values.toOption.map (creation.assign updates)
  else
    values.toOption

/-- UPDATE does not come past the row. -/
def Creation.UpdateStopsAt (creation : Creation) (schema : List ColumnTypes)
    (updates : List Hsql.UpdateClause) (condition : Option Condition) (row : Row.Bytes) : Prop :=
  let values := Row.deserialize schema row
  Condition.isIllTypedOn creation condition values = true ∨
    Condition.isTrueOf creation condition values = true ∧
      (values.toOption = none ∨ ¬ creation.WellTyped updates schema ∨ undoable row = false)

/-- DELETE does not come past the row. -/
def Creation.DeleteStopsAt (creation : Creation) (schema : List ColumnTypes)
    (condition : Option Condition) (row : Row.Bytes) : Prop :=
  let values := Row.deserialize schema row
  Condition.isIllTypedOn creation condition values = true ∨
    Condition.isTrueOf creation condition values = true ∧ undoable row = false

/-- The bytes are those of a row, as `Serialize` writes it. -/
def WrittenRow (schema : List ColumnTypes) (row : Row.Bytes) : Prop :=
  ∃ values, schema.length = values.length ∧ (∀ column ∈ schema.zip values, Row.Matching column) ∧
    Row.serialize schema values = .ok row

/-! ## Rows that are read -/

theorem readBack_columns {column : ColumnTypes × Value} (matching : Row.Matching column)
    (decoded : column.2.isNull = false → column.1 ≠ .varchar2) :
    Row.Matching (column.1, Row.readBack column) ∧ Row.Survives (column.1, Row.readBack column) := by
  obtain ⟨type, value⟩ := column
  rcases matching with isNull | ⟨val, given, holds⟩
  · obtain rfl : value = .null := isNull
    have back : Row.readBack (type, .null) = .null := if_neg (by simp [Value.null])
    rw [back]
    exact ⟨.inl rfl, by simp [Value.null, Value.of], fun _ => rfl⟩
  · obtain rfl : value = .of val := given
    cases type with
    | bool =>
        have back : Row.readBack (.bool, .of val) = .of (.bool true) := if_pos ⟨rfl, rfl⟩
        rw [back]
        exact ⟨.inr ⟨_, rfl, trivial⟩, by simp [Value.of], by simp⟩
    | varchar2 => exact absurd rfl (decoded rfl)
    | _ => exact ⟨.inr ⟨val, rfl, holds⟩, by simp [Row.readBack], by simp⟩

/-- What is read of a row that has been written can be written again, and is then read again. -/
theorem WrittenRow.columns (written : WrittenRow schema row)
    (reads : Row.deserialize schema row = .ok values) :
    schema.length = values.length ∧
      ∀ column ∈ schema.zip values, Row.Matching column ∧ Row.Survives column := by
  obtain ⟨source, same, matching, serialized⟩ := written
  have decoded : ∀ column ∈ schema.zip source, column.2.isNull = false → column.1 ≠ .varchar2 := by
    intro column member given undecoded
    obtain ⟨message, failed⟩ := Row.deserialize_fails same serialized member undecoded given
    rw [failed] at reads
    cases reads
  obtain ⟨read, -⟩ := Row.deserialize_of_serialize same matching decoded serialized
  obtain rfl := Except.ok.inj (read.symm.trans reads)
  have columns : schema.zip ((schema.zip source).map Row.readBack) =
      (schema.zip source).map fun column => (column.1, Row.readBack column) := by
    apply List.ext_getElem
    · simp
    · intro i _ _
      simp
  refine ⟨by simp [same], fun column member => ?_⟩
  rw [columns, List.mem_map] at member
  obtain ⟨origin, member, rfl⟩ := member
  exact readBack_columns (matching origin member) (decoded origin member)

/-! ## Rows that are written -/

theorem matching_of_takesLiteral {type : ColumnTypes} {literal : Hsql.Literal}
    (takes : takesLiteral type literal = true) : Row.Matching (type, literal.assigns) := by
  cases literal with
  | literalString name small =>
      refine .inr ⟨.string name, rfl, ?_⟩
      cases type <;> first | exact small | cases takes
  | literalInt ival =>
      refine .inr ⟨.int ival.toInt32.toInt, rfl, ?_⟩
      cases type with
      | integer => exact ⟨ival.toInt32.le_toInt, ival.toInt32.toInt_lt⟩
      | _ => cases takes
  | literalFloat fval => cases type <;> cases takes
  | other => cases type <;> cases takes

/-- A literal that the column does not take is not written. -/
theorem valueBytes_of_not_takesLiteral {type : ColumnTypes} {literal : Hsql.Literal}
    (supported : literal ≠ .other) (refused : takesLiteral type literal = false) :
    ∃ message, Row.valueBytes type literal.assigns = .error message := by
  cases literal with
  | other => exact absurd rfl supported
  | literalString name small => cases type <;> first | exact ⟨_, rfl⟩ | cases refused
  | literalInt ival => cases type <;> first | exact ⟨_, rfl⟩ | cases refused
  | literalFloat fval => cases type <;> exact ⟨_, rfl⟩

namespace Creation

@[simp] theorem assign_nil (creation : Creation) (values : List Value) :
    creation.assign [] values = values := by
  apply List.ext_getElem
  · simp [assign]
  · intro i _ _
    simp [assign, assigned]

@[simp] theorem length_assign (creation : Creation) (updates : List Hsql.UpdateClause)
    (values : List Value) : (creation.assign updates values).length = values.length :=
  List.length_mapIdx

theorem assigned_concat (creation : Creation) (updates : List Hsql.UpdateClause)
    (clause : Hsql.UpdateClause) (position : Nat) :
    creation.assigned (updates ++ [clause]) position =
      if creation.indexOf clause.column = some position then some clause.value
      else creation.assigned updates position := by
  unfold assigned
  rw [List.reverse_concat, List.find?_cons]
  by_cases here : creation.indexOf clause.column = some position
  · simp [here]
  · simp [here]

theorem getElem_assign {i : Nat} (inside : i < (creation.assign updates values).length)
    (inValues : i < values.length) :
    (creation.assign updates values)[i] =
      match creation.assigned updates i with
      | none => values[i]
      | some literal => literal.assigns := by
  simp [assign]

/-- The clauses are applied one after the other. -/
theorem assign_concat {clause : Hsql.UpdateClause} {i : Nat}
    (index : creation.indexOf clause.column = some i) :
    creation.assign (updates ++ [clause]) values =
      (creation.assign updates values).set i clause.value.assigns := by
  apply List.ext_getElem
  · simp
  · intro j inside _
    have inValues : j < values.length := by rwa [length_assign] at inside
    rw [getElem_assign inside inValues, assigned_concat, index, List.getElem_set]
    by_cases here : i = j
    · simp [here]
    · rw [if_neg (by simpa using here), if_neg here, getElem_assign _ inValues]

/-- A column of the assigned row is one of the row, or the literal for its position. -/
theorem mem_zip_assign {column : ColumnTypes × Value}
    (member : column ∈ schema.zip (creation.assign updates values)) :
    column ∈ schema.zip values ∨ ∃ i literal, schema[i]? = some column.1 ∧
      creation.assigned updates i = some literal ∧ column.2 = literal.assigns := by
  obtain ⟨i, inside, rfl⟩ := List.getElem_of_mem member
  rw [List.length_zip, length_assign] at inside
  have inSchema : i < schema.length := by omega
  have inValues : i < values.length := by omega
  rw [List.getElem_zip, getElem_assign _ inValues]
  cases found : creation.assigned updates i with
  | none =>
      refine .inl ?_
      rw [← List.getElem_zip]
      exact List.getElem_mem (by rw [List.length_zip]; omega)
  | some literal => exact .inr ⟨i, literal, List.getElem?_eq_getElem inSchema, found, rfl⟩

theorem mem_zip_of_assigned (same : schema.length = values.length) {i : Nat} {type : ColumnTypes}
    (isType : schema[i]? = some type) {literal : Hsql.Literal}
    (found : creation.assigned updates i = some literal) :
    (type, literal.assigns) ∈ schema.zip (creation.assign updates values) := by
  obtain ⟨inside, rfl⟩ := List.getElem?_eq_some_iff.mp isType
  have inValues : i < values.length := by omega
  have inAssigned : i < (creation.assign updates values).length := by rwa [length_assign]
  have value : (creation.assign updates values)[i] = literal.assigns := by
    rw [getElem_assign inAssigned inValues, found]
  rw [← value, ← List.getElem_zip]
  exact List.getElem_mem (by rw [List.length_zip]; omega)

/-- `ExecutorUpdate::Next` on the values that it has read. -/
theorem applySet_eq (made : table.Made creation)
    (named : ∀ clause ∈ updates, clause.column ∈ creation.names) (values : List Value) :
    ExecutorUpdate.applySet
        (updates.map fun clause => ⟨(creation.idOf clause.column).toNat, clause.value.assigns⟩)
        values =
      creation.assign updates values := by
  induction updates using List.reverseRecOn with
  | nil => simp [ExecutorUpdate.applySet]
  | append_singleton updates clause ih =>
      have last := named clause (by simp)
      obtain ⟨i, index⟩ := Index.lastIndexOf?_isSome last
      have position : (creation.idOf clause.column).toNat = i := by
        rw [idOf, show creation.indexOf clause.column = some i from index]
        exact made.toNat_ofNat (made.indexOf_lt index)
      have before := ih fun other member => named other (List.mem_append_left _ member)
      unfold ExecutorUpdate.applySet at before ⊢
      rw [List.map_append, List.foldl_append, before, assign_concat index]
      simp [position]

end Creation

/-- What the assigned row is made of. -/
theorem WrittenRow.columns_assign (written : WrittenRow schema row)
    (reads : Row.deserialize schema row = .ok values) (typed : creation.WellTyped updates schema)
    {column : ColumnTypes × Value} (member : column ∈ schema.zip (creation.assign updates values)) :
    Row.Matching column ∧ Row.readBack column = column.2 ∧
      (column.1 = .varchar2 → column.2.isNull = false → creation.AssignsVarchar2 updates schema) := by
  rcases Creation.mem_zip_assign member with kept | ⟨i, literal, isType, found, value⟩
  · obtain ⟨matching, survives⟩ := written.columns reads |>.2 column kept
    refine ⟨matching, (Row.readBack_eq_iff matching).mpr survives.1, fun isVarchar2 given => ?_⟩
    rw [survives.2 isVarchar2] at given
    cases given
  · obtain ⟨type, val⟩ := column
    obtain rfl : val = literal.assigns := value
    have takes := typed i type isType literal found
    have matching := matching_of_takesLiteral takes
    refine ⟨matching, (Row.readBack_eq_iff matching).mpr ?_, fun isVarchar2 _ => ?_⟩
    · intro isBool
      obtain rfl : type = .bool := congrArg Prod.fst isBool
      cases literal <;> cases takes
    · obtain rfl : type = .varchar2 := isVarchar2
      obtain ⟨inside, -⟩ := List.getElem?_eq_some_iff.mp isType
      exact ⟨i, inside, isType, by rw [found]; rfl⟩

/-- A literal that a VARCHAR2 takes is not NULL. -/
theorem WrittenRow.exists_varchar2 (written : WrittenRow schema row)
    (reads : Row.deserialize schema row = .ok values) (typed : creation.WellTyped updates schema)
    (assigns : creation.AssignsVarchar2 updates schema) :
    ∃ value, (ColumnTypes.varchar2, value) ∈ schema.zip (creation.assign updates values) ∧
      value.isNull = false := by
  obtain ⟨i, inside, isType, isSome⟩ := assigns
  obtain ⟨literal, found⟩ := Option.isSome_iff_exists.mp isSome
  have takes := typed i _ isType literal found
  refine ⟨literal.assigns, Creation.mem_zip_of_assigned (written.columns reads).1 isType found, ?_⟩
  cases literal <;> first | rfl | cases takes

/-- A row with the assigned values is written, and read back unless a VARCHAR2 was assigned. -/
theorem WrittenRow.assign (written : WrittenRow schema row)
    (reads : Row.deserialize schema row = .ok values) (typed : creation.WellTyped updates schema) :
    ∃ bytes, Row.serialize schema (creation.assign updates values) = .ok bytes ∧
      WrittenRow schema bytes ∧
      (Row.deserialize schema bytes).toOption =
        if creation.AssignsVarchar2 updates schema then none
        else some (creation.assign updates values) := by
  have same : schema.length = (creation.assign updates values).length := by
    rw [Creation.length_assign]
    exact (written.columns reads).1
  have columns := fun column (member : column ∈ schema.zip (creation.assign updates values)) =>
    written.columns_assign reads typed member
  have matching := fun column member => (columns column member).1
  obtain ⟨bytes, serialized, -⟩ := Row.serializeRecord_of_matching ⟨0, .null, 0⟩ same matching
  refine ⟨bytes, serialized, ⟨_, same, matching, serialized⟩, ?_⟩
  by_cases assigns : creation.AssignsVarchar2 updates schema
  · obtain ⟨value, member, given⟩ := written.exists_varchar2 reads typed assigns
    obtain ⟨message, failed⟩ := Row.deserialize_fails same serialized member rfl given
    rw [failed, if_pos assigns]
    rfl
  · have decoded : ∀ column ∈ schema.zip (creation.assign updates values),
        column.2.isNull = false → column.1 ≠ .varchar2 := fun column member given isVarchar2 =>
      assigns ((columns column member).2.2 isVarchar2 given)
    obtain ⟨read, -⟩ := Row.deserialize_of_serialize same matching decoded serialized
    rw [read, List.map_congr_left fun column member => (columns column member).2.1,
      List.map_snd_zip (le_of_eq same.symm), if_neg assigns]
    rfl

/-- A row for which a literal is of another type is not written. -/
theorem WrittenRow.typed_of_serialize (written : WrittenRow schema row)
    (reads : Row.deserialize schema row = .ok values)
    (supported : ∀ clause ∈ updates, clause.value ≠ .other) {bytes : Row.Bytes}
    (serialized : Row.serialize schema (creation.assign updates values) = .ok bytes) :
    creation.WellTyped updates schema := by
  intro i type isType literal found
  obtain ⟨parts, each, -⟩ := Row.parts_of_serialize serialized
  obtain ⟨part, written⟩ := Row.valueBytes_of_mapM each
    (Creation.mem_zip_of_assigned (written.columns reads).1 isType found)
  cases takes : takesLiteral type literal with
  | true => rfl
  | false =>
      have given : literal ≠ .other := by
        obtain ⟨clause, which, value⟩ := Option.map_eq_some_iff.mp found
        rw [← value]
        exact supported clause (List.mem_reverse.mp (List.mem_of_find?_eq_some which))
      obtain ⟨message, failed⟩ := valueBytes_of_not_takesLiteral given takes
      rw [failed] at written
      cases written

/-! ## WHERE -/

/-- What a filter comes to, from what its result says. -/
theorem matchesFilter_of_ofResult {filter : Filter} {outcome : Outcome}
    (result : Outcome.ofResult (filter row) = outcome) :
    (matchesFilter (some filter) row = .ok true ↔ outcome = .value (.bool true)) ∧
      ((∃ message, matchesFilter (some filter) row = .error message) ↔
        outcome ≠ .null ∧ ∀ b, outcome ≠ .value (.bool b)) := by
  subst result
  unfold matchesFilter
  dsimp only
  cases filter row with
  | error message => exact ⟨by simp [Outcome.ofResult], by simp [Outcome.ofResult]⟩
  | ok value =>
      obtain ⟨isNull, val⟩ := value
      cases isNull with
      | true =>
          exact ⟨by simp [Outcome.ofResult, Outcome.of, pure, Except.pure],
            by simp [Outcome.ofResult, Outcome.of, pure, Except.pure]⟩
      | false =>
          cases val <;>
            exact ⟨by simp [Outcome.ofResult, Outcome.of, Value.getBool],
              by simp [Outcome.ofResult, Outcome.of, Value.getBool]⟩

/-- WHERE as it is evaluated on the bytes of a row. -/
theorem ofResult_filter (made : table.Made creation) {condition : Condition}
    (known : Condition.Known creation (some condition)) (row : Row.Bytes) :
    Outcome.ofResult
        ((condition.compiled table.id creation.idOf).filter table.getSchema row) =
      condition.eval (creation.filledCells
        (Row.deserialize table.types row)) := by
  have behind : (List.replicate REC_HEADER_SIZE 0 ++ row).drop REC_HEADER_SIZE = row :=
    List.drop_left' (List.length_replicate ..)
  have means := ofResult_evaluate made known.1 known.2 (List.replicate REC_HEADER_SIZE 0 ++ row)
  dsimp only at means
  rw [← filter_eq_evaluate, values_eq_deserialize, behind] at means
  exact means

theorem matchesFilter_filterOn (made : table.Made creation)
    (known : Condition.Known creation condition) (row : Row.Bytes) :
    let values := Row.deserialize table.types row
    holdsOf (Condition.filterOn creation table condition) row =
        Condition.isTrueOf creation condition values ∧
      ((∃ message, matchesFilter (Condition.filterOn creation table condition) row =
        .error message) ↔ Condition.isIllTypedOn creation condition values = true) := by
  intro values
  cases condition with
  | none => exact ⟨rfl, by simp [Condition.filterOn, matchesFilter, Condition.isIllTypedOn,
      Condition.saysOf]⟩
  | some condition =>
      obtain ⟨isTrue, raised⟩ := matchesFilter_of_ofResult (ofResult_filter made known row)
      refine ⟨decide_eq_decide.mpr isTrue, raised.trans ?_⟩
      unfold Condition.isIllTypedOn Condition.saysOf
      dsimp only
      cases condition.eval (creation.filledCells values) with
      | mismatch => simp
      | null => simp
      | value val => cases val <;> simp

/-! ## One row -/

/-- The clauses as the executor has them. -/
def Creation.setClauses (creation : Creation) (updates : List Hsql.UpdateClause) :
    List ExecutorUpdate.SetClause :=
  updates.map fun clause => ⟨(creation.idOf clause.column).toNat, clause.value.assigns⟩

theorem updatedBytes_eq (made : table.Made creation)
    (named : ∀ clause ∈ updates, clause.column ∈ creation.names) (row : Row.Bytes) :
    updatedBytes schema (creation.setClauses updates) row = (do
      let values ← Row.deserialize schema row
      Row.serialize schema (creation.assign updates values)) := by
  unfold updatedBytes Creation.setClauses
  cases Row.deserialize schema row with
  | error message => rfl
  | ok values => rw [Except.ok_bind, Except.ok_bind, Creation.applySet_eq made named]

theorem isOk_updatedBytes_iff (made : table.Made creation)
    (named : ∀ clause ∈ updates, clause.column ∈ creation.names)
    (supported : ∀ clause ∈ updates, clause.value ≠ .other) (written : WrittenRow schema row) :
    (updatedBytes schema (creation.setClauses updates) row).isOk = true ↔
      (Row.deserialize schema row).toOption ≠ none ∧ creation.WellTyped updates schema := by
  rw [updatedBytes_eq made named]
  cases reads : Row.deserialize schema row with
  | error message => simp [Except.toOption, Except.isOk, Except.toBool, bind, Except.bind]
  | ok values =>
      rw [Except.ok_bind]
      have readable : (Except.ok values : Except String (List Value)).toOption ≠ none := nofun
      constructor
      · intro isOk
        cases serialized : Row.serialize schema (creation.assign updates values) with
        | error message =>
            rw [serialized] at isOk
            cases isOk
        | ok bytes => exact ⟨readable, written.typed_of_serialize reads supported serialized⟩
      · intro ⟨_, typed⟩
        obtain ⟨bytes, serialized, -⟩ := written.assign reads typed
        rw [serialized]
        rfl

section

variable (made : table.Made creation) (known : Condition.Known creation condition)
include made known

theorem stopsAt_delete_iff (t : Nat) (row : Row.Bytes) :
    (YourSQL.Statement.delete t (Condition.filterOn creation table condition)).stopsAt row = true ↔
      creation.DeleteStopsAt table.types condition row := by
  obtain ⟨isTrue, raised⟩ := matchesFilter_filterOn made known row
  unfold Creation.DeleteStopsAt
  dsimp only
  rw [← isTrue, ← raised]
  unfold YourSQL.Statement.stopsAt holdsOf
  dsimp only
  cases matchesFilter (Condition.filterOn creation table condition) row with
  | error message => simp
  | ok isMatch => cases isMatch <;> simp

theorem stopsAt_update_iff (named : ∀ clause ∈ updates, clause.column ∈ creation.names)
    (supported : ∀ clause ∈ updates, clause.value ≠ .other) (t : Nat)
    (written : WrittenRow table.types row) :
    (YourSQL.Statement.update t table.types
        (creation.setClauses updates) (Condition.filterOn creation table condition)).stopsAt row =
        true ↔
      creation.UpdateStopsAt table.types updates condition
        row := by
  obtain ⟨isTrue, raised⟩ := matchesFilter_filterOn made known row
  have isOk := isOk_updatedBytes_iff made named supported written
  unfold Creation.UpdateStopsAt
  dsimp only
  rw [← isTrue, ← raised]
  unfold YourSQL.Statement.stopsAt holdsOf
  dsimp only
  cases matchesFilter (Condition.filterOn creation table condition) row with
  | error message => simp
  | ok isMatch =>
      cases isMatch with
      | false => simp
      | true =>
          simp only [Bool.true_and, Bool.not_eq_true', Bool.and_eq_false_iff]
          rw [← Bool.not_eq_true, isOk]
          simp
          tauto

/-- The row that UPDATE leaves, where it does not stop. -/
theorem rowAfter_written (named : ∀ clause ∈ updates, clause.column ∈ creation.names)
    (written : WrittenRow table.types row)
    (past : ¬ creation.UpdateStopsAt table.types updates condition
      row) :
    let schema := table.types
    let row' := rowAfter schema (creation.setClauses updates)
      (Condition.filterOn creation table condition) row
    WrittenRow schema row' ∧ (Row.deserialize schema row').toOption =
      creation.updated schema updates condition (Row.deserialize schema row) := by
  intro schema row'
  obtain ⟨isTrue, -⟩ := matchesFilter_filterOn made known row
  unfold Creation.UpdateStopsAt at past
  simp only [not_or, not_and] at past
  simp only [row', rowAfter, Creation.updated]
  rw [isTrue]
  by_cases holds : Condition.isTrueOf creation condition (Row.deserialize schema row) = true
  · obtain ⟨readable, typed, -⟩ := past.2 holds
    rw [if_pos holds, if_pos holds]
    cases reads : Row.deserialize schema row with
    | error message =>
        rw [reads] at readable
        exact absurd rfl readable
    | ok values =>
        obtain ⟨bytes, serialized, written', read⟩ := written.assign reads (not_not.mp typed)
        rw [updatedBytes_eq made named, reads, Except.ok_bind, serialized]
        exact ⟨written', read⟩
  · rw [if_neg holds, if_neg holds]
    exact ⟨written, rfl⟩

end

/-! ## All rows -/

/-- The table is updated: the number of rows of which WHERE is true is the answer, and each of
    them has the assigned values. -/
structure Creation.Updates (creation : Creation) (table : TableEntry)
    (updates : List Hsql.UpdateClause) (condition : Option Condition) (before after : Contents)
    (answer : Answer) : Prop where
  answered : answer = .rowsUpdated ((before table.id.toNat).countP fun row =>
    Condition.isTrueOf creation condition
      (Row.deserialize table.types row) = true)
  others : ∀ t, t ≠ table.id.toNat → after t = before t
  rows : (after table.id.toNat).map
      (fun row => (Row.deserialize table.types row).toOption) =
    (before table.id.toNat).map fun row =>
      creation.updated table.types updates condition
        (Row.deserialize table.types row)
  written : ∀ row ∈ after table.id.toNat,
    WrittenRow table.types row

/-- Rows are taken away: those of which WHERE is true, and their number is the answer. -/
structure Creation.Deletes (creation : Creation) (table : TableEntry)
    (condition : Option Condition) (before after : Contents) (answer : Answer) : Prop where
  answered : answer = .rowsDeleted ((before table.id.toNat).countP fun row =>
    Condition.isTrueOf creation condition
      (Row.deserialize table.types row) = true)
  others : ∀ t, t ≠ table.id.toNat → after t = before t
  rows : after table.id.toNat = (before table.id.toNat).filter fun row =>
    Condition.isTrueOf creation condition
      (Row.deserialize table.types row) = false

/-- A DELETE that the parser has read: it fails where it stops at a row. -/
theorem delete_means (hasTable : catalog.HasTable creation table)
    (known : Condition.Known creation condition) {lists : Nat → Bool}
    (listed : lists table.id.toNat = true) (contents : Contents) :
    ∃ statement, deleteStatement catalog ⟨creation.name, Condition.toWhere condition⟩ =
        .ok statement ∧
      (statement.meaning lists contents = none ↔ ∃ row ∈ contents table.id.toNat,
        creation.DeleteStopsAt table.types condition row) ∧
      ∀ answer contents', statement.meaning lists contents = some (answer, contents') →
        creation.Deletes table condition contents contents' answer := by
  let statement : YourSQL.Statement :=
    .delete table.id.toNat (Condition.filterOn creation table condition)
  have fails : statement.Fails lists contents ↔ ∃ row ∈ contents table.id.toNat,
      creation.DeleteStopsAt table.types condition row := by
    unfold YourSQL.Statement.Fails
    dsimp only [statement, YourSQL.Statement.tableId, YourSQL.Statement.rowRefused]
    rw [listed]
    simp only [Bool.true_eq_false, Bool.false_eq_true, false_or]
    exact exists_congr fun row => and_congr_right fun _ =>
      stopsAt_delete_iff hasTable.made known _ row
  refine ⟨statement, deleteStatement_eq hasTable known,
    YourSQL.Statement.meaning_eq_none.trans fails, fun answer contents' means => ?_⟩
  obtain ⟨-, rfl, rfl⟩ := YourSQL.Statement.meaning_eq_some means
  have holds := fun row => (matchesFilter_filterOn hasTable.made known row).1
  refine ⟨?_, fun t other => Function.update_of_ne other .., ?_⟩
  · refine congrArg Answer.rowsDeleted ?_
    rw [Multiset.countP_eq_card_filter]
    refine congrArg Multiset.card (Multiset.filter_congr fun row _ => ?_)
    rw [holds row]
  · refine (Function.update_self ..).trans (Multiset.filter_congr fun row _ => ?_)
    rw [holds row]

/-- One row of 3 and a letter. -/
def pairsContents : Contents := fun t =>
  if t = 1 then {[49, 49, 3, 0, 0, 0, 1, 0, 0, 0, 0, 0, 0, 0, 97]} else 0

end YourSQL.Stored
