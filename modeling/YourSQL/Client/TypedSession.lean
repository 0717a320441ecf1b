import YourSQL.Client.DmlMeaning
import YourSQL.Client.SessionRefinement

/-! # Sessions of parsed statements

The terminal with its catalog, from the trees of the parser on. A statement that is refused
while it is translated leaves the transaction of the session alone. Whatever a client enters,
the rows of every table are rows of its schema, so that a WHERE whose types fit has a truth
value on each of them.
-/

namespace YourSQL.Stored

open Transactional (Reply Store)

/-! ## The session -/

/-- What a client enters, as the parser has it. -/
inductive Sql where
  | transaction (command : TxnCommand)
  | select (parsed : Hsql.SelectStatement)
  | insert (parsed : Hsql.InsertStatement)
  | delete (parsed : Hsql.DeleteStatement)
  | update (parsed : Hsql.UpdateStatement)

/-- `ExecuteSQL` up to the choice of the transaction. -/
def Sql.toInput : Sql → Program Catalog Fault Input
  | transaction command => return .transaction command
  | select parsed => do
      let catalog ← get
      return .sql (← Program.lift (selectStatement catalog parsed))
  | insert parsed => do
      return .sql (← insertStatement parsed)
  | delete parsed => do
      let catalog ← get
      return .sql (← Program.lift (deleteStatement catalog parsed))
  | update parsed => do
      let catalog ← get
      return .sql (← Program.lift (updateStatement catalog parsed))

inductive Response where
  | output (output : Output)
  /-- An exception of the translation, that nobody catches before `Run`. -/
  | refused (what : List UInt8)
  | crashed
  deriving DecidableEq

structure Session where
  catalog : Catalog
  terminal : YourSQLTerminal

namespace Session

/-- One input. After a null pointer there is no process any more. -/
def step : Option Session → Sql → Response × Option Session
  | none, _ => (.crashed, none)
  | some session, sql =>
      match sql.toInput.run session.catalog with
      | (.error .nullPointer, _) => (.crashed, none)
      | (.error (.exception what), catalog) =>
          (.refused what, some { session with catalog := catalog })
      | (.ok input, catalog) =>
          let (output, terminal) := session.terminal.step input
          (.output output, some ⟨catalog, terminal⟩)

end Session

/-! ## What a client has before him -/

inductive Told where
  | reply (reply : Reply Answer)
  | refused (what : List UInt8)
  | crashed

inductive Response.Tells : Response → Told → Prop
  | output {output : Output} {reply : Reply Answer} : output.Tells reply →
      Tells (.output output) (.reply reply)
  | refused (what : List UInt8) : Tells (.refused what) (.refused what)
  | crashed : Tells .crashed .crashed

/-- A catalog, and a store of rows with transactions. -/
def Session.spec (lists : Nat → Bool) :
    Option (Catalog × Store Contents) → Sql → Told × Option (Catalog × Store Contents)
  | none, _ => (.crashed, none)
  | some (catalog, store), sql =>
      match sql.toInput.run catalog with
      | (.error .nullPointer, _) => (.crashed, none)
      | (.error (.exception what), catalog) => (.refused what, some (catalog, store))
      | (.ok input, catalog) =>
          let (reply, store) := store.handle (Statement.meaning lists) input.request
          (.reply reply, some (catalog, store))

/-- The new rows of the statement are small enough, if it comes to that. -/
def Session.Admits : Option (Catalog × Store Contents) → Sql → Prop
  | none, _ => True
  | some (catalog, store), sql =>
      match sql.toInput.run catalog with
      | (.ok input, _) => YourSQLTerminal.Admits store input.request
      | _ => True

instance : (state : Option (Catalog × Store Contents)) → (sql : Sql) →
    Decidable (Session.Admits state sql)
  | none, _ => .isTrue trivial
  | some (catalog, store), sql =>
      match ran : sql.toInput.run catalog with
      | (.ok input, catalog') =>
          decidable_of_iff (YourSQLTerminal.Admits store input.request) (by simp [Session.Admits, ran])
      | (.error fault, catalog') => .isTrue (by simp [Session.Admits, ran])

/-- Every row of a table is one of its schema. -/
def Conforms (catalog : Catalog) (contents : Contents) : Prop :=
  ∀ id table, catalog.tables id = some table →
    ∀ row ∈ contents id.toNat, WrittenRow table.types row

/-- On a table without VARCHAR2 every row can be read, and every WHERE whose types fit is
    evaluated to true or to false. -/
def Decides (catalog : Catalog) (contents : Contents) : Prop :=
  ∀ (creation : Creation) (table : TableEntry), catalog.HasTable creation table →
    ColumnTypes.varchar2 ∉ table.types → ∀ row ∈ contents table.id.toNat,
      (∃ values, Row.deserialize table.types row = .ok values) ∧
        ∀ condition : Condition, Condition.Known creation (some condition) →
          condition.typeOf creation.typeOf = some .bool →
          ∃ b, (condition.compiled table.id creation.idOf).filter table.getSchema row =
            .ok (.of (.bool b))

namespace Session

/-- The rows that scans show: what is committed, or what the transaction of the session sees
    and what its rollback would bring back. -/
def Scans (session : Session) (contents : Contents) : Prop :=
  match session.terminal.session.currentTxn with
  | none => contents = session.terminal.database.rows
  | some txn => contents = session.terminal.database.rowsFor txn.txId ∨
      contents = ((Command.abort txn.txId).perform session.terminal.database).rows

/-- The process is there or not as the specification says, with its catalog, and shows what the
    store holds. -/
def Shows : Option Session → Option (Catalog × Store Contents) → Prop
  | none, none => True
  | some session, some (catalog, store) => session.catalog = catalog ∧ session.terminal.Shows store
  | _, _ => False

end Session

/-! ## Rows that literals are put into -/

variable {catalog catalog' : Catalog} {schema : List ColumnTypes} {values : List Value}
  {row bytes : Row.Bytes} {statement : YourSQL.Statement}

theorem matching_of_fromParser {type : ColumnTypes} {value : Value} (parsed : FromParser value)
    {part : List UInt8} (written : Row.valueBytes type value = .ok part) :
    Row.Matching (type, value) := by
  rcases parsed with isNull | ⟨literal, parsed⟩
  · exact .inl isNull
  · have supported : literal ≠ .other := by
      rintro rfl
      cases parsed
    obtain rfl : literal.assigns = value :=
      Except.ok.inj ((literalToValue_eq supported).symm.trans parsed)
    cases takes : takesLiteral type literal with
    | true => exact matching_of_takesLiteral takes
    | false =>
        obtain ⟨message, failed⟩ := valueBytes_of_not_takesLiteral supported takes
        rw [failed] at written
        cases written

/-- A row of matching and of parsed values, if it can be written. -/
theorem WrittenRow.of_serialize (same : schema.length = values.length)
    (each : ∀ column ∈ schema.zip values, Row.Matching column ∨ FromParser column.2)
    (serialized : Row.serialize schema values = .ok bytes) : WrittenRow schema bytes := by
  refine ⟨values, same, fun column member => ?_, serialized⟩
  rcases each column member with matching | parsed
  · exact matching
  · obtain ⟨parts, written, -⟩ := Row.parts_of_serialize serialized
    obtain ⟨part, written⟩ := Row.valueBytes_of_mapM written member
    exact matching_of_fromParser parsed written

theorem mem_zip_set {i : Nat} {value : Value} {column : ColumnTypes × Value}
    (member : column ∈ schema.zip (values.set i value)) :
    column ∈ schema.zip values ∨ column.2 = value := by
  obtain ⟨j, inside, rfl⟩ := List.getElem_of_mem member
  rw [List.length_zip, List.length_set] at inside
  rw [List.getElem_zip, List.getElem_set]
  by_cases here : i = j
  · exact .inr (if_pos here)
  · have bound : j < (schema.zip values).length := by rwa [List.length_zip]
    rw [if_neg here]
    exact .inl (List.mem_iff_getElem.mpr ⟨j, bound, List.getElem_zip⟩)

theorem mem_zip_applySet {clauses : List ExecutorUpdate.SetClause} {column : ColumnTypes × Value}
    (member : column ∈ schema.zip (ExecutorUpdate.applySet clauses values)) :
    column ∈ schema.zip values ∨ ∃ clause ∈ clauses, column.2 = clause.value := by
  induction clauses generalizing values with
  | nil => exact .inl member
  | cons clause clauses ih =>
      rcases ih member with before | ⟨other, later, value⟩
      · rcases mem_zip_set before with before | value
        · exact .inl before
        · exact .inr ⟨clause, List.mem_cons_self .., value⟩
      · exact .inr ⟨other, List.mem_cons_of_mem _ later, value⟩

theorem length_applySet (clauses : List ExecutorUpdate.SetClause) (values : List Value) :
    (ExecutorUpdate.applySet clauses values).length = values.length := by
  induction clauses generalizing values with
  | nil => rfl
  | cons clause clauses ih => exact (ih _).trans List.length_set

/-- What UPDATE writes in place of a row of the schema is one. -/
theorem WrittenRow.updated (written : WrittenRow schema row)
    {clauses : List ExecutorUpdate.SetClause} (parsed : ∀ clause ∈ clauses, FromParser clause.value)
    (made : updatedBytes schema clauses row = .ok bytes) : WrittenRow schema bytes := by
  obtain ⟨values, reads, serialized⟩ := Except.bind_eq_ok.mp made
  obtain ⟨same, each⟩ := written.columns reads
  refine .of_serialize (same.trans (length_applySet clauses values).symm) ?_ serialized
  intro column member
  rcases mem_zip_applySet member with kept | ⟨clause, inClauses, value⟩
  · exact .inl (each column kept).1
  · exact .inr (value ▸ parsed clause inClauses)

theorem WrittenRow.rowAfter (written : WrittenRow schema row)
    {clauses : List ExecutorUpdate.SetClause} (parsed : ∀ clause ∈ clauses, FromParser clause.value)
    (filter : Option Filter) : WrittenRow schema (YourSQL.rowAfter schema clauses filter row) := by
  unfold YourSQL.rowAfter
  split
  · cases made : updatedBytes schema clauses row with
    | error message => exact written
    | ok bytes => exact written.updated parsed made
  · exact written

/-! ## What a statement writes -/

/-- What the statement writes are rows of its table. -/
def WritesRows (catalog : Catalog) : YourSQL.Statement → Prop
  | .select _ _ _ _ => True
  | .delete _ _ => True
  | .insert t row => ∃ id table, t = UInt64.toNat id ∧ catalog.tables id = some table ∧
      ∀ bytes, row = .ok bytes → WrittenRow table.types bytes
  | .update t schema clauses _ => ∃ id table, t = UInt64.toNat id ∧
      catalog.tables id = some table ∧ schema = table.types ∧
      ∀ clause ∈ clauses, FromParser clause.value

/-- The schema of every row that the statement leaves. -/
theorem Conforms.meaning {contents contents' : Contents} {lists : Nat → Bool} {answer : Answer}
    (conforms : Conforms catalog contents) (writes : WritesRows catalog statement)
    (means : statement.meaning lists contents = some (answer, contents')) :
    Conforms catalog contents' := by
  obtain ⟨-, -, rfl⟩ := YourSQL.Statement.meaning_eq_some means
  intro id table found row member
  by_cases here : id.toNat = statement.tableId
  · rw [here, Function.update_self] at member
    have before := conforms id table found
    rw [here] at before
    cases statement with
    | select t schema columnIds filter => exact before row member
    | delete t filter => exact before row (Multiset.mem_of_mem_filter member)
    | insert t new =>
        obtain ⟨id', table', same, found', written⟩ := writes
        obtain rfl := UInt64.toNat_inj.mp (here.trans same)
        rw [found] at found'
        cases found'
        cases new with
        | error message => exact before row member
        | ok bytes =>
            rcases Multiset.mem_cons.mp member with rfl | old
            · exact written _ rfl
            · exact before row old
    | update t schema clauses filter =>
        obtain ⟨id', table', same, found', rfl, parsed⟩ := writes
        obtain rfl := UInt64.toNat_inj.mp (here.trans same)
        rw [found] at found'
        cases found'
        obtain ⟨old, inTable, rfl⟩ := Multiset.mem_map.mp member
        exact (before old inTable).rowAfter parsed filter
  · rw [Function.update_of_ne here] at member
    exact conforms id table found row member

theorem writesRows_select {parsed : Hsql.SelectStatement}
    (translated : selectStatement catalog parsed = .ok statement) :
    WritesRows catalog statement := by
  obtain ⟨_, -, later⟩ := Except.bind_eq_ok.mp translated
  obtain ⟨bound, -, later⟩ := Except.bind_eq_ok.mp later
  obtain ⟨filter, -, built⟩ := Except.bind_eq_ok.mp later
  unfold ExecutorFactory.buildSelect at built
  split at built
  · cases built
  · obtain rfl := Except.ok.inj built
    trivial

theorem writesRows_delete {parsed : Hsql.DeleteStatement}
    (translated : deleteStatement catalog parsed = .ok statement) :
    WritesRows catalog statement := by
  obtain ⟨_, -, later⟩ := Except.bind_eq_ok.mp translated
  obtain ⟨bound, -, later⟩ := Except.bind_eq_ok.mp later
  obtain ⟨filter, -, built⟩ := Except.bind_eq_ok.mp later
  unfold ExecutorFactory.buildDelete at built
  split at built
  · cases built
  · obtain rfl := Except.ok.inj built
    trivial

theorem writesRows_update {parsed : Hsql.UpdateStatement}
    (translated : updateStatement catalog parsed = .ok statement) :
    WritesRows catalog statement := by
  obtain ⟨parsed', transformed, later⟩ := Except.bind_eq_ok.mp translated
  obtain ⟨bound, binds, later⟩ := Except.bind_eq_ok.mp later
  obtain ⟨filter, -, built⟩ := Except.bind_eq_ok.mp later
  have literals := fromParser_boundUpdateStatement
    (Transformer.fromParser_transformUpdate (Except.of_mapError transformed)) binds
  unfold ExecutorFactory.buildUpdate at built
  split at built
  · cases built
  · rename_i table found
    obtain rfl := Except.ok.inj built
    refine ⟨bound.tableId, table, rfl, found, rfl, fun clause member => ?_⟩
    obtain ⟨origin, inBound, rfl⟩ := List.mem_map.mp member
    exact literals origin inBound

theorem values_of_boundInsertStatement {parsed : InsertStatement} {bound : BoundInsertStatement}
    (binds : (Binder.boundInsertStatement parsed).run catalog = (.ok bound, catalog')) :
    bound.values = parsed.values := by
  obtain ⟨before, u, -, later⟩ := Program.run_bind_eq_ok.mp binds
  obtain ⟨_, u', -, later⟩ := Program.run_bind_eq_ok.mp later
  obtain ⟨columnIds, u'', -, returned⟩ := Program.run_bind_eq_ok.mp later
  cases returned
  rfl

theorem writesRows_insert {parsed : Hsql.InsertStatement}
    (translated : (insertStatement parsed).run catalog = (.ok statement, catalog')) :
    WritesRows catalog' statement := by
  obtain ⟨parsed', u, transformed, later⟩ := Program.run_bind_eq_ok.mp translated
  obtain ⟨bound, u', binds, later⟩ := Program.run_bind_eq_ok.mp later
  obtain ⟨after, u'', read, built⟩ := Program.run_bind_eq_ok.mp later
  cases read
  obtain ⟨built, rfl⟩ := Prod.ext_iff.mp built
  have literals := fromParser_transformInsert (congrArg Prod.fst transformed)
  rw [← values_of_boundInsertStatement binds] at literals
  dsimp only [Program.run_lift] at built
  unfold ExecutorFactory.buildInsert at built
  split at built
  · cases built
  · rename_i table found
    obtain rfl := Except.ok.inj built
    refine ⟨bound.tableId, table, rfl, found, fun bytes serialized => ?_⟩
    refine .of_serialize ?_ (fun column member => .inr ?_) serialized
    · rw [List.length_map, ExecutorValues.fullValues, List.length_map]
      rfl
    · exact fromParser_fullValues table bound.columnIds literals _ (List.of_mem_zip member).2

theorem writesRows_toInput {sql : Sql}
    (translated : sql.toInput.run catalog = (.ok (.sql statement), catalog')) :
    WritesRows catalog' statement := by
  cases sql with
  | transaction command => cases translated
  | select parsed =>
      obtain ⟨_, _, read, later⟩ := Program.run_bind_eq_ok.mp translated
      cases read
      obtain ⟨_, _, made, returned⟩ := Program.run_bind_eq_ok.mp later
      cases returned
      obtain ⟨made, rfl⟩ := Prod.ext_iff.mp made
      exact writesRows_select made
  | insert parsed =>
      obtain ⟨_, _, made, returned⟩ := Program.run_bind_eq_ok.mp translated
      cases returned
      exact writesRows_insert made
  | delete parsed =>
      obtain ⟨_, _, read, later⟩ := Program.run_bind_eq_ok.mp translated
      cases read
      obtain ⟨_, _, made, returned⟩ := Program.run_bind_eq_ok.mp later
      cases returned
      obtain ⟨made, rfl⟩ := Prod.ext_iff.mp made
      exact writesRows_delete made
  | update parsed =>
      obtain ⟨_, _, read, later⟩ := Program.run_bind_eq_ok.mp translated
      cases read
      obtain ⟨_, _, made, returned⟩ := Program.run_bind_eq_ok.mp later
      cases returned
      obtain ⟨made, rfl⟩ := Prod.ext_iff.mp made
      exact writesRows_update made

/-! ## What translation leaves as it is -/

/-- Every table has the columns that it had. -/
def SameTypes (catalog catalog' : Catalog) : Prop :=
  ∀ id, (catalog'.tables id).map TableEntry.types = (catalog.tables id).map TableEntry.types

theorem Conforms.sameTypes {contents : Contents} (conforms : Conforms catalog contents)
    (same : SameTypes catalog catalog') : Conforms catalog' contents := by
  intro id table found row member
  have types := same id
  rw [found, Option.map_some] at types
  obtain ⟨table', found', types⟩ := Option.map_eq_some_iff.mp types.symm
  rw [← types]
  exact conforms id table' found' row member

theorem types_boundColumn (table : TableEntry) (name : List UInt8) :
    (Terminal.boundColumn table name).2.types = table.types := by
  unfold Terminal.boundColumn
  cases table.columnNameIdx name <;> rfl

namespace Binder

theorem sameTypes_boundInsertColumn (id : UInt64) (name : List UInt8) :
    (boundInsertColumn id name).Preserves (SameTypes catalog) := by
  intro catalog' same
  cases found : catalog'.tables id with
  | none =>
      unfold boundInsertColumn
      rw [Program.run_get_bind, found]
      exact same
  | some table =>
      rw [run_boundInsertColumn id name found]
      intro id'
      by_cases here : id' = id
      · subst here
        dsimp only
        rw [Function.update_self, ← same id', found, Option.map_some, Option.map_some,
          types_boundColumn]
      · exact (congrArg (Option.map TableEntry.types) (Function.update_of_ne here ..)).trans (same id')

theorem sameTypes_boundInsertStatement (statement : InsertStatement) :
    (boundInsertStatement statement).Preserves (SameTypes catalog) := by
  have columns : ∀ (id : UInt64) (names : List (List UInt8)),
      (boundInsertColumns id names).Preserves (SameTypes catalog) := by
    intro id names
    induction names with
    | nil => exact Program.preserves_pure _
    | cons name names ih =>
        exact (sameTypes_boundInsertColumn id name).bind fun _ =>
          ih.bind fun _ => Program.preserves_pure _
  refine Program.preserves_getThen fun _ => ?_
  refine Program.Preserves.bind (Program.preserves_modify ?_) fun _ =>
    (columns _ _).bind fun _ => Program.preserves_pure _
  exact fun _ same => same

end Binder

theorem sameTypes_toInput (sql : Sql) : sql.toInput.Preserves (SameTypes catalog) := by
  cases sql with
  | transaction command => exact Program.preserves_pure _
  | select parsed =>
      exact Program.preserves_getThen fun _ =>
        Program.preserves_liftThen _ fun _ => Program.preserves_pure _
  | insert parsed =>
      refine Program.Preserves.bind ?_ fun _ => Program.preserves_pure _
      exact Program.preserves_liftThen _ fun statement =>
        (Binder.sameTypes_boundInsertStatement statement).bind fun _ =>
          Program.preserves_getThen fun _ => Program.preserves_lift _
  | delete parsed =>
      exact Program.preserves_getThen fun _ =>
        Program.preserves_liftThen _ fun _ => Program.preserves_pure _
  | update parsed =>
      exact Program.preserves_getThen fun _ =>
        Program.preserves_liftThen _ fun _ => Program.preserves_pure _

/-! ## WHERE on rows of the schema -/

/-- A row without VARCHAR2 that has been written can be read. -/
theorem WrittenRow.reads (written : WrittenRow schema row) (decoded : ColumnTypes.varchar2 ∉ schema) :
    ∃ values, Row.deserialize schema row = .ok values := by
  obtain ⟨values, same, matching, serialized⟩ := written
  refine ⟨_, (Row.deserialize_of_serialize same matching ?_ serialized).1⟩
  rintro column member - isVarchar2
  exact decoded (isVarchar2 ▸ (List.of_mem_zip member).1)

theorem Conforms.decides {contents : Contents} (conforms : Conforms catalog contents) :
    Decides catalog contents := by
  intro creation table hasTable decoded row member
  obtain ⟨values, reads⟩ := (conforms table.id table hasTable.found row member).reads decoded
  refine ⟨⟨values, reads⟩, fun condition known typed => ?_⟩
  have tuple : (Tuple.mk table.getSchema (List.replicate REC_HEADER_SIZE 0 ++ row)).values =
      .ok values := by
    rw [values_eq_deserialize, List.drop_left' (List.length_replicate ..)]
    exact reads
  have fits := fits_of_typeOf (filledCells_fits hasTable.made tuple) condition typed
  have means := ofResult_filter hasTable.made known row
  rw [reads] at means
  rw [← means] at fits
  cases evaluated : (condition.compiled table.id creation.idOf).filter table.getSchema row with
  | error message =>
      rw [evaluated] at fits
      cases fits
  | ok result =>
      rw [evaluated] at fits
      obtain ⟨isNull, val⟩ := result
      cases isNull with
      | true => cases fits
      | false =>
          cases val with
          | bool b => exact ⟨b, rfl⟩
          | _ => cases fits

/-! ## One input -/

namespace Session

/-- The process is where the specification is, and the rows are rows of their schemas. -/
inductive Follows (lists : Nat → Bool) (start : Catalog) :
    Option Session → Option (Catalog × Store Contents) → Prop
  | crashed : Follows lists start none none
  | running {catalog : Catalog} {terminal : YourSQLTerminal} {store : Store Contents} :
      YourSQLTerminal.Stands lists terminal store → store.All (Conforms catalog) →
      SameTypes start catalog →
      Follows lists start (some ⟨catalog, terminal⟩) (some (catalog, store))

theorem step_follows {lists : Nat → Bool} {start : Catalog} {session : Option Session}
    {state : Option (Catalog × Store Contents)} (sql : Sql)
    (follows : Follows lists start session state) (admits : Admits state sql) :
    Response.Tells (step session sql).1 (spec lists state sql).1 ∧
      Follows lists start (step session sql).2 (spec lists state sql).2 := by
  cases follows with
  | crashed => exact ⟨.crashed, .crashed⟩
  | @running catalog terminal store stands typed same =>
      have types := sameTypes_toInput sql catalog fun _ => rfl
      cases translated : sql.toInput.run catalog with
      | mk result catalog' =>
          rw [translated] at types
          have typed' : store.All (Conforms catalog') :=
            ⟨typed.committed.sameTypes types, fun contents working =>
              (typed.working contents working).sameTypes types⟩
          have same' : SameTypes start catalog' := fun id => (types id).trans (same id)
          unfold step spec
          dsimp only
          rw [translated]
          cases result with
          | error fault =>
              cases fault with
              | nullPointer => exact ⟨.crashed, .crashed⟩
              | exception what => exact ⟨.refused what, .running stands typed' same'⟩
          | ok input =>
              have admits : YourSQLTerminal.Admits store input.request := by
                unfold Admits at admits
                dsimp only at admits
                rwa [translated] at admits
              obtain ⟨tells, stands'⟩ := YourSQLTerminal.step_stands input stands admits
              refine ⟨.output tells, .running stands' (typed'.handle ?_) same'⟩
              intro statement answer contents isStatement means
              cases input with
              | transaction command => cases command <;> cases isStatement
              | sql statement' =>
                  cases isStatement
                  exact typed'.view.meaning (writesRows_toInput translated) means

theorem Follows.shows {lists : Nat → Bool} {start : Catalog} {session : Option Session}
    {state : Option (Catalog × Store Contents)} (follows : Follows lists start session state) :
    Shows session state := by
  cases follows with
  | crashed => trivial
  | running stands _ _ => exact ⟨rfl, stands.shows⟩

theorem Follows.sameTypes {lists : Nat → Bool} {start : Catalog} {session : Session}
    {state : Option (Catalog × Store Contents)}
    (follows : Follows lists start (some session) state) : SameTypes start session.catalog := by
  cases follows with
  | running _ _ same => exact same

/-- What scans show are the contents of the store. -/
theorem Follows.conforms {lists : Nat → Bool} {start : Catalog} {session : Session}
    {state : Option (Catalog × Store Contents)}
    (follows : Follows lists start (some session) state) {contents : Contents}
    (scans : session.Scans contents) : Conforms session.catalog contents := by
  cases follows with
  | @running catalog terminal store stands typed same =>
      have shows_ := stands.shows
      unfold Scans at scans
      unfold YourSQLTerminal.Shows at shows_
      dsimp only at scans
      cases holder : terminal.session.currentTxn with
      | none =>
          rw [holder] at scans shows_
          cases working : store.working with
          | some contents' =>
              rw [working] at shows_
              cases shows_
          | none =>
              rw [working] at shows_
              rw [scans, shows_.2]
              exact typed.committed
      | some txn =>
          rw [holder] at scans shows_
          cases working : store.working with
          | none =>
              rw [working] at shows_
              cases shows_
          | some contents' =>
              rw [working] at shows_
              rcases scans with rfl | rfl
              · rw [shows_.2.1]
                exact typed.working contents' working
              · rw [shows_.2.2]
                exact typed.committed

/-- An empty table of an integer and a string. -/
def pairsSession : Session := ⟨({} : Catalog).addTable pairsTable, { database := oneTable }⟩

/-- A row comes in, is changed in a transaction and deleted there, and that is taken back. -/
def pairsInputs : List Sql :=
  [.insert ⟨[116], some [[105], [115]],
      some [.literalInt 3, .literalString [97] (by decide)], by simp⟩,
    .transaction .begin,
    .update ⟨[116], [⟨[115], .literalString [98, 99] (by decide)⟩],
      .operator .less (.columnRef [105]) (.literalInt 5)⟩,
    .delete ⟨[116], .operator .equals (.columnRef [115]) (.literalString [98, 99])⟩,
    .select ⟨[.star], .tableName [117], .absent⟩,
    .transaction .rollback,
    .select ⟨[.star], .tableName [116], .operator .equals (.columnRef [105]) (.literalInt 3)⟩]

end Session

end YourSQL.Stored
