import YourSQL.Buffer.MetaPageBounds
import YourSQL.Catalog.TerminalRestart

/-! # CREATE TABLE in the catalog and on the meta page

The binder registers the table in the catalog, the executor then enters it on the meta page.
Nothing takes the first step back when the second one throws.
-/

namespace YourSQL.Stored

/-- What the parser hands to the binder. The size of a vector is a `size_t`. -/
structure Creation where
  name : List UInt8
  columns : List (List UInt8 × UInt8)
  few : columns.length < 2 ^ 64

namespace Creation

/-- The columns, with the ids that they are to have. -/
def shown (creation : Creation) : List (UInt64 × List UInt8 × Option ColumnTypes) :=
  creation.columns.zipIdx.map fun column =>
    (UInt64.ofNat column.2, column.1.1, columnTypeOf column.1.2)

/-- The bytes of the entry on the meta page. -/
def size (creation : Creation) : Nat :=
  56 + creation.name.length + (creation.columns.map fun column => 18 + column.1.length).sum

end Creation

namespace Terminal

/-- `Binder::BoundCreateTableStatement`, and then `ExecutorCreateTable::Next`. -/
def createTableCall (creation : Creation) : Program Terminal String PUnit := do
  if ((← get).catalog.tableNameIdx creation.name).isSome then
    throw "Binder::BoundCreateTable target table is exist."
  let id := (← get).objId
  modify fun t => { t with objId := t.objId + 1 }
  let table ← Program.lift (boundTable id creation.name creation.columns)
  modify fun t => { t with
    catalog.tableNameIdx := Function.update t.catalog.tableNameIdx table.name (some table.id)
    catalog.tables := Function.update t.catalog.tables table.id (some table) }
  match (← get).catalog.tables table.id with
  | none => throw "ExecutorCreateTable::Next create of table don`t exist in the catalog."
  | some table =>
      let metaPage ← Program.lift ((← get).metaPage.addTable (metaItemOf table))
      modify fun t => { t with metaPage := metaPage }

/-- One statement. The terminal prints what it throws and goes on. -/
def create (t : Terminal) (creation : Creation) : Option Terminal :=
  some ((createTableCall creation).run t).2

/-- A table and an item that stand for one another, with the columns in the order of their
    ids. -/
def Paired (id : UInt64) : Option TableEntry → Option MetaItem → Prop
  | some table, some item =>
      table.id = id ∧ item.tableId = id ∧ item.tableName = table.name ∧
        item.items = (metaItemOf table).items ∧ Numbered item.items
  | none, none => True
  | _, _ => False

/-- The catalog and the meta page have the same tables, and the meta page is one page. -/
structure InStep (t : Terminal) : Prop where
  page : t.metaPage.data.length = PAGE_SIZE
  names : ∀ name id, t.catalog.tableNameIdx name = some id ↔
    ∃ table, t.catalog.tables id = some table ∧ table.name = name
  tables : ∀ id, Paired id (t.catalog.tables id) (t.metaPage.items id)

/-- A statement that throws leaves the catalog and the meta page as they were, and one that
    returns has made the table. -/
def AllOrNothing (t : Terminal) (creation : Creation) : Prop :=
  match (createTableCall creation).run t with
  | (.error _, t') => t'.catalog = t.catalog ∧ t'.metaPage = t.metaPage
  | (.ok _, t') =>
      ∃ table, t'.catalog.tableNameIdx creation.name = some table.id ∧
        t'.catalog.tables table.id = some table ∧
        table.getSchema.map ColumnEntry.shown = creation.shown

def KeepsStep (t : Terminal) (creation : Creation) : Prop :=
  AllOrNothing t creation ∧ InStep ((createTableCall creation).run t).2

/-- The name is known, or a type is refused, or there is room on the meta page and the id
    that is drawn is new. -/
def Settled (t : Terminal) (creation : Creation) : Prop :=
  (t.catalog.tableNameIdx creation.name).isSome ∨
    (∃ column ∈ creation.columns, ¬ Accepted column.2) ∨
    (t.metaPage.items t.objId = none ∧ t.metaPage.lastPoint + creation.size ≤ PAGE_SIZE)

/-! ## The table that is built -/

/-- The columns get the ids from 0 on. -/
theorem boundTable_shown {id : UInt64} {creation : Creation} {table : TableEntry}
    (bound : boundTable id creation.name creation.columns = .ok table) :
    table.id = id ∧ table.name = creation.name ∧
      table.getSchema.map ColumnEntry.shown = creation.shown := by
  let columns : List MetaColumnItem :=
    creation.columns.zipIdx.map fun column => ⟨column.1.1, column.1.2, 0, UInt64.ofNat column.2⟩
  have length : columns.length = creation.columns.length := by simp [columns]
  have few : columns.length < 2 ^ 64 := length ▸ creation.few
  have numbered : Numbered columns := by
    have indices := congrArg (List.map UInt64.ofNat) (List.zipIdx_map_snd 0 creation.columns)
    rw [← List.range_eq_range', List.map_map] at indices
    rw [Numbered, length, ← indices]
    exact List.map_map
  have same : (columns.map fun column => (column.columnName, column.type)) = creation.columns := by
    simp only [columns, List.map_map, Function.comp_def, Prod.mk.eta]
    exact List.zipIdx_map_fst 0 creation.columns
  obtain ⟨accepted, sameId, sameName⟩ := of_boundTable bound
  have types : ∀ column ∈ columns, Accepted column.type := by
    intro column member
    have pair := List.mem_map_of_mem (f := fun column => (column.columnName, column.type)) member
    rw [same] at pair
    exact accepted _ pair
  obtain ⟨entry, -, built, -, -, schema⟩ :=
    @tableOfItem_eq { tableName := creation.name, tableId := id } columns few numbered types
  rw [same] at built
  obtain rfl : entry = table := Except.ok.inj (built.symm.trans bound)
  refine ⟨sameId, sameName, ?_⟩
  rw [schema, Creation.shown, List.map_map]
  rfl

theorem items_metaItemOf {creation : Creation} {table : TableEntry}
    (schema : table.getSchema.map ColumnEntry.shown = creation.shown) :
    Numbered (metaItemOf table).items ∧
      ((metaItemOf table).items.map fun column => 18 + column.columnName.length) =
        creation.columns.map fun column => 18 + column.1.length := by
  have ids := congrArg (List.map fun shown => shown.1) schema
  have names := congrArg (List.map fun shown => 18 + shown.2.1.length) schema
  simp only [Creation.shown, List.map_map] at ids names
  have length := congrArg List.length schema
  simp only [Creation.shown, List.length_map, List.length_zipIdx] at length
  constructor
  · have indices := congrArg (List.map UInt64.ofNat) (List.zipIdx_map_snd 0 creation.columns)
    rw [← List.range_eq_range', List.map_map] at indices
    rw [Numbered, metaItemOf, List.map_map, List.length_map, show table.columns.length = _ from length,
      ← indices]
    exact ids
  · have first := congrArg (List.map fun column => 18 + column.1.length)
      (List.zipIdx_map_fst 0 creation.columns)
    rw [List.map_map] at first
    rw [metaItemOf, List.map_map, ← first]
    exact names

theorem entrySize_metaItemOf {creation : Creation} {table : TableEntry}
    (name : table.name = creation.name)
    (schema : table.getSchema.map ColumnEntry.shown = creation.shown) :
    entrySize (metaItemOf table) = creation.size := by
  rw [entrySize, (items_metaItemOf schema).2, Creation.size, ← name]
  rfl

/-! ## How a statement ends -/

/-- The terminal once the binder has returned. -/
def registered (t : Terminal) (table : TableEntry) : Terminal :=
  { t with
    objId := t.objId + 1
    catalog.tableNameIdx := Function.update t.catalog.tableNameIdx table.name (some table.id)
    catalog.tables := Function.update t.catalog.tables table.id (some table) }

variable {t : Terminal} {creation : Creation}

theorem run_createTableCall_known (known : (t.catalog.tableNameIdx creation.name).isSome) :
    (createTableCall creation).run t =
      (.error "Binder::BoundCreateTable target table is exist.", t) := by
  unfold createTableCall
  simp only [Program.run_get_bind, known, if_true]
  rfl

theorem run_createTableCall_refused (fresh : t.catalog.tableNameIdx creation.name = none)
    {column : List UInt8 × UInt8} (member : column ∈ creation.columns)
    (refused : ¬ Accepted column.2) :
    ∃ message, (createTableCall creation).run t = (.error message, { t with objId := t.objId + 1 }) := by
  cases bound : boundTable t.objId creation.name creation.columns with
  | ok table => exact absurd ((of_boundTable bound).1 column member) refused
  | error message =>
      refine ⟨message, ?_⟩
      unfold createTableCall
      simp only [Program.run_get_bind, fresh, Option.isSome_none, Bool.false_eq_true, if_false,
        Program.run_modify_bind, bound]
      rfl

/-- The binder has entered the table when the meta page is asked for space. -/
theorem run_createTableCall_bound (fresh : t.catalog.tableNameIdx creation.name = none)
    {table : TableEntry} (bound : boundTable t.objId creation.name creation.columns = .ok table) :
    (createTableCall creation).run t =
      match (MetaPage.addTableCall (metaItemOf table)).run t.metaPage with
      | (.ok _, metaPage) => (.ok ⟨⟩, { registered t table with metaPage := metaPage })
      | (.error message, _) => (.error message, registered t table) := by
  unfold createTableCall
  simp only [Program.run_get_bind, fresh, Option.isSome_none, Bool.false_eq_true, if_false,
    Program.run_modify_bind, bound]
  change (match Function.update t.catalog.tables table.id (some table) table.id with
    | none => _
    | some table => _ : Program Terminal String PUnit).run (registered t table) = _
  rw [Function.update_self, run_addTableCall]
  change Program.run (Program.lift (t.metaPage.addTable (metaItemOf table)) >>= _)
    (registered t table) = _
  rw [Program.run_bind, Program.run_lift]
  cases t.metaPage.addTable (metaItemOf table) <;> rfl

/-- The terminal that a statement leaves is that of `createTable`. -/
theorem create_eq_createTable (t : Terminal) (creation : Creation) :
    t.create creation = some (t.createTable creation.name creation.columns) := by
  unfold create createTable
  cases known : t.catalog.tableNameIdx creation.name with
  | some id => rw [run_createTableCall_known (by rw [known]; rfl)]; rfl
  | none =>
      cases bound : boundTable t.objId creation.name creation.columns with
      | error message =>
          unfold createTableCall
          simp only [Program.run_get_bind, known, Option.isSome_none, Bool.false_eq_true, if_false,
            Program.run_modify_bind, bound]
          rfl
      | ok table =>
          simp only [run_createTableCall_bound known bound, run_addTableCall, Option.isSome_none,
            Bool.false_eq_true, if_false, bound]
          cases t.metaPage.addTable (metaItemOf table) <;> rfl

/-- The cursor only moves on. -/
theorem lastPoint_le_create (behind : ITEMS_OFFSET_BEGIN ≤ t.metaPage.lastPoint)
    (page : t.metaPage.data.length = PAGE_SIZE) (creation : Creation) :
    ITEMS_OFFSET_BEGIN ≤ ((createTableCall creation).run t).2.metaPage.lastPoint := by
  cases known : t.catalog.tableNameIdx creation.name with
  | some id =>
      rw [run_createTableCall_known (by rw [known]; rfl)]
      exact behind
  | none =>
      cases bound : boundTable t.objId creation.name creation.columns with
      | error message =>
          have refused : ∃ column ∈ creation.columns, ¬ Accepted column.2 := by
            by_contra accepted
            push Not at accepted
            obtain ⟨table, built⟩ := boundTable_of_accepted t.objId creation.name accepted
            rw [bound] at built
            cases built
          obtain ⟨column, member, refused⟩ := refused
          obtain ⟨message, ran⟩ := run_createTableCall_refused known member refused
          rw [ran]
          exact behind
      | ok table =>
          have bounded : Bounded t.metaPage := ⟨behind, .inl page⟩
          have later := (bounded.addTable (metaItemOf table)).lastPoint
          rw [run_createTableCall_bound known bound]
          cases added : (MetaPage.addTableCall (metaItemOf table)).run t.metaPage with
          | mk result metaPage =>
              rw [added] at later
              cases result with
              | ok _ => exact later
              | error message => exact behind

/-! ## What one statement keeps -/

/-- A terminal in step, with the cursor behind the header of the meta page. -/
structure Ready (t : Terminal) : Prop extends InStep t where
  lastPoint : ITEMS_OFFSET_BEGIN ≤ t.metaPage.lastPoint

theorem Paired.unused {id : UInt64} {table : Option TableEntry} (paired : Paired id table none) :
    table = none := by
  cases table with
  | none => rfl
  | some table => cases paired

/-- A new table under a new id leaves the terminal in step. -/
theorem InStep.registered (inStep : InStep t) (fresh : t.catalog.tableNameIdx creation.name = none)
    {table : TableEntry} (bound : boundTable t.objId creation.name creation.columns = .ok table)
    (unused : t.metaPage.items t.objId = none) {metaPage : MetaPage}
    (page : metaPage.data.length = PAGE_SIZE) {offset : Nat}
    (items : metaPage.items = Function.update t.metaPage.items table.id
      (some { metaItemOf table with offset := offset })) :
    InStep { registered t table with metaPage := metaPage } := by
  obtain ⟨id, name, schema⟩ := boundTable_shown bound
  have free : t.catalog.tables t.objId = none := by
    have paired := inStep.tables t.objId
    rw [unused] at paired
    exact paired.unused
  refine ⟨page, fun name' id' => ?_, fun id' => ?_⟩
  · change Function.update t.catalog.tableNameIdx table.name (some table.id) name' = some id' ↔
      ∃ table', Function.update t.catalog.tables table.id (some table) id' = some table' ∧
        table'.name = name'
    rw [id, name]
    by_cases sameName : name' = creation.name
    · subst sameName
      rw [Function.update_self]
      constructor
      · intro isId
        obtain rfl := Option.some.inj isId
        exact ⟨table, Function.update_self .., name⟩
      · rintro ⟨table', entry, named⟩
        by_cases sameId : id' = t.objId
        · rw [sameId]
        · rw [Function.update_of_ne sameId] at entry
          have known := (inStep.names _ _).mpr ⟨table', entry, named⟩
          rw [fresh] at known
          cases known
    · rw [Function.update_of_ne sameName, inStep.names]
      constructor
      · rintro ⟨table', entry, named⟩
        have other : id' ≠ t.objId := by
          rintro rfl
          rw [free] at entry
          cases entry
        exact ⟨table', by rwa [Function.update_of_ne other], named⟩
      · rintro ⟨table', entry, named⟩
        by_cases sameId : id' = t.objId
        · rw [sameId, Function.update_self] at entry
          obtain rfl := Option.some.inj entry
          exact absurd (named.symm.trans name) sameName
        · rw [Function.update_of_ne sameId] at entry
          exact ⟨table', entry, named⟩
  · change Paired id' (Function.update t.catalog.tables table.id (some table) id')
      (metaPage.items id')
    rw [items, id]
    by_cases sameId : id' = t.objId
    · rw [sameId, Function.update_self, Function.update_self]
      exact ⟨id, id, rfl, rfl, (items_metaItemOf schema).1⟩
    · rw [Function.update_of_ne sameId, Function.update_of_ne sameId]
      exact inStep.tables id'

theorem items_appendColumn (m : MetaPage) (column : MetaColumnItem) :
    (m.appendColumn column).items = m.items := by
  simp only [MetaPage.appendColumn, MetaPage.append, MetaPage.memcpy]

theorem items_foldl_appendColumn (columns : List MetaColumnItem) (m : MetaPage) :
    (columns.foldl MetaPage.appendColumn m).items = m.items := by
  induction columns generalizing m with
  | nil => rfl
  | cons column columns ih => rw [List.foldl_cons, ih, items_appendColumn]

/-- A call of `AddTable` that returns enters the item, where the cursor was. -/
theorem items_addTableCall {m m' : MetaPage} {item : MetaItem}
    (added : (MetaPage.addTableCall item).run m = (.ok ⟨⟩, m')) :
    ∃ offset, m'.items = Function.update m.items item.tableId (some { item with offset := offset }) := by
  rw [run_addTableCall] at added
  cases call : m.addTable item with
  | error message =>
      rw [call] at added
      cases added
  | ok m'' =>
      rw [call] at added
      obtain rfl : m'' = m' := congrArg Prod.snd added
      unfold MetaPage.addTable at call
      dsimp only at call
      split at call
      · cases call
      · refine ⟨if m.lastPoint = 0 then ITEMS_OFFSET_BEGIN else m.lastPoint, ?_⟩
        rw [← Except.ok.inj call]
        simp only [MetaPage.updateTableSize, MetaPage.writeLastPoint, MetaPage.flush,
          MetaPage.memcpy, MetaPage.enterItem, items_foldl_appendColumn, MetaPage.append]

theorem addTableCall_room {m : MetaPage} {item : MetaItem}
    (room : m.lastPoint + (ITEM_FIXED_SIZE + item.tableName.length) < PAGE_SIZE) :
    ∃ m', (MetaPage.addTableCall item).run m = (.ok ⟨⟩, m') := by
  obtain ⟨m', added⟩ := addTable_room room
  exact ⟨m', by rw [run_addTableCall, added]⟩

/-- A statement keeps the catalog and the meta page in step and is all or nothing if and only
    if nothing can go wrong behind the binder. -/
theorem Ready.keepsStep_iff (ready : Ready t) : KeepsStep t creation ↔ Settled t creation := by
  cases known : t.catalog.tableNameIdx creation.name with
  | some id =>
      have isKnown : (t.catalog.tableNameIdx creation.name).isSome := by rw [known]; rfl
      refine iff_of_true ?_ (.inl isKnown)
      rw [KeepsStep, AllOrNothing, run_createTableCall_known isKnown]
      exact ⟨⟨rfl, rfl⟩, ready.toInStep⟩
  | none =>
      cases bound : boundTable t.objId creation.name creation.columns with
      | error message =>
          have refused : ∃ column ∈ creation.columns, ¬ Accepted column.2 := by
            by_contra accepted
            push Not at accepted
            obtain ⟨table, built⟩ := boundTable_of_accepted t.objId creation.name accepted
            rw [bound] at built
            cases built
          obtain ⟨column, member, refused⟩ := refused
          obtain ⟨message, ran⟩ := run_createTableCall_refused known member refused
          refine iff_of_true ?_ (.inr (.inl ⟨column, member, refused⟩))
          rw [KeepsStep, AllOrNothing, ran]
          exact ⟨⟨rfl, rfl⟩, ready.page, ready.names, ready.tables⟩
      | ok table =>
          obtain ⟨id, name, schema⟩ := boundTable_shown bound
          have size := entrySize_metaItemOf name schema
          have tableName : (metaItemOf table).tableName.length = creation.name.length := by
            rw [← name]
            rfl
          have bounded : Bounded t.metaPage := ⟨ready.lastPoint, .inl ready.page⟩
          have ran := run_createTableCall_bound known bound
          cases Nat.lt_or_ge (t.metaPage.lastPoint +
              (ITEM_FIXED_SIZE + (metaItemOf table).tableName.length)) PAGE_SIZE with
          | inr full =>
              -- the table stays in the catalog
              obtain ⟨message, refused⟩ := Bounded.refused full
              rw [refused] at ran
              refine iff_of_false ?_ ?_
              · rintro ⟨unchanged, -⟩
                rw [AllOrNothing, ran] at unchanged
                have same := congrArg (fun catalog => catalog.tableNameIdx table.name) unchanged.1
                simp only [registered, Function.update_self, name, known] at same
                cases same
              · rintro (isKnown | ⟨column, member, refused⟩ | ⟨-, fits⟩)
                · rw [known] at isKnown
                  cases isKnown
                · exact refused ((of_boundTable bound).1 column member)
                · rw [tableName] at full
                  simp only [ITEM_FIXED_SIZE, Creation.size] at full fits
                  omega
          | inl room =>
              obtain ⟨metaPage, added⟩ := addTableCall_room room
              obtain ⟨offset, items⟩ := items_addTableCall added
              obtain ⟨length, -⟩ := bounded.length_run room
              rw [added, size] at length
              rw [added] at ran
              constructor
              · rintro ⟨-, inStep⟩
                rw [ran] at inStep
                refine .inr (.inr ⟨?_, ?_⟩)
                · cases used : t.metaPage.items t.objId with
                  | none => rfl
                  | some item =>
                      -- the old table of this id keeps its name and loses its columns
                      have paired := ready.tables t.objId
                      rw [used] at paired
                      cases old : t.catalog.tables t.objId with
                      | none =>
                          rw [old] at paired
                          cases paired
                      | some other =>
                          have listed := (ready.names other.name t.objId).mpr ⟨other, old, rfl⟩
                          have different : other.name ≠ table.name := by
                            intro same
                            rw [same, name, known] at listed
                            cases listed
                          have later : Function.update t.catalog.tableNameIdx table.name
                              (some table.id) other.name = some t.objId := by
                            rw [Function.update_of_ne different, listed]
                          obtain ⟨table', entry, named⟩ := (inStep.names _ _).mp later
                          simp only [registered, id, Function.update_self] at entry
                          obtain rfl := Option.some.inj entry
                          exact absurd named.symm different
                · have page := inStep.page
                  dsimp only at page length
                  omega
              · rintro (isKnown | ⟨column, member, refused⟩ | ⟨unused, fits⟩)
                · rw [known] at isKnown
                  cases isKnown
                · exact absurd ((of_boundTable bound).1 column member) refused
                · have page : metaPage.data.length = PAGE_SIZE := by
                    dsimp only at length
                    omega
                  refine ⟨?_, ?_⟩
                  · rw [AllOrNothing, ran]
                    refine ⟨table, ?_, ?_, schema⟩
                    · rw [← name]
                      exact Function.update_self ..
                    · exact Function.update_self ..
                  · rw [ran]
                    exact ready.toInStep.registered known bound unused page items

/-! ## Runs -/

theorem Ready.next (ready : Ready t) (keeps : KeepsStep t creation) :
    Ready ((createTableCall creation).run t).2 :=
  { keeps.2 with lastPoint := lastPoint_le_create ready.lastPoint ready.page creation }

/-- All statements of a run are all or nothing and keep the catalog and the meta page in step
    if and only if each of them names a table that is known, or is refused for a type, or
    finds room on the meta page and a new id. -/
theorem Ready.keepsStep_run_iff (ready : Ready t) (creations : List Creation) :
    Transition.AllSteps create KeepsStep t creations ↔
      Transition.AllSteps create Settled t creations := by
  refine Transition.allSteps_congr ready ?_ fun t _ _ ready => ready.keepsStep_iff
  intro t creation _ t' ready keeps stepped
  obtain rfl := Option.some.inj stepped
  exact ready.next keeps

theorem ready_fresh (objId : UInt64) : Ready (fresh objId) where
  page := List.length_replicate
  names := by simp [fresh, start]
  tables := fun _ => trivial
  lastPoint := Nat.le_refl _

def usersCreation : Creation := ⟨[117], [([105, 100], 1), ([110], 4)], by decide⟩

/-- A table with a name of 4032 letters, for which an empty meta page has no room. -/
def longNamed : Creation := ⟨List.replicate 4032 97, [([105], 1)], by decide⟩

theorem keepsStep_run_iff_twice :
    Transition.AllSteps create KeepsStep (fresh 1) [usersCreation, usersCreation] ↔
      Transition.AllSteps create Settled (fresh 1) [usersCreation, usersCreation] :=
  Ready.keepsStep_run_iff (ready_fresh 1) _

/-- The meta page refuses the table, the catalog keeps it, and the second attempt is told that
    the table exists. -/
theorem longNamed_stays_in_catalog :
    ¬ Transition.AllSteps create KeepsStep (fresh 1) [longNamed] := by
  rintro ⟨keeps, -⟩
  have settled := (ready_fresh 1).keepsStep_iff.mp keeps
  rcases settled with known | ⟨column, member, refused⟩ | ⟨-, fits⟩
  · cases known
  · obtain rfl := List.mem_singleton.mp member
    exact refused rfl
  · have size : longNamed.size = 4107 := by
      simp only [Creation.size, longNamed, List.length_replicate, List.map_cons, List.map_nil,
        List.sum_cons, List.sum_nil, List.length_cons, List.length_nil, Nat.reduceAdd]
    have cursor : (fresh 1).metaPage.lastPoint = 24 := rfl
    rw [size, cursor] at fits
    revert fits
    decide

end Terminal

end YourSQL.Stored
