import YourSQL.Catalog.CatalogReload
import YourSQL.Lib.Transition

/-! # A terminal after another one

`YourSQLTerminal` makes an empty `Catalog` and a `MetaPage` object on page 0, and calls
`Init` on neither of them. The object then starts with the cursor of a new page, whatever
the page holds.
-/

namespace YourSQL.Stored

def codeOf : ColumnTypes → UInt8
  | .invalid => 0
  | .integer => 1
  | .bool => 2
  | .double => 3
  | .varchar => 4
  | .varchar2 => 5
  | .timestamp => 6
  | .nullType => 7

/-- What a terminal knows of tables. `objId` is the static counter of entry ids. -/
structure Terminal where
  catalog : Catalog := {}
  metaPage : MetaPage
  objId : UInt64

/-- What the pages of a table decide while rows are inserted: the page that `NewPage` gives
    if there is none yet, for each row the page that is linked if the last one is full, and
    whether a row fails then, after the last such page. -/
structure Insertion where
  pageId : UInt64
  rows : List (Option UInt64)
  failure : Option (Option UInt64) := none
  deriving DecidableEq

/-- An INSERT names its columns: the transformer takes the list for granted. -/
inductive Statement where
  | createTable (name : List UInt8) (columns : List (List UInt8 × UInt8))
  | insert (name firstColumn : List UInt8) (columns : List (List UInt8)) (insertion : Insertion)
  deriving DecidableEq

namespace Terminal

/-- The constructor, on page 0 as the file has it. Recovery changes neither the catalog nor
    the meta page, since CREATE TABLE and INSERT log no deletion. -/
def start (data : List UInt8) (fileSize : Nat) (objId : UInt64) : Terminal where
  metaPage := { data := data, fileSize := fileSize }
  objId := objId

/-- The entry that `ExecutorCreateTable::Next` hands to the meta page. -/
def metaItemOf (table : TableEntry) : MetaItem where
  tableId := table.id
  tableName := table.name
  items := table.columns.map fun column => ⟨column.name, codeOf column.columnTypes, 0, column.id⟩

/-- `Binder::BoundCreateTableStatement`, and then `ExecutorCreateTable::Next`. A table that
    the meta page has no space for stays in the catalog. -/
def createTable (t : Terminal) (name : List UInt8) (columns : List (List UInt8 × UInt8)) :
    Terminal :=
  if (t.catalog.tableNameIdx name).isSome then
    t
  else
    let id := t.objId
    let t := { t with objId := t.objId + 1 }
    match boundTable id name columns with
    | .error _ => t
    | .ok table =>
        let t := { t with
          catalog.tableNameIdx := Function.update t.catalog.tableNameIdx table.name (some table.id)
          catalog.tables := Function.update t.catalog.tables table.id (some table) }
        match t.metaPage.addTable (metaItemOf table) with
        | .error _ => t
        | .ok metaPage => { t with metaPage := metaPage }

/-- `column_name_idx[name]` enters a name that is not there, for column 0. -/
def boundColumn (table : TableEntry) (name : List UInt8) : Option UInt64 × TableEntry :=
  match table.columnNameIdx name with
  | some id => (if id ∈ table.getColumnIds then some id else none, table)
  | none =>
      (if 0 ∈ table.getColumnIds then some 0 else none,
        { table with columnNameIdx := Function.update table.columnNameIdx name (some 0) })

/-- The loop of `Binder::BoundInsertStatement`, up to the first column that is not found. -/
def boundColumns (table : TableEntry) : List (List UInt8) → Bool × TableEntry
  | [] => (true, table)
  | name :: names =>
      match boundColumn table name with
      | (none, table) => (false, table)
      | (some _, table) => boundColumns table names

/-- The calls on the meta page of an insertion: of `Open`, of `Next` for each row, and of
    the rollback if a row failed. -/
def insertCalls (item : MetaItem) (insertion : Insertion) : List Call :=
  let id := item.tableId
  let opened :=
    if item.lastPageId = 0 then
      Call.updateTableLastId id insertion.pageId ::
        (if item.firstPageId = 0 then [Call.updateTableFirstId id insertion.pageId] else [])
    else
      []
  let linked (page : Option UInt64) : List Call :=
    match page with
    | some pageId => [Call.updateTableLastId id pageId]
    | none => []
  let inserted := insertion.rows.flatMap fun page => linked page ++ [Call.updateTableRows id 1]
  match insertion.failure with
  | none => opened ++ inserted
  | some page =>
      opened ++ inserted ++ linked page ++ insertion.rows.map fun _ => Call.updateTableRows id (-1)

/-- An INSERT into a table that the catalog does not have dereferences a null pointer. -/
def insert (t : Terminal) (name firstColumn : List UInt8) (columns : List (List UInt8))
    (insertion : Insertion) : Option Terminal :=
  match (t.catalog.tableNameIdx name).bind t.catalog.tables with
  | none => none
  | some table =>
      let (found, table) := boundColumns table (firstColumn :: columns)
      let t := { t with catalog.tables := Function.update t.catalog.tables table.id (some table) }
      match t.metaPage.items table.id with
      | none => some t
      | some item =>
          if found then
            some { t with metaPage := t.metaPage.run (insertCalls item insertion) }
          else
            some t

/-- One statement; `none` is the end of the process. -/
def step (t : Terminal) : Statement → Option Terminal
  | .createTable name columns => some (t.createTable name columns)
  | .insert name firstColumn columns insertion => t.insert name firstColumn columns insertion

/-! ## What a restart should keep -/

/-- The first terminal on an empty data file. -/
def fresh (objId : UInt64) : Terminal := start (List.replicate PAGE_SIZE 0) 0 objId

/-- A new terminal on the files of one that ended. -/
def restart (t : Terminal) (objId : UInt64) : Terminal :=
  start (t.metaPage.data.take PAGE_SIZE) t.metaPage.fileSize objId

def Created (t : Terminal) (name : List UInt8) (id : UInt64) : Prop :=
  ∃ item, t.metaPage.items id = some item ∧ item.tableName = name

structure Resolves (before after : Terminal) (name : List UInt8) (id : UInt64) : Prop where
  tableId : after.catalog.tableNameIdx name = some id
  columns : (after.catalog.tables id).map TableEntry.columns =
    (before.catalog.tables id).map TableEntry.columns
  firstPageId : (after.metaPage.items id).map MetaItem.firstPageId =
    (before.metaPage.items id).map MetaItem.firstPageId
  lastPageId : (after.metaPage.items id).map MetaItem.lastPageId =
    (before.metaPage.items id).map MetaItem.lastPageId

/-- Where the page itself says that its entries end. -/
def entriesEnd (m : MetaPage) : Nat := m.readNat 16 8

/-- Bytes of entries are not what they were. -/
def Overwrites (m m' : MetaPage) : Prop :=
  Bytes.field m'.data ITEMS_OFFSET_BEGIN (entriesEnd m - ITEMS_OFFSET_BEGIN) ≠
    Bytes.field m.data ITEMS_OFFSET_BEGIN (entriesEnd m - ITEMS_OFFSET_BEGIN)

/-- Every table is found again, and no later CREATE TABLE writes over an entry. -/
structure RestartKeeps (t : Terminal) : Prop where
  resolves : ∀ objId name id, t.Created name id → Resolves t (t.restart objId) name id
  appends : ∀ objId later u name columns, Transition.run step (t.restart objId) later = some u →
    ¬ Overwrites u.metaPage (u.createTable name columns).metaPage

/-- The column types are accepted, and the name leaves the space on an empty meta page that
    `AddTable` asks for. -/
def Possible (name : List UInt8) (columns : List (List UInt8 × UInt8)) : Prop :=
  (∀ column ∈ columns, Accepted column.2) ∧
    ITEMS_OFFSET_BEGIN + (ITEM_FIXED_SIZE + name.length) < PAGE_SIZE

/-- There is a CREATE TABLE that an empty meta page can take. -/
def Creates (statements : List Statement) : Prop :=
  ∃ name columns, .createTable name columns ∈ statements ∧ Possible name columns

/-! ## The binder -/

theorem accepted_of_create {type : UInt8} {id : UInt64} {name : List UInt8} {entry : ColumnEntry}
    (created : ColumnEntry.create id name type = .ok entry) : Accepted type := by
  unfold Accepted
  unfold ColumnEntry.create at created ⊢
  split at created
  all_goals first
    | rfl
    | cases created

theorem boundTable_of_accepted (id : UInt64) (name : List UInt8)
    {columns : List (List UInt8 × UInt8)} (accepted : ∀ column ∈ columns, Accepted column.2) :
    ∃ entry, boundTable id name columns = .ok entry := by
  induction columns using List.reverseRecOn with
  | nil => exact ⟨_, rfl⟩
  | append_singleton columns last ih =>
      obtain ⟨entry, bound⟩ := ih fun column member => accepted column (List.mem_append_left _ member)
      obtain ⟨columnTypes, -, created⟩ := create_of_accepted (accepted last (by simp))
      unfold boundTable at bound ⊢
      rw [List.foldlM_append, bound]
      simp only [List.foldlM_cons, List.foldlM_nil, bind, Except.bind, created]
      exact ⟨_, rfl⟩

theorem of_boundTable {id : UInt64} {name : List UInt8} {columns : List (List UInt8 × UInt8)}
    {entry : TableEntry} (bound : boundTable id name columns = .ok entry) :
    (∀ column ∈ columns, Accepted column.2) ∧ entry.id = id ∧ entry.name = name := by
  induction columns using List.reverseRecOn generalizing entry with
  | nil =>
      cases bound
      exact ⟨by simp, rfl, rfl⟩
  | append_singleton columns last ih =>
      cases before : boundTable id name columns with
      | error message =>
          unfold boundTable at before bound
          rw [List.foldlM_append, before] at bound
          cases bound
      | ok built =>
          obtain ⟨accepted, sameId, sameName⟩ := ih before
          unfold boundTable at before bound
          rw [List.foldlM_append, before] at bound
          simp only [List.foldlM_cons, List.foldlM_nil, bind, Except.bind] at bound
          cases created : ColumnEntry.create built.getNextColumnId last.1 last.2 with
          | error message =>
              rw [created] at bound
              cases bound
          | ok column =>
              rw [created] at bound
              cases bound
              refine ⟨?_, sameId, sameName⟩
              intro column member
              cases List.mem_append.mp member with
              | inl earlier => exact accepted column earlier
              | inr same =>
                  rw [List.mem_singleton.mp same]
                  exact accepted_of_create created

/-! ## Runs that create a table -/

def HasTable (m : MetaPage) : Prop := ∃ id item, m.items id = some item

theorem hasTable_addTable {m m' : MetaPage} {item : MetaItem} (added : m.addTable item = .ok m') :
    HasTable m' := by
  unfold MetaPage.addTable at added
  dsimp only at added
  split at added
  · cases added
  · cases added
    exact ⟨item.tableId, _, Function.update_self ..⟩

theorem hasTable_call {m m' : MetaPage} {call : Call} (called : m.call call = .ok m') :
    HasTable m' := by
  cases call with
  | addTable item => exact hasTable_addTable called
  | updateTableRows tableId _ | updateTableFirstId tableId _ | updateTableLastId tableId _ =>
      simp only [MetaPage.call, MetaPage.updateTableRows, MetaPage.updateTableFirstId,
        MetaPage.updateTableLastId] at called
      split at called
      · cases called
      · cases called
        exact ⟨tableId, _, Function.update_self ..⟩

theorem hasTable_step {m : MetaPage} (has : HasTable m) (call : Call) : HasTable (m.step call) := by
  unfold MetaPage.step
  split
  · rename_i m' called
    exact hasTable_call called
  · exact has

theorem hasTable_run {m : MetaPage} (has : HasTable m) (calls : List Call) :
    HasTable (m.run calls) :=
  List.foldlRecOn calls _ has fun _ has call _ => hasTable_step has call

/-- No table was created: the meta page is as it was, and the catalog has names at most that
    are too long for it. -/
structure Untouched (t : Terminal) : Prop where
  items : t.metaPage.items = fun _ => none
  data : t.metaPage.data = List.replicate PAGE_SIZE 0
  lastPoint : t.metaPage.lastPoint = ITEMS_OFFSET_BEGIN
  names : ∀ name, t.catalog.tableNameIdx name ≠ none →
    PAGE_SIZE ≤ ITEMS_OFFSET_BEGIN + (ITEM_FIXED_SIZE + name.length)

theorem addTable_full {m : MetaPage} {item : MetaItem}
    (full : PAGE_SIZE ≤ m.lastPoint + (ITEM_FIXED_SIZE + item.tableName.length)) :
    ∃ message, m.addTable item = .error message :=
  ⟨_, by unfold MetaPage.addTable; exact if_pos full⟩

theorem addTable_room {m : MetaPage} {item : MetaItem}
    (room : m.lastPoint + (ITEM_FIXED_SIZE + item.tableName.length) < PAGE_SIZE) :
    ∃ m', m.addTable item = .ok m' :=
  ⟨_, by unfold MetaPage.addTable; exact if_neg (Nat.not_le.mpr room)⟩

/-- The first CREATE TABLE that can be carried out is. -/
theorem Untouched.createTable {t : Terminal} (untouched : Untouched t) (name : List UInt8)
    (columns : List (List UInt8 × UInt8)) :
    (Possible name columns → HasTable (t.createTable name columns).metaPage) ∧
      (¬ Possible name columns → Untouched (t.createTable name columns)) := by
  unfold Terminal.createTable
  cases known : t.catalog.tableNameIdx name with
  | some id =>
      have long := untouched.names name (by simp [known])
      exact ⟨fun possible => absurd possible.2 (Nat.not_lt.mpr long), fun _ => untouched⟩
  | none =>
      simp only [Option.isSome_none, Bool.false_eq_true, if_false]
      cases bound : boundTable t.objId name columns with
      | error message =>
          have refused : ¬ ∀ column ∈ columns, Accepted column.2 := by
            intro accepted
            obtain ⟨entry, built⟩ := boundTable_of_accepted t.objId name accepted
            rw [bound] at built
            cases built
          exact ⟨fun possible => absurd possible.1 refused, fun _ =>
            ⟨untouched.items, untouched.data, untouched.lastPoint, untouched.names⟩⟩
      | ok table =>
          obtain ⟨accepted, -, sameName⟩ := of_boundTable bound
          have itemName : (metaItemOf table).tableName = name := sameName
          dsimp only
          constructor
          · intro possible
            obtain ⟨metaPage, added⟩ := @addTable_room t.metaPage (metaItemOf table) (by
              rw [untouched.lastPoint, itemName]
              exact possible.2)
            rw [added]
            exact hasTable_addTable added
          · intro impossible
            have full : PAGE_SIZE ≤ ITEMS_OFFSET_BEGIN + (ITEM_FIXED_SIZE + name.length) :=
              Nat.not_lt.mp fun short => impossible ⟨accepted, short⟩
            obtain ⟨message, refused⟩ := @addTable_full t.metaPage (metaItemOf table) (by
              rw [untouched.lastPoint, itemName]
              exact full)
            rw [refused]
            refine ⟨untouched.items, untouched.data, untouched.lastPoint, ?_⟩
            intro other entered
            cases Decidable.em (other = name) with
            | inl same => rwa [same]
            | inr different =>
                rw [sameName] at entered
                simp only [Function.update_of_ne different] at entered
                exact untouched.names other entered

theorem Untouched.insert {t t' : Terminal} (untouched : Untouched t)
    {name firstColumn : List UInt8} {columns : List (List UInt8)} {insertion : Insertion}
    (inserted : t.insert name firstColumn columns insertion = some t') : Untouched t' := by
  unfold Terminal.insert at inserted
  split at inserted
  · cases inserted
  · simp only [untouched.items] at inserted
    cases inserted
    exact ⟨untouched.items, untouched.data, untouched.lastPoint, untouched.names⟩

theorem hasTable_statement {t t' : Terminal} {statement : Statement} (has : HasTable t.metaPage)
    (stepped : t.step statement = some t') : HasTable t'.metaPage := by
  cases statement with
  | createTable name columns =>
      cases stepped
      unfold Terminal.createTable
      split
      · exact has
      · dsimp only
        split
        · exact has
        · split
          · exact has
          · rename_i metaPage added
            exact hasTable_addTable added
  | insert name firstColumn columns insertion =>
      simp only [Terminal.step, Terminal.insert] at stepped
      split at stepped
      · cases stepped
      · split at stepped
        · cases stepped
          exact has
        · split at stepped
          · cases stepped
            exact hasTable_run has _
          · cases stepped
            exact has

/-- A run that ended has created a table if one of its statements could. -/
theorem untouched_or_hasTable {statements : List Statement} {objId : UInt64} {t : Terminal}
    (ran : Transition.run step (fresh objId) statements = some t) :
    (Creates statements → HasTable t.metaPage) ∧ (¬ Creates statements → Untouched t) := by
  induction statements using List.reverseRecOn generalizing t with
  | nil =>
      obtain rfl : fresh objId = t := Option.some.inj ran
      refine ⟨fun ⟨_, _, member, _⟩ => absurd member List.not_mem_nil, fun _ => ?_⟩
      exact ⟨rfl, rfl, rfl, fun name entered => absurd rfl entered⟩
  | append_singleton done statement ih =>
      rw [Transition.run_snoc] at ran
      obtain ⟨before, ran, stepped⟩ := Option.bind_eq_some_iff.mp ran
      obtain ⟨has, untouched⟩ := ih ran
      have split : Creates (done ++ [statement]) ↔ Creates done ∨ Creates [statement] := by
        simp only [Creates, List.mem_append, or_and_right, exists_or]
      rw [split, not_or]
      cases Classical.em (Creates done) with
      | inl created =>
          have kept := hasTable_statement (has created) stepped
          exact ⟨fun _ => kept, fun none => absurd created none.1⟩
      | inr none =>
          have untouched := untouched none
          cases statement with
          | createTable name columns =>
              cases stepped
              have creates : Creates [.createTable name columns] ↔ Possible name columns := by
                simp [Creates]
              rw [creates]
              obtain ⟨makes, leaves⟩ := untouched.createTable name columns
              exact ⟨fun either => makes (either.resolve_left none), fun both => leaves both.2⟩
          | insert name firstColumn columns insertion =>
              have creates : ¬ Creates [.insert name firstColumn columns insertion] := by
                simp [Creates]
              refine ⟨fun either => absurd (either.resolve_left none) creates, fun _ => ?_⟩
              exact untouched.insert stepped

/-! ## Runs after a restart that found no table -/

/-- The object writes new entries behind the end that the page gives, and changes fields of
    entries behind the header. -/
structure Ahead (m : MetaPage) : Prop where
  header : ITEMS_OFFSET_BEGIN ≤ m.lastPoint
  room : m.lastPoint ≤ m.data.length
  last : entriesEnd m ≤ m.lastPoint
  items : ∀ id item, m.items id = some item → ITEMS_OFFSET_BEGIN ≤ item.offset

theorem Ahead.addTable {m m' : MetaPage} (ahead : Ahead m) {item : MetaItem}
    (added : m.addTable item = .ok m') : Ahead m' ∧ ¬ Overwrites m m' := by
  let stored := { item with offset := m.lastPoint }
  have behind : m.lastPoint ≠ 0 := by
    have := ahead.header
    simp only [ITEMS_OFFSET_BEGIN] at this
    omega
  have enough : m.lastPoint + (ITEM_FIXED_SIZE + stored.tableName.length) < PAGE_SIZE := by
    refine Nat.not_le.mp fun full => ?_
    obtain ⟨message, refused⟩ := @addTable_full m item full
    rw [added] at refused
    cases refused
  have same : m.addTable item = m.addTable stored := rfl
  rw [same, addTable_eq ahead.room enough behind rfl] at added
  cases added
  obtain ⟨header, room, last, items⟩ := ahead
  let appended := Bytes.write m.data m.lastPoint stored.encode
  let pointed := Bytes.write appended 16 (Bytes.ofNat 8 (m.lastPoint + stored.encode.length))
  let counted := Bytes.write pointed 8 (Bytes.ofNat 8 (m.tableSize + 1))
  have written : m.lastPoint + stored.encode.length ≤ appended.length :=
    lastPoint_append_le m room stored.encode
  have longer : appended.length ≤ pointed.length := Bytes.length_le_length_write ..
  have longest : pointed.length ≤ counted.length := Bytes.length_le_length_write ..
  simp only [ITEMS_OFFSET_BEGIN] at header
  constructor
  · exact
    { header := Nat.le_trans header (Nat.le_add_right ..)
      room := Nat.le_trans written (Nat.le_trans longer longest)
      last := by
        have read : Bytes.field counted 16 8 =
            Bytes.ofNat 8 (m.lastPoint + stored.encode.length) := by
          rw [Bytes.field_write_behind (by omega) (by rw [Bytes.length_ofNat])]
          have self := @Bytes.field_write_self appended
            (Bytes.ofNat 8 (m.lastPoint + stored.encode.length)) 16 (by omega)
          rwa [Bytes.length_ofNat] at self
        have value : Bytes.toNat (Bytes.field counted 16 8) ≤ m.lastPoint + stored.encode.length := by
          rw [read, Bytes.toNat_ofNat]
          exact Nat.mod_le ..
        exact value
      items := by
        intro id item known
        have known : Function.update m.items stored.tableId (some stored) id = some item := known
        cases Decidable.em (id = stored.tableId) with
        | inl same =>
            rw [same, Function.update_self] at known
            obtain rfl := Option.some.inj known
            exact header
        | inr other =>
            rw [Function.update_of_ne other] at known
            exact items id item known }
  · refine not_not_intro ?_
    have within : ITEMS_OFFSET_BEGIN + (entriesEnd m - ITEMS_OFFSET_BEGIN) ≤ m.lastPoint := by
      simp only [ITEMS_OFFSET_BEGIN]
      omega
    calc Bytes.field counted ITEMS_OFFSET_BEGIN (entriesEnd m - ITEMS_OFFSET_BEGIN) =
        Bytes.field pointed ITEMS_OFFSET_BEGIN (entriesEnd m - ITEMS_OFFSET_BEGIN) :=
          Bytes.field_write_behind (by omega) (by rw [Bytes.length_ofNat]; decide)
      _ = Bytes.field appended ITEMS_OFFSET_BEGIN (entriesEnd m - ITEMS_OFFSET_BEGIN) :=
          Bytes.field_write_behind (by omega) (by rw [Bytes.length_ofNat]; decide)
      _ = Bytes.field m.data ITEMS_OFFSET_BEGIN (entriesEnd m - ITEMS_OFFSET_BEGIN) :=
          Bytes.field_write_before (Nat.le_trans within room) within

/-- A field of an entry is changed. -/
theorem Ahead.update {m m' : MetaPage} (ahead : Ahead m) {id : UInt64} {item new : MetaItem}
    {pos : Nat} {bytes : List UInt8} (found : m.items id = some item)
    (items : m'.items = Function.update m.items id (some new))
    (data : m'.data = Bytes.write m.data pos bytes) (lastPoint : m'.lastPoint = m.lastPoint)
    (placed : new.offset = item.offset) (behind : item.offset ≤ pos) : Ahead m' := by
  have header := ahead.items id item found
  have longer := Bytes.length_le_length_write m.data pos bytes
  have room := ahead.room
  have start := ahead.header
  simp only [ITEMS_OFFSET_BEGIN] at header start
  exact
  { header := by rw [lastPoint]; exact ahead.header
    room := by
      rw [lastPoint, data]
      omega
    last := by
      have same : entriesEnd m' = entriesEnd m := by
        unfold entriesEnd MetaPage.readNat
        rw [data, Bytes.field_write_before (by omega) (by omega)]
      rw [same, lastPoint]
      exact ahead.last
    items := by
      intro other entry known
      rw [items] at known
      cases Decidable.em (other = id) with
      | inl same =>
          rw [same, Function.update_self] at known
          obtain rfl := Option.some.inj known
          rw [placed]
          exact ahead.items id item found
      | inr different =>
          rw [Function.update_of_ne different] at known
          exact ahead.items other entry known }

theorem Ahead.call {m m' : MetaPage} (ahead : Ahead m) {call : Call}
    (called : m.call call = .ok m') : Ahead m' := by
  cases call with
  | addTable item => exact (ahead.addTable called).1
  | updateTableRows tableId _ | updateTableFirstId tableId _ | updateTableLastId tableId _ =>
      simp only [MetaPage.call, MetaPage.updateTableRows, MetaPage.updateTableFirstId,
        MetaPage.updateTableLastId] at called
      cases found : m.items tableId with
      | none =>
          rw [found] at called
          cases called
      | some item =>
          rw [found] at called
          cases called
          refine ahead.update found rfl rfl rfl rfl ?_
          omega

theorem Ahead.run {m : MetaPage} (ahead : Ahead m) (calls : List Call) : Ahead (m.run calls) := by
  refine List.foldlRecOn calls _ ahead fun m ahead call _ => ?_
  unfold MetaPage.step
  split
  · rename_i m' called
    exact ahead.call called
  · exact ahead

theorem Ahead.createTable {t : Terminal} (ahead : Ahead t.metaPage) (name : List UInt8)
    (columns : List (List UInt8 × UInt8)) :
    Ahead (t.createTable name columns).metaPage ∧
      ¬ Overwrites t.metaPage (t.createTable name columns).metaPage := by
  have unchanged : Ahead t.metaPage ∧ ¬ Overwrites t.metaPage t.metaPage :=
    ⟨ahead, not_not_intro rfl⟩
  unfold Terminal.createTable
  split
  · exact unchanged
  · dsimp only
    split
    · exact unchanged
    · split
      · exact unchanged
      · rename_i metaPage added
        exact ahead.addTable added

theorem Ahead.step {t t' : Terminal} (ahead : Ahead t.metaPage) {statement : Statement}
    (stepped : t.step statement = some t') : Ahead t'.metaPage := by
  cases statement with
  | createTable name columns =>
      cases stepped
      exact (ahead.createTable name columns).1
  | insert name firstColumn columns insertion =>
      simp only [Terminal.step, Terminal.insert] at stepped
      split at stepped
      · cases stepped
      · split at stepped
        · cases stepped
          exact ahead
        · split at stepped
          · cases stepped
            exact ahead.run _
          · cases stepped
            exact ahead

theorem Untouched.ahead {t : Terminal} (untouched : Untouched t) (objId : UInt64) :
    Ahead (t.restart objId).metaPage := by
  have data : (t.restart objId).metaPage.data = List.replicate PAGE_SIZE 0 := by
    have whole : t.metaPage.data.take PAGE_SIZE = t.metaPage.data := by
      rw [untouched.data]
      exact List.take_of_length_le (Nat.le_of_eq List.length_replicate)
    exact whole.trans untouched.data
  exact
  { header := Nat.le_refl _
    room := by
      rw [data, List.length_replicate]
      exact (by decide : ITEMS_OFFSET_BEGIN ≤ PAGE_SIZE)
    last := by
      have eight : min 8 (PAGE_SIZE - 16) = 8 := by decide
      have zero : entriesEnd (t.restart objId).metaPage = 0 := by
        rw [entriesEnd, MetaPage.readNat, data, Bytes.field, List.drop_replicate,
          List.take_replicate, eight]
        decide
      rw [zero]
      exact Nat.zero_le _
    items := by
      intro id item known
      cases known }

/-- The new terminal resolves no name at all. -/
theorem not_restartKeeps_of_hasTable {t : Terminal} (has : HasTable t.metaPage) :
    ¬ RestartKeeps t := by
  intro keeps
  obtain ⟨id, item, known⟩ := has
  cases (keeps.resolves t.objId item.tableName id ⟨item, known, rfl⟩).tableId

/-- Nothing survives of the tables of a terminal: the restart keeps the catalog only if there
    was none to keep. -/
theorem restartKeeps_iff {statements : List Statement} {objId : UInt64} {t : Terminal}
    (ran : Transition.run step (fresh objId) statements = some t) :
    RestartKeeps t ↔ ¬ Creates statements := by
  obtain ⟨has, untouched⟩ := untouched_or_hasTable ran
  constructor
  · intro keeps creates
    exact not_restartKeeps_of_hasTable (has creates) keeps
  · intro none
    have untouched := untouched none
    constructor
    · rintro objId name id ⟨item, known, -⟩
      rw [untouched.items] at known
      cases known
    · intro objId later u name columns ran
      have ahead := @Transition.invariant _ _ step (fun t => Ahead t.metaPage) _ _ _
        (untouched.ahead objId) (fun _ _ _ ahead stepped => ahead.step stepped) ran
      exact (ahead.createTable name columns).2

/-- `CREATE TABLE t (id INT)`. -/
def oneTable : List Statement := [.createTable [116] [([105, 100], 1)]]

theorem creates_oneTable : Creates oneTable := by
  refine ⟨[116], [([105, 100], 1)], List.mem_singleton_self _, ?_, by decide⟩
  intro column member
  rw [List.mem_singleton.mp member]
  exact (by decide : (ColumnEntry.create 0 [] 1).isOk = true)

theorem restartKeeps_iff_oneTable : ∃ t, Transition.run step (fresh 1) oneTable = some t ∧
    (RestartKeeps t ↔ ¬ Creates oneTable) :=
  ⟨_, rfl, restartKeeps_iff rfl⟩

/-- After a run that created one table, a new terminal does not know it. -/
theorem restart_loses_table : ∃ t, Transition.run step (fresh 1) oneTable = some t ∧
    HasTable t.metaPage ∧ (t.restart 1).catalog.tableNameIdx [116] = none ∧ ¬ RestartKeeps t := by
  have ran : Transition.run step (fresh 1) oneTable =
      some ((fresh 1).createTable [116] [([105, 100], 1)]) := rfl
  have has := (untouched_or_hasTable ran).1 creates_oneTable
  exact ⟨_, ran, has, rfl, not_restartKeeps_of_hasTable has⟩

end Terminal

end YourSQL.Stored
