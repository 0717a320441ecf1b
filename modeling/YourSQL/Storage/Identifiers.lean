import YourSQL.Lib.Transition
import YourSQL.Catalog.Catalog

/-! # Page ids and entry ids over several processes

Both counters are static variables, so each process starts them at 1. Neither way
of starting reads them back from the data file, and `NewPage` never looks there.
An id is new exactly as long as the file holds nothing under it.
-/

namespace YourSQL.Identifiers

/-- What survives a process: the pages written to the data file, by id, and the
    entries that can be read from its meta page. -/
structure DataFile where
  pages : List Nat := []
  items : List MetaItem := []
  deriving Repr, DecidableEq

def DataFile.writePage (file : DataFile) (id : Nat) : DataFile :=
  { file with pages := id :: file.pages }

/-- How a process opens the data file. -/
inductive StartUp where
  /-- `YourSQLTerminal`: an empty catalog and a `MetaPage` that reads nothing. -/
  | terminal
  /-- `Catalog(MetaPage)`: the meta page is read, or initialised if it has no entry. -/
  | catalogMetaPage
  deriving Repr, DecidableEq

/-- One process on the data file. `newPages` and `newEntryIds` count what it has drawn
    from its counters so far and occur in statements only. -/
structure Process where
  pageId : Nat := 1
  objId : Nat := 1
  bufferPages : List Nat := [META_PAGE_ID]
  metaPage : MetaPage := {}
  catalog : Catalog := {}
  file : DataFile
  newPages : Nat := 0
  newEntryIds : Nat := 0

def start (file : DataFile) : StartUp → Process
  | .terminal => { file := file }
  | .catalogMetaPage =>
      if file.items = [] then
        { file := file.writePage META_PAGE_ID }
      else
        { metaPage := { items := file.items }
          catalog := .initFromMetaPage { items := file.items }
          file := file }

namespace Process

/-- `PageIdUtil::GetNextPageId`. -/
def getNextPageId (s : Process) : Nat × Process :=
  (s.pageId, { s with pageId := s.pageId + 1, newPages := s.newPages + 1 })

/-- `IdManager::GetNextEntryId`. -/
def getNextEntryId (s : Process) : Nat × Process :=
  (s.objId, { s with objId := s.objId + 1, newEntryIds := s.newEntryIds + 1 })

/-- `BufferManager::NewPage`, for whichever of its users; a free frame is there. -/
def newPage (s : Process) : Nat × Process :=
  let (id, s) := s.getNextPageId
  (id, { s with bufferPages := id :: s.bufferPages })

/-- `FetchPage` maps any id, whether the file holds the page or not. -/
def fetchPage (s : Process) (id : Nat) : Process :=
  { s with bufferPages := id :: s.bufferPages }

def createColumns (columns : List (String × ColumnTypes)) : Except String (List ColumnEntry) :=
  columns.zipIdx.mapM fun ((name, type), index) => ColumnEntry.create index name type

/-- `Binder::BoundCreateTableStatement`. A column type that is refused has already cost
    the statement its id. -/
def boundCreateTable (s : Process) (name : String) (columns : List (String × ColumnTypes)) :
    Except String Nat × Process :=
  if (s.catalog.tableNameIdx name).isSome then
    (.error "Binder::BoundCreateTable target table is exist.", s)
  else
    let (id, s) := s.getNextEntryId
    match createColumns columns with
    | .error message => (.error message, s)
    | .ok entries => (.ok id, { s with catalog := s.catalog.addTable ⟨id, name, entries⟩ })

/-- `ExecutorCreateTable::Next`. The object appends behind the entries it knows, so the
    page then holds those and the new one. -/
def createTable (s : Process) (tableId : Nat) : Except String Unit × Process :=
  match s.catalog.tables tableId with
  | none => (.error "ExecutorCreateTable::Next create of table don`t exist in the catalog.", s)
  | some table =>
      match s.metaPage.addTable table.toMetaItem with
      | .error message => (.error message, s)
      | .ok page =>
          (.ok (), { s with
            metaPage := page
            file := { s.file.writePage META_PAGE_ID with items := page.items } })

end Process

inductive Action where
  | newPage
  | fetchPage (id : Nat)
  /-- A mapped page goes to the file: a flush, a release or the reuse of its frame. -/
  | writePage (id : Nat)
  /-- The last release of a page takes it out of the page map. -/
  | dropPage (id : Nat)
  | boundCreateTable (name : String) (columns : List (String × ColumnTypes))
  | createTable (tableId : Nat)
  /-- The process ends, in order or not, and another one opens the file. -/
  | restart (startUp : StartUp)
  deriving Repr, DecidableEq

def step (s : Process) : Action → Option Process
  | .newPage => some s.newPage.2
  | .fetchPage id => some (s.fetchPage id)
  | .writePage id =>
      if id ∈ s.bufferPages then some { s with file := s.file.writePage id } else none
  | .dropPage id => some { s with bufferPages := s.bufferPages.filter (· ≠ id) }
  | .boundCreateTable name columns => some (s.boundCreateTable name columns).2
  | .createTable tableId => some (s.createTable tableId).2
  | .restart startUp => some (start s.file startUp)

/-- No id that the step hands out belongs to a page or an entry of the data file. -/
def Fresh (s : Process) : Action → Prop
  | .newPage => s.newPage.1 ∉ s.file.pages
  | .boundCreateTable name columns =>
      ∀ id, (s.boundCreateTable name columns).1 = .ok id → ∀ item ∈ s.file.items, item.tableId ≠ id
  | _ => True

/-- The k-th page of a process is made while the file has no page k, and the k-th entry
    id goes to a table while the meta page has no table k. -/
def Unclaimed (s : Process) : Action → Prop
  | .newPage => s.newPages + 1 ∉ s.file.pages
  | .boundCreateTable name columns =>
      s.catalog.tableNameIdx name = none → (Process.createColumns columns).isOk →
        ∀ item ∈ s.file.items, item.tableId ≠ s.newEntryIds + 1
  | _ => True

/-- The counters hold nothing but the number of ids this process has drawn. -/
structure Counting (s : Process) : Prop where
  pageId : s.pageId = s.newPages + 1
  objId : s.objId = s.newEntryIds + 1

theorem counting_start (file : DataFile) (startUp : StartUp) : Counting (start file startUp) := by
  cases startUp with
  | terminal => exact ⟨rfl, rfl⟩
  | catalogMetaPage =>
      simp only [start]
      split
      · exact ⟨rfl, rfl⟩
      · exact ⟨rfl, rfl⟩

theorem counting_boundCreateTable {s : Process} (counting : Counting s) (name : String)
    (columns : List (String × ColumnTypes)) :
    Counting (s.boundCreateTable name columns).2 := by
  have drawn : s.objId + 1 = s.newEntryIds + 1 + 1 := congrArg (· + 1) counting.objId
  simp only [Process.boundCreateTable, Process.getNextEntryId]
  split
  · exact counting
  · split
    · exact ⟨counting.pageId, drawn⟩
    · exact ⟨counting.pageId, drawn⟩

theorem counting_createTable {s : Process} (counting : Counting s) (tableId : Nat) :
    Counting (s.createTable tableId).2 := by
  simp only [Process.createTable]
  split
  · exact counting
  · split
    · exact counting
    · exact ⟨counting.pageId, counting.objId⟩

theorem counting_step {s s' : Process} {action : Action} (counting : Counting s)
    (taken : step s action = some s') : Counting s' := by
  cases action with
  | newPage =>
      obtain rfl := Option.some.inj taken
      exact ⟨congrArg (· + 1) counting.pageId, counting.objId⟩
  | fetchPage id =>
      obtain rfl := Option.some.inj taken
      exact ⟨counting.pageId, counting.objId⟩
  | writePage id =>
      simp only [step] at taken
      split at taken
      · obtain rfl := Option.some.inj taken
        exact ⟨counting.pageId, counting.objId⟩
      · cases taken
  | dropPage id =>
      obtain rfl := Option.some.inj taken
      exact ⟨counting.pageId, counting.objId⟩
  | boundCreateTable name columns =>
      obtain rfl := Option.some.inj taken
      exact counting_boundCreateTable counting name columns
  | createTable tableId =>
      obtain rfl := Option.some.inj taken
      exact counting_createTable counting tableId
  | restart startUp =>
      obtain rfl := Option.some.inj taken
      exact counting_start s.file startUp

theorem fresh_iff_unclaimed {s : Process} (counting : Counting s) (action : Action) :
    Fresh s action ↔ Unclaimed s action := by
  cases action with
  | newPage =>
      simp only [Fresh, Unclaimed, Process.newPage, Process.getNextPageId, counting.pageId]
  | boundCreateTable name columns =>
      simp only [Fresh, Unclaimed, Process.boundCreateTable, Process.getNextEntryId,
        counting.objId]
      cases taken : s.catalog.tableNameIdx name with
      | some id => simp
      | none =>
          cases made : Process.createColumns columns with
          | error message => simp [Except.isOk, Except.toBool]
          | ok entries => simp [Except.isOk, Except.toBool]
  | fetchPage id => exact Iff.rfl
  | writePage id => exact Iff.rfl
  | dropPage id => exact Iff.rfl
  | createTable tableId => exact Iff.rfl
  | restart startUp => exact Iff.rfl

/-- After a restart over a file with a page 1, the first page that is made is that one. -/
theorem not_fresh_after_restart {file : DataFile} (held : 1 ∈ file.pages) (startUp : StartUp) :
    ¬ Fresh (start file startUp) .newPage := by
  cases startUp with
  | terminal => exact fun fresh => fresh held
  | catalogMetaPage =>
      simp only [start]
      split
      · exact fun fresh => fresh (List.mem_cons_of_mem _ held)
      · exact fun fresh => fresh held

/-- The first process: what is in the file came from its own counters. -/
structure Own (s : Process) : Prop where
  bufferPages : ∀ id ∈ s.bufferPages, id < s.pageId
  pages : ∀ id ∈ s.file.pages, id < s.pageId
  tables : ∀ id table, s.catalog.tables id = some table → table.id < s.objId
  metaItems : ∀ item ∈ s.metaPage.items, item.tableId < s.objId
  items : ∀ item ∈ s.file.items, item.tableId < s.objId

/-- No second process, and only pages made in this one are fetched. -/
def Within (s : Process) : Action → Prop
  | .fetchPage id => id < s.pageId
  | .restart _ => False
  | _ => True

theorem own_boundCreateTable {s : Process} (own : Own s) (name : String)
    (columns : List (String × ColumnTypes)) : Own (s.boundCreateTable name columns).2 := by
  have drawn : Own s.getNextEntryId.2 := {
    bufferPages := own.bufferPages
    pages := own.pages
    tables := fun id table entered => Nat.lt_succ_of_lt (own.tables id table entered)
    metaItems := fun item member => Nat.lt_succ_of_lt (own.metaItems item member)
    items := fun item member => Nat.lt_succ_of_lt (own.items item member) }
  simp only [Process.boundCreateTable]
  split
  · exact own
  · split
    · exact drawn
    · refine { drawn with tables := ?_ }
      intro id table entered
      by_cases self : id = s.objId
      · obtain rfl : _ = table := by simpa [Catalog.addTable, self, Process.getNextEntryId] using entered
        exact Nat.lt_succ_self s.objId
      · refine drawn.tables id table ?_
        simpa [Catalog.addTable, self, Process.getNextEntryId] using entered

theorem own_createTable {s : Process} (own : Own s) (positive : 0 < s.pageId) (tableId : Nat) :
    Own (s.createTable tableId).2 := by
  simp only [Process.createTable]
  split
  · exact own
  · rename_i table entered
    have entry : table.toMetaItem.tableId < s.objId := own.tables tableId table entered
    split
    · exact own
    · rename_i page added
      have items : ∀ item ∈ page.items, item.tableId < s.objId := by
        simp only [MetaPage.addTable] at added
        split at added
        · cases added
        · obtain rfl := Except.ok.inj added
          intro item member
          rcases List.mem_append.mp member with earlier | new
          · exact own.metaItems item earlier
          · rw [List.mem_singleton.mp new]
            exact entry
      refine {
        bufferPages := own.bufferPages
        pages := ?_
        tables := own.tables
        metaItems := items
        items := items }
      intro id member
      rcases List.mem_cons.mp member with rfl | earlier
      · exact positive
      · exact own.pages id earlier

theorem own_step {s s' : Process} {action : Action} (own : Own s ∧ 0 < s.pageId)
    (within : Within s action) (taken : step s action = some s') : Own s' ∧ 0 < s'.pageId := by
  obtain ⟨own, positive⟩ := own
  cases action with
  | newPage =>
      obtain rfl := Option.some.inj taken
      refine ⟨{ own with bufferPages := ?_, pages := ?_ }, Nat.succ_pos _⟩
      · intro id member
        rcases List.mem_cons.mp member with rfl | earlier
        · exact Nat.lt_succ_self _
        · exact Nat.lt_succ_of_lt (own.bufferPages id earlier)
      · exact fun id member => Nat.lt_succ_of_lt (own.pages id member)
  | fetchPage id =>
      obtain rfl := Option.some.inj taken
      refine ⟨{ own with bufferPages := ?_ }, positive⟩
      intro fetched member
      rcases List.mem_cons.mp member with rfl | earlier
      · exact within
      · exact own.bufferPages fetched earlier
  | writePage id =>
      simp only [step] at taken
      split at taken
      · rename_i mapped
        obtain rfl := Option.some.inj taken
        refine ⟨{ own with pages := ?_ }, positive⟩
        intro written member
        rcases List.mem_cons.mp member with rfl | earlier
        · exact own.bufferPages _ mapped
        · exact own.pages written earlier
      · cases taken
  | dropPage id =>
      obtain rfl := Option.some.inj taken
      refine ⟨{ own with bufferPages := ?_ }, positive⟩
      exact fun kept member => own.bufferPages kept (List.mem_filter.mp member).1
  | boundCreateTable name columns =>
      obtain rfl := Option.some.inj taken
      refine ⟨own_boundCreateTable own name columns, ?_⟩
      simp only [Process.boundCreateTable, Process.getNextEntryId]
      split
      · exact positive
      · split <;> exact positive
  | createTable tableId =>
      obtain rfl := Option.some.inj taken
      refine ⟨own_createTable own positive tableId, ?_⟩
      simp only [Process.createTable]
      split
      · exact positive
      · split <;> exact positive
  | restart startUp => exact absurd within id

theorem fresh_of_own {s : Process} (own : Own s) (action : Action) : Fresh s action := by
  cases action with
  | newPage => exact fun member => Nat.lt_irrefl _ (own.pages s.pageId member)
  | boundCreateTable name columns =>
      intro id given item member same
      have drawn : id = s.objId := by
        simp only [Process.boundCreateTable, Process.getNextEntryId] at given
        split at given
        · cases given
        · split at given
          · cases given
          · exact (Except.ok.inj given).symm
      exact Nat.lt_irrefl _ (drawn ▸ same ▸ own.items item member)
  | fetchPage id => trivial
  | writePage id => trivial
  | dropPage id => trivial
  | createTable tableId => trivial
  | restart startUp => trivial

/-- The first process on a new data file never reuses an id. -/
theorem fresh_firstRun (startUp : StartUp) (actions : List Action)
    (within : Transition.AllSteps step Within (start {} startUp) actions) :
    Transition.AllSteps step Fresh (start {} startUp) actions := by
  have first : Own (start {} startUp) := by
    cases startUp with
    | terminal =>
        exact ⟨by simp [start, META_PAGE_ID], by simp [start], by simp [start], by simp [start],
          by simp [start]⟩
    | catalogMetaPage =>
        exact ⟨by simp [start, META_PAGE_ID], by simp [start, DataFile.writePage, META_PAGE_ID],
          by simp [start], by simp [start], by simp [start, DataFile.writePage]⟩
  have positive : 0 < (start {} startUp).pageId := by
    cases startUp with
    | terminal => exact Nat.one_pos
    | catalogMetaPage => exact Nat.one_pos
  exact Transition.AllSteps.imp ⟨first, positive⟩ (fun _ _ _ => own_step)
    (fun _ action own _ => fresh_of_own own.1 action) within

end YourSQL.Identifiers
