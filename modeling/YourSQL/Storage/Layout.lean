import YourSQL.Lib.Linked
import YourSQL.Storage.PageStore
import YourSQL.Transaction.UndoLog

/-! # Which pages there are

Each table has a chain of pages from its first to its last one, the undo log has
pages of its own, and pages that were never allocated are blank. Rows change without
the chains, and chains and undo pages grow without the rows.
-/

namespace YourSQL

namespace PageData

def table? : PageData → Option TableImage
  | table image => some image
  | _ => none

def undo? : PageData → Option UndoImage
  | undo image => some image
  | _ => none

theorem table?_eq_some {data : PageData} {image : TableImage} :
    data.table? = some image ↔ data = .table image := by
  cases data <;> simp [table?]

theorem undo?_eq_some {data : PageData} {image : UndoImage} :
    data.undo? = some image ↔ data = .undo image := by
  cases data <;> simp [undo?]

theorem asTable_eq (data : PageData) : data.asTable = data.table?.getD {} := by
  cases data <;> rfl

theorem asUndo_eq (data : PageData) : data.asUndo = data.undo?.getD {} := by
  cases data <;> rfl

theorem eq_blank {data : PageData} (noTable : data.table? = none) (noUndo : data.undo? = none) :
    data = .blank := by
  cases data with
  | blank => rfl
  | table => cases noTable
  | undo => cases noUndo

end PageData

namespace Database

/-- The next page in the chain of a table. -/
def next (s : Database) (p : Nat) : Option Nat :=
  (s.page p).table?.map fun image => image.header.nextPageId

/-- What `GetUndoRecord` finds behind a pointer. -/
def undoRecord (s : Database) (pointer : UndoPointer) : Option Record :=
  ((s.page pointer.pageId).asUndo.load.readRecord pointer.slot).map UndoLogRecord.payload

end Database

/-- First and last page of a table. -/
def MetaItem.ends (item : MetaItem) : Nat × Nat := (item.firstPageId, item.lastPageId)

/-- `pages t` is the chain of table `t`, and page `p` belongs to table `tableOf p`. -/
structure Layout (s : Database) (pages : Nat → List Nat) (tableOf : Nat → Nat) : Prop where
  positive : 1 ≤ s.nextPageId
  blank : ∀ p, p = META_PAGE_ID ∨ s.nextPageId ≤ p → s.page p = .blank
  linked : ∀ t item, s.items t = some item →
    Linked s.next INVALID_PAGE_ID item.firstPageId (pages t)
  last : ∀ t item, s.items t = some item →
    item.lastPageId = (pages t).getLast?.getD INVALID_PAGE_ID
  noItem : ∀ t, s.items t = none → pages t = []
  member : ∀ t p, p ∈ pages t ↔ (s.page p).table?.isSome = true ∧ tableOf p = t
  nodup : ∀ t, (pages t).Nodup
  undoLog : ∃ undoLog, s.undoLog = some undoLog ∧
    (undoLog.undoPageId = INVALID_PAGE_ID ∨ (s.page undoLog.undoPageId).undo?.isSome = true)
  offsets : ∀ p image, s.page p = .undo image → UNDO_HEADER_SIZE ≤ image.freeOffset ∧
    ∀ entry ∈ image.records, entry.1 < image.freeOffset
  newest : ∀ undoLog p, s.undoLog = some undoLog → (s.page p).undo?.isSome = true →
    p ≤ undoLog.undoPageId
  capacity : ∀ log, s.log = some log → LOG_BUFFER_SIZE ≤ log.capacity
  storage : s.storage = true

/-- The pages are laid out, and their headers and the meta page agree with them. -/
structure Database.Sound (s : Database) (pages : Nat → List Nat) (tableOf : Nat → Nat) : Prop where
  layout : Layout s pages tableOf
  consistent : s.Consistent tableOf

/-- The transactions, the journal and the pins are the same, and the meta page in the file
    follows. -/
structure Database.SameClients (s s' : Database) : Prop where
  txnManager : s'.txnManager = s.txnManager
  journal : s'.journal = s.journal
  pins : s'.pins = s.pins
  copies : s.Copies s'

/-- The chains and the undo pages are the same. -/
structure Database.SameLayout (s s' : Database) : Prop where
  next : s'.next = s.next
  undo : ∀ p, (s'.page p).undo? = (s.page p).undo?
  ends : ∀ t, (s'.items t).map MetaItem.ends = (s.items t).map MetaItem.ends
  nextPageId : s'.nextPageId = s.nextPageId
  undoLog : s'.undoLog = s.undoLog
  capacity : s'.log.map LogManager.capacity = s.log.map LogManager.capacity
  storage : s'.storage = s.storage

theorem Database.SameClients.trans {s s' s'' : Database} (first : s.SameClients s')
    (second : s'.SameClients s'') : s.SameClients s'' where
  txnManager := second.txnManager.trans first.txnManager
  journal := second.journal.trans first.journal
  pins := second.pins.trans first.pins
  copies := first.copies.trans second.copies

theorem Database.SameRest.clients {s s' : Database} (rest : s.SameRest s') : s.SameClients s' :=
  ⟨rest.txnManager, rest.journal, rest.pins, rest.copies⟩

namespace Database.SameLayout

variable {s s' s'' : Database}

theorem refl (s : Database) : s.SameLayout s :=
  ⟨rfl, fun _ => rfl, fun _ => rfl, rfl, rfl, rfl, rfl⟩

theorem trans (first : s.SameLayout s') (second : s'.SameLayout s'') : s.SameLayout s'' where
  next := second.next.trans first.next
  undo p := (second.undo p).trans (first.undo p)
  ends t := (second.ends t).trans (first.ends t)
  nextPageId := second.nextPageId.trans first.nextPageId
  undoLog := second.undoLog.trans first.undoLog
  capacity := second.capacity.trans first.capacity
  storage := second.storage.trans first.storage

theorem table?_isSome (same : s.SameLayout s') (p : Nat) :
    (s'.page p).table?.isSome = (s.page p).table?.isSome := by
  have here := congrArg Option.isSome (congrFun same.next p)
  simpa [Database.next] using here

theorem undoRecord (same : s.SameLayout s') : s'.undoRecord = s.undoRecord := by
  funext pointer
  rw [Database.undoRecord, PageData.asUndo_eq, same.undo, Database.undoRecord, PageData.asUndo_eq]

end Database.SameLayout

namespace Layout

variable {s s' : Database} {pages : Nat → List Nat} {tableOf : Nat → Nat}

theorem same (layout : Layout s pages tableOf) (same : s.SameLayout s') :
    Layout s' pages tableOf := by
  have items : ∀ {t item'}, s'.items t = some item' →
      ∃ item, s.items t = some item ∧ item'.ends = item.ends := by
    intro t item' found
    have ends := same.ends t
    rw [found, Option.map_some, eq_comm, Option.map_eq_some_iff] at ends
    obtain ⟨item, found', ends⟩ := ends
    exact ⟨item, found', ends.symm⟩
  have undo : ∀ p image, s'.page p = .undo image ↔ s.page p = .undo image := by
    intro p image
    rw [← PageData.undo?_eq_some, same.undo, PageData.undo?_eq_some]
  refine
    { positive := same.nextPageId ▸ layout.positive
      blank := ?_
      linked := ?_
      last := ?_
      noItem := ?_
      member := ?_
      nodup := layout.nodup
      undoLog := ?_
      offsets := ?_
      newest := ?_
      capacity := ?_
      storage := same.storage.trans layout.storage }
  · intro p outside
    rw [same.nextPageId] at outside
    have blank := layout.blank p outside
    apply PageData.eq_blank
    · have some := same.table?_isSome p
      rw [blank] at some
      simpa [PageData.table?] using some
    · rw [same.undo, blank]
      rfl
  · intro t item' found
    obtain ⟨item, found', ends⟩ := items found
    rw [same.next, show item'.firstPageId = item.firstPageId from congrArg Prod.fst ends]
    exact layout.linked t item found'
  · intro t item' found
    obtain ⟨item, found', ends⟩ := items found
    exact (congrArg Prod.snd ends).trans (layout.last t item found')
  · intro t found
    have ends := same.ends t
    rw [found, Option.map_none, eq_comm, Option.map_eq_none_iff] at ends
    exact layout.noItem t ends
  · intro t p
    rw [same.table?_isSome]
    exact layout.member t p
  · rw [same.undoLog]
    obtain ⟨undoLog, found, page⟩ := layout.undoLog
    exact ⟨undoLog, found, page.imp_right fun some => by rw [same.undo]; exact some⟩
  · intro p image page
    exact layout.offsets p image ((undo p image).mp page)
  · intro undoLog p found here
    rw [same.undo] at here
    exact layout.newest undoLog p (same.undoLog ▸ found) here
  · intro log found
    have kept := same.capacity
    rw [found, Option.map_some, eq_comm, Option.map_eq_some_iff] at kept
    obtain ⟨log', found', same'⟩ := kept
    exact same' ▸ layout.capacity log' found'

theorem pos_of_mem (layout : Layout s pages tableOf) {t p : Nat} (member : p ∈ pages t) : 0 < p := by
  rcases Nat.eq_zero_or_pos p with rfl | positive
  · have table := ((layout.member t 0).mp member).1
    rw [layout.blank 0 (.inl rfl)] at table
    cases table
  · exact positive

theorem lt_of_mem (layout : Layout s pages tableOf) {t p : Nat} (member : p ∈ pages t) :
    p < s.nextPageId := by
  by_contra outside
  have table := ((layout.member t p).mp member).1
  rw [layout.blank p (.inr (by omega))] at table
  cases table

theorem exists_image (layout : Layout s pages tableOf) {t p : Nat} (member : p ∈ pages t) :
    ∃ image, s.page p = .table image ∧ tableOf p = t := by
  obtain ⟨table, of_table⟩ := (layout.member t p).mp member
  obtain ⟨image, found⟩ := Option.isSome_iff_exists.mp table
  exact ⟨image, PageData.table?_eq_some.mp found, of_table⟩

/-- The chains are what the pages and the entries say. -/
theorem pages_unique {pages' : Nat → List Nat} {tableOf' : Nat → Nat}
    (layout : Layout s pages tableOf) (layout' : Layout s pages' tableOf') : pages' = pages := by
  funext t
  cases entry : s.items t with
  | none => rw [layout.noItem t entry, layout'.noItem t entry]
  | some item => exact (layout.linked t item entry).unique (layout'.linked t item entry)

theorem store_unique {pages' : Nat → List Nat} {tableOf' : Nat → Nat}
    (layout : Layout s pages tableOf) (layout' : Layout s pages' tableOf') :
    s.store tableOf' = s.store tableOf := by
  have slots : (s.store tableOf').slot = (s.store tableOf).slot := by
    funext rid
    unfold Database.store
    dsimp only
    cases table : (s.page rid.pageId).table? with
    | none => cases row : rid.rowId <;> simp [PageData.asTable_eq, table, TableImage.slot]
    | some image =>
        have member := (layout.member (tableOf rid.pageId) rid.pageId).mpr ⟨by rw [table]; rfl, rfl⟩
        rw [← layout.pages_unique layout'] at member
        rw [((layout'.member _ _).mp member).2]
  unfold Database.store at slots ⊢
  rw [RecordStore.mk.injEq]
  exact ⟨slots, rfl, rfl⟩

end Layout

/-! ## What leaves the chains alone -/

namespace Database.SameLayout

variable {s s₀ : Database}

/-- The pool, the files, the manager and the journal do not matter, nor what is in the log. -/
theorem of_same {s' : Database} (page : s'.page = s.page) (items : s'.items = s.items)
    (nextPageId : s'.nextPageId = s.nextPageId) (undoLog : s'.undoLog = s.undoLog)
    (capacity : s'.log.map LogManager.capacity = s.log.map LogManager.capacity)
    (storage : s'.storage = s.storage) : s.SameLayout s' where
  next := by
    funext p
    rw [Database.next, page, Database.next]
  undo p := by rw [page]
  ends t := by rw [items]
  nextPageId := nextPageId
  undoLog := undoLog
  capacity := capacity
  storage := storage

theorem setPage {p : Nat} {image image' : TableImage} (page : s.page p = .table image)
    (next : image'.header.nextPageId = image.header.nextPageId) :
    s.SameLayout (s.setPage p (.table image')) where
  next := by
    funext q
    by_cases same : q = p
    · simp [Database.next, Database.setPage, same, page, PageData.table?, next]
    · simp [Database.next, Database.setPage, same]
  undo q := by
    by_cases same : q = p
    · simp [Database.setPage, same, page, PageData.undo?]
    · simp [Database.setPage, same]
  ends t := rfl
  nextPageId := rfl
  undoLog := rfl
  capacity := rfl
  storage := rfl

theorem setItem {tableId : Nat} {item item' : MetaItem} (found : s.items tableId = some item)
    (ends : item'.ends = item.ends) : s.SameLayout (s.setItem tableId item') where
  next := rfl
  undo p := rfl
  ends t := by
    by_cases same : t = tableId
    · simp [Database.setItem, same, found, ends]
    · simp [Database.setItem, same]
  nextPageId := rfl
  undoLog := rfl
  capacity := rfl
  storage := rfl

theorem updateTableRows (tableId : Nat) (change : Int) :
    (updateTableRows tableId change).Preserves s₀.SameLayout := by
  unfold YourSQL.updateTableRows updateItem
  apply Program.preserves_get_bind
  intro s before
  cases found : s.items tableId with
  | none => exact before
  | some item =>
      have set := before.trans
        (@setItem s tableId item (item.changeRows change) found rfl)
      simp only [Program.run_modify_bind]
      unfold flushMeta
      rw [Program.run_get_bind]
      split
      · exact set
      · exact set.trans (.of_same rfl rfl rfl rfl rfl rfl)

/-- The calls of a page object that write records. -/
theorem insertTuple {tableOf : Nat → Nat} {tp : TablePage} (sees : tp.Sees tableOf s)
    (record : Record) : s.SameLayout ((tp.insertTuple record).run s).2 := by
  obtain ⟨-, image, page, header⟩ := sees
  unfold TablePage.insertTuple TablePage.writeHeader
  split
  · exact refl s
  · simp only [Program.run_modify_bind, Database.page_setPage_self, Database.setPage_setPage]
    have grown := @setPage s tp.pageId image
      { header := { tp.header with numRows := tp.header.numRows + 1 }
        records := image.records.take tp.header.numRows ++ [record] } page (by rw [header])
    simp only [page, PageData.asTable]
    exact ((updateTableRows tp.tableId 1).bind fun _ => Program.preserves_pure _) _ grown

theorem putRecord (p rowId : Nat) {old : Record}
    (found : (s.page p).asTable.slot rowId = some old) (record : Record) :
    s.SameLayout (s.setPage p (.table (TablePage.putRecord (s.page p).asTable rowId record))) := by
  cases page : s.page p with
  | table image => exact setPage page rfl
  | blank =>
      rw [page] at found
      cases rowId <;> simp [PageData.asTable, TableImage.slot] at found
  | undo image =>
      rw [page] at found
      cases rowId <;> simp [PageData.asTable, TableImage.slot] at found

theorem markDelete (tp : TablePage) (rid : RID) (trxId : Nat) (rollPtr : UndoPointer) :
    (tp.markDelete rid trxId rollPtr).Preserves s₀.SameLayout := by
  apply Program.preserves_get_bind
  intro s before
  dsimp only
  cases found : (s.page tp.pageId).asTable.slot rid.rowId with
  | none => exact before
  | some record =>
      dsimp only
      split
      · exact before
      · exact updateTableRows _ _ _ (before.trans (putRecord _ _ found _))

theorem restoreRecord (tp : TablePage) (rid : RID) (header : RecordHeader) :
    (tp.restoreRecord rid header).Preserves s₀.SameLayout := by
  apply Program.preserves_get_bind
  intro s before
  dsimp only
  cases found : (s.page tp.pageId).asTable.slot rid.rowId with
  | none => exact before
  | some record =>
      dsimp only
      rw [Program.run_modify_bind]
      have put := before.trans (putRecord tp.pageId rid.rowId found (record.restored header))
      split
      · exact updateTableRows _ _ _ put
      · exact put

theorem markDead (tp : TablePage) (rid : RID) :
    (tp.markDead rid).Preserves s₀.SameLayout := by
  apply Program.preserves_get_bind
  intro s before
  dsimp only
  cases found : (s.page tp.pageId).asTable.slot rid.rowId with
  | none => exact before
  | some record =>
      dsimp only
      rw [Program.run_modify_bind]
      have put := before.trans (putRecord tp.pageId rid.rowId found record.killed)
      split
      · exact updateTableRows _ _ _ put
      · exact put

theorem fetchPage (id : Nat) : (fetchPage id).Preserves s₀.SameLayout :=
  Program.preserves_modify fun _ before => before.trans (.of_same rfl rfl rfl rfl rfl rfl)

theorem writeBack (s : Database) (id : Nat) : s.SameLayout (s.writeBack id) := by
  apply of_same <;> simp

theorem flush (id : Nat) : (flush id).Preserves s₀.SameLayout := by
  apply Program.preserves_get_bind
  intro s before
  split
  · exact before
  · exact before.trans (writeBack s id)

theorem release (id : Nat) : (release id).Preserves s₀.SameLayout := by
  apply Program.preserves_get_bind
  intro s before
  split
  · exact before
  · have unpinned : s.SameLayout (s.unpin id) := of_same rfl rfl rfl rfl rfl rfl
    exact (before.trans unpinned).trans (writeBack (s.unpin id) id)

end Database.SameLayout

end YourSQL
