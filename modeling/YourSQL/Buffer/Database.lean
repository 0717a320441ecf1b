import YourSQL.Lib.Program
import YourSQL.Catalog.Catalog
import YourSQL.Log.LogRecord
import YourSQL.Storage.Record
import YourSQL.Transaction.TransactionManager

/-! # One running process: pages, meta page, log and transactions

The state that the executors share, and the calls they make on the buffer manager,
the meta page and the log manager. A page is kept as what its bytes stand for, a
table page or an undo page. The pool is taken to have a free frame for every
request, and a page to be read back as it was last seen; what reaches the files, and
in which order, is recorded write by write.
-/

namespace YourSQL

/-- The header that a table page starts with. -/
structure TableHeader where
  version : Nat := 0
  numRows : Nat := 0
  pageId : Nat := 0
  nextPageId : Nat := 0
  lsn : Nat := 0
  deriving Repr, DecidableEq

/-- A table page: the header, and the records of its slots in order. -/
structure TableImage where
  header : TableHeader := {}
  records : List Record := []
  deriving Repr, DecidableEq

/-- An undo record; its payload is the old record with the header it had. -/
structure UndoLogRecord where
  oldRollPtr : UndoPointer
  oldTrxId : Nat
  payload : Record
  deriving Repr, DecidableEq

/-- An undo page: its header fields, and the records at their offsets. -/
structure UndoImage where
  pageId : Nat := 0
  lsn : Nat := 0
  freeOffset : Nat := 0
  records : List (Nat × UndoLogRecord) := []
  deriving Repr, DecidableEq

inductive PageData where
  | blank
  | table (image : TableImage)
  | undo (image : UndoImage)
  deriving Repr, DecidableEq

namespace PageData

/-- The page read as a table page. Zeros are a header without rows. -/
def asTable : PageData → TableImage
  | table image => image
  | _ => {}

/-- The page read as an undo page. -/
def asUndo : PageData → UndoImage
  | undo image => image
  | _ => {}

end PageData

/-- `LogDataPayload`. -/
structure LogDataPayload where
  tableId : Nat
  rid : RID
  image : Option Record
  deriving Repr, DecidableEq

/-- A log record before it is turned into bytes. -/
structure LogEntry where
  lsn : Nat
  txId : Nat
  type : LogRecordType
  payload : Option LogDataPayload
  deriving Repr, DecidableEq

/-- The bytes `AppendLogRecord` hands to the buffer: 28 bytes precede an image. -/
def LogEntry.size (entry : LogEntry) : Nat :=
  kLogHeaderBytes +
    match entry.payload with
    | none => 0
    | some payload => 28 + (payload.image.map Record.size).getD 0

def LOG_BUFFER_SIZE : Nat := 8192

/-- The log manager, with the entries its `LogBuffer` has not handed to the file. -/
structure LogManager where
  nextLsn : Nat := 1
  capacity : Nat := LOG_BUFFER_SIZE
  pending : List LogEntry := []
  deriving Repr, DecidableEq

structure UndoLogManager where
  undoPageId : Nat := INVALID_PAGE_ID
  deriving Repr, DecidableEq

/-- A completed write to the data file or to the log file. -/
inductive DiskWrite where
  | page (id : Nat) (data : PageData)
  | metaPage (items : Nat → Option MetaItem)
  | log (entries : List LogEntry)

/-- What happened, in order: read views, ends of transactions, and row changes once
    they are done. An UPDATE deletes a version and then replaces it. -/
inductive Event where
  | view (trx : Nat)
  | commit (trx : Nat)
  | abort (trx : Nat)
  | insert (trx tableId : Nat) (rid : RID) (payload : List UInt8)
  | delete (trx : Nat) (rid : RID)
  | replace (trx : Nat) (old new : RID) (payload : List UInt8)
  deriving Repr, DecidableEq

/-- `io` and `journal` record the run; no operation reads them. -/
structure Database where
  nextPageId : Nat := 1
  page : Nat → PageData := fun _ => .blank
  dirty : Nat → Bool := fun _ => false
  pins : Nat → Nat := fun id => if id = META_PAGE_ID then 1 else 0
  items : Nat → Option MetaItem := fun _ => none
  txnManager : TransactionManager := {}
  undoLog : Option UndoLogManager := some {}
  log : Option LogManager := some {}
  /-- `SetStorage` was called, so that `Abort` can reach the pages. -/
  storage : Bool := true
  io : List DiskWrite := []
  journal : List Event := []

abbrev Exec := Program Database String

/-! ## Buffer manager -/

namespace Database

def pin (s : Database) (id : Nat) : Database :=
  { s with pins := Function.update s.pins id (s.pins id + 1) }

def unpin (s : Database) (id : Nat) : Database :=
  { s with pins := Function.update s.pins id (s.pins id - 1) }

def setPage (s : Database) (id : Nat) (data : PageData) : Database :=
  { s with
    page := Function.update s.page id data
    dirty := Function.update s.dirty id true }

@[simp] theorem page_setPage_self (s : Database) (id : Nat) (data : PageData) :
    (s.setPage id data).page id = data := by
  simp [setPage]

@[simp] theorem setPage_setPage (s : Database) (id : Nat) (first second : PageData) :
    (s.setPage id first).setPage id second = s.setPage id second := by
  simp [setPage]

/-- A dirty page goes to the data file. -/
def writeBack (s : Database) (id : Nat) : Database :=
  if s.dirty id then
    { s with
      dirty := Function.update s.dirty id false
      io := s.io ++ [.page id (s.page id)] }
  else
    s

def setItem (s : Database) (tableId : Nat) (item : MetaItem) : Database :=
  { s with items := Function.update s.items tableId (some item) }

def writeMeta (s : Database) : Database := { s with io := s.io ++ [.metaPage s.items] }

/-- What the meta page in the file holds, if it held `start` at the start. -/
def metaPage (s : Database) (start : Nat → Option MetaItem) : Nat → Option MetaItem :=
  s.io.foldl (fun held write => match write with
    | .metaPage items => items
    | .page _ _ => held
    | .log _ => held) start

def enter (s : Database) (event : Event) : Database := { s with journal := s.journal ++ [event] }

end Database

def fetchPage (id : Nat) : Exec Unit := modify fun s => s.pin id

def newPage : Exec Nat := do
  let s ← get
  let id := s.nextPageId
  set { s with
    nextPageId := id + 1
    page := Function.update s.page id .blank
    dirty := Function.update s.dirty id false
    pins := Function.update s.pins id 1 }
  return id

/-- A page without pins is not in the page map. -/
def flush (id : Nat) : Exec Unit := do
  let s ← get
  if s.pins id = 0 then
    throw "BufferManager::Flush: Page not found"
  modify fun s => s.writeBack id

def release (id : Nat) : Exec Unit := do
  let s ← get
  if s.pins id = 0 then
    throw "BufferManager::Release: Page not found"
  modify fun s => (s.unpin id).writeBack id

namespace Database

@[simp] theorem page_writeBack (s : Database) (id : Nat) : (s.writeBack id).page = s.page := by
  unfold writeBack
  split <;> rfl

@[simp] theorem items_writeBack (s : Database) (id : Nat) : (s.writeBack id).items = s.items := by
  unfold writeBack
  split <;> rfl

@[simp] theorem pins_writeBack (s : Database) (id : Nat) : (s.writeBack id).pins = s.pins := by
  unfold writeBack
  split <;> rfl

@[simp] theorem txnManager_writeBack (s : Database) (id : Nat) :
    (s.writeBack id).txnManager = s.txnManager := by
  unfold writeBack
  split <;> rfl

@[simp] theorem log_writeBack (s : Database) (id : Nat) : (s.writeBack id).log = s.log := by
  unfold writeBack
  split <;> rfl

@[simp] theorem undoLog_writeBack (s : Database) (id : Nat) :
    (s.writeBack id).undoLog = s.undoLog := by
  unfold writeBack
  split <;> rfl

@[simp] theorem storage_writeBack (s : Database) (id : Nat) :
    (s.writeBack id).storage = s.storage := by
  unfold writeBack
  split <;> rfl

@[simp] theorem nextPageId_writeBack (s : Database) (id : Nat) :
    (s.writeBack id).nextPageId = s.nextPageId := by
  unfold writeBack
  split <;> rfl

@[simp] theorem journal_writeBack (s : Database) (id : Nat) :
    (s.writeBack id).journal = s.journal := by
  unfold writeBack
  split <;> rfl

end Database

namespace Database

@[simp] theorem metaPage_writeMeta (s : Database) (start : Nat → Option MetaItem) :
    s.writeMeta.metaPage start = s.items := by
  simp [metaPage, writeMeta]

@[simp] theorem metaPage_writeBack (s : Database) (id : Nat) (start : Nat → Option MetaItem) :
    (s.writeBack id).metaPage start = s.metaPage start := by
  unfold writeBack
  split
  · simp [metaPage]
  · rfl

/-- If the meta page in the file holds the entries, then it still does. -/
def Copies (s s' : Database) : Prop :=
  ∀ start, s.metaPage start = s.items → s'.metaPage start = s'.items

namespace Copies

variable {s s' s'' : Database}

theorem refl (s : Database) : s.Copies s := fun _ holds => holds

theorem trans (first : s.Copies s') (second : s'.Copies s'') : s.Copies s'' :=
  fun start holds => second start (first start holds)

/-- Nothing happens to the meta page. -/
theorem of_items (items : s'.items = s.items)
    (metaPage : ∀ start, s'.metaPage start = s.metaPage start) : s.Copies s' := by
  intro start holds
  rw [metaPage, items, holds]

theorem writeMeta (s s' : Database) : s.Copies s'.writeMeta := fun _ _ => metaPage_writeMeta s' _

theorem writeBack (s : Database) (id : Nat) : s.Copies (s.writeBack id) :=
  of_items (items_writeBack s id) (metaPage_writeBack s id)

end Copies

end Database

theorem run_flush {s : Database} {id : Nat} (pinned : s.pins id ≠ 0) :
    (flush id).run s = (.ok ⟨⟩, s.writeBack id) := by
  unfold flush
  rw [Program.run_get_bind, if_neg pinned]
  rfl

theorem run_release {s : Database} {id : Nat} (pinned : s.pins id ≠ 0) :
    (release id).run s = (.ok ⟨⟩, (s.unpin id).writeBack id) := by
  unfold release
  rw [Program.run_get_bind, if_neg pinned]
  rfl

namespace Database

/-- Beyond what `base` says, these pages are pinned, each as often as it is listed. -/
def Holding (s : Database) (base : Nat → Nat) (held : List Nat) : Prop :=
  ∀ p, s.pins p = base p + held.count p

namespace Holding

variable {s s' : Database} {base : Nat → Nat} {held : List Nat} {id : Nat}

theorem congr (holding : s.Holding base held) (pins : s'.pins = s.pins) : s'.Holding base held :=
  fun p => pins ▸ holding p

theorem pin (holding : s.Holding base held) (id : Nat) : (s.pin id).Holding base (id :: held) := by
  intro p
  by_cases same : p = id
  · subst same
    simp [Database.pin, holding p, Nat.add_assoc]
  · simp [Database.pin, holding p, same, Ne.symm same]

theorem release (holding : s.Holding base (id :: held)) :
    ((s.unpin id).writeBack id).Holding base held := by
  intro p
  rw [pins_writeBack]
  by_cases same : p = id
  · subst same
    simp [unpin, holding p, ← Nat.add_assoc]
  · simp [unpin, holding p, same, Ne.symm same]

theorem pinned (holding : s.Holding base (id :: held)) : s.pins id ≠ 0 := by
  rw [holding id, List.count_cons_self]
  omega

theorem eq (holding : s.Holding base []) : s.pins = base := funext holding

end Holding

/-- No page is pinned before it is allocated. -/
def Unborn (s : Database) : Prop := ∀ p, s.nextPageId ≤ p → s.pins p = 0

/-- Where some pages were held others are now, and all the rest is pinned as it was. The
    meta page in the file follows. -/
structure Swaps (s : Database) (before : List Nat) (s' : Database) (after : List Nat) : Prop where
  unborn : s.Unborn → s'.Unborn
  holding : ∀ base, s.Holding base before → s'.Holding base after
  copies : s.Copies s'

namespace Swaps

variable {s s' s'' : Database} {before middle after : List Nat}

theorem refl (s : Database) (held : List Nat) : s.Swaps held s held :=
  ⟨fun unborn => unborn, fun _ holding => holding, .refl s⟩

theorem trans (first : s.Swaps before s' middle) (second : s'.Swaps middle s'' after) :
    s.Swaps before s'' after where
  copies := first.copies.trans second.copies
  unborn unborn := second.unborn (first.unborn unborn)
  holding base holding := second.holding base (first.holding base holding)

theorem perm (s : Database) (same : before.Perm after) : s.Swaps before s after where
  copies := .refl s
  unborn unborn := unborn
  holding base holding p := by
    rw [← same.count_eq]
    exact holding p

/-- Pages that are held all the while. -/
theorem frame (swaps : s.Swaps before s' after) (held : List Nat) :
    s.Swaps (before ++ held) s' (after ++ held) where
  copies := swaps.copies
  unborn := swaps.unborn
  holding base holding p := by
    have inner : s.Holding (fun p => base p + held.count p) before := by
      intro q
      rw [holding q, List.count_append, Nat.add_assoc, Nat.add_comm (held.count q)]
    rw [swaps.holding _ inner p, List.count_append, Nat.add_assoc, Nat.add_comm (held.count p)]

/-- Nothing is pinned or released. -/
theorem of_pins (pins : s'.pins = s.pins) (nextPageId : s.nextPageId ≤ s'.nextPageId)
    (copies : s.Copies s') (held : List Nat) : s.Swaps held s' held where
  copies := copies
  unborn unborn p above := pins ▸ unborn p (nextPageId.trans above)
  holding _ holding := holding.congr pins

theorem pin (s : Database) {id : Nat} (born : id < s.nextPageId) (held : List Nat) :
    s.Swaps held (s.pin id) (id :: held) where
  copies := .refl s
  unborn unborn p above := by
    have other : p ≠ id := by
      intro same
      rw [same] at above
      exact absurd born (Nat.not_lt.mpr above)
    simpa [Database.pin, other] using unborn p above
  holding _ holding := holding.pin id

theorem release (s : Database) (id : Nat) (held : List Nat) :
    s.Swaps (id :: held) ((s.unpin id).writeBack id) held where
  copies := .writeBack (s.unpin id) id
  unborn unborn p above := by
    have none := unborn p (by simpa [unpin] using above)
    by_cases same : p = id
    · simp [unpin, same, same ▸ none]
    · simp [unpin, same, none]
  holding _ holding := holding.release

/-- A page is allocated. -/
theorem newPage (unborn : s.Unborn) (pins : s'.pins = Function.update s.pins s.nextPageId 1)
    (nextPageId : s'.nextPageId = s.nextPageId + 1) (copies : s.Copies s') (held : List Nat) :
    s.Swaps held s' (s.nextPageId :: held) where
  copies := copies
  unborn _ p above := by
    rw [nextPageId] at above
    have other : p ≠ s.nextPageId := (Nat.lt_of_succ_le above).ne'
    rw [pins, Function.update_of_ne other]
    exact unborn p (Nat.le_of_succ_le above)
  holding base holding p := by
    rw [pins]
    by_cases same : p = s.nextPageId
    · subst same
      have none := unborn s.nextPageId le_rfl
      have counted := holding s.nextPageId
      rw [Function.update_self, List.count_cons_self]
      omega
    · rw [Function.update_of_ne same, List.count_cons_of_ne (Ne.symm same)]
      exact holding p

end Swaps

end Database

/-! ## Meta page -/

/-- Every change of an entry makes the meta page dirty and flushes it. -/
def flushMeta : Exec Unit := do
  let s ← get
  if s.pins META_PAGE_ID = 0 then
    throw "BufferManager::Flush: Page not found"
  modify fun s => s.writeMeta

def updateItem (tableId : Nat) (message : String) (change : MetaItem → MetaItem) : Exec Unit := do
  let s ← get
  match s.items tableId with
  | none => throw message
  | some item =>
      modify fun s => s.setItem tableId (change item)
      flushMeta

theorem run_updateItem {s : Database} {tableId : Nat} {item : MetaItem}
    (found : s.items tableId = some item) (pinned : s.pins META_PAGE_ID ≠ 0) (message : String)
    (change : MetaItem → MetaItem) :
    (updateItem tableId message change).run s =
      (.ok ⟨⟩, (s.setItem tableId (change item)).writeMeta) := by
  unfold updateItem flushMeta
  rw [Program.run_get_bind, found]
  simp only [Program.run_modify_bind, Program.run_get_bind]
  have pinned' : (s.setItem tableId (change item)).pins META_PAGE_ID ≠ 0 := pinned
  rw [if_neg pinned']
  rfl

def changeRows (numRows : Nat) (change : Int) : Nat :=
  if change < 0 ∧ -change > numRows then 0 else (numRows + change).toNat

def MetaItem.changeRows (item : MetaItem) (change : Int) : MetaItem :=
  { item with
    numRows := YourSQL.changeRows item.numRows change
    clamped := item.clamped || decide (change < 0 ∧ -change > item.numRows) }

def updateTableRows (tableId : Nat) (change : Int) : Exec Unit :=
  updateItem tableId "MetaPage::UpdateTableRows don`t find target table_id" fun item =>
    item.changeRows change

def updateTableFirstId (tableId firstPageId : Nat) : Exec Unit :=
  updateItem tableId "MetaPage::UpdateTableLastId don`t find target table_id" fun item =>
    { item with firstPageId := firstPageId }

def updateTableLastId (tableId lastPageId : Nat) : Exec Unit :=
  updateItem tableId "MetaPage::UpdateTableLastId don`t find target table_id" fun item =>
    { item with lastPageId := lastPageId }

/-- `AddTable` of an entry that there is room for. -/
def Database.addTable (s : Database) (item : MetaItem) : Database :=
  (s.setItem item.tableId item).writeMeta

def getFirstPageId (tableId : Nat) : Exec Nat := do
  let s ← get
  match s.items tableId with
  | none => throw "MetaPage::GetFirstPageId for tableName does not exist"
  | some item => return item.firstPageId

/-! ## Log manager -/

namespace LogManager

def used (log : LogManager) : Nat := (log.pending.map LogEntry.size).sum

end LogManager

namespace Database

def setLog (s : Database) (log : LogManager) : Database := { s with log := some log }

def writeLog (s : Database) (entries : List LogEntry) : Database :=
  { s with io := s.io ++ [.log entries] }

end Database

/-- `LogManager::Flush`, seen by one client: an empty buffer is not written. -/
def flushLog : Exec Unit := do
  let s ← get
  match s.log with
  | none => return
  | some log =>
      if log.pending = [] then
        return
      modify fun s => (s.writeLog log.pending).setLog { log with pending := [] }

/-- `AppendLogRecord` with `LogBuffer::Write`. The LSN is drawn before the size is checked. -/
def appendLogRecord (txId : Nat) (type : LogRecordType) (payload : Option LogDataPayload) :
    Exec Nat := do
  let s ← get
  match s.log with
  | none => return INVALID_LSN
  | some log =>
      let entry : LogEntry := ⟨log.nextLsn, txId, type, payload⟩
      modify fun s => s.setLog { log with nextLsn := log.nextLsn + 1 }
      if entry.size > log.capacity then
        throw "LogBuffer::Write record larger than buffer capacity"
      if log.used + entry.size > log.capacity then
        flushLog
      modify fun s => { s with log := s.log.map fun log =>
        { log with pending := log.pending ++ [entry] } }
      return entry.lsn

/-- Logging changes the log and what has gone to its file. -/
theorem run_flushLog (s : Database) :
    ∃ log io, flushLog.run s = (.ok ⟨⟩, { s with log := log, io := io }) ∧
      log.map LogManager.capacity = s.log.map LogManager.capacity ∧
      s.Copies { s with log := log, io := io } := by
  unfold flushLog
  simp only [Program.run_get_bind]
  cases found : s.log with
  | none => exact ⟨none, s.io, by simp [← found], rfl, .refl s⟩
  | some log =>
      by_cases empty : log.pending = []
      · exact ⟨some log, s.io, by simp [empty, ← found], rfl, .refl s⟩
      · refine ⟨some { log with pending := [] }, s.io ++ [.log log.pending], ?_, rfl, ?_⟩
        · simp only [empty, if_false]
          rfl
        · exact .of_items rfl fun _ => by simp [Database.metaPage]

theorem run_appendLogRecord (s : Database) (txId : Nat) (type : LogRecordType)
    (payload : Option LogDataPayload)
    (fits : ∀ log, s.log = some log →
      (LogEntry.mk log.nextLsn txId type payload).size ≤ log.capacity) :
    ∃ lsn log io, (appendLogRecord txId type payload).run s =
      (.ok lsn, { s with log := log, io := io }) ∧
      log.map LogManager.capacity = s.log.map LogManager.capacity ∧
      s.Copies { s with log := log, io := io } := by
  unfold appendLogRecord
  simp only [Program.run_get_bind]
  cases found : s.log with
  | none => exact ⟨INVALID_LSN, none, s.io, by simp [← found], rfl, .refl s⟩
  | some log =>
      have room := fits log found
      simp only [Program.run_modify_bind]
      rw [if_neg (by omega)]
      split
      · obtain ⟨log', io, flushed, capacity, copies⟩ :=
          run_flushLog (s.setLog { log with nextLsn := log.nextLsn + 1 })
        rw [Program.run_bind_of_ok flushed]
        refine ⟨_, _, _, rfl, ?_, copies⟩
        rw [Option.map_map]
        exact capacity
      · exact ⟨_, _, _, rfl, rfl, .refl s⟩

/-- `ExecutorContext::LogDataChange`; without a log manager there is no LSN. -/
def logDataChange (txn : Option Nat) (type : LogRecordType) (tableId : Nat) (rid : RID)
    (image : Option Record) : Exec Nat :=
  appendLogRecord (txn.getD INVALID_TX_ID) type (some ⟨tableId, rid, image⟩)

end YourSQL
