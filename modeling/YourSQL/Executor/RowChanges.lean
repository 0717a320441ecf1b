import YourSQL.Executor.Statements
import YourSQL.Mvcc.Changes
import YourSQL.Transaction.UndoPages

/-! # One row change on its page

A record is put behind the others of a page that has room, or an old one is marked
deleted; the change is logged and its LSN goes to the page. What the pages stand for
changes at one address.
-/

namespace YourSQL

variable {s s' : Database} {pages : Nat → List Nat} {tableOf : Nat → Nat} {tp : TablePage}

/-- The database as a store of versions. -/
def Database.versions (s : Database) (tableOf : Nat → Nat) : Mvcc.VersionStore where
  toRecordStore := s.store tableOf
  undo := s.undoRecord
  manager := s.txnManager
  journal := s.journal

/-- No record has the address (0, 0). -/
theorem Database.slot_zero (s : Database) (tableOf : Nat → Nat) :
    (s.versions tableOf).slot ⟨0, 0⟩ = none := rfl

theorem Database.ne_zero_of_stored {rid : RID} {slot : Slot}
    (stored : (s.versions tableOf).slot rid = some slot) : rid ≠ ⟨0, 0⟩ := by
  rintro rfl
  rw [s.slot_zero] at stored
  cases stored

theorem Database.slot_of_tupleAt {rid : RID} {record : Record} (found : s.tupleAt rid = some record)
    (tableOf : Nat → Nat) :
    (s.versions tableOf).slot rid = some ⟨tableOf rid.pageId, record⟩ :=
  congrArg (Option.map _) found

theorem Database.tupleAt_of_slot {rid : RID} {slot : Slot}
    (found : (s.versions tableOf).slot rid = some slot) : s.tupleAt rid = some slot.record := by
  obtain ⟨record, stored, rfl⟩ := Option.map_eq_some_iff.mp found
  exact stored

/-- Only the pool and the files have changed, and the meta page in the file has not. -/
structure Database.PoolOnly (s s' : Database) : Prop where
  page : s'.page = s.page
  items : s'.items = s.items
  txnManager : s'.txnManager = s.txnManager
  undoLog : s'.undoLog = s.undoLog
  log : s'.log = s.log
  storage : s'.storage = s.storage
  nextPageId : s'.nextPageId = s.nextPageId
  journal : s'.journal = s.journal
  copies : s.Copies s'

namespace Database.PoolOnly

variable {s s' s'' : Database} {pages : Nat → List Nat} {tableOf : Nat → Nat}

theorem refl (s : Database) : s.PoolOnly s := ⟨rfl, rfl, rfl, rfl, rfl, rfl, rfl, rfl, .refl s⟩

theorem trans (first : s.PoolOnly s') (second : s'.PoolOnly s'') : s.PoolOnly s'' where
  page := second.page.trans first.page
  items := second.items.trans first.items
  txnManager := second.txnManager.trans first.txnManager
  undoLog := second.undoLog.trans first.undoLog
  log := second.log.trans first.log
  storage := second.storage.trans first.storage
  nextPageId := second.nextPageId.trans first.nextPageId
  journal := second.journal.trans first.journal
  copies := first.copies.trans second.copies

theorem pin (s : Database) (id : Nat) : s.PoolOnly (s.pin id) :=
  ⟨rfl, rfl, rfl, rfl, rfl, rfl, rfl, rfl, .refl s⟩

theorem writeBack (s : Database) (id : Nat) : s.PoolOnly (s.writeBack id) := by
  constructor
  case copies => exact .writeBack s id
  all_goals simp

theorem release (s : Database) (id : Nat) : s.PoolOnly ((s.unpin id).writeBack id) := by
  have unpinned : s.PoolOnly (s.unpin id) := ⟨rfl, rfl, rfl, rfl, rfl, rfl, rfl, rfl, .refl s⟩
  exact unpinned.trans (writeBack (s.unpin id) id)

theorem versions (pool : s.PoolOnly s') (tableOf : Nat → Nat) :
    s'.versions tableOf = s.versions tableOf := by
  have undo : s'.undoRecord = s.undoRecord := by
    funext pointer
    rw [Database.undoRecord, pool.page, Database.undoRecord]
  simp only [Database.versions, store_congr pool.page pool.items, undo, pool.txnManager,
    pool.journal]

theorem sound (pool : s.PoolOnly s') (sound : s.Sound pages tableOf)
    (pinned : s'.pins META_PAGE_ID ≠ 0) : s'.Sound pages tableOf where
  layout := sound.layout.congr pool.page pool.items pool.nextPageId pool.undoLog pool.log
    pool.storage
  consistent := sound.consistent.congr pool.page pool.items pinned

end Database.PoolOnly

theorem Database.Sound.same (sound : s.Sound pages tableOf) (same : s.SameLayout s')
    (consistent : s'.Consistent tableOf) : s'.Sound pages tableOf :=
  ⟨sound.layout.same same, consistent⟩

theorem TablePage.Sees.congr (sees : tp.Sees tableOf s)
    (page : s'.page tp.pageId = s.page tp.pageId) : tp.Sees tableOf s' :=
  ⟨sees.table, page ▸ sees.page⟩

/-- The record image that a log record of a row change carries is no larger than a page. -/
theorem fits_log (sound : s.Sound pages tableOf) {image : Option Record}
    (small : (image.map Record.size).getD 0 ≤ PAGE_SIZE) (txId : Nat) (type : LogRecordType)
    (tableId : Nat) (rid : RID) (log : LogManager) (found : s.log = some log) :
    (LogEntry.mk log.nextLsn txId type (some ⟨tableId, rid, image⟩)).size ≤ log.capacity := by
  have capacity := sound.layout.capacity log found
  simp only [LogEntry.size, kLogHeaderBytes, LOG_BUFFER_SIZE, PAGE_SIZE] at small capacity ⊢
  omega

theorem run_logAndSetLsn (sound : s.Sound pages tableOf) (sees : tp.Sees tableOf s)
    (txn : Option Nat) (type : LogRecordType) (tableId : Nat) (rid : RID) (image : Option Record)
    (fits : ∀ log, s.log = some log →
      (LogEntry.mk log.nextLsn (txn.getD INVALID_TX_ID) type (some ⟨tableId, rid, image⟩)).size ≤
        log.capacity) :
    ∃ s' tp', (logAndSetLsn txn type tableId rid image tp).run s = (.ok tp', s') ∧
      s'.store tableOf = s.store tableOf ∧ s'.Sound pages tableOf ∧ tp'.Sees tableOf s' ∧
      tp'.pageId = tp.pageId ∧ s.SameLayout s' ∧ s.SameClients s' ∧
      ∀ q, q ≠ tp.pageId → s'.page q = s.page q := by
  obtain ⟨lsn, log, io, ran, capacity, copies⟩ := run_appendLogRecord s (txn.getD INVALID_TX_ID) type
    (some ⟨tableId, rid, image⟩) fits
  let s₁ : Database := { s with log := log, io := io }
  have same₁ : s.SameLayout s₁ := .of_same rfl rfl rfl rfl capacity rfl
  have consistent₁ : s₁.Consistent tableOf := sound.consistent.congr rfl rfl sound.consistent.pinned
  unfold logAndSetLsn logDataChange
  rw [Program.run_bind_of_ok ran]
  by_cases invalid : lsn = INVALID_LSN
  · rw [if_pos invalid]
    exact ⟨s₁, tp, rfl, rfl, sound.same same₁ consistent₁, sees.congr rfl, rfl, same₁,
      ⟨rfl, rfl, rfl, copies⟩, fun _ _ => rfl⟩
  · rw [if_neg invalid]
    obtain ⟨of_table, pageImage, page, header⟩ := sees
    let tp' : TablePage := { tp with header := { tp.header with lsn := lsn } }
    let written : TableImage := { pageImage with header := tp'.header }
    have here : s₁.page tp.pageId = .table pageImage := page
    obtain ⟨at_page, rows⟩ := sound.consistent.header _ _ page
    have next : tp.header.nextPageId = pageImage.header.nextPageId := by rw [header]
    have same₂ : s₁.SameLayout (s₁.setPage tp.pageId (.table written)) := .setPage here next
    refine ⟨s₁.setPage tp.pageId (.table written), tp', ?_, ?_, ?_, ?_, rfl, same₁.trans same₂,
      ⟨rfl, rfl, rfl, copies⟩, fun _ other => Function.update_of_ne other ..⟩
    · simp only [TablePage.setLsn, TablePage.writeHeader, Program.run_modify_bind, page,
        PageData.asTable]
      rfl
    · refine RecordStore.ext ?_ rfl rfl
      funext other
      rw [Database.store_setPage]
      split
      · rename_i same
        rw [Database.slot_store_of_image (same ▸ page), same]
        rfl
      · rfl
    · apply sound.same (same₁.trans same₂)
      apply consistent₁.setPage
      · rw [← header] at at_page rows
        exact ⟨at_page, rows⟩
      · exact fun records => sound.consistent.item _ _ page records
    · exact ⟨of_table, written, Database.page_setPage_self .., rfl⟩

/-- A record that no log buffer holds is refused; only its LSN is drawn. -/
theorem run_logAndSetLsn_of_large (sound : s.Sound pages tableOf) {log : LogManager}
    (found : s.log = some log) (txn : Option Nat) (type : LogRecordType) (tableId : Nat) (rid : RID)
    (image : Option Record)
    (large : log.capacity < (LogEntry.mk log.nextLsn (txn.getD INVALID_TX_ID) type
      (some ⟨tableId, rid, image⟩)).size) :
    ∃ s', (logAndSetLsn txn type tableId rid image tp).run s =
        (.error "LogBuffer::Write record larger than buffer capacity", s') ∧
      s.PoolOnly { s' with log := s.log } ∧ s'.pins = s.pins ∧ s'.Sound pages tableOf := by
  refine ⟨s.setLog { log with nextLsn := log.nextLsn + 1 }, ?_,
    ⟨rfl, rfl, rfl, rfl, rfl, rfl, rfl, rfl, .refl s⟩, rfl, ?_⟩
  · unfold logAndSetLsn logDataChange
    apply Program.run_bind_of_error
    unfold appendLogRecord
    rw [Program.run_get_bind, found]
    simp only [Program.run_modify_bind]
    rw [if_pos large, Program.run_throw_bind]
  · apply sound.same
    · exact .of_same rfl rfl rfl rfl (by rw [found]; rfl) rfl
    · exact sound.consistent.congr rfl rfl sound.consistent.pinned

/-! ## A record is marked deleted -/

theorem TablePage.Sees.markDelete (tp' : TablePage) (rid : RID) (trxId : Nat)
    (rollPtr : UndoPointer) :
    (tp'.markDelete rid trxId rollPtr).Preserves (tp.Sees tableOf) := by
  have rows : ∀ (tableId : Nat) (change : Int),
      (updateTableRows tableId change).Preserves (tp.Sees tableOf) := by
    intro tableId change
    apply Program.preserves_get_bind
    intro s sees
    cases s.items tableId with
    | none => exact sees
    | some item =>
        apply Program.Preserves.bind
        · exact Program.preserves_modify fun s sees => sees.congr rfl
        · intro _
          apply Program.preserves_get_bind
          intro s sees
          split
          · exact sees
          · exact sees.congr rfl
        · exact sees
  apply Program.preserves_get_bind
  intro s sees
  dsimp only
  cases (s.page tp'.pageId).asTable.slot rid.rowId with
  | none => exact sees
  | some record =>
      dsimp only
      split
      · exact sees
      · apply rows
        obtain ⟨of_table, image, page, header⟩ := sees
        by_cases here : tp.pageId = tp'.pageId
        · have header' : tp.header = (s.page tp'.pageId).asTable.header := by
            rw [← here, page]
            exact header
          refine ⟨of_table, TablePage.putRecord (s.page tp'.pageId).asTable rid.rowId
            (record.deleted trxId rollPtr), ?_, header'⟩
          rw [here]
          exact Database.page_setPage_self ..
        · refine ⟨of_table, image, ?_, header⟩
          simpa [Database.setPage, here] using page

/-- `MarkDelete` of a record that is not deleted, and its log record. -/
theorem run_markAndLog (sound : s.Sound pages tableOf) (sees : tp.Sees tableOf s) {rid : RID}
    {t : Nat} {record : Record} (at_page : tp.pageId = rid.pageId)
    (found : (s.versions tableOf).slot rid = some ⟨t, record⟩) (alive : record.isDel = false)
    (trx : Nat) (pointer : UndoPointer) :
    ∃ s₁ s' tp', (tp.markDelete rid trx pointer).run s = (.ok ⟨⟩, s₁) ∧
      (logAndSetLsn (some trx) .deleteRow tp.tableId rid none tp).run s₁ = (.ok tp', s') ∧
      s'.Sound pages tableOf ∧ tp'.Sees tableOf s' ∧ tp'.pageId = tp.pageId ∧ s.SameLayout s' ∧
      s.SameClients s' ∧
      s'.versions tableOf = ((s.versions tableOf).put rid ⟨t, record.deleted trx pointer⟩).dropRow t := by
  obtain ⟨s₁, marked, store₁, consistent₁, rest₁⟩ :=
    TablePage.run_markDelete sound.consistent at_page (at_page ▸ sees.table) found trx pointer
  have same₁ : s.SameLayout s₁ := by
    have kept := (Database.SameLayout.markDelete tp rid trx pointer) s (.refl s)
    rwa [marked] at kept
  have sees₁ : tp.Sees tableOf s₁ := by
    have kept := (TablePage.Sees.markDelete tp rid trx pointer) s sees
    rwa [marked] at kept
  have sound₁ := sound.same same₁ consistent₁
  obtain ⟨s', tp', logged, store, sound', sees', pageId, same, clients, -⟩ :=
    run_logAndSetLsn sound₁ sees₁ (some trx) .deleteRow tp.tableId rid none
      (fits_log sound₁ (by simp [PAGE_SIZE]) _ _ _ _)
  have same' := same₁.trans same
  have clients' := rest₁.clients.trans clients
  refine ⟨s₁, s', tp', marked, logged, sound', sees', pageId, same', clients', ?_⟩
  have slot : (s.store tableOf).slot rid = some ⟨t, record⟩ := found
  simp only [Database.versions, store, store₁, same'.undoRecord, clients'.txnManager,
    clients'.journal, RecordStore.markDelete, slot, alive]
  rfl

end YourSQL
