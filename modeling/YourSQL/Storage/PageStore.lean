import YourSQL.Storage.TablePage

/-! # The records behind the pages

Pages and meta page, read as a store of records: the slots of all table pages by
their addresses, and the row counter of each table. Each operation of a `TablePage`
is one operation of the store, and the counter it moves is that of the page's table.
-/

namespace YourSQL

/-- The store behind a database in which page `p` belongs to table `tableOf p`. -/
def Database.store (s : Database) (tableOf : Nat → Nat) : RecordStore where
  slot rid := ((s.page rid.pageId).asTable.slot rid.rowId).map (Slot.mk (tableOf rid.pageId))
  numRows t := ((s.items t).map MetaItem.numRows).getD 0
  clamped t := ((s.items t).map MetaItem.clamped).getD false

/-- The record at an address. -/
def Database.tupleAt (s : Database) (rid : RID) : Option Record :=
  (s.page rid.pageId).asTable.slot rid.rowId

/-- Page headers say where they are and how many rows follow, and the meta page, which
    stays in the pool, has an entry for each table with records. -/
structure Database.Consistent (s : Database) (tableOf : Nat → Nat) : Prop where
  header : ∀ p image, s.page p = .table image →
    image.header.pageId = p ∧ image.header.numRows = image.records.length
  item : ∀ p image, s.page p = .table image → image.records ≠ [] →
    ∃ item, s.items (tableOf p) = some item
  pinned : s.pins META_PAGE_ID ≠ 0

/-- All but the pages, the meta page's entries and the files is the same. The meta page in
    the file follows. -/
structure Database.SameRest (s s' : Database) : Prop where
  txnManager : s'.txnManager = s.txnManager
  log : s'.log = s.log
  undoLog : s'.undoLog = s.undoLog
  storage : s'.storage = s.storage
  pins : s'.pins = s.pins
  nextPageId : s'.nextPageId = s.nextPageId
  journal : s'.journal = s.journal
  copies : s.Copies s'

theorem Database.SameRest.refl (s : Database) : s.SameRest s :=
  ⟨rfl, rfl, rfl, rfl, rfl, rfl, rfl, .refl s⟩

theorem Database.SameRest.trans {s s' s'' : Database} (first : s.SameRest s')
    (second : s'.SameRest s'') : s.SameRest s'' where
  txnManager := second.txnManager.trans first.txnManager
  log := second.log.trans first.log
  undoLog := second.undoLog.trans first.undoLog
  storage := second.storage.trans first.storage
  pins := second.pins.trans first.pins
  nextPageId := second.nextPageId.trans first.nextPageId
  journal := second.journal.trans first.journal
  copies := first.copies.trans second.copies

theorem Database.sameRest_setPage (s : Database) (p : Nat) (data : PageData) :
    s.SameRest (s.setPage p data) := ⟨rfl, rfl, rfl, rfl, rfl, rfl, rfl, .refl s⟩

namespace TableImage

theorem records_ne_nil {image : TableImage} {rowId : Nat} {record : Record}
    (found : image.slot rowId = some record) : image.records ≠ [] := by
  cases rowId with
  | zero => simp [slot] at found
  | succ index =>
      intro empty
      simp [slot, empty] at found

theorem slot_putRecord {image : TableImage} {rowId : Nat} {old : Record}
    (found : image.slot rowId = some old) (record : Record) (other : Nat) :
    (TablePage.putRecord image rowId record).slot other =
      if other = rowId then some record else image.slot other := by
  cases rowId with
  | zero => simp [slot] at found
  | succ index =>
      have bound : index < image.records.length := (List.getElem?_eq_some_iff.mp found).1
      cases other with
      | zero => simp [slot]
      | succ other =>
          by_cases same : other = index
          · subst same
            simp [slot, TablePage.putRecord, bound]
          · simp [slot, TablePage.putRecord, List.getElem?_set_ne (Ne.symm same), same]

theorem slot_append (image : TableImage) (header : TableHeader) (record : Record) (rowId : Nat) :
    (TableImage.mk header (image.records ++ [record])).slot rowId =
      if rowId = image.records.length + 1 then some record else image.slot rowId := by
  cases rowId with
  | zero => simp [slot]
  | succ index =>
      by_cases same : index = image.records.length
      · simp [slot, same]
      · rw [if_neg (by omega)]
        simp only [slot, List.getElem?_append]
        split
        · rfl
        · rw [List.getElem?_eq_none (by simp; omega), List.getElem?_eq_none (by omega)]

end TableImage

namespace Database

variable {tableOf : Nat → Nat} {s s' : Database}

theorem slot_store_of_image {rid : RID} {image : TableImage}
    (page : s.page rid.pageId = .table image) :
    (s.store tableOf).slot rid = (image.slot rid.rowId).map (Slot.mk (tableOf rid.pageId)) := by
  simp [store, page, PageData.asTable]

/-- An address with a record lies on a table page. -/
theorem exists_image_of_slot {rid : RID} {slot : Slot}
    (found : (s.store tableOf).slot rid = some slot) :
    ∃ image, s.page rid.pageId = .table image ∧ image.slot rid.rowId = some slot.record ∧
      slot.tableId = tableOf rid.pageId := by
  cases page : s.page rid.pageId with
  | table image =>
      rw [slot_store_of_image page, Option.map_eq_some_iff] at found
      obtain ⟨record, here, rfl⟩ := found
      exact ⟨image, rfl, here, rfl⟩
  | blank =>
      cases row : rid.rowId <;> simp [store, page, PageData.asTable, TableImage.slot, row] at found
  | undo image =>
      cases row : rid.rowId <;> simp [store, page, PageData.asTable, TableImage.slot, row] at found

theorem store_congr (page : s'.page = s.page) (items : s'.items = s.items) :
    s'.store tableOf = s.store tableOf := by
  simp [store, page, items]

theorem Consistent.congr (consistent : s.Consistent tableOf) (page : s'.page = s.page)
    (items : s'.items = s.items) (pinned : s'.pins META_PAGE_ID ≠ 0) : s'.Consistent tableOf where
  header := page ▸ consistent.header
  item := page ▸ items ▸ consistent.item
  pinned := pinned

theorem store_setPage (p : Nat) (image : TableImage) (rid : RID) :
    ((s.setPage p (.table image)).store tableOf).slot rid =
      if rid.pageId = p then (image.slot rid.rowId).map (Slot.mk (tableOf p))
      else (s.store tableOf).slot rid := by
  by_cases same : rid.pageId = p
  · subst same
    simp [store, setPage, PageData.asTable]
  · simp [store, setPage, same]

theorem store_putRecord {rid : RID} {image : TableImage} {old : Record}
    (page : s.page rid.pageId = .table image) (found : image.slot rid.rowId = some old)
    (record : Record) :
    (s.setPage rid.pageId (.table (TablePage.putRecord image rid.rowId record))).store tableOf =
      (s.store tableOf).put rid ⟨tableOf rid.pageId, record⟩ := by
  refine RecordStore.ext ?_ rfl rfl
  funext other
  rw [store_setPage]
  by_cases self : other = rid
  · subst self
    simp [TableImage.slot_putRecord found, RecordStore.put]
  · rw [RecordStore.slot_put_of_ne _ self]
    by_cases same : other.pageId = rid.pageId
    · have row : other.rowId ≠ rid.rowId := fun row => self (RID.ext same row)
      rw [if_pos same, TableImage.slot_putRecord found, if_neg row,
        slot_store_of_image (same ▸ page), same]
    · rw [if_neg same]

theorem store_append {p : Nat} {image : TableImage} (page : s.page p = .table image)
    (header : TableHeader) (record : Record) :
    (s.setPage p (.table ⟨header, image.records ++ [record]⟩)).store tableOf =
      (s.store tableOf).put ⟨p, image.records.length + 1⟩ ⟨tableOf p, record⟩ := by
  refine RecordStore.ext ?_ rfl rfl
  funext other
  rw [store_setPage]
  by_cases self : other = ⟨p, image.records.length + 1⟩
  · subst self
    simp [TableImage.slot_append, RecordStore.put]
  · rw [RecordStore.slot_put_of_ne _ self]
    by_cases same : other.pageId = p
    · have row : other.rowId ≠ image.records.length + 1 := fun row => self (RID.ext same row)
      rw [if_pos same, TableImage.slot_append, if_neg row, slot_store_of_image (same ▸ page), same]
    · rw [if_neg same]

/-- The address behind the last record is free. -/
theorem slot_store_append {p : Nat} {image : TableImage} (page : s.page p = .table image) :
    (s.store tableOf).slot ⟨p, image.records.length + 1⟩ = none := by
  have last := @slot_store_of_image tableOf s ⟨p, image.records.length + 1⟩ image page
  simp [last, TableImage.slot]

theorem Consistent.setPage (consistent : s.Consistent tableOf) {p : Nat} {image : TableImage}
    (header : image.header.pageId = p ∧ image.header.numRows = image.records.length)
    (item : image.records ≠ [] → ∃ item, s.items (tableOf p) = some item) :
    (s.setPage p (.table image)).Consistent tableOf where
  header q image' page := by
    by_cases same : q = p
    · subst same
      simp only [Database.setPage, Function.update_self, PageData.table.injEq] at page
      exact page ▸ header
    · simp only [Database.setPage, Function.update_of_ne same] at page
      exact consistent.header q image' page
  item q image' page := by
    by_cases same : q = p
    · subst same
      simp only [Database.setPage, Function.update_self, PageData.table.injEq] at page
      exact page ▸ item
    · simp only [Database.setPage, Function.update_of_ne same] at page
      exact consistent.item q image' page
  pinned := consistent.pinned

theorem Consistent.putRecord (consistent : s.Consistent tableOf) {rid : RID} {image : TableImage}
    {old : Record} (page : s.page rid.pageId = .table image)
    (found : image.slot rid.rowId = some old) (record : Record) :
    (s.setPage rid.pageId (.table (TablePage.putRecord image rid.rowId record))).Consistent
      tableOf := by
  apply consistent.setPage
  · simpa [TablePage.putRecord] using consistent.header _ _ page
  · intro _
    exact consistent.item _ _ page (TableImage.records_ne_nil found)

theorem store_setItem (tableId : Nat) (item : MetaItem) :
    ((s.setItem tableId item).writeMeta.store tableOf) =
      { s.store tableOf with
        numRows := Function.update (s.store tableOf).numRows tableId item.numRows
        clamped := Function.update (s.store tableOf).clamped tableId item.clamped } := by
  apply RecordStore.ext
  · rfl
  all_goals
    funext t
    by_cases same : t = tableId
    · subst same
      simp [store, setItem, writeMeta]
    · simp [store, setItem, writeMeta, same]

theorem Consistent.setItem (consistent : s.Consistent tableOf) (tableId : Nat) (item : MetaItem) :
    (s.setItem tableId item).writeMeta.Consistent tableOf where
  header := consistent.header
  item p image page records := by
    by_cases same : tableOf p = tableId
    · exact ⟨item, by simp [Database.setItem, writeMeta, same]⟩
    · obtain ⟨found, eq⟩ := consistent.item p image page records
      exact ⟨found, by simpa [Database.setItem, writeMeta, same] using eq⟩
  pinned := consistent.pinned

/-- `UpdateTableRows` for one more row. -/
theorem run_addRow (consistent : s.Consistent tableOf) {tableId : Nat} {item : MetaItem}
    (found : s.items tableId = some item) :
    ∃ s', (updateTableRows tableId 1).run s = (.ok ⟨⟩, s') ∧
      s'.store tableOf = (s.store tableOf).addRow tableId ∧ s'.Consistent tableOf ∧
      s.SameRest s' := by
  refine ⟨_, run_updateItem found consistent.pinned _ _, ?_, consistent.setItem _ _,
    ⟨rfl, rfl, rfl, rfl, rfl, rfl, rfl, .writeMeta _ _⟩⟩
  have numRows : (s.store tableOf).numRows tableId = item.numRows := by simp [store, found]
  have clamped : (s.store tableOf).clamped tableId = (item.changeRows 1).clamped := by
    simp [store, found, MetaItem.changeRows]
  rw [store_setItem, ← clamped, Function.update_eq_self, RecordStore.addRow, numRows]
  rfl

/-- `UpdateTableRows` for one row less. -/
theorem run_dropRow (consistent : s.Consistent tableOf) {tableId : Nat} {item : MetaItem}
    (found : s.items tableId = some item) :
    ∃ s', (updateTableRows tableId (-1)).run s = (.ok ⟨⟩, s') ∧
      s'.store tableOf = (s.store tableOf).dropRow tableId ∧ s'.Consistent tableOf ∧
      s.SameRest s' := by
  refine ⟨_, run_updateItem found consistent.pinned _ _, ?_, consistent.setItem _ _,
    ⟨rfl, rfl, rfl, rfl, rfl, rfl, rfl, .writeMeta _ _⟩⟩
  have numRows : (s.store tableOf).numRows tableId = item.numRows := by simp [store, found]
  have clamped : (s.store tableOf).clamped tableId = item.clamped := by simp [store, found]
  have change : (item.changeRows (-1)).numRows = item.numRows - 1 := by
    unfold MetaItem.changeRows changeRows
    dsimp only
    split <;> omega
  have stops : (item.changeRows (-1)).clamped = (item.clamped || decide (item.numRows = 0)) := by
    have stops : (-1 : Int) < 0 ∧ - -1 > (item.numRows : Int) ↔ item.numRows = 0 := by omega
    exact congrArg (item.clamped || ·) (decide_eq_decide.mpr stops)
  rw [store_setItem, RecordStore.dropRow, numRows, clamped, change, stops]

/-- A page is fetched, written to through an object, flushed and released. -/
theorem run_bracket (consistent : s.Consistent tableOf) {p : Nat} {x : Exec Unit}
    {after : RecordStore}
    (ran : ∀ s₁ : Database, s₁.Consistent tableOf → s₁.page = s.page → s₁.items = s.items →
      ∃ s₂, x.run s₁ = (.ok ⟨⟩, s₂) ∧ s₂.store tableOf = after ∧ s₂.Consistent tableOf ∧
        s₁.SameRest s₂) :
    ∃ s', (do fetchPage p; x; flush p; release p : Exec Unit).run s = (.ok ⟨⟩, s') ∧
      s'.store tableOf = after ∧ s'.Consistent tableOf ∧ s.SameRest s' := by
  have pinned : (s.pin p).pins META_PAGE_ID ≠ 0 := by
    by_cases same : META_PAGE_ID = p
    · simp [pin, same]
    · simpa [pin, same] using consistent.pinned
  obtain ⟨s₂, middle, store, consistent₂, rest⟩ :=
    ran (s.pin p) (consistent.congr rfl rfl pinned) rfl rfl
  have pins : s₂.pins = Function.update s.pins p (s.pins p + 1) := rest.pins
  have used : s₂.pins p ≠ 0 := by simp [pins]
  have used' : (s₂.writeBack p).pins p ≠ 0 := by simp [pins]
  have back : (((s₂.writeBack p).unpin p).writeBack p).pins = s.pins := by
    simp [unpin, pins]
  refine ⟨((s₂.writeBack p).unpin p).writeBack p, ?_, ?_, ?_, ?_⟩
  · simp only [fetchPage, Program.run_modify_bind]
    rw [Program.run_bind_of_ok middle, Program.run_bind_of_ok (run_flush used), run_release used']
  · rw [← store]
    exact store_congr (by simp [unpin]) (by simp [unpin])
  · apply consistent₂.congr (by simp [unpin]) (by simp [unpin])
    rw [back]
    exact consistent.pinned
  · have written : s₂.Copies (((s₂.writeBack p).unpin p).writeBack p) :=
      (Database.Copies.writeBack s₂ p).trans (.writeBack ((s₂.writeBack p).unpin p) p)
    refine ⟨?_, ?_, ?_, ?_, back, ?_, ?_, rest.copies.trans written⟩
    · simpa [unpin, pin] using rest.txnManager
    · simpa [unpin, pin] using rest.log
    · simpa [unpin, pin] using rest.undoLog
    · simpa [unpin, pin] using rest.storage
    · simpa [unpin, pin] using rest.nextPageId
    · simpa [unpin, pin] using rest.journal

end Database

namespace TablePage

/-- A `TablePage` object for a page of a table, whose header copy is the page's. -/
structure Sees (tableOf : Nat → Nat) (tp : TablePage) (s : Database) : Prop where
  table : tp.tableId = tableOf tp.pageId
  page : ∃ image, s.page tp.pageId = .table image ∧ tp.header = image.header

variable {tableOf : Nat → Nat} {s : Database} {tp : TablePage} {rid : RID} {slot : Slot}

/-- A record is written over the one that is stored. -/
theorem putRecord_refines (consistent : s.Consistent tableOf)
    (found : (s.store tableOf).slot rid = some slot) (record : Record) :
    ∃ image item, (s.page rid.pageId).asTable = image ∧ image.slot rid.rowId = some slot.record ∧
      slot.tableId = tableOf rid.pageId ∧ s.items (tableOf rid.pageId) = some item ∧
      (s.setPage rid.pageId (.table (putRecord image rid.rowId record))).store tableOf =
        (s.store tableOf).put rid ⟨tableOf rid.pageId, record⟩ ∧
      (s.setPage rid.pageId (.table (putRecord image rid.rowId record))).Consistent tableOf := by
  obtain ⟨image, page, here, table⟩ := Database.exists_image_of_slot found
  obtain ⟨item, entry⟩ := consistent.item _ _ page (TableImage.records_ne_nil here)
  exact ⟨image, item, by simp [page, PageData.asTable], here, table, entry,
    Database.store_putRecord page here record, consistent.putRecord page here record⟩

theorem run_markDelete (consistent : s.Consistent tableOf) (at_page : tp.pageId = rid.pageId)
    (of_table : tp.tableId = tableOf rid.pageId)
    (found : (s.store tableOf).slot rid = some slot) (trxId : Nat) (rollPtr : UndoPointer) :
    ∃ s', (tp.markDelete rid trxId rollPtr).run s = (.ok ⟨⟩, s') ∧
      s'.store tableOf = (s.store tableOf).markDelete rid trxId rollPtr ∧
      s'.Consistent tableOf ∧ s.SameRest s' := by
  obtain ⟨image, item, page, here, table, entry, put, consistent'⟩ :=
    putRecord_refines consistent found (slot.record.deleted trxId rollPtr)
  obtain ⟨t, record⟩ := slot
  obtain rfl : t = tableOf rid.pageId := table
  unfold markDelete
  simp only [Program.run_get_bind, at_page, of_table, page, here]
  cases del : record.isDel with
  | true =>
      refine ⟨s, by simp, ?_, consistent, .refl s⟩
      simp [RecordStore.markDelete, found, del]
  | false =>
      obtain ⟨s', ran, store, consistent'', rest⟩ := Database.run_dropRow consistent' entry
      refine ⟨s', by simp [ran], ?_, consistent'', (s.sameRest_setPage _ _).trans rest⟩
      simp [RecordStore.markDelete, found, del, store, put]

theorem run_restoreRecord (consistent : s.Consistent tableOf) (at_page : tp.pageId = rid.pageId)
    (of_table : tp.tableId = tableOf rid.pageId)
    (found : (s.store tableOf).slot rid = some slot) (header : RecordHeader) :
    ∃ s', (tp.restoreRecord rid header).run s = (.ok ⟨⟩, s') ∧
      s'.store tableOf = (s.store tableOf).restoreRecord rid header ∧
      s'.Consistent tableOf ∧ s.SameRest s' := by
  obtain ⟨image, item, page, here, table, entry, put, consistent'⟩ :=
    putRecord_refines consistent found (slot.record.restored header)
  obtain ⟨t, record⟩ := slot
  obtain rfl : t = tableOf rid.pageId := table
  unfold restoreRecord
  simp only [Program.run_get_bind, at_page, of_table, page, here]
  cases counts : record.isDel && !header.flags.isDel with
  | true =>
      obtain ⟨s', ran, store, consistent'', rest⟩ := Database.run_addRow consistent' entry
      refine ⟨s', by simp [ran], ?_, consistent'', (s.sameRest_setPage _ _).trans rest⟩
      simp [RecordStore.restoreRecord, found, counts, store, put]
  | false =>
      refine ⟨_, by simp, ?_, consistent', s.sameRest_setPage _ _⟩
      simp [RecordStore.restoreRecord, found, counts, put]

theorem run_markDead (consistent : s.Consistent tableOf) (at_page : tp.pageId = rid.pageId)
    (of_table : tp.tableId = tableOf rid.pageId)
    (found : (s.store tableOf).slot rid = some slot) :
    ∃ s', (tp.markDead rid).run s = (.ok ⟨⟩, s') ∧
      s'.store tableOf = (s.store tableOf).markDead rid ∧
      s'.Consistent tableOf ∧ s.SameRest s' := by
  obtain ⟨image, item, page, here, table, entry, put, consistent'⟩ :=
    putRecord_refines consistent found slot.record.killed
  obtain ⟨t, record⟩ := slot
  obtain rfl : t = tableOf rid.pageId := table
  unfold markDead
  simp only [Program.run_get_bind, at_page, of_table, page, here]
  cases live : record.isLive with
  | true =>
      obtain ⟨s', ran, store, consistent'', rest⟩ := Database.run_dropRow consistent' entry
      refine ⟨s', by simp [ran], ?_, consistent'', (s.sameRest_setPage _ _).trans rest⟩
      simp [RecordStore.markDead, found, live, store, put]
  | false =>
      refine ⟨_, by simp, ?_, consistent', s.sameRest_setPage _ _⟩
      simp [RecordStore.markDead, found, live, put]

/-- An object whose header is the page's inserts at the first free address. -/
theorem insertTuple_refines (consistent : s.Consistent tableOf) {image : TableImage}
    (page : s.page tp.pageId = .table image) (header : tp.header = image.header)
    (of_table : tp.tableId = tableOf tp.pageId) {record : Record} {tp' : TablePage} {s' : Database}
    (ran : (tp.insertTuple record).run s = (.ok (some rid, tp'), s')) :
    rid = ⟨tp.pageId, image.records.length + 1⟩ ∧ (s.store tableOf).slot rid = none ∧
      s'.store tableOf = (s.store tableOf).insertTuple (tableOf rid.pageId) rid record ∧
      s'.Consistent tableOf ∧ s.SameRest s' := by
  obtain ⟨here, rows⟩ := consistent.header _ _ page
  let grown : TableImage :=
    ⟨{ image.header with numRows := image.records.length + 1 }, image.records ++ [record]⟩
  unfold insertTuple writeHeader at ran
  split at ran
  · simp at ran
  · simp only [Program.run_modify_bind, page, PageData.asTable, header, rows, List.take_length,
      Database.page_setPage_self, Database.setPage_setPage] at ran
    obtain ⟨⟨⟩, s₂, updated, ended⟩ := Program.run_bind_eq_ok.mp ran
    simp only [Program.run_pure, Prod.mk.injEq, Except.ok.injEq, Option.some.injEq] at ended
    obtain ⟨⟨rfl, -⟩, rfl⟩ := ended
    obtain ⟨item, entry⟩ : ∃ item, s.items tp.tableId = some item := by
      cases entry : s.items tp.tableId with
      | some item => exact ⟨item, rfl⟩
      | none =>
          simp [updateTableRows, updateItem, Database.setPage, entry] at updated
    have consistent' : (s.setPage tp.pageId (.table grown)).Consistent tableOf := by
      apply consistent.setPage
      · exact ⟨here, by simp [grown]⟩
      · intro _
        exact ⟨item, of_table ▸ entry⟩
    obtain ⟨s', ran', store, consistent'', rest⟩ := Database.run_addRow consistent' entry
    obtain rfl : s' = s₂ := congrArg Prod.snd (ran'.symm.trans updated)
    refine ⟨by rw [here], ?_, ?_, consistent'', (s.sameRest_setPage _ _).trans rest⟩
    · rw [here]
      exact Database.slot_store_append page
    · rw [store, Database.store_append page, here, of_table]
      rfl

end TablePage

end YourSQL
