import YourSQL.Lib.Replay
import YourSQL.Log.LogPayload
import YourSQL.Storage.LogDiskManager
import YourSQL.Storage.TablePage
import YourSQL.Transaction.RecoveryManager

/-! # Redo

`Redo` goes over the records once more and repeats the deletions that a page has not seen,
as its LSN tells. The LSNs of a log that several processes wrote are in no order, but the
LSN of a page only grows, so that recovery can be repeated and started over.
-/

namespace YourSQL.RecoveryManager

/-- The types of data records. -/
def IsData (type : LogRecordType) : Prop :=
  type = .insertRow ∨ type = .deleteRow ∨ type = .updateRow

instance (type : LogRecordType) : Decidable (IsData type) := by
  unfold IsData
  infer_instance

/-- The row that a data record is about. -/
def rowOf (p : Wal.LogDataPayload) : RID := ⟨p.pageId.toNat, p.rowId.toNat⟩

/-- One round of `Redo`. An insertion was written with its page and only moves the LSN. -/
def redoRecord (log : LogRecord) : Exec Unit := do
  if ¬ IsData log.type then
    return
  let p := Wal.LogDataPayload.decode log.payload
  let rid := rowOf p
  if rid.pageId = INVALID_PAGE_ID then
    return
  fetchPage rid.pageId
  let tp ← TablePage.load p.tableId.toNat rid.pageId
  if tp.header.lsn < log.lsn.toNat then
    if log.type = .deleteRow then
      tp.markDelete rid log.txId.toNat .null
    let _ ← tp.setLsn log.lsn.toNat
    flush rid.pageId
  release rid.pageId

def redo (logs : List LogRecord) : Exec Unit := logs.forM redoRecord

/-- `Recover` behind `ReadLog`, with the number of records it returns. -/
def recoverLogs (logs : List LogRecord) : Exec Nat := do
  if logs = [] then
    return 0
  modify fun s => { s with txnManager := analysis logs s.txnManager }
  redo logs
  return logs.length

def recover (disk : LogDiskManager) : Exec Nat := recoverLogs (readLog disk.readAll)

/-! ## What a round does to pages and row counters -/

/-- The part of a database that `Redo` works on. -/
structure Pages where
  page : Nat → PageData
  items : Nat → Option MetaItem

def pagesOf (s : Database) : Pages := ⟨s.page, s.items⟩

def pageLsn (s : Pages) (pageId : Nat) : Nat := (s.page pageId).asTable.header.lsn

def countOff (items : Nat → Option MetaItem) (tableId : Nat) : Nat → Option MetaItem :=
  Function.update items tableId ((items tableId).map fun item => item.changeRows (-1))

/-- The deletion of a row that is there and not deleted yet. -/
def redoDelete (s : Pages) (tableId : Nat) (rid : RID) (trxId : Nat) : Pages :=
  let image := (s.page rid.pageId).asTable
  match image.slot rid.rowId with
  | none => s
  | some record =>
      if record.isDel then
        s
      else
        { page := Function.update s.page rid.pageId
            (.table (TablePage.putRecord image rid.rowId (record.deleted trxId .null)))
          items := countOff s.items tableId }

def setPageLsn (s : Pages) (pageId lsn : Nat) : Pages :=
  let image := (s.page pageId).asTable
  let marked := { image with header := { image.header with lsn := lsn } }
  { s with page := Function.update s.page pageId (.table marked) }

/-- The record needs no more work: it is none of a row, or the page is as far already. -/
def Seen (s : Pages) (log : LogRecord) : Prop :=
  let rid := rowOf (.decode log.payload)
  IsData log.type → rid.pageId ≠ INVALID_PAGE_ID → log.lsn.toNat ≤ pageLsn s rid.pageId

instance (s : Pages) (log : LogRecord) : Decidable (Seen s log) := by
  unfold Seen
  infer_instance

def redoPages (s : Pages) (log : LogRecord) : Pages :=
  if Seen s log then
    s
  else
    let p := Wal.LogDataPayload.decode log.payload
    let rid := rowOf p
    let s := if log.type = .deleteRow then redoDelete s p.tableId.toNat rid log.txId.toNat else s
    setPageLsn s rid.pageId log.lsn.toNat

/-- A deletion leaves the page header to the record of the log. -/
theorem header_redoDelete (s : Pages) (tableId : Nat) (rid : RID) (trxId pageId : Nat) :
    ((redoDelete s tableId rid trxId).page pageId).asTable.header =
      (s.page pageId).asTable.header := by
  unfold redoDelete
  dsimp only
  split
  · rfl
  · split
    · rfl
    · by_cases same : pageId = rid.pageId
      · simp [same, PageData.asTable, TablePage.putRecord]
      · simp [same]

theorem pageLsn_setPageLsn (s : Pages) (pageId lsn other : Nat) :
    pageLsn (setPageLsn s pageId lsn) other = if other = pageId then lsn else pageLsn s other := by
  by_cases same : other = pageId
  · simp [setPageLsn, pageLsn, same, PageData.asTable]
  · simp [setPageLsn, pageLsn, same]

theorem pageLsn_redoPages (s : Pages) (log : LogRecord) (pageId : Nat) :
    pageLsn s pageId ≤ pageLsn (redoPages s log) pageId := by
  unfold redoPages
  split
  · exact Nat.le_refl _
  · rename_i unseen
    simp only [pageLsn_setPageLsn]
    simp only [Seen, not_forall, Nat.not_le] at unseen
    obtain ⟨-, -, behind⟩ := unseen
    split
    · rename_i same
      rw [same]
      exact Nat.le_of_lt behind
    · split
      · exact Nat.le_of_eq (congrArg TableHeader.lsn (header_redoDelete ..)).symm
      · exact Nat.le_refl _

/-- The LSN of a page is the guard of its records. -/
theorem guarded_redoPages : Replay.Guarded redoPages Seen where
  skip s log seen := if_pos seen
  marks s log := by
    unfold redoPages
    split
    · assumption
    · intro _ _
      rw [pageLsn_setPageLsn, if_pos rfl]
  keeps s log other seen data page := Nat.le_trans (seen data page) (pageLsn_redoPages ..)

/-- A data record refers to a slot of a table page and to a table. -/
structure Refers (log : LogRecord) (s : Pages) : Prop where
  slot : ∃ image, s.page (rowOf (.decode log.payload)).pageId = .table image ∧
    (image.slot (rowOf (.decode log.payload)).rowId).isSome
  item : (s.items (Wal.LogDataPayload.decode log.payload).tableId.toNat).isSome

private theorem isSome_slot_putRecord (image : TableImage) (rowId other : Nat) (record : Record) :
    ((TablePage.putRecord image rowId record).slot other).isSome = (image.slot other).isSome := by
  cases other with
  | zero => rfl
  | succ index => grind [TableImage.slot, TablePage.putRecord]

/-- A page that is put in place of a table page has the same slots. -/
theorem Refers.update {s t : Pages} {log : LogRecord} (refers : Refers log s) {pageId : Nat}
    {image : TableImage}
    (slots : ∀ rowId, (image.slot rowId).isSome = ((s.page pageId).asTable.slot rowId).isSome)
    (page : t.page = Function.update s.page pageId (.table image))
    (items : (t.items (Wal.LogDataPayload.decode log.payload).tableId.toNat).isSome) :
    Refers log t where
  item := items
  slot := by
    obtain ⟨old, there, slot⟩ := refers.slot
    rw [page]
    cases Decidable.em ((rowOf (.decode log.payload)).pageId = pageId) with
    | inl same =>
        refine ⟨image, by rw [same, Function.update_self], ?_⟩
        rw [slots, ← same, there]
        exact slot
    | inr other => exact ⟨old, by rw [Function.update_of_ne other, there], slot⟩

theorem Refers.redoDelete {s : Pages} {log : LogRecord} (refers : Refers log s) (tableId : Nat)
    (rid : RID) (trxId : Nat) : Refers log (redoDelete s tableId rid trxId) := by
  unfold RecoveryManager.redoDelete
  dsimp only
  split
  · exact refers
  · split
    · exact refers
    · refine refers.update (isSome_slot_putRecord _ _ · _) rfl ?_
      have item := refers.item
      simp only [countOff, Function.update_apply]
      split
      · rename_i same
        rw [← same]
        simpa using item
      · exact item

theorem Refers.setPageLsn {s : Pages} {log : LogRecord} (refers : Refers log s)
    (pageId lsn : Nat) : Refers log (setPageLsn s pageId lsn) := by
  let image := (s.page pageId).asTable
  let marked := { image with header := { image.header with lsn := lsn } }
  have slots : ∀ rowId, (marked.slot rowId).isSome = (image.slot rowId).isSome := fun _ => rfl
  exact refers.update slots rfl refers.item

theorem Refers.redoPages {s : Pages} {log : LogRecord} (refers : Refers log s)
    (other : LogRecord) : Refers log (redoPages s other) := by
  unfold RecoveryManager.redoPages
  split
  · exact refers
  · dsimp only
    split
    · exact (refers.redoDelete ..).setPageLsn ..
    · exact refers.setPageLsn ..

/-! ## The code goes from state to state like that -/

variable {s : Database}

/-- Nothing but pages and counters is new, and no page became dirty but those of `open_`. -/
structure Redone (s t : Database) (open_ : Nat → Prop) : Prop where
  txnManager : t.txnManager = s.txnManager
  pins : t.pins = s.pins
  dirty : ∀ id, t.dirty id → open_ id ∨ s.dirty id

theorem run_markDelete {tp : TablePage} {rid : RID} (at_page : tp.pageId = rid.pageId)
    (found : (s.items tp.tableId).isSome) (pinned : s.pins META_PAGE_ID ≠ 0) (trxId : Nat) :
    ∃ t, (tp.markDelete rid trxId .null).run s = (.ok ⟨⟩, t) ∧
      pagesOf t = redoDelete (pagesOf s) tp.tableId rid trxId ∧ Redone s t (· = rid.pageId) := by
  have same : Redone s s (· = rid.pageId) := ⟨rfl, rfl, fun _ => .inr⟩
  unfold TablePage.markDelete redoDelete
  simp only [Program.run_get_bind, at_page, pagesOf]
  cases slot : (s.page rid.pageId).asTable.slot rid.rowId with
  | none => exact ⟨s, rfl, rfl, same⟩
  | some record =>
      dsimp only
      cases record.isDel with
      | true => exact ⟨s, rfl, rfl, same⟩
      | false =>
          obtain ⟨item, found⟩ := Option.isSome_iff_exists.mp found
          let image := TablePage.putRecord (s.page rid.pageId).asTable rid.rowId
            (record.deleted trxId .null)
          have counted := @run_updateItem (s.setPage rid.pageId (.table image)) _ _ found pinned
          refine ⟨_, counted .., ?_, rfl, rfl, ?_⟩
          · simp [countOff, found, Database.setItem, Database.writeMeta, Database.setPage, image]
          · intro id dirty
            by_cases at_id : id = rid.pageId
            · exact .inl at_id
            · exact .inr (by simpa [Database.setItem, Database.writeMeta, Database.setPage, at_id]
                using dirty)

theorem pins_unpin_pin (s : Database) (id : Nat) : ((s.pin id).unpin id).pins = s.pins := by
  simp [Database.pin, Database.unpin]

theorem dirty_writeBack {id other : Nat} (dirty : (s.writeBack id).dirty other) :
    other ≠ id ∧ s.dirty other := by
  unfold Database.writeBack at dirty
  split at dirty
  · by_cases same : other = id
    · simp [same] at dirty
    · exact ⟨same, by simpa [same] using dirty⟩
  · rename_i clean
    refine ⟨?_, dirty⟩
    rintro rfl
    exact clean dirty

/-- The end of a round: the object writes the header that it read, with the new LSN. -/
theorem run_finish {tp : TablePage} (pinned : s.pins tp.pageId ≠ 0)
    (read : (s.page tp.pageId).asTable.header = tp.header) (lsn : Nat) :
    ∃ t, (do let _ ← tp.setLsn lsn; flush tp.pageId; release tp.pageId : Exec Unit).run s =
      (.ok ⟨⟩, t) ∧ pagesOf t = setPageLsn (pagesOf s) tp.pageId lsn ∧
      t.txnManager = s.txnManager ∧ t.pins = (s.unpin tp.pageId).pins ∧
      ∀ id, t.dirty id → id ≠ tp.pageId ∧ s.dirty id := by
  let marked := { (s.page tp.pageId).asTable with header := { tp.header with lsn := lsn } }
  let written := (s.setPage tp.pageId (.table marked)).writeBack tp.pageId
  have pinned' : written.pins tp.pageId ≠ 0 := by
    simpa [written, Database.setPage] using pinned
  have ran : (do let _ ← tp.setLsn lsn; flush tp.pageId; release tp.pageId : Exec Unit).run s =
      (.ok ⟨⟩, (written.unpin tp.pageId).writeBack tp.pageId) :=
    calc _ = (do flush tp.pageId; release tp.pageId : Exec Unit).run
          (s.setPage tp.pageId (.table marked)) := rfl
      _ = (release tp.pageId).run written := Program.run_bind_of_ok (run_flush pinned)
      _ = _ := run_release pinned'
  refine ⟨_, ran, ?_, ?_, ?_, ?_⟩
  · simp [pagesOf, setPageLsn, written, Database.unpin, Database.setPage, marked, read]
  · simp [written, Database.unpin, Database.setPage]
  · simp [written, Database.unpin, Database.setPage]
  · intro id dirty
    obtain ⟨other, dirty⟩ := dirty_writeBack dirty
    obtain ⟨-, dirty⟩ := @dirty_writeBack _ tp.pageId id dirty
    exact ⟨other, by simpa [Database.setPage, other] using dirty⟩

/-- All records that `Redo` looks at refer to what is there, and the meta page is in the
    pool. -/
structure Covered (logs : List LogRecord) (s : Database) : Prop where
  metaPage : s.pins META_PAGE_ID ≠ 0
  refers : ∀ log ∈ logs, IsData log.type →
    (rowOf (.decode log.payload)).pageId ≠ INVALID_PAGE_ID → Refers log (pagesOf s)

theorem run_redoRecord {log : LogRecord} (pinned : s.pins META_PAGE_ID ≠ 0)
    (refers : IsData log.type → (rowOf (.decode log.payload)).pageId ≠ INVALID_PAGE_ID →
      Refers log (pagesOf s)) :
    ∃ t, (redoRecord log).run s = (.ok ⟨⟩, t) ∧ pagesOf t = redoPages (pagesOf s) log ∧
      Redone s t fun _ => False := by
  have same : Redone s s fun _ => False := ⟨rfl, rfl, fun _ => .inr⟩
  unfold redoRecord redoPages
  by_cases data : IsData log.type
  case neg => exact ⟨s, by simp [data], by simp [Seen, data], same⟩
  set rid := rowOf (.decode log.payload) with row
  by_cases page : rid.pageId = INVALID_PAGE_ID
  case pos => exact ⟨s, by simp [data, ← row, page], by simp [Seen, ← row, page], same⟩
  have refers := refers data page
  simp only [data, ← row, page, not_true_eq_false, if_false]
  have fetched : (fetchPage rid.pageId).run s = (.ok ⟨⟩, s.pin rid.pageId) := rfl
  rw [Program.run_bind_of_ok fetched]
  let tp : TablePage := {
    tableId := (Wal.LogDataPayload.decode log.payload).tableId.toNat
    pageId := rid.pageId
    header := (s.page rid.pageId).asTable.header
    freeSize := TablePage.freeSpace ((s.page rid.pageId).asTable.records.take
      (s.page rid.pageId).asTable.header.numRows) }
  have loaded : (TablePage.load tp.tableId rid.pageId).run (s.pin rid.pageId) =
      (.ok tp, s.pin rid.pageId) := rfl
  rw [Program.run_bind_of_ok loaded]
  have seen : Seen (pagesOf s) log ↔ ¬ tp.header.lsn < log.lsn.toNat := by
    simp only [Seen, data, ← row, page, not_false_eq_true, forall_const, ne_eq, Nat.not_lt]
    rfl
  by_cases behind : tp.header.lsn < log.lsn.toNat
  case neg =>
    rw [if_neg behind, if_pos (seen.mpr behind), run_release (by simp [Database.pin])]
    refine ⟨_, rfl, ?_, ?_, ?_, ?_⟩
    · simp [pagesOf, Database.pin, Database.unpin]
    · simp [Database.pin, Database.unpin]
    · rw [Database.pins_writeBack, pins_unpin_pin]
    · intro id dirty
      exact .inr (dirty_writeBack dirty).2
  have unseen : ¬ Seen (pagesOf s) log := fun done => seen.mp done behind
  rw [if_pos behind, if_neg unseen]
  have finish : ∀ u : Database, Redone (s.pin rid.pageId) u (· = rid.pageId) →
      (u.page rid.pageId).asTable.header = tp.header →
      ∃ t, (do let _ ← tp.setLsn log.lsn.toNat; flush rid.pageId; release rid.pageId :
        Exec Unit).run u = (.ok ⟨⟩, t) ∧
        pagesOf t = setPageLsn (pagesOf u) rid.pageId log.lsn.toNat ∧
        Redone s t fun _ => False := by
    intro u redone read
    have pinned : u.pins rid.pageId ≠ 0 := by simp [redone.pins, Database.pin]
    obtain ⟨t, ran, pages, txnManager, pins, dirty⟩ := @run_finish u tp pinned read log.lsn.toNat
    refine ⟨t, ran, pages, txnManager.trans redone.txnManager, ?_, ?_⟩
    · calc t.pins = (u.unpin rid.pageId).pins := pins
        _ = ((s.pin rid.pageId).unpin rid.pageId).pins := by
          simp only [Database.unpin, redone.pins]
        _ = s.pins := pins_unpin_pin ..
    · intro id dirtied
      obtain ⟨other, dirtied⟩ := dirty id dirtied
      exact .inr ((redone.dirty id dirtied).resolve_left other)
  cases Decidable.em (log.type = .deleteRow) with
  | inl delete =>
      have pinned : (s.pin rid.pageId).pins META_PAGE_ID ≠ 0 := by
        have other : META_PAGE_ID ≠ rid.pageId := Ne.symm page
        simpa [Database.pin, other] using pinned
      obtain ⟨u, deleted, pages, redone⟩ :=
        @run_markDelete (s.pin rid.pageId) tp rid rfl refers.item pinned log.txId.toNat
      have read : (u.page rid.pageId).asTable.header = tp.header := by
        rw [show u.page = (pagesOf u).page from rfl, pages, header_redoDelete]
        rfl
      obtain ⟨t, ran, after, ended⟩ := finish u redone read
      rw [if_pos delete, if_pos delete, Program.run_bind_of_ok deleted]
      exact ⟨t, ran, by rw [after, pages]; rfl, ended⟩
  | inr other =>
      rw [if_neg other, if_neg other]
      exact finish (s.pin rid.pageId) ⟨rfl, rfl, fun _ => .inr⟩ rfl

theorem Covered.redoRecord {log : LogRecord} {logs : List LogRecord} (covered : Covered logs s)
    {t : Database} (pages : pagesOf t = redoPages (pagesOf s) log) (pins : t.pins = s.pins) :
    Covered logs t where
  metaPage := by rw [pins]; exact covered.metaPage
  refers other member data page := by
    rw [pages]
    exact (covered.refers other member data page).redoPages log

theorem run_redo {logs : List LogRecord} (covered : Covered logs s) :
    ∃ t, (redo logs).run s = (.ok ⟨⟩, t) ∧
      pagesOf t = Replay.replay redoPages (pagesOf s) logs ∧ Redone s t fun _ => False := by
  induction logs generalizing s with
  | nil => exact ⟨s, rfl, rfl, rfl, rfl, fun _ => .inr⟩
  | cons log rest ih =>
      obtain ⟨u, first, pages, redone⟩ :=
        run_redoRecord covered.metaPage (covered.refers log (List.mem_cons_self ..))
      have later : Covered rest u := by
        have all := covered.redoRecord pages redone.pins
        exact ⟨all.metaPage, fun other member => all.refers other (List.mem_cons_of_mem _ member)⟩
      obtain ⟨t, others, replayed, ended⟩ := ih later
      refine ⟨t, ?_, ?_, ended.txnManager.trans redone.txnManager, ended.pins.trans redone.pins, ?_⟩
      · exact (Program.run_bind_of_ok first).trans others
      · rw [replayed, pages]
        rfl
      · intro id dirty
        exact redone.dirty id ((ended.dirty id dirty).resolve_left not_false)

/-! ## Recovery again -/

theorem analysis_analysis (logs : List LogRecord) (m : TransactionManager) :
    analysis logs (analysis logs m) = analysis logs m := by
  have states : ∀ txid, (setTxnStates (analysis logs m) (states logs)).txnState txid =
      (analysis logs m).txnState txid := by
    intro txid
    rw [analysis_txnState]
    unfold setTxnStates
    dsimp only
    rw [analysis_txnState]
    unfold setTxnStates
    dsimp only
    cases states logs txid with
    | none => simp
    | some state => grind
  have next : ¬ maxTxid logs + 1 > (analysis logs m).nextTxid := by
    unfold analysis advanceNextTxId
    split
    · exact Nat.lt_irrefl _
    · assumption
  calc analysis logs (analysis logs m) =
      setTxnStates (analysis logs m) (RecoveryManager.states logs) := if_neg next
    _ = analysis logs m := by
      unfold setTxnStates
      congr
      exact funext states

/-- What recovery restores: pages with their LSNs, row counters, transactions. -/
structure Recovered where
  pages : Pages
  txnManager : TransactionManager

def recovered (s : Database) : Recovered := ⟨pagesOf s, s.txnManager⟩

theorem run_recoverLogs {logs : List LogRecord} (covered : Covered logs s) :
    ∃ t, (recoverLogs logs).run s = (.ok logs.length, t) ∧
      t.pins = s.pins ∧
      pagesOf t = Replay.replay redoPages (pagesOf s) logs ∧
      t.txnManager = if logs = [] then s.txnManager else analysis logs s.txnManager := by
  unfold recoverLogs
  cases logs with
  | nil => exact ⟨s, rfl, rfl, rfl, rfl⟩
  | cons log rest =>
      let analysed := { s with txnManager := analysis (log :: rest) s.txnManager }
      have covered' : Covered (log :: rest) analysed := ⟨covered.metaPage, covered.refers⟩
      obtain ⟨t, ran, pages, redone⟩ := run_redo covered'
      refine ⟨t, ?_, redone.pins, pages, redone.txnManager⟩
      simp only [reduceCtorEq, if_false, Program.run_modify_bind]
      exact Program.run_bind_of_ok ran

/-- One row, and the record of its deletion. -/
def oneRow : Database where
  page := Function.update (fun _ => .blank) 1 (.table
    { header := { pageId := 1, numRows := 1 }
      records := [{ trxId := 1, rollPtr := .null, flags := 0, payload := [7] }] })
  items := Function.update (fun _ => none) 1 (some
    { tableId := 1, tableName := "t", firstPageId := 1, lastPageId := 1, numRows := 1 })

def deletedRow : LogRecord where
  lsn := 5
  txId := 3
  type := .deleteRow
  payload := Wal.LogDataPayload.encode { tableId := 1, pageId := 1, rowId := 1 }
  payloadSize_lt := by decide

end YourSQL.RecoveryManager
