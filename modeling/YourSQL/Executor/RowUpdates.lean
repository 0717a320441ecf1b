import YourSQL.Executor.LogCapacity
import YourSQL.Executor.RowInserts
import YourSQL.Mvcc.RowWrites

/-! # One row deleted or updated

A DELETE saves the record in the undo log and marks it; an UPDATE does so as well and
then stores a new record. Either may fail before anything has changed. An UPDATE can
also end halfway: the old record is marked, and there is no new one.
-/

namespace YourSQL

open Mvcc (VersionStore)

variable {s s' : Database} {pages : Nat → List Nat} {tableOf : Nat → Nat} {tp : TablePage}
  {trx t : Nat} {rid : RID} {old : Record}

theorem Database.UndoGrown.versions (grown : s.UndoGrown s') (tableOf : Nat → Nat) :
    (s.versions tableOf).Extends (s'.versions tableOf) where
  records := grown.store tableOf
  undo := grown.undo
  manager := grown.txnManager
  journal := grown.journal

theorem TablePage.Sees.grown (sees : tp.Sees tableOf s) (grown : s.UndoGrown s') :
    tp.Sees tableOf s' := by
  obtain ⟨of_table, image, page, header⟩ := sees
  refine ⟨of_table, image, ?_, header⟩
  rw [← PageData.table?_eq_some, grown.tables, page]
  rfl

theorem run_saveVersion (sound : s.Sound pages tableOf) (old : Record) :
    ∃ s', s'.Sound pages tableOf ∧ s.UndoGrown s' ∧
      (∀ p, p < s.nextPageId → s'.pins p = s.pins p) ∧ (s.Unborn → s.Swaps [] s' []) ∧
      if old.size ≤ UNDO_CAPACITY then
        ∃ pointer, (saveVersion old).run s = (.ok pointer, s') ∧ pointer.isNull = false ∧
          pointer.IsNext (s.versions tableOf).undo ∧
          s'.versions tableOf = (s.versions tableOf).save pointer old
      else
        (saveVersion old).run s = (.error "UndoLogManager::AppendUndoRecord fail.", s') ∧
          s'.versions tableOf = s.versions tableOf := by
  obtain ⟨undoLog, found, -⟩ := sound.layout.undoLog
  obtain ⟨s', layout, grown, pins, swaps, ran⟩ :=
    run_appendUndoRecord sound.layout found ⟨old.rollPtr, old.trxId, old⟩
  have metaPins : s'.pins META_PAGE_ID = s.pins META_PAGE_ID := pins _ sound.layout.positive
  refine ⟨s', ⟨layout, grown.consistent sound.consistent ?_⟩, grown, pins, swaps, ?_⟩
  · rw [metaPins]
    exact sound.consistent.pinned
  · have versions : ∀ undo, s'.undoRecord = undo →
        s'.versions tableOf = { s.versions tableOf with undo := undo } := by
      intro undo after
      rw [Database.versions, after, grown.store, grown.txnManager, grown.journal]
      rfl
    unfold saveVersion
    rw [Program.run_get_bind, found]
    split at ran
    · rename_i fits
      rw [if_pos (show old.size ≤ UNDO_CAPACITY from fits)]
      obtain ⟨pointer, ran, notNull, next, after⟩ := ran
      exact ⟨pointer, ran, notNull, next, versions _ after⟩
    · rename_i large
      rw [if_neg (show ¬ old.size ≤ UNDO_CAPACITY from large)]
      exact ⟨ran.1, versions _ ran.2⟩

/-- An entry of a page's table names the table of its records. -/
theorem TablePage.Sees.tableId (sees : tp.Sees tableOf s) (at_page : tp.pageId = rid.pageId)
    (found : (s.versions tableOf).slot rid = some ⟨t, old⟩) : tp.tableId = t := by
  obtain ⟨image, -, -, table⟩ := Database.exists_image_of_slot found
  rw [sees.table, at_page]
  exact table.symm

/-! ## DELETE -/

theorem run_deleteRecord (sound : s.Sound pages tableOf) (sees : tp.Sees tableOf s)
    (at_page : tp.pageId = rid.pageId) (found : (s.versions tableOf).slot rid = some ⟨t, old⟩)
    (alive : old.isDel = false) (pinned : s.pins tp.pageId ≠ 0) (trx : Nat) :
    ∃ s', s'.Sound pages tableOf ∧ (∀ held, s.Unborn → s.Swaps held s' held) ∧
      if old.size ≤ UNDO_CAPACITY then
        ∃ tp' pointer, (ExecutorDelete.deleteRecord (some trx) tp rid old).run s = (.ok tp', s') ∧
          pointer.isNull = false ∧ pointer.IsNext (s.versions tableOf).undo ∧
          s'.versions tableOf =
            ((s.versions tableOf).save pointer old).deletion trx t rid old pointer .delete ∧
          tp'.Sees tableOf s' ∧ tp'.pageId = tp.pageId ∧ s'.pins tp.pageId ≠ 0
      else
        (ExecutorDelete.deleteRecord (some trx) tp rid old).run s =
            (.error "UndoLogManager::AppendUndoRecord fail.", s') ∧
          s'.versions tableOf = s.versions tableOf := by
  obtain ⟨s₁, sound₁, grown, pins, swaps, saved⟩ := run_saveVersion sound old
  have table := sees.tableId at_page found
  unfold ExecutorDelete.deleteRecord
  by_cases fits : old.size ≤ UNDO_CAPACITY
  · rw [if_pos fits] at saved
    obtain ⟨pointer, ran, notNull, next, same₁⟩ := saved
    have sees₁ := sees.grown grown
    have found₁ : (s₁.versions tableOf).slot rid = some ⟨t, old⟩ :=
      (congrFun (grown.versions tableOf).slot rid).trans found
    obtain ⟨s₂, s₃, tp', marked, logged, sound₃, sees₃, pageId, same, clients, versions⟩ :=
      run_markAndLog sound₁ sees₁ at_page found₁ alive trx pointer
    have inside : tp.pageId < s.nextPageId := by
      obtain ⟨image, page, -⟩ := sees.page
      exact sound.layout.lt_of_mem ((sound.layout.member _ tp.pageId).mpr ⟨by rw [page]; rfl, rfl⟩)
    let wr : WriteRecord :=
      { rid := rid
        type := .delete
        tableId := t
        prevTrxId := old.trxId
        prevRollPtr := old.rollPtr
        prevFlags := old.flags }
    let s₄ : Database := { s₃ with txnManager := s₃.txnManager.pushWrite trx wr }
    let s₅ := (s₄.writeBack tp'.pageId).enter (.delete trx rid)
    have same_pins : s₃.pins tp.pageId = s.pins tp.pageId := by
      rw [clients.pins, pins _ inside]
    have pinned₃ : s₃.pins tp'.pageId ≠ 0 := by
      rw [pageId, same_pins]
      exact pinned
    have pinned₄ : s₄.pins tp'.pageId ≠ 0 := pinned₃
    refine ⟨s₅, ?_, ?_, ?_⟩
    · apply sound₃.congr <;> simp [s₅, s₄, Database.enter]
      exact sound₃.consistent.pinned
    · intro held unborn
      have written : s₁.Copies s₅ :=
        clients.copies.trans (Database.Copies.writeBack s₄ tp'.pageId)
      have marked : s₁.Swaps held s₅ held := by
        refine .of_pins ?_ ?_ written _ <;>
          simp [s₅, s₄, Database.enter, clients.pins, same.nextPageId]
      exact ((swaps unborn).frame held).trans marked
    · rw [if_pos fits]
      refine ⟨tp', pointer, ?_, notNull, next, ?_, ?_, pageId, ?_⟩
      · rw [Program.run_bind_of_ok ran, Option.getD_some, Program.run_bind_of_ok marked,
          Program.run_bind_of_ok logged]
        have tableId : tp'.tableId = t := by rw [sees₃.table, pageId, ← sees.table, table]
        rw [tableId, Program.run_bind_of_ok rfl, Program.run_bind_of_ok (run_flush pinned₄)]
        rfl
      · rw [← same₁, VersionStore.deletion, ← versions]
        apply @Database.versions_enter s₃ s₅ tableOf (some trx) wr (.delete trx rid) <;>
          simp [s₅, s₄, Database.enter, TransactionManager.pushWriteFor]
      · exact sees₃.congr (by simp [s₅, s₄, Database.enter])
      · simpa [s₅, s₄, Database.enter, same_pins] using pinned
  · rw [if_neg fits] at saved
    refine ⟨s₁, sound₁, fun held unborn => (swaps unborn).frame held, ?_⟩
    rw [if_neg fits]
    exact ⟨Program.run_bind_of_error saved.1, saved.2⟩

/-! ## UPDATE -/

/-- The log takes every record that fits a page. -/
theorem Database.Sound.logTakes (sound : s.Sound pages tableOf) {record : Record}
    (fits : record.size + SLOT_SIZE ≤ PAGE_SIZE - HEADER_SIZE) :
    LogTakes s.logCapacity record.size := by
  rw [s.logTakes_iff INVALID_TX_ID .insertRow 0 ⟨0, 0⟩]
  apply fits_log sound
  simp only [Option.map_some, Option.getD_some, PAGE_SIZE, HEADER_SIZE] at fits ⊢
  omega

namespace ExecutorUpdate

theorem run_deleteOld {hit : Hit} (sound : s.Sound pages tableOf)
    (found : (s.versions tableOf).slot hit.rid = some ⟨t, hit.old⟩) (alive : hit.old.isDel = false)
    (trx : Nat) (pointer : UndoPointer) :
    ∃ s', (deleteOld (some trx) t hit pointer).run s = (.ok ⟨⟩, s') ∧ s'.Sound pages tableOf ∧
      s.Swaps [] s' [] ∧ s'.versions tableOf =
        (s.versions tableOf).deletion trx t hit.rid hit.old pointer .updateDeleteOld := by
  obtain ⟨image, page, here, table⟩ := Database.exists_image_of_slot found
  let p := hit.rid.pageId
  let s₁ := s.pin p
  have inner : p ≠ META_PAGE_ID := by
    intro same
    rw [show hit.rid.pageId = META_PAGE_ID from same, sound.layout.blank _ (.inl rfl)] at page
    cases page
  have meta₁ : s₁.pins META_PAGE_ID ≠ 0 := by
    simpa [s₁, Database.pin, inner.symm] using sound.consistent.pinned
  have pool₁ : s.PoolOnly s₁ := .pin s p
  have sound₁ := pool₁.sound sound meta₁
  let tp : TablePage := ⟨t, p, image.header, TablePage.freeSpace (image.records.take image.header.numRows)⟩
  have sees : tp.Sees tableOf s₁ := ⟨table, image, page, rfl⟩
  have found₁ : (s₁.versions tableOf).slot hit.rid = some ⟨t, hit.old⟩ := by
    rw [pool₁.versions]
    exact found
  obtain ⟨s₂, s₃, tp', marked, logged, sound₃, -, pageId, same, clients, versions⟩ :=
    run_markAndLog sound₁ sees rfl found₁ alive trx pointer
  have pinned₃ : s₃.pins tp'.pageId ≠ 0 := by
    rw [pageId, clients.pins]
    simp [s₁, Database.pin, tp]
  have pinned₃' : (s₃.writeBack tp'.pageId).pins tp'.pageId ≠ 0 := by simpa using pinned₃
  let s₄ := ((s₃.writeBack tp'.pageId).unpin tp'.pageId).writeBack tp'.pageId
  let wr : WriteRecord :=
    { rid := hit.rid
      type := .updateDeleteOld
      tableId := t
      prevTrxId := hit.old.trxId
      prevRollPtr := hit.old.rollPtr
      prevFlags := hit.old.flags }
  let s₅ : Database := { s₄ with txnManager := s₄.txnManager.pushWrite trx wr }
  refine ⟨s₅.enter (.delete trx hit.rid), ?_, ?_, ?_, ?_⟩
  · unfold deleteOld
    have loaded : (TablePage.load t p).run s₁ = (.ok tp, s₁) := by
      simp only [TablePage.load, Program.run_get_bind, Program.run_pure, s₁, Database.pin, p, page,
        PageData.asTable]
      rfl
    rw [Program.run_bind_of_ok (show (fetchPage p).run s = (.ok ⟨⟩, s₁) from rfl),
      Program.run_bind_of_ok loaded, Option.getD_some, Program.run_bind_of_ok marked,
      Program.run_bind_of_ok logged, Program.run_bind_of_ok (run_flush pinned₃),
      Program.run_bind_of_ok (run_release pinned₃'), Program.run_bind_of_ok rfl]
    rfl
  · apply sound₃.congr <;> simp [s₅, s₄, Database.enter, Database.unpin]
    have inner' : META_PAGE_ID ≠ tp'.pageId := by
      rw [pageId]
      exact inner.symm
    simpa [inner'] using sound₃.consistent.pinned
  · have inside : p < s.nextPageId := by
      by_contra outside
      rw [sound.layout.blank p (.inr (by omega))] at page
      cases page
    have fetched : s.Swaps [] s₁ [p] := .pin s inside []
    have written := clients.copies.trans (.writeBack s₃ tp'.pageId)
    have marked : s₁.Swaps [p] (s₃.writeBack tp'.pageId) [p] := by
      refine .of_pins ?_ ?_ written _ <;> simp [clients.pins, same.nextPageId]
    have released : (s₃.writeBack tp'.pageId).Swaps [p] s₄ [] := by
      rw [show p = tp'.pageId from pageId.symm]
      exact .release _ tp'.pageId []
    have entered : s₄.Swaps [] (s₅.enter (.delete trx hit.rid)) [] :=
      @Database.Swaps.of_pins s₄ (s₅.enter (.delete trx hit.rid)) rfl le_rfl
        (fun _ holds => holds) []
    exact fetched.trans (marked.trans (released.trans entered))
  · rw [VersionStore.deletion, ← pool₁.versions, ← versions]
    apply @Database.versions_enter s₃ _ tableOf (some trx) wr (.delete trx hit.rid) <;>
      simp [s₅, s₄, Database.enter, Database.unpin, TransactionManager.pushWriteFor]

theorem run_flushAndRelease (sound : s.Sound pages tableOf) {p : Nat} (pinned : s.pins p ≠ 0)
    (inner : p ≠ META_PAGE_ID) :
    ∃ s', (∀ {β : Type} (rest : Exec β), (do flush p; release p; rest).run s = rest.run s') ∧
      s.PoolOnly s' ∧ s'.Sound pages tableOf ∧ s.Swaps [p] s' [] := by
  have pinned' : (s.writeBack p).pins p ≠ 0 := by simpa using pinned
  have pool := (Database.PoolOnly.writeBack s p).trans (.release (s.writeBack p) p)
  have written : s.Swaps [p] (s.writeBack p) [p] := by
    refine .of_pins ?_ ?_ (.writeBack s p) _ <;> simp
  refine ⟨((s.writeBack p).unpin p).writeBack p, ?_, pool, pool.sound sound ?_,
    written.trans (.release _ p [])⟩
  · intro β rest
    rw [Program.run_bind_of_ok (run_flush pinned), Program.run_bind_of_ok (run_release pinned')]
  · simpa [Database.unpin, inner.symm] using sound.consistent.pinned

/-- A new version that fits an empty page is stored behind the others. Without that nothing
    is; if then the log refuses the record, the last page stays pinned. -/
theorem run_insertNewVersion (sound : s.Sound pages tableOf) {item : MetaItem}
    (entry : s.items t = some item) (txn : Option Nat) (tuple : Record) :
    ∃ s' pages' tableOf', s'.Sound pages' tableOf' ∧
      if tuple.size + SLOT_SIZE ≤ PAGE_SIZE - HEADER_SIZE then
        ∃ rid, (insertNewVersion txn t tuple).run s = (.ok rid, s') ∧
          (s.versions tableOf).slot rid = none ∧
          s'.versions tableOf' = ((s.versions tableOf).put rid ⟨t, tuple⟩).addRow t ∧
          s'.order pages' = Function.update (s.order pages) t (s.order pages t ++ [rid]) ∧
          (s.Unborn → s.Swaps [] s' [])
      else
        ∃ result held, (insertNewVersion txn t tuple).run s = (result, s') ∧
          (LogTakes s.logCapacity tuple.size ∧ result = .ok ⟨0, 0⟩ ∧ held = [] ∨
            ¬ LogTakes s.logCapacity tuple.size ∧
              result = .error "LogBuffer::Write record larger than buffer capacity" ∧
              ∃ p, held = [p]) ∧
          s'.versions tableOf' = s.versions tableOf ∧ s'.order pages' = s.order pages ∧
          (s.Unborn → s.Swaps [] s' held) := by
  obtain ⟨s₁, tp₁, pages₁, tableOf₁, ran₁, opened₁, -, same₁, order₁, swaps₁⟩ :=
    run_openLastPage sound entry
  obtain ⟨s₂, tp₂, pages₂, tableOf₂, ran₂, opened₂, -, -, same₂, order₂, swaps₂, room⟩ :=
    run_makeRoom opened₁ tuple
  have same := same₂.trans same₁
  have order := order₂.trans order₁
  have swaps : s.Unborn → s.Swaps [] s₂ [tp₂.pageId] := fun unborn =>
    (swaps₁ unborn).trans (swaps₂ ((swaps₁ unborn).unborn unborn))
  unfold insertNewVersion
  simp only [Program.run_get_bind, entry, Option.getD_some]
  rw [Program.run_bind_of_ok ran₁, Program.run_bind_of_ok ran₂]
  by_cases fits : tuple.size + SLOT_SIZE ≤ PAGE_SIZE - HEADER_SIZE
  · obtain ⟨rid, tp₃, s₃, tp₄, s₄, inserted, logged, free, versions, order', sound₄, pageId, pins,
      nextPageId, copies, -⟩ := run_storeTuple opened₂ fits (room fits) txn
    have pinned₄ : s₄.pins tp₄.pageId ≠ 0 := by
      rw [pageId, pins]
      exact opened₂.pinned
    obtain ⟨s₅, closed, pool, sound₅, swaps₅⟩ := run_flushAndRelease sound₄ pinned₄
      (pageId ▸ opened₂.inner)
    have stored : s₂.Swaps [tp₂.pageId] s₄ [tp₂.pageId] :=
      .of_pins pins (le_of_eq nextPageId.symm) copies _
    refine ⟨s₅, pages₂, tableOf₂, sound₅, ?_⟩
    rw [if_pos fits]
    refine ⟨rid, ?_, same ▸ free, (pool.versions tableOf₂).trans (same ▸ versions), ?_, ?_⟩
    · rw [Program.run_bind_of_ok inserted, Option.getD_some, Program.run_bind_of_ok logged, closed]
      rfl
    · rw [Database.order_congr pool.rowCount, order', order]
    · exact fun unborn => (swaps unborn).trans (stored.trans (pageId ▸ swaps₅))
  · rw [Program.run_bind_of_ok (run_insertTuple_of_large opened₂ fits), Option.getD_none]
    have capacity : s₂.logCapacity = s.logCapacity := by
      have kept := (Database.Capacity.openLastPage t item) s rfl
      rw [ran₁] at kept
      have kept := (Database.Capacity.makeRoom tp₁ tuple) s₁ kept
      rwa [ran₂] at kept
    have takes := s₂.logTakes_iff (txn.getD INVALID_TX_ID) .insertRow t ⟨0, 0⟩ tuple
    rw [capacity] at takes
    by_cases small : ∀ log, s₂.log = some log → (LogEntry.mk log.nextLsn (txn.getD INVALID_TX_ID)
        .insertRow (some ⟨t, ⟨0, 0⟩, some tuple⟩)).size ≤ log.capacity
    · obtain ⟨s₃, tp₃, logged, store, sound₃, -, pageId, kept, clients, -⟩ :=
        run_logAndSetLsn opened₂.sound opened₂.sees txn .insertRow t ⟨0, 0⟩ (some tuple) small
      have pinned₃ : s₃.pins tp₃.pageId ≠ 0 := by
        rw [pageId, clients.pins]
        exact opened₂.pinned
      obtain ⟨s₄, closed, pool, sound₄, swaps₄⟩ := run_flushAndRelease sound₃ pinned₃
        (pageId ▸ opened₂.inner)
      have versions : s₃.versions tableOf₂ = s₂.versions tableOf₂ := by
        simp only [Database.versions, store, kept.undoRecord, clients.txnManager, clients.journal]
      have rowCount : s₃.rowCount = s₂.rowCount :=
        @Database.rowCount_congr s₂ s₃ tableOf₂ fun _ => by rw [store]
      have stored : s₂.Swaps [tp₂.pageId] s₃ [tp₂.pageId] :=
        .of_pins clients.pins (le_of_eq kept.nextPageId.symm) clients.copies _
      refine ⟨s₄, pages₂, tableOf₂, sound₄, ?_⟩
      rw [if_neg fits, Program.run_bind_of_ok logged, closed]
      refine ⟨_, [], rfl, .inl ⟨takes.mpr small, rfl, rfl⟩, ?_, ?_, ?_⟩
      · rw [pool.versions, versions, same]
      · rw [Database.order_congr pool.rowCount, Database.order_congr rowCount, order]
      · exact fun unborn => (swaps unborn).trans (stored.trans (pageId ▸ swaps₄))
    · have refuses := mt takes.mp small
      push Not at small
      obtain ⟨log, found, large⟩ := small
      obtain ⟨s₃, refused, pool, pins, sound₃⟩ :=
        run_logAndSetLsn_of_large opened₂.sound found txn .insertRow t ⟨0, 0⟩ (some tuple) large
      refine ⟨s₃, pages₂, tableOf₂, sound₃, ?_⟩
      rw [if_neg fits, Program.run_bind_of_error refused]
      have refusal : s₂.Swaps [tp₂.pageId] s₃ [tp₂.pageId] :=
        .of_pins pins (le_of_eq pool.nextPageId.symm) pool.copies _
      have rowCount : s₃.rowCount = s₂.rowCount := pool.rowCount
      exact ⟨_, _, rfl, .inr ⟨refuses, rfl, tp₂.pageId, rfl⟩, (pool.versions tableOf₂).trans same,
        (Database.order_congr rowCount pages₂).trans order,
        fun unborn => (swaps unborn).trans refusal⟩

/-- How phase two may end for a row, by what is left of the version store and the pages
    that are left pinned. -/
inductive HitEnds (capacity : Option Nat) (m : VersionStore) (trx t : Nat)
    (schema : List ColumnTypes) (hit : Hit) :
    Except String Unit → VersionStore → List Nat → Prop
  | refused : ¬ hit.old.size ≤ UNDO_CAPACITY →
      HitEnds capacity m trx t schema hit (.error "UndoLogManager::AppendUndoRecord fail.") m []
  | unserialized {message pointer} : pointer.IsNext m.undo → hit.old.size ≤ UNDO_CAPACITY →
      Row.serialize schema hit.newValues = .error message →
      HitEnds capacity m trx t schema hit (.error message) (m.save pointer hit.old) []
  | halfway {pointer payload p} : pointer.IsNext m.undo → pointer.isNull = false →
      hit.old.size ≤ UNDO_CAPACITY → Row.serialize schema hit.newValues = .ok payload →
      ¬ VersionFits payload → ¬ LogTakes capacity (tupleOf ⟨trx, pointer, 0⟩ payload).size →
      HitEnds capacity m trx t schema hit (.error "LogBuffer::Write record larger than buffer capacity")
        ((m.save pointer hit.old).deletion trx t hit.rid hit.old pointer .updateDeleteOld) [p]
  | lost {pointer payload} : pointer.IsNext m.undo → pointer.isNull = false →
      hit.old.size ≤ UNDO_CAPACITY → Row.serialize schema hit.newValues = .ok payload →
      ¬ VersionFits payload → LogTakes capacity (tupleOf ⟨trx, pointer, 0⟩ payload).size →
      ¬ (tupleOf ⟨trx, pointer, 0⟩ payload).size + SLOT_SIZE ≤ PAGE_SIZE - HEADER_SIZE →
      HitEnds capacity m trx t schema hit (.ok ⟨⟩)
        (((m.save pointer hit.old).deletion trx t hit.rid hit.old pointer .updateDeleteOld).enter trx
          { rid := ⟨0, 0⟩, type := .updateInsertNew, tableId := t }
          (.replace trx hit.rid ⟨0, 0⟩ payload)) []
  | done {pointer payload new} : pointer.IsNext m.undo → pointer.isNull = false →
      hit.old.size ≤ UNDO_CAPACITY → Row.serialize schema hit.newValues = .ok payload →
      LogTakes capacity (tupleOf ⟨trx, pointer, 0⟩ payload).size → m.slot new = none →
      (tupleOf ⟨trx, pointer, 0⟩ payload).size + SLOT_SIZE ≤ PAGE_SIZE - HEADER_SIZE →
      HitEnds capacity m trx t schema hit (.ok ⟨⟩)
        (((m.save pointer hit.old).deletion trx t hit.rid hit.old pointer .updateDeleteOld).insertion
          trx t new (tupleOf ⟨trx, pointer, 0⟩ payload) .updateInsertNew
          (.replace trx hit.rid new payload)) []

theorem run_updateHit {hit : Hit} (sound : s.Sound pages tableOf)
    (found : (s.versions tableOf).slot hit.rid = some ⟨t, hit.old⟩) (alive : hit.old.isDel = false)
    (trx : Nat) (schema : List ColumnTypes) :
    ∃ result s' pages' tableOf' held, (updateHit (some trx) t schema hit).run s = (result, s') ∧
      s'.Sound pages' tableOf' ∧ (s.Unborn → s.Swaps [] s' held) ∧
      HitEnds s.logCapacity (s.versions tableOf) trx t schema hit result (s'.versions tableOf')
        held := by
  obtain ⟨s₁, sound₁, -, -, swaps₁, saved⟩ := run_saveVersion sound hit.old
  unfold updateHit
  by_cases small : hit.old.size ≤ UNDO_CAPACITY
  · rw [if_pos small] at saved
    obtain ⟨pointer, ran₁, notNull, next, same₁⟩ := saved
    rw [Program.run_bind_of_ok ran₁]
    cases serialized : Row.serialize schema hit.newValues with
    | error message =>
        exact ⟨_, s₁, pages, tableOf, [], rfl, sound₁, swaps₁,
          same₁ ▸ .unserialized next small serialized⟩
    | ok payload =>
        have found₁ : (s₁.versions tableOf).slot hit.rid = some ⟨t, hit.old⟩ := by
          rw [same₁]
          exact found
        obtain ⟨s₂, ran₂, sound₂, swaps₂, versions₂⟩ := run_deleteOld sound₁ found₁ alive trx pointer
        have found₂ : (s₂.versions tableOf).slot hit.rid =
            some ⟨t, hit.old.deleted trx pointer⟩ := by
          rw [versions₂, VersionStore.slot_deletion, if_pos rfl]
        obtain ⟨item, entry⟩ := sound₂.exists_item found₂
        let tuple := tupleOf ⟨trx, pointer, 0⟩ payload
        obtain ⟨s₃, pages₃, tableOf₃, sound₃, ran₃⟩ := run_insertNewVersion sound₂ entry (some trx) tuple
        rw [Program.run_bind_of_ok (Program.run_lift (.ok payload) s₁),
          Program.run_bind_of_ok ran₂, Option.getD_some]
        rw [versions₂, same₁] at ran₃
        have capacity : s₂.logCapacity = s.logCapacity := by
          have kept := (Database.Capacity.saveVersion hit.old) s rfl
          rw [ran₁] at kept
          have kept := (Database.Capacity.deleteOld (some trx) t hit pointer) s₁ kept
          rwa [ran₂] at kept
        rw [capacity] at ran₃
        let deleted := ((s.versions tableOf).save pointer hit.old).deletion trx t hit.rid hit.old
          pointer .updateDeleteOld
        let entered (rid : RID) : Database :=
          { s₃ with
            txnManager := s₃.txnManager.pushWrite trx
              { rid := rid, type := .updateInsertNew, tableId := t } }.enter
            (.replace trx hit.rid rid payload)
        have soundEntered : ∀ rid, (entered rid).Sound pages₃ tableOf₃ := fun rid =>
          sound₃.congr rfl rfl rfl rfl rfl rfl sound₃.consistent.pinned
        have swaps : s.Unborn → s.Swaps [] s₂ [] := fun unborn => (swaps₁ unborn).trans swaps₂
        have entering : ∀ rid, s₃.Swaps [] (entered rid) [] := fun rid =>
          @Database.Swaps.of_pins s₃ (entered rid) rfl le_rfl (fun _ holds => holds) []
        by_cases fits : tuple.size + SLOT_SIZE ≤ PAGE_SIZE - HEADER_SIZE
        · rw [if_pos fits] at ran₃
          obtain ⟨new, inserted, free, versions₃, -, swaps₃⟩ := ran₃
          rw [Program.run_bind_of_ok inserted]
          refine ⟨_, entered new, pages₃, tableOf₃, [], rfl, soundEntered new, fun unborn =>
            (swaps unborn).trans ((swaps₃ ((swaps unborn).unborn unborn)).trans (entering new)), ?_⟩
          have versions : (entered new).versions tableOf₃ =
              deleted.insertion trx t new tuple .updateInsertNew
                (.replace trx hit.rid new payload) := by
            rw [VersionStore.insertion, ← versions₃]
            rfl
          have takes : LogTakes s.logCapacity tuple.size := by
            rw [← capacity]
            exact sound₂.logTakes fits
          have free' : (s.versions tableOf).slot new = none := by
            rw [VersionStore.slot_deletion] at free
            split at free
            · cases free
            · exact free
          rw [versions]
          exact .done next notNull small serialized takes free' fits
        · rw [if_neg fits] at ran₃
          obtain ⟨result, held, ran₃, ended, same₃, -, swaps₃⟩ := ran₃
          have large : ¬ VersionFits payload := fun small =>
            fits (size_tupleOf_of_fits ⟨trx, pointer, 0⟩ small)
          have swaps' : s.Unborn → s.Swaps [] s₃ held := fun unborn =>
            (swaps unborn).trans (swaps₃ ((swaps unborn).unborn unborn))
          rcases ended with ⟨takes, rfl, rfl⟩ | ⟨refuses, rfl, p, rfl⟩
          · rw [Program.run_bind_of_ok ran₃]
            refine ⟨_, entered ⟨0, 0⟩, pages₃, tableOf₃, [], rfl, soundEntered ⟨0, 0⟩, fun unborn =>
              (swaps' unborn).trans (entering ⟨0, 0⟩), ?_⟩
            have versions : (entered ⟨0, 0⟩).versions tableOf₃ =
                deleted.enter trx { rid := ⟨0, 0⟩, type := .updateInsertNew, tableId := t }
                  (.replace trx hit.rid ⟨0, 0⟩ payload) := by
              change (s₃.versions tableOf₃).enter trx _ _ = _
              rw [same₃]
            rw [versions]
            exact .lost next notNull small serialized large takes fits
          · rw [Program.run_bind_of_error ran₃]
            refine ⟨_, s₃, pages₃, tableOf₃, [p], rfl, sound₃, swaps', ?_⟩
            rw [same₃]
            exact .halfway next notNull small serialized large refuses
  · rw [if_neg small] at saved
    rw [Program.run_bind_of_error saved.1]
    exact ⟨_, s₁, pages, tableOf, [], rfl, sound₁, swaps₁, saved.2 ▸ .refused small⟩

end ExecutorUpdate

end YourSQL
