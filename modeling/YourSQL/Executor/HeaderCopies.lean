import YourSQL.Executor.ExecutorSteps

/-! # Copies of page headers

The header of a page has changed since an executor copied it. An INSERT does no harm with a
copy that has the rows and the link of the page, and a DELETE does none as long as it does
not write its copy back.
-/

namespace YourSQL

open Mvcc (VersionStore)

variable {s s' u : Database} {pages pages' : Nat → List Nat} {tableOf tableOf' : Nat → Nat}
  {tp : TablePage} {t trx : Nat} {q : Nat}

/-- The object's copy of the header has the rows and the link that the page has. -/
def TablePage.UpToDate (tp : TablePage) (s : Database) : Prop :=
  tp.header.numRows = (s.page tp.pageId).asTable.header.numRows ∧
    tp.header.nextPageId = (s.page tp.pageId).asTable.header.nextPageId

/-! ## INSERT -/

/-- What an INSERT knows of the page it has open. -/
structure TablePage.Opened (tp : TablePage) (pages : Nat → List Nat) (t : Nat) : Prop where
  table : tp.tableId = t
  mem : tp.pageId ∈ pages t
  headerId : tp.header.pageId = tp.pageId
  unlinked : tp.header.nextPageId = INVALID_PAGE_ID
  bounded : tp.freeSize ≤ PAGE_SIZE - HEADER_SIZE

/-- The page with the object's header. -/
def TablePage.imposed (tp : TablePage) (s : Database) : Database :=
  s.setPage tp.pageId (.table { (s.page tp.pageId).asTable with header := tp.header })

namespace TablePage

/-- The first thing that is written is the header. -/
theorem run_insertTuple_imposed {record : Record} (room : record.size + SLOT_SIZE ≤ tp.freeSize) :
    (tp.insertTuple record).run (tp.imposed s) = (tp.insertTuple record).run s := by
  unfold insertTuple writeHeader imposed
  rw [if_neg (by omega)]
  simp only [Program.run_modify_bind, Database.page_setPage_self, Database.setPage_setPage,
    PageData.asTable]

theorem run_allocate_imposed (inside : tp.pageId < s.nextPageId) :
    (ExecutorInsert.allocateAndLinkNewPage tp).run (tp.imposed s) =
      (ExecutorInsert.allocateAndLinkNewPage tp).run s := by
  let id := s.nextPageId
  have old : tp.pageId ≠ id := inside.ne
  let allocated (s : Database) : Database :=
    { s with
      nextPageId := id + 1
      page := Function.update s.page id .blank
      dirty := Function.update s.dirty id false
      pins := Function.update s.pins id 1 }
  have page : ((allocated (tp.imposed s)).page tp.pageId).asTable.records =
      ((allocated s).page tp.pageId).asTable.records := by
    simp [allocated, old, imposed, PageData.asTable]
  have linked : (tp.setNextPageId id).run (allocated (tp.imposed s)) =
      (tp.setNextPageId id).run (allocated s) := by
    unfold setNextPageId writeHeader
    simp only [Program.run_modify_bind, Program.run_pure, page]
    simp only [allocated, imposed, Database.setPage, Function.update_comm old,
      Function.update_idem]
  unfold ExecutorInsert.allocateAndLinkNewPage
  rw [Program.run_bind_of_ok (show newPage.run (tp.imposed s) = (.ok id, allocated (tp.imposed s)) from rfl),
    Program.run_bind_of_ok (show newPage.run s = (.ok id, allocated s) from rfl), Program.run_bind,
    Program.run_bind, linked]

/-- A page without a successor is the last one. -/
theorem Opened.last (opened : tp.Opened pages t) (sound : s.Sound pages tableOf)
    (upToDate : tp.UpToDate s) {item : MetaItem} (entry : s.items t = some item) :
    (pages t).getLast? = some tp.pageId := by
  obtain ⟨before, after, chain⟩ := List.append_of_mem opened.mem
  have linked := sound.layout.linked t item entry
  rw [chain] at linked
  obtain ⟨second, next, rest⟩ := linked.behind
  obtain ⟨image, page, -⟩ := sound.layout.exists_image opened.mem
  have stop : second = INVALID_PAGE_ID := by
    have link := upToDate.2
    rw [opened.unlinked, page] at link
    rw [Database.next, page] at next
    exact (Option.some.inj next).symm.trans link.symm
  cases after with
  | nil => simp [chain]
  | cons q after => exact absurd (rest.1.symm.trans stop) rest.2.1

/-- What an up-to-date object imposes changes no row and no link. -/
theorem Opened.lastPage (opened : tp.Opened pages t) (sound : s.Sound pages tableOf)
    (upToDate : tp.UpToDate s) {item : MetaItem} (entry : s.items t = some item)
    (pinned : s.pins tp.pageId ≠ 0) :
    LastPage (tp.imposed s) pages tableOf t tp ∧
      (tp.imposed s).versions tableOf = s.versions tableOf := by
  obtain ⟨image, page, of_table⟩ := sound.layout.exists_image opened.mem
  obtain ⟨headerId, rows⟩ := sound.consistent.header _ _ page
  have imposed : tp.imposed s = s.setPage tp.pageId (.table { image with header := tp.header }) := by
    rw [TablePage.imposed, page]
    rfl
  have rows' := upToDate.1
  have link := upToDate.2
  rw [page] at rows' link
  have same : s.SameLayout (tp.imposed s) := imposed ▸ .setPage page link
  have consistent : (tp.imposed s).Consistent tableOf := by
    rw [imposed]
    apply sound.consistent.setPage
    · exact ⟨opened.headerId, rows'.trans rows⟩
    · exact fun records => sound.consistent.item _ _ page records
  refine ⟨?_, ?_⟩
  · exact
      { sound := sound.same same consistent
        sees := ⟨opened.table.trans of_table.symm, _, Database.page_setPage_self .., rfl⟩
        table := opened.table
        last := opened.last sound upToDate entry
        item := ⟨item, entry⟩
        pinned := pinned
        bounded := opened.bounded }
  · have store : (tp.imposed s).store tableOf = s.store tableOf := by
      rw [imposed]
      refine RecordStore.ext ?_ rfl rfl
      funext other
      rw [Database.store_setPage]
      split
      · rename_i here
        rw [Database.slot_store_of_image (here ▸ page), here]
        rfl
      · rfl
    have undo : (tp.imposed s).undoRecord = s.undoRecord := same.undoRecord
    rw [Database.versions, store, undo]
    rfl

end TablePage

namespace ExecutorInsert

theorem run_next_imposed (inside : tp.pageId < s.nextPageId) (txn : Option Nat) (t : Nat)
    (payload : List UInt8) :
    (next txn t (.ok payload) tp).run (tp.imposed s) = (next txn t (.ok payload) tp).run s := by
  unfold next
  rw [Program.run_bind_of_ok (Program.run_lift (.ok payload) _),
    Program.run_bind_of_ok (Program.run_lift (.ok payload) _)]
  dsimp only
  unfold makeRoom
  by_cases space : tp.hasSpaceFor (tupleOf ⟨txn.getD INVALID_TX_ID, .null, 0⟩ payload).size = true
  · rw [if_pos space, Program.run_pure_bind, Program.run_pure_bind, Program.run_bind,
      Program.run_bind, tp.run_insertTuple_imposed (by simpa [TablePage.hasSpaceFor] using space)]
  · rw [if_neg space, Program.run_bind, Program.run_bind, tp.run_allocate_imposed inside]

/-- `Next` puts the row behind the others, or nothing. -/
theorem run_next (sound : s.Sound pages tableOf) (opened : tp.Opened pages t)
    (upToDate : tp.UpToDate s) {item : MetaItem} (entry : s.items t = some item)
    (pinned : s.pins tp.pageId ≠ 0) (unborn : s.Unborn) (trx : Nat) (payload : List UInt8) :
    ∃ result s' pages' tableOf' held, (next (some trx) t (.ok payload) tp).run s = (result, s') ∧
      s'.Sound pages' tableOf' ∧ s.Lengthens pages t tp.pageId s' pages' ∧
      (s'.items t).isSome = true ∧ s.Swaps [tp.pageId] s' held ∧
      ((∃ message, result = .error message) ∧
          (s'.versions tableOf').slot = (s.versions tableOf).slot ∨
        ∃ tp' rid tuple, result = .ok (tp', rid, tuple) ∧ held = [tp'.pageId] ∧
          tp'.pageId ∈ pages' t ∧ (s.versions tableOf).slot rid = none ∧
          (s'.versions tableOf').slot = ((s.versions tableOf).put rid ⟨t, tuple⟩).slot) := by
  obtain ⟨image, page, -⟩ := sound.layout.exists_image opened.mem
  have inside := sound.layout.lt_of_mem opened.mem
  obtain ⟨last, versions₁⟩ := opened.lastPage sound upToDate entry pinned
  have imposes : s.Swaps [tp.pageId] (tp.imposed s) [tp.pageId] :=
    @Database.Swaps.of_pins s (tp.imposed s) rfl le_rfl (fun _ holds => holds) _
  have others₁ : ∀ q, q ≠ tp.pageId → (tp.imposed s).page q = s.page q :=
    fun q other => Function.update_of_ne other ..
  rw [← run_next_imposed inside]
  let tuple := tupleOf ⟨trx, .null, 0⟩ payload
  obtain ⟨s₂, tp₂, pages₂, tableOf₂, ran₂, opened₂, longer, open₂, same₂, -, swaps₂, room⟩ :=
    run_makeRoom last tuple
  have swaps := imposes.trans (swaps₂ (imposes.unborn unborn))
  have away : ∀ q, q < s.nextPageId → q ≠ tp.pageId → q ≠ tp₂.pageId := by
    intro q below other here
    rcases open₂ with same | isNew
    · exact other (here.trans same)
    · exact absurd (here.trans isNew) below.ne
  have lengthens : ∀ {s' : Database}, s₂.nextPageId ≤ s'.nextPageId →
      (∀ q, q ≠ tp₂.pageId → s'.page q = s₂.page q) →
      s.Lengthens pages t tp.pageId s' pages₂ := by
    intro s' nextPageId others
    refine ⟨longer.chain, ?_, longer.nextPageId.trans nextPageId⟩
    intro q below other
    rw [others q (away q below other), longer.page q below other, others₁ q other]
  unfold next
  rw [Program.run_bind_of_ok (Program.run_lift (.ok payload) _)]
  dsimp only [Option.getD_some]
  rw [Program.run_bind_of_ok ran₂]
  by_cases fits : tuple.size + SLOT_SIZE ≤ PAGE_SIZE - HEADER_SIZE
  · obtain ⟨rid, tp₃, s₃, tp₄, s₄, inserted, logged, free, versions, -, sound₄, pageId, pins,
      nextPageId, copies, others⟩ := run_storeTuple opened₂ fits (room fits) (some trx)
    have pinned₄ : s₄.pins tp₄.pageId ≠ 0 := by
      rw [pageId, pins]
      exact opened₂.pinned
    let wr : WriteRecord := { rid := rid, type := .insert, tableId := t }
    let s₅ : Database :=
      { s₄.writeBack tp₄.pageId with
        txnManager := (s₄.writeBack tp₄.pageId).txnManager.pushWriteFor (some trx) wr }
    let s₆ := s₅.enter (.insert trx t rid payload)
    have slots : (s₆.versions tableOf₂).slot = ((s.versions tableOf).put rid ⟨t, tuple⟩).slot := by
      have kept : (s₆.versions tableOf₂).slot = (s₄.versions tableOf₂).slot := by
        funext other
        simp [Database.versions, Database.store, s₆, s₅, Database.enter]
      rw [kept, versions, same₂, versions₁]
      rfl
    refine ⟨.ok (tp₄, rid, tuple), s₆, pages₂, tableOf₂, [tp₄.pageId], ?_, ?_, ?_, ?_, ?_, .inr ?_⟩
    · rw [Program.run_bind_of_ok inserted]
      dsimp only
      rw [Program.run_bind_of_ok logged, Program.run_bind_of_ok (run_flush pinned₄),
        Program.run_bind_of_ok rfl]
      rfl
    · apply sound₄.congr <;> simp [s₆, s₅, Database.enter]
      exact sound₄.consistent.pinned
    · apply lengthens
      · simp [s₆, s₅, Database.enter, nextPageId]
      · intro q other
        simpa [s₆, s₅, Database.enter] using others q other
    · obtain ⟨item', entry'⟩ := sound₄.exists_item (show (s₄.versions tableOf₂).slot rid = _ by
        rw [versions]
        exact (VersionStore.slot_put ..).trans (if_pos rfl))
      exact Option.isSome_iff_exists.mpr ⟨item', by simpa [s₆, s₅, Database.enter] using entry'⟩
    · have written : s₂.Copies s₆ := copies.trans (Database.Copies.writeBack s₄ tp₄.pageId)
      have entered : s₂.Swaps [tp₂.pageId] s₆ [tp₂.pageId] := by
        refine .of_pins ?_ ?_ written _ <;> simp [s₆, s₅, Database.enter, pins, nextPageId]
      exact pageId ▸ swaps.trans entered
    · refine ⟨tp₄, rid, tuple, rfl, rfl, pageId ▸ List.mem_of_getLast? opened₂.last, ?_, slots⟩
      rw [← versions₁, ← same₂]
      exact free
  · have refused := run_insertTuple_of_large opened₂ fits
    refine ⟨_, s₂, pages₂, tableOf₂, [tp₂.pageId], Program.run_bind_of_ok refused, opened₂.sound,
      lengthens le_rfl fun _ _ => rfl, Option.isSome_iff_exists.mpr opened₂.item, swaps,
      .inl ⟨⟨_, rfl⟩, ?_⟩⟩
    rw [same₂, versions₁]

end ExecutorInsert

/-! ## DELETE -/

/-- The record is as it was, or has been marked as deleted. -/
def Record.SameOrMarked (old new : Record) : Prop :=
  new = old ∨ old.isDel = false ∧ ∃ trx pointer, new = old.deleted trx pointer

theorem Record.SameOrMarked.trans {first second third : Record} (one : first.SameOrMarked second)
    (two : second.SameOrMarked third) : first.SameOrMarked third := by
  rcases one with rfl | ⟨alive, trx, pointer, rfl⟩
  · exact two
  · rcases two with rfl | ⟨again, -⟩
    · exact .inr ⟨alive, trx, pointer, rfl⟩
    · rw [Record.isDel_deleted] at again
      cases again

/-- Records may have been marked since, and none has come or gone. -/
def Mvcc.VersionStore.Marks (m m' : VersionStore) : Prop :=
  ∀ rid, match m.slot rid with
    | none => m'.slot rid = none
    | some slot => ∃ record, m'.slot rid = some ⟨slot.tableId, record⟩ ∧
        slot.record.SameOrMarked record

namespace Mvcc.VersionStore.Marks

variable {m m' m'' : VersionStore} {rid : RID} {record : Record}

theorem of_slot (same : m'.slot = m.slot) : m.Marks m' := by
  intro rid
  rw [same]
  cases m.slot rid with
  | none => rfl
  | some slot => exact ⟨slot.record, rfl, .inl rfl⟩

theorem stored (marks : m.Marks m') (found : m.slot rid = some ⟨t, record⟩) :
    ∃ record', m'.slot rid = some ⟨t, record'⟩ ∧ record.SameOrMarked record' := by
  have here := marks rid
  rw [found] at here
  exact here

theorem isSome (marks : m.Marks m') (rid : RID) : (m'.slot rid).isSome = (m.slot rid).isSome := by
  have here := marks rid
  cases found : m.slot rid with
  | none =>
      rw [found] at here
      rw [here]
  | some slot =>
      rw [found] at here
      obtain ⟨record, stored, -⟩ := here
      rw [stored]
      rfl

theorem trans (first : m.Marks m') (second : m'.Marks m'') : m.Marks m'' := by
  intro rid
  have here := first rid
  cases found : m.slot rid with
  | none =>
      rw [found] at here
      have there := second rid
      rwa [here] at there
  | some slot =>
      rw [found] at here
      obtain ⟨record, stored, one⟩ := here
      obtain ⟨record', stored', two⟩ := second.stored stored
      exact ⟨record', stored', one.trans two⟩

theorem deletion (found : m.slot rid = some ⟨t, record⟩) (alive : record.isDel = false)
    (trx : Nat) (pointer : UndoPointer) (type : WriteType) :
    m.Marks ((m.save pointer record).deletion trx t rid record pointer type) := by
  intro other
  rw [VersionStore.slot_deletion]
  by_cases same : other = rid
  · subst same
    rw [found, if_pos rfl]
    exact ⟨_, rfl, .inr ⟨alive, trx, pointer, rfl⟩⟩
  · rw [if_neg same]
    exact of_slot (show (m.save pointer record).slot = m.slot from rfl) other

end Mvcc.VersionStore.Marks

theorem Database.alive_of_isTarget {txn : Option Nat} {filter : Option Filter} {record : Record}
    (taken : s.isTarget txn filter record = .ok true) : record.isDel = false := by
  unfold isTarget at taken
  cases deleted : record.isDel with
  | false => rfl
  | true =>
      rw [deleted, Bool.true_or, if_pos rfl] at taken
      cases taken

/-- What a DELETE may have made of the database, and the pages that are held in the end. -/
structure Database.Scanned (s : Database) (pages : Nat → List Nat) (tableOf : Nat → Nat) (t : Nat)
    (held : List Nat) (u : Database) (held' : List Nat) : Prop where
  sound : u.Sound pages tableOf
  marks : (s.versions tableOf).Marks (u.versions tableOf)
  known : (u.items t).isSome = true
  swaps : s.Swaps held u held'

namespace Database.Scanned

variable {held held' held'' : List Nat}

theorem pool (scanned : s.Scanned pages tableOf t held u held') (pool : u.PoolOnly s')
    (sound : s'.Sound pages tableOf) (swaps : u.Swaps held' s' held'') :
    s.Scanned pages tableOf t held s' held'' where
  sound := sound
  marks := pool.versions tableOf ▸ scanned.marks
  known := pool.items ▸ scanned.known
  swaps := scanned.swaps.trans swaps

theorem rowCount (scanned : s.Scanned pages tableOf t held u held') : u.rowCount = s.rowCount :=
  @Database.rowCount_congr s u tableOf fun rid => scanned.marks.isSome rid

end Database.Scanned

namespace ExecutorDelete

variable {filter : Option Filter} {held : List Nat} {rid : RID} {rest : List RID}

/-- A record is deleted, or there is no undo record for it. -/
theorem scanned_deleteRecord {held' : List Nat} {record : Record}
    (scanned : s.Scanned pages tableOf t held u held') (unborn : u.Unborn)
    (sees : tp.Sees tableOf u) (at_page : tp.pageId = rid.pageId)
    (stored : (u.versions tableOf).slot rid = some ⟨t, record⟩) (alive : record.isDel = false)
    (pinned : u.pins tp.pageId ≠ 0) (trx : Nat) :
    ∃ u', s.Scanned pages tableOf t held u' held' ∧
      if record.size ≤ UNDO_CAPACITY then
        ∃ tp', (deleteRecord (some trx) tp rid record).run u = (.ok tp', u') ∧
          tp'.Sees tableOf u' ∧ tp'.pageId = tp.pageId ∧ u'.pins tp.pageId ≠ 0
      else
        (deleteRecord (some trx) tp rid record).run u =
          (.error "UndoLogManager::AppendUndoRecord fail.", u') := by
  obtain ⟨u', sound', swaps, ran⟩ :=
    run_deleteRecord scanned.sound sees at_page stored alive pinned trx
  have known : ∀ {record'}, (u'.versions tableOf).slot rid = some ⟨t, record'⟩ →
      (u'.items t).isSome = true := fun stays =>
    Option.isSome_iff_exists.mpr (sound'.exists_item stays)
  refine ⟨u', ?_, ?_⟩
  · split at ran
    · obtain ⟨tp', pointer, -, -, -, versions, -⟩ := ran
      have marks := Mvcc.VersionStore.Marks.deletion stored alive trx pointer .delete
      rw [← versions] at marks
      obtain ⟨record', stays, -⟩ := marks.stored stored
      exact ⟨sound', scanned.marks.trans marks, known stays, scanned.swaps.trans (swaps _ unborn)⟩
    · have versions := ran.2
      exact ⟨sound', versions ▸ scanned.marks, known (versions ▸ stored),
        scanned.swaps.trans (swaps _ unborn)⟩
  · split at ran
    · rename_i small
      obtain ⟨tp', pointer, ran, -, -, -, sees', pageId, pinned'⟩ := ran
      rw [if_pos small]
      exact ⟨tp', ran, sees', pageId, pinned'⟩
    · rename_i large
      rw [if_neg large]
      exact ran.1

theorem wp_round {it : TableIterator} {deleted : Nat} (trx : Nat) (unborn : s.Unborn)
    (stands : it.Stands u pages tableOf t (rid :: rest))
    (scanned : s.Scanned pages tableOf t held u it.held) :
    (round (some trx) filter it deleted).wp
      (fun next u' => next.1.Stands u' pages tableOf t rest ∧
        s.Scanned pages tableOf t held u' next.1.held)
      (fun _ u' => ∃ held', s.Scanned pages tableOf t held u' held') u := by
  obtain ⟨record, current, stored⟩ := stands.run_current scanned.sound
  obtain ⟨after, holds, -, -, -, here, -⟩ := stands.cons_inv
  have unborn' := scanned.swaps.unborn unborn
  unfold round
  rw [Program.wp_bind, Program.wp_of_ok current]
  dsimp only
  rw [Program.wp_bind, Program.wp_get, Program.wp_bind]
  cases decision : u.isTarget (some trx) filter record with
  | error message => exact ⟨_, scanned⟩
  | ok isTaken =>
      rw [Program.wp_of_ok (Program.run_lift (.ok isTaken) u)]
      cases isTaken with
      | false =>
          obtain ⟨it', u', advanced, stands', pool, sound', swaps⟩ :=
            stands.run_advance scanned.sound
          rw [if_neg Bool.false_ne_true, Program.wp_bind, Program.wp_of_ok advanced,
            Program.wp_pure]
          exact ⟨stands', scanned.pool pool sound' swaps⟩
      | true =>
          obtain ⟨u₁, scanned₁, ran⟩ := scanned_deleteRecord scanned unborn' holds.sees
            (holds.pageId.trans (here ▸ rfl)) stored (Database.alive_of_isTarget decision)
            (holds.pageId ▸ holds.pinned) trx
          rw [if_pos rfl, Program.wp_bind, ← here]
          split at ran
          · obtain ⟨tp', done, sees, pageId, pinned⟩ := ran
            have rowCount := scanned₁.rowCount.trans scanned.rowCount.symm
            have stands₁ := stands.congr sees pageId pinned rowCount
            obtain ⟨it', u', advanced, stands', pool, sound', swaps⟩ :=
              stands₁.run_advance scanned₁.sound
            rw [Program.wp_of_ok done, Program.wp_bind, Program.wp_of_ok advanced, Program.wp_pure]
            exact ⟨stands', scanned₁.pool pool sound' swaps⟩
          · rw [Program.wp_of_error ran]
            exact ⟨_, scanned₁⟩

end ExecutorDelete

/-! ## The page that an iterator is on -/

/-- A DELETE of these rows marks one: the first that it does not pass over is one to delete,
    and there is room for its undo record. -/
def Database.marksOne (s : Database) (txn : Option Nat) (filter : Option Filter) : List RID → Bool
  | [] => false
  | rid :: rest =>
      match s.tupleAt rid with
      | none => s.marksOne txn filter rest
      | some record =>
          match s.isTarget txn filter record with
          | .error _ => false
          | .ok false => s.marksOne txn filter rest
          | .ok true => record.size ≤ UNDO_CAPACITY

section MarksOne

variable {txn : Option Nat} {filter : Option Filter} {rid : RID} {rest : List RID} {record : Record}

theorem Database.marksOne_of_passed (found : s.tupleAt rid = some record)
    (passed : s.isTarget txn filter record = .ok false) :
    s.marksOne txn filter (rid :: rest) = s.marksOne txn filter rest := by
  simp only [marksOne, found, passed]

theorem Database.marksOne_of_taken (found : s.tupleAt rid = some record)
    (taken : s.isTarget txn filter record = .ok true) :
    s.marksOne txn filter (rid :: rest) = decide (record.size ≤ UNDO_CAPACITY) := by
  simp only [marksOne, found, taken]

end MarksOne

namespace TableIterator

/-- The rows that are left on the page, by the count that the iterator has. -/
def rowsLeft (it : TableIterator) : List RID :=
  pageRids it.currentPageId it.currentRowIndex it.currentPageNumRows

/-- An iterator is on a row of a page of the table. -/
structure OnPage (it : TableIterator) (pages : Nat → List Nat) (t : Nat) : Prop where
  running : it.isEnd = false
  table : it.tableId = t
  mem : it.currentPageId ∈ pages t
  pageId : it.tablePage.pageId = it.currentPageId
  tableId : it.tablePage.tableId = t
  lower : 1 ≤ it.currentRowIndex
  upper : it.currentRowIndex ≤ it.currentPageNumRows

/-- Its copy of the header is the header. -/
def Fresh (it : TableIterator) (s : Database) : Prop :=
  it.tablePage.header = (s.page it.currentPageId).asTable.header ∧
    it.currentPageNumRows = (s.page it.currentPageId).asTable.header.numRows

/-- For its copy the page is the last one, and has no more rows than it has. -/
def Behind (it : TableIterator) (s : Database) : Prop :=
  it.tablePage.header.nextPageId = INVALID_PAGE_ID ∧
    it.currentPageNumRows ≤ (s.page it.currentPageId).asTable.header.numRows

variable {it : TableIterator} {rid : RID} {rest : List RID}

theorem OnPage.rowsLeft (onPage : it.OnPage pages t) :
    it.rowsLeft = it.rid :: { it with currentRowIndex := it.currentRowIndex + 1 }.rowsLeft :=
  pageRids_of_le onPage.upper

theorem OnPage.stands (onPage : it.OnPage pages t) (sound : s.Sound pages tableOf)
    (fresh : it.Fresh s) (pinned : s.pins it.currentPageId ≠ 0) :
    ∃ left, it.Stands s pages tableOf t left ∧ left.length ≤ s.slotCount := by
  obtain ⟨before, after, chain⟩ := List.append_of_mem onPage.mem
  obtain ⟨image, page, of_table⟩ := sound.layout.exists_image onPage.mem
  have holds : it.Holds s pages tableOf t after :=
    { running := onPage.running
      table := onPage.table
      chain := ⟨before, chain⟩
      pageId := onPage.pageId
      sees := by
        refine ⟨?_, image, onPage.pageId ▸ page, ?_⟩
        · rw [onPage.tableId, onPage.pageId, of_table]
        · rw [fresh.1, page]
          rfl
      pinned := pinned }
  have count := fresh.2.trans (sound.numRows it.currentPageId).symm
  refine ⟨_, .onRow holds count onPage.lower onPage.upper, ?_⟩
  have bound := (sound.bounds t).2
  have lower := onPage.lower
  simp only [Database.addresses, chain, List.flatMap_append, List.flatMap_cons, List.length_append,
    pageRids, List.length_map, List.length_range', count] at bound ⊢
  omega

theorem OnPage.run_current (onPage : it.OnPage pages t) (sound : s.Sound pages tableOf)
    (behind : it.Behind s) :
    ∃ record, it.current.run s = (.ok (some record), s) ∧
      (s.versions tableOf).slot it.rid = some ⟨t, record⟩ := by
  obtain ⟨image, page, of_table⟩ := sound.layout.exists_image onPage.mem
  have inside : it.rid.rowId ≤ s.rowCount it.rid.pageId := by
    rw [show s.rowCount it.rid.pageId = _ from sound.numRows it.currentPageId]
    exact onPage.upper.trans behind.2
  obtain ⟨slot, found⟩ := Option.isSome_iff_exists.mp
    ((Database.isSome_slot_iff s tableOf it.rid).mpr ⟨onPage.lower, inside⟩)
  obtain ⟨image', page', here, table⟩ := Database.exists_image_of_slot found
  refine ⟨slot.record, ?_, ?_⟩
  · have page₁ : s.page it.tablePage.pageId = .table image' := onPage.pageId ▸ page'
    unfold current TablePage.getTuple
    simp only [onPage.running, Bool.false_eq_true, if_false, Program.run_get_bind, page₁,
      PageData.asTable, here, Program.run_pure]
  · have table' : slot.tableId = t := table.trans of_table
    obtain ⟨tableId, record⟩ := slot
    subst table'
    exact found

/-- The page is the last one for it. -/
theorem OnPage.run_advance (onPage : it.OnPage pages t) (sound : s.Sound pages tableOf)
    (behind : it.Behind s) (pinned : s.pins it.currentPageId ≠ 0) :
    (∃ it' s', it.advance.run s = (.ok it', s') ∧ it'.isEnd = true ∧ s.PoolOnly s' ∧
      s'.Sound pages tableOf ∧ s.Swaps it.held s' it'.held) ∨
    it.advance.run s = (.ok { it with currentRowIndex := it.currentRowIndex + 1 }, s) ∧
      TableIterator.OnPage { it with currentRowIndex := it.currentRowIndex + 1 } pages t := by
  unfold advance
  rw [if_neg (by simp [onPage.running])]
  dsimp only
  by_cases last : it.currentRowIndex + 1 > it.currentPageNumRows
  · obtain ⟨fuel, more⟩ := Nat.exists_eq_succ_of_ne_zero (Nat.ne_zero_of_lt (sound.bounds t).1)
    have inner : META_PAGE_ID ≠ it.currentPageId := (sound.layout.pos_of_mem onPage.mem).ne
    have pool := Database.PoolOnly.release s it.currentPageId
    let ended : TableIterator :=
      { it with
        currentRowIndex := it.currentRowIndex + 1
        isEnd := true }
    refine .inl ⟨ended, _, ?_, rfl, pool, pool.sound sound ?_, ?_⟩
    · rw [if_pos last, Program.run_get_bind, more, nextPage,
        Program.run_bind_of_ok (run_release pinned), if_pos behind.1]
      rfl
    · simpa [Database.unpin, inner] using sound.consistent.pinned
    · rw [held_of_running onPage.running]
      exact .release s it.currentPageId []
  · have touched : (touchPage it.currentPageId).run s = (.ok ⟨⟩, s) := by
      unfold touchPage
      rw [Program.run_get_bind, if_neg pinned]
      rfl
    refine .inr ⟨?_, ?_⟩
    · rw [if_neg last]
      exact (Program.run_bind_of_ok touched).trans rfl
    · exact
        { running := onPage.running
          table := onPage.table
          mem := onPage.mem
          pageId := onPage.pageId
          tableId := onPage.tableId
          lower := Nat.le_add_left ..
          upper := Nat.le_of_not_lt last }

end TableIterator


/-! ## Without a log -/

theorem Database.log_of_capacity (kept : s.Capacity none) : s.log = none :=
  Option.map_eq_none_iff.mp kept

theorem run_logAndSetLsn_of_none (unlogged : s.log = none) (txn : Option Nat) (type : LogRecordType)
    (tableId : Nat) (rid : RID) (image : Option Record) (tp : TablePage) :
    (logAndSetLsn txn type tableId rid image tp).run s = (.ok tp, s) := by
  unfold logAndSetLsn logDataChange appendLogRecord
  rw [Program.run_bind, Program.run_get_bind, unlogged]
  rfl

namespace ExecutorDelete

theorem capacity_deleteRecord (capacity : Option Nat) (txn : Option Nat) (tp : TablePage) (rid : RID)
    (old : Record) : (deleteRecord txn tp rid old).Preserves (Database.Capacity capacity) := by
  apply (Database.Capacity.saveVersion old).bind
  intro rollPtr
  apply (Database.Capacity.markDelete tp rid _ rollPtr).bind
  intro _
  apply (Database.Capacity.logAndSetLsn _ _ _ _ _ tp).bind
  intro tp
  apply (Database.Capacity.pushWrite txn _).bind
  intro _
  apply (Database.Capacity.flush tp.pageId).bind
  exact fun _ => Database.Capacity.unloggedThen (fun _ => rfl) fun _ => Program.preserves_pure _

/-- Without a log no header is written, so it does not matter which one the object has. -/
theorem run_deleteRecord_unlogged (unlogged : s.log = none) (txn : Option Nat) (tp : TablePage)
    (header : TableHeader) (rid : RID) (old : Record) :
    (deleteRecord txn tp rid old).run s =
      (deleteRecord txn { tp with header := header } rid old >>= fun _ => pure tp).run s := by
  have noLog : s.Capacity none := by
    rw [Database.Capacity, Database.logCapacity, unlogged]
    rfl
  have saved := Database.Capacity.saveVersion old s noLog
  unfold deleteRecord
  rw [Program.run_bind_assoc, Program.run_bind, Program.run_bind]
  rcases ran : (saveVersion old).run s with ⟨message | pointer, s₁⟩
  · rfl
  · rw [ran] at saved
    have marked := Database.Capacity.markDelete tp rid (txn.getD INVALID_TX_ID) pointer s₁ saved
    have same : TablePage.markDelete { tp with header := header } rid (txn.getD INVALID_TX_ID) pointer =
        tp.markDelete rid (txn.getD INVALID_TX_ID) pointer := rfl
    dsimp only
    rw [Program.run_bind_assoc, Program.run_bind, Program.run_bind, same]
    rcases ran : (tp.markDelete rid (txn.getD INVALID_TX_ID) pointer).run s₁ with ⟨message | done, s₂⟩
    · rfl
    · rw [ran] at marked
      have log := Database.log_of_capacity marked
      dsimp only
      rw [Program.run_bind_assoc, Program.run_bind_of_ok (run_logAndSetLsn_of_none log ..),
        Program.run_bind_of_ok (run_logAndSetLsn_of_none log ..)]
      rw [Program.run_bind_assoc]
      apply Program.run_bind_congr
      intro _ u
      rw [Program.run_bind_assoc]
      apply Program.run_bind_congr
      intro _ u
      rw [Program.run_bind_assoc]
      rfl


/-- An exception before anything is written. -/
theorem run_deleteRecord_of_large (sound : s.Sound pages tableOf) {old : Record}
    (large : ¬ old.size ≤ UNDO_CAPACITY) :
    ∃ message s', ∀ (txn : Option Nat) (tp : TablePage) (rid : RID),
      (deleteRecord txn tp rid old).run s = (.error message, s') := by
  obtain ⟨s', -, -, -, -, saved⟩ := run_saveVersion sound old
  rw [if_neg large] at saved
  exact ⟨_, s', fun txn tp rid => Program.run_bind_of_error saved.1⟩

variable {it : TableIterator} {filter : Option Filter} {held : List Nat}

/-- Where nothing of the object's header is written. -/
theorem scanned_deleteBehind {held' : List Nat} {record : Record}
    (scanned : s.Scanned pages tableOf t held u held') (unborn : u.Unborn)
    (onPage : it.OnPage pages t) (behind : it.Behind u) (pinned : u.pins it.currentPageId ≠ 0)
    (stored : (u.versions tableOf).slot it.rid = some ⟨t, record⟩) (alive : record.isDel = false)
    (still : u.log = none ∨ ¬ record.size ≤ UNDO_CAPACITY) (trx : Nat) :
    ∃ u', s.Scanned pages tableOf t held u' held' ∧
      ((∃ message, (deleteRecord (some trx) it.tablePage it.rid record).run u = (.error message, u')) ∨
        (deleteRecord (some trx) it.tablePage it.rid record).run u = (.ok it.tablePage, u') ∧
          it.Behind u' ∧ u'.pins it.currentPageId ≠ 0 ∧ u'.log = none) := by
  obtain ⟨image, page, of_table⟩ := scanned.sound.layout.exists_image onPage.mem
  let tp : TablePage := { it.tablePage with header := image.header }
  have sees : tp.Sees tableOf u := by
    refine ⟨?_, image, onPage.pageId ▸ page, rfl⟩
    rw [show tp.tableId = t from onPage.tableId, show tp.pageId = it.currentPageId from onPage.pageId,
      of_table]
  obtain ⟨u', scanned', ran⟩ := scanned_deleteRecord scanned unborn sees onPage.pageId stored alive
    (onPage.pageId ▸ pinned) trx
  refine ⟨u', scanned', ?_⟩
  by_cases small : record.size ≤ UNDO_CAPACITY
  · have unlogged : u.log = none := still.resolve_right (not_not.mpr small)
    have noLog : u.Capacity none := by
      rw [Database.Capacity, Database.logCapacity, unlogged]
      rfl
    rw [if_pos small] at ran
    obtain ⟨tp', ran, -, -, pinned'⟩ := ran
    have done : (deleteRecord (some trx) it.tablePage it.rid record).run u = (.ok it.tablePage, u') := by
      rw [run_deleteRecord_unlogged unlogged _ _ image.header]
      exact (Program.run_bind_of_ok ran).trans rfl
    have kept := capacity_deleteRecord none (some trx) it.tablePage it.rid record u noLog
    rw [done] at kept
    refine .inr ⟨done, ⟨behind.1, ?_⟩, onPage.pageId ▸ pinned', Database.log_of_capacity kept⟩
    rw [← scanned'.sound.numRows it.currentPageId, scanned'.rowCount, ← scanned.rowCount,
      scanned.sound.numRows it.currentPageId]
    exact behind.2
  · obtain ⟨message, u₁, large⟩ := run_deleteRecord_of_large scanned.sound small
    rw [if_neg small, large] at ran
    obtain rfl : u₁ = u' := (Prod.mk.inj ran).2
    exact .inl ⟨message, large ..⟩

/-- The rows that an iterator with an old copy still meets are deleted without a log, or it
    deletes none of them. -/
theorem wp_behind {fuel deleted : Nat} (trx : Nat) (unborn : s.Unborn) (onPage : it.OnPage pages t)
    (behind : it.Behind u) (pinned : u.pins it.currentPageId ≠ 0)
    (scanned : s.Scanned pages tableOf t held u it.held)
    (still : u.log = none ∨ u.marksOne (some trx) filter it.rowsLeft = false)
    (enough : it.currentPageNumRows < it.currentRowIndex + fuel) :
    (it.whileNotEnd (round (some trx) filter) fuel deleted).wp
      (fun _ u' => ∃ held', s.Scanned pages tableOf t held u' held')
      (fun _ u' => ∃ held', s.Scanned pages tableOf t held u' held') u := by
  induction fuel generalizing it deleted u with
  | zero =>
      have upper := onPage.upper
      omega
  | succ fuel ih =>
      let it' : TableIterator := { it with currentRowIndex := it.currentRowIndex + 1 }
      have moveOn : ∀ {u : Database} (deleted : Nat), it.Behind u → u.pins it.currentPageId ≠ 0 →
          s.Scanned pages tableOf t held u it.held →
          (u.log = none ∨ u.marksOne (some trx) filter it'.rowsLeft = false) →
          it.advance.wp (fun next u => (next.whileNotEnd (round (some trx) filter) fuel deleted).wp
              (fun _ u' => ∃ held', s.Scanned pages tableOf t held u' held')
              (fun _ u' => ∃ held', s.Scanned pages tableOf t held u' held') u)
            (fun _ u' => ∃ held', s.Scanned pages tableOf t held u' held') u := by
        intro u deleted behind pinned scanned still
        rcases onPage.run_advance scanned.sound behind pinned with
          ⟨ended, u', advanced, isEnd, pool, sound', swaps⟩ | ⟨advanced, onPage'⟩
        · rw [Program.wp_of_ok advanced]
          unfold TableIterator.whileNotEnd
          rw [if_pos isEnd]
          exact ⟨_, scanned.pool pool sound' swaps⟩
        · rw [Program.wp_of_ok advanced]
          exact ih onPage' behind pinned scanned still (by simp only; omega)
      obtain ⟨record, current, stored⟩ := onPage.run_current scanned.sound behind
      have found : u.tupleAt it.rid = some record := Database.tupleAt_of_slot stored
      rw [onPage.rowsLeft] at still
      unfold TableIterator.whileNotEnd round
      rw [if_neg (by simp [onPage.running])]
      dsimp only
      rw [Program.wp_bind, Program.wp_bind, Program.wp_of_ok current]
      dsimp only
      rw [Program.wp_bind, Program.wp_get, Program.wp_bind]
      cases decision : u.isTarget (some trx) filter record with
      | error message => exact ⟨_, scanned⟩
      | ok isTaken =>
          rw [Program.wp_of_ok (Program.run_lift (.ok isTaken) u)]
          cases isTaken with
          | false =>
              rw [Database.marksOne_of_passed found decision] at still
              rw [if_neg Bool.false_ne_true, Program.wp_bind]
              exact moveOn deleted behind pinned scanned still
          | true =>
              rw [Database.marksOne_of_taken found decision, decide_eq_false_iff_not] at still
              obtain ⟨u', scanned', ⟨message, raised⟩ | ⟨done, behind', pinned', log⟩⟩ :=
                scanned_deleteBehind scanned (scanned.swaps.unborn unborn) onPage behind pinned stored
                  (Database.alive_of_isTarget decision) still trx
              · rw [if_pos rfl, Program.wp_bind, Program.wp_of_error raised]
                exact ⟨_, scanned'⟩
              · rw [if_pos rfl, Program.wp_bind, Program.wp_of_ok done, Program.wp_bind]
                exact moveOn (deleted + 1) behind' pinned' scanned' (.inl log)

/-- `Next`, with the header of the page or with an old copy that is not written back. -/
theorem wp_next (trx : Nat) (sound : s.Sound pages tableOf) (unborn : s.Unborn)
    (known : (s.items t).isSome = true)
    (scans : it.isEnd = true ∨ it.OnPage pages t ∧ s.pins it.currentPageId ≠ 0 ∧
      (it.Fresh s ∨ it.Behind s ∧
        (s.log = none ∨ s.marksOne (some trx) filter it.rowsLeft = false))) :
    (next (some trx) filter it).wp
      (fun _ u => ∃ held, s.Scanned pages tableOf t it.held u held)
      (fun _ u => ∃ held, s.Scanned pages tableOf t it.held u held) s := by
  have start : s.Scanned pages tableOf t it.held s it.held :=
    ⟨sound, .of_slot rfl, known, .refl s _⟩
  unfold next
  rw [Program.wp_bind, Program.wp_get]
  rcases scans with ended | ⟨onPage, pinned, fresh | ⟨behind, still⟩⟩
  · unfold TableIterator.whileNotEnd
    rw [if_pos ended]
    exact ⟨_, start⟩
  · obtain ⟨left, stands, enough⟩ := onPage.stands sound fresh pinned
    apply (@TableIterator.wp_loop s pages tableOf t _ _
      (fun next _ _ u => s.Scanned pages tableOf t it.held u next.held)
      (fun _ u => ∃ held, s.Scanned pages tableOf t it.held u held) ?_ left _ enough it 0 stands
      start).mono
    · rintro _ u ⟨it', -, scanned⟩
      exact ⟨_, scanned⟩
    · exact fun _ _ raises => raises
    · intro it' rid rest acc u stands scanned
      exact wp_round trx unborn stands scanned
  · apply wp_behind trx unborn onPage behind pinned start still
    obtain ⟨before, after, chain⟩ := List.append_of_mem onPage.mem
    have bound := (sound.bounds t).2
    have rows := behind.2
    have lower := onPage.lower
    rw [← sound.numRows it.currentPageId] at rows
    simp only [Database.addresses, chain, List.flatMap_append, List.flatMap_cons, List.length_append,
      pageRids, List.length_map, List.length_range'] at bound
    omega

end ExecutorDelete

end YourSQL
