import YourSQL.Mvcc.UpdatedRows

/-! # Space for undo records

An empty table page takes records of up to 4060 bytes, an empty undo page has space for
records of up to 4052. Whether a record can be saved depends on its size alone, whatever
the undo log has in it; the few sizes between the two bounds can be stored and never be
deleted or updated again.
-/

namespace YourSQL

open Mvcc (Rep Version LogicalRow rowsOf seenBy takes)
open ExecutorUpdate (SetClause)

variable {s : Database} {record : Record} {trx t : Nat} {filter : Option Filter}

/-- Some table page takes the record. -/
def Storable (record : Record) : Prop :=
  ∃ (s : Database) (tableId pageId : Nat) (tp : TablePage),
    (TablePage.load tableId pageId).run s = (.ok tp, s) ∧
      ∃ rid tp' s', (tp.insertTuple record).run s = (.ok (some rid, tp'), s')

/-- `AppendUndoRecord` returns a pointer to the saved record. -/
def Saves (s : Database) (undoLog : UndoLogManager) (oldTrxId : Nat) (oldRollPtr : UndoPointer)
    (record : Record) : Prop :=
  ∃ pointer s', (appendUndoRecord undoLog ⟨oldRollPtr, oldTrxId, record⟩).run s = (.ok pointer, s')

theorem storable_iff : Storable record ↔ record.size + SLOT_SIZE ≤ PAGE_SIZE - HEADER_SIZE := by
  constructor
  · rintro ⟨s, tableId, pageId, tp, loaded, rid, tp', s', inserted⟩
    have bounded : tp.freeSize ≤ PAGE_SIZE - HEADER_SIZE := by
      simp only [TablePage.load, Program.run_get_bind, Program.run_pure, Prod.mk.injEq,
        Except.ok.injEq] at loaded
      rw [← loaded.1]
      exact Nat.sub_le ..
    by_contra large
    unfold TablePage.insertTuple at inserted
    rw [if_pos (by omega)] at inserted
    cases inserted
  · intro fits
    let s : Database := { items := fun _ => some { tableId := 0, tableName := "" } }
    refine ⟨s, 0, 1, ⟨0, 1, {}, PAGE_SIZE - HEADER_SIZE⟩, rfl, ?_⟩
    unfold TablePage.insertTuple
    rw [if_neg (Nat.not_lt.mpr fits)]
    exact ⟨_, _, _, rfl⟩

/-- A page in use that has space has it for what fits an empty page. -/
theorem UndoImage.le_of_hasSpaceFor {image : UndoImage} {size : Nat}
    (space : image.load.hasSpaceFor size = true) : size ≤ UNDO_CAPACITY := by
  have written : UNDO_HEADER_SIZE ≤ image.load.freeOffset := by
    unfold UndoImage.load
    split
    · exact le_rfl
    · omega
  simp only [UndoImage.hasSpaceFor, decide_eq_true_eq] at space
  simp only [UNDO_CAPACITY]
  omega

theorem UndoImage.hasSpaceFor_initNew (pageId size : Nat) :
    (UndoImage.initNew pageId).load.hasSpaceFor size = true ↔ size ≤ UNDO_CAPACITY := by
  rw [UndoImage.load_eq le_rfl, UndoImage.hasSpaceFor, decide_eq_true_iff]
  simp only [UndoImage.initNew, UNDO_CAPACITY, PAGE_SIZE, UNDO_HEADER_SIZE, UNDO_RECORD_OVERHEAD]
  omega

/-- The page that is open for an undo record is pinned. -/
theorem openUndoPage_pinned (s : Database) (undoLog : UndoLogManager) :
    ∃ id s', (openUndoPage undoLog).run s = (.ok id, s') ∧ s'.pins id ≠ 0 := by
  unfold openUndoPage
  split
  · refine ⟨s.nextPageId, _, rfl, ?_⟩
    simp [Database.setPage]
  · refine ⟨undoLog.undoPageId, s.pin undoLog.undoPageId, rfl, ?_⟩
    simp [Database.pin]

/-- A page with space is found exactly for what fits an empty page. -/
theorem makeUndoRoom_space {id : Nat} (pinned : s.pins id ≠ 0) (size : Nat) :
    ∃ id' s', (makeUndoRoom id size).run s = (.ok id', s') ∧ s'.pins id' ≠ 0 ∧
      ((s'.page id').asUndo.load.hasSpaceFor size = true ↔ size ≤ UNDO_CAPACITY) := by
  unfold makeUndoRoom
  rw [Program.run_get_bind]
  cases space : (s.page id).asUndo.load.hasSpaceFor size with
  | true =>
      rw [if_pos rfl]
      exact ⟨id, s, rfl, pinned, iff_of_true space (UndoImage.le_of_hasSpaceFor space)⟩
  | false =>
      rw [if_neg (by simp), Program.run_bind_of_ok (run_release pinned)]
      refine ⟨_, _, rfl, ?_, ?_⟩
      · simp [Database.setPage]
      · rw [← UndoImage.hasSpaceFor_initNew ((s.unpin id).writeBack id).nextPageId size]
        simp [Database.setPage, PageData.asUndo]

/-- Whether a record can be saved depends on its size alone. -/
theorem saves_iff (s : Database) (undoLog : UndoLogManager) (oldTrxId : Nat)
    (oldRollPtr : UndoPointer) (record : Record) :
    Saves s undoLog oldTrxId oldRollPtr record ↔ record.size ≤ UNDO_CAPACITY := by
  obtain ⟨id₁, s₁, opened, pinned₁⟩ := openUndoPage_pinned s undoLog
  obtain ⟨id, s₂, made, pinned, space⟩ := makeUndoRoom_space pinned₁ record.size
  unfold Saves appendUndoRecord
  rw [Program.run_bind_of_ok opened, Program.run_bind_of_ok made, Program.run_get_bind]
  dsimp only
  cases has : (s₂.page id).asUndo.load.hasSpaceFor record.size with
  | true =>
      have small := space.mp has
      refine iff_of_true ?_ small
      simp only [Bool.not_true, Bool.false_eq_true, if_false, Program.run_modify_bind]
      let saved : PageData :=
        .undo ((s₂.page id).asUndo.load.append ⟨oldRollPtr, oldTrxId, record⟩)
      have pinned' : (s₂.setPage id saved).pins id ≠ 0 := pinned
      exact ⟨_, _, (Program.run_bind_of_ok (run_release pinned')).trans rfl⟩
  | false =>
      have large : ¬ record.size ≤ UNDO_CAPACITY := by
        rw [← space, has]
        exact Bool.false_ne_true
      refine iff_of_false ?_ large
      simp only [Bool.not_false, if_true]
      rintro ⟨pointer, s', ran⟩
      rw [Program.run_bind_of_ok (run_release pinned)] at ran
      cases ran

/-! ## Statements -/

/-- Every row of the table that a statement takes can be saved. -/
def Mvcc.TargetsSaved (journal : List Event) (trx t : Nat) (filter : Option Filter) : Prop :=
  ∀ row ∈ rowsOf journal, ∀ version, row.target (seenBy trx journal) t filter = some version →
    REC_HEADER_SIZE + version.payload.length ≤ UNDO_CAPACITY

/-- A DELETE whose WHERE can be told fails for lack of undo space only. -/
theorem History.delete_isOk_iff (history : History s) (active : trx ∈ s.txnManager.activeTxns)
    (table : (s.items t).isSome = true) (decides : Mvcc.Decides s.journal trx t filter) :
    (∃ deleted s', (ExecutorDelete.delete (some trx) t filter).run s = (.ok deleted, s')) ↔
      Mvcc.TargetsSaved s.journal trx t filter := by
  obtain ⟨pages, tableOf, sound, rep⟩ := history.intact
  have ended := wp_delete sound rep active t filter
  unfold Program.wp at ended
  split at ended
  · rename_i deleted s' ran
    refine iff_of_true ⟨deleted, s', ran⟩ ?_
    obtain ⟨done, split, -, -, small⟩ := ended.done
    rw [List.append_nil] at split
    rw [← split] at small
    intro row member version target
    apply rep.small_target _ member target
    exact fun rid record stored taken =>
      small rid (sound.mem_addresses.mpr ⟨record, stored⟩) record stored taken
  · rename_i message s' ran
    refine iff_of_false ?_ ?_
    · rintro ⟨deleted, s'', ran'⟩
      rw [ran] at ran'
      cases ran'
    · rcases ended with ⟨-, -, rid, record, stored, failed | ⟨taken, large, -⟩⟩ | ⟨absent, -⟩
      · exact absurd failed (rep.takes_of_decides decides stored)
      · intro saved
        obtain ⟨row, member, version, target, -, payload⟩ := rep.target_of_takes stored taken
        have small := saved row member version target
        rw [payload] at small
        exact large small
      · rw [absent] at table
        cases table

/-- So does an UPDATE whose new versions can be made and stored. -/
theorem History.update_isOk_iff (history : History s) (active : trx ∈ s.txnManager.activeTxns)
    (table : (s.items t).isSome = true) (decides : Mvcc.Decides s.journal trx t filter)
    {schema : List ColumnTypes} {clauses : List SetClause}
    (updatable : Mvcc.Updatable s.journal trx t schema clauses filter) :
    (∃ updated s',
        (ExecutorUpdate.update (some trx) t schema clauses filter).run s = (.ok updated, s')) ↔
      Mvcc.TargetsSaved s.journal trx t filter := by
  obtain ⟨pages, tableOf, sound, rep⟩ := history.intact
  have ended := wp_update sound rep active t schema clauses filter
  unfold Program.wp at ended
  split at ended
  · rename_i updated s' ran
    obtain ⟨hits, collected, updating⟩ := ended
    refine iff_of_true ⟨updated, s', ran⟩ ?_
    obtain ⟨changes, -, worked, done, -⟩ := updating.done
    rw [List.append_nil] at worked
    intro row member version target
    have inRids := (collected.mem_rids sound rep).mpr ⟨row, member, version, target, rfl⟩
    rw [← worked, List.map_map, List.mem_map] at inRids
    obtain ⟨change, inChanges, here⟩ := inRids
    have inHits : change.1 ∈ hits := worked ▸ List.mem_map.mpr ⟨change, inChanges, rfl⟩
    obtain ⟨payload, -⟩ := collected.hit rep inHits member target here.symm
    have small := (done change inChanges).1
    rwa [Record.size, payload] at small
  · rename_i message s' ran
    refine iff_of_false ?_ ?_
    · rintro ⟨updated, s'', ran'⟩
      rw [ran] at ran'
      cases ran'
    · intro saved
      rcases ended with ⟨absent, -⟩ | ⟨-, -, rid, record, stored, failed | ⟨taken, failed⟩⟩ |
        ⟨hits, collected, -, hit, member, ends⟩
      · rw [absent] at table
        cases table
      · exact absurd failed (rep.takes_of_decides decides stored)
      · obtain ⟨row, member, version, target, -, payload⟩ := rep.target_of_takes stored taken
        obtain ⟨bytes, made, -⟩ := updatable.target member target
        rw [updatedBytes, payload, failed] at made
        cases made
      · obtain ⟨row, inRows, version, target, payload, made⟩ :=
          collected.target_of_mem sound rep member
        obtain ⟨bytes, made', fits⟩ := updatable.target inRows target
        rcases ends with ⟨large, -⟩ | failed | ⟨⟨bytes', serialized, large⟩, -⟩
        · have small := saved row inRows version target
          rw [Record.size, payload] at large
          exact large small
        · rw [made, failed] at made'
          cases made'
        · rw [made, serialized] at made'
          cases made'
          exact large fits

/-- What is stored can be saved, deleted and updated if it is 4052 bytes at most. -/
theorem storable_saved_iff (s : Database) :
    (∀ record, Storable record → ∀ undoLog oldTrxId oldRollPtr,
      Saves s undoLog oldTrxId oldRollPtr record ↔ record.size ≤ UNDO_CAPACITY) ∧
    (History s → ∀ trx ∈ s.txnManager.activeTxns, ∀ t filter,
      (s.items t).isSome = true → Mvcc.Decides s.journal trx t filter →
      ((∃ deleted s', (ExecutorDelete.delete (some trx) t filter).run s = (.ok deleted, s')) ↔
        Mvcc.TargetsSaved s.journal trx t filter) ∧
      ∀ schema clauses, Mvcc.Updatable s.journal trx t schema clauses filter →
        ((∃ updated s', (ExecutorUpdate.update (some trx) t schema clauses filter).run s =
            (.ok updated, s')) ↔
          Mvcc.TargetsSaved s.journal trx t filter)) :=
  ⟨fun record _ undoLog oldTrxId oldRollPtr => saves_iff s undoLog oldTrxId oldRollPtr record,
    fun history _ active _ _ table decides =>
      ⟨history.delete_isOk_iff active table decides,
        fun _ _ updatable => history.update_isOk_iff active table decides updatable⟩⟩

/-- A record of 4060 bytes, as large as a table page takes. -/
def largestRecord : Record := ⟨⟨1, .null, 0⟩, List.replicate 4038 0⟩

theorem size_largestRecord : largestRecord.size = 4060 := by
  rw [Record.size, largestRecord, List.length_replicate, REC_HEADER_SIZE]

theorem storable_largestRecord : Storable largestRecord := by
  rw [storable_iff, size_largestRecord]
  decide

theorem storable_saved_iff_largestRecord :
    Saves {} {} 1 .null largestRecord ↔ largestRecord.size ≤ UNDO_CAPACITY :=
  (storable_saved_iff {}).1 largestRecord storable_largestRecord {} 1 .null

/-- It can be stored, and with an empty undo log it cannot be saved. -/
theorem largestRecord_not_saved :
    ¬ ∀ record, Storable record → ∀ s undoLog oldTrxId oldRollPtr,
      Saves s undoLog oldTrxId oldRollPtr record := by
  intro saved
  have small := (saves_iff ..).mp (saved largestRecord storable_largestRecord {} {} 1 .null)
  rw [size_largestRecord] at small
  exact absurd small (by decide)

end YourSQL
