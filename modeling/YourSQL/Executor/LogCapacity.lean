import YourSQL.Executor.Statements

/-! # What the log takes

A record of a row change is refused when the log buffer could not hold it even if it
were empty. How much it holds is fixed when the log manager is built: no step of an
UPDATE changes it, so the rows that will be refused are known beforehand.
-/

namespace YourSQL

/-- The log accepts an after-image of this size, or there is no log. -/
def LogTakes (capacity : Option Nat) (size : Nat) : Prop :=
  ∀ bytes, capacity = some bytes → kLogHeaderBytes + (28 + size) ≤ bytes

instance (capacity : Option Nat) (size : Nat) : Decidable (LogTakes capacity size) :=
  match capacity with
  | none => .isTrue nofun
  | some bytes => decidable_of_iff (kLogHeaderBytes + (28 + size) ≤ bytes) (by simp [LogTakes])

namespace Database

def logCapacity (s : Database) : Option Nat := s.log.map LogManager.capacity

theorem logTakes_iff (s : Database) (txId : Nat) (type : LogRecordType) (tableId : Nat) (rid : RID)
    (image : Record) :
    LogTakes s.logCapacity image.size ↔ ∀ log, s.log = some log →
      (LogEntry.mk log.nextLsn txId type (some ⟨tableId, rid, some image⟩)).size ≤ log.capacity := by
  cases found : s.log <;> simp [LogTakes, logCapacity, found, LogEntry.size]

/-- The log is as large as it was. -/
def Capacity (capacity : Option Nat) (s : Database) : Prop := s.logCapacity = capacity

namespace Capacity

open Program

variable {capacity : Option Nat}

/-- What leaves the log alone. -/
theorem unlogged {change : Database → Database} (log : ∀ s, (change s).log = s.log) :
    (modify change : Exec Unit).Preserves (Capacity capacity) :=
  preserves_modify fun s holds => by rw [Capacity, logCapacity, log]; exact holds

theorem unloggedThen {change : Database → Database} {f : Unit → Exec α}
    (log : ∀ s, (change s).log = s.log) (rest : ∀ a, (f a).Preserves (Capacity capacity)) :
    (modify change >>= f).Preserves (Capacity capacity) := (unlogged log).bind rest

theorem flush (id : Nat) : (flush id).Preserves (Capacity capacity) := by
  apply preserves_getThen
  intro s
  split
  · exact preserves_throw _
  · exact unlogged fun s => s.log_writeBack id

theorem release (id : Nat) : (release id).Preserves (Capacity capacity) := by
  apply preserves_getThen
  intro s
  split
  · exact preserves_throw _
  · exact unlogged fun s => (s.unpin id).log_writeBack id

theorem newPage : newPage.Preserves (Capacity capacity) := fun _ holds => holds

theorem updateItem (tableId : Nat) (message : String) (change : MetaItem → MetaItem) :
    (updateItem tableId message change).Preserves (Capacity capacity) := by
  apply preserves_getThen
  intro s
  split
  · exact preserves_throw _
  · have flushed : flushMeta.Preserves (Capacity capacity) := by
      apply preserves_getThen
      intro s
      split
      · exact preserves_throw _
      · exact unlogged fun _ => rfl
    exact unloggedThen (fun _ => rfl) fun _ => flushed

theorem init (tableId pageId : Nat) : (TablePage.init tableId pageId).Preserves (Capacity capacity) :=
  unloggedThen (fun _ => rfl) fun _ => preserves_pure _

theorem openLastPage (tableId : Nat) (item : MetaItem) :
    (ExecutorInsert.openLastPage tableId item).Preserves (Capacity capacity) := by
  unfold ExecutorInsert.openLastPage
  split
  · apply newPage.bind
    intro id
    apply (updateItem tableId _ _).bind
    intro _
    split
    · exact (updateItem tableId _ _).bind fun _ => init tableId id
    · exact init tableId id
  · exact unloggedThen (fun _ => rfl) fun _ => preserves_getThen fun _ => preserves_pure _

theorem makeRoom (tp : TablePage) (tuple : Record) :
    (ExecutorInsert.makeRoom tp tuple).Preserves (Capacity capacity) := by
  unfold ExecutorInsert.makeRoom
  split
  · exact preserves_pure _
  · apply newPage.bind
    intro id
    have linking : (tp.setNextPageId id).Preserves (Capacity capacity) :=
      unloggedThen (fun _ => rfl) fun _ => preserves_pure _
    apply linking.bind
    intro linked
    apply (flush linked.pageId).bind
    intro _
    apply (release linked.pageId).bind
    intro _
    apply (init linked.tableId id).bind
    intro last
    exact (updateItem linked.tableId _ _).bind fun _ => preserves_pure _

theorem flushLog : flushLog.Preserves (Capacity capacity) := by
  intro s holds
  obtain ⟨log, io, flushed, same, -⟩ := run_flushLog s
  rw [flushed]
  exact same.trans holds

theorem appendLogRecord (txId : Nat) (type : LogRecordType) (payload : Option LogDataPayload) :
    (appendLogRecord txId type payload).Preserves (Capacity capacity) := by
  apply preserves_get_bind
  intro s holds
  split
  · exact holds
  · rename_i log found
    have drawn : Capacity capacity (s.setLog { log with nextLsn := log.nextLsn + 1 }) := by
      rw [← holds, logCapacity, found]
      rfl
    have pushed : ∀ entry : LogEntry, (do
        modify fun s : Database => { s with log := s.log.map fun log =>
          { log with pending := log.pending ++ [entry] } }
        return entry.lsn : Exec Nat).Preserves (Capacity capacity) := by
      intro entry s holds
      rw [← holds, Capacity, logCapacity, logCapacity]
      exact Option.map_map ..
    dsimp only
    rw [run_modify_bind]
    split
    · exact drawn
    · split
      · exact flushLog.bind (fun _ => pushed _) _ drawn
      · exact pushed _ _ drawn

theorem logAndSetLsn (txn : Option Nat) (type : LogRecordType) (tableId : Nat) (rid : RID)
    (image : Option Record) (tp : TablePage) :
    (logAndSetLsn txn type tableId rid image tp).Preserves (Capacity capacity) := by
  apply (appendLogRecord _ _ _).bind
  intro lsn
  split
  · exact preserves_pure _
  · exact unloggedThen (fun _ => rfl) fun _ => preserves_pure _

theorem insertTuple (tp : TablePage) (record : Record) :
    (tp.insertTuple record).Preserves (Capacity capacity) := by
  unfold TablePage.insertTuple
  split
  · exact preserves_pure _
  · refine unloggedThen (fun _ => rfl) ?_
    intro _
    refine unloggedThen (fun _ => rfl) ?_
    exact fun _ => (updateItem _ _ _).bind fun _ => preserves_pure _

theorem insertNewVersion (txn : Option Nat) (tableId : Nat) (tuple : Record) :
    (ExecutorUpdate.insertNewVersion txn tableId tuple).Preserves (Capacity capacity) := by
  apply preserves_getThen
  intro s
  apply (openLastPage tableId _).bind
  intro opened
  apply (makeRoom opened tuple).bind
  intro tp
  apply (insertTuple tp tuple).bind
  rintro ⟨inserted, tp⟩
  apply (logAndSetLsn _ _ _ _ _ tp).bind
  intro tp
  apply (flush tp.pageId).bind
  exact fun _ => (release tp.pageId).bind fun _ => preserves_pure _

theorem markDelete (tp : TablePage) (rid : RID) (trxId : Nat) (rollPtr : UndoPointer) :
    (tp.markDelete rid trxId rollPtr).Preserves (Capacity capacity) := by
  apply preserves_getThen
  intro s
  dsimp only
  split
  · exact preserves_pure _
  · split
    · exact preserves_pure _
    · exact unloggedThen (fun _ => rfl) fun _ => updateItem _ _ _

theorem pushWrite (txn : Option Nat) (wr : WriteRecord) :
    (pushWrite txn wr).Preserves (Capacity capacity) := by
  cases txn with
  | none => exact preserves_pure _
  | some id => exact unlogged fun _ => rfl

theorem deleteOld (txn : Option Nat) (tableId : Nat) (hit : ExecutorUpdate.Hit)
    (rollPtr : UndoPointer) :
    (ExecutorUpdate.deleteOld txn tableId hit rollPtr).Preserves (Capacity capacity) := by
  refine unloggedThen (fun _ => rfl) ?_
  intro _
  have loaded : (TablePage.load tableId hit.rid.pageId).Preserves (Capacity capacity) :=
    fun _ holds => holds
  apply loaded.bind
  intro tp
  apply (markDelete tp hit.rid _ rollPtr).bind
  intro _
  apply (logAndSetLsn _ _ _ _ _ tp).bind
  intro tp
  apply (flush tp.pageId).bind
  intro _
  apply (release tp.pageId).bind
  intro _
  exact (pushWrite txn _).bind fun _ => unlogged fun _ => rfl

theorem newUndoPage : newUndoPage.Preserves (Capacity capacity) := by
  apply newPage.bind
  exact fun _ => unloggedThen (fun _ => rfl) fun _ => preserves_pure _

theorem saveVersion (old : Record) : (saveVersion old).Preserves (Capacity capacity) := by
  apply preserves_getThen
  intro s
  split
  · exact preserves_pure _
  · rename_i undoLog found
    have opened : (openUndoPage undoLog).Preserves (Capacity capacity) := by
      unfold openUndoPage
      split
      · exact newUndoPage
      · exact unloggedThen (fun _ => rfl) fun _ => preserves_pure _
    have room : ∀ pageId, (makeUndoRoom pageId old.size).Preserves (Capacity capacity) := by
      intro pageId
      apply preserves_getThen
      intro s
      split
      · exact preserves_pure _
      · exact (release pageId).bind fun _ => newUndoPage
    apply opened.bind
    intro pageId
    apply (room pageId).bind
    intro pageId
    apply preserves_getThen
    intro s
    dsimp only
    split
    · exact (release pageId).bind fun _ => preserves_throw _
    · refine unloggedThen (fun _ => rfl) ?_
      exact fun _ => (release pageId).bind fun _ => preserves_pure _

theorem updateHit (txn : Option Nat) (tableId : Nat) (schema : List ColumnTypes)
    (hit : ExecutorUpdate.Hit) :
    (ExecutorUpdate.updateHit txn tableId schema hit).Preserves (Capacity capacity) := by
  apply (saveVersion hit.old).bind
  intro rollPtr
  apply preserves_liftThen
  intro payload
  apply (deleteOld txn tableId hit rollPtr).bind
  intro _
  apply (insertNewVersion txn tableId _).bind
  intro rid
  exact (pushWrite txn _).bind fun _ => unlogged fun _ => rfl

end Capacity

end Database

end YourSQL
