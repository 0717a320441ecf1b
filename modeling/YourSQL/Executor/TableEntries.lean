import YourSQL.Executor.Command
import YourSQL.Mvcc.VersionWalk

/-! # The tables there are

Statements and the ends of transactions change the entries of tables and add none. What a
table is called by is settled before a statement is run, so the tables that a client can
name stay the ones it could name at the start.
-/

namespace YourSQL

namespace Database

/-- The tables that have an entry. -/
def Lists (known : Nat → Bool) (s : Database) : Prop := ∀ t, (s.items t).isSome = known t

namespace Lists

open Program

variable {known : Nat → Bool}

/-- What leaves the entries alone. -/
theorem quiet {change : Database → Database} (items : ∀ s, (change s).items = s.items) :
    (modify change : Exec Unit).Preserves (Lists known) :=
  preserves_modify fun s holds t => by rw [items]; exact holds t

theorem quietThen {change : Database → Database} {f : Unit → Exec α}
    (items : ∀ s, (change s).items = s.items) (rest : ∀ a, (f a).Preserves (Lists known)) :
    (modify change >>= f).Preserves (Lists known) := (quiet items).bind rest

/-! ## Pages -/

theorem flush (id : Nat) : (flush id).Preserves (Lists known) := by
  apply preserves_getThen
  intro s
  split
  · exact preserves_throw _
  · exact quiet fun s => s.items_writeBack id

theorem release (id : Nat) : (release id).Preserves (Lists known) := by
  apply preserves_getThen
  intro s
  split
  · exact preserves_throw _
  · exact quiet fun s => (s.unpin id).items_writeBack id

theorem fetchPage (id : Nat) : (fetchPage id).Preserves (Lists known) := quiet fun _ => rfl

theorem newPage : newPage.Preserves (Lists known) := fun _ holds => holds

theorem load (tableId pageId : Nat) : (TablePage.load tableId pageId).Preserves (Lists known) :=
  fun _ holds => holds

theorem init (tableId pageId : Nat) : (TablePage.init tableId pageId).Preserves (Lists known) :=
  quietThen (fun _ => rfl) fun _ => preserves_pure _

/-- An entry is written over, and only where there is one. -/
theorem updateItem (tableId : Nat) (message : String) (change : MetaItem → MetaItem) :
    (updateItem tableId message change).Preserves (Lists known) := by
  apply preserves_get_bind
  intro s holds
  split
  · exact holds
  · rename_i item found
    have flushed : flushMeta.Preserves (Lists known) := by
      apply preserves_getThen
      intro s
      split
      · exact preserves_throw _
      · exact quiet fun _ => rfl
    apply flushed
    intro t
    by_cases same : t = tableId
    · subst same
      have here := holds t
      rw [found] at here
      simpa [setItem] using here
    · simpa [setItem, same] using holds t

/-! ## The log -/

theorem flushLog : flushLog.Preserves (Lists known) := by
  intro s holds
  obtain ⟨log, io, flushed, -⟩ := run_flushLog s
  rw [flushed]
  exact holds

theorem appendLogRecord (txId : Nat) (type : LogRecordType) (payload : Option LogDataPayload) :
    (appendLogRecord txId type payload).Preserves (Lists known) := by
  apply preserves_getThen
  intro s
  split
  · exact preserves_pure _
  · dsimp only
    refine quietThen (fun _ => rfl) ?_
    intro _
    split
    · exact preserves_throw _
    · have pushed : ∀ entry : LogEntry, (do
          modify fun s : Database => { s with log := s.log.map fun log =>
            { log with pending := log.pending ++ [entry] } }
          return entry.lsn : Exec Nat).Preserves (Lists known) := fun entry =>
        quietThen (fun _ => rfl) fun _ => preserves_pure _
      split
      · exact flushLog.bind fun _ => pushed _
      · exact pushed _

theorem logAndSetLsn (txn : Option Nat) (type : LogRecordType) (tableId : Nat) (rid : RID)
    (image : Option Record) (tp : TablePage) :
    (logAndSetLsn txn type tableId rid image tp).Preserves (Lists known) := by
  apply (appendLogRecord _ _ _).bind
  intro lsn
  split
  · exact preserves_pure _
  · exact quietThen (fun _ => rfl) fun _ => preserves_pure _

/-! ## Iterators -/

theorem loadPage (it : TableIterator) : it.loadPage.Preserves (Lists known) :=
  (fetchPage it.currentPageId).bind fun _ => (load _ _).bind fun _ => preserves_pure _

theorem nextPage (fuel : Nat) (it : TableIterator) :
    (TableIterator.nextPage fuel it).Preserves (Lists known) := by
  induction fuel generalizing it with
  | zero => exact preserves_throw _
  | succ fuel ih =>
      unfold TableIterator.nextPage
      apply (release it.currentPageId).bind
      intro _
      split
      · exact preserves_pure _
      · apply (loadPage _).bind
        intro it
        dsimp only
        split
        · exact ih _
        · exact preserves_pure _

theorem create (tableId : Nat) : (TableIterator.create tableId).Preserves (Lists known) := by
  have first : (getFirstPageId tableId).Preserves (Lists known) := by
    apply preserves_getThen
    intro s
    split
    · exact preserves_throw _
    · exact preserves_pure _
  apply first.bind
  intro firstPageId
  dsimp only
  split
  · exact preserves_pure _
  · apply (loadPage _).bind
    intro it
    split
    · exact preserves_getThen fun s => nextPage s.slotCount it
    · exact preserves_pure _

theorem current (it : TableIterator) : it.current.Preserves (Lists known) := by
  unfold TableIterator.current
  split
  · exact preserves_throw _
  · exact preserves_getThen fun _ => preserves_pure _

theorem advance (it : TableIterator) : it.advance.Preserves (Lists known) := by
  have touched : ∀ id, (touchPage id).Preserves (Lists known) := by
    intro id
    apply preserves_getThen
    intro s
    split
    · exact preserves_throw _
    · exact preserves_pure _
  unfold TableIterator.advance
  split
  · exact preserves_pure _
  · dsimp only
    split
    · exact preserves_getThen fun s => nextPage s.slotCount _
    · exact (touched _).bind fun _ => preserves_pure _

theorem whileNotEnd {round : TableIterator → β → Exec (TableIterator × β)}
    (each : ∀ it acc, (round it acc).Preserves (Lists known)) (fuel : Nat) (it : TableIterator)
    (acc : β) : (it.whileNotEnd round fuel acc).Preserves (Lists known) := by
  induction fuel generalizing it acc with
  | zero =>
      unfold TableIterator.whileNotEnd
      split
      · exact preserves_pure _
      · exact preserves_throw _
  | succ fuel ih =>
      unfold TableIterator.whileNotEnd
      split
      · exact preserves_pure _
      · exact (each it acc).bind fun next => ih next.1 next.2

/-! ## Rows -/

theorem openLastPage (tableId : Nat) (item : MetaItem) :
    (ExecutorInsert.openLastPage tableId item).Preserves (Lists known) := by
  unfold ExecutorInsert.openLastPage
  split
  · apply newPage.bind
    intro id
    apply (updateItem tableId _ _).bind
    intro _
    split
    · exact (updateItem tableId _ _).bind fun _ => init tableId id
    · exact init tableId id
  · exact (fetchPage _).bind fun _ => load _ _

theorem makeRoom (tp : TablePage) (tuple : Record) :
    (ExecutorInsert.makeRoom tp tuple).Preserves (Lists known) := by
  unfold ExecutorInsert.makeRoom
  split
  · exact preserves_pure _
  · apply newPage.bind
    intro id
    have linking : (tp.setNextPageId id).Preserves (Lists known) :=
      quietThen (fun _ => rfl) fun _ => preserves_pure _
    apply linking.bind
    intro linked
    apply (flush linked.pageId).bind
    intro _
    apply (release linked.pageId).bind
    intro _
    apply (init linked.tableId id).bind
    intro last
    exact (updateItem linked.tableId _ _).bind fun _ => preserves_pure _

theorem insertTuple (tp : TablePage) (record : Record) :
    (tp.insertTuple record).Preserves (Lists known) := by
  unfold TablePage.insertTuple
  split
  · exact preserves_pure _
  · refine quietThen (fun _ => rfl) ?_
    intro _
    refine quietThen (fun _ => rfl) ?_
    exact fun _ => (updateItem _ _ _).bind fun _ => preserves_pure _

theorem markDelete (tp : TablePage) (rid : RID) (trxId : Nat) (rollPtr : UndoPointer) :
    (tp.markDelete rid trxId rollPtr).Preserves (Lists known) := by
  apply preserves_getThen
  intro s
  dsimp only
  split
  · exact preserves_pure _
  · split
    · exact preserves_pure _
    · exact quietThen (fun _ => rfl) fun _ => updateItem _ _ _

theorem restoreRecord (tp : TablePage) (rid : RID) (header : RecordHeader) :
    (tp.restoreRecord rid header).Preserves (Lists known) := by
  apply preserves_getThen
  intro s
  dsimp only
  split
  · exact preserves_pure _
  · refine quietThen (fun _ => rfl) ?_
    intro _
    split
    · exact updateItem _ _ _
    · exact preserves_pure _

theorem markDead (tp : TablePage) (rid : RID) : (tp.markDead rid).Preserves (Lists known) := by
  apply preserves_getThen
  intro s
  dsimp only
  split
  · exact preserves_pure _
  · refine quietThen (fun _ => rfl) ?_
    intro _
    split
    · exact updateItem _ _ _
    · exact preserves_pure _

theorem pushWrite (txn : Option Nat) (wr : WriteRecord) :
    (pushWrite txn wr).Preserves (Lists known) := by
  cases txn with
  | none => exact preserves_pure _
  | some id => exact quiet fun _ => rfl

theorem newUndoPage : newUndoPage.Preserves (Lists known) :=
  newPage.bind fun _ => quietThen (fun _ => rfl) fun _ => preserves_pure _

theorem saveVersion (old : Record) : (saveVersion old).Preserves (Lists known) := by
  apply preserves_getThen
  intro s
  split
  · exact preserves_pure _
  · rename_i undoLog found
    have opened : (openUndoPage undoLog).Preserves (Lists known) := by
      unfold openUndoPage
      split
      · exact newUndoPage
      · exact (fetchPage _).bind fun _ => preserves_pure _
    have room : ∀ pageId, (makeUndoRoom pageId old.size).Preserves (Lists known) := by
      intro pageId
      apply preserves_getThen
      intro s
      split
      · exact preserves_pure _
      · exact (release pageId).bind fun _ => newUndoPage
    apply opened.bind
    intro pageId
    apply (room pageId).bind
    intro pageId
    apply preserves_getThen
    intro s
    dsimp only
    split
    · exact (release pageId).bind fun _ => preserves_throw _
    · refine quietThen (fun _ => rfl) ?_
      exact fun _ => (release pageId).bind fun _ => preserves_pure _

/-! ## Statements -/

theorem insert (txn : Option Nat) (tableId : Nat) (row : Except String (List UInt8)) :
    (ExecutorInsert.insert txn tableId row).Preserves (Lists known) := by
  apply preserves_getThen
  intro s
  split
  · exact preserves_throw _
  · rename_i item found
    apply (openLastPage tableId item).bind
    intro opened
    apply preserves_liftThen
    intro payload
    apply (makeRoom opened _).bind
    intro tp
    apply (insertTuple tp _).bind
    rintro ⟨inserted, tp⟩
    cases inserted with
    | none => exact preserves_throw _
    | some rid =>
        apply (logAndSetLsn _ _ _ _ _ tp).bind
        intro tp
        apply (flush tp.pageId).bind
        intro _
        apply (pushWrite txn _).bind
        exact fun _ => quietThen (fun _ => rfl) fun _ => release tp.pageId

theorem deleteRecord (txn : Option Nat) (tp : TablePage) (rid : RID) (old : Record) :
    (ExecutorDelete.deleteRecord txn tp rid old).Preserves (Lists known) := by
  apply (saveVersion old).bind
  intro rollPtr
  apply (markDelete tp rid _ rollPtr).bind
  intro _
  apply (logAndSetLsn _ _ _ _ _ tp).bind
  intro tp
  apply (pushWrite txn _).bind
  intro _
  apply (flush tp.pageId).bind
  exact fun _ => quietThen (fun _ => rfl) fun _ => preserves_pure _

theorem delete (txn : Option Nat) (tableId : Nat) (filter : Option Filter) :
    (ExecutorDelete.delete txn tableId filter).Preserves (Lists known) := by
  have round : ∀ it deleted, (ExecutorDelete.round txn filter it deleted).Preserves (Lists known) := by
    intro it deleted
    apply (current it).bind
    intro found
    cases found with
    | none => exact (advance it).bind fun _ => preserves_pure _
    | some record =>
        apply preserves_getThen
        intro s
        apply preserves_liftThen
        intro isTaken
        split
        · apply (deleteRecord txn _ _ record).bind
          exact fun _ => (advance _).bind fun _ => preserves_pure _
        · exact (advance it).bind fun _ => preserves_pure _
  apply (create tableId).bind
  exact fun it => preserves_getThen fun s => whileNotEnd round s.slotCount it 0

theorem deleteOld (txn : Option Nat) (tableId : Nat) (hit : ExecutorUpdate.Hit)
    (rollPtr : UndoPointer) :
    (ExecutorUpdate.deleteOld txn tableId hit rollPtr).Preserves (Lists known) := by
  apply (fetchPage hit.rid.pageId).bind
  intro _
  apply (load tableId hit.rid.pageId).bind
  intro tp
  apply (markDelete tp hit.rid _ rollPtr).bind
  intro _
  apply (logAndSetLsn _ _ _ _ _ tp).bind
  intro tp
  apply (flush tp.pageId).bind
  intro _
  apply (release tp.pageId).bind
  intro _
  exact (pushWrite txn _).bind fun _ => quiet fun _ => rfl

theorem insertNewVersion (txn : Option Nat) (tableId : Nat) (tuple : Record) :
    (ExecutorUpdate.insertNewVersion txn tableId tuple).Preserves (Lists known) := by
  apply preserves_getThen
  intro s
  apply (openLastPage tableId _).bind
  intro opened
  apply (makeRoom opened tuple).bind
  intro tp
  apply (insertTuple tp tuple).bind
  rintro ⟨inserted, tp⟩
  apply (logAndSetLsn _ _ _ _ _ tp).bind
  intro tp
  apply (flush tp.pageId).bind
  exact fun _ => (release tp.pageId).bind fun _ => preserves_pure _

theorem update (txn : Option Nat) (tableId : Nat) (schema : List ColumnTypes)
    (clauses : List ExecutorUpdate.SetClause) (filter : Option Filter) :
    (ExecutorUpdate.update txn tableId schema clauses filter).Preserves (Lists known) := by
  have round : ∀ it hits,
      (ExecutorUpdate.round txn schema clauses filter it hits).Preserves (Lists known) := by
    intro it hits
    apply (current it).bind
    intro found
    cases found with
    | none => exact (advance it).bind fun _ => preserves_pure _
    | some record =>
        apply preserves_getThen
        intro s
        apply preserves_liftThen
        intro isTaken
        split
        · apply preserves_liftThen
          exact fun _ => (advance it).bind fun _ => preserves_pure _
        · exact (advance it).bind fun _ => preserves_pure _
  have hit : ∀ hit, (ExecutorUpdate.updateHit txn tableId schema hit).Preserves (Lists known) := by
    intro hit
    apply (saveVersion hit.old).bind
    intro rollPtr
    apply preserves_liftThen
    intro payload
    apply (deleteOld txn tableId hit rollPtr).bind
    intro _
    apply (insertNewVersion txn tableId _).bind
    intro rid
    exact (pushWrite txn _).bind fun _ => quiet fun _ => rfl
  apply (create tableId).bind
  intro it
  apply preserves_getThen
  intro s
  apply (whileNotEnd round s.slotCount it []).bind
  exact fun hits => (preserves_forM hit hits).bind fun _ => preserves_pure _

/-- What is read on the way to a version changes no entry. -/
theorem select (txn : Option Nat) (tableId : Nat) (filter : Option Filter) :
    (ExecutorSeqScan.select txn tableId filter).Preserves (Lists known) := by
  have visible : ∀ physical,
      (ExecutorSeqScan.visibleVersion txn physical).Preserves (Lists known) := by
    intro physical s lists t
    rw [(visibleVersion_files txn physical s).1.items]
    exact lists t
  have round : ∀ it rows, (ExecutorSeqScan.round txn filter it rows).Preserves (Lists known) := by
    intro it rows
    apply (current it).bind
    intro found
    cases found with
    | none => exact (advance it).bind fun _ => preserves_pure _
    | some physical =>
        apply (advance it).bind
        intro it
        apply (visible physical).bind
        intro shown
        cases shown with
        | none => exact preserves_pure _
        | some version =>
            cases filter with
            | none => exact preserves_pure _
            | some filter =>
                apply preserves_liftThen
                intro value
                apply preserves_liftThen
                intro isMatch
                cases isMatch with
                | true => exact preserves_pure _
                | false => exact preserves_pure _
  apply (create tableId).bind
  exact fun it => preserves_getThen fun s => whileNotEnd round s.slotCount it []

/-! ## The ends of transactions -/

theorem forceControlLog (id : Nat) (type : LogRecordType) :
    (forceControlLog id type).Preserves (Lists known) := by
  apply preserves_getThen
  intro s
  split
  · exact (appendLogRecord id type Option.none).bind fun _ => flushLog
  · exact preserves_pure _

theorem commit (id : Nat) : (commitTransaction id).Preserves (Lists known) := by
  apply preserves_get_bind
  intro s holds
  split
  · exact holds
  · exact forceControlLog id .commit _ holds

theorem abort (id : Nat) : (abortTransaction id).Preserves (Lists known) := by
  have undo : ∀ wr, (rollbackWrite wr).Preserves (Lists known) := by
    intro wr
    apply (fetchPage wr.rid.pageId).bind
    intro _
    have undone : (undoWrite wr).Preserves (Lists known) := by
      apply (load wr.tableId wr.rid.pageId).bind
      intro tp
      cases type : wr.type with
      | insert => exact markDead tp wr.rid
      | updateInsertNew => exact markDead tp wr.rid
      | delete => exact restoreRecord tp wr.rid _
      | updateDeleteOld => exact restoreRecord tp wr.rid _
    apply undone.bind
    intro _
    exact (flush wr.rid.pageId).bind fun _ => release wr.rid.pageId
  have undoAll : ∀ writeSet, (rollbackWrites writeSet).Preserves (Lists known) := by
    intro writeSet
    apply preserves_getThen
    intro s
    split
    · exact preserves_forM undo writeSet.reverse
    · exact preserves_pure _
  apply preserves_getThen
  intro s
  split
  · exact preserves_throw _
  · apply (undoAll _).bind
    exact fun _ => quietThen (fun _ => rfl) fun _ => forceControlLog id .abort

end Lists

end Database

end YourSQL
