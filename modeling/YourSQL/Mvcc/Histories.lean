import YourSQL.Executor.Command
import YourSQL.Mvcc.DeleteRun
import YourSQL.Mvcc.ScanRun
import YourSQL.Mvcc.UpdateRun
import YourSQL.Mvcc.Withdrawal
import YourSQL.Transaction.AbortRestores

/-! # Histories

Commands of clients from an empty database on, one after another, each statement under
a transaction that has begun and not ended. No crash, and no version of a row that an
empty page could not hold. In every state the pages are laid out, and what they hold is
what the journal says.
-/

namespace YourSQL

open Mvcc (Rep ManagerInv)

/-- An empty database: tables without pages, and nobody has begun. -/
structure Database.Fresh (s : Database) : Prop where
  page : ∀ p, s.page p = .blank
  nextPageId : 1 ≤ s.nextPageId
  ends : ∀ t item, s.items t = some item → item.ends = (INVALID_PAGE_ID, INVALID_PAGE_ID)
  pinned : s.pins META_PAGE_ID ≠ 0
  txnManager : s.txnManager = {}
  undoLog : s.undoLog = some {}
  capacity : ∀ log, s.log = some log → LOG_BUFFER_SIZE ≤ log.capacity
  storage : s.storage = true
  journal : s.journal = []

/-- Who may be given as the transaction of a statement. -/
def Database.UnderWay (s : Database) (txn : Option Nat) : Prop :=
  ∃ trx ∈ s.txnManager.activeTxns, txn = some trx

/-- Statements and new read views are those of transactions under way. -/
def Command.Proper (s : Database) : Command → Prop
  | begin => True
  | refreshReadView trx => s.UnderWay (some trx)
  | commit _ => True
  | abort _ => True
  | insert txn _ _ => s.UnderWay txn
  | delete txn _ _ => s.UnderWay txn
  | update txn _ _ _ _ => s.UnderWay txn
  | select txn _ _ => s.UnderWay txn

/-- The states that clients can lead to. -/
inductive History : Database → Prop
  | start {s : Database} : s.Fresh → History s
  | perform {s : Database} (command : Command) : History s → command.Proper s →
      Fits (command.perform s).journal → History (command.perform s)

/-- Commands that may follow one another. -/
def Database.Admits (s : Database) : List Command → Prop
  | [] => True
  | command :: rest =>
      command.Proper s ∧ Fits (command.perform s).journal ∧ (command.perform s).Admits rest

theorem History.performAll {s : Database} (history : History s) {commands : List Command}
    (admits : s.Admits commands) : History (s.performAll commands) := by
  induction commands generalizing s with
  | nil => exact history
  | cons command rest ih =>
      obtain ⟨proper, fits, admits⟩ := admits
      exact ih (history.perform command proper fits) admits

/-- The pages are laid out, and hold what the journal says. -/
def Database.Intact (s : Database) : Prop :=
  ∃ pages tableOf, s.Sound pages tableOf ∧ Rep (s.versions tableOf)

variable {s s' : Database} {pages : Nat → List Nat} {tableOf : Nat → Nat} {trx : Nat}

/-! ## The start -/

theorem Database.Fresh.sound (fresh : s.Fresh) : s.Sound (fun _ => []) (fun _ => 0) where
  layout :=
    { positive := fresh.nextPageId
      blank := fun p _ => fresh.page p
      linked := fun t item found => congrArg Prod.fst (fresh.ends t item found)
      last := fun t item found => congrArg Prod.snd (fresh.ends t item found)
      noItem := fun _ _ => rfl
      member := fun t p => by simp [fresh.page, PageData.table?]
      nodup := fun _ => List.nodup_nil
      undoLog := ⟨{}, fresh.undoLog, .inl rfl⟩
      offsets := fun p image page => by simp [fresh.page] at page
      newest := fun undoLog p _ here => by simp [fresh.page, PageData.undo?] at here
      capacity := fresh.capacity
      storage := fresh.storage }
  consistent :=
    { header := fun p image page => by simp [fresh.page] at page
      item := fun p image page => by simp [fresh.page] at page
      pinned := fresh.pinned }

theorem Mvcc.managerInv_nil : ManagerInv {} [] where
  issued := by simp
  issuedCommitted := by simp
  active := by simp
  committed := by simp
  total := by
    intro v positive below
    change v < 1 at below
    omega
  next := le_rfl
  unissued := fun _ _ => rfl
  state := by simp
  transitive := by simp
  views := by simp

/-- No record is stored yet. -/
theorem Database.Fresh.slot_eq_none (fresh : s.Fresh) (tableOf : Nat → Nat) (rid : RID) :
    (s.versions tableOf).slot rid = none := by
  obtain ⟨p, row⟩ := rid
  change (s.store tableOf).slot ⟨p, row⟩ = none
  cases row <;> simp [store, fresh.page, PageData.asTable, TableImage.slot]

theorem Database.Fresh.intact (fresh : s.Fresh) : s.Intact := by
  refine ⟨_, _, fresh.sound, ?_⟩
  have rows : (s.versions fun _ => 0).rows = [] := by
    change Mvcc.rowsOf s.journal = []
    rw [fresh.journal]
    rfl
  exact
    { manager := by
        change ManagerInv s.txnManager s.journal
        rw [fresh.txnManager, fresh.journal]
        exact Mvcc.managerInv_nil
      nonempty := by simp [rows]
      stored := by simp [rows]
      distinct := by simp [Mvcc.VersionStore.rids, rows]
      others := by simp [fresh.slot_eq_none]
      follows := by simp [rows]
      known := by simp [rows]
      writeSets := by
        change ∀ trx ∈ s.txnManager.activeTxns, _
        simp [fresh.txnManager] }

/-- A new data file with one table. -/
def oneTable : Database where
  items := Function.update (fun _ => none) 1 (some { tableId := 1, tableName := "t" })

theorem oneTable_fresh : oneTable.Fresh where
  page _ := rfl
  nextPageId := le_rfl
  ends t item found := by
    by_cases same : t = 1
    · subst same
      cases found
      rfl
    · simp [oneTable, same] at found
  pinned := by decide
  txnManager := rfl
  undoLog := rfl
  capacity log found := by
    cases found
    exact le_rfl
  storage := rfl
  journal := rfl

/-! ## Begin, new read views, Commit and Abort -/

/-- What changes no page leaves every record where it is. -/
theorem Database.versions_manage (page : s'.page = s.page) (items : s'.items = s.items) :
    s'.versions tableOf =
      { s.versions tableOf with manager := s'.txnManager, journal := s'.journal } := by
  have undo : s'.undoRecord = s.undoRecord := by
    funext pointer
    rw [Database.undoRecord, page, Database.undoRecord]
  simp only [Database.versions, Database.store_congr page items, undo]

/-- The log may have grown. -/
theorem Database.Sound.manage (sound : s.Sound pages tableOf) (page : s'.page = s.page)
    (items : s'.items = s.items) (nextPageId : s'.nextPageId = s.nextPageId)
    (undoLog : s'.undoLog = s.undoLog)
    (capacity : s'.log.map LogManager.capacity = s.log.map LogManager.capacity)
    (storage : s'.storage = s.storage) (pins : s'.pins = s.pins) : s'.Sound pages tableOf :=
  sound.same (.of_same page items nextPageId undoLog capacity storage)
    (sound.consistent.congr page items (pins ▸ sound.consistent.pinned))

theorem Database.Sound.fits_control (sound : s.Sound pages tableOf) (log : LogManager)
    (found : s.log = some log) : kLogHeaderBytes ≤ log.capacity := by
  have capacity := sound.layout.capacity log found
  simp only [LOG_BUFFER_SIZE, kLogHeaderBytes] at capacity ⊢
  omega

namespace Mvcc.VersionStore

/-- The store after the commands that change no record. -/
def viewed (m : VersionStore) (trx : Nat) : VersionStore :=
  { m with
    manager := m.manager.setReadView trx (m.manager.createReadView trx)
    journal := m.journal ++ [.view trx] }

def begun (m : VersionStore) : VersionStore :=
  { m with manager := m.manager.beginAllocate.2 }.viewed m.manager.nextTxid

def committed (m : VersionStore) (trx : Nat) : VersionStore :=
  { m with
    manager := m.manager.finish trx .committed
    journal := m.journal ++ [.commit trx] }

def aborted (m : VersionStore) (trx : Nat) : VersionStore :=
  { m with
    toRecordStore := Rollback.rollbackWrites m.toRecordStore (m.writeSet trx)
    manager := m.manager.finish trx .aborted
    journal := m.journal ++ [.abort trx] }

end Mvcc.VersionStore

open Mvcc (VersionStore)

theorem begin_versions (sound : s.Sound pages tableOf) :
    (Command.begin.perform s).Sound pages tableOf ∧
      (Command.begin.perform s).versions tableOf = (s.versions tableOf).begun :=
  ⟨sound.manage rfl rfl rfl rfl rfl rfl rfl, Database.versions_manage rfl rfl⟩

theorem refreshReadView_versions (sound : s.Sound pages tableOf) (trx : Nat) :
    ((Command.refreshReadView trx).perform s).Sound pages tableOf ∧
      ((Command.refreshReadView trx).perform s).versions tableOf =
        (s.versions tableOf).viewed trx :=
  ⟨sound.manage rfl rfl rfl rfl rfl rfl rfl, Database.versions_manage rfl rfl⟩

theorem run_commitTransaction (sound : s.Sound pages tableOf) {trx : Nat}
    (active : trx ∈ s.txnManager.activeTxns) :
    ∃ s', (commitTransaction trx).run s = (.ok ⟨⟩, s') ∧ s'.Sound pages tableOf ∧
      s'.versions tableOf = (s.versions tableOf).committed trx ∧ s.Swaps [] s' [] := by
  let s₁ : Database := { s with txnManager := s.txnManager.finish trx .committed }.enter (.commit trx)
  obtain ⟨log, io, forced, capacity, copies⟩ :=
    run_forceControlLog s₁ trx .commit sound.fits_control
  let s₂ : Database := { s₁ with log := log, io := io }
  refine ⟨s₂, ?_, sound.manage rfl rfl rfl rfl capacity rfl rfl, Database.versions_manage rfl rfl,
    @Database.Swaps.of_pins s s₂ rfl le_rfl copies []⟩
  unfold commitTransaction
  rw [Program.run_get_bind, TransactionManager.commitSection, if_pos active]
  dsimp only
  rw [Program.run_bind_of_ok rfl, forced]

theorem commit_versions (sound : s.Sound pages tableOf) (trx : Nat) :
    ((Command.commit trx).perform s).Sound pages tableOf ∧
      ((Command.commit trx).perform s).versions tableOf =
        (if trx ∈ s.txnManager.activeTxns then (s.versions tableOf).committed trx
        else s.versions tableOf) ∧
      s.Swaps [] ((Command.commit trx).perform s) [] := by
  unfold Command.perform
  dsimp only
  by_cases active : trx ∈ s.txnManager.activeTxns
  · obtain ⟨s', ran, sound', versions, swaps⟩ := run_commitTransaction sound active
    rw [if_pos active, ran]
    exact ⟨sound', versions, swaps⟩
  · unfold commitTransaction
    rw [Program.run_get_bind, TransactionManager.commitSection, if_neg active, if_neg active]
    exact ⟨sound, rfl, .refl s []⟩

namespace Database.SameLayout

variable {s₀ : Database}

theorem rollbackWrite (wr : WriteRecord) : (rollbackWrite wr).Preserves s₀.SameLayout := by
  have undone : (undoWrite wr).Preserves s₀.SameLayout := by
    apply Program.preserves_getThen
    intro s
    cases type : wr.type with
    | insert => exact markDead _ wr.rid
    | updateInsertNew => exact markDead _ wr.rid
    | delete => exact restoreRecord _ wr.rid _
    | updateDeleteOld => exact restoreRecord _ wr.rid _
  apply (fetchPage wr.rid.pageId).bind
  intro _
  apply undone.bind
  intro _
  apply (flush wr.rid.pageId).bind
  exact fun _ => release wr.rid.pageId

end Database.SameLayout

/-- ABORT, where the write set names the tables of the records it mentions. -/
theorem abort_versions (sound : s.Sound pages tableOf) {trx : Nat}
    (tables : ∀ wr ∈ (s.versions tableOf).writeSet trx, ∀ slot,
      (s.versions tableOf).slot wr.rid = some slot → wr.tableId = slot.tableId) :
    ((Command.abort trx).perform s).Sound pages tableOf ∧
      ((Command.abort trx).perform s).versions tableOf =
        (if trx ∈ s.txnManager.activeTxns then (s.versions tableOf).aborted trx
        else s.versions tableOf) ∧
      s.Swaps [] ((Command.abort trx).perform s) [] := by
  unfold Command.perform abortTransaction
  dsimp only
  rw [Program.run_get_bind, TransactionManager.abortLookup]
  by_cases active : trx ∈ s.txnManager.activeTxns
  · rw [if_pos active, if_pos active]
    let writeSet := (s.txnManager.transaction trx).writeSet
    have placed : ∀ wr ∈ writeSet, ∀ slot, (s.store tableOf).slot wr.rid = some slot →
        wr.tableId = tableOf wr.rid.pageId := by
      intro wr member slot found
      obtain ⟨image, page, here, of_table⟩ := Database.exists_image_of_slot found
      exact (tables wr member slot found).trans of_table
    obtain ⟨s₁, undone, store, consistent, rest⟩ :=
      AbortRestores.run_rollbackWrites sound.consistent placed
    have same : s.SameLayout s₁ := by
      have kept := Program.preserves_forM (fun wr => @Database.SameLayout.rollbackWrite s wr)
        writeSet.reverse s (.refl s)
      rw [undone] at kept
      exact kept
    have undoing : (rollbackWrites writeSet).run s = (.ok ⟨⟩, s₁) := by
      unfold rollbackWrites
      rw [Program.run_get_bind, if_pos sound.layout.storage]
      exact undone
    have sound₁ := sound.same same consistent
    let s₂ := { s₁ with txnManager := s₁.txnManager.abortFinish trx }.enter (.abort trx)
    obtain ⟨log, io, forced, capacity, copies⟩ :=
      run_forceControlLog s₂ trx .abort sound₁.fits_control
    dsimp only
    rw [Program.run_bind_of_ok undoing, Program.run_bind_of_ok rfl, forced]
    let s₃ : Database := { s₂ with log := log, io := io }
    have store : s₃.store tableOf = Rollback.rollbackWrites (s.store tableOf) writeSet := store
    have undo : s₃.undoRecord = s.undoRecord := same.undoRecord
    have manager : s₃.txnManager = s.txnManager.finish trx .aborted :=
      congrArg (·.finish trx .aborted) rest.txnManager
    have journal : s₃.journal = s.journal ++ [.abort trx] :=
      congrArg (fun journal => journal ++ [Event.abort trx]) rest.journal
    refine ⟨sound₁.manage rfl rfl rfl rfl capacity rfl rfl, ?_, ?_⟩
    · change s₃.versions tableOf = _
      rw [Database.versions, store, undo, manager, journal]
      rfl
    · have written : s.Copies s₃ := rest.copies.trans copies
      exact @Database.Swaps.of_pins s s₃ rest.pins (le_of_eq same.nextPageId.symm) written []
  · rw [if_neg active, if_neg active]
    exact ⟨sound, rfl, .refl s []⟩

namespace Database.Intact

theorem begin (intact : s.Intact) : (Command.begin.perform s).Intact := by
  obtain ⟨pages, tableOf, sound, rep⟩ := intact
  obtain ⟨sound', versions⟩ := begin_versions sound
  exact ⟨pages, tableOf, sound', versions ▸ rep.begin⟩

theorem refreshReadView (intact : s.Intact) (active : trx ∈ s.txnManager.activeTxns) :
    ((Command.refreshReadView trx).perform s).Intact := by
  obtain ⟨pages, tableOf, sound, rep⟩ := intact
  obtain ⟨sound', versions⟩ := refreshReadView_versions sound trx
  exact ⟨pages, tableOf, sound', versions ▸ rep.view active⟩

theorem commit (intact : s.Intact) (trx : Nat) : ((Command.commit trx).perform s).Intact := by
  obtain ⟨pages, tableOf, sound, rep⟩ := intact
  obtain ⟨sound', versions, -⟩ := commit_versions sound trx
  refine ⟨pages, tableOf, sound', ?_⟩
  rw [versions]
  split
  · rename_i active
    exact rep.commit active
  · exact rep

theorem abort (intact : s.Intact) (trx : Nat) : ((Command.abort trx).perform s).Intact := by
  obtain ⟨pages, tableOf, sound, rep⟩ := intact
  by_cases active : trx ∈ s.txnManager.activeTxns
  · obtain ⟨sound', versions, -⟩ := @abort_versions s pages tableOf sound trx (by
      intro wr member slot found
      obtain ⟨slot', found', table⟩ := (rep.writeSets trx active).tables wr member
      rw [found] at found'
      cases found'
      exact table)
    refine ⟨pages, tableOf, sound', ?_⟩
    rw [versions, if_pos active]
    exact rep.abort active
  · refine ⟨pages, tableOf, ?_⟩
    unfold Command.perform abortTransaction
    dsimp only
    rw [Program.run_get_bind, TransactionManager.abortLookup, if_neg active]
    exact ⟨sound, rep⟩

end Database.Intact

/-! ## Statements -/

namespace Database.Intact

variable {t : Nat}

theorem pool (rep : Rep (s.versions tableOf)) (pool : s.PoolOnly s')
    (sound' : s'.Sound pages tableOf) : s'.Intact :=
  ⟨pages, tableOf, sound', pool.versions tableOf ▸ rep⟩

theorem insert (intact : s.Intact) (active : trx ∈ s.txnManager.activeTxns)
    {row : Except String (List UInt8)}
    (fits : Fits ((Command.insert (some trx) t row).perform s).journal) :
    ((Command.insert (some trx) t row).perform s).Intact := by
  obtain ⟨pages, tableOf, sound, rep⟩ := intact
  obtain ⟨result, s', pages', tableOf', held, ran, sound', -, -, ends⟩ :=
    run_insert sound (some trx) t row
  rw [Command.perform, ran] at fits ⊢
  generalize versions : s'.versions tableOf' = m at ends
  generalize s'.order pages' = order at ends
  cases ends with
  | noTable => exact ⟨pages', tableOf', sound', versions ▸ rep⟩
  | unserialized => exact ⟨pages', tableOf', sound', versions ▸ rep⟩
  | large => exact ⟨pages', tableOf', sound', versions ▸ rep⟩
  | @stored payload rid known serialized small free =>
      have entered : s'.journal = s.journal ++ [.insert trx t rid payload] :=
        congrArg Mvcc.VersionStore.journal versions
      rw [entered, fits_append, fits_singleton] at fits
      refine ⟨pages', tableOf', sound', ?_⟩
      rw [versions, tupleOf_eq _ fits.2]
      exact (rep.insert active free t payload).addRow t

theorem delete (intact : s.Intact) (active : trx ∈ s.txnManager.activeTxns)
    (filter : Option Filter) : ((Command.delete (some trx) t filter).perform s).Intact := by
  obtain ⟨pages, tableOf, sound, rep⟩ := intact
  apply Program.wp.state
  apply (wp_delete sound rep active t filter).mono
  · exact fun _ _ deleting => ⟨pages, tableOf, deleting.sound, deleting.rep⟩
  · rintro _ _ (raised | ⟨-, rfl⟩)
    · exact ⟨pages, tableOf, raised.sound, raised.rep⟩
    · exact ⟨pages, tableOf, sound, rep⟩

theorem select (intact : s.Intact) (active : trx ∈ s.txnManager.activeTxns)
    (filter : Option Filter) : ((Command.select (some trx) t filter).perform s).Intact := by
  obtain ⟨pages, tableOf, sound, rep⟩ := intact
  apply Program.wp.state
  apply (wp_select sound rep active t filter).mono
  · exact fun _ _ scanning => .pool rep scanning.pool scanning.sound
  · rintro _ _ (raised | ⟨-, rfl⟩)
    · exact .pool rep raised.pool raised.sound
    · exact ⟨pages, tableOf, sound, rep⟩

theorem update (intact : s.Intact) (active : trx ∈ s.txnManager.activeTxns)
    {schema : List ColumnTypes} {clauses : List ExecutorUpdate.SetClause} {filter : Option Filter}
    (fits : Fits ((Command.update (some trx) t schema clauses filter).perform s).journal) :
    ((Command.update (some trx) t schema clauses filter).perform s).Intact := by
  obtain ⟨pages, tableOf, sound, rep⟩ := intact
  revert fits
  apply @Program.wp.state _ _ _ _ s fun s' => Fits s'.journal → s'.Intact
  apply (wp_update sound rep active t schema clauses filter).mono
  · rintro _ s' ⟨hits, -, updating⟩ fits
    obtain ⟨pages', tableOf', sound', -, intact⟩ := updating.intact
    exact ⟨pages', tableOf', sound', (intact fits).1⟩
  · rintro _ s' (⟨-, rfl⟩ | raised | ⟨hits, -, raised⟩) fits
    · exact ⟨pages, tableOf, sound, rep⟩
    · exact .pool rep raised.pool raised.sound
    · obtain ⟨pages', tableOf', sound', intact⟩ := raised.intact
      exact ⟨pages', tableOf', sound', intact fits⟩

end Database.Intact

/-- Every state of a history is intact. -/
theorem History.intact (history : History s) : s.Intact := by
  induction history with
  | start fresh => exact fresh.intact
  | perform command history proper fits ih =>
      cases command with
      | begin => exact ih.begin
      | refreshReadView trx =>
          obtain ⟨_, active, ⟨⟩⟩ := proper
          exact ih.refreshReadView active
      | commit trx => exact ih.commit trx
      | abort trx => exact ih.abort trx
      | insert txn t row =>
          obtain ⟨trx, active, rfl⟩ := proper
          exact ih.insert active fits
      | delete txn t filter =>
          obtain ⟨trx, active, rfl⟩ := proper
          exact ih.delete active filter
      | update txn t schema clauses filter =>
          obtain ⟨trx, active, rfl⟩ := proper
          exact ih.update active fits
      | select txn t filter =>
          obtain ⟨trx, active, rfl⟩ := proper
          exact ih.select active filter

end YourSQL
