import YourSQL.Executor.PinBalance

/-! # How many rows a table has

Each counter is the number of live records of its table, from one statement to the next.
An insertion adds a live record and a deletion takes one away: what a statement deletes
is not deleted yet, and it is not dead, for only rollback kills and nobody writes over a
record whose writer has been rolled back. So no counter has to stop at zero.
-/

namespace YourSQL

namespace RecordStore

variable {σ : RecordStore} {rid : RID} {t : Nat} {record : Record}

/-- Each counter is the number of live records, and none has stopped at zero. -/
structure Tallied (σ : RecordStore) : Prop where
  counted : σ.Counted fun _ => 0
  unclamped : ∀ t, σ.clamped t = false

namespace Tallied

theorem gain (tallied : σ.Tallied) (before : ∀ u, rid ∉ σ.liveSet u) (live : record.isLive = true) :
    ((σ.put rid ⟨t, record⟩).addRow t).Tallied where
  counted := tallied.counted.gain before live
  unclamped := tallied.unclamped

/-- Where a live record is taken away, the counter is not zero. -/
theorem lose (tallied : σ.Tallied) (before : rid ∈ σ.liveSet t) (live : record.isLive = false) :
    ((σ.put rid ⟨t, record⟩).dropRow t).Tallied where
  counted := tallied.counted.lose before live
  unclamped u := by
    have one : 0 < (σ.liveSet t).ncard :=
      (Set.ncard_pos (tallied.counted.finite t)).mpr ⟨rid, before⟩
    have many : σ.numRows t ≠ 0 := by
      rw [tallied.counted.numRows]
      omega
    change Function.update σ.clamped t (σ.clamped t || decide (σ.numRows t = 0)) u = false
    rw [decide_eq_false many, tallied.unclamped, Bool.or_self, Function.update_apply]
    split
    · rfl
    · exact tallied.unclamped u

theorem markDead (tallied : σ.Tallied) (rid : RID) : (σ.markDead rid).Tallied where
  counted := tallied.counted.markDead rid
  unclamped := by
    unfold RecordStore.markDead
    cases found : σ.slot rid with
    | none => exact tallied.unclamped
    | some slot =>
        dsimp only
        split
        · rename_i live
          have member := (mem_liveSet_of_slot found).mpr ⟨rfl, live⟩
          exact (tallied.lose member (Record.isLive_killed _)).unclamped
        · exact tallied.unclamped

theorem restoreRecord (tallied : σ.Tallied) {slot : Slot} {header : RecordHeader}
    (found : σ.slot rid = some slot) (restorable : Restorable slot.record header) :
    (σ.restoreRecord rid header).Tallied where
  counted := tallied.counted.restoreRecord_of_restorable found restorable
  unclamped := by
    unfold RecordStore.restoreRecord
    rw [found]
    dsimp only
    split
    · exact tallied.unclamped
    · exact tallied.unclamped

end Tallied

end RecordStore

namespace Mvcc

variable {m m' : VersionStore} {trx : Nat}

/-- What statements delete is live. -/
theorem Step.tallied (step : Step trx m m') (guarded : Guarded m)
    (tallied : m.Tallied) : m'.Tallied := by
  cases step with
  | save stored free next => exact tallied
  | @delete rid t old pointer type stored free saved deletes =>
      have live : old.isLive = true := by
        cases dead : old.isDead with
        | false => simp [Record.isLive, free.alive, dead]
        | true =>
            obtain ⟨positive, aborted⟩ := guarded.buried rid _ stored dead
            rw [free.stands positive] at aborted
            cases aborted
      exact tallied.lose ((RecordStore.mem_liveSet_of_slot stored).mpr ⟨rfl, live⟩) (by simp)
  | @insert rid t record type event unused somewhere mine clean anchored inserts isWrite =>
      exact tallied.gain (RecordStore.not_mem_liveSet_of_none unused)
        (Record.isLive_of_flags_zero clean)
  | lose isWrite => exact tallied

/-- The deletions that are still to be undone stand as they were made. -/
structure Standing (trx : Nat) (σ : RecordStore) (entries : List WriteRecord) : Prop where
  deleted : ∀ wr ∈ entries, wr.type.inserts = false → ∃ (old : Record) (pointer : UndoPointer),
    old.toRecordHeader = wr.prevHeader ∧ old.isLive = true ∧
      σ.slot wr.rid = some ⟨wr.tableId, old.deleted trx pointer⟩
  nowhere : σ.slot ⟨0, 0⟩ = none
  once : entries.Pairwise fun earlier later => earlier.rid = later.rid →
    earlier.rid ≠ ⟨0, 0⟩ → earlier.type.inserts = true ∧ later.type.inserts = false

namespace Standing

variable {σ : RecordStore} {entries : List WriteRecord} {wr : WriteRecord}

/-- The last entry is undone elsewhere than where earlier ones have deleted. -/
theorem undo (standing : Standing trx σ (entries ++ [wr])) :
    Standing trx (Rollback.rollbackWrite σ wr) entries where
  deleted := by
    intro entry member deletes
    obtain ⟨old, pointer, header, live, stored⟩ :=
      standing.deleted entry (List.mem_append_left _ member) deletes
    refine ⟨old, pointer, header, live, ?_⟩
    have apart : entry.rid ≠ wr.rid := by
      intro same
      have somewhere : entry.rid ≠ ⟨0, 0⟩ := by
        intro zero
        rw [zero, standing.nowhere] at stored
        cases stored
      have once := (List.pairwise_append.mp standing.once).2.2
      have inserts := (once entry member wr (List.mem_singleton_self wr) same somewhere).1
      rw [deletes] at inserts
      cases inserts
    rw [Rollback.slot_rollbackWrite_of_ne σ apart]
    exact stored
  nowhere := Rollback.slot_rollbackWrite_none standing.nowhere
  once := (List.pairwise_append.mp standing.once).1

theorem tallied_last (standing : Standing trx σ (entries ++ [wr])) (tallied : σ.Tallied) :
    (Rollback.rollbackWrite σ wr).Tallied := by
  cases kind : wr.type.inserts with
  | true =>
      rw [Rollback.rollbackWrite_of_inserts kind]
      exact tallied.markDead wr.rid
  | false =>
      obtain ⟨old, pointer, header, live, stored⟩ := standing.deleted wr (by simp) kind
      rw [Rollback.rollbackWrite_of_deletes kind]
      apply tallied.restoreRecord stored
      rw [← header]
      have flags : old.isDel = false ∧ old.isDead = false := by
        simpa [Record.isLive] using live
      exact .inl ⟨Record.isDel_deleted .., flags⟩

theorem tallied (standing : Standing trx σ entries) (tallied : σ.Tallied) :
    (Rollback.rollbackWrites σ entries).Tallied := by
  induction entries using List.reverseRecOn generalizing σ with
  | nil => exact tallied
  | append_singleton entries wr ih =>
      rw [Rollback.rollbackWrites_snoc]
      exact ih standing.undo (standing.tallied_last tallied)

end Standing

/-- A transaction under way has deleted live records. -/
theorem Guarded.standing (guarded : Guarded m) (active : trx ∈ m.manager.activeTxns) :
    Standing trx m.toRecordStore (m.writeSet trx) where
  deleted := by
    intro wr member deletes
    obtain ⟨old, pointer, header, alive, stored, -⟩ :=
      (guarded.owns trx active).deleted wr member deletes
    refine ⟨old, pointer, header, ?_, stored⟩
    cases dead : old.isDead with
    | false => simp [Record.isLive, alive, dead]
    | true =>
        have buried := guarded.buried wr.rid _ stored ((Record.isDead_deleted ..).trans dead)
        have aborted : m.manager.isAborted trx = true := buried.2
        rw [guarded.manager.not_aborted_of_active active] at aborted
        cases aborted
  nowhere := guarded.nowhere
  once := (guarded.owns trx active).once

theorem Guarded.tallied_aborted (guarded : Guarded m) (active : trx ∈ m.manager.activeTxns)
    (tallied : m.Tallied) : (m.aborted trx).Tallied := (guarded.standing active).tallied tallied

theorem tallied_invariant : Invariant fun m => m.Tallied where
  step := fun step guarded tallied => step.tallied guarded tallied
  manage := fun tallied records _ => records ▸ tallied
  aborted := fun guarded active tallied => guarded.tallied_aborted active tallied

/-- An insertion under no transaction is entered in no write set. -/
theorem Guarded.deposit (guarded : Guarded m) {rid : RID} {t : Nat} {record : Record}
    (unused : m.slot rid = none) (somewhere : rid ≠ ⟨0, 0⟩) (clean : record.flags = 0)
    (wr : WriteRecord) {event : Event} (isWrite : IsWrite event) :
    Guarded (((m.put rid ⟨t, record⟩).addRow t).enterFor none wr event) := by
  let m' := ((m.put rid ⟨t, record⟩).addRow t).enterFor none wr event
  have slot : ∀ other, m'.slot other = if other = rid then some ⟨t, record⟩ else m.slot other :=
    fun other => VersionStore.slot_put m rid other _
  -- nobody is transaction 0
  have spares : Spares 0 m m' :=
    { activeTxns := rfl
      txnState := rfl
      readView := fun _ => rfl
      toKeeps := .of_undo rfl fun other _ found _ => by
        have apart : other ≠ rid := by
          rintro rfl
          rw [unused] at found
          cases found
        rw [slot, if_neg apart]
        exact found }
  exact
    { manager := guarded.manager.write rfl rfl rfl (fun _ => ⟨rfl, rfl⟩)
        (isWrite.committedOf m.journal) fun trx => isWrite.snapshotOf trx m.journal
      nowhere := by
        rw [slot, if_neg somewhere.symm]
        exact guarded.nowhere
      owns := fun v active =>
        have positive := (guarded.manager.issued v active).1
        (guarded.owns v active).spared active (Nat.ne_of_gt positive) spares rfl
      buried := by
        intro other found stored dead
        rw [slot] at stored
        split at stored
        · cases stored
          rw [Record.isDead, clean] at dead
          cases dead
        · exact guarded.buried other found stored dead }

end Mvcc

/-! ## The records of a chain -/

namespace Database

variable {s : Database} {pages : Nat → List Nat} {tableOf : Nat → Nat} {t : Nat}

/-- The records of a page with neither `RECORD_DEL` nor `RECORD_DEAD`. -/
def liveOn (s : Database) (p : Nat) : Nat := (s.page p).asTable.records.countP Record.isLive

private theorem countP_range' (records : List Record) (first : Nat) :
    (List.range' first records.length).countP
      (fun row => (records[row - first]?).any Record.isLive) = records.countP Record.isLive := by
  induction records generalizing first with
  | nil => rfl
  | cons record records ih =>
      have later : ∀ row ∈ List.range' (first + 1) records.length,
          ((record :: records)[row - first]?).any Record.isLive =
            (records[row - (first + 1)]?).any Record.isLive := by
        intro row member
        have above := (List.mem_range'_1.mp member).1
        have behind : row - first = row - (first + 1) + 1 := by omega
        rw [behind, List.getElem?_cons_succ]
      rw [List.length_cons, List.range'_succ, List.countP_cons, List.countP_cons, ← ih (first + 1),
        List.countP_congr fun row member => by rw [later row member], Nat.sub_self]
      rfl

theorem countP_pageRids (s : Database) (p : Nat) :
    (pageRids p 1 (s.rowCount p)).countP (fun rid => (s.tupleAt rid).any Record.isLive) =
      s.liveOn p := by
  have same : ∀ row ∈ List.range' 1 (s.rowCount p),
      (s.tupleAt ⟨p, row⟩).any Record.isLive =
        ((s.page p).asTable.records[row - 1]?).any Record.isLive := by
    intro row member
    cases row with
    | zero => simp at member
    | succ index => rfl
  rw [pageRids, Nat.add_sub_cancel, List.countP_map, liveOn, ← countP_range' _ 1]
  exact List.countP_congr fun row member => by rw [Function.comp_apply, same row member]

/-- The records of a table lie on its chain. -/
theorem Sound.ncard_liveSet (sound : s.Sound pages tableOf) (t : Nat) :
    ((s.store tableOf).liveSet t).ncard = ((pages t).map s.liveOn).sum := by
  let live : RID → Bool := fun rid => (s.tupleAt rid).any Record.isLive
  have members : (s.store tableOf).liveSet t =
      (((s.addresses (pages t)).filter live).toFinset : Set RID) := by
    ext rid
    rw [List.coe_toFinset, Set.mem_ofPred_eq, List.mem_filter, sound.mem_addresses]
    constructor
    · rintro ⟨record, stored, isLive⟩
      exact ⟨⟨record, stored⟩, by simpa [live, tupleAt_of_slot stored] using isLive⟩
    · rintro ⟨⟨record, stored⟩, isLive⟩
      exact ⟨record, stored, by simpa [live, tupleAt_of_slot stored] using isLive⟩
  have distinct := (sound.nodup_addresses t).filter live
  rw [members, Set.ncard_coe_finset, List.toFinset_card_of_nodup distinct,
    ← List.countP_eq_length_filter, addresses, List.countP_flatMap]
  congr 2
  funext p
  exact s.countP_pageRids p

end Database

/-! ## Clients -/

/-- Rows come in under a transaction or under none; only under a transaction they go. -/
def Command.Regular (s : Database) (command : Command) : Prop :=
  match command with
  | .insert txn _ _ => txn = none ∨ s.UnderWay txn
  | .select _ _ _ => True
  | command => command.Proper s

namespace Database

variable {s : Database} {pages : Nat → List Nat} {tableOf : Nat → Nat}

/-- Every counter is that of the records of its table. -/
structure Counts (s : Database) (pages : Nat → List Nat) (tableOf : Nat → Nat) : Prop extends
    s.Tidy pages tableOf where
  tallied : (s.store tableOf).Tallied

namespace Counts

theorem insert (counts : s.Counts pages tableOf) (t : Nat) (row : Except String (List UInt8)) :
    s.Copies ((Command.insert none t row).perform s) ∧
      ∃ pages tableOf, ((Command.insert none t row).perform s).Counts pages tableOf := by
  obtain ⟨result, s', pages', tableOf', held, ran, sound', -, swaps, ends⟩ :=
    run_insert counts.sound none t row
  have after : (Command.insert none t row).perform s = s' := congrArg Prod.snd ran
  rw [after]
  refine ⟨(swaps counts.unborn).copies, pages', tableOf', ?_⟩
  have unborn := (swaps counts.unborn).unborn counts.unborn
  generalize versions : s'.versions tableOf' = m at ends
  generalize s'.order pages' = order at ends
  have same : s'.store tableOf' = m.toRecordStore :=
    congrArg Mvcc.VersionStore.toRecordStore versions
  cases ends with
  | noTable => exact ⟨⟨⟨sound', versions ▸ counts.guarded⟩, unborn⟩, same ▸ counts.tallied⟩
  | unserialized => exact ⟨⟨⟨sound', versions ▸ counts.guarded⟩, unborn⟩, same ▸ counts.tallied⟩
  | large => exact ⟨⟨⟨sound', versions ▸ counts.guarded⟩, unborn⟩, same ▸ counts.tallied⟩
  | @stored payload rid known serialized small unused =>
      have somewhere : rid ≠ ⟨0, 0⟩ := by
        apply @Database.ne_zero_of_stored s' tableOf' rid
        rw [versions]
        exact (Mvcc.VersionStore.slot_put ..).trans (if_pos rfl)
      refine ⟨⟨⟨sound', ?_⟩, unborn⟩, ?_⟩
      · rw [versions]
        exact counts.guarded.deposit unused somewhere rfl _ ⟨by simp, rfl⟩
      · rw [same]
        exact counts.tallied.gain (RecordStore.not_mem_liveSet_of_none unused)
          (Record.isLive_of_flags_zero rfl)

theorem select (counts : s.Counts pages tableOf) (txn : Option Nat) (t : Nat)
    (filter : Option Filter) :
    s.Copies ((Command.select txn t filter).perform s) ∧
      ((Command.select txn t filter).perform s).Counts pages tableOf := by
  obtain ⟨held, swaps⟩ := counts.toTidy.select txn t filter
  obtain ⟨secure, tallied⟩ :=
    Mvcc.tallied_invariant.select counts.toSecure counts.tallied txn t filter
  exact ⟨swaps.copies, ⟨secure, swaps.unborn counts.unborn⟩, tallied⟩

theorem proper (counts : s.Counts pages tableOf) {command : Command}
    (proper : command.Proper s) :
    s.Copies (command.perform s) ∧ ∃ pages tableOf, (command.perform s).Counts pages tableOf := by
  obtain ⟨held, swaps⟩ := counts.toTidy.swaps proper
  obtain ⟨pages', tableOf', secure, tallied⟩ :=
    Mvcc.tallied_invariant.perform counts.toSecure proper counts.tallied
  exact ⟨swaps.copies, pages', tableOf', ⟨secure, swaps.unborn counts.unborn⟩, tallied⟩

theorem perform (counts : s.Counts pages tableOf) {command : Command}
    (regular : command.Regular s) :
    s.Copies (command.perform s) ∧ ∃ pages tableOf, (command.perform s).Counts pages tableOf := by
  cases command with
  | insert txn t row =>
      rcases regular with rfl | proper
      · exact counts.insert t row
      · exact counts.proper proper
  | select txn t filter =>
      obtain ⟨copies, counts'⟩ := counts.select txn t filter
      exact ⟨copies, _, _, counts'⟩
  | begin => exact counts.proper regular
  | refreshReadView trx => exact counts.proper regular
  | commit trx => exact counts.proper regular
  | abort trx => exact counts.proper regular
  | delete txn t filter => exact counts.proper regular
  | update txn t schema clauses filter => exact counts.proper regular

/-- A new table has no page and no row. -/
theorem addTable (counts : s.Counts pages tableOf) {table : TableEntry}
    (unknown : s.items table.id = none) : (s.addTable table.toMetaItem).Counts pages tableOf := by
  let s' := s.addTable table.toMetaItem
  have entry : ∀ t item, s'.items t = some item →
      t = table.id ∧ item = table.toMetaItem ∨ s.items t = some item := by
    intro t item found
    by_cases same : t = table.id
    · subst same
      exact .inl ⟨rfl, Option.some.inj (found.symm.trans (Function.update_self ..))⟩
    · exact .inr ((Function.update_of_ne same ..).symm.trans found)
  have noPage := counts.sound.layout.noItem table.id unknown
  have layout : Layout s' pages tableOf :=
    { counts.sound.layout with
      linked := by
        intro t item found
        rcases entry t item found with ⟨rfl, rfl⟩ | before
        · rw [noPage]
          rfl
        · exact counts.sound.layout.linked t item before
      last := by
        intro t item found
        rcases entry t item found with ⟨rfl, rfl⟩ | before
        · rw [noPage]
          rfl
        · exact counts.sound.layout.last t item before
      noItem := by
        intro t missing
        apply counts.sound.layout.noItem
        by_cases same : t = table.id
        · rw [same, unknown]
        · exact (Function.update_of_ne same ..).symm.trans missing }
  have store : s'.store tableOf = s.store tableOf := by
    have numRows : table.toMetaItem.numRows = (s.store tableOf).numRows table.id := by
      simp [Database.store, unknown, TableEntry.toMetaItem]
    have clamped : table.toMetaItem.clamped = (s.store tableOf).clamped table.id := by
      simp [Database.store, unknown, TableEntry.toMetaItem]
    have written := @store_setItem tableOf s table.id table.toMetaItem
    rw [numRows, clamped, Function.update_eq_self, Function.update_eq_self] at written
    exact written
  have versions : s'.versions tableOf = s.versions tableOf := by
    have undo : s'.undoRecord = s.undoRecord := rfl
    rw [Database.versions, store, undo]
    rfl
  exact
    { sound := ⟨layout, counts.sound.consistent.setItem table.id table.toMetaItem⟩
      guarded := versions ▸ counts.guarded
      unborn := counts.unborn
      tallied := store ▸ counts.tallied }

end Counts

/-- A new data file, in a process that has pinned no page before there is one. Its tables
    have no rows, and the meta page in the file holds them. -/
structure Initial (s : Database) : Prop extends s.Fresh where
  unborn : s.Unborn
  noRows : ∀ t item, s.items t = some item → item.numRows = 0 ∧ item.clamped = false
  written : s.metaPage s.items = s.items

theorem Initial.counts (initial : s.Initial) : s.Counts (fun _ => []) (fun _ => 0) := by
  have empty : ∀ t, (s.store fun _ => 0).liveSet t = ∅ := by
    intro t
    rw [Set.eq_empty_iff_forall_notMem]
    exact fun rid => RecordStore.not_mem_liveSet_of_none (initial.slot_eq_none (fun _ => 0) rid) t
  have noRows : ∀ t, (s.store fun _ => 0).numRows t = 0 ∧ (s.store fun _ => 0).clamped t = false := by
    intro t
    cases entry : s.items t with
    | none => simp [store, entry]
    | some item => simpa [store, entry] using initial.noRows t item entry
  exact
    { toSecure := initial.secure
      unborn := initial.unborn
      tallied :=
        { counted :=
            { finite := fun t => by simp [empty t]
              numRows := fun t => by simp [empty t, (noRows t).1] }
          unclamped := fun t => (noRows t).2 } }

/-- A run without a crash: commands of clients, and new tables, and no version of a row that
    an empty page could not hold. -/
inductive RowRun (start : Database) : Database → Prop
  | start : RowRun start start
  | perform {s : Database} (command : Command) : RowRun start s → command.Regular s →
      Fits (command.perform s).journal → RowRun start (command.perform s)
  | createTable {s : Database} (table : TableEntry) : RowRun start s → s.items table.id = none →
      RowRun start (s.addTable table.toMetaItem)

theorem RowRun.counts {start : Database} (initial : start.Initial) (run : RowRun start s) :
    start.Copies s ∧ ∃ pages tableOf, s.Counts pages tableOf := by
  induction run with
  | start => exact ⟨.refl start, _, _, initial.counts⟩
  | perform command _ regular _ ih =>
      obtain ⟨copies, pages, tableOf, counts⟩ := ih
      obtain ⟨copied, after⟩ := counts.perform regular
      exact ⟨copies.trans copied, after⟩
  | createTable table _ unknown ih =>
      obtain ⟨copies, pages, tableOf, counts⟩ := ih
      exact ⟨copies.trans (.writeMeta _ _), pages, tableOf, counts.addTable unknown⟩

/-- After every command of a run, the counter of each table is the number of live records on
    its chain. The meta page in the file has the same entries, and no counter has ever been
    stopped at zero. -/
theorem RowRun.rows_counted {start : Database} (initial : start.Initial) (run : RowRun start s) :
    s.metaPage start.items = s.items ∧
      ∀ t item, s.items t = some item → item.clamped = false ∧
        ∃ chain, Linked s.next INVALID_PAGE_ID item.firstPageId chain ∧
          item.numRows = (chain.map s.liveOn).sum := by
  obtain ⟨copies, pages, tableOf, counts⟩ := run.counts initial
  refine ⟨copies _ initial.written, ?_⟩
  intro t item entry
  have unclamped : item.clamped = false := by
    simpa [store, entry] using counts.tallied.unclamped t
  have numRows : item.numRows = ((s.store tableOf).liveSet t).ncard := by
    simpa [store, entry] using counts.tallied.counted.numRows t
  exact ⟨unclamped, pages t, counts.sound.layout.linked t item entry,
    numRows.trans (counts.sound.ncard_liveSet t)⟩

end Database

theorem oneTable_initial : oneTable.Initial where
  toFresh := oneTable_fresh
  unborn p above := by
    have inner : p ≠ META_PAGE_ID := (Nat.lt_of_lt_of_le oneTable_fresh.nextPageId above).ne'
    exact if_neg inner
  noRows t item found := by
    by_cases same : t = 1
    · subst same
      cases found
      exact ⟨rfl, rfl⟩
    · simp [oneTable, same] at found
  written := rfl

/-- A row came in under no transaction, and then one under transaction 1. It has deleted
    both, and that has been taken back. -/
def takenBack : Database :=
  oneTable.performAll [.insert none 1 (.ok [7]), .begin, .insert (some 1) 1 (.ok [8]),
    .delete (some 1) 1 none, .abort 1]

theorem takenBack_run : Database.RowRun oneTable takenBack := by
  unfold takenBack Database.performAll
  simp only [List.foldl_cons, List.foldl_nil]
  have opened : Database.RowRun oneTable oneTable := .start
  have first := opened.perform (.insert none 1 (.ok [7])) (.inl rfl) (by decide)
  have begun := first.perform .begin trivial (by decide)
  have second := begun.perform (.insert (some 1) 1 (.ok [8])) (.inr ⟨1, by decide, rfl⟩) (by decide)
  have deleted := second.perform (.delete (some 1) 1 none) ⟨1, by decide, rfl⟩
    (by decide +kernel)
  exact deleted.perform (.abort 1) trivial (by decide +kernel)

/-- Of the two records one counts. -/
theorem rows_counted_takenBack : ∃ item, takenBack.items 1 = some item ∧ item.numRows = 1 ∧
    item.clamped = false ∧ takenBack.rowCount 1 = 2 ∧
    ∃ chain, Linked takenBack.next INVALID_PAGE_ID item.firstPageId chain ∧
      item.numRows = (chain.map takenBack.liveOn).sum := by
  have known : (takenBack.items 1).map MetaItem.numRows = some 1 := by decide +kernel
  obtain ⟨item, entry, one⟩ := Option.map_eq_some_iff.mp known
  have counted := (takenBack_run.rows_counted oneTable_initial).2 1 item entry
  exact ⟨item, entry, one, counted.1, by decide +kernel, counted.2⟩

end YourSQL
