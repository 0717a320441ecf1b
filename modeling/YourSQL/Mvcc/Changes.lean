import YourSQL.Mvcc.VersionStore

/-! # What commands do to the store of versions

Each command is one change of the store and one event in the journal, and keeps them
in step. The writes of a statement touch one row; what the transactions under way
know about other rows stays as it is.
-/

namespace YourSQL.Mvcc

open Rollback (inserted touched)

namespace VersionStore

def put (m : VersionStore) (rid : RID) (slot : Slot) : VersionStore :=
  { m with toRecordStore := m.toRecordStore.put rid slot }

def addRow (m : VersionStore) (t : Nat) : VersionStore :=
  { m with toRecordStore := m.toRecordStore.addRow t }

def dropRow (m : VersionStore) (t : Nat) : VersionStore :=
  { m with toRecordStore := m.toRecordStore.dropRow t }

/-- A write is entered in the write set and in the journal. -/
def enter (m : VersionStore) (trx : Nat) (wr : WriteRecord) (event : Event) : VersionStore :=
  { m with
    manager := m.manager.pushWrite trx wr
    journal := m.journal ++ [event] }

/-- The same for a statement that may be under no transaction. -/
def enterFor (m : VersionStore) (txn : Option Nat) (wr : WriteRecord) (event : Event) :
    VersionStore :=
  { m with
    manager := m.manager.pushWriteFor txn wr
    journal := m.journal ++ [event] }

/-- A version is saved in the undo log. -/
def save (m : VersionStore) (pointer : UndoPointer) (record : Record) : VersionStore :=
  { m with undo := Function.update m.undo pointer (some record) }

@[simp] theorem undo_save_self (m : VersionStore) (pointer : UndoPointer) (record : Record) :
    (m.save pointer record).undo pointer = some record := by
  simp [save]

theorem extends_save {m : VersionStore} {pointer : UndoPointer} (free : m.undo pointer = none)
    (record : Record) : m.Extends (m.save pointer record) where
  records := rfl
  undo other record' found := by
    have apart : other ≠ pointer := by
      rintro rfl
      rw [free] at found
      cases found
    exact (Function.update_of_ne apart ..).trans found
  manager := rfl
  journal := rfl

theorem writeSet_enter (m : VersionStore) (trx : Nat) (wr : WriteRecord) (event : Event)
    (trx' : Nat) :
    (m.enter trx wr event).writeSet trx' =
      if trx' = trx then m.writeSet trx ++ [wr] else m.writeSet trx' := by
  by_cases same : trx' = trx
  · subst same
    simp [writeSet, enter, TransactionManager.pushWrite]
  · simp [writeSet, enter, TransactionManager.pushWrite, same]

theorem mem_writeSet_enter {m : VersionStore} {trx t : Nat} {wr entry : WriteRecord} {event : Event} :
    entry ∈ (m.enter trx wr event).writeSet t ↔
      entry ∈ m.writeSet t ∨ (t = trx ∧ entry = wr) := by
  rw [writeSet_enter]
  split
  · rename_i own
    simp [own]
  · rename_i other
    simp [other]

theorem inserted_enter {m : VersionStore} {trx t : Nat} {wr : WriteRecord} {event : Event}
    {rid : RID} :
    inserted ((m.enter trx wr event).writeSet t) rid ↔
      inserted (m.writeSet t) rid ∨ (t = trx ∧ wr.rid = rid ∧ wr.type.inserts = true) := by
  rw [writeSet_enter]
  split
  · rename_i own
    simp [own]
  · rename_i other
    simp [other]

theorem ordered_enter {m : VersionStore} {trx t : Nat} {wr : WriteRecord} {event : Event}
    (ordered : Ordered (m.writeSet t))
    (fresh : wr.type.inserts = true → ∀ entry ∈ m.writeSet t, entry.rid ≠ wr.rid) :
    Ordered ((m.enter trx wr event).writeSet t) := by
  rw [writeSet_enter]
  split
  · rename_i own
    subst own
    exact ordered.snoc fresh
  · exact ordered

@[simp] theorem rows_enter (m : VersionStore) (trx : Nat) (wr : WriteRecord) (event : Event) :
    (m.enter trx wr event).rows = applyEvent m.rows event := by
  simp [rows, enter]

@[simp] theorem slot_addRow (m : VersionStore) (t : Nat) : (m.addRow t).slot = m.slot := rfl

@[simp] theorem slot_dropRow (m : VersionStore) (t : Nat) : (m.dropRow t).slot = m.slot := rfl

theorem slot_put (m : VersionStore) (rid other : RID) (slot : Slot) :
    (m.put rid slot).slot other = if other = rid then some slot else m.slot other := by
  simp [put, RecordStore.put, Function.update_apply]

end VersionStore

variable {m : VersionStore} {trx : Nat}

/-- Row changes are neither views nor commits. -/
def IsWrite (event : Event) : Prop :=
  (∀ trx, event ≠ .view trx) ∧ committedOf [event] = []

theorem IsWrite.snapshotOf {event : Event} (isWrite : IsWrite event) (trx : Nat)
    (journal : List Event) : snapshotOf trx (journal ++ [event]) = Mvcc.snapshotOf trx journal :=
  snapshotOf_snoc_of_ne (isWrite.1 trx) journal

theorem IsWrite.committedOf {event : Event} (isWrite : IsWrite event) (journal : List Event) :
    committedOf (journal ++ [event]) = Mvcc.committedOf journal := by
  rw [committedOf_snoc, isWrite.2, List.append_nil]

theorem ManagerInv.enter {manager : TransactionManager} {journal : List Event}
    (inv : ManagerInv manager journal) (trx : Nat) (wr : WriteRecord) {event : Event}
    (isWrite : IsWrite event) :
    ManagerInv (manager.pushWrite trx wr) (journal ++ [event]) := by
  refine inv.write rfl rfl rfl ?_ ?_ ?_
  · intro v
    by_cases same : v = trx
    · subst same
      simp [TransactionManager.pushWrite]
    · simp [TransactionManager.pushWrite, same]
  · exact isWrite.committedOf journal
  · exact fun t => isWrite.snapshotOf t journal

namespace Rep

/-- Every version is stored. -/
theorem slot_of_mem_rids (rep : Rep m) {rid : RID} (member : rid ∈ m.rids) :
    ∃ slot, m.slot rid = some slot := by
  obtain ⟨row, inRows, inRow⟩ := List.mem_flatMap.mp member
  obtain ⟨version, inVersions, rfl⟩ := List.mem_map.mp inRow
  obtain ⟨writer, older, position⟩ := @exists_position row.deletedBy _ _ inVersions
  obtain ⟨record, found, _⟩ := rep.stored row inRows writer version older position
  exact ⟨_, found⟩

theorem extendUndo (rep : Rep m) {undo : UndoPointer → Option Record}
    (grown : ∀ pointer record, m.undo pointer = some record → undo pointer = some record) :
    Rep { m with undo := undo } where
  manager := rep.manager
  nonempty := rep.nonempty
  stored row member writer version older position := by
    obtain ⟨record, found, recordOf⟩ := rep.stored row member writer version older position
    exact ⟨record, found, recordOf.mono grown⟩
  distinct := rep.distinct
  others := rep.others
  follows := rep.follows
  known := rep.known
  writeSets trx active := by
    have has := rep.writeSets trx active
    refine { has with undoes := ?_ }
    intro wr member deletes
    obtain ⟨row, inRows, version, older, position, rid, prevTrx, prevFlags, chain⟩ :=
      has.undoes wr member deletes
    exact ⟨row, inRows, version, older, position, rid, prevTrx, prevFlags, chain.mono grown⟩

/-- The counters do not matter. -/
theorem recount (rep : Rep m) (numRows : Nat → Nat) (clamped : Nat → Bool) :
    Rep { m with numRows := numRows, clamped := clamped } where
  manager := rep.manager
  nonempty := rep.nonempty
  stored := rep.stored
  distinct := rep.distinct
  others := rep.others
  follows := rep.follows
  known := rep.known
  writeSets trx active := { rep.writeSets trx active with }

theorem addRow (rep : Rep m) (t : Nat) : Rep (m.addRow t) := rep.recount ..

theorem dropRow (rep : Rep m) (t : Nat) : Rep (m.dropRow t) := rep.recount ..

theorem extended {m' : VersionStore} (rep : Rep m) (grown : m.Extends m') : Rep m' := by
  obtain ⟨slot, undo, manager, journal⟩ := m'
  obtain ⟨rfl, kept, rfl, rfl⟩ := grown
  exact rep.extendUndo kept

/-- Begin, a new read view, Commit: no row changes, and who was known stays known. -/
theorem manage (rep : Rep m) {manager : TransactionManager} {journal : List Event}
    (inv : ManagerInv manager journal) (rows : rowsOf journal = m.rows)
    (active : ∀ trx ∈ manager.activeTxns,
      (trx ∈ m.manager.activeTxns ∧ (manager.transaction trx).writeSet = m.writeSet trx) ∨
        ((manager.transaction trx).writeSet = [] ∧ trx ∉ m.manager.activeTxns ∧
          trx ∉ committedOf m.journal))
    (known : ∀ trx, trx ∈ m.manager.activeTxns ∨ trx ∈ committedOf m.journal →
      trx ∈ manager.activeTxns ∨ trx ∈ committedOf journal)
    (snapshot : ∀ trx v, v ∈ snapshotOf trx m.journal → v ∈ snapshotOf trx journal)
    (aborted : ∀ v, m.manager.isAborted v = true → manager.isAborted v = true) :
    Rep { m with manager := manager, journal := journal } := by
  have same : VersionStore.rows { m with manager := manager, journal := journal } = m.rows := rows
  refine
    { manager := inv
      nonempty := same ▸ rep.nonempty
      stored := same ▸ rep.stored
      distinct := ?_
      others := ?_
      follows := ?_
      known := ?_
      writeSets := ?_ }
  · rw [VersionStore.rids, same]
    exact rep.distinct
  · intro rid slot found
    rw [VersionStore.rids, same]
    refine (rep.others rid slot found).imp_right fun gone => ?_
    exact ⟨gone.1, gone.2.1, aborted _ gone.2.2⟩
  · rw [same]
    intro row member trx version older position
    exact (rep.follows row member trx version older position).imp_right (snapshot trx _)
  · rw [same]
    exact fun row member trx inRow => known trx (rep.known row member trx inRow)
  · intro trx member
    rcases active trx member with ⟨before, writeSet⟩ | ⟨empty, notActive, notCommitted⟩
    · have has := rep.writeSets trx before
      exact
        { inserted_iff := by
            rw [VersionStore.writeSet, writeSet, same]
            exact has.inserted_iff
          undoes := by
            rw [VersionStore.writeSet, writeSet, same]
            exact has.undoes
          recorded := by
            rw [VersionStore.writeSet, writeSet, same]
            exact has.recorded
          ordered := by
            rw [VersionStore.writeSet, writeSet]
            exact has.ordered
          tables := by
            rw [VersionStore.writeSet, writeSet]
            exact has.tables }
    · have stranger : ∀ row ∈ m.rows, trx ∉ row.trxs := fun row member inRow =>
        (rep.known row member trx inRow).elim notActive notCommitted
      have noEntry : VersionStore.writeSet { m with manager := manager, journal := journal } trx = [] :=
        empty
      refine
        { inserted_iff := ?_
          undoes := ?_
          recorded := ?_
          ordered := ?_
          tables := ?_ }
      · intro rid
        rw [noEntry, same]
        refine iff_of_false (by simp [inserted]) ?_
        rintro ⟨row, member, version, inVersions, -, own⟩
        apply stranger row member
        rw [LogicalRow.trxs, List.mem_append]
        exact .inr (List.mem_map.mpr ⟨version, inVersions, own⟩)
      · rw [noEntry]
        simp
      · rw [same]
        intro row member version older position
        exact absurd position.writer_mem (stranger row member)
      · rw [noEntry]
        intro rid isInserted
        simp [inserted] at isInserted
      · rw [noEntry]
        simp

/-- What has been taken into a snapshot is also in the next one. -/
private theorem snapshotOf_view {journal : List Event} {t v : Nat}
    (member : v ∈ snapshotOf t journal) : v ∈ snapshotOf t (journal ++ [.view trx]) := by
  rw [snapshotOf_snoc]
  split
  · exact mem_committedOf_of_snapshotOf member
  · exact member

private theorem committedOf_view (journal : List Event) :
    committedOf (journal ++ [.view trx]) = committedOf journal := by
  rw [committedOf_snoc]
  simp [committedOf]

/-- An active transaction takes a read view. -/
theorem view (rep : Rep m) (active : trx ∈ m.manager.activeTxns) :
    Rep { m with
      manager := m.manager.setReadView trx (m.manager.createReadView trx)
      journal := m.journal ++ [.view trx] } := by
  have inv := rep.manager
  apply rep.manage (inv.view active fun v member _ => inv.views v member)
  · exact rowsOf_snoc ..
  · intro v member
    refine .inl ⟨member, ?_⟩
    by_cases same : v = trx
    · subst same
      simp [TransactionManager.setReadView, VersionStore.writeSet]
    · simp [TransactionManager.setReadView, VersionStore.writeSet, same]
  · intro v known
    rw [committedOf_view]
    exact known
  · exact fun _ _ => snapshotOf_view
  · exact fun _ aborted => aborted

/-- BEGIN, with the first read view. -/
theorem begin (rep : Rep m) :
    let id := m.manager.nextTxid
    let manager := m.manager.beginAllocate.2
    Rep { m with
      manager := manager.setReadView id (manager.createReadView id)
      journal := m.journal ++ [.view id] } := by
  intro id manager
  have inv := rep.manager
  obtain ⟨base, views⟩ := inv.beginAllocate
  apply rep.manage (base.view (List.mem_cons_self ..) views)
  · exact rowsOf_snoc ..
  · intro v member
    by_cases same : v = id
    · subst same
      refine .inr ⟨?_, ?_, ?_⟩
      · simp [id, TransactionManager.setReadView, TransactionManager.beginAllocate]
      · exact fun issued => absurd (inv.issued _ issued).2 (lt_irrefl _)
      · exact fun issued => absurd (inv.issuedCommitted _ issued).2 (lt_irrefl _)
    · refine .inl ⟨(List.mem_cons.mp member).resolve_left same, ?_⟩
      have other : v ≠ m.manager.nextTxid := same
      simp [TransactionManager.setReadView, TransactionManager.beginAllocate,
        VersionStore.writeSet, other]
  · intro v known
    rw [committedOf_view]
    exact known.imp_left (List.mem_cons_of_mem _)
  · exact fun _ _ => snapshotOf_view
  · exact fun v aborted => inv.isAborted_beginAllocate aborted

/-- COMMIT. -/
theorem commit (rep : Rep m) (active : trx ∈ m.manager.activeTxns) :
    Rep { m with
      manager := m.manager.finish trx .committed
      journal := m.journal ++ [.commit trx] } := by
  have inv := rep.manager
  apply rep.manage (inv.finish active (.inl ⟨rfl, rfl⟩))
  · exact rowsOf_snoc ..
  · intro v member
    obtain ⟨before, other⟩ := TransactionManager.mem_finish_activeTxns.mp member
    refine .inl ⟨before, ?_⟩
    rw [TransactionManager.finish_transaction_of_ne _ other]
    rfl
  · intro v known
    rw [TransactionManager.mem_finish_activeTxns, mem_committedOf, List.mem_append]
    by_cases same : v = trx
    · subst same
      exact .inr (.inr (List.mem_singleton.mpr rfl))
    · exact known.imp (fun before => ⟨before, same⟩) fun committed => .inl (mem_committedOf.mp committed)
  · intro t v member
    rw [snapshotOf_snoc_of_ne (by simp)]
    exact member
  · exact fun v aborted => inv.isAborted_finish active .committed aborted

/-! ## INSERT -/

/-- A new row, at an address that is free. -/
theorem insert (rep : Rep m) (active : trx ∈ m.manager.activeTxns) {rid : RID}
    (free : m.slot rid = none) (tableId : Nat) (payload : List UInt8) :
    Rep ((m.put rid ⟨tableId, ⟨⟨trx, .null, 0⟩, payload⟩⟩).enter trx
      { rid := rid, type := .insert, tableId := tableId } (.insert trx tableId rid payload)) := by
  let wr : WriteRecord := { rid := rid, type := .insert, tableId := tableId }
  let new : LogicalRow := ⟨tableId, [⟨trx, rid, payload⟩], none⟩
  let m' := (m.put rid ⟨tableId, ⟨⟨trx, .null, 0⟩, payload⟩⟩).enter trx wr
    (.insert trx tableId rid payload)
  have isWrite : IsWrite (.insert trx tableId rid payload) := ⟨by simp, rfl⟩
  have journal : m'.journal = m.journal ++ [.insert trx tableId rid payload] := rfl
  have rows : m'.rows = m.rows ++ [new] := VersionStore.rows_enter ..
  have rids : m'.rids = m.rids ++ [rid] := by
    rw [VersionStore.rids, rows, List.flatMap_append]
    rfl
  have fresh : rid ∉ m.rids := fun member => by
    obtain ⟨slot, found⟩ := rep.slot_of_mem_rids member
    rw [free] at found
    cases found
  have kept : ∀ other slot, m.slot other = some slot → m'.slot other = some slot := by
    intro other slot found
    have ne : other ≠ rid := fun same => by
      rw [same, free] at found
      cases found
    exact (VersionStore.slot_put m rid other _).trans ((if_neg ne).trans found)
  have here : ∀ writer version older, new.Position writer version older →
      writer = none ∧ version = ⟨trx, rid, payload⟩ ∧ older = [] := by
    intro writer version older position
    exact (position_cons.mp position).resolve_right not_position_nil
  refine
    { manager := rep.manager.enter trx wr isWrite
      nonempty := ?_
      stored := ?_
      distinct := ?_
      others := ?_
      follows := ?_
      known := ?_
      writeSets := ?_ }
  · intro row member
    rw [rows, List.mem_append, List.mem_singleton] at member
    rcases member with old | rfl
    · exact rep.nonempty row old
    · simp [new]
  · intro row member writer version older position
    rw [rows, List.mem_append, List.mem_singleton] at member
    rcases member with old | rfl
    · obtain ⟨record, found, recordOf⟩ := rep.stored row old writer version older position
      exact ⟨record, kept _ _ found, recordOf⟩
    · obtain ⟨rfl, rfl, rfl⟩ := here writer version older position
      refine ⟨⟨⟨trx, .null, 0⟩, payload⟩, ?_, rfl, rfl, rfl, rfl⟩
      exact (VersionStore.slot_put m rid rid _).trans (if_pos rfl)
  · rw [rids, List.nodup_append]
    refine ⟨rep.distinct, by simp, ?_⟩
    intro a inOld b isNew same
    rw [List.mem_singleton] at isNew
    exact fresh (isNew ▸ same ▸ inOld)
  · intro other slot found
    rw [rids, List.mem_append, List.mem_singleton]
    by_cases same : other = rid
    · exact .inl (.inr same)
    · have before : m.slot other = some slot :=
        (if_neg same).symm.trans ((VersionStore.slot_put m rid other _).symm.trans found)
      exact (rep.others other slot before).imp_left .inl
  · intro row member writer version older position
    rw [rows, List.mem_append, List.mem_singleton] at member
    rcases member with old | rfl
    · rw [journal, isWrite.snapshotOf]
      exact rep.follows row old writer version older position
    · cases (here _ version older position).1
  · intro row member v inRow
    rw [journal, isWrite.committedOf]
    rw [rows, List.mem_append, List.mem_singleton] at member
    rcases member with old | rfl
    · exact rep.known row old v inRow
    · simp only [LogicalRow.trxs, new, Option.toList_none, List.nil_append, List.map_cons,
        List.map_nil, List.mem_singleton] at inRow
      exact .inl (inRow ▸ active)
  · intro t member
    have has := rep.writeSets t member
    have untouched : ∀ entry ∈ m.writeSet t, entry.rid ≠ rid := by
      intro entry member same
      obtain ⟨slot, found, _⟩ := has.tables entry member
      rw [same, free] at found
      cases found
    refine
      { inserted_iff := ?_
        undoes := ?_
        recorded := ?_
        ordered := VersionStore.ordered_enter has.ordered fun _ => untouched
        tables := ?_ }
    · intro other
      rw [VersionStore.inserted_enter, rows]
      refine (or_congr_left (has.inserted_iff other)).trans ?_
      simp [new, WriteType.inserts, or_and_right, exists_or, and_comm, eq_comm]
    · intro entry member deletes
      rcases VersionStore.mem_writeSet_enter.mp member with old | ⟨-, rfl⟩
      · obtain ⟨row, inRows, rest⟩ := has.undoes entry old deletes
        exact ⟨row, rows ▸ List.mem_append_left _ inRows, rest⟩
      · cases deletes
    · intro row member version older position
      rw [rows, List.mem_append, List.mem_singleton] at member
      rcases member with old | rfl
      · obtain ⟨entry, inSet, rest⟩ := has.recorded row old version older position
        exact ⟨entry, VersionStore.mem_writeSet_enter.mpr (.inl inSet), rest⟩
      · cases (here _ version older position).1
    · intro entry member
      rcases VersionStore.mem_writeSet_enter.mp member with old | ⟨-, rfl⟩
      · obtain ⟨slot, found, table⟩ := has.tables entry old
        exact ⟨slot, kept _ _ found, table⟩
      · exact ⟨_, (VersionStore.slot_put m rid rid _).trans (if_pos rfl), rfl⟩

/-! ## DELETE and UPDATE -/

/-- An event that reaches one row leaves the others. -/
private theorem map_eq_of_apart {before after : List LogicalRow} {row row' : LogicalRow}
    {f : LogicalRow → LogicalRow} (others : ∀ other ∈ before ++ after, f other = other)
    (here : f row = row') : (before ++ row :: after).map f = before ++ row' :: after := by
  have map_before : before.map f = before :=
    (List.map_congr_left fun other member => others other (List.mem_append_left _ member)).trans
      (List.map_id _)
  have map_after : after.map f = after :=
    (List.map_congr_left fun other member => others other (List.mem_append_right _ member)).trans
      (List.map_id _)
  rw [List.map_append, List.map_cons, map_before, map_after, here]

private theorem mem_rids_of_head {row : LogicalRow} {rid : RID}
    (first : row.versions.head?.map Version.rid = some rid) : rid ∈ row.rids := by
  obtain ⟨version, first, same⟩ := Option.map_eq_some_iff.mp first
  exact List.mem_map.mpr ⟨version, List.mem_of_head? first, same⟩

/-- The event of a deletion reaches the row that is live at the address, and no other. -/
theorem rows_delete {before after : List LogicalRow} {row : LogicalRow} {rid : RID}
    (apart : ∀ other ∈ before ++ after, ∀ rid ∈ row.rids, rid ∉ other.rids)
    (live : row.LiveAt rid) (trx : Nat) :
    applyEvent (before ++ row :: after) (.delete trx rid) =
      before ++ { row with deletedBy := some trx } :: after := by
  apply map_eq_of_apart
  · intro other member
    apply if_neg
    intro liveThere
    exact apart other member rid (mem_rids_of_head live.2) (mem_rids_of_head liveThere.2)
  · exact if_pos live

/-- The event of a replacement reaches the row whose newest version is at the address. -/
theorem rows_replace {before after : List LogicalRow} {row : LogicalRow} {old : RID}
    (apart : ∀ other ∈ before ++ after, ∀ rid ∈ row.rids, rid ∉ other.rids)
    (first : row.versions.head?.map Version.rid = some old) (trx : Nat) (new : RID)
    (payload : List UInt8) :
    applyEvent (before ++ row :: after) (.replace trx old new payload) =
      before ++ { row with versions := ⟨trx, new, payload⟩ :: row.versions, deletedBy := none } ::
        after := by
  apply map_eq_of_apart
  · intro other member
    apply if_neg
    intro firstThere
    exact apart other member old (mem_rids_of_head first) (mem_rids_of_head firstThere)
  · exact if_pos first

/-- One row changes into another, with one record stored and one entry made. -/
structure RowChange (m : VersionStore) (trx : Nat) (row row' : LogicalRow) (rid : RID)
    (record : Record) (wr : WriteRecord) : Prop where
  nonempty : row'.versions ≠ []
  tableId : row'.tableId = row.tableId
  stored : ∀ writer version older, row'.Position writer version older → version.rid ≠ rid →
    ∃ record, m.slot version.rid = some ⟨row.tableId, record⟩ ∧
      RecordOf m.undo writer version older record
  here : ∀ writer version older, row'.Position writer version older → version.rid = rid →
    RecordOf m.undo writer version older record
  /-- The address is one of the row's, or it was free. -/
  rids : row'.rids = row.rids ∧ rid ∈ row.rids ∨ row'.rids = rid :: row.rids ∧ m.slot rid = none
  follows : ∀ t version older, row'.Position (some t) version older →
    t = version.trx ∨ version.trx ∈ snapshotOf t m.journal
  known : ∀ t ∈ row'.trxs, t ∈ row.trxs ∨ t = trx
  at_rid : wr.rid = rid
  table : wr.tableId = row.tableId
  versions : ∀ t r, (∃ version ∈ row'.versions, version.rid = r ∧ version.trx = t) ↔
    (∃ version ∈ row.versions, version.rid = r ∧ version.trx = t) ∨
      (t = trx ∧ wr.rid = r ∧ wr.type.inserts = true)
  inserts : wr.type.inserts = true → m.slot rid = none
  positions : ∀ t version older, row.Position (some t) version older →
    row'.Position (some t) version older
  undoes : wr.type.inserts = false → ∃ version older, row'.Position (some trx) version older ∧
    version.rid = wr.rid ∧ wr.prevTrxId = version.trx ∧ wr.prevFlags = 0 ∧
    ChainIs m.undo wr.prevRollPtr older
  recorded : ∀ t version older, row'.Position (some t) version older →
    row.Position (some t) version older ∨
      (t = trx ∧ wr.type.inserts = false ∧ wr.rid = version.rid)

theorem change (rep : Rep m) (active : trx ∈ m.manager.activeTxns)
    {before after : List LogicalRow} {row row' : LogicalRow}
    (split : m.rows = before ++ row :: after)
    (apart : ∀ other ∈ before ++ after, ∀ rid ∈ row.rids, rid ∉ other.rids)
    {rid : RID} {record : Record} {wr : WriteRecord}
    (changed : RowChange m trx row row' rid record wr) {event : Event} (isWrite : IsWrite event)
    (rows : applyEvent m.rows event = before ++ row' :: after) :
    Rep ((m.put rid ⟨row.tableId, record⟩).enter trx wr event) := by
  let m' := (m.put rid ⟨row.tableId, record⟩).enter trx wr event
  have rows' : m'.rows = before ++ row' :: after := (VersionStore.rows_enter ..).trans rows
  have mem_rows : ∀ {other}, other ∈ before ++ after → other ∈ m.rows := fun member => by
    rw [split]
    simp only [List.mem_append, List.mem_cons] at member ⊢
    exact member.imp_right .inr
  have mem_rows' : ∀ {other}, other ∈ before ++ after → other ∈ m'.rows := fun member => by
    rw [rows']
    simp only [List.mem_append, List.mem_cons] at member ⊢
    exact member.imp_right .inr
  have here_mem : row ∈ m.rows := split ▸ List.mem_append_right _ (List.mem_cons_self ..)
  have here_mem' : row' ∈ m'.rows := rows' ▸ List.mem_append_right _ (List.mem_cons_self ..)
  have cases_rows : ∀ {other}, other ∈ m.rows → other ∈ before ++ after ∨ other = row :=
    fun member => by
      rw [split] at member
      simp only [List.mem_append, List.mem_cons] at member ⊢
      tauto
  have cases_rows' : ∀ {other}, other ∈ m'.rows → other ∈ before ++ after ∨ other = row' :=
    fun member => by
      rw [rows'] at member
      simp only [List.mem_append, List.mem_cons] at member ⊢
      tauto
  have slot : ∀ other, m'.slot other =
      if other = rid then some ⟨row.tableId, record⟩ else m.slot other :=
    fun other => VersionStore.slot_put m rid other _
  have elsewhere : ∀ other ∈ before ++ after, rid ∉ other.rids := by
    intro other member inOther
    rcases changed.rids with ⟨-, inRow⟩ | ⟨-, free⟩
    · exact apart other member rid inRow inOther
    · obtain ⟨slot, found⟩ := rep.slot_of_mem_rids (mem_rids (mem_rows member) inOther)
      rw [free] at found
      cases found
  have table_kept : ∀ other slot, m.slot other = some slot →
      ∃ slot', m'.slot other = some slot' ∧ slot'.tableId = slot.tableId := by
    intro other found stored
    rw [slot]
    split
    · rename_i same
      refine ⟨_, rfl, ?_⟩
      rcases changed.rids with ⟨-, inRow⟩ | ⟨-, free⟩
      · obtain ⟨version, inVersions, at_rid⟩ := List.mem_map.mp inRow
        obtain ⟨writer, older, position⟩ := @exists_position row.deletedBy _ _ inVersions
        obtain ⟨record', found', _⟩ := rep.stored row here_mem writer version older position
        rw [at_rid, ← same, stored] at found'
        cases found'
        rfl
      · rw [← same, stored] at free
        cases free
    · exact ⟨found, stored, rfl⟩
  refine
    { manager := rep.manager.enter trx wr isWrite
      nonempty := ?_
      stored := ?_
      distinct := ?_
      others := ?_
      follows := ?_
      known := ?_
      writeSets := ?_ }
  · intro other member
    rcases cases_rows' member with rest | rfl
    · exact rep.nonempty other (mem_rows rest)
    · exact changed.nonempty
  · intro other member writer version older position
    rw [slot]
    rcases cases_rows' member with rest | rfl
    · have ne : version.rid ≠ rid := fun same =>
        elsewhere other rest (List.mem_map.mpr ⟨version, position.mem, same⟩)
      rw [if_neg ne]
      exact rep.stored other (mem_rows rest) writer version older position
    · rw [changed.tableId]
      by_cases same : version.rid = rid
      · rw [if_pos same]
        exact ⟨record, rfl, changed.here writer version older position same⟩
      · rw [if_neg same]
        exact changed.stored writer version older position same
  · have distinct := rep.distinct
    rw [VersionStore.rids, split] at distinct
    rw [VersionStore.rids, rows']
    rcases changed.rids with ⟨same, -⟩ | ⟨new, -⟩
    · simpa [List.flatMap_append, List.flatMap_cons, same] using distinct
    · have moved : ((before ++ row' :: after).flatMap LogicalRow.rids).Perm
          (rid :: (before ++ row :: after).flatMap LogicalRow.rids) := by
        simp only [List.flatMap_append, List.flatMap_cons, new, List.cons_append]
        exact List.perm_middle
      rw [moved.nodup_iff, List.nodup_cons]
      refine ⟨?_, distinct⟩
      intro member
      obtain ⟨other, inRows, inOther⟩ := List.mem_flatMap.mp member
      rcases changed.rids with ⟨same, -⟩ | ⟨-, free⟩
      · exact absurd (congrArg List.length (new.symm.trans same)) (by simp)
      · obtain ⟨found, stored⟩ := rep.slot_of_mem_rids (mem_rids (split ▸ inRows) inOther)
        rw [free] at stored
        cases stored
  · intro other found stored
    rw [slot] at stored
    have grown : ∀ other, other ∈ m.rids → other ∈ m'.rids := by
      intro other member
      obtain ⟨owner, inRows, inOwner⟩ := List.mem_flatMap.mp member
      rcases cases_rows inRows with rest | rfl
      · exact List.mem_flatMap.mpr ⟨owner, mem_rows' rest, inOwner⟩
      · refine List.mem_flatMap.mpr ⟨row', here_mem', ?_⟩
        rcases changed.rids with ⟨same, -⟩ | ⟨new, -⟩
        · exact same ▸ inOwner
        · exact new ▸ List.mem_cons_of_mem _ inOwner
    split at stored
    · rename_i same
      refine .inl (List.mem_flatMap.mpr ⟨row', here_mem', ?_⟩)
      rcases changed.rids with ⟨same', inRow⟩ | ⟨new, -⟩
      · exact same' ▸ same ▸ inRow
      · exact new ▸ same ▸ List.mem_cons_self ..
    · exact (rep.others other found stored).imp_left (grown other)
  · intro other member t version older position
    have journal : snapshotOf t m'.journal = snapshotOf t m.journal := isWrite.snapshotOf t _
    rw [journal]
    rcases cases_rows' member with rest | rfl
    · exact rep.follows other (mem_rows rest) t version older position
    · exact changed.follows t version older position
  · intro other member t inOther
    have journal : committedOf m'.journal = committedOf m.journal := isWrite.committedOf _
    rw [journal]
    rcases cases_rows' member with rest | rfl
    · exact rep.known other (mem_rows rest) t inOther
    · rcases changed.known t inOther with before | rfl
      · exact rep.known row here_mem t before
      · exact .inl active
  · intro t member
    have has := rep.writeSets t member
    refine
      { inserted_iff := ?_
        undoes := ?_
        recorded := ?_
        ordered := ?_
        tables := ?_ }
    · intro r
      have shift : (∃ other ∈ m'.rows, ∃ version ∈ other.versions, version.rid = r ∧
            version.trx = t) ↔
          (∃ other ∈ m.rows, ∃ version ∈ other.versions, version.rid = r ∧ version.trx = t) ∨
            (t = trx ∧ wr.rid = r ∧ wr.type.inserts = true) := by
        constructor
        · rintro ⟨other, inRows, found⟩
          rcases cases_rows' inRows with rest | rfl
          · exact .inl ⟨other, mem_rows rest, found⟩
          · exact ((changed.versions t r).mp found).imp_left fun found => ⟨row, here_mem, found⟩
        · rintro (⟨other, inRows, found⟩ | new)
          · rcases cases_rows inRows with rest | rfl
            · exact ⟨other, mem_rows' rest, found⟩
            · exact ⟨row', here_mem', (changed.versions t r).mpr (.inl found)⟩
          · exact ⟨row', here_mem', (changed.versions t r).mpr (.inr new)⟩
      rw [shift, VersionStore.inserted_enter]
      exact or_congr_left (has.inserted_iff r)
    · intro entry inSet deletes
      rcases VersionStore.mem_writeSet_enter.mp inSet with old | ⟨rfl, rfl⟩
      · obtain ⟨other, inRows, version, older, position, rest⟩ := has.undoes entry old deletes
        rcases cases_rows inRows with there | rfl
        · exact ⟨other, mem_rows' there, version, older, position, rest⟩
        · exact ⟨row', here_mem', version, older, changed.positions t version older position, rest⟩
      · obtain ⟨version, older, position, rest⟩ := changed.undoes deletes
        exact ⟨row', here_mem', version, older, position, rest⟩
    · intro other inRows version older position
      rcases cases_rows' inRows with rest | rfl
      · obtain ⟨entry, inSet, found⟩ := has.recorded other (mem_rows rest) version older position
        exact ⟨entry, VersionStore.mem_writeSet_enter.mpr (.inl inSet), found⟩
      · rcases changed.recorded t version older position with old | ⟨same, deletes, at_rid⟩
        · obtain ⟨entry, inSet, found⟩ := has.recorded row here_mem version older old
          exact ⟨entry, VersionStore.mem_writeSet_enter.mpr (.inl inSet), found⟩
        · exact ⟨wr, VersionStore.mem_writeSet_enter.mpr (.inr ⟨same, rfl⟩), deletes, at_rid⟩
    · refine @VersionStore.ordered_enter (m.put rid ⟨row.tableId, record⟩) trx t wr event
        has.ordered ?_
      intro inserts entry inSet same
      obtain ⟨found, stored, _⟩ := has.tables entry inSet
      rw [same, changed.at_rid, changed.inserts inserts] at stored
      cases stored
    · intro entry inSet
      rcases VersionStore.mem_writeSet_enter.mp inSet with old | ⟨-, rfl⟩
      · obtain ⟨found, stored, table⟩ := has.tables entry old
        obtain ⟨found', stored', same⟩ := table_kept _ _ stored
        exact ⟨found', stored', table.trans same.symm⟩
      · refine ⟨_, (slot _).trans (if_pos changed.at_rid), changed.table⟩

/-- The newest version is marked deleted; what the record was is in an undo record. -/
theorem delete (rep : Rep m) (active : trx ∈ m.manager.activeTxns) {row : LogicalRow}
    (member : row ∈ m.rows) {version : Version} {older : List Version}
    (versions : row.versions = version :: older) (undeleted : row.deletedBy = none)
    (sees : trx = version.trx ∨ version.trx ∈ snapshotOf trx m.journal) {record : Record}
    (stored : m.slot version.rid = some ⟨row.tableId, record⟩) {pointer : UndoPointer}
    (notNull : pointer.isNull = false) (saved : m.undo pointer = some record) {wr : WriteRecord}
    (at_rid : wr.rid = version.rid) (table : wr.tableId = row.tableId)
    (deletes : wr.type.inserts = false) (header : wr.prevHeader = record.toRecordHeader) :
    Rep ((m.put version.rid ⟨row.tableId, record.deleted trx pointer⟩).enter trx wr
      (.delete trx version.rid)) := by
  obtain ⟨before, after, split, apart⟩ := rep.split member
  have newest : row.Position none version older := by
    rw [LogicalRow.Position, versions, undeleted]
    exact .here
  obtain ⟨record', found, payload, trxId, flags, chain⟩ := rep.stored row member _ _ _ newest
  obtain rfl : record = record' := by
    rw [stored] at found
    cases found
    rfl
  have position_iff : ∀ {writer v o}, row.Position writer v o ↔
      (writer = none ∧ v = version ∧ o = older) ∨ Position (some version.trx) older writer v o := by
    intro writer v o
    rw [LogicalRow.Position, versions, undeleted, position_cons]
  have position_iff' : ∀ {writer v o},
      LogicalRow.Position { row with deletedBy := some trx } writer v o ↔
        (writer = some trx ∧ v = version ∧ o = older) ∨
          Position (some version.trx) older writer v o := by
    intro writer v o
    rw [LogicalRow.Position, versions, position_cons]
  have distinct : (row.rids).Nodup := by
    have distinct := rep.distinct
    rw [VersionStore.rids, List.nodup_flatMap] at distinct
    exact distinct.1 row member
  have apart_older : ∀ v ∈ older, v.rid ≠ version.rid := by
    intro v inOlder same
    rw [LogicalRow.rids, versions, List.map_cons, List.nodup_cons] at distinct
    exact distinct.1 (List.mem_map.mpr ⟨v, inOlder, same⟩)
  have live : row.LiveAt version.rid := ⟨undeleted, by simp [versions]⟩
  refine rep.change active split apart ?_ ⟨by simp, rfl⟩ (split ▸ rows_delete apart live trx)
  refine
    { nonempty := rep.nonempty row member
      tableId := rfl
      stored := ?_
      here := ?_
      rids := .inl ⟨rfl, List.mem_map.mpr ⟨version, by simp [versions], rfl⟩⟩
      follows := ?_
      known := ?_
      at_rid := at_rid
      table := table
      versions := by simp [deletes]
      inserts := by simp [deletes]
      positions := ?_
      undoes := ?_
      recorded := ?_ }
  · intro writer v o position ne
    rcases position_iff'.mp position with ⟨-, rfl, -⟩ | below
    · exact absurd rfl ne
    · exact rep.stored row member writer v o (position_iff.mpr (.inr below))
  · intro writer v o position same
    rcases position_iff'.mp position with ⟨rfl, rfl, rfl⟩ | below
    · refine ⟨payload, rfl, ?_, ?_⟩
      · simp [Record.deleted, flags]
      · exact ⟨notNull, record, saved, trxId, flags, payload, chain⟩
    · exact absurd same (apart_older v below.mem)
  · intro t v o position
    rcases position_iff'.mp position with ⟨same, rfl, -⟩ | below
    · cases same
      exact sees
    · exact rep.follows row member t v o (position_iff.mpr (.inr below))
  · intro t inRow
    simp only [LogicalRow.trxs, Option.toList_some, List.singleton_append, List.mem_cons] at inRow
    rcases inRow with rfl | inVersions
    · exact .inr rfl
    · exact .inl (List.mem_append_right _ inVersions)
  · intro t v o position
    rcases position_iff.mp position with ⟨same, -, -⟩ | below
    · cases same
    · exact position_iff'.mpr (.inr below)
  · intro _
    refine ⟨version, older, position_iff'.mpr (.inl ⟨rfl, rfl, rfl⟩), at_rid.symm, ?_, ?_, ?_⟩
    · exact (congrArg RecordHeader.trxId header).trans trxId
    · exact (congrArg RecordHeader.flags header).trans flags
    · rw [show wr.prevRollPtr = record.rollPtr from congrArg RecordHeader.rollPtr header]
      exact chain
  · intro t v o position
    rcases position_iff'.mp position with ⟨same, rfl, -⟩ | below
    · cases same
      exact .inr ⟨rfl, deletes, at_rid⟩
    · exact .inl (position_iff.mpr (.inr below))

/-- A new version over the one that the same transaction has just deleted. -/
theorem replace (rep : Rep m) (active : trx ∈ m.manager.activeTxns) {row : LogicalRow}
    (member : row ∈ m.rows) {version : Version} {older : List Version}
    (versions : row.versions = version :: older) (deleted : row.deletedBy = some trx)
    {new : RID} (free : m.slot new = none) {pointer : UndoPointer} {payload : List UInt8}
    (chain : ChainIs m.undo pointer row.versions) :
    Rep ((m.put new ⟨row.tableId, ⟨⟨trx, pointer, 0⟩, payload⟩⟩).enter trx
      { rid := new, type := .updateInsertNew, tableId := row.tableId }
      (.replace trx version.rid new payload)) := by
  obtain ⟨before, after, split, apart⟩ := rep.split member
  have first : row.versions.head?.map Version.rid = some version.rid := by simp [versions]
  have fresh : ∀ v ∈ row.versions, v.rid ≠ new := by
    intro v inVersions same
    obtain ⟨slot, found⟩ := rep.slot_of_mem_rids
      (mem_rids member (List.mem_map.mpr ⟨v, inVersions, same⟩))
    rw [free] at found
    cases found
  let row' : LogicalRow := { row with versions := ⟨trx, new, payload⟩ :: row.versions, deletedBy := none }
  have position_iff : ∀ {writer v o}, row'.Position writer v o ↔
      (writer = none ∧ v = ⟨trx, new, payload⟩ ∧ o = row.versions) ∨ row.Position writer v o := by
    intro writer v o
    rw [LogicalRow.Position, position_cons, LogicalRow.Position, deleted]
  refine rep.change active split apart ?_ ⟨by simp, rfl⟩ (split ▸ rows_replace apart first trx new payload)
  refine
    { nonempty := by simp
      tableId := rfl
      stored := ?_
      here := ?_
      rids := .inr ⟨rfl, free⟩
      follows := ?_
      known := ?_
      at_rid := rfl
      table := rfl
      versions := ?_
      inserts := fun _ => free
      positions := fun t v o position => position_iff.mpr (.inr position)
      undoes := nofun
      recorded := ?_ }
  · intro writer v o position ne
    rcases position_iff.mp position with ⟨-, rfl, -⟩ | old
    · exact absurd rfl ne
    · exact rep.stored row member writer v o old
  · intro writer v o position same
    rcases position_iff.mp position with ⟨rfl, rfl, rfl⟩ | old
    · exact ⟨rfl, rfl, rfl, chain⟩
    · exact absurd same (fresh v old.mem)
  · intro t v o position
    rcases position_iff.mp position with ⟨same, -, -⟩ | old
    · cases same
    · exact rep.follows row member t v o old
  · intro t inRow
    simp only [LogicalRow.trxs, Option.toList_none, List.nil_append, List.map_cons,
      List.mem_cons] at inRow
    rcases inRow with rfl | inVersions
    · exact .inr rfl
    · exact .inl (List.mem_append_right _ inVersions)
  · intro t r
    simp only [List.mem_cons, or_and_right, exists_or, exists_eq_left, WriteType.inserts, and_true]
    exact or_comm.trans (or_congr_right ⟨fun new => ⟨new.2.symm, new.1⟩, fun new => ⟨new.2, new.1.symm⟩⟩)
  · intro t v o position
    rcases position_iff.mp position with ⟨same, -, -⟩ | old
    · cases same
    · exact .inl old

end Rep

end YourSQL.Mvcc
