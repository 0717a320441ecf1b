import YourSQL.Mvcc.Withdrawal

/-! # Which records a transaction may write to

A record without flags stands for the newest version of a row that nobody has
deleted. A transaction that sees its writer may delete it, or put another version
over it; what it sees elsewhere stays the same.
-/

namespace YourSQL.Mvcc

variable {m m' : VersionStore} {trx t : Nat} {rid new : RID} {record : Record}
  {pointer : UndoPointer}

namespace VersionStore

/-- A record is marked deleted under the header that a write set entry keeps. -/
def deletion (m : VersionStore) (trx t : Nat) (rid : RID) (old : Record) (pointer : UndoPointer)
    (type : WriteType) : VersionStore :=
  ((m.put rid ⟨t, old.deleted trx pointer⟩).dropRow t).enter trx
    { rid := rid
      type := type
      tableId := t
      prevTrxId := old.trxId
      prevRollPtr := old.rollPtr
      prevFlags := old.flags }
    (.delete trx rid)

/-- A record is stored at a free address. -/
def insertion (m : VersionStore) (trx t : Nat) (rid : RID) (record : Record) (type : WriteType)
    (event : Event) : VersionStore :=
  ((m.put rid ⟨t, record⟩).addRow t).enter trx { rid := rid, type := type, tableId := t } event

/-- A record that the transaction may write to. -/
structure Newest (m : VersionStore) (trx t : Nat) (rid : RID) (record : Record) : Prop where
  stored : m.slot rid = some ⟨t, record⟩
  flags : record.flags = 0
  sees : seenBy trx m.journal record.trxId = true

@[simp] theorem journal_deletion (m : VersionStore) (trx t : Nat) (rid : RID) (old : Record)
    (pointer : UndoPointer) (type : WriteType) :
    (m.deletion trx t rid old pointer type).journal = m.journal ++ [.delete trx rid] := rfl

@[simp] theorem journal_insertion (m : VersionStore) (trx t : Nat) (rid : RID) (record : Record)
    (type : WriteType) (event : Event) :
    (m.insertion trx t rid record type event).journal = m.journal ++ [event] := rfl

@[simp] theorem activeTxns_deletion (m : VersionStore) (trx t : Nat) (rid : RID) (old : Record)
    (pointer : UndoPointer) (type : WriteType) :
    (m.deletion trx t rid old pointer type).manager.activeTxns = m.manager.activeTxns := rfl

@[simp] theorem activeTxns_insertion (m : VersionStore) (trx t : Nat) (rid : RID)
    (record : Record) (type : WriteType) (event : Event) :
    (m.insertion trx t rid record type event).manager.activeTxns = m.manager.activeTxns := rfl

theorem slot_deletion (m : VersionStore) (trx t : Nat) (rid other : RID) (old : Record)
    (pointer : UndoPointer) (type : WriteType) :
    (m.deletion trx t rid old pointer type).slot other =
      if other = rid then some ⟨t, old.deleted trx pointer⟩ else m.slot other :=
  slot_put m rid other _

theorem slot_insertion (m : VersionStore) (trx t : Nat) (rid other : RID) (record : Record)
    (type : WriteType) (event : Event) :
    (m.insertion trx t rid record type event).slot other =
      if other = rid then some ⟨t, record⟩ else m.slot other :=
  slot_put m rid other _

theorem writeSet_deletion (m : VersionStore) (trx t : Nat) (rid : RID) (old : Record)
    (pointer : UndoPointer) (type : WriteType) (v : Nat) :
    (m.deletion trx t rid old pointer type).writeSet v =
      if v = trx then
        m.writeSet trx ++
          [{ rid := rid
             type := type
             tableId := t
             prevTrxId := old.trxId
             prevRollPtr := old.rollPtr
             prevFlags := old.flags }]
      else
        m.writeSet v :=
  writeSet_enter ..

theorem writeSet_insertion (m : VersionStore) (trx t : Nat) (rid : RID) (record : Record)
    (type : WriteType) (event : Event) (v : Nat) :
    (m.insertion trx t rid record type event).writeSet v =
      if v = trx then m.writeSet trx ++ [{ rid := rid, type := type, tableId := t }]
      else m.writeSet v :=
  writeSet_enter ..

namespace Newest

theorem extended (newest : m.Newest trx t rid record) (grown : m.Extends m') :
    m'.Newest trx t rid record where
  stored := grown.slot ▸ newest.stored
  flags := newest.flags
  sees := grown.journal ▸ newest.sees

theorem seenBy_write {event : Event} (isWrite : IsWrite event) (trx : Nat) (journal : List Event)
    (writer : Nat) : seenBy trx (journal ++ [event]) writer = seenBy trx journal writer := by
  rw [seenBy, isWrite.snapshotOf, seenBy]

/-- Deletions elsewhere do not touch the record. -/
theorem deletion {other : RID} {old : Record} (newest : m.Newest trx t rid record)
    (apart : rid ≠ other) (trx' t' : Nat) (pointer : UndoPointer) (type : WriteType) :
    (m.deletion trx' t' other old pointer type).Newest trx t rid record where
  stored := by
    rw [slot_deletion, if_neg apart]
    exact newest.stored
  flags := newest.flags
  sees := by
    rw [journal_deletion, seenBy_write ⟨by simp, rfl⟩]
    exact newest.sees

theorem insertion {record' : Record} {event : Event} (newest : m.Newest trx t rid record)
    (free : m.slot new = none) (trx' t' : Nat) (type : WriteType) (isWrite : IsWrite event) :
    (m.insertion trx' t' new record' type event).Newest trx t rid record where
  stored := by
    have apart : rid ≠ new := by
      rintro rfl
      rw [newest.stored] at free
      cases free
    rw [slot_insertion, if_neg apart]
    exact newest.stored
  flags := newest.flags
  sees := by
    rw [journal_insertion, seenBy_write isWrite]
    exact newest.sees

end Newest

end VersionStore

/-- Under a write every version has a writer over it. -/
theorem Position.ne_none {next : Nat} {versions : List Version} {version : Version}
    {older : List Version} : ¬ Position (some next) versions none version older := by
  induction versions generalizing next with
  | nil => exact not_position_nil
  | cons newer rest ih =>
      intro position
      rcases position_cons.mp position with ⟨same, -, -⟩ | position
      · cases same
      · exact ih position

/-- Nobody is over the newest version only. -/
theorem Position.head {next : Option Nat} {versions : List Version} {version : Version}
    {older : List Version} (position : Position next versions none version older) :
    next = none ∧ versions = version :: older := by
  cases position with
  | here => exact ⟨rfl, rfl⟩
  | under position => exact absurd position Position.ne_none

namespace Rep

/-- Every stored record is that of a version, or it is dead. -/
theorem record_cases (rep : Rep m) (stored : m.slot rid = some ⟨t, record⟩) :
    (∃ row ∈ m.rows, ∃ writer version older, row.Position writer version older ∧
      version.rid = rid ∧ row.tableId = t ∧ RecordOf m.undo writer version older record) ∨
      Dead m.manager record := by
  refine (rep.others rid _ stored).imp_left fun member => ?_
  obtain ⟨row, inRows, inRow⟩ := List.mem_flatMap.mp member
  obtain ⟨version, inVersions, rfl⟩ := List.mem_map.mp inRow
  obtain ⟨writer, older, position⟩ := @exists_position row.deletedBy _ _ inVersions
  obtain ⟨record', found, recordOf⟩ := rep.stored row inRows writer version older position
  rw [stored] at found
  cases found
  exact ⟨row, inRows, writer, version, older, position, rfl, rfl, recordOf⟩

/-- The row behind a record that may be written to. -/
theorem newest_row (rep : Rep m) (newest : m.Newest trx t rid record) :
    ∃ row ∈ m.rows, ∃ version older, row.versions = version :: older ∧ row.deletedBy = none ∧
      version.rid = rid ∧ row.tableId = t ∧ RecordOf m.undo none version older record := by
  rcases rep.record_cases newest.stored with
    ⟨row, inRows, writer, version, older, position, at_rid, table, recordOf⟩ | dead
  · cases writer with
    | none =>
        obtain ⟨deletedBy, versions⟩ := position.head
        exact ⟨row, inRows, version, older, versions, deletedBy, at_rid, table, recordOf⟩
    | some writer =>
        have flags := recordOf.2.2.1
        rw [newest.flags] at flags
        exact absurd flags (by decide)
  · have flags := dead.1
    rw [newest.flags] at flags
    exact absurd flags (by decide)

theorem deletion (rep : Rep m) (active : trx ∈ m.manager.activeTxns)
    (newest : m.Newest trx t rid record) (notNull : pointer.isNull = false)
    (saved : m.undo pointer = some record) {type : WriteType} (deletes : type.inserts = false) :
    Rep (m.deletion trx t rid record pointer type) := by
  obtain ⟨row, inRows, version, older, versions, undeleted, rfl, rfl, recordOf⟩ :=
    rep.newest_row newest
  have sees := newest.sees
  rw [recordOf.2.1, seenBy_iff] at sees
  let wr : WriteRecord :=
    { rid := version.rid
      type := type
      tableId := row.tableId
      prevTrxId := record.trxId
      prevRollPtr := record.rollPtr
      prevFlags := record.flags }
  have deleted : Rep ((m.put version.rid ⟨row.tableId, record.deleted trx pointer⟩).enter trx wr
      (.delete trx version.rid)) :=
    rep.delete active inRows versions undeleted (sees.imp_left Eq.symm) newest.stored notNull
      saved rfl rfl deletes rfl
  exact deleted.dropRow row.tableId

/-- A deletion, and a new version over the deleted one. -/
theorem replacement (rep : Rep m) (active : trx ∈ m.manager.activeTxns)
    (newest : m.Newest trx t rid record) (notNull : pointer.isNull = false)
    (saved : m.undo pointer = some record)
    (grown : (m.deletion trx t rid record pointer .updateDeleteOld).Extends m')
    (free : m'.slot new = none) (payload : List UInt8) :
    Rep (m'.insertion trx t new ⟨⟨trx, pointer, 0⟩, payload⟩ .updateInsertNew
      (.replace trx rid new payload)) := by
  have deleted : Rep (m.deletion trx t rid record pointer .updateDeleteOld) :=
    rep.deletion active newest notNull saved rfl
  obtain ⟨row, inRows, version, older, versions, undeleted, rfl, rfl, bytes, trxId, flags, chain⟩ :=
    rep.newest_row newest
  obtain ⟨before, after, split, apart⟩ := rep.split inRows
  have live : row.LiveAt version.rid := ⟨undeleted, by simp [versions]⟩
  have rows : m'.rows = before ++ { row with deletedBy := some trx } :: after := by
    rw [VersionStore.rows, grown.journal, VersionStore.journal_deletion, rowsOf_snoc]
    change applyEvent m.rows _ = _
    rw [split]
    exact rows_delete apart live trx
  have inRows' : { row with deletedBy := some trx } ∈ m'.rows := by
    rw [rows]
    exact List.mem_append_right _ (List.mem_cons_self ..)
  have undo : ∀ pointer record, m.undo pointer = some record → m'.undo pointer = some record :=
    grown.undo
  have chain' : ChainIs m'.undo pointer row.versions := by
    rw [versions]
    exact ⟨notNull, record, undo _ _ saved, trxId, flags, bytes, chain.mono undo⟩
  have replaced := @Rep.replace _ _ (deleted.extended grown) (grown.manager ▸ active) _ inRows' _ _
    versions rfl _ free _ payload chain'
  exact replaced.addRow row.tableId

end Rep

end YourSQL.Mvcc
