import YourSQL.Mvcc.ReadViews
import YourSQL.Transaction.Rollback

/-! # How rows are stored

Records, undo records, the manager and the journal, without pages. Every version of
a row has a record of its own; the newest one carries its writer, an older one the
writer of the next version and the delete flag. From each record a chain of undo
records leads to the versions under it. What is stored besides is dead.
-/

namespace YourSQL.Mvcc

structure VersionStore extends RecordStore where
  undo : UndoPointer → Option Record
  manager : TransactionManager
  journal : List Event

/-- Coming down from `next`, who wrote over the first version, one gets to a version
    with a writer over it and older versions under it. -/
inductive Position : Option Nat → List Version → Option Nat → Version → List Version → Prop
  | here {next version older} : Position next (version :: older) next version older
  | under {next newer rest writer version older} :
      Position (some newer.trx) rest writer version older →
      Position next (newer :: rest) writer version older

namespace LogicalRow

def Position (row : LogicalRow) (writer : Option Nat) (version : Version)
    (older : List Version) : Prop :=
  Mvcc.Position row.deletedBy row.versions writer version older

end LogicalRow

/-- The undo records from a pointer on are the versions, and then the chain ends. -/
def ChainIs (undo : UndoPointer → Option Record) (pointer : UndoPointer) : List Version → Prop
  | [] => pointer.isNull = true
  | version :: older =>
      pointer.isNull = false ∧ ∃ record, undo pointer = some record ∧
        record.trxId = version.trx ∧ record.flags = 0 ∧ record.payload = version.payload ∧
        ChainIs undo record.rollPtr older

/-- The record of a version with this writer over it. -/
def RecordOf (undo : UndoPointer → Option Record) (writer : Option Nat) (version : Version)
    (older : List Version) (record : Record) : Prop :=
  record.payload = version.payload ∧
    match writer with
    | none =>
        record.trxId = version.trx ∧ record.flags = 0 ∧ ChainIs undo record.rollPtr older
    | some trx =>
        record.trxId = trx ∧ record.flags = RECORD_DEL ∧
          ChainIs undo record.rollPtr (version :: older)

/-- What rollback leaves of an insertion. -/
def Dead (manager : TransactionManager) (record : Record) : Prop :=
  record.flags = RECORD_DEAD ∧ 1 ≤ record.trxId ∧ manager.isAborted record.trxId = true

namespace VersionStore

def rows (m : VersionStore) : List LogicalRow := rowsOf m.journal

/-- All addresses of versions. -/
def rids (m : VersionStore) : List RID := m.rows.flatMap LogicalRow.rids

def writeSet (m : VersionStore) (trx : Nat) : List WriteRecord :=
  (m.manager.transaction trx).writeSet

/-- Records, manager and journal are the same, and no undo record is lost. -/
structure Extends (m m' : VersionStore) : Prop where
  records : m'.toRecordStore = m.toRecordStore
  undo : ∀ pointer record, m.undo pointer = some record → m'.undo pointer = some record
  manager : m'.manager = m.manager
  journal : m'.journal = m.journal

theorem Extends.refl (m : VersionStore) : m.Extends m := ⟨rfl, fun _ _ found => found, rfl, rfl⟩

theorem Extends.trans {m m' m'' : VersionStore} (first : m.Extends m') (second : m'.Extends m'') :
    m.Extends m'' where
  records := second.records.trans first.records
  undo pointer record found := second.undo pointer record (first.undo pointer record found)
  manager := second.manager.trans first.manager
  journal := second.journal.trans first.journal

theorem Extends.slot {m m' : VersionStore} (grown : m.Extends m') : m'.slot = m.slot :=
  congrArg RecordStore.slot grown.records

end VersionStore

open Rollback (inserted)

/-- An insertion is entered once, and before deletions at its address. -/
def Ordered (writeSet : List WriteRecord) : Prop :=
  ∀ rid, inserted writeSet rid → ∃ before entry after,
    writeSet = before ++ entry :: after ∧ entry.rid = rid ∧ entry.type.inserts = true ∧
      (∀ wr ∈ before, wr.rid ≠ rid) ∧ ∀ wr ∈ after, wr.rid = rid → wr.type.inserts = false

/-- The write set of an active transaction lists its versions and what it deleted. -/
structure WriteSetOf (m : VersionStore) (trx : Nat) : Prop where
  inserted_iff : ∀ rid, inserted (m.writeSet trx) rid ↔
    ∃ row ∈ m.rows, ∃ version ∈ row.versions, version.rid = rid ∧ version.trx = trx
  /-- An entry of a deletion knows the header that the record had. -/
  undoes : ∀ wr ∈ m.writeSet trx, wr.type.inserts = false →
    ∃ row ∈ m.rows, ∃ version older, row.Position (some trx) version older ∧
      version.rid = wr.rid ∧ wr.prevTrxId = version.trx ∧ wr.prevFlags = 0 ∧
      ChainIs m.undo wr.prevRollPtr older
  recorded : ∀ row ∈ m.rows, ∀ version older, row.Position (some trx) version older →
    ∃ wr ∈ m.writeSet trx, wr.type.inserts = false ∧ wr.rid = version.rid
  ordered : Ordered (m.writeSet trx)
  tables : ∀ wr ∈ m.writeSet trx, ∃ slot, m.slot wr.rid = some slot ∧ wr.tableId = slot.tableId

/-- The store holds what the journal says. -/
structure Rep (m : VersionStore) : Prop where
  manager : ManagerInv m.manager m.journal
  nonempty : ∀ row ∈ m.rows, row.versions ≠ []
  stored : ∀ row ∈ m.rows, ∀ writer version older, row.Position writer version older →
    ∃ record, m.slot version.rid = some ⟨row.tableId, record⟩ ∧
      RecordOf m.undo writer version older record
  distinct : m.rids.Nodup
  others : ∀ rid slot, m.slot rid = some slot → rid ∈ m.rids ∨ Dead m.manager slot.record
  /-- Nobody writes over what is not in its snapshot. -/
  follows : ∀ row ∈ m.rows, ∀ trx version older, row.Position (some trx) version older →
    trx = version.trx ∨ version.trx ∈ snapshotOf trx m.journal
  known : ∀ row ∈ m.rows, ∀ trx ∈ row.trxs,
    trx ∈ m.manager.activeTxns ∨ trx ∈ committedOf m.journal
  writeSets : ∀ trx ∈ m.manager.activeTxns, WriteSetOf m trx

theorem Ordered.snoc {writeSet : List WriteRecord} (ordered : Ordered writeSet) {wr : WriteRecord}
    (fresh : wr.type.inserts = true → ∀ entry ∈ writeSet, entry.rid ≠ wr.rid) :
    Ordered (writeSet ++ [wr]) := by
  intro rid isInserted
  by_cases old : inserted writeSet rid
  · obtain ⟨before, entry, after, set, at_rid, inserts, first, later⟩ := ordered rid old
    refine ⟨before, entry, after ++ [wr], by simp [set], at_rid, inserts, first, ?_⟩
    intro entry' member same
    rcases List.mem_append.mp member with inAfter | last
    · exact later entry' inAfter same
    · obtain rfl := List.mem_singleton.mp last
      cases kind : entry'.type.inserts with
      | false => rfl
      | true => exact absurd (at_rid.trans same.symm) (fresh kind entry (by simp [set]))
  · obtain ⟨same, inserts⟩ := (Rollback.inserted_snoc.mp isInserted).resolve_left old
    exact ⟨writeSet, wr, [], rfl, same, inserts, fun entry member => same ▸ fresh inserts entry member,
      by simp⟩

/-! ## Positions -/

theorem position_cons {next writer : Option Nat} {first version : Version}
    {rest older : List Version} :
    Position next (first :: rest) writer version older ↔
      (writer = next ∧ version = first ∧ older = rest) ∨
        Position (some first.trx) rest writer version older := by
  constructor
  · intro position
    cases position with
    | here => exact .inl ⟨rfl, rfl, rfl⟩
    | under position => exact .inr position
  · rintro (⟨rfl, rfl, rfl⟩ | position)
    · exact .here
    · exact .under position

theorem not_position_nil {next writer : Option Nat} {version : Version} {older : List Version} :
    ¬ Position next [] writer version older := nofun

theorem Position.mem {next writer : Option Nat} {versions : List Version} {version : Version}
    {older : List Version} (position : Position next versions writer version older) :
    version ∈ versions := by
  induction position with
  | here => exact List.mem_cons_self ..
  | under _ ih => exact List.mem_cons_of_mem _ ih

/-- Every version has its position. -/
theorem exists_position {next : Option Nat} {versions : List Version} {version : Version}
    (member : version ∈ versions) : ∃ writer older, Position next versions writer version older := by
  induction versions generalizing next with
  | nil => cases member
  | cons first rest ih =>
      rcases List.mem_cons.mp member with rfl | later
      · exact ⟨_, _, .here⟩
      · obtain ⟨writer, older, position⟩ := ih later
        exact ⟨writer, older, .under position⟩

/-- Who is over a version has written to the row. -/
theorem Position.writer_mem {next : Option Nat} {versions : List Version} {trx : Nat}
    {version : Version} {older : List Version}
    (position : Position next versions (some trx) version older) :
    trx ∈ next.toList ++ versions.map Version.trx := by
  generalize same : some trx = writer at position
  induction position with
  | here =>
      subst same
      simp
  | under _ ih =>
      have := ih same
      simp only [Option.toList_some, List.singleton_append, List.mem_cons] at this
      simp only [List.map_cons, List.mem_append, List.mem_cons]
      exact .inr this

theorem ChainIs.mono {undo undo' : UndoPointer → Option Record}
    (grown : ∀ pointer record, undo pointer = some record → undo' pointer = some record)
    {versions : List Version} {pointer : UndoPointer} (chain : ChainIs undo pointer versions) :
    ChainIs undo' pointer versions := by
  induction versions generalizing pointer with
  | nil => exact chain
  | cons version older ih =>
      obtain ⟨notNull, record, found, trx, flags, payload, rest⟩ := chain
      exact ⟨notNull, record, grown _ _ found, trx, flags, payload, ih rest⟩

theorem RecordOf.mono {undo undo' : UndoPointer → Option Record}
    (grown : ∀ pointer record, undo pointer = some record → undo' pointer = some record)
    {writer : Option Nat} {version : Version} {older : List Version} {record : Record}
    (recordOf : RecordOf undo writer version older record) :
    RecordOf undo' writer version older record := by
  obtain ⟨payload, rest⟩ := recordOf
  cases writer with
  | none => exact ⟨payload, rest.1, rest.2.1, rest.2.2.mono grown⟩
  | some trx => exact ⟨payload, rest.1, rest.2.1, rest.2.2.mono grown⟩

namespace Rep

variable {m : VersionStore} {row other : LogicalRow} {rid : RID}

theorem mem_rids (member : row ∈ m.rows) (inRow : rid ∈ row.rids) : rid ∈ m.rids :=
  List.mem_flatMap.mpr ⟨row, member, inRow⟩

/-- The row between the other rows, none of which shares an address with it. -/
theorem split (rep : Rep m) (member : row ∈ m.rows) :
    ∃ before after, m.rows = before ++ row :: after ∧
      ∀ other ∈ before ++ after, ∀ rid ∈ row.rids, rid ∉ other.rids := by
  obtain ⟨before, after, rows⟩ := List.append_of_mem member
  refine ⟨before, after, rows, ?_⟩
  intro other inRest rid inRow inOther
  have distinct := rep.distinct
  rw [VersionStore.rids, rows] at distinct
  have moved : (before ++ row :: after).flatMap LogicalRow.rids |>.Perm
      (row.rids ++ (before ++ after).flatMap LogicalRow.rids) := by
    simp only [List.flatMap_append, List.flatMap_cons, ← List.append_assoc]
    exact List.perm_append_comm.append_right _
  have apart := List.nodup_append.mp (moved.nodup_iff.mp distinct)
  exact apart.2.2 rid inRow rid (List.mem_flatMap.mpr ⟨other, inRest, inOther⟩) rfl

/-- An address belongs to one row. -/
theorem row_unique (rep : Rep m) (member : row ∈ m.rows) (member' : other ∈ m.rows)
    (inRow : rid ∈ row.rids) (inOther : rid ∈ other.rids) : other = row := by
  obtain ⟨before, after, rows, apart⟩ := rep.split member
  by_contra ne
  apply apart other _ rid inRow inOther
  rw [rows, List.mem_append, List.mem_cons] at member'
  rw [List.mem_append]
  exact member'.imp_right fun later => later.resolve_left ne

end Rep

end YourSQL.Mvcc
