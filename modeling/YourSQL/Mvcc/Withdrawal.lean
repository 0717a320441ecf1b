import YourSQL.Mvcc.Changes

/-! # ABORT on the store of versions

Nobody under way is in a snapshot, so nobody writes over the versions of a transaction
under way but itself: they are the newest ones of their rows. The rollback kills their
records and puts back the headers under them, and the rows are what they were without
the transaction.
-/

namespace YourSQL

namespace Rollback

open RecordStore

theorem rollbackWrites_append (σ : RecordStore) (first second : List WriteRecord) :
    rollbackWrites σ (first ++ second) = rollbackWrites (rollbackWrites σ second) first := by
  simp [rollbackWrites]

/-- Where only deletions are undone, the record is as it was, or has one of their headers. -/
theorem slot_rollbackWrites_deletions {writeSet : List WriteRecord} {rid : RID}
    (deletes : ∀ wr ∈ writeSet, wr.rid = rid → wr.type.inserts = false) {σ : RecordStore}
    {slot : Slot} (found : σ.slot rid = some slot) :
    (¬ touched writeSet rid ∧ (rollbackWrites σ writeSet).slot rid = some slot) ∨
      ∃ wr ∈ writeSet, wr.rid = rid ∧ (rollbackWrites σ writeSet).slot rid =
        some ⟨slot.tableId, slot.record.restored wr.prevHeader⟩ := by
  induction writeSet using List.reverseRecOn generalizing σ slot with
  | nil => exact .inl ⟨by simp [touched], found⟩
  | append_singleton writeSet wr ih =>
      have earlier : ∀ wr ∈ writeSet, wr.rid = rid → wr.type.inserts = false :=
        fun wr member => deletes wr (List.mem_append_left _ member)
      rw [rollbackWrites_snoc]
      by_cases here : wr.rid = rid
      · have restored : (rollbackWrite σ wr).slot rid =
            some ⟨slot.tableId, slot.record.restored wr.prevHeader⟩ := by
          rw [rollbackWrite_of_deletes (deletes wr (by simp) here), here]
          exact slot_restoreRecord_self found _
        rcases ih earlier restored with ⟨-, last⟩ | ⟨wr', member, at_rid, last⟩
        · exact .inr ⟨wr, by simp, here, last⟩
        · exact .inr ⟨wr', List.mem_append_left _ member, at_rid, last⟩
      · have kept : (rollbackWrite σ wr).slot rid = some slot :=
          (slot_rollbackWrite_of_ne σ (Ne.symm here)).trans found
        rcases ih earlier kept with ⟨untouched, last⟩ | ⟨wr', member, at_rid, last⟩
        · exact .inl ⟨by simp [touched_snoc, untouched, here], last⟩
        · exact .inr ⟨wr', List.mem_append_left _ member, at_rid, last⟩

/-- No rollback moves a record to another table. -/
theorem slot_rollbackWrites_tableId (writeSet : List WriteRecord) {σ : RecordStore} {rid : RID}
    {slot : Slot} (found : σ.slot rid = some slot) :
    ∃ slot', (rollbackWrites σ writeSet).slot rid = some slot' ∧ slot'.tableId = slot.tableId := by
  induction writeSet using List.reverseRecOn generalizing σ slot with
  | nil => exact ⟨slot, found, rfl⟩
  | append_singleton writeSet wr ih =>
      have step : ∃ slot', (rollbackWrite σ wr).slot rid = some slot' ∧
          slot'.tableId = slot.tableId := by
        by_cases here : rid = wr.rid
        · subst here
          unfold rollbackWrite
          cases wr.type with
          | insert => exact ⟨_, slot_markDead_self found, rfl⟩
          | updateInsertNew => exact ⟨_, slot_markDead_self found, rfl⟩
          | delete => exact ⟨_, slot_restoreRecord_self found _, rfl⟩
          | updateDeleteOld => exact ⟨_, slot_restoreRecord_self found _, rfl⟩
        · exact ⟨slot, (slot_rollbackWrite_of_ne σ here).trans found, rfl⟩
      obtain ⟨slot', found', table⟩ := step
      obtain ⟨last, found'', table'⟩ := ih found'
      exact ⟨last, by rw [rollbackWrites_snoc, found''], table'.trans table⟩

end Rollback

namespace Mvcc

open Rollback (inserted touched)

variable {trx : Nat}

/-! ## Rows without a transaction -/

theorem withdraw_eq_some {row row' : LogicalRow} :
    row.withdraw trx = some row' ↔ row.versions.filter (·.trx != trx) ≠ [] ∧
      row' = { row with
        versions := row.versions.filter (·.trx != trx)
        deletedBy := row.deletedBy.filter (· != trx) } := by
  unfold LogicalRow.withdraw
  by_cases empty : row.versions.filter (·.trx != trx) = []
  · simp only [empty, if_true, ne_eq, not_true_eq_false, false_and, reduceCtorEq]
  · simp only [empty, if_false, ne_eq, not_false_eq_true, true_and, Option.some.injEq, eq_comm]

private theorem filter_own : (some trx).filter (· != trx) = none := by
  simp [Option.filter]

private theorem filter_other {writer : Nat} (other : writer ≠ trx) :
    (some writer).filter (· != trx) = some writer := by
  simp [Option.filter, other]

/-- Nobody but the transaction itself is over its versions. -/
def OnTop (trx : Nat) (next : Option Nat) (versions : List Version) : Prop :=
  ∀ writer version older, Position next versions (some writer) version older →
    version.trx = trx → writer = trx

theorem OnTop.under {next : Option Nat} {first : Version} {rest : List Version}
    (top : OnTop trx next (first :: rest)) : OnTop trx (some first.trx) rest :=
  fun writer version older position => top writer version older (.under position)

/-- Under somebody else's write there is none of the transaction's. -/
theorem OnTop.others {next : Nat} (other : next ≠ trx) {versions : List Version}
    (top : OnTop trx (some next) versions) : ∀ version ∈ versions, version.trx ≠ trx := by
  induction versions generalizing next with
  | nil => simp
  | cons first rest ih =>
      have here : first.trx ≠ trx := fun same => other (top next first rest .here same)
      intro version member
      rcases List.mem_cons.mp member with rfl | later
      · exact here
      · exact ih here top.under version later

theorem OnTop.filter_eq {next : Nat} (other : next ≠ trx) {versions : List Version}
    (top : OnTop trx (some next) versions) : versions.filter (·.trx != trx) = versions := by
  rw [List.filter_eq_self]
  intro version member
  simpa using top.others other version member

/-- What is left of a position when the transaction's versions are gone. -/
theorem position_withdrawn {next writer : Option Nat} {versions : List Version}
    {version : Version} {older : List Version} (top : OnTop trx next versions) :
    Position (next.filter (· != trx)) (versions.filter (·.trx != trx)) writer version older ↔
      version.trx ≠ trx ∧ ((Position next versions writer version older ∧ writer ≠ some trx) ∨
        (writer = none ∧ Position next versions (some trx) version older)) := by
  induction versions generalizing next with
  | nil => simp [not_position_nil]
  | cons first rest ih =>
      by_cases mine : first.trx = trx
      · have gone : (first :: rest).filter (·.trx != trx) = rest.filter (·.trx != trx) := by
          simp [mine]
        have hidden : next.filter (· != trx) = (some first.trx).filter (· != trx) := by
          rw [mine, filter_own]
          cases next with
          | none => rfl
          | some next => rw [top next first rest .here mine, filter_own]
        rw [gone, hidden, ih top.under]
        refine and_congr_right fun other => ?_
        have skip : version ≠ first := fun same => other (same ▸ mine)
        simp only [position_cons, skip, false_and, and_false, false_or]
      · have kept : (first :: rest).filter (·.trx != trx) = first :: rest.filter (·.trx != trx) := by
          simp [mine]
        have same : rest.filter (·.trx != trx) = rest := top.under.filter_eq mine
        rw [kept, same]
        have below : ∀ {w}, Position (some first.trx) rest (some w) version older → w ≠ trx := by
          intro w position
          have member := position.writer_mem
          simp only [Option.toList_some, List.singleton_append, List.mem_cons, List.mem_map]
            at member
          rcases member with rfl | ⟨v, inRest, rfl⟩
          · exact mine
          · exact top.under.others mine v inRest
        have inRest : ∀ {w}, Position (some first.trx) rest w version older → version.trx ≠ trx :=
          fun position => top.under.others mine version position.mem
        simp only [position_cons]
        constructor
        · rintro (⟨rfl, rfl, rfl⟩ | position)
          · refine ⟨mine, ?_⟩
            cases next with
            | none => exact .inl ⟨.inl ⟨rfl, rfl, rfl⟩, by simp⟩
            | some next =>
                by_cases own : next = trx
                · rw [own, filter_own]
                  exact .inr ⟨rfl, .inl ⟨rfl, rfl, rfl⟩⟩
                · rw [filter_other own]
                  exact .inl ⟨.inl ⟨rfl, rfl, rfl⟩, by simp [own]⟩
          · refine ⟨inRest position, .inl ⟨.inr position, ?_⟩⟩
            rintro rfl
            exact below position rfl
        · rintro ⟨-, ⟨⟨rfl, rfl, rfl⟩ | position, notOwn⟩ | ⟨rfl, ⟨same', rfl, rfl⟩ | position⟩⟩
          · refine .inl ⟨?_, rfl, rfl⟩
            cases writer with
            | none => rfl
            | some writer =>
                have own : writer ≠ trx := fun same => notOwn (same ▸ rfl)
                exact (filter_other own).symm
          · exact .inr position
          · exact .inl ⟨by rw [← same', filter_own], rfl, rfl⟩
          · exact absurd rfl (below position)

theorem rids_withdraw {row row' : LogicalRow} (left : row.withdraw trx = some row') :
    row'.rids.Sublist row.rids := by
  obtain ⟨-, rfl⟩ := withdraw_eq_some.mp left
  exact List.filter_sublist.map _

theorem flatMap_rids_withdraw (rows : List LogicalRow) (trx : Nat) :
    ((rows.filterMap (·.withdraw trx)).flatMap LogicalRow.rids).Sublist
      (rows.flatMap LogicalRow.rids) := by
  induction rows with
  | nil => simp
  | cons row rows ih =>
      rw [List.flatMap_cons]
      cases left : row.withdraw trx with
      | none =>
          simp only [List.filterMap_cons, left]
          exact ih.trans (List.sublist_append_right ..)
      | some row' =>
          simp only [List.filterMap_cons, left, List.flatMap_cons]
          exact (rids_withdraw left).append ih

/-- A row keeps a version that somebody else made. -/
theorem exists_withdraw {row : LogicalRow} {version : Version} (member : version ∈ row.versions)
    (other : version.trx ≠ trx) :
    ∃ row', row.withdraw trx = some row' ∧ version ∈ row'.versions := by
  have kept : version ∈ row.versions.filter (·.trx != trx) :=
    List.mem_filter.mpr ⟨member, by simpa using other⟩
  exact ⟨_, withdraw_eq_some.mpr ⟨List.ne_nil_of_mem kept, rfl⟩, kept⟩

theorem Position.unique {next writer writer' : Option Nat} {versions : List Version}
    {version version' : Version} {older older' : List Version}
    (distinct : (versions.map Version.rid).Nodup)
    (position : Position next versions writer version older)
    (position' : Position next versions writer' version' older')
    (same : version'.rid = version.rid) :
    writer' = writer ∧ version' = version ∧ older' = older := by
  induction position with
  | here =>
      rcases position_cons.mp position' with ⟨rfl, rfl, rfl⟩ | below
      · exact ⟨rfl, rfl, rfl⟩
      · rw [List.map_cons, List.nodup_cons] at distinct
        exact absurd (List.mem_map.mpr ⟨_, below.mem, same⟩) distinct.1
  | under position ih =>
      rw [List.map_cons, List.nodup_cons] at distinct
      rcases position_cons.mp position' with ⟨rfl, rfl, rfl⟩ | below
      · exact absurd (List.mem_map.mpr ⟨_, position.mem, same.symm⟩) distinct.1
      · exact ih distinct.2 below same

namespace Rep

variable {m : VersionStore} {row other : LogicalRow} {writer writer' : Option Nat}
  {version version' : Version} {older older' : List Version}

/-- An address is that of one version at one position. -/
theorem position_unique (rep : Rep m) (member : row ∈ m.rows) (member' : other ∈ m.rows)
    (position : row.Position writer version older)
    (position' : other.Position writer' version' older') (same : version'.rid = version.rid) :
    other = row ∧ writer' = writer ∧ version' = version ∧ older' = older := by
  obtain rfl := rep.row_unique member member' (List.mem_map.mpr ⟨_, position.mem, rfl⟩)
    (same ▸ List.mem_map.mpr ⟨_, position'.mem, rfl⟩)
  have distinct := rep.distinct
  rw [VersionStore.rids, List.nodup_flatMap] at distinct
  exact ⟨rfl, Position.unique (distinct.1 _ member) position position' same⟩

theorem onTop (rep : Rep m) (active : trx ∈ m.manager.activeTxns) (member : row ∈ m.rows) :
    OnTop trx row.deletedBy row.versions := by
  intro w v o position mine
  rcases rep.follows row member w v o position with same | inside
  · exact same.trans mine
  · rw [mine] at inside
    exact absurd (mem_committedOf_of_snapshotOf inside)
      (rep.manager.not_committed_of_active active)

/-- Somebody else's record under somebody else's write is not touched. -/
theorem slot_rollback_of_others (rep : Rep m) (active : trx ∈ m.manager.activeTxns)
    (member : row ∈ m.rows) (position : row.Position writer version older)
    (others : version.trx ≠ trx) (notOver : writer ≠ some trx) {σ : RecordStore}
    (stores : σ.slot = m.slot) :
    (Rollback.rollbackWrites σ (m.writeSet trx)).slot version.rid = m.slot version.rid := by
  have has := rep.writeSets trx active
  rw [Rollback.slot_rollbackWrites_of_untouched _ σ, stores]
  rintro ⟨wr, inSet, at_rid⟩
  cases kind : wr.type.inserts with
  | true =>
      obtain ⟨row', member', version', inVersions, same, mine⟩ :=
        (has.inserted_iff version.rid).mp ⟨wr, inSet, at_rid, kind⟩
      obtain ⟨writer', older', position'⟩ := @exists_position row'.deletedBy _ _ inVersions
      obtain ⟨-, -, rfl, -⟩ := rep.position_unique member member' position position' same
      exact others mine
  | false =>
      obtain ⟨row', member', version', older', position', same, -⟩ := has.undoes wr inSet kind
      obtain ⟨-, same, -⟩ := rep.position_unique member member' position position'
        (same.trans at_rid)
      exact notOver same.symm

/-- Under the transaction's write, the record gets back the header of its version. -/
theorem slot_rollback_of_over (rep : Rep m) (active : trx ∈ m.manager.activeTxns)
    (member : row ∈ m.rows) (position : row.Position (some trx) version older)
    (others : version.trx ≠ trx) {σ : RecordStore} (stores : σ.slot = m.slot) :
    ∃ record, (Rollback.rollbackWrites σ (m.writeSet trx)).slot version.rid =
      some ⟨row.tableId, record⟩ ∧ RecordOf m.undo none version older record := by
  have has := rep.writeSets trx active
  obtain ⟨record, found, payload, -⟩ := rep.stored row member _ _ _ position
  have deletes : ∀ wr ∈ m.writeSet trx, wr.rid = version.rid → wr.type.inserts = false := by
    intro wr inSet at_rid
    by_contra kind
    obtain ⟨row', member', version', inVersions, same, mine⟩ :=
      (has.inserted_iff version.rid).mp ⟨wr, inSet, at_rid, by simpa using kind⟩
    obtain ⟨writer', older', position'⟩ := @exists_position row'.deletedBy _ _ inVersions
    obtain ⟨-, -, rfl, -⟩ := rep.position_unique member member' position position' same
    exact others mine
  rcases Rollback.slot_rollbackWrites_deletions deletes (stores ▸ found) with
    ⟨untouched, -⟩ | ⟨wr, inSet, at_rid, last⟩
  · obtain ⟨wr, inSet, -, at_rid⟩ := has.recorded row member version older position
    exact absurd ⟨wr, inSet, at_rid⟩ untouched
  · obtain ⟨row', member', version', older', position', same, prevTrx, prevFlags, chain⟩ :=
      has.undoes wr inSet (deletes wr inSet at_rid)
    obtain ⟨-, -, rfl, rfl⟩ := rep.position_unique member member' position position'
      (same.trans at_rid)
    exact ⟨_, last, payload, prevTrx, prevFlags, chain⟩

/-- The transaction's own record dies. -/
theorem slot_rollback_of_own (rep : Rep m) (active : trx ∈ m.manager.activeTxns)
    (member : row ∈ m.rows) (position : row.Position writer version older)
    (mine : version.trx = trx) {σ : RecordStore} (stores : σ.slot = m.slot) :
    ∃ slot, (Rollback.rollbackWrites σ (m.writeSet trx)).slot version.rid = some slot ∧
      slot.record.flags = RECORD_DEAD ∧ slot.record.trxId = trx := by
  have has := rep.writeSets trx active
  obtain ⟨record, found, payload, rest⟩ := rep.stored row member _ _ _ position
  obtain ⟨before, entry, after, set, at_rid, inserts, first, later⟩ :=
    has.ordered version.rid ((has.inserted_iff _).mpr
      ⟨row, member, version, position.mem, rfl, mine⟩)
  have undone : ∃ slot, (Rollback.rollbackWrites σ after).slot version.rid = some slot ∧
      slot.record.flags = 0 ∧ slot.record.trxId = trx := by
    rcases Rollback.slot_rollbackWrites_deletions later (stores ▸ found) with
      ⟨untouched, last⟩ | ⟨wr, inAfter, same, last⟩
    · refine ⟨_, last, ?_⟩
      cases writer with
      | none => exact ⟨rest.2.1, rest.1.trans mine⟩
      | some w =>
          obtain rfl := rep.onTop active member w version older position mine
          obtain ⟨wr, inSet, deletes, same⟩ := has.recorded row member version older position
          rw [set, List.mem_append, List.mem_cons] at inSet
          rcases inSet with inBefore | rfl | inAfter
          · exact absurd same (first wr inBefore)
          · rw [inserts] at deletes
            cases deletes
          · exact absurd ⟨wr, inAfter, same⟩ untouched
    · obtain ⟨row', member', version', older', position', same', prevTrx, prevFlags, -⟩ :=
        has.undoes wr (by simp [set, inAfter]) (later wr inAfter same)
      obtain ⟨-, -, rfl, -⟩ := rep.position_unique member member' position position'
        (same'.trans same)
      exact ⟨_, last, prevFlags, prevTrx.trans mine⟩
  obtain ⟨slot, last, flags, trxId⟩ := undone
  have killed : (Rollback.rollbackWrite (Rollback.rollbackWrites σ after) entry).slot version.rid =
      some ⟨slot.tableId, slot.record.killed⟩ := by
    unfold Rollback.rollbackWrite
    cases type : entry.type with
    | insert => exact at_rid ▸ RecordStore.slot_markDead_self (at_rid.symm ▸ last)
    | updateInsertNew => exact at_rid ▸ RecordStore.slot_markDead_self (at_rid.symm ▸ last)
    | delete => simp [WriteType.inserts, type] at inserts
    | updateDeleteOld => simp [WriteType.inserts, type] at inserts
  have untouched : ¬ touched before version.rid := by
    rintro ⟨wr, inBefore, same⟩
    exact first wr inBefore same
  refine ⟨⟨slot.tableId, slot.record.killed⟩, ?_, ?_, trxId⟩
  · rw [set, List.append_cons, Rollback.rollbackWrites_append, Rollback.rollbackWrites_append,
      Rollback.slot_rollbackWrites_of_untouched untouched]
    exact killed
  · simp [Record.killed, flags]

/-- ABORT. -/
theorem abort (rep : Rep m) (active : trx ∈ m.manager.activeTxns) :
    Rep { m with
      toRecordStore := Rollback.rollbackWrites m.toRecordStore (m.writeSet trx)
      manager := m.manager.finish trx .aborted
      journal := m.journal ++ [.abort trx] } := by
  let m' : VersionStore :=
    { m with
      toRecordStore := Rollback.rollbackWrites m.toRecordStore (m.writeSet trx)
      manager := m.manager.finish trx .aborted
      journal := m.journal ++ [.abort trx] }
  have rows : m'.rows = m.rows.filterMap (·.withdraw trx) := rowsOf_snoc m.journal (.abort trx)
  have committed : committedOf m'.journal = committedOf m.journal := by
    rw [committedOf_snoc]
    simp [committedOf]
  have snapshot : ∀ t, snapshotOf t m'.journal = snapshotOf t m.journal :=
    fun t => snapshotOf_snoc_of_ne (by simp) m.journal
  have aborted : ∀ v, v = trx ∨ m.manager.isAborted v = true → m'.manager.isAborted v = true := by
    intro v known
    rcases known with rfl | before
    · simp [m', TransactionManager.isAborted]
    · exact rep.manager.isAborted_finish active .aborted before
  -- where a position of a row that is left comes from
  have mem_rows : ∀ {row'}, row' ∈ m'.rows → ∃ row ∈ m.rows, row.withdraw trx = some row' :=
    fun member => List.mem_filterMap.mp (rows ▸ member)
  have positions : ∀ {row row' writer version older}, row ∈ m.rows →
      row.withdraw trx = some row' → (row'.Position writer version older ↔ version.trx ≠ trx ∧
        ((row.Position writer version older ∧ writer ≠ some trx) ∨
          (writer = none ∧ row.Position (some trx) version older))) := by
    intro row row' writer version older member left
    obtain ⟨-, rfl⟩ := withdraw_eq_some.mp left
    exact position_withdrawn (rep.onTop active member)
  have table : ∀ {row row' : LogicalRow}, row.withdraw trx = some row' → row'.tableId = row.tableId := by
    intro row row' left
    obtain ⟨-, rfl⟩ := withdraw_eq_some.mp left
    rfl
  refine
    { manager := rep.manager.finish active (.inr ⟨rfl, rfl⟩)
      nonempty := ?_
      stored := ?_
      distinct := ?_
      others := ?_
      follows := ?_
      known := ?_
      writeSets := ?_ }
  · intro row' member'
    obtain ⟨row, member, left⟩ := mem_rows member'
    obtain ⟨nonempty, rfl⟩ := withdraw_eq_some.mp left
    exact nonempty
  · intro row' member' writer version older position'
    obtain ⟨row, member, left⟩ := mem_rows member'
    rw [table left]
    obtain ⟨others, ⟨position, notOver⟩ | ⟨rfl, position⟩⟩ := (positions member left).mp position'
    · obtain ⟨record, found, recordOf⟩ := rep.stored row member writer version older position
      exact ⟨record, (rep.slot_rollback_of_others active member position others notOver rfl).trans
        found, recordOf⟩
    · exact rep.slot_rollback_of_over active member position others rfl
  · have sub := flatMap_rids_withdraw m.rows trx
    rw [← rows] at sub
    exact rep.distinct.sublist sub
  · intro rid slot found
    by_cases inRids : rid ∈ m.rids
    · obtain ⟨row, member, inRow⟩ := List.mem_flatMap.mp inRids
      obtain ⟨version, inVersions, rfl⟩ := List.mem_map.mp inRow
      obtain ⟨writer, older, position⟩ := @exists_position row.deletedBy _ _ inVersions
      by_cases mine : version.trx = trx
      · obtain ⟨slot', found', flags, trxId⟩ :=
          rep.slot_rollback_of_own active member position mine rfl
        obtain rfl : slot' = slot := Option.some.inj (found'.symm.trans found)
        refine .inr ⟨flags, ?_, aborted _ (.inl trxId)⟩
        rw [trxId]
        exact (rep.manager.issued trx active).1
      · obtain ⟨row', left, kept⟩ := exists_withdraw inVersions mine
        exact .inl (List.mem_flatMap.mpr ⟨row', rows ▸ List.mem_filterMap.mpr ⟨row, member, left⟩,
          List.mem_map.mpr ⟨version, kept, rfl⟩⟩)
    · have has := rep.writeSets trx active
      have untouched : ¬ touched (m.writeSet trx) rid := by
        rintro ⟨wr, inSet, at_rid⟩
        apply inRids
        cases kind : wr.type.inserts with
        | true =>
            obtain ⟨row, member, version, inVersions, same, -⟩ :=
              (has.inserted_iff rid).mp ⟨wr, inSet, at_rid, kind⟩
            exact mem_rids member (List.mem_map.mpr ⟨version, inVersions, same⟩)
        | false =>
            obtain ⟨row, member, version, older, position, same, -⟩ := has.undoes wr inSet kind
            exact mem_rids member (List.mem_map.mpr ⟨version, position.mem, same.trans at_rid⟩)
      have before : m.slot rid = some slot := by
        rw [← found]
        exact (Rollback.slot_rollbackWrites_of_untouched untouched m.toRecordStore).symm
      obtain ⟨flags, positive, dead⟩ := (rep.others rid slot before).resolve_left inRids
      exact .inr ⟨flags, positive, aborted _ (.inr dead)⟩
  · intro row' member' t version older position'
    obtain ⟨row, member, left⟩ := mem_rows member'
    rw [snapshot]
    obtain ⟨-, ⟨position, -⟩ | ⟨same, -⟩⟩ := (positions member left).mp position'
    · exact rep.follows row member t version older position
    · cases same
  · intro row' member' t inRow'
    obtain ⟨row, member, left⟩ := mem_rows member'
    obtain ⟨-, rfl⟩ := withdraw_eq_some.mp left
    have inRow : t ∈ row.trxs ∧ t ≠ trx := by
      simp only [LogicalRow.trxs, List.mem_append, Option.mem_toList, Option.filter_eq_some_iff,
        List.mem_map, List.mem_filter, bne_iff_ne] at inRow' ⊢
      rcases inRow' with ⟨deleted, other⟩ | ⟨version, ⟨inVersions, other⟩, rfl⟩
      · exact ⟨.inl deleted, other⟩
      · exact ⟨.inr ⟨version, inVersions, rfl⟩, other⟩
    rw [committed]
    refine (rep.known row member t inRow.1).imp_left fun active' => ?_
    exact TransactionManager.mem_finish_activeTxns.mpr ⟨active', inRow.2⟩
  · intro t active'
    obtain ⟨activeBefore, other⟩ := TransactionManager.mem_finish_activeTxns.mp active'
    have has := rep.writeSets t activeBefore
    have writeSet : m'.writeSet t = m.writeSet t :=
      congrArg Transaction.writeSet (m.manager.finish_transaction_of_ne other .aborted)
    have others : ∀ {row version older}, row ∈ m.rows → row.Position (some t) version older →
        version.trx ≠ trx := by
      intro row version older member position mine
      exact other (rep.onTop active member t version older position mine)
    refine
      { inserted_iff := ?_
        undoes := ?_
        recorded := ?_
        ordered := writeSet ▸ has.ordered
        tables := ?_ }
    · intro rid
      rw [writeSet, has.inserted_iff]
      constructor
      · rintro ⟨row, member, version, inVersions, at_rid, same⟩
        obtain ⟨row', left, kept⟩ := exists_withdraw inVersions (same ▸ other)
        exact ⟨row', rows ▸ List.mem_filterMap.mpr ⟨row, member, left⟩, version, kept, at_rid, same⟩
      · rintro ⟨row', member', version, inVersions, at_rid, same⟩
        obtain ⟨row, member, left⟩ := mem_rows member'
        obtain ⟨-, rfl⟩ := withdraw_eq_some.mp left
        exact ⟨row, member, version, (List.mem_filter.mp inVersions).1, at_rid, same⟩
    · rw [writeSet]
      intro wr inSet deletes
      obtain ⟨row, member, version, older, position, rest⟩ := has.undoes wr inSet deletes
      have foreign := others member position
      obtain ⟨row', left, -⟩ := exists_withdraw position.mem foreign
      refine ⟨row', rows ▸ List.mem_filterMap.mpr ⟨row, member, left⟩, version, older, ?_, rest⟩
      exact (positions member left).mpr ⟨foreign, .inl ⟨position, by simpa using other⟩⟩
    · intro row' member' version older position'
      obtain ⟨row, member, left⟩ := mem_rows member'
      rw [writeSet]
      obtain ⟨-, ⟨position, -⟩ | ⟨same, -⟩⟩ := (positions member left).mp position'
      · exact has.recorded row member version older position
      · cases same
    · rw [writeSet]
      intro wr inSet
      obtain ⟨slot, found, tableId⟩ := has.tables wr inSet
      obtain ⟨slot', found', same⟩ :=
        Rollback.slot_rollbackWrites_tableId (m.writeSet trx) found
      exact ⟨slot', found', tableId.trans same.symm⟩

end Rep

end Mvcc

end YourSQL
