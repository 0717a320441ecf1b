import YourSQL.Mvcc.RowWrites
import YourSQL.Transaction.UndoLog
import Mathlib.Logic.Relation

/-! # Who may write over a record

Nothing locks a row. A statement saves, deletes and stores one record at a time, and it
leaves alone what is deleted and what another transaction under way has written. That is
enough for the record to stay as its writer left it, and for the header in the writer's
write set to stay the one under it.
-/

namespace YourSQL.Mvcc

variable {m m' m'' : VersionStore} {trx v : Nat}

/-- A record that the transaction may write over: not deleted, and if its writer is under
    way, then the writer is the transaction itself. Nor has the writer been rolled back. -/
structure Free (m : VersionStore) (trx : Nat) (record : Record) : Prop where
  alive : record.isDel = false
  own : record.trxId ∈ m.manager.activeTxns → record.trxId = trx
  stands : 1 ≤ record.trxId → m.manager.isAborted record.trxId = false

/-- The roll pointer is null, or there is a record where it leads to. -/
def Anchored (m : VersionStore) (record : Record) : Prop :=
  record.rollPtr.isNull = true ∨ ∃ older, m.undo record.rollPtr = some older

/-- One change that a statement makes. A new version without a place is entered under an
    address that no record has. -/
inductive Step (trx : Nat) : VersionStore → VersionStore → Prop
  | save {m rid t old pointer} : m.slot rid = some ⟨t, old⟩ → Free m trx old →
      pointer.IsNext m.undo → Step trx m (m.save pointer old)
  | delete {m rid t old pointer type} : m.slot rid = some ⟨t, old⟩ → Free m trx old →
      m.undo pointer = some old → type.inserts = false →
      Step trx m (m.deletion trx t rid old pointer type)
  | insert {m rid t record type event} : m.slot rid = none → rid ≠ ⟨0, 0⟩ →
      record.trxId = trx → record.flags = 0 → Anchored m record → type.inserts = true →
      IsWrite event → Step trx m (m.insertion trx t rid record type event)
  | lose {m t event} : IsWrite event →
      Step trx m (m.enter trx { rid := ⟨0, 0⟩, type := .updateInsertNew, tableId := t } event)

/-- What a transaction under way can rely on: each of its deletions stands as it was made,
    over the header that the entry keeps, and its insertions are its own. -/
structure Owns (m : VersionStore) (trx : Nat) : Prop where
  deleted : ∀ wr ∈ m.writeSet trx, wr.type.inserts = false →
    ∃ old pointer, old.toRecordHeader = wr.prevHeader ∧ old.isDel = false ∧
      m.slot wr.rid = some ⟨wr.tableId, old.deleted trx pointer⟩ ∧ m.undo pointer = some old
  inserted : ∀ wr ∈ m.writeSet trx, wr.type.inserts = true →
    wr.rid = ⟨0, 0⟩ ∨ ∃ record, m.slot wr.rid = some ⟨wr.tableId, record⟩ ∧ record.trxId = trx
  /-- Over its own insertions it has deleted its own records. -/
  mine : ∀ wr ∈ m.writeSet trx, wr.type.inserts = false →
    Rollback.inserted (m.writeSet trx) wr.rid → wr.prevTrxId = trx
  /-- At one address there is at most one insertion, and one deletion behind it. -/
  once : (m.writeSet trx).Pairwise fun earlier later => earlier.rid = later.rid →
    earlier.rid ≠ ⟨0, 0⟩ → earlier.type.inserts = true ∧ later.type.inserts = false

structure Guarded (m : VersionStore) : Prop where
  manager : ManagerInv m.manager m.journal
  nowhere : m.slot ⟨0, 0⟩ = none
  owns : ∀ trx ∈ m.manager.activeTxns, Owns m trx
  /-- Only rollback kills. -/
  buried : ∀ rid slot, m.slot rid = some slot → slot.record.isDead = true →
    1 ≤ slot.record.trxId ∧ m.manager.isAborted slot.record.trxId = true

/-- From one store to another, only records of a kind are written to or saved. -/
structure Keeps (touched : Record → Prop) (m m' : VersionStore) : Prop where
  slot : ∀ rid slot, m.slot rid = some slot → ¬ touched slot.record → m'.slot rid = some slot
  undo : ∀ pointer record, m.undo pointer = some record → m'.undo pointer = some record
  saved : ∀ pointer record, m.undo pointer = none → m'.undo pointer = some record →
    touched record

/-- What a statement of the transaction leaves alone. -/
structure Spares (trx : Nat) (m m' : VersionStore) : Prop extends Keeps (Free m trx) m m' where
  activeTxns : m'.manager.activeTxns = m.manager.activeTxns
  txnState : m'.manager.txnState = m.manager.txnState
  readView : ∀ v, (m'.manager.transaction v).readView = (m.manager.transaction v).readView

/-- Records that stay where they are, and nothing saved. -/
theorem Keeps.of_undo {touched : Record → Prop} (undo : m'.undo = m.undo)
    (slot : ∀ rid slot, m.slot rid = some slot → ¬ touched slot.record → m'.slot rid = some slot) :
    Keeps touched m m' where
  slot := slot
  undo _ _ found := undo ▸ found
  saved pointer record unused found := by
    rw [undo, unused] at found
    cases found

theorem Free.congr {record : Record} (free : Free m trx record)
    (activeTxns : m'.manager.activeTxns = m.manager.activeTxns)
    (txnState : m'.manager.txnState = m.manager.txnState) : Free m' trx record where
  alive := free.alive
  own := activeTxns ▸ free.own
  stands := by
    rw [TransactionManager.isAborted, txnState]
    exact free.stands

namespace Spares

theorem refl (trx : Nat) (m : VersionStore) : Spares trx m m where
  toKeeps := .of_undo rfl fun _ _ found _ => found
  activeTxns := rfl
  txnState := rfl
  readView _ := rfl

theorem trans (first : Spares trx m m') (second : Spares trx m' m'') : Spares trx m m'' where
  activeTxns := second.activeTxns.trans first.activeTxns
  txnState := second.txnState.trans first.txnState
  readView v := (second.readView v).trans (first.readView v)
  slot rid slot found taken := second.slot rid slot (first.slot rid slot found taken) fun free =>
    taken (free.congr first.activeTxns.symm first.txnState.symm)
  undo pointer record found := second.undo pointer record (first.undo pointer record found)
  saved pointer record unused found := by
    cases before : m'.undo pointer with
    | none =>
        exact (second.saved pointer record before found).congr first.activeTxns.symm
          first.txnState.symm
    | some record' =>
        have later := second.undo pointer record' before
        rw [found] at later
        cases later
        exact first.saved pointer record unused before

end Spares

/-- A record of a transaction under way that has no delete flag is not one that another
    transaction may write over. -/
theorem not_free {record : Record} (active : record.trxId ∈ m.manager.activeTxns)
    (other : record.trxId ≠ trx) : ¬ Free m trx record := fun free => other (free.own active)

theorem not_free_deleted (old : Record) (pointer : UndoPointer) :
    ¬ Free m trx (old.deleted v pointer) := by
  intro free
  have alive := free.alive
  rw [Record.isDel_deleted] at alive
  cases alive

/-- A write set grows, and the read views stay. -/
theorem VersionStore.readView_enter (m : VersionStore) (trx : Nat) (wr : WriteRecord)
    (event : Event) (v : Nat) :
    ((m.enter trx wr event).manager.transaction v).readView =
      (m.manager.transaction v).readView := by
  by_cases same : v = trx
  · subst same
    simp [VersionStore.enter, TransactionManager.pushWrite]
  · simp [VersionStore.enter, TransactionManager.pushWrite, same]

namespace Step

theorem spares (step : Step trx m m') : Spares trx m m' := by
  cases step with
  | @save rid t old pointer stored free next =>
      have grown := VersionStore.extends_save next.unused old
      refine
        { activeTxns := rfl
          txnState := rfl
          readView := fun _ => rfl
          slot := fun _ _ found _ => found
          undo := grown.undo
          saved := ?_ }
      intro pointer' record before found
      by_cases same : pointer' = pointer
      · subst same
        rw [VersionStore.undo_save_self] at found
        cases found
        exact free
      · have other : (m.save pointer old).undo pointer' = m.undo pointer' :=
          Function.update_of_ne same ..
        rw [other, before] at found
        cases found
  | @delete rid t old pointer type stored free saved deletes =>
      refine
        { activeTxns := rfl
          txnState := rfl
          readView := VersionStore.readView_enter _ trx _ _
          toKeeps := .of_undo rfl ?_ }
      intro other slot found taken
      have apart : other ≠ rid := by
        rintro rfl
        rw [stored] at found
        cases found
        exact taken free
      rw [VersionStore.slot_deletion, if_neg apart]
      exact found
  | @insert rid t record type event unused _ _ _ _ _ _ =>
      refine
        { activeTxns := rfl
          txnState := rfl
          readView := VersionStore.readView_enter _ trx _ _
          toKeeps := .of_undo rfl ?_ }
      intro other slot found _
      have apart : other ≠ rid := by
        rintro rfl
        rw [unused] at found
        cases found
      rw [VersionStore.slot_insertion, if_neg apart]
      exact found
  | lose _ =>
      exact
        { activeTxns := rfl
          txnState := rfl
          readView := VersionStore.readView_enter m trx _ _
          toKeeps := .of_undo rfl fun _ _ found _ => found }

end Step

/-! ## What each step keeps -/

namespace Owns

/-- The writes of another transaction. -/
theorem spared (owns : Owns m v) (active : v ∈ m.manager.activeTxns) (other : v ≠ trx)
    (spares : Spares trx m m') (writeSet : m'.writeSet v = m.writeSet v) : Owns m' v where
  deleted wr member deletes := by
    rw [writeSet] at member
    obtain ⟨old, pointer, header, alive, stored, saved⟩ := owns.deleted wr member deletes
    exact ⟨old, pointer, header, alive,
      spares.slot _ _ stored (not_free_deleted old pointer), spares.undo _ _ saved⟩
  inserted wr member inserts := by
    rw [writeSet] at member
    refine (owns.inserted wr member inserts).imp_right ?_
    rintro ⟨record, stored, own⟩
    exact ⟨record, spares.slot _ _ stored (not_free (own ▸ active) (own ▸ other)), own⟩
  mine := by
    rw [writeSet]
    exact owns.mine
  once := by
    rw [writeSet]
    exact owns.once

/-- One more entry of the transaction itself. Where it deletes, all that is known of the
    address is an insertion of its own. -/
theorem write (owns : Owns m trx) (nowhere : m.slot ⟨0, 0⟩ = none) {wr : WriteRecord}
    (writeSet : m'.writeSet trx = m.writeSet trx ++ [wr])
    (undo : ∀ pointer record, m.undo pointer = some record → m'.undo pointer = some record)
    (slot : ∀ rid, rid ≠ wr.rid → m'.slot rid = m.slot rid)
    (new : wr.type.inserts = true ∧ m.slot wr.rid = none ∧ (wr.rid = ⟨0, 0⟩ ∨
          ∃ record, m'.slot wr.rid = some ⟨wr.tableId, record⟩ ∧ record.trxId = trx) ∨
      wr.type.inserts = false ∧ ∃ old pointer, old.toRecordHeader = wr.prevHeader ∧
        old.isDel = false ∧ m.slot wr.rid = some ⟨wr.tableId, old⟩ ∧
        m'.slot wr.rid = some ⟨wr.tableId, old.deleted trx pointer⟩ ∧
        m'.undo pointer = some old) : Owns m' trx := by
  -- a deletion so far is elsewhere, and so is an insertion unless it is the one deleted now
  have apart : ∀ entry ∈ m.writeSet trx, entry.type.inserts = false → entry.rid ≠ wr.rid := by
    intro entry member deletes same
    obtain ⟨old, pointer, -, -, stored, -⟩ := owns.deleted entry member deletes
    rw [same] at stored
    rcases new with ⟨-, unused, -⟩ | ⟨-, old', -, -, alive, stored', -⟩
    · rw [unused] at stored
      cases stored
    · rw [stored', Option.some.injEq, Slot.mk.injEq] at stored
      rw [stored.2, Record.isDel_deleted] at alive
      cases alive
  refine
    { deleted := ?_
      inserted := ?_
      mine := ?_
      once := ?_ }
  · intro entry member deletes
    rw [writeSet, List.mem_append, List.mem_singleton] at member
    rcases member with earlier | rfl
    · obtain ⟨old, pointer, header, alive, stored, saved⟩ := owns.deleted entry earlier deletes
      exact ⟨old, pointer, header, alive,
        (slot _ (apart entry earlier deletes)).trans stored, undo _ _ saved⟩
    · rcases new with ⟨inserts, -⟩ | ⟨-, old, pointer, header, alive, -, stored, saved⟩
      · rw [deletes] at inserts
        cases inserts
      · exact ⟨old, pointer, header, alive, stored, saved⟩
  · intro entry member inserts
    rw [writeSet, List.mem_append, List.mem_singleton] at member
    rcases member with earlier | rfl
    · refine (owns.inserted entry earlier inserts).imp_right ?_
      rintro ⟨record, stored, own⟩
      by_cases here : entry.rid = wr.rid
      · rcases new with ⟨-, unused, -⟩ | ⟨-, old, pointer, -, -, stored', deleted, -⟩
        · rw [here, unused] at stored
          cases stored
        · rw [here, stored', Option.some.injEq, Slot.mk.injEq] at stored
          rw [here, ← stored.1]
          exact ⟨_, deleted, rfl⟩
      · exact ⟨record, (slot _ here).trans stored, own⟩
    · rcases new with ⟨-, -, stored⟩ | ⟨deletes, -⟩
      · exact stored
      · rw [inserts] at deletes
        cases deletes
  · intro entry member deletes isInserted
    rw [writeSet, Rollback.inserted_snoc] at isInserted
    rw [writeSet, List.mem_append, List.mem_singleton] at member
    rcases member with earlier | rfl
    · rcases isInserted with before | ⟨same, -⟩
      · exact owns.mine entry earlier deletes before
      · exact absurd same.symm (apart entry earlier deletes)
    · rcases isInserted with ⟨first, member, same, inserts⟩ | ⟨-, inserts⟩
      · rcases new with ⟨inserts', -⟩ | ⟨-, old, pointer, header, -, stored, -⟩
        · rw [deletes] at inserts'
          cases inserts'
        · rcases owns.inserted first member inserts with zero | ⟨record, stored', own⟩
          · rw [← same, zero, nowhere] at stored
            cases stored
          · rw [same, stored, Option.some.injEq, Slot.mk.injEq] at stored'
            rw [← own, ← stored'.2]
            exact congrArg RecordHeader.trxId header.symm
      · rw [deletes] at inserts
        cases inserts
  · rw [writeSet, List.pairwise_append]
    refine ⟨owns.once, List.pairwise_singleton _ _, ?_⟩
    intro earlier member later last same somewhere
    obtain rfl := List.mem_singleton.mp last
    cases kind : earlier.type.inserts with
    | false => exact absurd same (apart earlier member kind)
    | true =>
        refine ⟨rfl, ?_⟩
        rcases new with ⟨-, unused, -⟩ | ⟨deletes, -⟩
        · rcases owns.inserted earlier member kind with nowhere' | ⟨record, stored, -⟩
          · exact absurd nowhere' somewhere
          · rw [same, unused] at stored
            cases stored
        · exact deletes

end Owns

theorem Step.guarded (step : Step trx m m') (guarded : Guarded m)
    (active : trx ∈ m.manager.activeTxns) : Guarded m' := by
  have spares := step.spares
  have own := guarded.owns trx active
  have others : ∀ {m'}, Spares trx m m' → (∀ v, v ≠ trx → m'.writeSet v = m.writeSet v) →
      Owns m' trx → ∀ v ∈ m'.manager.activeTxns, Owns m' v := by
    intro m' spares writeSet own v member
    rw [spares.activeTxns] at member
    by_cases same : v = trx
    · subst same
      exact own
    · exact (guarded.owns v member).spared member same spares (writeSet v same)
  cases step with
  | @save rid t old pointer stored free next =>
      refine
        { manager := guarded.manager
          nowhere := guarded.nowhere
          owns := others spares (fun _ _ => rfl) ?_
          buried := guarded.buried }
      exact
        { deleted := fun wr member deletes => by
            obtain ⟨old', pointer', header, alive, stored, saved⟩ := own.deleted wr member deletes
            exact ⟨old', pointer', header, alive, stored, spares.undo _ _ saved⟩
          inserted := own.inserted
          mine := own.mine
          once := own.once }
  | @delete rid t old pointer type stored free saved deletes =>
      refine
        { manager := guarded.manager.enter trx _ ⟨by simp, rfl⟩
          nowhere := ?_
          owns := others spares ?_ ?_
          buried := ?_ }
      · have apart : (⟨0, 0⟩ : RID) ≠ rid := by
          rintro rfl
          rw [guarded.nowhere] at stored
          cases stored
        rw [VersionStore.slot_deletion, if_neg apart]
        exact guarded.nowhere
      · intro v other
        rw [VersionStore.writeSet_deletion, if_neg other]
      · refine own.write guarded.nowhere ((VersionStore.writeSet_deletion ..).trans (if_pos rfl))
          (fun _ _ found => found) ?_ ?_
        · intro other apart
          exact (VersionStore.slot_deletion ..).trans (if_neg apart)
        · exact .inr ⟨deletes, old, pointer, rfl, free.alive, stored,
            (VersionStore.slot_deletion ..).trans (if_pos rfl), saved⟩
      · intro other slot found dead
        rw [VersionStore.slot_deletion] at found
        split at found
        · cases found
          rw [Record.isDead_deleted] at dead
          obtain ⟨positive, aborted⟩ := guarded.buried rid _ stored dead
          rw [free.stands positive] at aborted
          cases aborted
        · exact guarded.buried other slot found dead
  | @insert rid t record type event unused somewhere mine clean anchored inserts isWrite =>
      refine
        { manager := guarded.manager.enter trx _ isWrite
          nowhere := ?_
          owns := others spares ?_ ?_
          buried := ?_ }
      · rw [VersionStore.slot_insertion, if_neg somewhere.symm]
        exact guarded.nowhere
      · intro v other
        rw [VersionStore.writeSet_insertion, if_neg other]
      · refine own.write guarded.nowhere ((VersionStore.writeSet_insertion ..).trans (if_pos rfl))
          (fun _ _ found => found) ?_ ?_
        · intro other apart
          exact (VersionStore.slot_insertion ..).trans (if_neg apart)
        · exact .inl ⟨inserts, unused, .inr ⟨record,
            (VersionStore.slot_insertion ..).trans (if_pos rfl), mine⟩⟩
      · intro other slot found dead
        rw [VersionStore.slot_insertion] at found
        split at found
        · cases found
          rw [Record.isDead, clean] at dead
          cases dead
        · exact guarded.buried other slot found dead
  | @lose t event isWrite =>
      refine
        { manager := guarded.manager.enter trx _ isWrite
          nowhere := guarded.nowhere
          owns := others spares ?_ ?_
          buried := guarded.buried }
      · intro v other
        exact (VersionStore.writeSet_enter ..).trans (if_neg other)
      · apply own.write guarded.nowhere ((VersionStore.writeSet_enter ..).trans (if_pos rfl)) (fun _ _ found => found)
          (fun _ _ => rfl)
        exact .inl ⟨rfl, guarded.nowhere, .inl rfl⟩

/-! ## Statements -/

/-- What a statement has done so far. -/
def Steps (trx : Nat) : VersionStore → VersionStore → Prop := Relation.ReflTransGen (Step trx)

namespace Steps

theorem spares (steps : Steps trx m m') : Spares trx m m' := by
  induction steps with
  | refl => exact .refl trx m
  | tail _ step ih => exact ih.trans step.spares

theorem guarded (steps : Steps trx m m') (guarded : Guarded m)
    (active : trx ∈ m.manager.activeTxns) : Guarded m' := by
  induction steps with
  | refl => exact guarded
  | tail earlier step ih => exact step.guarded ih ((spares earlier).activeTxns ▸ active)

end Steps

end YourSQL.Mvcc
