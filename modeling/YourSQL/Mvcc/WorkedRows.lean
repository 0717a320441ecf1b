import YourSQL.Executor.RowUpdates
import YourSQL.Mvcc.RowSteps
import YourSQL.Storage.Contents

/-! # Rows that UPDATE has worked off

Phase two takes one hit after the other, and each is brought to its end before the next
one. Whatever becomes of the new version, the other rows stay where they are, and the store
has been led on by steps that the transaction may make.
-/

namespace YourSQL

open Mvcc (Free Guarded Step Steps VersionStore)
open ExecutorUpdate (Hit HitEnds)

variable {capacity : Option Nat} {m m' m'' : VersionStore} {trx t : Nat}
  {schema : List ColumnTypes} {hit : Hit} {hits : List Hit} {result : Except String Unit}
  {held : List Nat}

namespace ExecutorUpdate.HitEnds

theorem steps (ends : HitEnds capacity m trx t schema hit result m' held)
    (stored : m.slot hit.rid = some ⟨t, hit.old⟩) (free : Free m trx hit.old)
    (nowhere : m'.slot ⟨0, 0⟩ = none) : Steps trx m m' := by
  have saved : ∀ {pointer : UndoPointer}, pointer.IsNext m.undo →
      Steps trx m (m.save pointer hit.old) := fun isNext => .single (.save stored free isNext)
  have deleted : ∀ {pointer : UndoPointer}, pointer.IsNext m.undo →
      Steps trx m ((m.save pointer hit.old).deletion trx t hit.rid hit.old pointer
        .updateDeleteOld) := fun isNext =>
    (saved isNext).tail (.delete stored (free.congr rfl rfl) (VersionStore.undo_save_self ..) rfl)
  cases ends with
  | refused large => exact .refl
  | unserialized isNext small failed => exact saved isNext
  | halfway isNext notNull small bytes large refused => exact deleted isNext
  | lost isNext notNull small bytes large taken noPlace =>
      exact (deleted isNext).tail (.lose ⟨by simp, rfl⟩)
  | @done pointer payload new isNext notNull small bytes taken unused placed =>
      have away : new ≠ hit.rid := by
        rintro rfl
        rw [unused] at stored
        cases stored
      have somewhere : new ≠ ⟨0, 0⟩ := by
        rintro rfl
        rw [VersionStore.slot_insertion, if_pos rfl] at nowhere
        cases nowhere
      refine (deleted isNext).tail (.insert ?_ somewhere rfl rfl (.inr ⟨hit.old, ?_⟩) rfl ⟨by simp, rfl⟩)
      · rw [VersionStore.slot_deletion, if_neg away]
        exact unused
      · exact VersionStore.undo_save_self ..

/-- The old version stays where it is. -/
theorem stored (ends : HitEnds capacity m trx t schema hit result m' held)
    (before : m.slot hit.rid = some ⟨t, hit.old⟩) :
    ∃ record, m'.slot hit.rid = some ⟨t, record⟩ := by
  have marked : ∀ pointer : UndoPointer, ((m.save pointer hit.old).deletion trx t hit.rid hit.old
      pointer .updateDeleteOld).slot hit.rid = some ⟨t, hit.old.deleted trx pointer⟩ := fun pointer =>
    (VersionStore.slot_deletion ..).trans (if_pos rfl)
  cases ends with
  | refused large => exact ⟨hit.old, before⟩
  | unserialized isNext small failed => exact ⟨hit.old, before⟩
  | halfway isNext notNull small bytes large refused => exact ⟨_, marked _⟩
  | lost isNext notNull small bytes large taken noPlace => exact ⟨_, marked _⟩
  | @done pointer payload new isNext notNull small bytes taken unused placed =>
      refine ⟨hit.old.deleted trx pointer, ?_⟩
      rw [VersionStore.slot_insertion, if_neg]
      · exact marked pointer
      · intro same
        rw [← same, before] at unused
        cases unused

/-- No other table is touched. -/
theorem within (ends : HitEnds capacity m trx t schema hit result m' held)
    (before : m.slot hit.rid = some ⟨t, hit.old⟩) :
    RecordStore.Within t m.toRecordStore m'.toRecordStore := by
  have marked : ∀ pointer : UndoPointer, RecordStore.Within t m.toRecordStore
      (m.toRecordStore.put hit.rid ⟨t, hit.old.deleted trx pointer⟩) := by
    intro pointer
    apply RecordStore.Within.put
    intro slot found
    obtain rfl := Option.some.inj (before.symm.trans found)
    rfl
  cases ends with
  | refused large => exact .of_slot rfl t
  | unserialized isNext small failed => exact .of_slot rfl t
  | halfway isNext notNull small bytes large refused => exact (marked _).trans (.of_slot rfl t)
  | lost isNext notNull small bytes large taken noPlace => exact (marked _).trans (.of_slot rfl t)
  | @done pointer payload new isNext notNull small bytes taken unused placed =>
      have away : new ≠ hit.rid := by
        rintro rfl
        rw [unused] at before
        cases before
      have stays : (m.toRecordStore.put hit.rid ⟨t, hit.old.deleted trx pointer⟩).slot new = none :=
        (RecordStore.slot_put_of_ne m.toRecordStore away _).trans unused
      have added : RecordStore.Within t
          (m.toRecordStore.put hit.rid ⟨t, hit.old.deleted trx pointer⟩)
          ((m.toRecordStore.put hit.rid ⟨t, hit.old.deleted trx pointer⟩).put new
            ⟨t, tupleOf ⟨trx, pointer, 0⟩ payload⟩) := by
        apply RecordStore.Within.put
        intro slot found
        rw [stays] at found
        cases found
      exact ((marked pointer).trans added).trans (.of_slot rfl t)

/-- No other row is touched. -/
theorem slot_of_ne (ends : HitEnds capacity m trx t schema hit result m' held) {other : RID}
    {slot : Slot} (stored : m.slot other = some slot) (apart : other ≠ hit.rid) :
    m'.slot other = some slot := by
  have deleted : ∀ pointer : UndoPointer, ((m.save pointer hit.old).deletion trx t hit.rid hit.old
      pointer .updateDeleteOld).slot other = some slot := by
    intro pointer
    rw [VersionStore.slot_deletion, if_neg apart]
    exact stored
  cases ends with
  | refused large => exact stored
  | unserialized isNext small failed => exact stored
  | halfway isNext notNull small bytes large refused => exact deleted _
  | lost isNext notNull small bytes large taken noPlace => exact deleted _
  | done isNext notNull small bytes taken unused placed =>
      rw [VersionStore.slot_insertion, if_neg]
      · exact deleted _
      · rintro rfl
        rw [unused] at stored
        cases stored

end ExecutorUpdate.HitEnds

/-- Phase two has come to its end for some hits, one after the other. -/
inductive Mvcc.Works (capacity : Option Nat) (trx t : Nat) (schema : List ColumnTypes)
    (m : VersionStore) : List Hit → VersionStore → Prop
  | start : Works capacity trx t schema m [] m
  | next {done : List Hit} {hit : Hit} {m' m'' : VersionStore} {held : List Nat} :
      Works capacity trx t schema m done m' →
      HitEnds capacity m' trx t schema hit (.ok ⟨⟩) m'' held →
      m'.slot hit.rid = some ⟨t, hit.old⟩ → Free m' trx hit.old → m''.slot ⟨0, 0⟩ = none →
      Works capacity trx t schema m (done ++ [hit]) m''

/-! ## What has come of the new versions -/

namespace ExecutorUpdate.Hit

/-- The new version has no place on an empty page, by the 16 bits of its size. -/
def Lost (schema : List ColumnTypes) (hit : Hit) : Prop :=
  ∃ payload, Row.serialize schema hit.newValues = .ok payload ∧
    ¬ (tupleOf ⟨INVALID_TX_ID, .null, 0⟩ payload).size + SLOT_SIZE ≤ PAGE_SIZE - HEADER_SIZE

/-- The rows that come of a hit: one if its new version has a place, and none otherwise. -/
def arrivals (schema : List ColumnTypes) (hit : Hit) : Multiset (List UInt8) :=
  match Row.serialize schema hit.newValues with
  | .error _ => 0
  | .ok payload =>
      let tuple := tupleOf ⟨INVALID_TX_ID, .null, 0⟩ payload
      if tuple.size + SLOT_SIZE ≤ PAGE_SIZE - HEADER_SIZE then {tuple.payload} else 0

/-- The entry for the old version. -/
def writeRecord (t : Nat) (hit : Hit) : WriteRecord where
  rid := hit.rid
  type := .updateDeleteOld
  tableId := t
  prevTrxId := hit.old.trxId
  prevRollPtr := hit.old.rollPtr
  prevFlags := hit.old.flags

end ExecutorUpdate.Hit

namespace ExecutorUpdate.HitEnds

/-- What is entered for a hit whose end is reached. -/
theorem entries (ends : HitEnds capacity m trx t schema hit (.ok ⟨⟩) m' held)
    (nowhere : m'.slot ⟨0, 0⟩ = none) :
    ∃ new : RID, m'.writeSet trx = m.writeSet trx ++
        [hit.writeRecord t, { rid := new, type := .updateInsertNew, tableId := t }] ∧
      (new = ⟨0, 0⟩ ↔ hit.Lost schema) := by
  cases ends with
  | @lost pointer payload isNext notNull small bytes large taken noPlace =>
      refine ⟨⟨0, 0⟩, ?_, iff_of_true rfl ⟨payload, bytes, noPlace⟩⟩
      rw [VersionStore.writeSet_enter, if_pos rfl, VersionStore.writeSet_deletion, if_pos rfl,
        List.append_assoc]
      rfl
  | @done pointer payload new isNext notNull small bytes taken unused placed =>
      refine ⟨new, ?_, iff_of_false ?_ ?_⟩
      · rw [VersionStore.writeSet_insertion, if_pos rfl, VersionStore.writeSet_deletion, if_pos rfl,
          List.append_assoc]
        rfl
      · rintro rfl
        rw [VersionStore.slot_insertion, if_pos rfl] at nowhere
        cases nowhere
      · rintro ⟨payload', bytes', noPlace⟩
        obtain rfl := Except.ok.inj (bytes.symm.trans bytes')
        exact noPlace placed

/-- A hit at which phase two stops has at most been marked. -/
theorem entries_of_error {message : String}
    (ends : HitEnds capacity m trx t schema hit (.error message) m' held) :
    ∃ added, m'.writeSet trx = m.writeSet trx ++ added ∧ ∀ wr ∈ added, wr.rid = hit.rid := by
  cases ends with
  | refused large => exact ⟨[], (List.append_nil _).symm, by simp⟩
  | unserialized isNext small failed => exact ⟨[], (List.append_nil _).symm, by simp⟩
  | halfway isNext notNull small bytes large refused =>
      refine ⟨_, (VersionStore.writeSet_deletion ..).trans (if_pos rfl), ?_⟩
      simp

/-- The row goes, and what has come of its new version comes. -/
theorem holds (ends : HitEnds capacity m trx t schema hit (.ok ⟨⟩) m' held)
    (stored : m.slot hit.rid = some ⟨t, hit.old⟩) (isLive : hit.old.isLive = true)
    {rows : Multiset (List UInt8)} (before : m.toRecordStore.Holds t rows) :
    ∃ rest, rows = hit.old.payload ::ₘ rest ∧
      m'.toRecordStore.Holds t (hit.arrivals schema + rest) := by
  cases ends with
  | @lost pointer payload isNext notNull small bytes large taken noPlace =>
      obtain ⟨rest, split, after⟩ := before.delete stored isLive (hit.old.isLive_deleted trx pointer)
      refine ⟨rest, split, ?_⟩
      have nothing : hit.arrivals schema = 0 := by
        rw [Hit.arrivals, bytes]
        exact if_neg noPlace
      rw [nothing, zero_add]
      exact after.congr rfl
  | @done pointer payload new isNext notNull small bytes taken unused placed =>
      obtain ⟨rest, split, after⟩ := before.delete stored isLive (hit.old.isLive_deleted trx pointer)
      refine ⟨rest, split, ?_⟩
      have one : hit.arrivals schema = {(tupleOf ⟨trx, pointer, 0⟩ payload).payload} := by
        rw [Hit.arrivals, bytes]
        exact if_pos placed
      have away : new ≠ hit.rid := by
        rintro rfl
        rw [unused] at stored
        cases stored
      have free := (RecordStore.slot_put_of_ne m.toRecordStore away
        ⟨t, hit.old.deleted trx pointer⟩).trans unused
      have isNew : (tupleOf ⟨trx, pointer, 0⟩ payload).isLive = true :=
        Record.isLive_of_flags_zero rfl
      rw [one, Multiset.singleton_add]
      exact (after.insert free isNew).congr rfl

end ExecutorUpdate.HitEnds

namespace Mvcc.Works

theorem steps (works : Mvcc.Works capacity trx t schema m hits m') : Steps trx m m' := by
  induction works with
  | start => exact .refl
  | next _ ends stored free nowhere ih => exact ih.trans (ends.steps stored free nowhere)

theorem within (works : Mvcc.Works capacity trx t schema m hits m') :
    RecordStore.Within t m.toRecordStore m'.toRecordStore := by
  induction works with
  | start => exact .of_slot rfl t
  | next _ ends stored free nowhere ih => exact ih.trans (ends.within stored)

/-- A record that is free is live: only who has been rolled back leaves dead ones. -/
theorem live (guarded : Guarded m) {rid : RID} {record : Record}
    (stored : m.slot rid = some ⟨t, record⟩) (free : Free m trx record) : record.isLive = true := by
  have alive : record.isDead = false := by
    cases dead : record.isDead with
    | false => rfl
    | true =>
        obtain ⟨positive, aborted⟩ := guarded.buried rid _ stored dead
        rw [free.stands positive] at aborted
        cases aborted
  rw [Record.isLive, free.alive, alive]
  rfl

/-- The write set tells the hits in their order, each once, and which of them are lost. -/
theorem entries (works : Mvcc.Works capacity trx t schema m hits m') (guarded : Guarded m)
    (active : trx ∈ m.manager.activeTxns) :
    ∃ added, m'.writeSet trx = m.writeSet trx ++ added ∧
      (added.filter fun wr => !wr.type.inserts).map WriteRecord.rid = hits.map Hit.rid ∧
      (added.filter fun wr => wr.type.inserts).length = hits.length ∧
      ((∃ wr ∈ added, wr.rid = ⟨0, 0⟩) ↔ ∃ hit ∈ hits, hit.Lost schema) := by
  induction works with
  | start => exact ⟨[], (List.append_nil _).symm, rfl, rfl, by simp⟩
  | @next done hit m' m'' held works ends stored free nowhere ih =>
      obtain ⟨added, writeSet, deleted, inserted, lost⟩ := ih
      obtain ⟨new, entered, kind⟩ := ends.entries nowhere
      have somewhere : hit.rid ≠ ⟨0, 0⟩ := by
        intro zero
        rw [zero, (works.steps.guarded guarded active).nowhere] at stored
        cases stored
      refine ⟨added ++ [hit.writeRecord t, { rid := new, type := .updateInsertNew, tableId := t }],
        ?_, ?_, ?_, ?_⟩
      · rw [entered, writeSet, List.append_assoc]
      · rw [List.filter_append, List.map_append, deleted, List.map_append]
        rfl
      · rw [List.filter_append, List.length_append, inserted, List.length_append]
        rfl
      · simp only [List.mem_append, or_and_right, exists_or, lost, List.mem_cons, List.not_mem_nil,
          or_false, exists_eq_left, Hit.writeRecord, somewhere, false_or, kind]

/-- The rows that are worked off have made room for what has come of them. -/
theorem holds (works : Mvcc.Works capacity trx t schema m hits m') (guarded : Guarded m)
    (active : trx ∈ m.manager.activeTxns) {rows : Multiset (List UInt8)}
    (before : m.toRecordStore.Holds t rows) :
    ∃ rows' : Multiset (List UInt8), m'.toRecordStore.Holds t rows' ∧
      (hits.map fun hit => hit.old.payload) + rows' = (hits.map (Hit.arrivals schema)).sum + rows := by
  induction works with
  | start => exact ⟨rows, before, by simp⟩
  | @next done hit m' m'' held works ends stored free nowhere ih =>
      obtain ⟨rows', middle, balance⟩ := ih
      have isLive := live (works.steps.guarded guarded active) stored free
      obtain ⟨rest, rfl, after⟩ := ends.holds stored isLive middle
      refine ⟨_, after, ?_⟩
      let olds : Multiset (List UInt8) := done.map fun hit => hit.old.payload
      let old : Multiset (List UInt8) := {hit.old.payload}
      let news := (done.map (Hit.arrivals schema)).sum
      rw [List.map_append, List.map_append, List.sum_append, ← Multiset.coe_add]
      calc olds + old + (hit.arrivals schema + rest)
          = olds + (hit.arrivals schema + (old + rest)) := by rw [add_assoc, add_left_comm old]
        _ = hit.arrivals schema + (olds + (old + rest)) := add_left_comm ..
        _ = hit.arrivals schema + (news + rows) := by rw [Multiset.singleton_add, balance]
        _ = news + (hit.arrivals schema + 0) + rows := by
            rw [add_zero, ← add_assoc, add_comm (hit.arrivals schema)]

end Mvcc.Works

end YourSQL
