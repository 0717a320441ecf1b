import YourSQL.Storage.Record
import YourSQL.Transaction.TransactionManager
import Mathlib.Data.Set.Card

/-! # Records by address, and the row counters

What table pages are for, without pages: a record for each address, and for each
table the counter that the meta page keeps of its rows. The four operations of
`TablePage` that touch both are stated here once; the counter moves only together
with the number of live records, as long as no operation meets a record that is
dead and not deleted.
-/

namespace YourSQL

structure Slot where
  tableId : Nat
  record : Record
  deriving Repr, DecidableEq

@[ext]
structure RecordStore where
  slot : RID → Option Slot
  numRows : Nat → Nat
  /-- The tables at whose counter `UpdateTableRows` has stopped at zero. -/
  clamped : Nat → Bool

namespace RecordStore

def record (σ : RecordStore) (rid : RID) : Option Record := (σ.slot rid).map Slot.record

/-- `UpdateTableRows` with a change of 1 or of -1, which stops at zero. -/
def addRow (σ : RecordStore) (tableId : Nat) : RecordStore :=
  { σ with numRows := Function.update σ.numRows tableId (σ.numRows tableId + 1) }

def dropRow (σ : RecordStore) (tableId : Nat) : RecordStore :=
  { σ with
    numRows := Function.update σ.numRows tableId (σ.numRows tableId - 1)
    clamped := Function.update σ.clamped tableId
      (σ.clamped tableId || decide (σ.numRows tableId = 0)) }

def put (σ : RecordStore) (rid : RID) (slot : Slot) : RecordStore :=
  { σ with slot := Function.update σ.slot rid (some slot) }

/-- `InsertTuple` at the address it finds. -/
def insertTuple (σ : RecordStore) (tableId : Nat) (rid : RID) (record : Record) : RecordStore :=
  (σ.put rid ⟨tableId, record⟩).addRow tableId

/-- `MarkDelete`, which looks at the delete flag only. -/
def markDelete (σ : RecordStore) (rid : RID) (trxId : Nat) (rollPtr : UndoPointer) : RecordStore :=
  match σ.slot rid with
  | none => σ
  | some ⟨tableId, record⟩ =>
      if record.isDel then
        σ
      else
        (σ.put rid ⟨tableId, record.deleted trxId rollPtr⟩).dropRow tableId

/-- `RestoreRecord`. -/
def restoreRecord (σ : RecordStore) (rid : RID) (header : RecordHeader) : RecordStore :=
  match σ.slot rid with
  | none => σ
  | some ⟨tableId, record⟩ =>
      if record.isDel && !header.flags.isDel then
        (σ.put rid ⟨tableId, record.restored header⟩).addRow tableId
      else
        σ.put rid ⟨tableId, record.restored header⟩

/-- `MarkDead`, which looks at both flags. -/
def markDead (σ : RecordStore) (rid : RID) : RecordStore :=
  match σ.slot rid with
  | none => σ
  | some ⟨tableId, record⟩ =>
      if record.isLive then
        (σ.put rid ⟨tableId, record.killed⟩).dropRow tableId
      else
        σ.put rid ⟨tableId, record.killed⟩

/-- The addresses of the live records of a table. -/
def liveSet (σ : RecordStore) (tableId : Nat) : Set RID :=
  {rid | ∃ record, σ.slot rid = some ⟨tableId, record⟩ ∧ record.isLive = true}

/-- Every counter is `extra` above the number of live records. -/
structure Counted (σ : RecordStore) (extra : Nat → Nat) : Prop where
  finite : ∀ t, (σ.liveSet t).Finite
  numRows : ∀ t, σ.numRows t = (σ.liveSet t).ncard + extra t

@[simp] theorem slot_addRow (σ : RecordStore) (t : Nat) : (σ.addRow t).slot = σ.slot := rfl

@[simp] theorem slot_dropRow (σ : RecordStore) (t : Nat) : (σ.dropRow t).slot = σ.slot := rfl

@[simp] theorem slot_put_self (σ : RecordStore) (rid : RID) (slot : Slot) :
    (σ.put rid slot).slot rid = some slot := by
  simp [put]

theorem slot_put_of_ne (σ : RecordStore) {rid other : RID} (ne : other ≠ rid) (slot : Slot) :
    (σ.put rid slot).slot other = σ.slot other := by
  simp [put, ne]

@[simp] theorem numRows_put (σ : RecordStore) (rid : RID) (slot : Slot) :
    (σ.put rid slot).numRows = σ.numRows := rfl

@[simp] theorem liveSet_addRow (σ : RecordStore) (t : Nat) : (σ.addRow t).liveSet = σ.liveSet := rfl

@[simp] theorem liveSet_dropRow (σ : RecordStore) (t : Nat) :
    (σ.dropRow t).liveSet = σ.liveSet := rfl

@[simp] theorem slot_insertTuple_self (σ : RecordStore) (t : Nat) (rid : RID) (record : Record) :
    (σ.insertTuple t rid record).slot rid = some ⟨t, record⟩ := by
  simp [insertTuple]

theorem slot_insertTuple_of_ne (σ : RecordStore) {rid other : RID} (ne : other ≠ rid) (t : Nat)
    (record : Record) : (σ.insertTuple t rid record).slot other = σ.slot other := by
  simp [insertTuple, slot_put_of_ne σ ne]

theorem slot_markDelete_of_ne (σ : RecordStore) {rid other : RID} (ne : other ≠ rid)
    (trxId : Nat) (rollPtr : UndoPointer) :
    (σ.markDelete rid trxId rollPtr).slot other = σ.slot other := by
  unfold markDelete
  split
  · rfl
  · split
    · rfl
    · simp [slot_put_of_ne σ ne]

theorem slot_markDelete_self {σ : RecordStore} {rid : RID} {slot : Slot}
    (found : σ.slot rid = some slot) (trxId : Nat) (rollPtr : UndoPointer) :
    (σ.markDelete rid trxId rollPtr).slot rid =
      some (if slot.record.isDel then slot
        else ⟨slot.tableId, slot.record.deleted trxId rollPtr⟩) := by
  cases del : slot.record.isDel
  · simp [markDelete, found, del]
  · simp [markDelete, found, del]

theorem slot_restoreRecord_of_ne (σ : RecordStore) {rid other : RID} (ne : other ≠ rid)
    (header : RecordHeader) : (σ.restoreRecord rid header).slot other = σ.slot other := by
  unfold restoreRecord
  split
  · rfl
  · split
    · simp [slot_put_of_ne σ ne]
    · simp [slot_put_of_ne σ ne]

theorem slot_restoreRecord_self {σ : RecordStore} {rid : RID} {slot : Slot}
    (found : σ.slot rid = some slot) (header : RecordHeader) :
    (σ.restoreRecord rid header).slot rid = some ⟨slot.tableId, slot.record.restored header⟩ := by
  cases counts : slot.record.isDel && !header.flags.isDel
  · simp [restoreRecord, found, counts]
  · simp [restoreRecord, found, counts]

theorem slot_markDead_of_ne (σ : RecordStore) {rid other : RID} (ne : other ≠ rid) :
    (σ.markDead rid).slot other = σ.slot other := by
  unfold markDead
  split
  · rfl
  · split
    · simp [slot_put_of_ne σ ne]
    · simp [slot_put_of_ne σ ne]

theorem slot_markDead_self {σ : RecordStore} {rid : RID} {slot : Slot}
    (found : σ.slot rid = some slot) :
    (σ.markDead rid).slot rid = some ⟨slot.tableId, slot.record.killed⟩ := by
  cases live : slot.record.isLive
  · simp [markDead, found, live]
  · simp [markDead, found, live]

theorem mem_liveSet_put {σ : RecordStore} {rid other : RID} {slot : Slot} {u : Nat} :
    other ∈ (σ.put rid slot).liveSet u ↔
      if other = rid then slot.tableId = u ∧ slot.record.isLive = true else other ∈ σ.liveSet u := by
  split
  · rename_i self
    subst self
    obtain ⟨t, record⟩ := slot
    simp only [liveSet, Set.mem_ofPred_eq, slot_put_self, Option.some.injEq, Slot.mk.injEq]
    constructor
    · rintro ⟨_, ⟨table, rfl⟩, live⟩
      exact ⟨table, live⟩
    · rintro ⟨table, live⟩
      exact ⟨record, ⟨table, rfl⟩, live⟩
  · rename_i ne
    simp only [liveSet, Set.mem_ofPred_eq, slot_put_of_ne σ ne]

/-- A slot that becomes live is counted by `addRow`. -/
theorem Counted.gain {σ : RecordStore} {extra : Nat → Nat} (counted : σ.Counted extra)
    {rid : RID} {t : Nat} {record : Record} (before : ∀ u, rid ∉ σ.liveSet u)
    (live : record.isLive = true) : ((σ.put rid ⟨t, record⟩).addRow t).Counted extra := by
  have self : (σ.put rid ⟨t, record⟩).liveSet t = insert rid (σ.liveSet t) := by
    ext other
    rw [mem_liveSet_put, Set.mem_insert_iff]
    split
    · rename_i same
      simp [same, live]
    · rename_i ne
      simp [ne]
  have others : ∀ u, u ≠ t → (σ.put rid ⟨t, record⟩).liveSet u = σ.liveSet u := by
    intro u ne
    ext other
    rw [mem_liveSet_put]
    split
    · rename_i same
      simp [same, before u, ne.symm]
    · rfl
  refine ⟨?_, ?_⟩
  · intro u
    by_cases table : u = t
    · rw [table, liveSet_addRow, self]
      exact (counted.finite t).insert rid
    · rw [liveSet_addRow, others u table]
      exact counted.finite u
  · intro u
    by_cases table : u = t
    · rw [table, liveSet_addRow, self, Set.ncard_insert_of_notMem (before t) (counted.finite t)]
      simp only [addRow, numRows_put, Function.update_self, counted.numRows t]
      omega
    · rw [liveSet_addRow, others u table]
      simp only [addRow, numRows_put, Function.update_of_ne table, counted.numRows u]

/-- A slot that stops being live is counted by `dropRow`, which does not stop at zero. -/
theorem Counted.lose {σ : RecordStore} {extra : Nat → Nat} (counted : σ.Counted extra)
    {rid : RID} {t : Nat} {record : Record} (before : rid ∈ σ.liveSet t)
    (live : record.isLive = false) : ((σ.put rid ⟨t, record⟩).dropRow t).Counted extra := by
  have self : (σ.put rid ⟨t, record⟩).liveSet t = σ.liveSet t \ {rid} := by
    ext other
    rw [mem_liveSet_put, Set.mem_sdiff, Set.mem_singleton_iff]
    split
    · rename_i same
      simp [same, live]
    · rename_i ne
      simp [ne]
  have others : ∀ u, u ≠ t → (σ.put rid ⟨t, record⟩).liveSet u = σ.liveSet u := by
    intro u ne
    have elsewhere : rid ∉ σ.liveSet u := by
      rintro ⟨record', found', _⟩
      obtain ⟨record, found, _⟩ := before
      exact ne (Slot.mk.inj (Option.some.inj (found'.symm.trans found))).1
    ext other
    rw [mem_liveSet_put]
    split
    · rename_i same
      simp [same, elsewhere, ne.symm]
    · rfl
  have one : 0 < (σ.liveSet t).ncard := (Set.ncard_pos (counted.finite t)).mpr ⟨rid, before⟩
  refine ⟨?_, ?_⟩
  · intro u
    by_cases table : u = t
    · rw [table, liveSet_dropRow, self]
      exact (counted.finite t).sdiff
    · rw [liveSet_dropRow, others u table]
      exact counted.finite u
  · intro u
    by_cases table : u = t
    · rw [table, liveSet_dropRow, self, Set.ncard_sdiff_singleton_of_mem before]
      simp only [dropRow, numRows_put, Function.update_self, counted.numRows t]
      omega
    · rw [liveSet_dropRow, others u table]
      simp only [dropRow, numRows_put, Function.update_of_ne table, counted.numRows u]

/-- A write that leaves liveness alone needs no counting. -/
theorem Counted.keep {σ : RecordStore} {extra : Nat → Nat} (counted : σ.Counted extra)
    {rid : RID} {slot : Slot}
    (same : ∀ u, rid ∈ σ.liveSet u ↔ slot.tableId = u ∧ slot.record.isLive = true) :
    (σ.put rid slot).Counted extra := by
  have equal : (σ.put rid slot).liveSet = σ.liveSet := by
    funext u
    ext other
    rw [mem_liveSet_put]
    split
    · rename_i self
      rw [self, same]
    · rfl
  exact ⟨fun t => equal ▸ counted.finite t, fun t => by rw [equal, numRows_put, counted.numRows]⟩

theorem mem_liveSet_of_slot {σ : RecordStore} {rid : RID} {t u : Nat} {record : Record}
    (found : σ.slot rid = some ⟨t, record⟩) :
    rid ∈ σ.liveSet u ↔ t = u ∧ record.isLive = true := by
  simp only [liveSet, Set.mem_ofPred_eq, found, Option.some.injEq, Slot.mk.injEq]
  constructor
  · rintro ⟨_, ⟨table, rfl⟩, live⟩
    exact ⟨table, live⟩
  · rintro ⟨table, live⟩
    exact ⟨record, ⟨table, rfl⟩, live⟩

theorem not_mem_liveSet_of_none {σ : RecordStore} {rid : RID} (free : σ.slot rid = none)
    (u : Nat) : rid ∉ σ.liveSet u := by
  rintro ⟨_, found, _⟩
  rw [free] at found
  cases found

/-- `InsertTuple` of a new record, which is live. -/
theorem Counted.insertTuple {σ : RecordStore} {extra : Nat → Nat} (counted : σ.Counted extra)
    {rid : RID} {record : Record} (free : σ.slot rid = none) (clean : record.flags = 0) (t : Nat) :
    (σ.insertTuple t rid record).Counted extra :=
  counted.gain (not_mem_liveSet_of_none free) (Record.isLive_of_flags_zero clean)

/-- `MarkDelete`, as long as it meets no dead record without the delete flag. -/
theorem Counted.markDelete {σ : RecordStore} {extra : Nat → Nat} (counted : σ.Counted extra)
    {rid : RID} (sound : ∀ slot, σ.slot rid = some slot → slot.record.isDead = true →
      slot.record.isDel = true) (trxId : Nat) (rollPtr : UndoPointer) :
    (σ.markDelete rid trxId rollPtr).Counted extra := by
  unfold RecordStore.markDelete
  split
  · exact counted
  · rename_i t record found
    split
    · exact counted
    · rename_i notDel
      have live : record.isLive = true := by
        have := sound _ found
        cases dead : record.isDead <;> simp_all [Record.isLive]
      exact counted.lose ((mem_liveSet_of_slot found).mpr ⟨rfl, live⟩) (Record.isLive_deleted ..)

theorem Counted.markDead {σ : RecordStore} {extra : Nat → Nat} (counted : σ.Counted extra)
    (rid : RID) : (σ.markDead rid).Counted extra := by
  unfold RecordStore.markDead
  split
  · exact counted
  · rename_i t record found
    split
    · rename_i live
      exact counted.lose ((mem_liveSet_of_slot found).mpr ⟨rfl, live⟩) (Record.isLive_killed _)
    · rename_i notLive
      refine counted.keep fun u => ?_
      simp [mem_liveSet_of_slot found, notLive]

/-- A slot that stops being live without its table's counter noticing. -/
theorem Counted.lapse {σ : RecordStore} {extra : Nat → Nat} (counted : σ.Counted extra)
    {rid : RID} {t : Nat} {record : Record} (before : rid ∈ σ.liveSet t)
    (live : record.isLive = false) :
    (σ.put rid ⟨t, record⟩).Counted (Function.update extra t (extra t + 1)) := by
  have dropped := counted.lose before live
  refine ⟨dropped.finite, fun u => ?_⟩
  have numRows := dropped.numRows u
  have one : 0 < (σ.liveSet t).ncard := (Set.ncard_pos (counted.finite t)).mpr ⟨rid, before⟩
  have total := counted.numRows t
  rw [liveSet_dropRow] at numRows
  by_cases table : u = t
  · subst table
    simp only [dropRow, numRows_put, Function.update_self] at numRows ⊢
    omega
  · simp only [dropRow, numRows_put, Function.update_of_ne table] at numRows ⊢
    exact numRows

/-- One more row in the counter than there is. -/
theorem Counted.surplus {σ : RecordStore} {extra : Nat → Nat} (counted : σ.Counted extra)
    (t : Nat) : (σ.addRow t).Counted (Function.update extra t (extra t + 1)) := by
  refine ⟨counted.finite, fun u => ?_⟩
  have numRows := counted.numRows u
  rw [liveSet_addRow]
  by_cases table : u = t
  · subst table
    simp only [addRow, Function.update_self]
    omega
  · simp only [addRow, Function.update_of_ne table]
    exact numRows

/-- What `RestoreRecord` adds to `extra`: the record it leaves is not live, and the
    counter moved for it, or did not move for the live record it was. -/
def surplusAfter (slot : Slot) (header : RecordHeader) (extra : Nat → Nat) : Nat → Nat :=
  if (slot.record.restored header).isLive then
    extra
  else if slot.record.isLive || (slot.record.isDel && !header.flags.isDel) then
    Function.update extra slot.tableId (extra slot.tableId + 1)
  else
    extra

/-- The record carries a deletion to be taken back, or the header it is to get. -/
def Restorable (record : Record) (header : RecordHeader) : Prop :=
  (record.isDel = true ∧ header.flags.isDel = false ∧ header.flags.isDead = false) ∨
    record.toRecordHeader = header

theorem Restorable.surplusAfter_eq {slot : Slot} {header : RecordHeader}
    (restorable : Restorable slot.record header) (extra : Nat → Nat) :
    surplusAfter slot header extra = extra := by
  unfold surplusAfter
  rcases restorable with ⟨del, notDel, notDead⟩ | rfl
  · simp [Record.isLive, Record.isDel, Record.isDead, Record.restored, notDel, notDead]
  · cases live : slot.record.isLive with
    | true => simp [live]
    | false => cases del : slot.record.isDel <;> simp_all [Record.isDel]

/-- `RestoreRecord`, as long as it does not revive a dead record that is not deleted. -/
theorem Counted.restoreRecord {σ : RecordStore} {extra : Nat → Nat} (counted : σ.Counted extra)
    {rid : RID} {slot : Slot} {header : RecordHeader} (found : σ.slot rid = some slot)
    (sound : slot.record.isDead = true → (slot.record.restored header).isLive = true →
      slot.record.isDel = true) :
    (σ.restoreRecord rid header).Counted (surplusAfter slot header extra) := by
  obtain ⟨t, record⟩ := slot
  have member := fun u => @mem_liveSet_of_slot σ rid t u record found
  simp only [RecordStore.restoreRecord, found, surplusAfter]
  cases after : (record.restored header).isLive with
  | true =>
      have notDel : header.flags.isDel = false := by
        cases del : header.flags.isDel <;>
          simp_all [Record.isLive, Record.isDel, Record.isDead, Record.restored]
      cases del : record.isDel with
      | true =>
          simp only [notDel, Bool.not_false, Bool.and_self, if_true]
          apply counted.gain _ after
          intro u
          simp [member, Record.isLive, del]
      | false =>
          have live : record.isLive = true := by
            cases dead : record.isDead <;> simp_all [Record.isLive]
          simp only [Bool.false_and, Bool.false_eq_true, if_false, if_true]
          apply counted.keep
          intro u
          simp [member, after, live]
  | false =>
      simp only [Bool.false_eq_true, if_false]
      cases live : record.isLive with
      | true =>
          have notDel : record.isDel = false := by
            cases del : record.isDel <;> simp_all [Record.isLive]
          simp only [notDel, Bool.false_and, Bool.false_eq_true, if_false, Bool.true_or, if_true]
          exact counted.lapse ((member t).mpr ⟨rfl, live⟩) after
      | false =>
          have kept : (σ.put rid ⟨t, record.restored header⟩).Counted extra := by
            apply counted.keep
            intro u
            simp [member, after, live]
          simp only [Bool.false_or]
          split
          · exact kept.surplus t
          · exact kept

theorem Counted.restoreRecord_of_restorable {σ : RecordStore} {extra : Nat → Nat}
    (counted : σ.Counted extra) {rid : RID} {slot : Slot} {header : RecordHeader}
    (found : σ.slot rid = some slot) (restorable : Restorable slot.record header) :
    (σ.restoreRecord rid header).Counted extra := by
  rw [← restorable.surplusAfter_eq extra]
  apply counted.restoreRecord found
  intro dead live
  rcases restorable with ⟨del, _, _⟩ | rfl
  · exact del
  · simp [Record.isLive, dead] at live

end RecordStore

end YourSQL
