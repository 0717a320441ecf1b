import YourSQL.Storage.RecordStore

/-! # Taking back the writes of one transaction

`RollbackWrites` replays a write set backwards on a store that other transactions
have kept writing to. Each entry undoes one call at one address. Between that call
and the rollback nobody else wrote to the address, so the entry finds the record
as its call left it, whatever happened elsewhere.
-/

namespace YourSQL

/-- The entries of a write set that stand for an `InsertTuple`. -/
def WriteType.inserts : WriteType → Bool
  | .insert | .updateInsertNew => true
  | .delete | .updateDeleteOld => false

/-- The header that the rollback of a deletion puts back. -/
def WriteRecord.prevHeader (wr : WriteRecord) : RecordHeader where
  trxId := wr.prevTrxId
  rollPtr := wr.prevRollPtr
  flags := wr.prevFlags

namespace Rollback

open RecordStore

/-- A call that changes records. `update` tells the two halves of an UPDATE from a
    plain insertion or deletion. -/
inductive Call where
  | insertTuple (update : Bool) (tableId : Nat) (rid : RID) (record : Record)
  | markDelete (update : Bool) (rid : RID) (rollPtr : UndoPointer)
  deriving Repr, DecidableEq

namespace Call

def rid : Call → RID
  | insertTuple _ _ rid _ => rid
  | markDelete _ rid _ => rid

/-- The call, made by transaction `trxId`. -/
def apply (call : Call) (trxId : Nat) (σ : RecordStore) : RecordStore :=
  match call with
  | insertTuple _ tableId rid record => σ.insertTuple tableId rid record
  | markDelete _ rid rollPtr => σ.markDelete rid trxId rollPtr

def writeType : Call → WriteType
  | insertTuple update _ _ _ => if update then .updateInsertNew else .insert
  | markDelete update _ _ => if update then .updateDeleteOld else .delete

/-- What the caller pushes on its write set, with the header it read before. -/
def writeRecord (call : Call) (σ : RecordStore) : WriteRecord :=
  match call, σ.slot call.rid with
  | insertTuple _ tableId _ _, _ => { rid := call.rid, type := call.writeType, tableId := tableId }
  | markDelete _ _ _, none => { rid := call.rid, type := call.writeType, tableId := 0 }
  | markDelete _ _ _, some slot =>
      { rid := call.rid
        type := call.writeType
        tableId := slot.tableId
        prevTrxId := slot.record.trxId
        prevRollPtr := slot.record.rollPtr
        prevFlags := slot.record.flags }

/-- An insertion takes a free address and a new record; a deletion takes a stored
    record, and not one that is dead without being deleted. -/
def Sound (call : Call) (σ : RecordStore) : Prop :=
  match call with
  | insertTuple _ _ rid record => σ.slot rid = none ∧ record.flags = 0
  | markDelete _ rid _ =>
      ∃ slot, σ.slot rid = some slot ∧ (slot.record.isDead = true → slot.record.isDel = true)

@[simp] theorem rid_writeRecord (call : Call) (σ : RecordStore) :
    (call.writeRecord σ).rid = call.rid := by
  unfold writeRecord
  split <;> rfl

@[simp] theorem type_writeRecord (call : Call) (σ : RecordStore) :
    (call.writeRecord σ).type = call.writeType := by
  unfold writeRecord
  split <;> rfl

theorem prevHeader_writeRecord {σ : RecordStore} {rid : RID} {slot : Slot}
    (found : σ.slot rid = some slot) (update : Bool) (rollPtr : UndoPointer) :
    ((markDelete update rid rollPtr).writeRecord σ).prevHeader = slot.record.toRecordHeader := by
  simp [writeRecord, Call.rid, found, WriteRecord.prevHeader]

theorem slot_apply_of_ne (call : Call) (trxId : Nat) (σ : RecordStore) {other : RID}
    (ne : other ≠ call.rid) : (call.apply trxId σ).slot other = σ.slot other := by
  cases call with
  | insertTuple update t rid record => exact slot_insertTuple_of_ne σ ne t record
  | markDelete update rid rollPtr => exact slot_markDelete_of_ne σ ne trxId rollPtr

/-- A call reads and writes its own address only. -/
theorem slot_apply_congr (call : Call) (trxId : Nat) {σ τ : RecordStore}
    (same : σ.slot call.rid = τ.slot call.rid) :
    (call.apply trxId σ).slot call.rid = (call.apply trxId τ).slot call.rid := by
  cases call with
  | insertTuple update t rid record => exact (slot_insertTuple_self ..).trans (slot_insertTuple_self ..).symm
  | markDelete update rid rollPtr =>
      simp only [Call.rid] at same
      simp only [apply, Call.rid]
      cases found : σ.slot rid with
      | none => simp [RecordStore.markDelete, found, same.symm.trans found]
      | some slot => rw [slot_markDelete_self found, slot_markDelete_self (same.symm.trans found)]

theorem counted_apply {call : Call} {σ : RecordStore} {extra : Nat → Nat}
    (counted : σ.Counted extra) (sound : call.Sound σ) (trxId : Nat) :
    (call.apply trxId σ).Counted extra := by
  cases call with
  | insertTuple update t rid record => exact counted.insertTuple sound.1 sound.2 t
  | markDelete update rid rollPtr =>
      obtain ⟨slot, found, noCorpse⟩ := sound
      refine counted.markDelete ?_ trxId rollPtr
      intro slot' found'
      obtain rfl : slot = slot' := Option.some.inj (found.symm.trans found')
      exact noCorpse

end Call

/-- What another transaction may do to a record: a call of its own, or a step of its
    own rollback. -/
inductive Operation where
  | call (call : Call)
  | restoreRecord (rid : RID) (header : RecordHeader)
  | markDead (rid : RID)
  deriving Repr, DecidableEq

namespace Operation

def rid : Operation → RID
  | .call c => c.rid
  | .restoreRecord rid _ => rid
  | .markDead rid => rid

def apply (op : Operation) (trxId : Nat) (σ : RecordStore) : RecordStore :=
  match op with
  | .call c => c.apply trxId σ
  | .restoreRecord rid header => σ.restoreRecord rid header
  | .markDead rid => σ.markDead rid

/-- A restored header must not revive a record that is dead without being deleted. -/
def Sound (op : Operation) (σ : RecordStore) : Prop :=
  match op with
  | .call c => c.Sound σ
  | .restoreRecord rid header =>
      ∃ slot, σ.slot rid = some slot ∧ (slot.record.isDead = true →
        (slot.record.restored header).isLive = true → slot.record.isDel = true)
  | .markDead rid => ∃ slot, σ.slot rid = some slot

theorem slot_apply_of_ne (op : Operation) (trxId : Nat) (σ : RecordStore) {other : RID}
    (ne : other ≠ op.rid) : (op.apply trxId σ).slot other = σ.slot other := by
  cases op with
  | call c => exact c.slot_apply_of_ne trxId σ ne
  | restoreRecord target header => exact slot_restoreRecord_of_ne σ ne header
  | markDead target => exact slot_markDead_of_ne σ ne

/-- An operation reads and writes its own address only. -/
theorem slot_apply_congr (op : Operation) (trxId : Nat) {σ τ : RecordStore}
    (same : σ.slot op.rid = τ.slot op.rid) :
    (op.apply trxId σ).slot op.rid = (op.apply trxId τ).slot op.rid := by
  cases op with
  | call c => exact c.slot_apply_congr trxId same
  | restoreRecord target header =>
      simp only [rid] at same
      simp only [apply, rid]
      cases found : σ.slot target with
      | none => simp [RecordStore.restoreRecord, found, same.symm.trans found]
      | some slot =>
          rw [slot_restoreRecord_self found, slot_restoreRecord_self (same.symm.trans found)]
  | markDead target =>
      simp only [rid] at same
      simp only [apply, rid]
      cases found : σ.slot target with
      | none => simp [RecordStore.markDead, found, same.symm.trans found]
      | some slot => rw [slot_markDead_self found, slot_markDead_self (same.symm.trans found)]

theorem sound_congr {op : Operation} {σ τ : RecordStore} (sound : op.Sound σ)
    (same : σ.slot op.rid = τ.slot op.rid) : op.Sound τ := by
  cases op with
  | call c =>
      cases c with
      | insertTuple update t target record => exact ⟨same.symm.trans sound.1, sound.2⟩
      | markDelete update target rollPtr =>
          obtain ⟨slot, found, noCorpse⟩ := sound
          exact ⟨slot, same.symm.trans found, noCorpse⟩
  | restoreRecord target header =>
      obtain ⟨slot, found, noRevival⟩ := sound
      exact ⟨slot, same.symm.trans found, noRevival⟩
  | markDead target =>
      obtain ⟨slot, found⟩ := sound
      exact ⟨slot, same.symm.trans found⟩

/-- Two stores that agree at the address keep counting alike. -/
theorem counted_apply {op : Operation} {σ τ : RecordStore} {extra : Nat → Nat}
    (left : σ.Counted extra) (right : τ.Counted extra) (sound : op.Sound σ)
    (same : σ.slot op.rid = τ.slot op.rid) (trxId : Nat) :
    ∃ extra', (op.apply trxId σ).Counted extra' ∧ (op.apply trxId τ).Counted extra' := by
  cases op with
  | call c =>
      exact ⟨extra, Call.counted_apply left sound trxId,
        Call.counted_apply right (sound_congr sound same) trxId⟩
  | restoreRecord target header =>
      obtain ⟨slot, found, noRevival⟩ := sound
      exact ⟨surplusAfter slot header extra, left.restoreRecord found noRevival,
        right.restoreRecord (same.symm.trans found) noRevival⟩
  | markDead target => exact ⟨extra, left.markDead target, right.markDead target⟩

end Operation

/-- One entry of the write set is undone. -/
def rollbackWrite (σ : RecordStore) (wr : WriteRecord) : RecordStore :=
  match wr.type with
  | .insert | .updateInsertNew => σ.markDead wr.rid
  | .delete | .updateDeleteOld => σ.restoreRecord wr.rid wr.prevHeader

/-- `RollbackWrites`: from the last entry to the first. -/
def rollbackWrites (σ : RecordStore) (writeSet : List WriteRecord) : RecordStore :=
  writeSet.reverse.foldl rollbackWrite σ

@[simp] theorem rollbackWrites_nil (σ : RecordStore) : rollbackWrites σ [] = σ := rfl

@[simp] theorem rollbackWrites_snoc (σ : RecordStore) (writeSet : List WriteRecord)
    (wr : WriteRecord) :
    rollbackWrites σ (writeSet ++ [wr]) = rollbackWrites (rollbackWrite σ wr) writeSet := by
  simp [rollbackWrites]

theorem rollbackWrite_of_inserts {wr : WriteRecord} (inserts : wr.type.inserts = true)
    (σ : RecordStore) : rollbackWrite σ wr = σ.markDead wr.rid := by
  unfold rollbackWrite
  cases type : wr.type with
  | insert => rfl
  | updateInsertNew => rfl
  | delete => simp [WriteType.inserts, type] at inserts
  | updateDeleteOld => simp [WriteType.inserts, type] at inserts

theorem rollbackWrite_of_deletes {wr : WriteRecord} (deletes : wr.type.inserts = false)
    (σ : RecordStore) : rollbackWrite σ wr = σ.restoreRecord wr.rid wr.prevHeader := by
  unfold rollbackWrite
  cases type : wr.type with
  | insert => simp [WriteType.inserts, type] at deletes
  | updateInsertNew => simp [WriteType.inserts, type] at deletes
  | delete => rfl
  | updateDeleteOld => rfl

theorem slot_rollbackWrite_of_ne (σ : RecordStore) {wr : WriteRecord} {other : RID}
    (ne : other ≠ wr.rid) : (rollbackWrite σ wr).slot other = σ.slot other := by
  unfold rollbackWrite
  split
  · exact slot_markDead_of_ne σ ne
  · exact slot_markDead_of_ne σ ne
  · exact slot_restoreRecord_of_ne σ ne _
  · exact slot_restoreRecord_of_ne σ ne _

/-- Nothing is put where nothing is stored. -/
theorem slot_rollbackWrite_none {σ : RecordStore} {rid : RID} (free : σ.slot rid = none)
    {wr : WriteRecord} : (rollbackWrite σ wr).slot rid = none := by
  by_cases self : rid = wr.rid
  · subst self
    unfold rollbackWrite
    cases wr.type with
    | insert => simp [RecordStore.markDead, free]
    | updateInsertNew => simp [RecordStore.markDead, free]
    | delete => simp [RecordStore.restoreRecord, free]
    | updateDeleteOld => simp [RecordStore.restoreRecord, free]
  · exact (slot_rollbackWrite_of_ne σ self).trans free

theorem slot_rollbackWrites_none {writeSet : List WriteRecord} {σ : RecordStore} {rid : RID}
    (free : σ.slot rid = none) : (rollbackWrites σ writeSet).slot rid = none := by
  induction writeSet using List.reverseRecOn generalizing σ with
  | nil => exact free
  | append_singleton writeSet wr ih =>
      rw [rollbackWrites_snoc]
      exact ih (slot_rollbackWrite_none free)

/-- The addresses a write set mentions, and those it inserted at. -/
def touched (writeSet : List WriteRecord) (rid : RID) : Prop := ∃ wr ∈ writeSet, wr.rid = rid

def inserted (writeSet : List WriteRecord) (rid : RID) : Prop :=
  ∃ wr ∈ writeSet, wr.rid = rid ∧ wr.type.inserts = true

@[simp] theorem touched_snoc {writeSet : List WriteRecord} {wr : WriteRecord} {rid : RID} :
    touched (writeSet ++ [wr]) rid ↔ touched writeSet rid ∨ wr.rid = rid := by
  simp [touched, or_and_right, exists_or]

@[simp] theorem inserted_snoc {writeSet : List WriteRecord} {wr : WriteRecord} {rid : RID} :
    inserted (writeSet ++ [wr]) rid ↔
      inserted writeSet rid ∨ (wr.rid = rid ∧ wr.type.inserts = true) := by
  simp [inserted, or_and_right, exists_or]

theorem slot_rollbackWrites_of_untouched {writeSet : List WriteRecord} {rid : RID}
    (untouched : ¬ touched writeSet rid) (σ : RecordStore) :
    (rollbackWrites σ writeSet).slot rid = σ.slot rid := by
  induction writeSet using List.reverseRecOn generalizing σ with
  | nil => rfl
  | append_singleton writeSet wr ih =>
      rw [touched_snoc, not_or] at untouched
      rw [rollbackWrites_snoc, ih untouched.1, slot_rollbackWrite_of_ne σ (Ne.symm untouched.2)]

/-- A run from `σ₀` in which `T` makes sound calls and others sound operations: the
    store it reaches, what is then on `T`'s write set, and the store that the operations
    of the others alone would have reached. Nobody else writes where `T` has written. -/
inductive Interleaved (T : Nat) (σ₀ : RecordStore) :
    RecordStore → List WriteRecord → RecordStore → Prop
  | start : Interleaved T σ₀ σ₀ [] σ₀
  | own {σ writeSet alone} (call : Call) :
      Interleaved T σ₀ σ writeSet alone → call.Sound σ →
      Interleaved T σ₀ (call.apply T σ) (writeSet ++ [call.writeRecord σ]) alone
  | other {σ writeSet alone} (v : Nat) (op : Operation) :
      Interleaved T σ₀ σ writeSet alone → op.Sound σ → ¬ touched writeSet op.rid →
      Interleaved T σ₀ (op.apply v σ) writeSet (op.apply v alone)

namespace Interleaved

variable {T : Nat} {σ₀ σ alone : RecordStore} {writeSet : List WriteRecord} {extra : Nat → Nat}

/-- Away from what `T` wrote, both stores agree. -/
theorem slot_of_untouched (run : Interleaved T σ₀ σ writeSet alone) {rid : RID}
    (untouched : ¬ touched writeSet rid) : σ.slot rid = alone.slot rid := by
  induction run with
  | start => rfl
  | own call run sound ih =>
      rw [touched_snoc, not_or, Call.rid_writeRecord] at untouched
      rw [call.slot_apply_of_ne T _ (Ne.symm untouched.2)]
      exact ih untouched.1
  | other v op run sound clear ih =>
      by_cases self : rid = op.rid
      · rw [self]
        exact op.slot_apply_congr v (self ▸ ih untouched)
      · rw [op.slot_apply_of_ne v _ self, op.slot_apply_of_ne v _ self]
        exact ih untouched

/-- What `T` has written is stored. -/
theorem stored_of_touched (run : Interleaved T σ₀ σ writeSet alone) {rid : RID}
    (written : touched writeSet rid) : ∃ slot, σ.slot rid = some slot := by
  induction run with
  | start => simp [touched] at written
  | own call run sound ih =>
      by_cases self : rid = call.rid
      · rw [self]
        cases call with
        | insertTuple update t rid record => exact ⟨_, slot_insertTuple_self ..⟩
        | markDelete update rid rollPtr =>
            obtain ⟨slot, found, _⟩ := sound
            exact ⟨_, slot_markDelete_self found T rollPtr⟩
      · rw [call.slot_apply_of_ne T _ self]
        rw [touched_snoc, Call.rid_writeRecord] at written
        exact ih (written.resolve_right (Ne.symm self))
  | other v op run sound clear ih =>
      have ne : rid ≠ op.rid := fun same => clear (same ▸ written)
      rw [op.slot_apply_of_ne v _ ne]
      exact ih written

/-- The others alone never fill an address at which `T` inserted. -/
theorem alone_of_inserted (run : Interleaved T σ₀ σ writeSet alone) {rid : RID}
    (new : inserted writeSet rid) : alone.slot rid = none := by
  induction run with
  | start => simp [inserted] at new
  | @own σ writeSet alone call run sound ih =>
      rcases inserted_snoc.mp new with earlier | ⟨self, inserts⟩
      · exact ih earlier
      · rw [Call.rid_writeRecord] at self
        rw [Call.type_writeRecord] at inserts
        cases call with
        | insertTuple update t rid' record =>
            obtain rfl : rid' = rid := self
            have fresh : ¬ touched writeSet rid' := by
              intro written
              obtain ⟨slot, found⟩ := run.stored_of_touched written
              rw [sound.1] at found
              cases found
            exact (run.slot_of_untouched fresh).symm.trans sound.1
        | markDelete update rid' rollPtr => cases update <;> cases inserts
  | @other σ writeSet alone v op run sound clear ih =>
      have ne : rid ≠ op.rid := by
        rintro rfl
        obtain ⟨wr, member, self, _⟩ := new
        exact clear ⟨wr, member, self⟩
      rw [op.slot_apply_of_ne v alone ne]
      exact ih new

/-- Every op of the run moves the counters with the live records, on both sides. -/
theorem counted (run : Interleaved T σ₀ σ writeSet alone) (start : σ₀.Counted extra) :
    ∃ extra, σ.Counted extra ∧ alone.Counted extra := by
  induction run with
  | start => exact ⟨extra, start, start⟩
  | own call run sound ih =>
      obtain ⟨extra, left, right⟩ := ih
      exact ⟨extra, Call.counted_apply left sound T, right⟩
  | other v op run sound clear ih =>
      obtain ⟨extra, left, right⟩ := ih
      exact Operation.counted_apply left right sound (run.slot_of_untouched clear) v

end Interleaved

/-- The entry of a deletion puts back the record that the call found. -/
theorem rollbackWrite_markDelete {T : Nat} {σ τ : RecordStore} {extra : Nat → Nat} {update : Bool}
    {rid : RID} {rollPtr : UndoPointer} (sound : (Call.markDelete update rid rollPtr).Sound σ)
    (same : τ.slot rid = (σ.markDelete rid T rollPtr).slot rid) (counted : τ.Counted extra) :
    (rollbackWrite τ ((Call.markDelete update rid rollPtr).writeRecord σ)).slot rid = σ.slot rid ∧
    (rollbackWrite τ ((Call.markDelete update rid rollPtr).writeRecord σ)).Counted extra := by
  obtain ⟨⟨t, record⟩, found, noCorpse⟩ := sound
  rw [slot_markDelete_self found] at same
  have undo : rollbackWrite τ ((Call.markDelete update rid rollPtr).writeRecord σ) =
      τ.restoreRecord rid record.toRecordHeader := by
    have header := Call.prevHeader_writeRecord found update rollPtr
    unfold rollbackWrite
    cases update <;> simp [Call.writeType, Call.rid, header]
  rw [undo, slot_restoreRecord_self same, found]
  cases del : record.isDel with
  | true =>
      simp only [del, if_true] at same ⊢
      exact ⟨by simp, counted.restoreRecord_of_restorable same (.inr rfl)⟩
  | false =>
      simp only [del, Bool.false_eq_true, if_false] at same ⊢
      have alive : record.flags.isDead = false := by
        cases dead : record.flags.isDead with
        | false => rfl
        | true => simp [noCorpse dead] at del
      exact ⟨by simp, counted.restoreRecord_of_restorable same
        (.inl ⟨Record.isDel_deleted .., del, alive⟩)⟩

/-- The entry of an insertion kills the new record. -/
theorem rollbackWrite_insertTuple {σ τ : RecordStore} {extra : Nat → Nat} {update : Bool}
    {t : Nat} {rid : RID} {record : Record}
    (same : τ.slot rid = (σ.insertTuple t rid record).slot rid) (counted : τ.Counted extra) :
    (rollbackWrite τ ((Call.insertTuple update t rid record).writeRecord σ)).slot rid =
      some ⟨t, record.killed⟩ ∧
    (rollbackWrite τ ((Call.insertTuple update t rid record).writeRecord σ)).Counted extra := by
  rw [slot_insertTuple_self] at same
  have undo : rollbackWrite τ ((Call.insertTuple update t rid record).writeRecord σ) =
      τ.markDead rid := by
    unfold rollbackWrite
    cases update <;> simp [Call.writeType, Call.rid]
  rw [undo, slot_markDead_self same]
  exact ⟨rfl, counted.markDead rid⟩

/-- What the rollback of a write set does to a store in which the addresses of the
    write set hold what the run left there. -/
structure RolledBack (writeSet : List WriteRecord) (extra : Nat → Nat) (alone before : RecordStore)
    (after : RecordStore) : Prop where
  untouched : ∀ rid, ¬ touched writeSet rid → after.slot rid = before.slot rid
  dead : ∀ rid, inserted writeSet rid → ∃ slot, after.slot rid = some slot ∧
    slot.record.isDead = true
  restored : ∀ rid, touched writeSet rid → ¬ inserted writeSet rid →
    after.slot rid = alone.slot rid
  counted : after.Counted extra

theorem rolledBack_of_interleaved {T : Nat} {σ₀ σ alone : RecordStore}
    {writeSet : List WriteRecord} {extra : Nat → Nat}
    (run : Interleaved T σ₀ σ writeSet alone) {τ : RecordStore}
    (same : ∀ rid, touched writeSet rid → τ.slot rid = σ.slot rid) (counted : τ.Counted extra) :
    RolledBack writeSet extra alone τ (rollbackWrites τ writeSet) := by
  induction run generalizing τ with
  | start =>
      exact ⟨fun _ _ => rfl, by simp [inserted], by simp [touched], counted⟩
  | @own σ writeSet alone call run sound ih =>
      rw [rollbackWrites_snoc]
      have here : τ.slot call.rid = (call.apply T σ).slot call.rid :=
        same call.rid (touched_snoc.mpr (.inr (Call.rid_writeRecord call σ)))
      have elsewhere : ∀ rid, rid ≠ call.rid →
          (rollbackWrite τ (call.writeRecord σ)).slot rid = τ.slot rid := fun rid ne =>
        slot_rollbackWrite_of_ne τ (by rw [Call.rid_writeRecord]; exact ne)
      cases call with
      | insertTuple update t rid record =>
          have here : τ.slot rid = (σ.insertTuple t rid record).slot rid := here
          obtain ⟨killed, counted'⟩ := @rollbackWrite_insertTuple σ τ extra update t rid record
            here counted
          have new : ¬ touched writeSet rid := by
            intro written
            obtain ⟨slot, found⟩ := run.stored_of_touched written
            rw [sound.1] at found
            cases found
          have before := ih (fun rid' written => by
            have ne : rid' ≠ rid := fun self => new (self ▸ written)
            rw [elsewhere rid' ne, same rid' (touched_snoc.mpr (.inl written))]
            exact Call.slot_apply_of_ne _ T σ ne) counted'
          refine ⟨?_, ?_, ?_, before.counted⟩
          · intro rid' untouched
            rw [touched_snoc, not_or, Call.rid_writeRecord] at untouched
            rw [before.untouched rid' untouched.1]
            exact elsewhere rid' (Ne.symm untouched.2)
          · intro rid' isInserted
            rcases inserted_snoc.mp isInserted with earlier | ⟨self, _⟩
            · exact before.dead rid' earlier
            · rw [Call.rid_writeRecord] at self
              obtain rfl : rid = rid' := self
              rw [before.untouched rid new]
              exact ⟨_, killed, Record.isDead_killed record⟩
          · intro rid' written notInserted
            rw [inserted_snoc, not_or, Call.rid_writeRecord] at notInserted
            rcases touched_snoc.mp written with earlier | self
            · exact before.restored rid' earlier notInserted.1
            · rw [Call.rid_writeRecord] at self
              refine absurd ⟨self, ?_⟩ notInserted.2
              rw [Call.type_writeRecord]
              cases update <;> rfl
      | markDelete update rid rollPtr =>
          obtain ⟨back, counted'⟩ := rollbackWrite_markDelete sound here counted
          have before := ih (fun rid' written => by
            by_cases self : rid' = rid
            · rw [self]
              exact back
            · rw [elsewhere rid' self, same rid' (touched_snoc.mpr (.inl written))]
              exact Call.slot_apply_of_ne _ T σ self) counted'
          refine ⟨?_, ?_, ?_, before.counted⟩
          · intro rid' untouched
            rw [touched_snoc, not_or, Call.rid_writeRecord] at untouched
            rw [before.untouched rid' untouched.1]
            exact elsewhere rid' (Ne.symm untouched.2)
          · intro rid' isInserted
            rcases inserted_snoc.mp isInserted with earlier | ⟨_, inserts⟩
            · exact before.dead rid' earlier
            · rw [Call.type_writeRecord] at inserts
              cases update <;> cases inserts
          · intro rid' written notInserted
            rw [inserted_snoc, not_or] at notInserted
            by_cases earlier : touched writeSet rid'
            · exact before.restored rid' earlier notInserted.1
            · have self := (touched_snoc.mp written).resolve_left earlier
              rw [Call.rid_writeRecord] at self
              obtain rfl : rid = rid' := self
              rw [before.untouched rid earlier, back]
              exact run.slot_of_untouched earlier
  | @other σ writeSet alone v op run sound clear ih =>
      have kept : ∀ rid, touched writeSet rid → rid ≠ op.rid :=
        fun rid written self => clear (self ▸ written)
      have before := ih (fun rid written =>
        (same rid written).trans (op.slot_apply_of_ne v σ (kept rid written))) counted
      refine { before with restored := ?_ }
      intro rid written notInserted
      rw [before.restored rid written notInserted, op.slot_apply_of_ne v alone (kept rid written)]

/-- Rolling back the store that the run itself reached: `T`'s insertions are dead, and
    all else, counters included, is what the others alone would have left. -/
theorem rollbackWrites_interleaved {T : Nat} {σ₀ σ alone : RecordStore}
    {writeSet : List WriteRecord} {extra : Nat → Nat}
    (run : Interleaved T σ₀ σ writeSet alone) (start : σ₀.Counted extra) :
    (∀ rid, inserted writeSet rid → ∃ slot, (rollbackWrites σ writeSet).slot rid = some slot ∧
      slot.record.isDead = true) ∧
    (∀ rid, ¬ inserted writeSet rid → (rollbackWrites σ writeSet).slot rid = alone.slot rid) ∧
    (rollbackWrites σ writeSet).numRows = alone.numRows := by
  obtain ⟨extra', counted, countedAlone⟩ := run.counted start
  have back := rolledBack_of_interleaved run (fun _ _ => rfl) counted
  have others : ∀ rid, ¬ inserted writeSet rid →
      (rollbackWrites σ writeSet).slot rid = alone.slot rid := by
    intro rid notInserted
    by_cases written : touched writeSet rid
    · exact back.restored rid written notInserted
    · rw [back.untouched rid written]
      exact run.slot_of_untouched written
  refine ⟨back.dead, others, ?_⟩
  -- the counters follow from the live records, which are the same on both sides
  have live : (rollbackWrites σ writeSet).liveSet = alone.liveSet := by
    funext t
    ext rid
    by_cases new : inserted writeSet rid
    · obtain ⟨slot, found, dead⟩ := back.dead rid new
      have gone : rid ∉ (rollbackWrites σ writeSet).liveSet t := by
        rw [mem_liveSet_of_slot found]
        simp [Record.isLive, dead]
      exact iff_of_false gone (not_mem_liveSet_of_none (run.alone_of_inserted new) t)
    · simp only [liveSet, Set.mem_ofPred_eq, others rid new]
  funext t
  rw [back.counted.numRows, countedAlone.numRows, live]

end Rollback

end YourSQL
