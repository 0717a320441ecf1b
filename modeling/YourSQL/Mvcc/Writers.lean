import YourSQL.Mvcc.DirtyWrites

/-! # Who wrote what is stored

A record that is not dead was written by somebody who has not been rolled back, and while
the writer is under way its write set leads to the record. Of the records under its own
deletions a transaction knows as much, so that a rollback brings back nobody's leftovers.
-/

namespace YourSQL

namespace Mvcc

variable {m m' : VersionStore} {trx v : Nat} {rid : RID}

/-- The id was given out, its owner stands, and while the owner is under way its write set
    leads to the address. -/
structure Written (m : VersionStore) (rid : RID) (v : Nat) : Prop where
  issued : v < m.manager.nextTxid
  stands : m.manager.isAborted v = false
  entered : v ∈ m.manager.activeTxns → Rollback.touched (m.writeSet v) rid

/-- The same of the writer under a deletion; if it is under way, then the record was
    inserted by who has deleted it. -/
structure Beneath (m : VersionStore) (trx : Nat) (wr : WriteRecord) : Prop where
  issued : wr.prevTrxId < m.manager.nextTxid
  stands : m.manager.isAborted wr.prevTrxId = false
  inserted : wr.prevTrxId ∈ m.manager.activeTxns → Rollback.inserted (m.writeSet trx) wr.rid

structure Attributed (m : VersionStore) : Prop where
  stored : ∀ rid slot, m.slot rid = some slot → slot.record.isDead = false →
    1 ≤ slot.record.trxId → Written m rid slot.record.trxId
  beneath : ∀ trx ∈ m.manager.activeTxns, ∀ wr ∈ m.writeSet trx, wr.type.inserts = false →
    1 ≤ wr.prevTrxId → Beneath m trx wr

/-! ## Statements -/

/-- A transaction under way enters a write and stores a record of its own at that address,
    or nothing. -/
theorem Attributed.enter (attributed : Attributed m) (guarded : Guarded m)
    (active : trx ∈ m.manager.activeTxns) {wr : WriteRecord}
    (nextTxid : m'.manager.nextTxid = m.manager.nextTxid)
    (activeTxns : m'.manager.activeTxns = m.manager.activeTxns)
    (aborted : ∀ v, m'.manager.isAborted v = m.manager.isAborted v)
    (writeSet : ∀ v, m'.writeSet v = if v = trx then m.writeSet trx ++ [wr] else m.writeSet v)
    (slot : ∀ rid slot, m'.slot rid = some slot →
      m.slot rid = some slot ∨ rid = wr.rid ∧ slot.record.trxId = trx)
    (beneath : wr.type.inserts = false → 1 ≤ wr.prevTrxId → Beneath m trx wr) :
    Attributed m' := by
  have touched : ∀ {v rid}, Rollback.touched (m.writeSet v) rid →
      Rollback.touched (m'.writeSet v) rid := by
    intro v rid ⟨entry, member, here⟩
    rw [writeSet]
    split
    · rename_i own
      exact ⟨entry, List.mem_append_left _ (own ▸ member), here⟩
    · exact ⟨entry, member, here⟩
  have inserted : ∀ {v rid}, Rollback.inserted (m.writeSet v) rid →
      Rollback.inserted (m'.writeSet v) rid := by
    intro v rid ⟨entry, member, here, inserts⟩
    rw [writeSet]
    split
    · rename_i own
      exact ⟨entry, List.mem_append_left _ (own ▸ member), here, inserts⟩
    · exact ⟨entry, member, here, inserts⟩
  have keeps : ∀ {v entry}, Beneath m v entry → Beneath m' v entry := fun under =>
    { issued := nextTxid ▸ under.issued
      stands := (aborted _).trans under.stands
      inserted := fun member => inserted (under.inserted (activeTxns ▸ member)) }
  constructor
  · intro rid slot' stored alive positive
    cases slot rid slot' stored with
    | inl before =>
        have written := attributed.stored rid slot' before alive positive
        exact
          { issued := nextTxid ▸ written.issued
            stands := (aborted _).trans written.stands
            entered := fun member => touched (written.entered (activeTxns ▸ member)) }
    | inr new =>
        obtain ⟨here, own⟩ := new
        rw [own]
        exact
          { issued := nextTxid ▸ (guarded.manager.issued trx active).2
            stands := (aborted _).trans (guarded.manager.not_aborted_of_active active)
            entered := fun _ => ⟨wr, by simp [writeSet], here.symm⟩ }
  · intro v member entry inSet deletes positive
    rw [activeTxns] at member
    rw [writeSet] at inSet
    split at inSet
    · rename_i own
      subst own
      cases List.mem_append.mp inSet with
      | inl earlier => exact keeps (attributed.beneath v member entry earlier deletes positive)
      | inr last =>
          obtain rfl := List.mem_singleton.mp last
          exact keeps (beneath deletes positive)
    · exact keeps (attributed.beneath v member entry inSet deletes positive)

/-- A record that a transaction may write over has a writer that stands, and if that is the
    transaction itself, then it has inserted the record. -/
theorem Attributed.beneath_of_free (attributed : Attributed m) (guarded : Guarded m) {t : Nat}
    {old : Record} (stored : m.slot rid = some ⟨t, old⟩) (free : Free m trx old)
    {wr : WriteRecord} (here : wr.rid = rid) (writer : wr.prevTrxId = old.trxId)
    (positive : 1 ≤ wr.prevTrxId) : Beneath m trx wr := by
  rw [writer] at positive
  have stands := free.stands positive
  have alive : old.isDead = false := by
    cases dead : old.isDead with
    | false => rfl
    | true =>
        have buried := (guarded.buried rid _ stored dead).2
        rw [stands] at buried
        cases buried
  have written := attributed.stored rid _ stored alive positive
  rw [← writer] at stands written
  refine ⟨written.issued, stands, fun active => ?_⟩
  have own : wr.prevTrxId = trx := by
    rw [writer] at active ⊢
    exact free.own active
  obtain ⟨entry, member, same⟩ := written.entered active
  rw [own] at member active
  refine ⟨entry, member, same.trans here.symm, ?_⟩
  cases kind : entry.type.inserts with
  | true => rfl
  | false =>
      obtain ⟨below, pointer, -, -, deleted, -⟩ := (guarded.owns trx active).deleted entry member kind
      rw [same, stored, Option.some.injEq, Slot.mk.injEq] at deleted
      have undeleted := free.alive
      rw [deleted.2, Record.isDel_deleted] at undeleted
      cases undeleted

theorem Step.attributed (step : Step trx m m') (guarded : Guarded m)
    (active : trx ∈ m.manager.activeTxns) (attributed : Attributed m) : Attributed m' := by
  cases step with
  | @save rid t old pointer stored free next =>
      have same : ∀ {v wr}, Beneath m v wr → Beneath (m.save pointer old) v wr := fun under =>
        ⟨under.issued, under.stands, under.inserted⟩
      constructor
      · intro other slot found alive positive
        have written := attributed.stored other slot found alive positive
        exact ⟨written.issued, written.stands, written.entered⟩
      · exact fun v member wr inSet deletes positive =>
          same (attributed.beneath v member wr inSet deletes positive)
  | @delete rid t old pointer type stored free saved deletes =>
      apply @Attributed.enter m (m.deletion trx t rid old pointer type) trx attributed guarded
        active _ rfl rfl (fun _ => rfl) (VersionStore.writeSet_deletion m trx t rid old pointer type)
      · intro other slot found
        rw [VersionStore.slot_deletion] at found
        split at found
        · rename_i here
          obtain rfl := Option.some.inj found
          exact .inr ⟨here, rfl⟩
        · exact .inl found
      · exact fun _ positive => attributed.beneath_of_free guarded stored free rfl rfl positive
  | @insert rid t record type event unused somewhere own clean anchored inserts isWrite =>
      apply @Attributed.enter m (m.insertion trx t rid record type event) trx attributed guarded
        active _ rfl rfl (fun _ => rfl) (VersionStore.writeSet_insertion m trx t rid record type event)
      · intro other slot found
        rw [VersionStore.slot_insertion] at found
        split at found
        · rename_i here
          obtain rfl := Option.some.inj found
          exact .inr ⟨here, own⟩
        · exact .inl found
      · intro deletes
        rw [inserts] at deletes
        cases deletes
  | @lose t event isWrite =>
      apply @Attributed.enter m (m.enter trx { rid := ⟨0, 0⟩, type := .updateInsertNew, tableId := t }
        event) trx attributed guarded active _ rfl rfl (fun _ => rfl)
        (VersionStore.writeSet_enter m trx _ event)
      · exact fun _ _ found => .inl found
      · intro deletes
        cases deletes

theorem Steps.attributed (steps : Steps trx m m') (guarded : Guarded m)
    (active : trx ∈ m.manager.activeTxns) (attributed : Attributed m) : Attributed m' := by
  induction steps with
  | refl => exact attributed
  | tail earlier step ih =>
      have active' := (Steps.spares earlier).activeTxns.symm ▸ active
      exact step.attributed (Steps.guarded earlier guarded active) active' ih

/-! ## Begin, new read views, Commit and Abort -/

/-- The manager changes, and no record. Who is new has written nothing. -/
theorem Attributed.manage (attributed : Attributed m) (slot : m'.slot = m.slot)
    (nextTxid : m.manager.nextTxid ≤ m'.manager.nextTxid)
    (aborted : ∀ v < m.manager.nextTxid, m.manager.isAborted v = false →
      m'.manager.isAborted v = false)
    (writeSet : ∀ v ∈ m'.manager.activeTxns, v ∈ m.manager.activeTxns ∧
      m'.writeSet v = m.writeSet v ∨ m.manager.nextTxid ≤ v ∧ m'.writeSet v = []) :
    Attributed m' := by
  have before : ∀ v < m.manager.nextTxid, v ∈ m'.manager.activeTxns →
      v ∈ m.manager.activeTxns ∧ m'.writeSet v = m.writeSet v := by
    intro v below member
    cases writeSet v member with
    | inl known => exact known
    | inr new => exact absurd below (Nat.not_lt.mpr new.1)
  constructor
  · intro rid slot' stored alive positive
    rw [slot] at stored
    have written := attributed.stored rid slot' stored alive positive
    refine ⟨Nat.lt_of_lt_of_le written.issued nextTxid, aborted _ written.issued written.stands, ?_⟩
    intro member
    obtain ⟨active, same⟩ := before _ written.issued member
    exact same ▸ written.entered active
  · intro trx member wr inSet deletes positive
    cases writeSet trx member with
    | inl known =>
        rw [known.2] at inSet
        have under := attributed.beneath trx known.1 wr inSet deletes positive
        refine ⟨Nat.lt_of_lt_of_le under.issued nextTxid, aborted _ under.issued under.stands, ?_⟩
        intro active
        rw [known.2]
        exact under.inserted (before _ under.issued active).1
    | inr new =>
        rw [new.2] at inSet
        cases inSet

theorem Attributed.viewed (attributed : Attributed m) (trx : Nat) : Attributed (m.viewed trx) := by
  apply @Attributed.manage m (m.viewed trx) attributed rfl le_rfl (fun _ _ stands => stands)
  intro v member
  refine .inl ⟨member, ?_⟩
  by_cases same : v = trx
  · subst same
    simp [VersionStore.viewed, TransactionManager.setReadView, VersionStore.writeSet]
  · simp [VersionStore.viewed, TransactionManager.setReadView, VersionStore.writeSet, same]

theorem Attributed.begun (attributed : Attributed m) : Attributed m.begun := by
  apply @Attributed.manage m m.begun attributed rfl (Nat.le_succ _)
  · intro v below stands
    have other : v ≠ m.manager.nextTxid := Nat.ne_of_lt below
    simpa [VersionStore.begun, VersionStore.viewed, TransactionManager.setReadView,
      TransactionManager.beginAllocate, TransactionManager.isAborted, other] using stands
  · intro v member
    by_cases same : v = m.manager.nextTxid
    · subst same
      refine .inr ⟨le_rfl, ?_⟩
      simp [VersionStore.begun, VersionStore.viewed, TransactionManager.setReadView,
        TransactionManager.beginAllocate, VersionStore.writeSet]
    · refine .inl ⟨(List.mem_cons.mp member).resolve_left same, ?_⟩
      simp [VersionStore.begun, VersionStore.viewed, TransactionManager.setReadView,
        TransactionManager.beginAllocate, VersionStore.writeSet, same]

theorem Attributed.committed (attributed : Attributed m) (trx : Nat) :
    Attributed (m.committed trx) := by
  apply @Attributed.manage m (m.committed trx) attributed rfl le_rfl
  · intro v _ stands
    by_cases same : v = trx
    · subst same
      simp [VersionStore.committed, TransactionManager.isAborted]
    · rw [TransactionManager.isAborted, VersionStore.committed,
        TransactionManager.finish_txnState_of_ne _ same]
      exact stands
  · intro v member
    obtain ⟨before, other⟩ := TransactionManager.mem_finish_activeTxns.mp member
    exact .inl ⟨before, congrArg Transaction.writeSet
      (TransactionManager.finish_transaction_of_ne _ other _)⟩

/-- A record that the transaction has written is dead after its rollback, or it is the one
    that lay under a deletion. -/
theorem Guarded.rolledBack (guarded : Guarded m) (active : trx ∈ m.manager.activeTxns)
    (touched : Rollback.touched (m.writeSet trx) rid) {slot : Slot}
    (left : (m.aborted trx).slot rid = some slot) :
    slot.record.isDead = true ∨ ∃ wr ∈ m.writeSet trx, wr.rid = rid ∧ wr.type.inserts = false ∧
      slot.record.toRecordHeader = wr.prevHeader ∧ ¬ Rollback.inserted (m.writeSet trx) rid := by
  by_cases deletes : ∃ wr ∈ m.writeSet trx, wr.rid = rid ∧ wr.type.inserts = false
  · obtain ⟨wr, member, rfl, deletes⟩ := deletes
    obtain ⟨old, pointer, header, -, -, alone, inserted⟩ := guarded.restored active member deletes
    by_cases isInserted : Rollback.inserted (m.writeSet trx) wr.rid
    · obtain rfl := Option.some.inj ((inserted isInserted).symm.trans left)
      exact .inl (Record.isDead_killed old)
    · obtain rfl := Option.some.inj ((alone isInserted).symm.trans left)
      exact .inr ⟨wr, member, rfl, deletes, header, isInserted⟩
  · have inserts : ∀ wr ∈ m.writeSet trx, wr.rid = rid → wr.type.inserts = true := by
      intro wr member here
      cases kind : wr.type.inserts with
      | true => rfl
      | false => exact absurd ⟨wr, member, here, kind⟩ deletes
    cases before : m.slot rid with
    | none =>
        have none : (m.aborted trx).slot rid = none := Rollback.slot_rollbackWrites_none before
        rw [none] at left
        cases left
    | some slot' =>
        have killed := (Rollback.slot_rollbackWrites_insertions inserts before).2 touched
        obtain rfl := Option.some.inj (killed.symm.trans left)
        exact .inl (Record.isDead_killed slot'.record)

theorem Attributed.aborted (attributed : Attributed m) (guarded : Guarded m)
    (active : trx ∈ m.manager.activeTxns) : Attributed (m.aborted trx) := by
  have stands : ∀ {w}, w ≠ trx → m.manager.isAborted w = false →
      (m.aborted trx).manager.isAborted w = false := by
    intro w other before
    rw [TransactionManager.isAborted, VersionStore.aborted,
      TransactionManager.finish_txnState_of_ne _ other]
    exact before
  have writeSet : ∀ {w}, w ≠ trx → (m.aborted trx).writeSet w = m.writeSet w := fun other =>
    congrArg Transaction.writeSet (TransactionManager.finish_transaction_of_ne _ other _)
  constructor
  · intro rid slot left alive positive
    by_cases touched : Rollback.touched (m.writeSet trx) rid
    · cases guarded.rolledBack active touched left with
      | inl dead =>
          rw [alive] at dead
          cases dead
      | inr restored =>
          obtain ⟨wr, member, rfl, deletes, header, alone⟩ := restored
          have writer : slot.record.trxId = wr.prevTrxId := congrArg RecordHeader.trxId header
          rw [writer] at positive ⊢
          have under := attributed.beneath trx active wr member deletes positive
          have ended : wr.prevTrxId ∉ m.manager.activeTxns := fun still => alone (under.inserted still)
          have other : wr.prevTrxId ≠ trx := fun same => ended (same ▸ active)
          refine ⟨under.issued, stands other under.stands, fun still => ?_⟩
          exact absurd (TransactionManager.mem_finish_activeTxns.mp still).1 ended
    · have stored : m.slot rid = some slot :=
        (Rollback.slot_rollbackWrites_of_untouched touched _).symm.trans left
      have written := attributed.stored rid slot stored alive positive
      have other : slot.record.trxId ≠ trx := by
        intro own
        rw [own] at written
        exact touched (written.entered active)
      refine ⟨written.issued, stands other written.stands, fun still => ?_⟩
      rw [writeSet other]
      exact written.entered (TransactionManager.mem_finish_activeTxns.mp still).1
  · intro v member wr inSet deletes positive
    obtain ⟨before, other⟩ := TransactionManager.mem_finish_activeTxns.mp member
    rw [writeSet other] at inSet
    have under := attributed.beneath v before wr inSet deletes positive
    have apart : wr.prevTrxId ≠ trx := by
      intro same
      have inserted := under.inserted (same ▸ active)
      exact other ((guarded.owns v before).mine wr inSet deletes inserted ▸ same)
    refine ⟨under.issued, stands apart under.stands, fun still => ?_⟩
    rw [writeSet other]
    exact under.inserted (TransactionManager.mem_finish_activeTxns.mp still).1

end Mvcc

/-! ## Clients -/

open Mvcc (Attributed)

variable {s u : Database} {pages : Nat → List Nat} {tableOf : Nat → Nat}

/-- No command leaves a record that nobody accounts for. -/
theorem Command.attributed {command : Command} (secure : s.Secure pages tableOf)
    (proper : command.Proper s) (attributed : Attributed (s.versions tableOf)) :
    ∃ pages tableOf, (command.perform s).Secure pages tableOf ∧
      Attributed ((command.perform s).versions tableOf) := by
  obtain ⟨pages', tableOf', secure', moves⟩ := secure.moves proper
  refine ⟨pages', tableOf', secure', ?_⟩
  generalize (command.perform s).versions tableOf' = m' at moves
  cases moves with
  | begin => exact attributed.begun
  | refreshReadView active => exact attributed.viewed _
  | commit active => exact attributed.committed _
  | abort active => exact attributed.aborted secure.guarded active
  | statement client active steps => exact steps.attributed secure.guarded active attributed
  | nothing => exact attributed

theorem Interleaving.attributed {kind : Command → Prop} (run : Interleaving kind s u)
    (secure : s.Secure pages tableOf) (attributed : Attributed (s.versions tableOf)) :
    ∃ pages tableOf, u.Secure pages tableOf ∧ Attributed (u.versions tableOf) := by
  induction run with
  | refl => exact ⟨pages, tableOf, secure, attributed⟩
  | perform command _ _ proper ih =>
      obtain ⟨pages', tableOf', secure', attributed'⟩ := ih
      exact Command.attributed secure' proper attributed'

theorem Database.Reachable.attributed (reachable : s.Reachable) :
    ∃ pages tableOf, s.Secure pages tableOf ∧ Attributed (s.versions tableOf) := by
  obtain ⟨start, fresh, run⟩ := reachable
  apply run.attributed fresh.secure
  constructor
  · intro rid slot found
    rw [fresh.slot_eq_none] at found
    cases found
  · change ∀ trx ∈ start.txnManager.activeTxns, _
    simp [fresh.txnManager]

end YourSQL
