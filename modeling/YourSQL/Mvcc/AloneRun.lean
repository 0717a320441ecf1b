import YourSQL.Mvcc.Writers
import YourSQL.Storage.Contents

/-! # A transaction that runs alone

Nobody else is under way, so every record that is not dead has a writer whom the
transaction sees. A scan shows it the live records as they are stored, and goes down no
chain. What its rollback would leave is, at every moment, what there was before it began,
with dead records where it has inserted some.
-/

namespace YourSQL

namespace Rollback

open RecordStore

/-- What is undone at an address depends on nothing but what is there. -/
theorem slot_rollbackWrite_congr {σ τ : RecordStore} {rid : RID} (same : σ.slot rid = τ.slot rid)
    (wr : WriteRecord) : (rollbackWrite σ wr).slot rid = (rollbackWrite τ wr).slot rid := by
  by_cases here : rid = wr.rid
  · subst here
    cases found : σ.slot wr.rid with
    | none => rw [slot_rollbackWrite_none found, slot_rollbackWrite_none (same.symm.trans found)]
    | some slot =>
        have found' := same.symm.trans found
        cases kind : wr.type.inserts with
        | true =>
            rw [rollbackWrite_of_inserts kind, rollbackWrite_of_inserts kind, slot_markDead_self found,
              slot_markDead_self found']
        | false =>
            rw [rollbackWrite_of_deletes kind, rollbackWrite_of_deletes kind,
              slot_restoreRecord_self found, slot_restoreRecord_self found']
  · rw [slot_rollbackWrite_of_ne σ here, slot_rollbackWrite_of_ne τ here, same]

theorem slot_rollbackWrites_congr {σ τ : RecordStore} {rid : RID} (same : σ.slot rid = τ.slot rid)
    (writeSet : List WriteRecord) :
    (rollbackWrites σ writeSet).slot rid = (rollbackWrites τ writeSet).slot rid := by
  induction writeSet using List.reverseRecOn generalizing σ τ with
  | nil => exact same
  | append_singleton writeSet wr ih =>
      rw [rollbackWrites_snoc, rollbackWrites_snoc]
      exact ih (slot_rollbackWrite_congr same wr)

end Rollback

namespace Mvcc

variable {m₀ m m' : VersionStore} {trx : Nat}

/-- The store as the transaction's rollback would leave it. -/
def VersionStore.undone (m : VersionStore) (trx : Nat) : RecordStore :=
  Rollback.rollbackWrites m.toRecordStore (m.writeSet trx)

/-- As it was at an address, or dead where there was nothing. -/
def Back (before after : Option Slot) : Prop :=
  after = before ∨ before = none ∧ ∀ slot, after = some slot → slot.record.isDead = true

/-- Nobody but the transaction is under way, and it sees all who have committed. Taking its
    writes back leads to where it began. -/
structure Solo (m₀ : VersionStore) (trx : Nat) (m : VersionStore) : Prop where
  active : m.manager.activeTxns = [trx]
  sees : ∀ v ∈ committedOf m.journal, seenBy trx m.journal v = true
  back : ∀ rid, Back (m₀.slot rid) ((m.undone trx).slot rid)

/-- A transaction that begins when nobody is under way. -/
theorem Solo.begun (nobody : m₀.manager.activeTxns = []) : Solo m₀ m₀.manager.nextTxid m₀.begun where
  active := congrArg (List.cons m₀.manager.nextTxid) nobody
  sees v member := by
    change v ∈ committedOf (m₀.journal ++ [.view m₀.manager.nextTxid]) at member
    change seenBy m₀.manager.nextTxid (m₀.journal ++ [.view m₀.manager.nextTxid]) v = true
    rw [mem_committedOf] at member
    rw [seenBy_iff, snapshotOf_snoc, if_pos rfl, mem_committedOf]
    simpa using Or.inr member
  back rid := by
    have empty : m₀.begun.writeSet m₀.manager.nextTxid = [] := by
      simp [VersionStore.begun, VersionStore.viewed, TransactionManager.setReadView,
        TransactionManager.beginAllocate, VersionStore.writeSet]
    rw [VersionStore.undone, empty]
    exact .inl rfl

theorem Solo.viewed (solo : Solo m₀ trx m) : Solo m₀ trx (m.viewed trx) where
  active := solo.active
  sees v member := by
    change v ∈ committedOf (m.journal ++ [.view trx]) at member
    change seenBy trx (m.journal ++ [.view trx]) v = true
    rw [mem_committedOf] at member
    rw [seenBy_iff, snapshotOf_snoc, if_pos rfl, mem_committedOf]
    simpa using Or.inr member
  back rid := by
    have same : (m.viewed trx).writeSet trx = m.writeSet trx := by
      simp [VersionStore.viewed, TransactionManager.setReadView, VersionStore.writeSet]
    rw [VersionStore.undone, same]
    exact solo.back rid

/-- A write that is entered is undone first. -/
theorem Solo.enter (solo : Solo m₀ trx m) {wr : WriteRecord} {event : Event}
    (isWrite : IsWrite event) (activeTxns : m'.manager.activeTxns = m.manager.activeTxns)
    (journal : m'.journal = m.journal ++ [event])
    (writeSet : m'.writeSet trx = m.writeSet trx ++ [wr])
    (undone : ∀ rid, (Rollback.rollbackWrite m'.toRecordStore wr).slot rid = m.slot rid ∨
      m.slot rid = none ∧ ¬ Rollback.touched (m.writeSet trx) rid ∧
        ∀ slot, (Rollback.rollbackWrite m'.toRecordStore wr).slot rid = some slot →
          slot.record.isDead = true) : Solo m₀ trx m' where
  active := activeTxns.trans solo.active
  sees v member := by
    rw [journal, isWrite.committedOf] at member
    rw [journal, VersionStore.Newest.seenBy_write isWrite]
    exact solo.sees v member
  back rid := by
    have before := solo.back rid
    rw [VersionStore.undone, writeSet, Rollback.rollbackWrites_snoc]
    rcases undone rid with same | ⟨unused, untouched, dead⟩
    · rw [Rollback.slot_rollbackWrites_congr same]
      exact before
    · rw [Rollback.slot_rollbackWrites_of_untouched untouched]
      refine .inr ⟨?_, dead⟩
      rw [VersionStore.undone, Rollback.slot_rollbackWrites_none unused] at before
      rcases before with same | ⟨nothing, -⟩
      · exact same.symm
      · exact nothing

/-- Where nothing is stored a transaction under way has written nothing. -/
theorem Guarded.untouched_of_none (guarded : Guarded m) (active : trx ∈ m.manager.activeTxns)
    {rid : RID} (unused : m.slot rid = none) (somewhere : rid ≠ ⟨0, 0⟩) :
    ¬ Rollback.touched (m.writeSet trx) rid := by
  rintro ⟨wr, member, rfl⟩
  have owns := guarded.owns trx active
  cases kind : wr.type.inserts with
  | true =>
      rcases owns.inserted wr member kind with nowhere | ⟨record, stored, -⟩
      · exact somewhere nowhere
      · rw [unused] at stored
        cases stored
  | false =>
      obtain ⟨old, pointer, -, -, stored, -⟩ := owns.deleted wr member kind
      rw [unused] at stored
      cases stored

theorem Step.solo (step : Step trx m m') (guarded : Guarded m) (solo : Solo m₀ trx m) :
    Solo m₀ trx m' := by
  have active : trx ∈ m.manager.activeTxns := by simp [solo.active]
  cases step with
  | save stored free next => exact ⟨solo.active, solo.sees, solo.back⟩
  | @delete rid t old pointer type stored free saved deletes =>
      apply @Solo.enter m₀ m (m.deletion trx t rid old pointer type) trx solo _ _
        (show IsWrite (.delete trx rid) from ⟨by simp, rfl⟩) rfl rfl
        ((VersionStore.writeSet_deletion ..).trans (if_pos rfl))
      intro other
      refine .inl ?_
      by_cases same : other = rid
      · subst same
        have marked : (m.deletion trx t other old pointer type).slot other =
            some ⟨t, old.deleted trx pointer⟩ :=
          (VersionStore.slot_deletion ..).trans (if_pos rfl)
        rw [Rollback.rollbackWrite_of_deletes deletes, stored]
        exact RecordStore.slot_restoreRecord_self marked _
      · rw [Rollback.slot_rollbackWrite_of_ne _ same]
        exact (VersionStore.slot_deletion ..).trans (if_neg same)
  | @insert rid t record type event unused somewhere own clean anchored inserts isWrite =>
      apply @Solo.enter m₀ m (m.insertion trx t rid record type event) trx solo _ _ isWrite rfl rfl
        ((VersionStore.writeSet_insertion ..).trans (if_pos rfl))
      intro other
      by_cases same : other = rid
      · subst same
        refine .inr ⟨unused, guarded.untouched_of_none active unused somewhere, ?_⟩
        intro slot left
        have inserted : (m.insertion trx t other record type event).slot other = some ⟨t, record⟩ :=
          (VersionStore.slot_insertion ..).trans (if_pos rfl)
        rw [Rollback.rollbackWrite_of_inserts inserts] at left
        obtain rfl := Option.some.inj ((RecordStore.slot_markDead_self inserted).symm.trans left)
        exact record.isDead_killed
      · rw [Rollback.slot_rollbackWrite_of_ne _ same]
        exact .inl ((VersionStore.slot_insertion ..).trans (if_neg same))
  | @lose t event isWrite =>
      apply @Solo.enter m₀ m (m.enter trx { rid := ⟨0, 0⟩, type := .updateInsertNew, tableId := t }
        event) trx solo _ _ isWrite rfl rfl ((VersionStore.writeSet_enter ..).trans (if_pos rfl))
      intro other
      refine .inl ?_
      by_cases same : other = ⟨0, 0⟩
      · subst same
        rw [guarded.nowhere]
        exact Rollback.slot_rollbackWrite_none guarded.nowhere
      · exact Rollback.slot_rollbackWrite_of_ne _ same

theorem Steps.solo (steps : Steps trx m m') (guarded : Guarded m) (solo : Solo m₀ trx m) :
    Solo m₀ trx m' := by
  have active : trx ∈ m.manager.activeTxns := by simp [solo.active]
  induction steps with
  | refl => exact solo
  | tail earlier step ih => exact step.solo (Steps.guarded earlier guarded active) ih

end Mvcc

/-! ## Runs -/

open Mvcc (Attributed Guarded Solo VersionStore)

/-- Nobody is under way when the transaction begins, and from then on all commands are
    its own. -/
structure Database.Alone (start : Database) (trx : Nat) (s : Database) : Prop where
  reachable : start.Reachable
  nobody : start.txnManager.activeTxns = []
  id : start.txnManager.nextTxid = trx
  run : Interleaving (fun command => command.client = some trx ∧ command ≠ .commit trx ∧
    command ≠ .abort trx) (Command.begin.perform start) s

/-- What is known of the records while the transaction runs. -/
structure Database.Kept (m₀ : VersionStore) (trx : Nat) (s : Database) (pages : Nat → List Nat)
    (tableOf : Nat → Nat) : Prop extends s.Secure pages tableOf where
  attributed : Attributed (s.versions tableOf)
  solo : Solo m₀ trx (s.versions tableOf)

variable {start s u : Database} {pages : Nat → List Nat} {tableOf : Nat → Nat} {trx t : Nat}
  {m₀ : VersionStore} {rid : RID} {record : Record}

theorem Database.Kept.perform {command : Command} (kept : s.Kept m₀ trx pages tableOf)
    (proper : command.Proper s) (own : command.client = some trx) (notCommit : command ≠ .commit trx)
    (notAbort : command ≠ .abort trx) :
    ∃ pages tableOf, (command.perform s).Kept m₀ trx pages tableOf := by
  have secure := kept.toSecure
  obtain ⟨pages', tableOf', secure', moves⟩ := secure.moves proper
  suffices after : Attributed ((command.perform s).versions tableOf') ∧
      Solo m₀ trx ((command.perform s).versions tableOf') from
    ⟨pages', tableOf', secure', after.1, after.2⟩
  generalize (command.perform s).versions tableOf' = m' at moves
  cases moves with
  | begin => cases own
  | refreshReadView active =>
      obtain rfl := Option.some.inj own
      exact ⟨kept.attributed.viewed _, kept.solo.viewed⟩
  | commit active =>
      obtain rfl := Option.some.inj own
      exact absurd rfl notCommit
  | abort active =>
      obtain rfl := Option.some.inj own
      exact absurd rfl notAbort
  | statement client active steps =>
      obtain rfl := Option.some.inj (own.symm.trans client)
      exact ⟨steps.attributed secure.guarded active kept.attributed,
        steps.solo secure.guarded kept.solo⟩
  | nothing => exact ⟨kept.attributed, kept.solo⟩

theorem Database.Alone.kept (alone : start.Alone trx s) :
    ∃ pages₀ tableOf₀ pages tableOf, start.Secure pages₀ tableOf₀ ∧
      s.Kept (start.versions tableOf₀) trx pages tableOf := by
  obtain ⟨reachable, nobody, rfl, run⟩ := alone
  obtain ⟨pages₀, tableOf₀, secure, attributed⟩ := reachable.attributed
  refine ⟨pages₀, tableOf₀, ?_⟩
  suffices kept : ∃ pages tableOf,
      s.Kept (start.versions tableOf₀) start.txnManager.nextTxid pages tableOf by
    obtain ⟨pages, tableOf, kept⟩ := kept
    exact ⟨pages, tableOf, secure, kept⟩
  induction run with
  | refl =>
      have versions := (begin_versions secure.sound).2
      refine ⟨pages₀, tableOf₀, secure.begin.toSecure, ?_, ?_⟩
      · exact versions ▸ attributed.begun
      · exact versions ▸ @Solo.begun (start.versions tableOf₀) nobody
  | perform command _ own proper ih =>
      obtain ⟨pages, tableOf, kept⟩ := ih
      exact kept.perform proper own.1 own.2.1 own.2.2

namespace Database.Kept

theorem active (kept : s.Kept m₀ trx pages tableOf) : trx ∈ s.txnManager.activeTxns := by
  have active := kept.solo.active
  change s.txnManager.activeTxns = [trx] at active
  simp [active]

/-! ## What the transaction sees -/

/-- Of every record that is not dead. -/
theorem isVisibleTo (kept : s.Kept m₀ trx pages tableOf)
    (stored : (s.versions tableOf).slot rid = some ⟨t, record⟩) (alive : record.isDead = false) :
    s.isVisibleTo (some trx) record.trxId = true := by
  rcases Nat.eq_zero_or_pos record.trxId with nobody | positive
  · unfold Database.isVisibleTo
    exact if_pos nobody
  · have inv : Mvcc.ManagerInv s.txnManager s.journal := kept.guarded.manager
    have written := kept.attributed.stored rid _ stored alive positive
    have known : record.trxId ∈ s.txnManager.activeTxns ∨
        record.trxId ∈ Mvcc.committedOf s.journal := by
      rcases inv.total _ positive written.issued with active | committed | aborted
      · exact .inl active
      · exact .inr committed
      · have stands : s.txnManager.isAborted record.trxId = false := written.stands
        rw [stands] at aborted
        cases aborted
    rw [isVisibleTo_eq inv kept.active known]
    rcases known with active | committed
    · have only := kept.solo.active
      change s.txnManager.activeTxns = [trx] at only
      rw [only, List.mem_singleton] at active
      exact Mvcc.seenBy_iff.mpr (.inl active)
    · exact kept.solo.sees _ committed

/-- Records that are live, and match, are taken, and there is no conflict. -/
theorem isTarget (kept : s.Kept m₀ trx pages tableOf)
    (stored : (s.versions tableOf).slot rid = some ⟨t, record⟩) (filter : Option Filter) :
    s.isTarget (some trx) filter record =
      if record.isLive then matchesFilter filter record.payload else .ok false := by
  have inv : Mvcc.ManagerInv s.txnManager s.journal := kept.guarded.manager
  unfold Database.isTarget
  cases deleted : record.isDel with
  | true => simp [Record.isLive, deleted, pure, Except.pure]
  | false =>
      cases dead : record.isDead with
      | true =>
          obtain ⟨positive, aborted⟩ := kept.guarded.buried rid _ stored dead
          have unseen : s.isVisibleTo (some trx) record.trxId = false :=
            isVisibleTo_of_aborted inv kept.active positive aborted
          simp [Record.isLive, deleted, dead, unseen, pure, Except.pure]
      | false =>
          have noConflict : ¬ (record.trxId ≠ INVALID_TX_ID ∧
              record.trxId ≠ (some trx).getD INVALID_TX_ID ∧
              s.txnManager.getState record.trxId = some .inProgress) := by
            rintro ⟨notInvalid, other, state⟩
            have positive : 1 ≤ record.trxId := Nat.one_le_iff_ne_zero.mpr notInvalid
            have written := kept.attributed.stored rid _ stored dead positive
            have state' : s.txnManager.txnState record.trxId = some .inProgress := state
            rcases inv.total _ positive written.issued with active | committed | aborted
            · have only := kept.solo.active
              change s.txnManager.activeTxns = [trx] at only
              rw [only, List.mem_singleton] at active
              exact other active
            · rw [(inv.committed _).mpr committed] at state'
              cases state'
            · simp [TransactionManager.isAborted, state'] at aborted
          rw [kept.isVisibleTo stored dead, if_neg (by simp), if_neg noConflict]
          simp only [Record.isLive, deleted, dead, Bool.not_false, Bool.and_self, if_true]
          cases matchesFilter filter record.payload with
          | error message => rfl
          | ok isMatch => cases isMatch <;> rfl

/-- A scan shows live records as they are stored, and no others. -/
theorem reads (kept : s.Kept m₀ trx pages tableOf)
    (stored : (s.versions tableOf).slot rid = some ⟨t, record⟩) :
    s.reads (some trx) none record = .ok (if record.isLive then some record else none) := by
  cases dead : record.isDead with
  | true =>
      have shown := congrArg Prod.fst (@run_visibleVersion_of_dead s record dead (some trx))
      rw [Database.reads_of_none shown]
      simp [Record.isLive, dead]
  | false =>
      have visible := kept.isVisibleTo stored dead
      obtain ⟨view, has, -⟩ := kept.guarded.manager.views trx kept.active
      have shown : ((ExecutorSeqScan.visibleVersion (some trx) record).run s).1 =
          .ok (if record.isDel then none else some record) := by
        unfold ExecutorSeqScan.visibleVersion
        have hasView : (s.txnManager.transaction trx).readView = some view := has
        rw [if_neg (by simp [dead]), Program.run_get_bind, if_neg (by simp [hasView]),
          Program.run_bind_of_ok (run_versionCount s)]
        unfold ExecutorSeqScan.walk
        rw [Program.run_get_bind, if_pos visible]
        rfl
      cases deleted : record.isDel with
      | true =>
          rw [deleted, if_pos rfl] at shown
          rw [Database.reads_of_none shown]
          simp [Record.isLive, deleted]
      | false =>
          rw [deleted, if_neg Bool.false_ne_true] at shown
          rw [Database.reads_of_some shown]
          simp [Record.isLive, deleted, dead, passes]

end Database.Kept

/-! ## Scans -/

/-- What a scan of the table shows the transaction. -/
def Database.seen (s : Database) (trx t : Nat) : Except String (List Record) :=
  ((ExecutorSeqScan.select (some trx) t none).run s).1

/-- The live records at some addresses. -/
def Database.liveAt (s : Database) (rids : List RID) : List Record :=
  rids.filterMap fun rid => (s.tupleAt rid).filter Record.isLive

namespace Database.Kept

theorem seen (kept : s.Kept m₀ trx pages tableOf) {item : MetaItem} (entry : s.items t = some item) :
    s.seen trx t = .ok (s.liveAt (s.addresses (pages t))) := by
  have read : ∀ rid ∈ s.addresses (pages t), ∃ record, s.tupleAt rid = some record ∧
      s.reads (some trx) none record = .ok (if record.isLive then some record else none) := by
    intro rid member
    obtain ⟨record, stored⟩ := kept.sound.mem_addresses.mp member
    exact ⟨record, Database.tupleAt_of_slot stored, kept.reads stored⟩
  have shown : s.shownAt (some trx) none (s.addresses (pages t)) =
      s.liveAt (s.addresses (pages t)) := by
    apply List.filterMap_congr
    intro rid member
    obtain ⟨record, found, shown⟩ := read rid member
    rw [found, Option.bind_some, shown]
    cases live : record.isLive <;> simp [Option.filter, live]
  have ended := wp_select_pool kept.sound (some trx) t none
  unfold Program.wp at ended
  unfold Database.seen
  split at ended
  · rename_i rows u ran
    rw [ran, ended.2.1, shown]
  · rename_i message u ran
    rcases ended with ⟨-, ⟨missing, -⟩ | ⟨rid, rest, held, -, stopped⟩⟩
    · rw [entry] at missing
      cases missing
    · obtain ⟨record, found, message, raised⟩ := stopped.fails
      obtain ⟨done, split, -⟩ := stopped.passed
      obtain ⟨record', found', shown⟩ := read rid (by simp [split])
      obtain rfl := Option.some.inj (found.symm.trans found')
      rw [shown] at raised
      cases raised

/-- The rows that the scan shows are those that the table holds. -/
theorem holds (kept : s.Kept m₀ trx pages tableOf) (t : Nat) :
    (s.versions tableOf).toRecordStore.Holds t
      ((s.liveAt (s.addresses (pages t))).map Record.payload) := by
  let isLiveAt (rid : RID) : Bool := (s.tupleAt rid).any Record.isLive
  have listed : ((s.addresses (pages t)).filter isLiveAt).map
      (s.versions tableOf).toRecordStore.payloadAt =
        (s.liveAt (s.addresses (pages t))).map Record.payload := by
    rw [Database.liveAt, List.map_filterMap, ← List.filterMap_eq_map, List.filterMap_filter]
    apply List.filterMap_congr
    intro rid member
    obtain ⟨record, stored⟩ := kept.sound.mem_addresses.mp member
    have found := Database.tupleAt_of_slot stored
    have payload := RecordStore.payloadAt_of_slot stored
    cases live : record.isLive <;> simp [isLiveAt, found, live, payload, Option.filter]
  rw [← listed]
  apply RecordStore.Holds.of_nodup ((kept.sound.nodup_addresses t).filter _)
  intro rid
  rw [List.mem_filter, kept.sound.mem_addresses]
  constructor
  · rintro ⟨⟨record, stored⟩, live⟩
    refine ⟨record, stored, ?_⟩
    simpa [isLiveAt, Database.tupleAt_of_slot stored] using live
  · rintro ⟨record, stored, live⟩
    refine ⟨⟨record, stored⟩, ?_⟩
    simpa [isLiveAt, Database.tupleAt_of_slot stored] using live

end Database.Kept

end YourSQL
