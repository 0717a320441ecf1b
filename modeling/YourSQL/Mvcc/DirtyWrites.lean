import YourSQL.Mvcc.Histories
import YourSQL.Mvcc.StatementSteps

/-! # No dirty writes

Any interleaving of commands without a crash, with statements that fail and versions that
find no place among them. While a transaction is under way nobody else writes over its
records or saves them, what it has deleted waits for its own rollback, and that finds the
header to put back in the write set.
-/

namespace YourSQL

namespace Rollback

open RecordStore

/-- Where only insertions are undone, the record is as it was, or dead. -/
theorem slot_rollbackWrites_insertions {writeSet : List WriteRecord} {rid : RID}
    (inserts : ∀ wr ∈ writeSet, wr.rid = rid → wr.type.inserts = true) {σ : RecordStore}
    {slot : Slot} (found : σ.slot rid = some slot) :
    (¬ touched writeSet rid → (rollbackWrites σ writeSet).slot rid = some slot) ∧
      (touched writeSet rid →
        (rollbackWrites σ writeSet).slot rid = some ⟨slot.tableId, slot.record.killed⟩) := by
  induction writeSet using List.reverseRecOn generalizing σ slot with
  | nil => exact ⟨fun _ => found, fun isTouched => by simp [touched] at isTouched⟩
  | append_singleton writeSet wr ih =>
      have earlier : ∀ wr ∈ writeSet, wr.rid = rid → wr.type.inserts = true :=
        fun wr member => inserts wr (List.mem_append_left _ member)
      rw [rollbackWrites_snoc, touched_snoc]
      by_cases here : wr.rid = rid
      · have killed : (rollbackWrite σ wr).slot rid = some ⟨slot.tableId, slot.record.killed⟩ := by
          rw [rollbackWrite_of_inserts (inserts wr (by simp) here), here]
          exact slot_markDead_self found
        obtain ⟨untouched, isTouched⟩ := ih earlier killed
        refine ⟨fun not => absurd (.inr here) not, fun _ => ?_⟩
        by_cases before : touched writeSet rid
        · rw [isTouched before, Record.killed_killed]
        · exact untouched before
      · have kept : (rollbackWrite σ wr).slot rid = some slot :=
          (slot_rollbackWrite_of_ne σ (Ne.symm here)).trans found
        obtain ⟨untouched, isTouched⟩ := ih earlier kept
        exact ⟨fun not => untouched fun before => not (.inl before),
          fun is => isTouched (is.resolve_right here)⟩

end Rollback

open Mvcc (Free Guarded ManagerInv Owns Spares Step Steps VersionStore)

namespace Mvcc

variable {m m' : VersionStore} {trx v : Nat}

/-! ## Begin, new read views, Commit and Abort -/

/-- The manager changes, and no record. Who is new has written nothing. -/
theorem Guarded.manage (guarded : Guarded m) (slot : m'.slot = m.slot) (undo : m'.undo = m.undo)
    (manager : ManagerInv m'.manager m'.journal)
    (writeSet : ∀ v ∈ m'.manager.activeTxns,
      v ∈ m.manager.activeTxns ∧ m'.writeSet v = m.writeSet v ∨ m'.writeSet v = [])
    (aborted : ∀ v, m.manager.isAborted v = true → m'.manager.isAborted v = true) :
    Guarded m' where
  manager := manager
  nowhere := slot ▸ guarded.nowhere
  buried rid record stored dead :=
    (guarded.buried rid record (slot ▸ stored) dead).imp_right (aborted _)
  owns v active := by
    rcases writeSet v active with ⟨before, same⟩ | empty
    · have owns := guarded.owns v before
      exact
        { deleted := by
            rw [same, slot, undo]
            exact owns.deleted
          inserted := by
            rw [same, slot]
            exact owns.inserted
          mine := by
            rw [same]
            exact owns.mine
          once := by
            rw [same]
            exact owns.once }
    · exact
        { deleted := by simp [empty]
          inserted := by simp [empty]
          mine := by simp [empty]
          once := by simp [empty] }

theorem Guarded.viewed (guarded : Guarded m) (active : trx ∈ m.manager.activeTxns) :
    Guarded (m.viewed trx) := by
  have inv := guarded.manager
  apply @Guarded.manage m (m.viewed trx) guarded rfl rfl
    (inv.view active fun v member _ => inv.views v member) _ fun _ aborted => aborted
  intro v member
  refine .inl ⟨member, ?_⟩
  by_cases same : v = trx
  · subst same
    simp [VersionStore.viewed, TransactionManager.setReadView, VersionStore.writeSet]
  · simp [VersionStore.viewed, TransactionManager.setReadView, VersionStore.writeSet, same]

theorem Guarded.begun (guarded : Guarded m) : Guarded m.begun := by
  obtain ⟨base, views⟩ := guarded.manager.beginAllocate
  apply @Guarded.manage m m.begun guarded rfl rfl (base.view (List.mem_cons_self ..) views) _
    fun _ aborted => guarded.manager.isAborted_beginAllocate aborted
  intro v member
  by_cases same : v = m.manager.nextTxid
  · subst same
    refine .inr ?_
    simp [VersionStore.begun, VersionStore.viewed, TransactionManager.setReadView,
      TransactionManager.beginAllocate, VersionStore.writeSet]
  · refine .inl ⟨(List.mem_cons.mp member).resolve_left same, ?_⟩
    simp [VersionStore.begun, VersionStore.viewed, TransactionManager.setReadView,
      TransactionManager.beginAllocate, VersionStore.writeSet, same]

theorem Guarded.committed (guarded : Guarded m) (active : trx ∈ m.manager.activeTxns) :
    Guarded (m.committed trx) := by
  apply @Guarded.manage m (m.committed trx) guarded rfl rfl
    (guarded.manager.finish active (.inl ⟨rfl, rfl⟩)) _
    fun _ aborted => guarded.manager.isAborted_finish active .committed aborted
  intro v member
  obtain ⟨before, other⟩ := TransactionManager.mem_finish_activeTxns.mp member
  refine .inl ⟨before, ?_⟩
  exact congrArg Transaction.writeSet (TransactionManager.finish_transaction_of_ne _ other _)

/-- A transaction under way touches no records but its own. -/
theorem Guarded.untouched (guarded : Guarded m) (active : trx ∈ m.manager.activeTxns) {rid : RID}
    {slot : Slot} (stored : m.slot rid = some slot) (other : slot.record.trxId ≠ trx) :
    ¬ Rollback.touched (m.writeSet trx) rid := by
  rintro ⟨wr, member, rfl⟩
  have owns := guarded.owns trx active
  cases kind : wr.type.inserts with
  | true =>
      rcases owns.inserted wr member kind with nowhere | ⟨record, stored', own⟩
      · rw [nowhere, guarded.nowhere] at stored
        cases stored
      · rw [stored'] at stored
        cases stored
        exact other own
  | false =>
      obtain ⟨old, pointer, -, -, stored', -⟩ := owns.deleted wr member kind
      rw [stored'] at stored
      cases stored
      exact other rfl

theorem Guarded.tables (guarded : Guarded m) (active : trx ∈ m.manager.activeTxns) :
    ∀ wr ∈ m.writeSet trx, ∀ slot, m.slot wr.rid = some slot → wr.tableId = slot.tableId := by
  intro wr member slot stored
  have owns := guarded.owns trx active
  cases kind : wr.type.inserts with
  | true =>
      rcases owns.inserted wr member kind with nowhere | ⟨record, stored', -⟩
      · rw [nowhere, guarded.nowhere] at stored
        cases stored
      · rw [stored'] at stored
        cases stored
        rfl
  | false =>
      obtain ⟨old, pointer, -, -, stored', -⟩ := owns.deleted wr member kind
      rw [stored'] at stored
      cases stored
      rfl

/-- The records of others stay where the transaction's writes are undone. -/
theorem Guarded.slot_rollback (guarded : Guarded m) (active : trx ∈ m.manager.activeTxns)
    {rid : RID} {slot : Slot} (stored : m.slot rid = some slot)
    (other : slot.record.trxId ≠ trx) : (m.aborted trx).slot rid = some slot :=
  (Rollback.slot_rollbackWrites_of_untouched (guarded.untouched active stored other) _).trans stored

/-- What is undone at an address that the transaction has deleted from. -/
theorem Guarded.restored (guarded : Guarded m) (active : trx ∈ m.manager.activeTxns)
    {wr : WriteRecord} (member : wr ∈ m.writeSet trx) (deletes : wr.type.inserts = false) :
    ∃ old pointer, old.toRecordHeader = wr.prevHeader ∧ m.undo pointer = some old ∧
      m.slot wr.rid = some ⟨wr.tableId, old.deleted trx pointer⟩ ∧
      (¬ Rollback.inserted (m.writeSet trx) wr.rid →
        (m.aborted trx).slot wr.rid = some ⟨wr.tableId, old⟩) ∧
      (Rollback.inserted (m.writeSet trx) wr.rid →
        (m.aborted trx).slot wr.rid = some ⟨wr.tableId, old.killed⟩) := by
  have owns := guarded.owns trx active
  obtain ⟨old, pointer, header, -, stored, saved⟩ := owns.deleted wr member deletes
  have somewhere : wr.rid ≠ ⟨0, 0⟩ := by
    intro nowhere
    rw [nowhere, guarded.nowhere] at stored
    cases stored
  obtain ⟨earlier, later, split⟩ := List.append_of_mem member
  have once := owns.once
  rw [split, List.pairwise_append, List.pairwise_cons] at once
  obtain ⟨-, ⟨behind, -⟩, before⟩ := once
  -- behind the deletion nothing happened at its address, and before it only insertions
  have last : ¬ Rollback.touched later wr.rid := by
    rintro ⟨other, after, same⟩
    have inserts := (behind other after same.symm somewhere).1
    rw [deletes] at inserts
    cases inserts
  have inserts : ∀ other ∈ earlier, other.rid = wr.rid → other.type.inserts = true :=
    fun other first same => (before other first wr (by simp) same (same ▸ somewhere)).1
  have kind : Rollback.inserted (m.writeSet trx) wr.rid ↔ Rollback.touched earlier wr.rid := by
    rw [split]
    refine ⟨?_, ?_⟩
    · rintro ⟨other, among, same, inserted⟩
      rcases List.mem_append.mp among with first | rest
      · exact ⟨other, first, same⟩
      · rcases List.mem_cons.mp rest with rfl | after
        · rw [deletes] at inserted
          cases inserted
        · exact absurd ⟨other, after, same⟩ last
    · rintro ⟨other, first, same⟩
      exact ⟨other, List.mem_append_left _ first, same, inserts other first same⟩
  let σ := Rollback.rollbackWrites m.toRecordStore later
  have undone : (Rollback.rollbackWrite σ wr).slot wr.rid = some ⟨wr.tableId, old⟩ := by
    have deleted : σ.slot wr.rid = some ⟨wr.tableId, old.deleted trx pointer⟩ :=
      (Rollback.slot_rollbackWrites_of_untouched last _).trans stored
    rw [Rollback.rollbackWrite_of_deletes deletes, ← header]
    exact RecordStore.slot_restoreRecord_self deleted _
  obtain ⟨alone, inserted⟩ := Rollback.slot_rollbackWrites_insertions inserts undone
  have whole : (m.aborted trx).toRecordStore =
      Rollback.rollbackWrites (Rollback.rollbackWrite σ wr) earlier := by
    change Rollback.rollbackWrites m.toRecordStore (m.writeSet trx) = _
    rw [split, List.append_cons, Rollback.rollbackWrites_append, Rollback.rollbackWrites_snoc]
  rw [whole, kind]
  exact ⟨old, pointer, header, saved, stored, alone, inserted⟩

/-- Where a record comes from that an abort leaves. -/
theorem Guarded.slot_aborted (guarded : Guarded m) (active : trx ∈ m.manager.activeTxns)
    {rid : RID} {slot : Slot} (left : (m.aborted trx).slot rid = some slot) :
    m.slot rid = some slot ∨
      (∃ old pointer, m.undo pointer = some old ∧
        m.slot rid = some ⟨slot.tableId, old.deleted trx pointer⟩ ∧
        (slot.record = old ∨ slot.record = old.killed ∧ old.trxId = trx)) ∨
      ∃ record, m.slot rid = some ⟨slot.tableId, record⟩ ∧ record.trxId = trx ∧
        slot.record = record.killed := by
  have owns := guarded.owns trx active
  change (Rollback.rollbackWrites m.toRecordStore (m.writeSet trx)).slot rid = some slot at left
  by_cases isTouched : Rollback.touched (m.writeSet trx) rid
  · by_cases deletes : ∃ wr ∈ m.writeSet trx, wr.rid = rid ∧ wr.type.inserts = false
    · obtain ⟨wr, member, rfl, deletes⟩ := deletes
      obtain ⟨old, pointer, header, saved, stored, alone, inserted⟩ :=
        guarded.restored active member deletes
      refine .inr (.inl ⟨old, pointer, saved, ?_⟩)
      by_cases isInserted : Rollback.inserted (m.writeSet trx) wr.rid
      · have own : old.trxId = trx :=
          (congrArg RecordHeader.trxId header).trans (owns.mine wr member deletes isInserted)
        obtain rfl := Option.some.inj ((inserted isInserted).symm.trans left)
        exact ⟨stored, .inr ⟨rfl, own⟩⟩
      · obtain rfl := Option.some.inj ((alone isInserted).symm.trans left)
        exact ⟨stored, .inl rfl⟩
    · have inserts : ∀ wr ∈ m.writeSet trx, wr.rid = rid → wr.type.inserts = true := by
        intro wr member here
        cases kind : wr.type.inserts with
        | true => rfl
        | false => exact absurd ⟨wr, member, here, kind⟩ deletes
      cases before : m.slot rid with
      | none =>
          rw [Rollback.slot_rollbackWrites_none before] at left
          cases left
      | some slot' =>
          have killed := (Rollback.slot_rollbackWrites_insertions inserts before).2 isTouched
          obtain rfl := Option.some.inj (killed.symm.trans left)
          obtain ⟨wr, member, rfl⟩ := isTouched
          rcases owns.inserted wr member (inserts wr member rfl) with zero | ⟨record, stored, own⟩
          · rw [zero, guarded.nowhere] at before
            cases before
          · rw [before] at stored
            cases stored
            exact .inr (.inr ⟨record, rfl, own, rfl⟩)
  · rw [Rollback.slot_rollbackWrites_of_untouched isTouched] at left
    exact .inl left

theorem Guarded.aborted (guarded : Guarded m) (active : trx ∈ m.manager.activeTxns)
    (nowhere : (m.aborted trx).slot ⟨0, 0⟩ = none) : Guarded (m.aborted trx) where
  manager := guarded.manager.finish active (.inr ⟨rfl, rfl⟩)
  nowhere := nowhere
  buried rid slot left dead := by
    have inv := guarded.manager
    have own : 1 ≤ trx ∧ (m.aborted trx).manager.isAborted trx = true :=
      ⟨(inv.issued trx active).1, by simp [VersionStore.aborted, TransactionManager.isAborted]⟩
    rcases guarded.slot_aborted active left with
      stored | ⟨old, pointer, -, stored, same | ⟨same, mine⟩⟩ | ⟨record, -, mine, same⟩
    · exact (guarded.buried rid slot stored dead).imp_right (inv.isAborted_finish active .aborted)
    · -- the transaction would have deleted a dead record
      have deleted := guarded.buried rid _ stored ((Record.isDead_deleted ..).trans (same ▸ dead))
      have aborted : m.manager.isAborted trx = true := deleted.2
      rw [inv.not_aborted_of_active active] at aborted
      cases aborted
    · rw [same]
      change 1 ≤ old.trxId ∧ (m.aborted trx).manager.isAborted old.trxId = true
      rw [mine]
      exact own
    · rw [same]
      change 1 ≤ record.trxId ∧ (m.aborted trx).manager.isAborted record.trxId = true
      rw [mine]
      exact own
  owns v member := by
    obtain ⟨before, other⟩ := TransactionManager.mem_finish_activeTxns.mp member
    have owns := guarded.owns v before
    have writeSet : (m.aborted trx).writeSet v = m.writeSet v :=
      congrArg Transaction.writeSet (TransactionManager.finish_transaction_of_ne _ other _)
    exact
      { deleted := by
          intro wr member deletes
          rw [writeSet] at member
          obtain ⟨old, pointer, header, alive, stored, saved⟩ := owns.deleted wr member deletes
          exact ⟨old, pointer, header, alive,
            guarded.slot_rollback active stored other, saved⟩
        inserted := by
          intro wr member inserts
          rw [writeSet] at member
          refine (owns.inserted wr member inserts).imp_right ?_
          rintro ⟨record, stored, own⟩
          exact ⟨record, guarded.slot_rollback active stored (own ▸ other), own⟩
        mine := by
          rw [writeSet]
          exact owns.mine
        once := by
          rw [writeSet]
          exact owns.once }

end Mvcc

/-! ## Commands -/

namespace Command

/-- Whose command it is. `Begin` gives out an id of its own. -/
def client : Command → Option Nat
  | begin => none
  | refreshReadView trx => some trx
  | commit trx => some trx
  | abort trx => some trx
  | insert txn _ _ => txn
  | delete txn _ _ => txn
  | update txn _ _ _ _ => txn
  | select txn _ _ => txn

/-- The records that a command may write to, or save: an abort those of its transaction,
    a statement those that are free. -/
def mayWrite (m : VersionStore) (command : Command) (record : Record) : Prop :=
  command = .abort record.trxId ∨ ∃ trx, command.client = some trx ∧ Free m trx record

end Command

/-- The pages are laid out, and nobody has written over another's records. -/
structure Database.Secure (s : Database) (pages : Nat → List Nat) (tableOf : Nat → Nat) : Prop where
  sound : s.Sound pages tableOf
  guarded : Guarded (s.versions tableOf)

/-- What a command leads to. -/
structure Command.Keeps (command : Command) (m : VersionStore) (u : Database)
    (pages : Nat → List Nat) (tableOf : Nat → Nat) : Prop extends u.Secure pages tableOf where
  keeps : Mvcc.Keeps (command.mayWrite m) m (u.versions tableOf)
  active : ∀ trx ∈ m.manager.activeTxns, command.client ≠ some trx →
    trx ∈ u.txnManager.activeTxns

variable {s u : Database} {pages : Nat → List Nat} {tableOf : Nat → Nat} {command : Command}

theorem Mvcc.Keeps.refl (touched : Record → Prop) (m : VersionStore) : Mvcc.Keeps touched m m :=
  .of_undo rfl fun _ _ found _ => found

/-- A statement. -/
theorem Database.Ends.keeps {m : VersionStore} {trx : Nat} (ends : u.Ends m trx)
    (guarded : Guarded m) (active : trx ∈ m.manager.activeTxns)
    (client : command.client = some trx) : ∃ pages tableOf, command.Keeps m u pages tableOf := by
  obtain ⟨pages, tableOf, sound, steps⟩ := ends
  have spares := steps.spares
  refine ⟨pages, tableOf, ?_⟩
  exact
    { sound := sound
      guarded := steps.guarded guarded active
      keeps :=
        { slot := fun rid slot found spared => spares.slot rid slot found fun free =>
            spared (.inr ⟨trx, client, free⟩)
          undo := spares.undo
          saved := fun pointer record unused found =>
            .inr ⟨trx, client, spares.saved pointer record unused found⟩ }
      active := fun v member _ => by
        change v ∈ (u.versions tableOf).manager.activeTxns
        rw [spares.activeTxns]
        exact member }

namespace Database.Secure

variable {trx : Nat}

theorem begin (secure : s.Secure pages tableOf) :
    Command.begin.Keeps (s.versions tableOf) (Command.begin.perform s) pages tableOf := by
  obtain ⟨sound, versions⟩ := begin_versions secure.sound
  exact
    { sound := sound
      guarded := versions ▸ secure.guarded.begun
      keeps := versions ▸ .of_undo rfl fun _ _ found _ => found
      active := fun v member _ => List.mem_cons_of_mem _ member }

theorem refreshReadView (secure : s.Secure pages tableOf)
    (active : trx ∈ s.txnManager.activeTxns) :
    (Command.refreshReadView trx).Keeps (s.versions tableOf)
      ((Command.refreshReadView trx).perform s) pages tableOf := by
  obtain ⟨sound, versions⟩ := refreshReadView_versions secure.sound trx
  exact
    { sound := sound
      guarded := versions ▸ secure.guarded.viewed active
      keeps := versions ▸ .of_undo rfl fun _ _ found _ => found
      active := fun v member _ => member }

theorem commit (secure : s.Secure pages tableOf) (trx : Nat) :
    (Command.commit trx).Keeps (s.versions tableOf) ((Command.commit trx).perform s) pages
      tableOf := by
  obtain ⟨sound, versions, -⟩ := commit_versions secure.sound trx
  by_cases active : trx ∈ s.txnManager.activeTxns
  · rw [if_pos active] at versions
    refine
      { sound := sound
        guarded := versions ▸ secure.guarded.committed active
        keeps := versions ▸ .of_undo rfl fun _ _ found _ => found
        active := ?_ }
    intro v member other
    change v ∈ ((Command.perform _ s).versions tableOf).manager.activeTxns
    rw [versions]
    exact TransactionManager.mem_finish_activeTxns.mpr ⟨member, fun same => other (same ▸ rfl)⟩
  · rw [if_neg active] at versions
    refine
      { sound := sound
        guarded := versions ▸ secure.guarded
        keeps := versions ▸ .refl _ _
        active := ?_ }
    intro v member _
    change v ∈ ((Command.perform _ s).versions tableOf).manager.activeTxns
    rw [versions]
    exact member

theorem abort_tables (secure : s.Secure pages tableOf) (active : trx ∈ s.txnManager.activeTxns) :
    ((Command.abort trx).perform s).Sound pages tableOf ∧
      ((Command.abort trx).perform s).versions tableOf =
        (s.versions tableOf).aborted trx := by
  obtain ⟨sound, versions, -⟩ := abort_versions secure.sound (secure.guarded.tables active)
  rw [if_pos active] at versions
  exact ⟨sound, versions⟩

theorem abort (secure : s.Secure pages tableOf) (trx : Nat) :
    (Command.abort trx).Keeps (s.versions tableOf) ((Command.abort trx).perform s) pages
      tableOf := by
  by_cases active : trx ∈ s.txnManager.activeTxns
  · obtain ⟨sound, versions⟩ := secure.abort_tables active
    have nowhere := Database.slot_zero ((Command.abort trx).perform s) tableOf
    rw [versions] at nowhere
    refine
      { sound := sound
        guarded := versions ▸ secure.guarded.aborted active nowhere
        keeps := versions ▸ .of_undo rfl ?_
        active := ?_ }
    · intro rid slot found spared
      exact secure.guarded.slot_rollback active found fun own => spared (.inl (own ▸ rfl))
    · intro v member other
      change v ∈ ((Command.perform _ s).versions tableOf).manager.activeTxns
      rw [versions]
      exact TransactionManager.mem_finish_activeTxns.mpr ⟨member, fun same => other (same ▸ rfl)⟩
  · have same : (Command.abort trx).perform s = s := by
      unfold Command.perform abortTransaction
      dsimp only
      rw [Program.run_get_bind, TransactionManager.abortLookup, if_neg active]
      rfl
    rw [same]
    exact
      { toSecure := secure
        keeps := .refl _ _
        active := fun v member _ => member }

/-- Every command leaves alone what it may not write to. -/
theorem perform (secure : s.Secure pages tableOf) (proper : command.Proper s) :
    ∃ pages' tableOf', command.Keeps (s.versions tableOf) (command.perform s) pages' tableOf' := by
  cases command with
  | begin => exact ⟨_, _, secure.begin⟩
  | refreshReadView trx =>
      obtain ⟨_, active, same⟩ := proper
      cases same
      exact ⟨_, _, secure.refreshReadView active⟩
  | commit trx => exact ⟨_, _, secure.commit trx⟩
  | abort trx => exact ⟨_, _, secure.abort trx⟩
  | insert txn t row =>
      obtain ⟨trx, active, rfl⟩ := proper
      exact (insert_steps secure.sound trx t row).keeps secure.guarded active rfl
  | delete txn t filter =>
      obtain ⟨trx, active, rfl⟩ := proper
      exact (delete_steps secure.sound secure.guarded active t filter).keeps secure.guarded active
        rfl
  | update txn t schema clauses filter =>
      obtain ⟨trx, active, rfl⟩ := proper
      exact (update_steps secure.sound secure.guarded active t schema clauses filter).keeps
        secure.guarded active rfl
  | select txn t filter =>
      obtain ⟨trx, active, rfl⟩ := proper
      have scans := select_pool secure.sound (some trx) t filter
      have versions := scans.pool.versions tableOf
      refine ⟨pages, tableOf, ?_⟩
      exact
        { sound := scans.sound
          guarded := versions ▸ secure.guarded
          keeps := versions ▸ .refl _ _
          active := fun v member _ => by
            change v ∈ ((Command.perform _ s).versions tableOf).manager.activeTxns
            rw [Command.perform, versions]
            exact member }

end Database.Secure

/-- What a command does to the version store. -/
inductive Mvcc.Moves (m : VersionStore) : Command → VersionStore → Prop
  | begin : Moves m .begin m.begun
  | refreshReadView {trx : Nat} : trx ∈ m.manager.activeTxns →
      Moves m (.refreshReadView trx) (m.viewed trx)
  | commit {trx : Nat} : trx ∈ m.manager.activeTxns → Moves m (.commit trx) (m.committed trx)
  | abort {trx : Nat} : trx ∈ m.manager.activeTxns → Moves m (.abort trx) (m.aborted trx)
  | statement {command : Command} {trx : Nat} {m' : VersionStore} :
      command.client = some trx → trx ∈ m.manager.activeTxns → Steps trx m m' → Moves m command m'
  | nothing {command : Command} : Moves m command m

/-- A statement ends on sound pages. -/
theorem Database.Ends.moves {trx : Nat} (ends : u.Ends (s.versions tableOf) trx)
    (secure : s.Secure pages tableOf) (active : trx ∈ s.txnManager.activeTxns)
    (command : Command) (client : command.client = some trx) :
    ∃ pages' tableOf', u.Secure pages' tableOf' ∧
      Mvcc.Moves (s.versions tableOf) command (u.versions tableOf') := by
  obtain ⟨pages', tableOf', sound, steps⟩ := ends
  exact ⟨pages', tableOf', ⟨sound, steps.guarded secure.guarded active⟩,
    .statement client active steps⟩

theorem Database.Secure.moves (secure : s.Secure pages tableOf) (proper : command.Proper s) :
    ∃ pages' tableOf', (command.perform s).Secure pages' tableOf' ∧
      Mvcc.Moves (s.versions tableOf) command ((command.perform s).versions tableOf') := by
  cases command with
  | begin =>
      refine ⟨pages, tableOf, secure.begin.toSecure, ?_⟩
      rw [(begin_versions secure.sound).2]
      exact .begin
  | refreshReadView trx =>
      obtain ⟨_, active, same⟩ := proper
      cases same
      refine ⟨pages, tableOf, (secure.refreshReadView active).toSecure, ?_⟩
      rw [(refreshReadView_versions secure.sound trx).2]
      exact .refreshReadView active
  | commit trx =>
      refine ⟨pages, tableOf, (secure.commit trx).toSecure, ?_⟩
      rw [(commit_versions secure.sound trx).2.1]
      split
      · rename_i active
        exact .commit active
      · exact .nothing
  | abort trx =>
      refine ⟨pages, tableOf, (secure.abort trx).toSecure, ?_⟩
      by_cases active : trx ∈ s.txnManager.activeTxns
      · rw [(secure.abort_tables active).2]
        exact .abort active
      · unfold Command.perform abortTransaction
        dsimp only
        rw [Program.run_get_bind, TransactionManager.abortLookup, if_neg active]
        exact .nothing
  | insert txn t row =>
      obtain ⟨trx, active, rfl⟩ := proper
      exact (insert_steps secure.sound trx t row).moves secure active (.insert (some trx) t row) rfl
  | delete txn t filter =>
      obtain ⟨trx, active, rfl⟩ := proper
      exact (delete_steps secure.sound secure.guarded active t filter).moves secure active
        (.delete (some trx) t filter) rfl
  | update txn t schema clauses filter =>
      obtain ⟨trx, active, rfl⟩ := proper
      exact (update_steps secure.sound secure.guarded active t schema clauses filter).moves secure
        active (.update (some trx) t schema clauses filter) rfl
  | select txn t filter =>
      have scans := select_pool secure.sound txn t filter
      have versions := scans.pool.versions tableOf
      refine ⟨pages, tableOf, ⟨scans.sound, versions ▸ secure.guarded⟩, ?_⟩
      exact versions ▸ .nothing

/-- What no change of the version store breaks. -/
structure Mvcc.Invariant (inv : VersionStore → Prop) : Prop where
  step : ∀ {trx m m'}, Step trx m m' → Guarded m → inv m → inv m'
  /-- Begin, new read views and Commit. -/
  manage : ∀ {m m' : VersionStore}, inv m → m'.toRecordStore = m.toRecordStore →
    m'.undo = m.undo → inv m'
  aborted : ∀ {trx m}, Guarded m → trx ∈ m.manager.activeTxns → inv m → inv (m.aborted trx)

namespace Mvcc.Invariant

variable {inv : VersionStore → Prop} {m m' : VersionStore} {trx : Nat}

theorem steps (invariant : Mvcc.Invariant inv) (steps : Steps trx m m') (guarded : Guarded m)
    (active : trx ∈ m.manager.activeTxns) (holds : inv m) : inv m' := by
  induction steps with
  | refl => exact holds
  | tail earlier step ih => exact invariant.step step (Steps.guarded earlier guarded active) ih

/-- No SELECT breaks it, whoever runs it. -/
theorem select (invariant : Mvcc.Invariant inv) (secure : s.Secure pages tableOf)
    (holds : inv (s.versions tableOf)) (txn : Option Nat) (t : Nat) (filter : Option Filter) :
    ((Command.select txn t filter).perform s).Secure pages tableOf ∧
      inv (((Command.select txn t filter).perform s).versions tableOf) := by
  have scans := select_pool secure.sound txn t filter
  have versions := scans.pool.versions tableOf
  exact ⟨⟨scans.sound, versions ▸ secure.guarded⟩,
    invariant.manage holds (congrArg VersionStore.toRecordStore versions)
      (congrArg VersionStore.undo versions)⟩

/-- Nor does any other command. -/
theorem perform (invariant : Mvcc.Invariant inv) (secure : s.Secure pages tableOf)
    (proper : command.Proper s) (holds : inv (s.versions tableOf)) :
    ∃ pages tableOf, (command.perform s).Secure pages tableOf ∧
      inv ((command.perform s).versions tableOf) := by
  obtain ⟨pages', tableOf', secure', moves⟩ := secure.moves proper
  refine ⟨pages', tableOf', secure', ?_⟩
  generalize (command.perform s).versions tableOf' = m' at moves
  cases moves with
  | begin => exact invariant.manage holds rfl rfl
  | refreshReadView active => exact invariant.manage holds rfl rfl
  | commit active => exact invariant.manage holds rfl rfl
  | abort active => exact invariant.aborted secure.guarded active holds
  | statement client active steps => exact invariant.steps steps secure.guarded active holds
  | nothing => exact holds

end Mvcc.Invariant

/-! ## Interleavings -/

/-- From one state to another by commands of a kind, those of different clients in any
    order. A statement may fail, and a version may find no place. -/
inductive Interleaving (kind : Command → Prop) (s : Database) : Database → Prop
  | refl : Interleaving kind s s
  | perform {v : Database} (command : Command) : Interleaving kind s v → kind command →
      command.Proper v → Interleaving kind s (command.perform v)

/-- The states that clients can lead an empty database to. -/
def Database.Reachable (s : Database) : Prop :=
  ∃ start : Database, start.Fresh ∧ Interleaving (fun _ => True) start s

theorem Database.Fresh.secure (fresh : s.Fresh) : s.Secure (fun _ => []) (fun _ => 0) where
  sound := fresh.sound
  guarded :=
    { manager := by
        change ManagerInv s.txnManager s.journal
        rw [fresh.txnManager, fresh.journal]
        exact Mvcc.managerInv_nil
      nowhere := s.slot_zero _
      owns := by
        change ∀ trx ∈ s.txnManager.activeTxns, _
        simp [fresh.txnManager]
      buried := by simp [fresh.slot_eq_none] }

theorem Interleaving.secure {kind : Command → Prop} (run : Interleaving kind s u)
    (secure : s.Secure pages tableOf) : ∃ pages tableOf, u.Secure pages tableOf := by
  induction run with
  | refl => exact ⟨pages, tableOf, secure⟩
  | perform command _ _ proper ih =>
      obtain ⟨pages', tableOf', secure'⟩ := ih
      obtain ⟨pages'', tableOf'', kept⟩ := secure'.perform proper
      exact ⟨pages'', tableOf'', kept.toSecure⟩

namespace Database.Secure

variable {trx : Nat}

/-- A command that is none of the transaction's goes around its records. -/
theorem others (secure : s.Secure pages tableOf) (proper : command.Proper s)
    (active : trx ∈ s.txnManager.activeTxns) (other : command.client ≠ some trx) :
    trx ∈ (command.perform s).txnManager.activeTxns ∧
      (∀ rid record, s.tupleAt rid = some record → record.trxId = trx →
        (command.perform s).tupleAt rid = some record) ∧
      ∀ pointer record, s.undoRecord pointer = none →
        (command.perform s).undoRecord pointer = some record → record.trxId ≠ trx := by
  obtain ⟨pages', tableOf', kept⟩ := secure.perform proper
  have spared : ∀ record : Record, record.trxId = trx →
      ¬ command.mayWrite (s.versions tableOf) record := by
    rintro record own (abort | ⟨v, client, free⟩)
    · exact other (abort ▸ own ▸ rfl)
    · exact other (client.trans (congrArg some ((free.own (own ▸ active)).symm.trans own)))
  refine ⟨kept.active trx active other, ?_, ?_⟩
  · intro rid record found own
    exact Database.tupleAt_of_slot
      (kept.keeps.slot rid _ (Database.slot_of_tupleAt found tableOf) (spared record own))
  · intro pointer record unused found own
    exact spared record own (kept.keeps.saved pointer record unused found)

/-- What the transaction has deleted waits for its rollback. -/
theorem deleted (secure : s.Secure pages tableOf) (proper : command.Proper s)
    (other : command ≠ .abort trx) {rid : RID} {record : Record}
    (found : s.tupleAt rid = some record) (own : record.trxId = trx) (isDel : record.isDel = true) :
    (command.perform s).tupleAt rid = some record := by
  obtain ⟨pages', tableOf', kept⟩ := secure.perform proper
  apply Database.tupleAt_of_slot
    (kept.keeps.slot rid _ (Database.slot_of_tupleAt found tableOf) ?_)
  rintro (abort | ⟨v, -, free⟩)
  · exact other (own ▸ abort)
  · have alive := free.alive
    rw [isDel] at alive
    cases alive

/-- The header in the write set is the one that the deletion went over, and the abort
    puts it back. -/
theorem restored (secure : s.Secure pages tableOf) (active : trx ∈ s.txnManager.activeTxns)
    {wr : WriteRecord} (member : wr ∈ (s.txnManager.transaction trx).writeSet)
    (deletes : wr.type.inserts = false) :
    ∃ old pointer, old.toRecordHeader = wr.prevHeader ∧ s.undoRecord pointer = some old ∧
      s.tupleAt wr.rid = some (old.deleted trx pointer) ∧
      (¬ Rollback.inserted (s.txnManager.transaction trx).writeSet wr.rid →
        ((Command.abort trx).perform s).tupleAt wr.rid = some old) ∧
      (Rollback.inserted (s.txnManager.transaction trx).writeSet wr.rid →
        ((Command.abort trx).perform s).tupleAt wr.rid = some old.killed) := by
  obtain ⟨-, versions⟩ := secure.abort_tables active
  obtain ⟨old, pointer, header, saved, stored, alone, inserted⟩ :=
    @Guarded.restored _ _ secure.guarded active wr member deletes
  have after : ∀ {record : Record},
      ((s.versions tableOf).aborted trx).slot wr.rid = some ⟨wr.tableId, record⟩ →
      ((Command.abort trx).perform s).tupleAt wr.rid = some record := by
    intro record left
    have slot := congrArg (fun m => m.slot wr.rid) versions
    exact Database.tupleAt_of_slot (slot.trans left)
  exact ⟨old, pointer, header, saved, Database.tupleAt_of_slot stored, fun not => after (alone not),
    fun is => after (inserted is)⟩

end Database.Secure

/-- Transaction 1 has inserted a row, and transaction 2 is deleting it. -/
def halfDeleted : Database :=
  oneTable.performAll [.begin, .insert (some 1) 1 (.ok [7]), .commit 1, .begin,
    .delete (some 2) 1 none]

theorem halfDeleted_reachable : halfDeleted.Reachable := by
  refine ⟨oneTable, oneTable_fresh, ?_⟩
  unfold halfDeleted Database.performAll
  simp only [List.foldl_cons, List.foldl_nil]
  have start : Interleaving (fun _ => True) oneTable oneTable := .refl
  have begun := start.perform .begin trivial trivial
  have inserted := begun.perform (.insert (some 1) 1 (.ok [7])) trivial ⟨1, by decide, rfl⟩
  have second := (inserted.perform (.commit 1) trivial trivial).perform .begin trivial trivial
  exact second.perform (.delete (some 2) 1 none) trivial ⟨2, by decide, rfl⟩

end YourSQL
