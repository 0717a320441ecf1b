import YourSQL.Executor.RowUpdates

/-! # What a statement sees of a record

The visibility test of the executors and the journal agree on every writer that has
not been rolled back. DELETE and UPDATE therefore take exactly the records without
flags whose writer is in the snapshot, and never meet a writer who is still under
way: the conflict test behind the visibility test has nothing left to find.
-/

namespace YourSQL

open Mvcc (Rep VersionStore seenBy)

variable {s : Database} {tableOf : Nat → Nat} {trx t : Nat} {rid : RID} {record : Record}

namespace Mvcc

/-- Which records DELETE and UPDATE take, by the journal. -/
def takes (journal : List Event) (trx : Nat) (filter : Option Filter) (record : Record) :
    Except String Bool :=
  if record.flags = 0 ∧ seenBy trx journal record.trxId = true then
    matchesFilter filter record.payload
  else
    .ok false

theorem ManagerBase.one_le {m : TransactionManager} {journal : List Event} {v : Nat}
    (inv : ManagerBase m journal) (known : v ∈ m.activeTxns ∨ v ∈ committedOf journal) : 1 ≤ v := by
  cases known with
  | inl active => exact (inv.issued v active).1
  | inr committed => exact (inv.issuedCommitted v committed).1

end Mvcc

namespace Database

theorem isVisibleTo_eq (inv : Mvcc.ManagerInv s.txnManager s.journal)
    (active : trx ∈ s.txnManager.activeTxns) {writer : Nat}
    (known : writer ∈ s.txnManager.activeTxns ∨ writer ∈ Mvcc.committedOf s.journal) :
    s.isVisibleTo (some trx) writer = seenBy trx s.journal writer := by
  obtain ⟨view, has, viewInv⟩ := inv.views trx active
  have positive := inv.one_le known
  unfold isVisibleTo
  rw [if_neg (by simp only [INVALID_TX_ID]; omega)]
  simp only [has]
  by_cases own : trx = writer
  · rw [if_pos own, eq_comm, Mvcc.seenBy_iff]
    exact .inl own.symm
  · rw [if_neg own]
    exact inv.isVisible_iff viewInv known

theorem isVisibleTo_of_aborted (inv : Mvcc.ManagerInv s.txnManager s.journal)
    (active : trx ∈ s.txnManager.activeTxns) {writer : Nat} (positive : 1 ≤ writer)
    (aborted : s.txnManager.isAborted writer = true) :
    s.isVisibleTo (some trx) writer = false := by
  obtain ⟨view, has, viewInv⟩ := inv.views trx active
  have other : trx ≠ writer := by
    intro same
    rw [← same, inv.not_aborted_of_active active] at aborted
    cases aborted
  unfold isVisibleTo
  rw [if_neg (by simp only [INVALID_TX_ID]; omega)]
  simp only [has]
  rw [if_neg other]
  exact inv.isVisible_of_aborted active viewInv positive aborted

/-- Nobody in the snapshot but the transaction itself is under way. -/
theorem not_conflict (inv : Mvcc.ManagerInv s.txnManager s.journal) {writer : Nat}
    (sees : seenBy trx s.journal writer = true) :
    ¬ (writer ≠ INVALID_TX_ID ∧ writer ≠ trx ∧
      s.txnManager.getState writer = some .inProgress) := by
  rintro ⟨-, other, inProgress⟩
  rw [Mvcc.seenBy_iff] at sees
  have inside := sees.resolve_left other
  have committed := (inv.committed writer).mpr (Mvcc.mem_committedOf_of_snapshotOf inside)
  rw [TransactionManager.getState, committed] at inProgress
  cases inProgress

theorem isTarget_eq (rep : Rep (s.versions tableOf)) (active : trx ∈ s.txnManager.activeTxns)
    (stored : (s.versions tableOf).slot rid = some ⟨t, record⟩) (filter : Option Filter) :
    s.isTarget (some trx) filter record = Mvcc.takes s.journal trx filter record := by
  have inv : Mvcc.ManagerInv s.txnManager s.journal := rep.manager
  unfold isTarget Mvcc.takes
  rcases rep.record_cases stored with
    ⟨row, inRows, writer, version, older, position, -, -, payload, rest⟩ | dead
  · cases writer with
    | none =>
        obtain ⟨trxId, flags, -⟩ := rest
        have inRow : record.trxId ∈ row.trxs := by
          rw [trxId, Mvcc.LogicalRow.trxs, List.mem_append]
          exact .inr (List.mem_map.mpr ⟨version, position.mem, rfl⟩)
        have known := rep.known row inRows record.trxId inRow
        have notDel : record.isDel = false := by
          rw [Record.isDel, flags]
          rfl
        rw [isVisibleTo_eq inv active known, notDel]
        cases sees : seenBy trx s.journal record.trxId with
        | false => simp [pure, Except.pure]
        | true =>
            simp only [Option.getD_some, if_neg (not_conflict inv sees), flags]
            cases matchesFilter filter record.payload with
            | error message => rfl
            | ok isMatch => cases isMatch <;> rfl
    | some writer =>
        have flags : record.flags = RECORD_DEL := rest.2.1
        have del : record.isDel = true := by
          rw [Record.isDel, flags]
          rfl
        have noneFree : ¬ (record.flags = 0 ∧ seenBy trx s.journal record.trxId = true) := by
          rw [flags]
          exact fun free => absurd free.1 (by decide)
        rw [if_neg noneFree, if_pos (by simp [del])]
        rfl
  · have noneFree : ¬ (record.flags = 0 ∧ seenBy trx s.journal record.trxId = true) := by
      rw [dead.1]
      exact fun free => absurd free.1 (by decide)
    rw [if_neg noneFree, if_pos (by simp [isVisibleTo_of_aborted inv active dead.2.1 dead.2.2])]
    rfl

end Database

namespace Mvcc

/-- A record that is taken is the newest version of a row, and its writer is seen. -/
theorem newest_of_takes {m : VersionStore} (stored : m.slot rid = some ⟨t, record⟩)
    {filter : Option Filter} (taken : takes m.journal trx filter record = .ok true) :
    m.Newest trx t rid record := by
  unfold takes at taken
  by_cases free : record.flags = 0 ∧ seenBy trx m.journal record.trxId = true
  · exact ⟨stored, free.1, free.2⟩
  · rw [if_neg free] at taken
    cases taken

end Mvcc

end YourSQL
