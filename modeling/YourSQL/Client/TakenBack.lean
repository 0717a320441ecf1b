import YourSQL.Client.SessionRefinement

/-! # Transactions that are taken back

A transaction of the session may do whatever it can: statements of any kind, with rows of
any size, some of which fail. As long as it is not committed there is a way back, and both
ROLLBACK and a statement that fails take it.
-/

namespace YourSQL

open Mvcc (VersionStore)

variable {s : Database} {pages : Nat → List Nat} {tableOf : Nat → Nat} {trx : Nat}
  {m₀ : VersionStore} {committed : Contents}

namespace YourSQLTerminal

/-- Whatever becomes of a statement, its transaction still runs alone. -/
theorem kept_print (kept : s.Kept m₀ trx pages tableOf) (statement : Statement) :
    ∃ pages tableOf, ((statement.print trx).run s).2.Kept m₀ trx pages tableOf := by
  have ends : ((statement.print trx).run s).2.Ends (s.versions tableOf) trx := by
    cases statement with
    | select t schema columnIds filter =>
        have scans := select_pool kept.sound (some trx) t (some (Execute.consume schema columnIds filter))
        rw [show (((Statement.select t schema columnIds filter).print trx).run s).2 = _ from
          Program.state_bind fun _ _ => rfl]
        exact ⟨pages, tableOf, scans.sound, scans.pool.versions tableOf ▸ .refl⟩
    | insert t row =>
        rw [show (((Statement.insert t row).print trx).run s).2 = _ from
          Program.state_bind fun _ _ => rfl]
        exact insert_steps kept.sound trx t row
    | delete t filter =>
        rw [show (((Statement.delete t filter).print trx).run s).2 = _ from
          Program.state_bind fun _ _ => rfl]
        exact delete_steps kept.sound kept.guarded kept.active t filter
    | update t schema clauses filter =>
        rw [show (((Statement.update t schema clauses filter).print trx).run s).2 = _ from
          Program.state_bind fun _ _ => rfl]
        exact update_steps kept.sound kept.guarded kept.active t schema clauses filter
  obtain ⟨pages', tableOf', reaches⟩ := ends
  exact ⟨pages', tableOf', kept.reach reaches⟩

/-- The session holds a transaction that runs alone, over these committed rows. -/
def Holds (committed : Contents) (terminal : YourSQLTerminal) : Prop :=
  ∃ txn m₀ pages tableOf, terminal.session.currentTxn = some txn ∧
    terminal.database.Kept m₀ txn.txId pages tableOf ∧ m₀.toRecordStore.HoldsAll committed

/-- Nobody is under way any more, and the rows are the committed ones. -/
def Restored (committed : Contents) (terminal : YourSQLTerminal) : Prop :=
  terminal.session.currentTxn = none ∧ terminal.database.txnManager.activeTxns = [] ∧
    terminal.database.rows = committed

/-- A transaction goes on, or there is nothing left of it. -/
theorem Holds.step {terminal : YourSQLTerminal} (holds : Holds committed terminal) {input : Input}
    (notCommit : input ≠ .transaction .commit) :
    Holds committed (terminal.step input).2 ∨ Restored committed (terminal.step input).2 := by
  obtain ⟨s, session⟩ := terminal
  obtain ⟨txn, m₀, pages, tableOf, holder, kept, start⟩ := holds
  dsimp only at holder kept
  cases input with
  | transaction command =>
      cases command with
      | begin =>
          left
          unfold YourSQLTerminal.step handleTransactionStatement
          dsimp only
          rw [holder]
          exact ⟨txn, m₀, pages, tableOf, holder, kept, start⟩
      | commit => exact absurd rfl notCommit
      | rollback =>
          right
          obtain ⟨s', aborted, rest⟩ := kept.abort start
          unfold YourSQLTerminal.step handleTransactionStatement endTransaction
          dsimp only
          rw [holder]
          dsimp only
          rw [aborted]
          exact ⟨rfl, rest.nobody, rest.rows_eq⟩
  | sql statement =>
      obtain ⟨s₁, refreshed, kept₁⟩ : ∃ s₁, (if txn.isolationLevel = .readCommitted then
          ((refreshReadView txn.txId).run s).2 else s) = s₁ ∧
          s₁.Kept m₀ txn.txId pages tableOf := by
        split
        · exact ⟨_, rfl, kept.refresh⟩
        · exact ⟨_, rfl, kept⟩
      obtain ⟨pages', tableOf', kept'⟩ := kept_print kept₁ statement
      unfold YourSQLTerminal.step executeSQL
      dsimp only
      rw [holder]
      dsimp only
      rw [refreshed]
      unfold tryStatement
      rcases ran : (statement.print txn.txId).run s₁ with ⟨message | printed, u⟩
      · rw [ran] at kept'
        obtain ⟨s', aborted, rest⟩ := kept'.abort start
        right
        dsimp only
        rw [aborted]
        exact ⟨rfl, rest.nobody, rest.rows_eq⟩
      · rw [ran] at kept'
        exact .inl ⟨txn, m₀, pages', tableOf', holder, kept', start⟩

/-- Statements open no transaction of the session. -/
theorem free_executeSQL {terminal : YourSQLTerminal} (free : terminal.session.currentTxn = none)
    (statement : Statement) : (terminal.executeSQL statement).2.session.currentTxn = none := by
  unfold executeSQL
  rw [free]
  dsimp only
  split
  · exact free
  · unfold tryStatement
    split
    · exact free
    · split
      · exact free
      · exact free

/-- As long as the session has its transaction, it is the one that began. -/
theorem Holds.run {terminal : YourSQLTerminal} (holds : Holds committed terminal)
    (statements : List Statement)
    (inside : (Machine.run YourSQLTerminal.step terminal
      (statements.map .sql)).session.currentTxn.isSome = true) :
    Holds committed (Machine.run YourSQLTerminal.step terminal (statements.map .sql)) := by
  have stays : ∀ (statements : List Statement) (terminal : YourSQLTerminal),
      terminal.session.currentTxn = none →
        (Machine.run YourSQLTerminal.step terminal (statements.map .sql)).session.currentTxn = none := by
    intro statements
    induction statements with
    | nil => exact fun _ free => free
    | cons statement rest ih => exact fun terminal free => ih _ (free_executeSQL free statement)
  induction statements generalizing terminal with
  | nil => exact holds
  | cons statement rest ih =>
      rcases holds.step (show Input.sql statement ≠ .transaction .commit by simp) with holds' | restored
      · exact ih holds' inside
      · have free := stays rest _ restored.1
        rw [List.map_cons, Machine.run_cons, free] at inside
        cases inside

/-- A row has been committed. -/
def oneRow : Database :=
  oneTable.performAll [.begin, .insert (some 1) 1 (.ok [49, 0]), .commit 1]

theorem oneRow_reachable : oneRow.Reachable := by
  refine ⟨oneTable, oneTable_fresh, ?_⟩
  unfold oneRow Database.performAll
  simp only [List.foldl_cons, List.foldl_nil]
  have start : Interleaving (fun _ => True) oneTable oneTable := .refl
  have begun := start.perform .begin trivial trivial
  have inserted := begun.perform (.insert (some 1) 1 (.ok [49, 0])) trivial ⟨1, by decide, rfl⟩
  exact inserted.perform (.commit 1) trivial trivial

end YourSQLTerminal

end YourSQL
