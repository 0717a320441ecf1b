import YourSQL.Client.StatementEffects

/-! # The terminal is a store with transactions

One client, and whatever he enters. Between two inputs either nobody is under way and the
tables hold what is committed, or the transaction of the session is under way alone: then
the tables hold what it has made of them, and its rollback would bring back the rest.
-/

namespace YourSQL

open Mvcc (Attributed Back Solo VersionStore)
open Transactional (Store)

variable {s u : Database} {pages : Nat → List Nat} {tableOf : Nat → Nat} {trx : Nat}
  {m₀ : VersionStore} {contents committed working : Contents} {known : Nat → Bool}

/-- Nobody is under way, and these are the rows of the tables. -/
structure Database.AtRest (s : Database) (pages : Nat → List Nat) (tableOf : Nat → Nat)
    (contents : Contents) : Prop extends s.Secure pages tableOf where
  attributed : Attributed (s.versions tableOf)
  nobody : s.txnManager.activeTxns = []
  holds : (s.versions tableOf).toRecordStore.HoldsAll contents

/-- A transaction that runs alone has made the committed rows into others. -/
structure Database.AtWork (s : Database) (m₀ : VersionStore) (trx : Nat) (pages : Nat → List Nat)
    (tableOf : Nat → Nat) (committed working : Contents) : Prop
    extends s.Kept m₀ trx pages tableOf where
  before : m₀.toRecordStore.HoldsAll committed
  holds : (s.versions tableOf).toRecordStore.HoldsAll working

/-! ## Begin, Commit and Abort -/

/-- What rollback brings back are the rows that there were: a dead record is none. -/
theorem RecordStore.HoldsAll.back {σ τ : RecordStore} (holds : σ.HoldsAll contents)
    (back : ∀ rid, Back (σ.slot rid) (τ.slot rid)) : τ.HoldsAll contents := by
  intro t
  obtain ⟨rids, live, rows⟩ := holds t
  have same : ∀ rid, rid ∈ rids → τ.slot rid = σ.slot rid := by
    intro rid member
    obtain ⟨record, stored, -⟩ := (live rid).mp member
    rcases back rid with same | ⟨nothing, -⟩
    · exact same
    · rw [nothing] at stored
      cases stored
  refine ⟨rids, ?_, ?_⟩
  · intro rid
    constructor
    · intro member
      obtain ⟨record, stored, isLive⟩ := (live rid).mp member
      exact ⟨record, (same rid member).trans stored, isLive⟩
    · rintro ⟨record, stored, isLive⟩
      rcases back rid with same | ⟨-, dead⟩
      · exact (live rid).mpr ⟨record, same.symm.trans stored, isLive⟩
      · have isDead := dead _ stored
        simp [Record.isLive, isDead] at isLive
  · rw [rows]
    apply Multiset.map_congr rfl
    intro rid member
    rw [payloadAt, payloadAt, same rid member]

namespace Database

/-- Who begins when nobody is under way runs alone. -/
theorem Secure.begin_kept (secure : s.Secure pages tableOf) (attributed : Attributed (s.versions tableOf))
    (nobody : s.txnManager.activeTxns = []) :
    (Command.begin.perform s).Kept (s.versions tableOf) s.txnManager.nextTxid pages tableOf := by
  have versions := (begin_versions secure.sound).2
  exact
    { toSecure := secure.begin.toSecure
      attributed := versions ▸ attributed.begun
      solo := versions ▸ @Solo.begun (s.versions tableOf) nobody }

theorem AtRest.begin (rest : s.AtRest pages tableOf contents) :
    ∃ s', beginTransaction.run s = (.ok s.txnManager.nextTxid, s') ∧
      s'.AtWork (s.versions tableOf) s.txnManager.nextTxid pages tableOf contents contents := by
  have versions := (begin_versions rest.sound).2
  refine ⟨Command.begin.perform s, rfl, ?_⟩
  exact
    { toKept := rest.toSecure.begin_kept rest.attributed rest.nobody
      before := rest.holds
      holds := rest.holds.congr (versions ▸ rfl) }

theorem Kept.refresh (kept : s.Kept m₀ trx pages tableOf) :
    ((refreshReadView trx).run s).2.Kept m₀ trx pages tableOf := by
  have versions := (refreshReadView_versions kept.sound trx).2
  exact
    { toSecure := (kept.toSecure.refreshReadView kept.active).toSecure
      attributed := versions ▸ kept.attributed.viewed trx
      solo := versions ▸ kept.solo.viewed }

theorem AtWork.refresh (work : s.AtWork m₀ trx pages tableOf committed working) :
    ((refreshReadView trx).run s).2.AtWork m₀ trx pages tableOf committed working where
  toKept := work.toKept.refresh
  before := work.before
  holds := work.holds.congr ((refreshReadView_versions work.sound trx).2 ▸ rfl)

/-- Who ends was alone. -/
theorem Kept.nobody_after (kept : s.Kept m₀ trx pages tableOf) (state : TransactionState) :
    (s.txnManager.finish trx state).activeTxns = [] := by
  have only := kept.solo.active
  change s.txnManager.activeTxns = [trx] at only
  rw [List.eq_nil_iff_forall_not_mem]
  intro v member
  obtain ⟨before, other⟩ := TransactionManager.mem_finish_activeTxns.mp member
  rw [only, List.mem_singleton] at before
  exact other before

theorem AtWork.commit (work : s.AtWork m₀ trx pages tableOf committed working) :
    ∃ s', (commitTransaction trx).run s = (.ok ⟨⟩, s') ∧ s'.AtRest pages tableOf working := by
  obtain ⟨s', ran, sound, versions, -⟩ := run_commitTransaction work.sound work.active
  refine ⟨s', ran, ?_⟩
  have nobody := work.toKept.nobody_after .committed
  exact
    { sound := sound
      guarded := versions ▸ work.guarded.committed work.active
      attributed := versions ▸ work.attributed.committed trx
      nobody := (congrArg (fun m => m.manager.activeTxns) versions).trans nobody
      holds := work.holds.congr (versions ▸ rfl) }

/-- `Abort` comes to its end. -/
theorem Secure.run_abort (secure : s.Secure pages tableOf) (active : trx ∈ s.txnManager.activeTxns) :
    (abortTransaction trx).run s = (.ok ⟨⟩, (Command.abort trx).perform s) := by
  have tables := secure.guarded.tables active
  have placed : ∀ wr ∈ (s.txnManager.transaction trx).writeSet, ∀ slot,
      (s.store tableOf).slot wr.rid = some slot → wr.tableId = tableOf wr.rid.pageId := by
    intro wr member slot found
    obtain ⟨image, page, here, ofTable⟩ := Database.exists_image_of_slot found
    exact (tables wr member slot found).trans ofTable
  obtain ⟨s₁, undone, -, consistent, -⟩ :=
    AbortRestores.run_rollbackWrites secure.sound.consistent placed
  have same : s.SameLayout s₁ := by
    have kept := Program.preserves_forM (fun wr => @Database.SameLayout.rollbackWrite s wr)
      (s.txnManager.transaction trx).writeSet.reverse s (.refl s)
    rw [undone] at kept
    exact kept
  have undoing : (rollbackWrites (s.txnManager.transaction trx).writeSet).run s = (.ok ⟨⟩, s₁) := by
    unfold rollbackWrites
    rw [Program.run_get_bind, if_pos secure.sound.layout.storage]
    exact undone
  let s₂ := { s₁ with txnManager := s₁.txnManager.abortFinish trx }.enter (.abort trx)
  obtain ⟨log, io, forced, -⟩ :=
    run_forceControlLog s₂ trx .abort (secure.sound.same same consistent).fits_control
  let s₃ : Database := { s₂ with log := log, io := io }
  have ran : (abortTransaction trx).run s = (.ok ⟨⟩, s₃) := by
    unfold abortTransaction
    rw [Program.run_get_bind, TransactionManager.abortLookup, if_pos active]
    dsimp only
    rw [Program.run_bind_of_ok undoing, Program.run_bind_of_ok rfl, forced]
  exact ran.trans (Prod.ext rfl (congrArg Prod.snd ran).symm)

theorem Kept.abort (kept : s.Kept m₀ trx pages tableOf)
    (before : m₀.toRecordStore.HoldsAll committed) :
    ∃ s', (abortTransaction trx).run s = (.ok ⟨⟩, s') ∧ s'.AtRest pages tableOf committed := by
  have active := kept.active
  refine ⟨_, kept.toSecure.run_abort active, ?_⟩
  obtain ⟨-, versions⟩ := kept.toSecure.abort_tables active
  have nobody := kept.nobody_after .aborted
  exact
    { toSecure := (kept.toSecure.abort trx).toSecure
      attributed := versions ▸ kept.attributed.aborted kept.guarded active
      nobody := (congrArg (fun m => m.manager.activeTxns) versions).trans nobody
      holds := (before.back kept.solo.back).congr (versions ▸ rfl) }

end Database

/-! ## One input -/

/-- The terminal is where the store is. -/
inductive YourSQLTerminal.Stands (known : Nat → Bool) : YourSQLTerminal → Store Contents → Prop
  | idle {s : Database} {pages : Nat → List Nat} {tableOf : Nat → Nat} {session : ClientSession}
      {contents : Contents} : session.currentTxn = none → s.AtRest pages tableOf contents →
      s.Lists known → Stands known ⟨s, session⟩ ⟨contents, none⟩
  | inside {s : Database} {m₀ : VersionStore} {pages : Nat → List Nat} {tableOf : Nat → Nat}
      {session : ClientSession} {txn : SessionTransaction} {committed working : Contents} :
      session.currentTxn = some txn → s.AtWork m₀ txn.txId pages tableOf committed working →
      s.Lists known → Stands known ⟨s, session⟩ ⟨committed, some working⟩

namespace Database.Lists

theorem print (trx : Nat) (statement : Statement) :
    (statement.print trx).Preserves (Lists known) := by
  cases statement with
  | select t schema columnIds filter =>
      exact (select (some trx) t _).bind fun _ => Program.preserves_pure _
  | insert t row => exact (insert (some trx) t row).bind fun _ => Program.preserves_pure _
  | delete t filter => exact (delete (some trx) t filter).bind fun _ => Program.preserves_pure _
  | update t schema clauses filter =>
      exact (update (some trx) t schema clauses filter).bind fun _ => Program.preserves_pure _

theorem begin : beginTransaction.Preserves (Lists known) := fun _ lists => lists

end Database.Lists

namespace YourSQLTerminal

open Transactional (Request)
open Statement (meaning)

/-- The new rows of statements are small enough. -/
def Admits (store : Store Contents) : Request Statement → Prop
  | .statement statement => statement.Sized store.view
  | _ => True

instance (store : Store Contents) : (request : Request Statement) → Decidable (Admits store request)
  | .statement statement => inferInstanceAs (Decidable (statement.Sized store.view))
  | .begin => .isTrue trivial
  | .commit => .isTrue trivial
  | .rollback => .isTrue trivial

/-- An attempt that has raised an exception is taken back. -/
theorem tryStatement_of_error {attempt : Exec Printed} {before after : ClientSession}
    {message : String} (ran : attempt.run s = (.error message, u))
    (kept : u.Kept m₀ trx pages tableOf) (start : m₀.toRecordStore.HoldsAll committed)
    (lists : u.Lists known) (free : after.currentTxn = none) :
    Output.Tells (tryStatement s trx attempt before after).1 .failed ∧
      Stands known (tryStatement s trx attempt before after).2 ⟨committed, none⟩ := by
  obtain ⟨s', aborted, rest⟩ := kept.abort start
  have lists' := Database.Lists.abort trx u lists
  rw [aborted] at lists'
  unfold tryStatement
  rw [ran]
  dsimp only
  rw [aborted]
  exact ⟨.failed message, .idle free rest lists'⟩

/-- A statement in a transaction that runs alone: the rows that it leaves, or it fails and
    its transaction goes on to `Abort`. -/
theorem run_print (work : s.AtWork m₀ trx pages tableOf committed working) (lists : s.Lists known)
    {statement : Statement} (sized : statement.Sized working) :
    (∃ printed u pages tableOf answer contents, (statement.print trx).run s = (.ok printed, u) ∧
        meaning known statement working = some (answer, contents) ∧
        Output.Tells (.printed printed) (.done answer) ∧
        u.AtWork m₀ trx pages tableOf committed contents ∧ u.Lists known) ∨
      ∃ message u pages tableOf, (statement.print trx).run s = (.error message, u) ∧
        meaning known statement working = none ∧ u.Kept m₀ trx pages tableOf ∧ u.Lists known := by
  have outcome := statement.wp_print work.toKept work.holds lists sized
  have lists' := Database.Lists.print trx statement s lists
  unfold Program.wp at outcome
  split at outcome
  · rename_i printed u ran
    obtain ⟨pages', tableOf', answer, contents', reaches, means, tells, holds⟩ := outcome
    rw [ran] at lists'
    exact .inl ⟨printed, u, pages', tableOf', answer, contents', ran, means, tells,
      { toKept := work.toKept.reach reaches
        before := work.before
        holds := holds }, lists'⟩
  · rename_i message u ran
    obtain ⟨⟨pages', tableOf', reaches⟩, fails⟩ := outcome
    rw [ran] at lists'
    exact .inr ⟨message, u, pages', tableOf', ran, fails, work.toKept.reach reaches, lists'⟩

/-- A statement outside of a transaction of the session. -/
theorem executeSQL_of_idle {session : ClientSession} (free : session.currentTxn = none)
    (rest : s.AtRest pages tableOf contents) (lists : s.Lists known) {statement : Statement}
    (sized : statement.Sized contents) :
    let reply := Store.handle (meaning known) ⟨contents, none⟩ (.statement statement)
    Output.Tells (executeSQL ⟨s, session⟩ statement).1 reply.1 ∧
      Stands known (executeSQL ⟨s, session⟩ statement).2 reply.2 := by
  obtain ⟨s₁, begun, work⟩ := rest.begin
  have lists₁ := Database.Lists.begin s lists
  rw [begun] at lists₁
  unfold executeSQL
  rw [free]
  dsimp only
  rw [begun]
  dsimp only
  rcases run_print work lists₁ sized with ⟨printed, u, pages', tableOf', answer, contents', ran,
    means, tells, work', lists'⟩ | ⟨message, u, pages', tableOf', ran, fails, kept, lists'⟩
  · obtain ⟨s₂, committed, rest'⟩ := work'.commit
    have lists₂ := Database.Lists.commit s.txnManager.nextTxid u lists'
    rw [committed] at lists₂
    have attempted : (do
        let printed ← statement.print s.txnManager.nextTxid
        commitTransaction s.txnManager.nextTxid
        return printed : Exec Printed).run s₁ = (.ok printed, s₂) := by
      rw [Program.run_bind_of_ok ran, Program.run_bind_of_ok committed]
      rfl
    rw [Store.handle_statement_of_some means]
    unfold tryStatement
    rw [attempted]
    exact ⟨tells, .idle free rest' lists₂⟩
  · rw [Store.handle_statement_of_none fails]
    exact tryStatement_of_error (Program.run_bind_of_error ran) kept work.before lists' free

/-- A statement in the transaction of the session. -/
theorem executeSQL_of_inside {session : ClientSession} {txn : SessionTransaction}
    (holder : session.currentTxn = some txn)
    (work : s.AtWork m₀ txn.txId pages tableOf committed working) (lists : s.Lists known)
    {statement : Statement} (sized : statement.Sized working) :
    let reply := Store.handle (meaning known) ⟨committed, some working⟩ (.statement statement)
    Output.Tells (executeSQL ⟨s, session⟩ statement).1 reply.1 ∧
      Stands known (executeSQL ⟨s, session⟩ statement).2 reply.2 := by
  -- a fresh read view shows a transaction that is alone nothing new
  obtain ⟨s₁, refreshed, work₁, lists₁⟩ : ∃ s₁, (if txn.isolationLevel = .readCommitted then
      ((refreshReadView txn.txId).run s).2 else s) = s₁ ∧
      s₁.AtWork m₀ txn.txId pages tableOf committed working ∧ s₁.Lists known := by
    split
    · exact ⟨_, rfl, work.refresh, lists⟩
    · exact ⟨_, rfl, work, lists⟩
  unfold executeSQL
  rw [holder]
  dsimp only
  rw [refreshed]
  rcases run_print work₁ lists₁ sized with ⟨printed, u, pages', tableOf', answer, contents', ran,
    means, tells, work', lists'⟩ | ⟨message, u, pages', tableOf', ran, fails, kept, lists'⟩
  · rw [Store.handle_statement_of_some means]
    unfold tryStatement
    rw [ran]
    exact ⟨tells, .inside holder work' lists'⟩
  · rw [Store.handle_statement_of_none fails]
    exact tryStatement_of_error ran kept work.before lists' rfl

/-- COMMIT or ROLLBACK in a transaction. -/
theorem endTransaction_of_inside {session : ClientSession} {txn : SessionTransaction}
    (holder : session.currentTxn = some txn) {ending : Nat → Exec Unit} {text : String}
    (ended : (ending txn.txId).run s = (.ok ⟨⟩, u)) (rest : u.AtRest pages tableOf contents)
    (lists : u.Lists known) :
    (endTransaction ⟨s, session⟩ ending text).1 = .cout text ∧
      Stands known (endTransaction ⟨s, session⟩ ending text).2 ⟨contents, none⟩ := by
  unfold endTransaction
  rw [holder]
  dsimp only
  rw [ended]
  exact ⟨rfl, .idle rfl rest lists⟩

theorem step_stands {terminal : YourSQLTerminal} {store : Store Contents} (input : Input)
    (stands : Stands known terminal store) (admits : Admits store input.request) :
    Output.Tells (terminal.step input).1 (store.handle (meaning known) input.request).1 ∧
      Stands known (terminal.step input).2 (store.handle (meaning known) input.request).2 := by
  cases stands with
  | @idle s pages tableOf session contents free rest lists =>
      cases input with
      | sql statement => exact executeSQL_of_idle free rest lists admits
      | transaction command =>
          cases command with
          | begin =>
              obtain ⟨s₁, begun, work⟩ := rest.begin
              have lists₁ := Database.Lists.begin s lists
              rw [begun] at lists₁
              unfold step handleTransactionStatement
              dsimp only
              rw [free]
              dsimp only
              rw [begun]
              exact ⟨.begun, .inside rfl work lists₁⟩
          | commit =>
              unfold step handleTransactionStatement endTransaction
              dsimp only
              rw [free]
              exact ⟨.notBegun, .idle free rest lists⟩
          | rollback =>
              unfold step handleTransactionStatement endTransaction
              dsimp only
              rw [free]
              exact ⟨.notBegun, .idle free rest lists⟩
  | @inside s m₀ pages tableOf session txn committed working holder work lists =>
      cases input with
      | sql statement => exact executeSQL_of_inside holder work lists admits
      | transaction command =>
          cases command with
          | begin =>
              unfold step handleTransactionStatement
              dsimp only
              rw [holder]
              exact ⟨.alreadyBegun, .inside holder work lists⟩
          | commit =>
              obtain ⟨s₁, ended, rest⟩ := work.commit
              have lists₁ := Database.Lists.commit txn.txId s lists
              rw [ended] at lists₁
              obtain ⟨told, after⟩ := endTransaction_of_inside holder ended rest lists₁
              exact ⟨told ▸ .committed, after⟩
          | rollback =>
              obtain ⟨s₁, ended, rest⟩ := work.toKept.abort work.before
              have lists₁ := Database.Lists.abort txn.txId s lists
              rw [ended] at lists₁
              obtain ⟨told, after⟩ := endTransaction_of_inside holder ended rest lists₁
              exact ⟨told ▸ .rolledBack, after⟩

end YourSQLTerminal

/-! ## What can be seen of the tables -/

/-- The rows that a scan shows the transaction. -/
def Database.rowsFor (s : Database) (trx : Nat) : Contents := fun t =>
  match s.seen trx t with
  | .ok rows => (rows.map Record.payload : List Row.Bytes)
  | .error _ => 0

/-- The rows that a scan shows a transaction that begins now. -/
def Database.rows (s : Database) : Contents :=
  (Command.begin.perform s).rowsFor s.txnManager.nextTxid

theorem Database.Kept.rowsFor_eq (kept : s.Kept m₀ trx pages tableOf)
    (holds : (s.versions tableOf).toRecordStore.HoldsAll contents) :
    s.rowsFor trx = contents := by
  funext t
  rw [kept.contents_eq holds t]
  unfold Database.rowsFor
  cases entry : s.items t with
  | some item => rw [kept.seen entry]
  | none =>
      have missing : s.seen trx t = .error _ :=
        congrArg Prod.fst (Program.run_bind_of_error (TableIterator.run_create_of_none entry))
      rw [missing, kept.sound.layout.noItem t entry]
      rfl

theorem Database.AtRest.rows_eq (rest : s.AtRest pages tableOf contents) :
    s.rows = contents := by
  obtain ⟨s₁, begun, work⟩ := rest.begin
  have same : Command.begin.perform s = s₁ := congrArg Prod.snd begun
  rw [Database.rows, same]
  exact work.toKept.rowsFor_eq work.holds

/-- Nobody is under way after clients have done their work: the database is at rest. -/
theorem Database.Reachable.atRest (reachable : s.Reachable)
    (nobody : s.txnManager.activeTxns = []) :
    ∃ pages tableOf, s.AtRest pages tableOf s.rows := by
  obtain ⟨pages, tableOf, secure, attributed⟩ := reachable.attributed
  refine ⟨pages, tableOf, ?_⟩
  have versions := (begin_versions secure.sound).2
  have kept := secure.begin_kept attributed nobody
  have rest : s.AtRest pages tableOf fun t =>
      (((Command.begin.perform s).liveAt ((Command.begin.perform s).addresses (pages t))).map
        Record.payload : List Row.Bytes) :=
    { toSecure := secure
      attributed := attributed
      nobody := nobody
      holds := fun t => (kept.holds t).congr (versions ▸ rfl) }
  exact rest.rows_eq.symm ▸ rest

namespace YourSQLTerminal

/-- The terminal shows what the store holds, to who looks at it: outside of a transaction
    the committed rows, and inside what the transaction sees and what its rollback would
    leave. -/
def Shows (terminal : YourSQLTerminal) (store : Store Contents) : Prop :=
  match terminal.session.currentTxn, store.working with
  | none, none => terminal.database.txnManager.activeTxns = [] ∧
      terminal.database.rows = store.committed
  | some txn, some working => terminal.database.txnManager.activeTxns = [txn.txId] ∧
      terminal.database.rowsFor txn.txId = working ∧
      ((Command.abort txn.txId).perform terminal.database).rows = store.committed
  | _, _ => False

theorem Stands.shows {terminal : YourSQLTerminal} {store : Store Contents}
    (stands : Stands known terminal store) : terminal.Shows store := by
  cases stands with
  | idle free rest lists =>
      unfold Shows
      rw [free]
      exact ⟨rest.nobody, rest.rows_eq⟩
  | inside holder work lists =>
      obtain ⟨s', aborted, rest⟩ := work.toKept.abort work.before
      obtain rfl := congrArg Prod.snd aborted
      unfold Shows
      rw [holder]
      exact ⟨work.solo.active, work.toKept.rowsFor_eq work.holds, rest.rows_eq⟩

/-- The store with transactions that a client has before him. -/
def spec (known : Nat → Bool) (store : Store Contents) (input : Input) :
    Transactional.Reply Answer × Store Contents :=
  store.handle (Statement.meaning known) input.request

/-- A row comes in and is changed, and that is taken back. Then another one comes in. -/
def someInputs : List Input :=
  [.transaction .begin, .sql (.insert 1 (.ok [49, 0])),
    .sql (.update 1 [.bool] [⟨0, .of (.bool true)⟩] none), .sql (.select 1 [.bool] [] none),
    .transaction .rollback, .sql (.insert 1 (.ok [49, 1])), .sql (.delete 1 none)]

end YourSQLTerminal

end YourSQL
