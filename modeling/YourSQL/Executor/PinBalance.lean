import YourSQL.Executor.Execute
import YourSQL.Executor.StoredRows

/-! # What statements leave pinned

Commit and Abort release what they pin, and so do the undo log and the executors as long
as they come to their end. An exception on the way leaves one page pinned: the one under
the iterator, or the last page of the table that an INSERT or UPDATE has opened. Which
statements do that can be told from the rows that are there before.
-/

namespace YourSQL

open Mvcc (Guarded VersionStore)
open ExecutorUpdate (Hit SetClause)

variable {s u : Database} {pages : Nat → List Nat} {tableOf : Nat → Nat} {trx t : Nat}

namespace Database

/-- The records that a scan of the table meets, with their addresses. -/
def tuples (s : Database) (t : Nat) : List (RID × Record) :=
  match s.scanned t with
  | .ok rows => rows.filterMap fun (rid, record) => record.map (Prod.mk rid)
  | .error _ => []

/-- The rows that UPDATE finds. -/
def hits (s : Database) (trx t : Nat) (schema : List ColumnTypes) (clauses : List SetClause)
    (filter : Option Filter) : List Hit :=
  (s.tuples t).filterMap fun (rid, record) => s.hitAt trx schema clauses filter rid record

end Database

/-- A page stays pinned behind the statement. A scan has moved on to the next row when it
    reads one, so the last row does no harm. -/
def Statement.Leaks (s : Database) (trx : Nat) : Statement → Prop
  | select t schema columnIds filter => ∃ row ∈ (s.tuples t).dropLast,
      s.ReadFails (some trx) (some (Execute.consume schema columnIds filter)) row.2
  | insert t row => (s.items t).isSome = true ∧ ∀ payload, row = .ok payload →
      ¬ (tupleOf ⟨trx, .null, 0⟩ payload).size + SLOT_SIZE ≤ PAGE_SIZE - HEADER_SIZE
  | delete t filter => ∃ row ∈ s.tuples t, s.DeleteFails trx filter row.2
  | update t schema clauses filter =>
      (∃ row ∈ s.tuples t, s.GatherFails trx schema filter row.2) ∨
        ∃ done hit rest, s.hits trx t schema clauses filter = done ++ hit :: rest ∧
          (∀ hit ∈ done, hit.Returns s.logCapacity schema) ∧ hit.Sticks s.logCapacity schema

/-! ## The rows, by their addresses -/

namespace Database.Sound

theorem tuples (sound : s.Sound pages tableOf) (t : Nat) :
    s.tuples t =
      (s.addresses (pages t)).filterMap fun rid => (s.tupleAt rid).map (Prod.mk rid) := by
  unfold Database.tuples
  cases entry : s.items t with
  | none =>
      have missing : s.scanned t =
          .error "MetaPage::GetFirstPageId for tableName does not exist" := by
        unfold Database.scanned TableIterator.collect
        rw [Program.run_bind_of_error (TableIterator.run_create_of_none entry)]
      rw [missing, sound.layout.noItem t entry]
      rfl
  | some item =>
      rw [sound.scanned entry]
      dsimp only
      rw [List.filterMap_map]
      rfl

theorem hits (sound : s.Sound pages tableOf) (trx t : Nat) (schema : List ColumnTypes)
    (clauses : List SetClause) (filter : Option Filter) :
    s.hits trx t schema clauses filter =
      s.hitsAt trx schema clauses filter (s.addresses (pages t)) := by
  unfold Database.hits Database.hitsAt
  rw [sound.tuples, List.filterMap_filterMap]
  congr 1
  funext rid
  cases s.tupleAt rid <;> rfl

/-- Every address has its record. -/
theorem tuples_split (sound : s.Sound pages tableOf) {done rest : List RID} {rid : RID}
    {record : Record} (split : s.addresses (pages t) = done ++ rid :: rest)
    (found : s.tupleAt rid = some record) :
    s.tuples t = (done.filterMap fun rid => (s.tupleAt rid).map (Prod.mk rid)) ++
      (rid, record) :: rest.filterMap fun rid => (s.tupleAt rid).map (Prod.mk rid) := by
  rw [sound.tuples, split, List.filterMap_append, List.filterMap_cons, found]
  rfl

theorem stored (sound : s.Sound pages tableOf) {rid : RID} (member : rid ∈ s.addresses (pages t)) :
    ∃ record, s.tupleAt rid = some record := by
  obtain ⟨record, stored⟩ := sound.mem_addresses.mp member
  exact ⟨record, tupleAt_of_slot stored⟩

end Database.Sound

theorem mem_filterMap_tupleAt {rids : List RID} {row : RID × Record} :
    row ∈ (rids.filterMap fun rid => (s.tupleAt rid).map (Prod.mk rid)) ↔
      row.1 ∈ rids ∧ s.tupleAt row.1 = some row.2 := by
  obtain ⟨rid, record⟩ := row
  simp only [List.mem_filterMap, Option.map_eq_some_iff, Prod.mk.injEq]
  constructor
  · rintro ⟨rid', member, record', found, rfl, rfl⟩
    exact ⟨member, found⟩
  · rintro ⟨member, found⟩
    exact ⟨rid, member, record, found, rfl, rfl⟩

theorem Database.Clean.tuples {fails : Record → Prop} (clean : s.Clean pages t fails)
    (sound : s.Sound pages tableOf) : ¬ ∃ row ∈ s.tuples t, fails row.2 := by
  rw [sound.tuples]
  rintro ⟨row, member, raised⟩
  obtain ⟨inside, found⟩ := mem_filterMap_tupleAt.mp member
  exact clean row.1 inside row.2 found raised

/-- The row at which a loop has stopped is the last one, or some row before the last one
    raises an exception. -/
theorem StoppedAt.leaks_iff {fails : Record → Prop} {rid : RID} {rest : List RID}
    {held : List Nat} (stopped : StoppedAt s pages t fails rid rest held u)
    (sound : s.Sound pages tableOf) :
    (∃ row ∈ s.tuples t, fails row.2) ∧
      (rest = [] ↔ ¬ ∃ row ∈ (s.tuples t).dropLast, fails row.2) := by
  obtain ⟨record, found, raised⟩ := stopped.fails
  obtain ⟨done, split, clean⟩ := stopped.passed
  have tuples := sound.tuples_split split found
  refine ⟨⟨(rid, record), by simp [tuples], raised⟩, ?_⟩
  rw [tuples]
  cases rest with
  | nil =>
      refine ⟨fun _ => ?_, fun _ => rfl⟩
      rw [List.filterMap_nil, List.dropLast_concat]
      rintro ⟨row, member, raised⟩
      obtain ⟨inside, found⟩ := mem_filterMap_tupleAt.mp member
      exact clean row.1 inside row.2 found raised
  | cons next rest =>
      refine ⟨nofun, fun none => absurd ⟨(rid, record), ?_, raised⟩ none⟩
      obtain ⟨record', found'⟩ := sound.stored (show next ∈ s.addresses (pages t) by simp [split])
      rw [List.filterMap_cons, found', List.dropLast_append_of_ne_nil (by simp)]
      simp

/-- What comes first is the same however the list is split there. -/
theorem first_unique {p : α → Prop} {done done' rest rest' : List α} {a a' : α}
    (same : done ++ a :: rest = done' ++ a' :: rest') (passed : ∀ b ∈ done, p b)
    (passed' : ∀ b ∈ done', p b) (fails : ¬ p a) (fails' : ¬ p a') : a = a' := by
  rcases List.append_eq_append_iff.mp same with ⟨more, here, there⟩ | ⟨more, here, there⟩
  · cases more with
    | nil => exact (List.cons.inj there).1
    | cons b more =>
        obtain rfl := (List.cons.inj there).1
        exact absurd (passed' a (by simp [here])) fails
  · cases more with
    | nil => exact (List.cons.inj there).1.symm
    | cons b more =>
        obtain rfl := (List.cons.inj there).1
        exact absurd (passed a' (by simp [here])) fails'

theorem ExecutorUpdate.Hit.not_returns_of_sticks {capacity : Option Nat}
    {schema : List ColumnTypes} (hit : Hit) (sticks : hit.Sticks capacity schema) :
    ¬ hit.Returns capacity schema := by
  obtain ⟨-, payload, bytes, refuses⟩ := sticks
  rintro ⟨-, payload', bytes', takes⟩
  obtain rfl := Except.ok.inj (bytes.symm.trans bytes')
  exact refuses takes

/-! ## One statement -/

/-- How a statement has ended: what is left, and what is pinned in addition. -/
structure Statement.Leaves (s : Database) (tableOf : Nat → Nat) (trx : Nat) (statement : Statement)
    (u : Database) (held : List Nat) : Prop where
  ends : u.Ends (s.versions tableOf) trx
  swaps : s.Unborn → s.Swaps [] u held
  leaks : held = [] ↔ ¬ statement.Leaks s trx

namespace Statement

theorem wp_select (sound : s.Sound pages tableOf) (trx t : Nat) (schema : List ColumnTypes)
    (columnIds : List Nat) (filter : Option Filter) :
    ((Statement.select t schema columnIds filter).execute trx).wp
      (fun _ u => ∃ held, Leaves s tableOf trx (.select t schema columnIds filter) u held)
      (fun _ u => ∃ held, Leaves s tableOf trx (.select t schema columnIds filter) u held) s := by
  have ends : ∀ {u}, s.Scans pages tableOf u → u.Ends (s.versions tableOf) trx := fun scans =>
    ⟨pages, tableOf, scans.sound, scans.pool.versions tableOf ▸ .refl⟩
  unfold execute Execute.executeQuery
  dsimp only
  rw [Program.wp_bind]
  apply (wp_select_pool sound (some trx) t _).mono
  · rintro _ u ⟨scans, -, it, ended, passing⟩
    have clean := passing.clean.tuples sound
    refine ⟨[], ends scans, TableIterator.held_of_end ended ▸ passing.swaps, iff_of_true rfl ?_⟩
    rintro ⟨row, member, raised⟩
    exact clean ⟨row, List.mem_of_mem_dropLast member, raised⟩
  · rintro _ u ⟨scans, ⟨missing, rfl⟩ | ⟨rid, rest, held, iff, stopped⟩⟩
    · refine ⟨[], ends scans, fun _ => .refl _ _, iff_of_true rfl ?_⟩
      simp [Leaks, sound.tuples, sound.layout.noItem t missing]
    · exact ⟨held, ends scans, stopped.swaps, iff.trans (stopped.leaks_iff sound).2⟩

theorem wp_insert (sound : s.Sound pages tableOf) (trx t : Nat) (row : Except String (List UInt8)) :
    ((Statement.insert t row).execute trx).wp
      (fun _ u => ∃ held, Leaves s tableOf trx (.insert t row) u held)
      (fun _ u => ∃ held, Leaves s tableOf trx (.insert t row) u held) s := by
  have ended := insert_steps sound trx t row
  obtain ⟨result, u, pages', tableOf', held, ran, -, -, swaps, ends⟩ :=
    run_insert sound (some trx) t row
  rw [ran] at ended
  have leaves : (held = [] ↔ ¬ (Statement.insert t row).Leaks s trx) →
      ∃ held, Leaves s tableOf trx (.insert t row) u held := fun leaks =>
    ⟨held, ended, swaps, leaks⟩
  unfold execute Execute.executeInsert
  dsimp only
  unfold Program.wp
  rw [ran]
  generalize u.versions tableOf' = m at ends
  generalize u.order pages' = order at ends
  cases ends with
  | noTable missing => exact leaves (iff_of_true rfl fun leaks => by simp [Leaks, missing] at leaks)
  | unserialized known failed =>
      exact leaves (iff_of_false (by simp) (not_not.mpr ⟨known, by simp [failed]⟩))
  | large known serialized large =>
      refine leaves (iff_of_false (by simp) (not_not.mpr ⟨known, ?_⟩))
      intro payload serialized'
      obtain rfl := Except.ok.inj (serialized.symm.trans serialized')
      exact large
  | stored known serialized fits unused =>
      exact leaves (iff_of_true rfl fun leaks => leaks.2 _ serialized fits)

theorem wp_delete (secure : s.Secure pages tableOf) (active : trx ∈ s.txnManager.activeTxns)
    (t : Nat) (filter : Option Filter) :
    ((Statement.delete t filter).execute trx).wp
      (fun _ u => ∃ held, Leaves s tableOf trx (.delete t filter) u held)
      (fun _ u => ∃ held, Leaves s tableOf trx (.delete t filter) u held) s := by
  have sound := secure.sound
  unfold execute Execute.executeDelete
  dsimp only
  rw [Program.wp_bind]
  apply (wp_delete_steps sound secure.guarded active t filter).mono
  · rintro _ u ⟨it, ended, deleted⟩
    exact ⟨[], ⟨pages, tableOf, deleted.reaches⟩,
      TableIterator.held_of_end ended ▸ deleted.passing.swaps,
      iff_of_true rfl (deleted.passing.clean.tuples sound)⟩
  · rintro _ u ⟨reaches, ⟨missing, rfl⟩ | ⟨rid, rest, p, stopped⟩⟩
    · refine ⟨[], ⟨pages, tableOf, reaches⟩, fun _ => .refl _ _, iff_of_true rfl ?_⟩
      simp [Leaks, sound.tuples, sound.layout.noItem t missing]
    · exact ⟨[p], ⟨pages, tableOf, reaches⟩, stopped.swaps,
        iff_of_false (by simp) (not_not.mpr (stopped.leaks_iff sound).1)⟩

theorem wp_update (secure : s.Secure pages tableOf) (active : trx ∈ s.txnManager.activeTxns)
    (t : Nat) (schema : List ColumnTypes) (clauses : List SetClause) (filter : Option Filter) :
    ((Statement.update t schema clauses filter).execute trx).wp
      (fun _ u => ∃ held, Leaves s tableOf trx (.update t schema clauses filter) u held)
      (fun _ u => ∃ held, Leaves s tableOf trx (.update t schema clauses filter) u held) s := by
  have sound := secure.sound
  have hits := sound.hits trx t schema clauses filter
  unfold execute Execute.executeUpdate
  dsimp only
  rw [Program.wp_bind]
  apply (wp_update_steps sound secure.guarded active t schema clauses filter).mono
  · rintro _ u ⟨clean, -, rewritten⟩
    obtain ⟨pages', tableOf', reaches, -⟩ := rewritten.reached
    obtain ⟨worked, split, returned⟩ := rewritten.worked
    rw [List.append_nil] at split
    refine ⟨[], ⟨pages', tableOf', reaches⟩, rewritten.swaps, iff_of_true rfl ?_⟩
    rintro (raised | ⟨done, hit, rest, split', -, sticks⟩)
    · exact clean.tuples sound raised
    · have member : hit ∈ worked := by
        rw [← split, ← hits, split']
        simp
      exact hit.not_returns_of_sticks sticks (returned hit member)
  · rintro _ u ⟨ended, ⟨missing, rfl⟩ | ⟨-, rid, rest, p, stopped⟩ | ⟨clean, hit, held, stopped⟩⟩
    · refine ⟨[], ended, fun _ => .refl _ _, iff_of_true rfl ?_⟩
      simp [Leaks, Database.hits, sound.tuples, sound.layout.noItem t missing]
    · exact ⟨[p], ended, stopped.swaps,
        iff_of_false (by simp) (not_not.mpr (.inl (stopped.leaks_iff sound).1))⟩
    · refine ⟨held, ended, stopped.swaps, stopped.raised.2.trans (not_congr ?_)⟩
      obtain ⟨done, rest, split, returned⟩ := stopped.worked
      constructor
      · exact fun sticks => .inr ⟨done, hit, rest, hits.trans split, returned, sticks⟩
      · rintro (raised | ⟨done', hit', rest', split', returned', sticks⟩)
        · exact absurd raised (clean.tuples sound)
        · obtain rfl := first_unique ((hits.symm.trans split').symm.trans split) returned' returned
            (hit'.not_returns_of_sticks sticks) stopped.raised.1
          exact sticks

theorem execute_leaves (secure : s.Secure pages tableOf) (active : trx ∈ s.txnManager.activeTxns)
    (statement : Statement) :
    ∃ held, statement.Leaves s tableOf trx ((statement.execute trx).run s).2 held := by
  let good (u : Database) : Prop := ∃ held, statement.Leaves s tableOf trx u held
  apply @Program.wp.state _ _ _ _ _ good
  cases statement with
  | select t schema columnIds filter => exact wp_select secure.sound trx t schema columnIds filter
  | insert t row => exact wp_insert secure.sound trx t row
  | delete t filter => exact wp_delete secure active t filter
  | update t schema clauses filter => exact wp_update secure active t schema clauses filter

/-- The command that a statement is, for the records. -/
def command (trx : Nat) : Statement → Command
  | select t schema columnIds filter =>
      .select (some trx) t (some (Execute.consume schema columnIds filter))
  | insert t row => .insert (some trx) t row
  | delete t filter => .delete (some trx) t filter
  | update t schema clauses filter => .update (some trx) t schema clauses filter

theorem run_execute (s : Database) (trx : Nat) (statement : Statement) :
    ((statement.execute trx).run s).2 = (statement.command trx).perform s := by
  cases statement with
  | select t schema columnIds filter => exact Program.state_bind fun _ _ => rfl
  | insert t row => rfl
  | delete t filter => exact Program.state_bind fun _ _ => rfl
  | update t schema clauses filter => exact Program.state_bind fun _ _ => rfl

end Statement

/-! ## With the end of the transaction -/

theorem Database.Ends.secure {m : VersionStore} (ends : u.Ends m trx) (guarded : Guarded m)
    (active : trx ∈ m.manager.activeTxns) :
    ∃ pages tableOf, u.Secure pages tableOf ∧ trx ∈ u.txnManager.activeTxns := by
  obtain ⟨pages, tableOf, sound, steps⟩ := ends
  exact ⟨pages, tableOf, ⟨sound, steps.guarded guarded active⟩,
    steps.spares.activeTxns.symm ▸ active⟩

/-- The statement, and then the end of its transaction. -/
theorem Database.Secure.run_executeSQL (secure : s.Secure pages tableOf)
    (active : trx ∈ s.txnManager.activeTxns) (statement : Statement) :
    ∃ command : Command, (command = .commit trx ∨ command = .abort trx) ∧
      ((executeSQL trx statement).run s).2 =
        command.perform ((statement.execute trx).run s).2 := by
  obtain ⟨held, left⟩ := statement.execute_leaves secure active
  obtain ⟨pages', tableOf', secure', active'⟩ := left.ends.secure secure.guarded active
  generalize ran : (statement.execute trx).run s = result at secure' active' ⊢
  obtain ⟨result, u⟩ := result
  unfold executeSQL
  cases result with
  | ok done =>
      obtain ⟨u', committed, -⟩ := run_commitTransaction secure'.sound active'
      refine ⟨.commit trx, .inl rfl, ?_⟩
      rw [Program.run_tryCatch_of_ok ((Program.run_bind_of_ok ran).trans committed), Command.perform,
        committed]
  | error message =>
      refine ⟨.abort trx, .inr rfl, ?_⟩
      rw [Program.run_tryCatch_of_error (Program.run_bind_of_error ran)]
      exact Program.state_bind fun _ _ => rfl

namespace Database

theorem Swaps.pins_eq_iff {held : List Nat} (swaps : s.Swaps [] u held) :
    u.pins = s.pins ↔ held = [] := by
  have counted := swaps.holding s.pins fun p => by simp
  constructor
  · intro same
    rw [List.eq_nil_iff_forall_not_mem]
    intro p member
    have more := counted p
    rw [same] at more
    have positive := List.count_pos_iff.mpr member
    omega
  · rintro rfl
    exact counted.eq

/-- And no page is pinned before it is allocated. -/
structure Tidy (s : Database) (pages : Nat → List Nat) (tableOf : Nat → Nat) : Prop extends
    s.Secure pages tableOf where
  unborn : s.Unborn

namespace Tidy

/-- What the statement leaves pinned its end does not release. -/
theorem executeSQL (tidy : s.Tidy pages tableOf) (active : trx ∈ s.txnManager.activeTxns)
    (statement : Statement) :
    ∃ held, s.Swaps [] ((YourSQL.executeSQL trx statement).run s).2 held ∧
      (held = [] ↔ ¬ statement.Leaks s trx) := by
  obtain ⟨held, left⟩ := statement.execute_leaves tidy.toSecure active
  obtain ⟨pages', tableOf', secure', active'⟩ := left.ends.secure tidy.guarded active
  obtain ⟨command, kind, same⟩ := tidy.toSecure.run_executeSQL active statement
  have swaps : ((statement.execute trx).run s).2.Swaps []
      ((YourSQL.executeSQL trx statement).run s).2 [] := by
    rw [same]
    rcases kind with rfl | rfl
    · exact (commit_versions secure'.sound trx).2.2
    · exact (abort_versions secure'.sound (secure'.guarded.tables active')).2.2
  exact ⟨held, (left.swaps tidy.unborn).trans (swaps.frame held), left.leaks⟩

theorem statement (tidy : s.Tidy pages tableOf) (active : trx ∈ s.txnManager.activeTxns)
    (statement : Statement) : ∃ held, s.Swaps [] ((statement.command trx).perform s) held := by
  obtain ⟨held, left⟩ := statement.execute_leaves tidy.toSecure active
  rw [← statement.run_execute]
  exact ⟨held, left.swaps tidy.unborn⟩

theorem select (tidy : s.Tidy pages tableOf) (txn : Option Nat) (t : Nat)
    (filter : Option Filter) :
    ∃ held, s.Swaps [] ((Command.select txn t filter).perform s) held := by
  apply @Program.wp.state _ _ _ _ _ fun u => ∃ held, s.Swaps [] u held
  apply (wp_select_pool tidy.sound txn t filter).mono
  · rintro _ u ⟨-, -, it, -, passing⟩
    exact ⟨_, passing.swaps tidy.unborn⟩
  · rintro _ u ⟨-, ⟨-, rfl⟩ | ⟨rid, rest, held, -, stopped⟩⟩
    · exact ⟨[], .refl u []⟩
    · exact ⟨held, stopped.swaps tidy.unborn⟩

/-- Every command leaves some pages pinned. -/
theorem swaps (tidy : s.Tidy pages tableOf) {command : Command} (proper : command.Proper s) :
    ∃ held, s.Swaps [] (command.perform s) held := by
  cases command with
  | begin =>
      exact ⟨[], @Swaps.of_pins s (Command.begin.perform s) rfl le_rfl (fun _ holds => holds) []⟩
  | refreshReadView trx =>
      exact ⟨[], @Swaps.of_pins s ((Command.refreshReadView trx).perform s) rfl le_rfl
        (fun _ holds => holds) []⟩
  | commit trx => exact ⟨[], (commit_versions tidy.sound trx).2.2⟩
  | abort trx =>
      refine ⟨[], ?_⟩
      by_cases active : trx ∈ s.txnManager.activeTxns
      · exact (abort_versions tidy.sound (tidy.guarded.tables active)).2.2
      · unfold Command.perform abortTransaction
        dsimp only
        rw [Program.run_get_bind, TransactionManager.abortLookup, if_neg active]
        exact .refl s []
  | insert txn t row =>
      obtain ⟨trx, active, rfl⟩ := proper
      exact tidy.statement active (.insert t row)
  | delete txn t filter =>
      obtain ⟨trx, active, rfl⟩ := proper
      exact tidy.statement active (.delete t filter)
  | update txn t schema clauses filter =>
      obtain ⟨trx, active, rfl⟩ := proper
      exact tidy.statement active (.update t schema clauses filter)
  | select txn t filter => exact tidy.select txn t filter

theorem perform (tidy : s.Tidy pages tableOf) {command : Command} (proper : command.Proper s) :
    ∃ pages' tableOf', (command.perform s).Tidy pages' tableOf' := by
  obtain ⟨pages', tableOf', kept⟩ := tidy.toSecure.perform proper
  obtain ⟨held, swaps⟩ := tidy.swaps proper
  exact ⟨pages', tableOf', kept.toSecure, swaps.unborn tidy.unborn⟩

end Tidy

/-- The states that clients can lead an empty database to, in a process that has pinned no
    page before there is one. -/
def Running (s : Database) : Prop :=
  ∃ start : Database, start.Fresh ∧ start.Unborn ∧ Interleaving (fun _ => True) start s

theorem Running.tidy (running : s.Running) : ∃ pages tableOf, s.Tidy pages tableOf := by
  obtain ⟨start, fresh, unborn, run⟩ := running
  induction run with
  | refl => exact ⟨_, _, fresh.secure, unborn⟩
  | perform command _ _ proper ih =>
      obtain ⟨pages, tableOf, tidy⟩ := ih
      exact tidy.perform proper

end Database

/-- Clients begin transactions and run statements, each with the end of its transaction, and
    no statement is one that leaves a page pinned. -/
inductive Session (s : Database) : Database → Prop
  | start : Session s s
  | begin {u : Database} : Session s u → Session s (Command.begin.perform u)
  | execute {u : Database} {trx : Nat} (statement : Statement) : Session s u →
      trx ∈ u.txnManager.activeTxns → ¬ statement.Leaks u trx →
      Session s ((executeSQL trx statement).run u).2

theorem Database.Running.executeSQL (running : s.Running)
    (active : trx ∈ s.txnManager.activeTxns) (statement : Statement) :
    ((YourSQL.executeSQL trx statement).run s).2.Running := by
  obtain ⟨pages, tableOf, tidy⟩ := running.tidy
  obtain ⟨start, fresh, unborn, run⟩ := running
  obtain ⟨command, kind, same⟩ := tidy.toSecure.run_executeSQL active statement
  refine ⟨start, fresh, unborn, ?_⟩
  have proper : (statement.command trx).Proper s := by
    cases statement <;> exact ⟨trx, active, rfl⟩
  have ran := run.perform (statement.command trx) trivial proper
  rw [same, statement.run_execute]
  rcases kind with rfl | rfl
  · exact ran.perform (.commit trx) trivial trivial
  · exact ran.perform (.abort trx) trivial trivial

/-- A table without rows, and transaction 1 under way. -/
def begunOnTable : Database := Command.begin.perform oneTable

theorem begunOnTable_running : begunOnTable.Running := by
  refine ⟨oneTable, oneTable_fresh, ?_, Interleaving.refl.perform .begin trivial trivial⟩
  intro p above
  have inner : p ≠ META_PAGE_ID := (Nat.lt_of_lt_of_le oneTable_fresh.nextPageId above).ne'
  exact if_neg inner

end YourSQL
