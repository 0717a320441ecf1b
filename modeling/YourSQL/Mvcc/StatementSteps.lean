import YourSQL.Mvcc.UpdateRun
import YourSQL.Mvcc.VersionWalk
import YourSQL.Mvcc.WorkedRows

/-! # Statements as steps on rows

Whatever the records stand for, whether the new versions fit and whether the statement
returns: what it does to the store of versions is a sequence of steps on single rows, none
of which goes over a record that the statement must leave alone.
-/

namespace YourSQL

open Mvcc (Free Guarded ManagerInv Step Steps VersionStore)
open ExecutorUpdate (Hit SetClause updateHit)

variable {s u u' : Database} {pages : Nat → List Nat} {tableOf : Nat → Nat} {trx t : Nat}
  {filter : Option Filter} {m : VersionStore}

/-- A record that DELETE or UPDATE takes is free: nobody sees the writes of a transaction
    under way but itself. -/
theorem Database.free_of_isTarget (inv : ManagerInv s.txnManager s.journal)
    (active : trx ∈ s.txnManager.activeTxns) {record : Record}
    (taken : s.isTarget (some trx) filter record = .ok true) :
    Free (s.versions tableOf) trx record := by
  unfold isTarget at taken
  cases deleted : record.isDel with
  | true =>
      rw [deleted, Bool.true_or, if_pos rfl] at taken
      cases taken
  | false =>
      have visible : s.isVisibleTo (some trx) record.trxId = true := by
        cases visible : s.isVisibleTo (some trx) record.trxId with
        | false =>
            rw [visible, Bool.not_false, Bool.or_true, if_pos rfl] at taken
            cases taken
        | true => rfl
      refine ⟨deleted, fun writing => ?_, fun positive => ?_⟩
      · rw [isVisibleTo_eq inv active (.inl writing), Mvcc.seenBy_iff] at visible
        refine visible.resolve_right fun inside => ?_
        exact inv.not_committed_of_active writing (Mvcc.mem_committedOf_of_snapshotOf inside)
      · rw [← Bool.not_eq_true]
        intro aborted
        rw [isVisibleTo_of_aborted inv active positive aborted] at visible
        cases visible

theorem ReadView.isVisible_congr {m m' : TransactionManager} (txnState : m'.txnState = m.txnState)
    (view : ReadView) (writer : Nat) :
    view.isVisible (some m') writer = view.isVisible (some m) writer := by
  have aborted : (some m').any (fun m => m.isAborted writer) =
      (some m).any fun m => m.isAborted writer := by
    simp [TransactionManager.isAborted, txnState]
  have committed : m'.isCommitted writer = m.isCommitted writer := by
    simp [TransactionManager.isCommitted, txnState]
  unfold isVisible
  rw [aborted]
  dsimp only
  rw [committed]

/-- Which records DELETE and UPDATE take depends on states and read views only. -/
theorem Database.isTarget_congr (txnState : u.txnManager.txnState = s.txnManager.txnState)
    (readView : ∀ v, (u.txnManager.transaction v).readView = (s.txnManager.transaction v).readView)
    (txn : Option Nat) (filter : Option Filter) : u.isTarget txn filter = s.isTarget txn filter := by
  have visible : ∀ writer, u.isVisibleTo txn writer = s.isVisibleTo txn writer := by
    intro writer
    cases txn with
    | none => rfl
    | some trx =>
        have same : ∀ view : ReadView, view.isVisible (some u.txnManager) writer =
            view.isVisible (some s.txnManager) writer := fun view => view.isVisible_congr txnState writer
        simp only [isVisibleTo, readView, same]
  have state : ∀ writer, u.txnManager.getState writer = s.txnManager.getState writer :=
    congrFun txnState
  funext record
  unfold isTarget
  rw [visible, state]

/-- A statement that started at `m` has come here. -/
structure Database.Reaches (m : VersionStore) (trx : Nat) (pages : Nat → List Nat)
    (tableOf : Nat → Nat) (u : Database) : Prop where
  sound : u.Sound pages tableOf
  steps : Steps trx m (u.versions tableOf)

/-- Whatever the pages are by now. -/
def Database.Ends (m : VersionStore) (trx : Nat) (u : Database) : Prop :=
  ∃ pages tableOf, u.Reaches m trx pages tableOf

/-! ## Rows one after the other -/

/-- The rows of a table that a loop has come past, and the page that it keeps pinned. -/
structure Passing (s : Database) (pages : Nat → List Nat) (t : Nat) (fails : Record → Prop)
    (it : TableIterator) (left : List RID) (u : Database) : Prop where
  swaps : s.Unborn → s.Swaps [] u it.held
  passed : ∃ done, s.addresses (pages t) = done ++ left ∧
    ∀ rid ∈ done, ∀ record, s.tupleAt rid = some record → ¬ fails record

/-- The loop has stopped at the first row that raises an exception. -/
structure StoppedAt (s : Database) (pages : Nat → List Nat) (t : Nat) (fails : Record → Prop)
    (rid : RID) (rest : List RID) (held : List Nat) (u : Database) : Prop where
  swaps : s.Unborn → s.Swaps [] u held
  passed : ∃ done, s.addresses (pages t) = done ++ rid :: rest ∧
    ∀ rid ∈ done, ∀ record, s.tupleAt rid = some record → ¬ fails record
  fails : ∃ record, s.tupleAt rid = some record ∧ fails record

namespace Passing

variable {fails : Record → Prop} {it it' : TableIterator} {rid : RID} {rest : List RID}
  {record : Record}

theorem start (swaps : s.Swaps [] u it.held) : Passing s pages t fails it (s.addresses (pages t)) u where
  swaps _ := swaps
  passed := ⟨[], rfl, by simp⟩

theorem next (passing : Passing s pages t fails it (rid :: rest) u)
    (found : s.tupleAt rid = some record) (passes : ¬ fails record)
    (swaps : u.Unborn → u.Swaps it.held u' it'.held) : Passing s pages t fails it' rest u' where
  swaps unborn :=
    have before := passing.swaps unborn
    before.trans (swaps (before.unborn unborn))
  passed := by
    obtain ⟨done, split, clean⟩ := passing.passed
    refine ⟨done ++ [rid], by simp [split], ?_⟩
    intro other member record' found'
    rcases List.mem_append.mp member with earlier | last
    · exact clean other earlier record' found'
    · obtain rfl := List.mem_singleton.mp last
      obtain rfl := Option.some.inj (found.symm.trans found')
      exact passes

theorem stop (passing : Passing s pages t fails it (rid :: rest) u)
    (found : s.tupleAt rid = some record) (raises : fails record) {held : List Nat}
    (swaps : u.Unborn → u.Swaps it.held u' held) : StoppedAt s pages t fails rid rest held u' where
  swaps unborn :=
    have before := passing.swaps unborn
    before.trans (swaps (before.unborn unborn))
  passed := passing.passed
  fails := ⟨record, found, raises⟩

end Passing

/-! ## SELECT -/

/-- The pages are laid out as they were, and what is in them is the same. -/
structure Database.Scans (s : Database) (pages : Nat → List Nat) (tableOf : Nat → Nat)
    (u : Database) : Prop where
  pool : s.PoolOnly u
  sound : u.Sound pages tableOf

theorem Database.Scans.tupleAt {rid : RID} {record : Record} (scans : s.Scans pages tableOf u)
    (stored : (u.versions tableOf).slot rid = some ⟨t, record⟩) : s.tupleAt rid = some record := by
  rw [scans.pool.versions] at stored
  exact tupleAt_of_slot stored

/-- Reading this record raises an exception. -/
def Database.ReadFails (s : Database) (txn : Option Nat) (filter : Option Filter)
    (record : Record) : Prop := ∃ message, s.reads txn filter record = .error message

/-- The rows that a scan shows of the records at some addresses. -/
def Database.shownAt (s : Database) (txn : Option Nat) (filter : Option Filter)
    (rids : List RID) : List Record :=
  rids.filterMap fun rid => (s.tupleAt rid).bind fun record =>
    match s.reads txn filter record with
    | .ok shown => shown
    | .error _ => none

theorem Database.shownAt_singleton {txn : Option Nat} {rid : RID} {record : Record}
    (found : s.tupleAt rid = some record) {shown : Option Record}
    (read : s.reads txn filter record = .ok shown) :
    s.shownAt txn filter [rid] = shown.toList := by
  rw [shownAt, List.filterMap_cons, found, Option.bind_some, read]
  cases shown <;> rfl

/-- The iterator has moved on before a record is read. -/
theorem wp_scanRound_pool (txn : Option Nat) {it : TableIterator} {rid : RID} {rest : List RID}
    {rows : List Record} (stands : it.Stands u pages tableOf t (rid :: rest))
    (scans : s.Scans pages tableOf u)
    (passing : Passing s pages t (s.ReadFails txn filter) it (rid :: rest) u) :
    (ExecutorSeqScan.round txn filter it rows).wp
      (fun next u' => next.1.Stands u' pages tableOf t rest ∧ s.Scans pages tableOf u' ∧
        Passing s pages t (s.ReadFails txn filter) next.1 rest u' ∧
        next.2 = rows ++ s.shownAt txn filter [rid])
      (fun _ u' => s.Scans pages tableOf u' ∧ ∃ held, (held = [] ↔ rest = []) ∧
        StoppedAt s pages t (s.ReadFails txn filter) rid rest held u') u := by
  obtain ⟨record, current, stored⟩ := stands.run_current scans.sound
  obtain ⟨it', u₁, advanced, stands₁, pool₁, sound₁, swaps₁⟩ := stands.run_advance scans.sound
  have found := scans.tupleAt stored
  have files := visibleVersion_files txn record u₁
  have congr := visibleVersion_congr (scans.pool.trans pool₁) txn record
  generalize ran : (ExecutorSeqScan.visibleVersion txn record).run u₁ = result at files congr
  obtain ⟨shown, u₂⟩ := result
  have stands₂ := stands₁.pool files.1 files.2
  have scans₂ : s.Scans pages tableOf u₂ :=
    { pool := (scans.pool.trans pool₁).trans files.1
      sound := files.1.sound sound₁ (files.2 ▸ sound₁.consistent.pinned) }
  have swaps : u.Swaps it.held u₂ it'.held :=
    swaps₁.trans (.of_pins files.2 (le_of_eq files.1.nextPageId.symm) files.1.copies _)
  have next : ∀ {shown : Option Record} {rows' : List Record},
      s.reads txn filter record = .ok shown → rows' = rows ++ shown.toList →
      s.Scans pages tableOf u₂ ∧ Passing s pages t (s.ReadFails txn filter) it' rest u₂ ∧
        rows' = rows ++ s.shownAt txn filter [rid] := by
    rintro shown rows' read rfl
    refine ⟨scans₂, ?_, by rw [Database.shownAt_singleton found read]⟩
    apply passing.next found _ fun _ => swaps
    rintro ⟨message, raised⟩
    rw [read] at raised
    cases raised
  have stop : (∃ message, s.reads txn filter record = .error message) →
      s.Scans pages tableOf u₂ ∧ ∃ held, (held = [] ↔ rest = []) ∧
        StoppedAt s pages t (s.ReadFails txn filter) rid rest held u₂ := fun raised =>
    ⟨scans₂, it'.held, stands₂.held_eq_nil_iff, passing.stop found raised fun _ => swaps⟩
  unfold ExecutorSeqScan.round
  rw [Program.wp_bind, Program.wp_of_ok current]
  dsimp only
  rw [Program.wp_bind, Program.wp_of_ok advanced, Program.wp_bind]
  cases shown with
  | error message =>
      rw [Program.wp_of_error ran]
      exact stop ⟨message, Database.reads_of_error congr.symm⟩
  | ok shown =>
      rw [Program.wp_of_ok ran]
      cases shown with
      | none =>
          exact ⟨stands₂, next (Database.reads_of_none congr.symm) (List.append_nil _).symm⟩
      | some version =>
          have reads : s.reads txn filter record =
              (do return if ← passes filter version.payload then some version else none) :=
            Database.reads_of_some congr.symm
          cases filter with
          | none =>
              have read : s.reads txn none record = .ok (some version) := reads
              exact ⟨stands₂, next read rfl⟩
          | some filter =>
              dsimp only
              rw [Program.wp_bind]
              cases computed : filter version.payload with
              | error message =>
                  apply stop
                  refine ⟨message, reads.trans ?_⟩
                  simp [passes, computed, bind, Except.bind]
              | ok value =>
                  rw [Program.wp_of_ok (Program.run_lift (.ok value) u₂), Program.wp_bind]
                  cases decision : value.getBool with
                  | error message =>
                      apply stop
                      refine ⟨message, reads.trans ?_⟩
                      simp [passes, computed, decision, bind, Except.bind]
                  | ok isMatch =>
                      have read : s.reads txn (some filter) record =
                          .ok (if isMatch then some version else none) := by
                        refine reads.trans ?_
                        simp [passes, computed, decision, bind, Except.bind, pure, Except.pure]
                      rw [Program.wp_of_ok (Program.run_lift (.ok isMatch) u₂)]
                      cases isMatch with
                      | true => exact ⟨stands₂, next read rfl⟩
                      | false => exact ⟨stands₂, next read (List.append_nil _).symm⟩

/-- SELECT passes all rows of the table, or stops at one that raises an exception. -/
theorem wp_select_pool (start : s.Sound pages tableOf) (txn : Option Nat) (t : Nat)
    (filter : Option Filter) :
    (ExecutorSeqScan.select txn t filter).wp
      (fun rows u => s.Scans pages tableOf u ∧
        rows = s.shownAt txn filter (s.addresses (pages t)) ∧
        ∃ it : TableIterator, it.isEnd = true ∧
          Passing s pages t (s.ReadFails txn filter) it [] u)
      (fun _ u => s.Scans pages tableOf u ∧ (s.items t = none ∧ u = s ∨
        ∃ rid rest held, (held = [] ↔ rest = []) ∧
          StoppedAt s pages t (s.ReadFails txn filter) rid rest held u)) s := by
  unfold ExecutorSeqScan.select
  rw [Program.wp_bind]
  cases entry : s.items t with
  | none =>
      rw [Program.wp_of_error (TableIterator.run_create_of_none entry)]
      exact ⟨⟨.refl s, start⟩, .inl ⟨rfl, rfl⟩⟩
  | some item =>
      obtain ⟨it, s₁, created, stands, pool, sound₁, swaps⟩ := TableIterator.run_create start entry
      rw [Program.wp_of_ok created, Program.wp_bind, Program.wp_get]
      have enough : (s.addresses (pages t)).length ≤ s₁.slotCount := by
        rw [← Database.addresses_congr pool.rowCount]
        exact (sound₁.bounds t).2
      apply (@TableIterator.wp_loop _ pages tableOf t (List Record) _
        (fun it left rows u => s.Scans pages tableOf u ∧
          Passing s pages t (s.ReadFails txn filter) it left u ∧
          s.shownAt txn filter (s.addresses (pages t)) = rows ++ s.shownAt txn filter left) _ _ _ _
        enough _ _ stands ⟨⟨pool, sound₁⟩, .start swaps, rfl⟩).mono
      · rintro rows u ⟨it, ended, scans, passing, split⟩
        exact ⟨scans, (split.trans (List.append_nil rows)).symm, it, ended, passing⟩
      · exact fun _ _ raises => raises
      · rintro it rid rest acc u stands ⟨scans, passing, split⟩
        apply (wp_scanRound_pool txn stands scans passing).mono
        · rintro next u' ⟨stands', scans', passing', more⟩
          refine ⟨stands', scans', passing', split.trans ?_⟩
          rw [more, List.append_assoc, Database.shownAt, Database.shownAt, Database.shownAt,
            ← List.filterMap_append, List.singleton_append]
        · rintro _ u' ⟨scans', held, iff, stopped⟩
          exact ⟨scans', .inr ⟨rid, rest, held, iff, stopped⟩⟩

theorem select_pool (start : s.Sound pages tableOf) (txn : Option Nat) (t : Nat)
    (filter : Option Filter) :
    s.Scans pages tableOf ((ExecutorSeqScan.select txn t filter).run s).2 := by
  apply Program.wp.state
  apply (wp_select_pool start txn t filter).mono
  · exact fun _ _ holds => holds.1
  · exact fun _ _ holds => holds.1

/-! ## DELETE -/

namespace Database.Reaches

theorem pool (reaches : u.Reaches m trx pages tableOf) (pool : u.PoolOnly u')
    (sound : u'.Sound pages tableOf) : u'.Reaches m trx pages tableOf where
  sound := sound
  steps := pool.versions tableOf ▸ reaches.steps

theorem guarded (reaches : u.Reaches m trx pages tableOf) (guarded : Guarded m)
    (active : trx ∈ m.manager.activeTxns) :
    Guarded (u.versions tableOf) ∧ trx ∈ u.txnManager.activeTxns :=
  ⟨reaches.steps.guarded guarded active, reaches.steps.spares.activeTxns.symm ▸ active⟩

/-- The record is saved, and then marked deleted. -/
theorem delete {rid : RID} {old : Record} {pointer : UndoPointer} {type : WriteType}
    (reaches : u.Reaches m trx pages tableOf)
    (stored : (u.versions tableOf).slot rid = some ⟨t, old⟩)
    (free : Free (u.versions tableOf) trx old) (next : pointer.IsNext (u.versions tableOf).undo)
    (deletes : type.inserts = false) :
    Steps trx m (((u.versions tableOf).save pointer old).deletion trx t rid old pointer type) := by
  have saved : Step trx (u.versions tableOf) ((u.versions tableOf).save pointer old) :=
    .save stored free next
  have deleted : Step trx ((u.versions tableOf).save pointer old)
      (((u.versions tableOf).save pointer old).deletion trx t rid old pointer type) :=
    .delete stored (free.congr rfl rfl) (VersionStore.undo_save_self ..) deletes
  exact (reaches.steps.tail saved).tail deleted

end Database.Reaches

/-- DELETE takes this record and has no place for it in the undo log, or cannot decide. -/
def Database.DeleteFails (s : Database) (trx : Nat) (filter : Option Filter) (record : Record) :
    Prop :=
  (∃ message, s.isTarget (some trx) filter record = .error message) ∨
    s.isTarget (some trx) filter record = .ok true ∧ ¬ record.size ≤ UNDO_CAPACITY

/-- While a DELETE goes through the table. The rows in front are as they were. -/
structure DeleteRun (s : Database) (pages : Nat → List Nat) (tableOf : Nat → Nat) (trx t : Nat)
    (filter : Option Filter) (it : TableIterator) (left : List RID) (u : Database) : Prop where
  reaches : u.Reaches (s.versions tableOf) trx pages tableOf
  passing : Passing s pages t (s.DeleteFails trx filter) it left u
  ahead : ∀ rid ∈ left, (u.versions tableOf).slot rid = (s.versions tableOf).slot rid
  distinct : left.Nodup

namespace Database.Reaches

theorem isTarget (reaches : u.Reaches (s.versions tableOf) trx pages tableOf) (txn : Option Nat)
    (filter : Option Filter) : u.isTarget txn filter = s.isTarget txn filter :=
  isTarget_congr reaches.steps.spares.txnState reaches.steps.spares.readView txn filter

end Database.Reaches

theorem wp_deleteRound_steps {it : TableIterator} {rid : RID} {rest : List RID} {deleted : Nat}
    (guarded : Guarded (s.versions tableOf)) (active : trx ∈ s.txnManager.activeTxns)
    (stands : it.Stands u pages tableOf t (rid :: rest))
    (deleting : DeleteRun s pages tableOf trx t filter it (rid :: rest) u) :
    (ExecutorDelete.round (some trx) filter it deleted).wp
      (fun next u' => next.1.Stands u' pages tableOf t rest ∧
        DeleteRun s pages tableOf trx t filter next.1 rest u')
      (fun _ u' => u'.Reaches (s.versions tableOf) trx pages tableOf ∧ ∃ p,
        StoppedAt s pages t (s.DeleteFails trx filter) rid rest [p] u') u := by
  obtain ⟨reaches, passing, ahead, distinct⟩ := deleting
  obtain ⟨record, current, stored⟩ := stands.run_current reaches.sound
  obtain ⟨guarded', active'⟩ := reaches.guarded guarded active
  obtain ⟨after, holds, -, -, -, here, -⟩ := stands.cons_inv
  have found : s.tupleAt rid = some record := by
    rw [ahead rid (List.mem_cons_self ..)] at stored
    exact Database.tupleAt_of_slot stored
  have held : it.held = [it.currentPageId] := TableIterator.held_of_running holds.running
  rw [List.nodup_cons] at distinct
  -- the record raises an exception, and the iterator is still on its page
  have stop : ∀ {u'}, u'.Reaches (s.versions tableOf) trx pages tableOf →
      s.DeleteFails trx filter record → (u.Unborn → u.Swaps it.held u' it.held) →
      u'.Reaches (s.versions tableOf) trx pages tableOf ∧ ∃ p,
        StoppedAt s pages t (s.DeleteFails trx filter) rid rest [p] u' := by
    intro u' reaches' raised swaps
    rw [held] at swaps
    exact ⟨reaches', it.currentPageId, passing.stop found raised (held ▸ swaps)⟩
  have target := congrFun (reaches.isTarget (some trx) filter) record
  unfold ExecutorDelete.round
  rw [Program.wp_bind, Program.wp_of_ok current]
  dsimp only
  rw [Program.wp_bind, Program.wp_get, Program.wp_bind]
  cases decision : u.isTarget (some trx) filter record with
  | error message =>
      exact stop reaches (.inl ⟨message, target.symm.trans decision⟩) fun _ => .refl u _
  | ok isTaken =>
      rw [Program.wp_of_ok (Program.run_lift (.ok isTaken) u)]
      cases isTaken with
      | false =>
          obtain ⟨it', u', advanced, stands', pool, sound', swaps⟩ :=
            stands.run_advance reaches.sound
          have passes : ¬ s.DeleteFails trx filter record := by
            simp [Database.DeleteFails, ← target, decision]
          rw [if_neg Bool.false_ne_true, Program.wp_bind, Program.wp_of_ok advanced,
            Program.wp_pure]
          refine ⟨stands', reaches.pool pool sound', passing.next found passes fun _ => swaps, ?_,
            distinct.2⟩
          intro other later
          rw [pool.versions]
          exact ahead other (List.mem_cons_of_mem _ later)
      | true =>
          have free : Free (u.versions tableOf) trx record :=
            Database.free_of_isTarget guarded'.manager active' decision
          obtain ⟨u₁, sound₁, swaps₁, ran⟩ := run_deleteRecord reaches.sound holds.sees
            (holds.pageId.trans (here ▸ rfl)) stored free.alive (holds.pageId ▸ holds.pinned) trx
          rw [if_pos rfl, Program.wp_bind]
          by_cases small : record.size ≤ UNDO_CAPACITY
          · rw [if_pos small] at ran
            obtain ⟨tp', pointer, done, -, next, versions, sees, pageId, pinned⟩ := ran
            have reaches₁ : u₁.Reaches (s.versions tableOf) trx pages tableOf :=
              ⟨sound₁, versions ▸ reaches.delete stored free next rfl⟩
            have rowCount : u₁.rowCount = u.rowCount := by
              apply @Database.rowCount_congr u u₁ tableOf
              intro other
              change ((u₁.versions tableOf).slot other).isSome = ((u.versions tableOf).slot other).isSome
              rw [versions, VersionStore.slot_deletion]
              split
              · rename_i same
                rw [same, stored]
                rfl
              · rfl
            have stands₁ := stands.congr sees pageId pinned rowCount
            obtain ⟨it', u', advanced, stands', pool, sound', swaps'⟩ := stands₁.run_advance sound₁
            have passes : ¬ s.DeleteFails trx filter record := by
              simp [Database.DeleteFails, ← target, decision, small]
            rw [← here, Program.wp_of_ok done, Program.wp_bind, Program.wp_of_ok advanced,
              Program.wp_pure]
            refine ⟨stands', reaches₁.pool pool sound',
              passing.next found passes fun unborn => (swaps₁ it.held unborn).trans swaps', ?_,
              distinct.2⟩
            intro other later
            have apart : other ≠ rid := fun same => distinct.1 (same ▸ later)
            rw [pool.versions, versions, VersionStore.slot_deletion, if_neg apart]
            exact ahead other (List.mem_cons_of_mem _ later)
          · rw [if_neg small] at ran
            obtain ⟨failed, same⟩ := ran
            rw [← here, Program.wp_of_error failed]
            exact stop ⟨sound₁, same ▸ reaches.steps⟩
              (.inr ⟨target.symm.trans decision, small⟩) (swaps₁ it.held)

/-- DELETE passes all rows of the table, or stops at one that raises an exception. -/
theorem wp_delete_steps (start : s.Sound pages tableOf) (guarded : Guarded (s.versions tableOf))
    (active : trx ∈ s.txnManager.activeTxns) (t : Nat) (filter : Option Filter) :
    (ExecutorDelete.delete (some trx) t filter).wp
      (fun _ u => ∃ it : TableIterator, it.isEnd = true ∧
        DeleteRun s pages tableOf trx t filter it [] u)
      (fun _ u => u.Reaches (s.versions tableOf) trx pages tableOf ∧ (s.items t = none ∧ u = s ∨
        ∃ rid rest p, StoppedAt s pages t (s.DeleteFails trx filter) rid rest [p] u)) s := by
  unfold ExecutorDelete.delete
  rw [Program.wp_bind]
  cases entry : s.items t with
  | none =>
      rw [Program.wp_of_error (TableIterator.run_create_of_none entry)]
      exact ⟨⟨start, .refl⟩, .inl ⟨rfl, rfl⟩⟩
  | some item =>
      obtain ⟨it, s₁, created, stands, pool, sound₁, swaps⟩ := TableIterator.run_create start entry
      rw [Program.wp_of_ok created, Program.wp_bind, Program.wp_get]
      have enough : (s.addresses (pages t)).length ≤ s₁.slotCount := by
        rw [← Database.addresses_congr pool.rowCount]
        exact (sound₁.bounds t).2
      have begun : DeleteRun s pages tableOf trx t filter it (s.addresses (pages t)) s₁ :=
        { reaches := ⟨sound₁, pool.versions tableOf ▸ .refl⟩
          passing := .start swaps
          ahead := fun rid _ => by rw [pool.versions]
          distinct := start.nodup_addresses t }
      apply (@TableIterator.wp_loop _ pages tableOf t Nat _
        (fun it left _ u => DeleteRun s pages tableOf trx t filter it left u) _ _ _ _ enough _ _
        stands begun).mono
      · exact fun _ _ deleted => deleted
      · exact fun _ _ raises => raises
      · intro it rid rest acc u stands deleting
        apply (wp_deleteRound_steps guarded active stands deleting).mono
        · exact fun _ _ holds => holds
        · rintro _ u' ⟨reaches, p, stopped⟩
          exact ⟨reaches, .inr ⟨rid, rest, p, stopped⟩⟩

theorem delete_steps (start : s.Sound pages tableOf) (guarded : Guarded (s.versions tableOf))
    (active : trx ∈ s.txnManager.activeTxns) (t : Nat) (filter : Option Filter) :
    ((ExecutorDelete.delete (some trx) t filter).run s).2.Ends (s.versions tableOf) trx := by
  refine ⟨pages, tableOf, ?_⟩
  apply Program.wp.state
  apply (wp_delete_steps start guarded active t filter).mono
  · rintro _ u ⟨it, -, deleting⟩
    exact deleting.reaches
  · exact fun _ _ holds => holds.1

/-! ## UPDATE -/

/-- A row that is to be updated is stored as it was found, and free. -/
def Database.Awaits (u : Database) (tableOf : Nat → Nat) (trx t : Nat) (hit : Hit) : Prop :=
  (u.versions tableOf).slot hit.rid = some ⟨t, hit.old⟩ ∧ Free (u.versions tableOf) trx hit.old

variable {schema : List ColumnTypes} {clauses : List SetClause}

/-- UPDATE takes this record and cannot read it, or cannot decide. -/
def Database.GatherFails (s : Database) (trx : Nat) (schema : List ColumnTypes)
    (filter : Option Filter) (record : Record) : Prop :=
  (∃ message, s.isTarget (some trx) filter record = .error message) ∨
    s.isTarget (some trx) filter record = .ok true ∧
      ∃ message, Row.deserialize schema record.payload = .error message

/-- What UPDATE keeps of a record. -/
def Database.hitAt (s : Database) (trx : Nat) (schema : List ColumnTypes) (clauses : List SetClause)
    (filter : Option Filter) (rid : RID) (record : Record) : Option Hit :=
  match s.isTarget (some trx) filter record, Row.deserialize schema record.payload with
  | .ok true, .ok values => some ⟨rid, record, ExecutorUpdate.applySet clauses values⟩
  | _, _ => none

/-- The rows that UPDATE finds at some addresses. -/
def Database.hitsAt (s : Database) (trx : Nat) (schema : List ColumnTypes)
    (clauses : List SetClause) (filter : Option Filter) (rids : List RID) : List Hit :=
  rids.filterMap fun rid => (s.tupleAt rid).bind (s.hitAt trx schema clauses filter rid)

theorem Database.rids_hitsAt (s : Database) (rids : List RID) :
    ((s.hitsAt trx schema clauses filter rids).map Hit.rid).Sublist rids := by
  induction rids with
  | nil => exact .refl _
  | cons rid rids ih =>
      rw [hitsAt, List.filterMap_cons]
      cases found : (s.tupleAt rid).bind (s.hitAt trx schema clauses filter rid) with
      | none => exact ih.cons rid
      | some hit =>
          obtain ⟨record, -, taken⟩ := Option.bind_eq_some_iff.mp found
          have here : hit.rid = rid := by
            unfold hitAt at taken
            split at taken
            · cases taken
              rfl
            · cases taken
          rw [List.map_cons, here]
          exact ih.cons_cons rid

/-- While the rows to be updated are collected, whatever there is in the table. -/
structure Gathering (s : Database) (pages : Nat → List Nat) (tableOf : Nat → Nat) (trx t : Nat)
    (schema : List ColumnTypes) (clauses : List SetClause) (filter : Option Filter)
    (it : TableIterator) (left : List RID) (hits : List Hit) (u : Database) : Prop where
  scans : s.Scans pages tableOf u
  passing : Passing s pages t (s.GatherFails trx schema filter) it left u
  done : ∃ done, s.addresses (pages t) = done ++ left ∧
    hits = s.hitsAt trx schema clauses filter done
  awaits : ∀ hit ∈ hits, s.Awaits tableOf trx t hit

theorem Gathering.next {it it' : TableIterator} {rid : RID} {rest : List RID} {record : Record}
    {hits : List Hit} (gathering : Gathering s pages tableOf trx t schema clauses filter it
      (rid :: rest) hits u) (found : s.tupleAt rid = some record)
    (passes : ¬ s.GatherFails trx schema filter record) (scans : s.Scans pages tableOf u')
    (swaps : u.Swaps it.held u' it'.held)
    (awaits : ∀ hit, s.hitAt trx schema clauses filter rid record = some hit →
      s.Awaits tableOf trx t hit) :
    Gathering s pages tableOf trx t schema clauses filter it' rest
      (hits ++ (s.hitAt trx schema clauses filter rid record).toList) u' where
  scans := scans
  passing := gathering.passing.next found passes fun _ => swaps
  done := by
    obtain ⟨done, split, rfl⟩ := gathering.done
    refine ⟨done ++ [rid], by simp [split], ?_⟩
    rw [Database.hitsAt, Database.hitsAt, List.filterMap_append]
    congr 1
    cases taken : s.hitAt trx schema clauses filter rid record <;> simp [found, taken]
  awaits hit member := by
    rcases List.mem_append.mp member with earlier | last
    · exact gathering.awaits hit earlier
    · exact awaits hit (Option.mem_toList.mp last)

theorem wp_gatherRound {it : TableIterator} {rid : RID} {rest : List RID} {hits : List Hit}
    (inv : ManagerInv s.txnManager s.journal) (active : trx ∈ s.txnManager.activeTxns)
    (stands : it.Stands u pages tableOf t (rid :: rest))
    (gathering : Gathering s pages tableOf trx t schema clauses filter it (rid :: rest) hits u) :
    (ExecutorUpdate.round (some trx) schema clauses filter it hits).wp
      (fun next u' => next.1.Stands u' pages tableOf t rest ∧
        Gathering s pages tableOf trx t schema clauses filter next.1 rest next.2 u')
      (fun _ u' => s.Scans pages tableOf u' ∧ ∃ p,
        StoppedAt s pages t (s.GatherFails trx schema filter) rid rest [p] u') u := by
  obtain ⟨pool, sound⟩ := gathering.scans
  obtain ⟨record, current, stored⟩ := stands.run_current sound
  obtain ⟨it', u', advanced, stands', pool', sound', swaps⟩ := stands.run_advance sound
  obtain ⟨after, holds, -⟩ := stands.cons_inv
  have here := stands.cons_inv.choose_spec.2.2.2.2.1
  have found := gathering.scans.tupleAt stored
  have scans' : s.Scans pages tableOf u' := ⟨pool.trans pool', sound'⟩
  have target : u.isTarget (some trx) filter record = s.isTarget (some trx) filter record := by
    apply congrFun (Database.isTarget_congr _ _ (some trx) filter) record
    · rw [pool.txnManager]
    · exact fun v => by rw [pool.txnManager]
  -- the record raises an exception, and the iterator is still on its page
  have stop : s.GatherFails trx schema filter record → s.Scans pages tableOf u ∧ ∃ p,
      StoppedAt s pages t (s.GatherFails trx schema filter) rid rest [p] u := by
    intro raised
    refine ⟨gathering.scans, it.currentPageId, gathering.passing.stop found raised fun _ => ?_⟩
    rw [TableIterator.held_of_running holds.running]
    exact .refl u _
  unfold ExecutorUpdate.round
  rw [Program.wp_bind, Program.wp_of_ok current]
  dsimp only
  rw [Program.wp_bind, Program.wp_get, Program.wp_bind, target]
  cases decision : s.isTarget (some trx) filter record with
  | error message => exact stop (.inl ⟨message, decision⟩)
  | ok isTaken =>
      rw [Program.wp_of_ok (Program.run_lift (.ok isTaken) u)]
      cases isTaken with
      | false =>
          have nothing : s.hitAt trx schema clauses filter rid record = none := by
            simp [Database.hitAt, decision]
          have next := gathering.next found (by simp [Database.GatherFails, decision]) scans' swaps
            (by simp [nothing])
          rw [nothing, Option.toList_none, List.append_nil] at next
          rw [if_neg Bool.false_ne_true, Program.wp_bind, Program.wp_of_ok advanced,
            Program.wp_pure]
          exact ⟨stands', next⟩
      | true =>
          rw [if_pos rfl, Program.wp_bind]
          cases read : Row.deserialize schema record.payload with
          | error message => exact stop (.inr ⟨decision, message, read⟩)
          | ok values =>
              have taken : s.hitAt trx schema clauses filter rid record =
                  some ⟨rid, record, ExecutorUpdate.applySet clauses values⟩ := by
                simp [Database.hitAt, decision, read]
              have free : Free (s.versions tableOf) trx record :=
                Database.free_of_isTarget inv active decision
              rw [pool.versions] at stored
              have next := gathering.next found (by simp [Database.GatherFails, decision, read])
                scans' swaps (by
                  intro hit same
                  obtain rfl := Option.some.inj (taken.symm.trans same)
                  exact ⟨stored, free⟩)
              rw [taken] at next
              rw [Program.wp_of_ok (Program.run_lift (.ok values) u), Program.wp_bind,
                Program.wp_of_ok advanced, Program.wp_pure]
              exact ⟨stands', here ▸ next⟩

namespace ExecutorUpdate.Hit

/-- Phase two comes to its end for this row. Whether the new version is stored is another
    matter. -/
def Returns (capacity : Option Nat) (schema : List ColumnTypes) (hit : Hit) : Prop :=
  hit.old.size ≤ UNDO_CAPACITY ∧ ∃ payload, Row.serialize schema hit.newValues = .ok payload ∧
    LogTakes capacity (tupleOf ⟨INVALID_TX_ID, .null, 0⟩ payload).size

/-- The log refuses the new version, when the page it was meant for is already open. -/
def Sticks (capacity : Option Nat) (schema : List ColumnTypes) (hit : Hit) : Prop :=
  hit.old.size ≤ UNDO_CAPACITY ∧ ∃ payload, Row.serialize schema hit.newValues = .ok payload ∧
    ¬ LogTakes capacity (tupleOf ⟨INVALID_TX_ID, .null, 0⟩ payload).size

end ExecutorUpdate.Hit

/-- How phase two ends for a row is known beforehand. -/
theorem ExecutorUpdate.HitEnds.returns {capacity : Option Nat} {m' : VersionStore} {hit : Hit}
    {result : Except String Unit} {held : List Nat}
    (ends : HitEnds capacity m trx t schema hit result m' held) :
    result = .ok ⟨⟩ ∧ hit.Returns capacity schema ∧ held = [] ∨
      (∃ message, result = .error message) ∧ ¬ hit.Returns capacity schema ∧
        (held = [] ↔ ¬ hit.Sticks capacity schema) := by
  cases ends with
  | refused large => exact .inr ⟨⟨_, rfl⟩, by simp [Hit.Returns, large], by simp [Hit.Sticks, large]⟩
  | unserialized isNext small failed =>
      exact .inr ⟨⟨_, rfl⟩, by simp [Hit.Returns, failed], by simp [Hit.Sticks, failed]⟩
  | @halfway pointer payload p isNext notNull small bytes large refuses =>
      refine .inr ⟨⟨_, rfl⟩, ?_, ?_⟩
      · rintro ⟨-, payload', bytes', takes⟩
        obtain rfl := Except.ok.inj (bytes.symm.trans bytes')
        exact refuses takes
      · have sticks : hit.Sticks capacity schema := ⟨small, payload, bytes, refuses⟩
        simp [sticks]
  | @lost pointer payload isNext notNull small bytes large takes noPlace =>
      exact .inl ⟨rfl, ⟨small, payload, bytes, takes⟩, rfl⟩
  | @done pointer payload new isNext notNull small bytes takes free placed =>
      exact .inl ⟨rfl, ⟨small, payload, bytes, takes⟩, rfl⟩

theorem Mvcc.Works.returns {capacity : Option Nat} {m' : VersionStore} {hits : List Hit}
    (works : Mvcc.Works capacity trx t schema m hits m') : ∀ hit ∈ hits, hit.Returns capacity schema := by
  induction works with
  | start => simp
  | next _ ends _ _ _ ih =>
      intro hit member
      rcases List.mem_append.mp member with earlier | last
      · exact ih hit earlier
      · obtain rfl := List.mem_singleton.mp last
        rcases ends.returns with ⟨-, returns, -⟩ | ⟨⟨_, raised⟩, -⟩
        · exact returns
        · cases raised

/-- While the hits are worked off, whether their new versions fit or not. -/
structure Rewriting (s : Database) (m : VersionStore) (trx t : Nat) (schema : List ColumnTypes)
    (hits left : List Hit) (u : Database) : Prop where
  works : ∃ pages tableOf done, hits = done ++ left ∧ u.Sound pages tableOf ∧
    Mvcc.Works s.logCapacity trx t schema m done (u.versions tableOf) ∧
    ∀ hit ∈ left, u.Awaits tableOf trx t hit
  known : (u.items t).isSome = true
  distinct : (left.map Hit.rid).Nodup
  capacity : u.Capacity s.logCapacity
  swaps : s.Unborn → s.Swaps [] u []

/-- Phase two has stopped at the first hit that raises an exception. -/
structure RewriteStopped (s : Database) (m : VersionStore) (trx t : Nat)
    (schema : List ColumnTypes) (hits : List Hit) (hit : Hit) (held : List Nat) (u : Database) :
    Prop where
  works : ∃ pages tableOf done rest m' message, hits = done ++ hit :: rest ∧
    u.Sound pages tableOf ∧ Mvcc.Works s.logCapacity trx t schema m done m' ∧
    m'.slot hit.rid = some ⟨t, hit.old⟩ ∧ Free m' trx hit.old ∧
    ExecutorUpdate.HitEnds s.logCapacity m' trx t schema hit (.error message) (u.versions tableOf)
      held
  swaps : s.Unborn → s.Swaps [] u held

namespace Rewriting

variable {hits left : List Hit}

theorem reached (rewriting : Rewriting s m trx t schema hits left u) :
    ∃ pages tableOf, u.Reaches m trx pages tableOf ∧ ∀ hit ∈ left, u.Awaits tableOf trx t hit := by
  obtain ⟨pages, tableOf, done, -, sound, works, awaits⟩ := rewriting.works
  exact ⟨pages, tableOf, ⟨sound, works.steps⟩, awaits⟩

theorem worked (rewriting : Rewriting s m trx t schema hits left u) :
    ∃ done, hits = done ++ left ∧ ∀ hit ∈ done, hit.Returns s.logCapacity schema := by
  obtain ⟨_, _, done, split, _, works, _⟩ := rewriting.works
  exact ⟨done, split, works.returns⟩

end Rewriting

namespace RewriteStopped

variable {hits : List Hit} {hit : Hit} {held : List Nat}

theorem reached (stopped : RewriteStopped s m trx t schema hits hit held u) : u.Ends m trx := by
  obtain ⟨pages, tableOf, done, rest, m', message, -, sound, works, stored, free, ends⟩ :=
    stopped.works
  exact ⟨pages, tableOf, sound, works.steps.trans (ends.steps stored free (u.slot_zero tableOf))⟩

theorem worked (stopped : RewriteStopped s m trx t schema hits hit held u) :
    ∃ done rest, hits = done ++ hit :: rest ∧ ∀ hit ∈ done, hit.Returns s.logCapacity schema := by
  obtain ⟨_, _, done, rest, _, _, split, _, works, _⟩ := stopped.works
  exact ⟨done, rest, split, works.returns⟩

theorem raised (stopped : RewriteStopped s m trx t schema hits hit held u) :
    ¬ hit.Returns s.logCapacity schema ∧ (held = [] ↔ ¬ hit.Sticks s.logCapacity schema) := by
  obtain ⟨_, _, _, _, _, message, _, _, _, _, _, ends⟩ := stopped.works
  rcases ends.returns with ⟨returned, -⟩ | ⟨-, raised⟩
  · cases returned
  · exact raised

end RewriteStopped

theorem wp_updateHit_steps {hit : Hit} {hits rest : List Hit}
    (rewriting : Rewriting s m trx t schema hits (hit :: rest) u) :
    (updateHit (some trx) t schema hit).wp (fun _ u' => Rewriting s m trx t schema hits rest u')
      (fun _ u' => ∃ held, RewriteStopped s m trx t schema hits hit held u') u := by
  obtain ⟨⟨pages, tableOf, done, split, sound, works, awaits⟩, -, distinct, capacity, swaps⟩ :=
    rewriting
  obtain ⟨stored, free⟩ := awaits hit (List.mem_cons_self ..)
  rw [List.map_cons, List.nodup_cons] at distinct
  obtain ⟨result, u', pages', tableOf', held, ran, sound', swaps', ends⟩ :=
    ExecutorUpdate.run_updateHit sound stored free.alive trx schema
  have capacity' : u'.Capacity s.logCapacity := by
    have kept := Database.Capacity.updateHit (some trx) t schema hit u capacity
    rwa [ran] at kept
  rw [capacity] at ends
  have swapped : s.Unborn → s.Swaps [] u' held := fun unborn =>
    (swaps unborn).trans (swaps' ((swaps unborn).unborn unborn))
  rcases ends.returns with ⟨rfl, -, rfl⟩ | ⟨⟨message, rfl⟩, -⟩
  · rw [Program.wp_of_ok ran]
    obtain ⟨record, stays⟩ := ends.stored stored
    refine
      { works := ⟨pages', tableOf', done ++ [hit], by simp [split], sound',
          works.next ends stored free (u'.slot_zero tableOf'), ?_⟩
        known := Option.isSome_iff_exists.mpr (sound'.exists_item stays)
        distinct := distinct.2
        capacity := capacity'
        swaps := swapped }
    intro other later
    obtain ⟨stored', free'⟩ := awaits other (List.mem_cons_of_mem _ later)
    have spares := (ends.steps stored free (u'.slot_zero tableOf')).spares
    have apart : other.rid ≠ hit.rid := fun same =>
      distinct.1 (List.mem_map.mpr ⟨other, later, same⟩)
    exact ⟨ends.slot_of_ne stored' apart, free'.congr spares.activeTxns spares.txnState⟩
  · rw [Program.wp_of_error ran]
    exact ⟨held, ⟨pages', tableOf', done, rest, _, message, split, sound', works, stored, free, ends⟩,
      swapped⟩

theorem wp_updateHits {hits left : List Hit}
    (rewriting : Rewriting s m trx t schema hits left u) :
    (left.forM (updateHit (some trx) t schema)).wp
      (fun _ u' => Rewriting s m trx t schema hits [] u')
      (fun _ u' => ∃ hit held, RewriteStopped s m trx t schema hits hit held u') u := by
  apply Program.wp_forM _ left rewriting
  intro hit rest u rewriting
  apply (wp_updateHit_steps rewriting).mono
  · exact fun _ _ holds => holds
  · exact fun _ _ stopped => ⟨hit, stopped⟩

/-- No row raises an exception in a loop over the table. -/
def Database.Clean (s : Database) (pages : Nat → List Nat) (t : Nat) (fails : Record → Prop) : Prop :=
  ∀ rid ∈ s.addresses (pages t), ∀ record, s.tupleAt rid = some record → ¬ fails record

theorem Passing.clean {fails : Record → Prop} {it : TableIterator}
    (passing : Passing s pages t fails it [] u) : s.Clean pages t fails := by
  obtain ⟨done, split, clean⟩ := passing.passed
  rw [List.append_nil] at split
  rw [Database.Clean, split]
  exact clean

/-- UPDATE works off all rows that it finds, or stops in one of its phases. -/
theorem wp_update_steps (start : s.Sound pages tableOf) (guarded : Guarded (s.versions tableOf))
    (active : trx ∈ s.txnManager.activeTxns) (t : Nat) (schema : List ColumnTypes)
    (clauses : List SetClause) (filter : Option Filter) :
    (ExecutorUpdate.update (some trx) t schema clauses filter).wp
      (fun updated u => s.Clean pages t (s.GatherFails trx schema filter) ∧
        updated = (s.hitsAt trx schema clauses filter (s.addresses (pages t))).length ∧
        Rewriting s (s.versions tableOf) trx t schema
          (s.hitsAt trx schema clauses filter (s.addresses (pages t))) [] u)
      (fun _ u => u.Ends (s.versions tableOf) trx ∧ (s.items t = none ∧ u = s ∨
        (s.Scans pages tableOf u ∧
          ∃ rid rest p, StoppedAt s pages t (s.GatherFails trx schema filter) rid rest [p] u) ∨
        s.Clean pages t (s.GatherFails trx schema filter) ∧
          ∃ hit held, RewriteStopped s (s.versions tableOf) trx t schema
            (s.hitsAt trx schema clauses filter (s.addresses (pages t))) hit held u)) s := by
  have unchanged : ∀ {u}, s.Scans pages tableOf u → u.Ends (s.versions tableOf) trx := by
    intro u scans
    exact ⟨pages, tableOf, scans.sound, scans.pool.versions tableOf ▸ .refl⟩
  unfold ExecutorUpdate.update
  rw [Program.wp_bind]
  cases entry : s.items t with
  | none =>
      rw [Program.wp_of_error (TableIterator.run_create_of_none entry)]
      exact ⟨unchanged ⟨.refl s, start⟩, .inl ⟨rfl, rfl⟩⟩
  | some item =>
      obtain ⟨it, s₁, created, stands, pool, sound₁, swaps⟩ := TableIterator.run_create start entry
      rw [Program.wp_of_ok created, Program.wp_bind, Program.wp_get, Program.wp_bind]
      have enough : (s.addresses (pages t)).length ≤ s₁.slotCount := by
        rw [← Database.addresses_congr pool.rowCount]
        exact (sound₁.bounds t).2
      have begun : Gathering s pages tableOf trx t schema clauses filter it
          (s.addresses (pages t)) [] s₁ :=
        { scans := ⟨pool, sound₁⟩
          passing := .start swaps
          done := ⟨[], rfl, rfl⟩
          awaits := by simp }
      apply (@TableIterator.wp_loop _ pages tableOf t (List Hit) _
        (Gathering s pages tableOf trx t schema clauses filter) _ _ _ _ enough _ _ stands begun).mono
      · rintro hits u ⟨it, ended, gathering⟩
        obtain ⟨done, split, rfl⟩ := gathering.done
        rw [List.append_nil] at split
        subst split
        have versions := gathering.scans.pool.versions tableOf
        have capacity : u.Capacity s.logCapacity := by
          rw [Database.Capacity, Database.logCapacity, gathering.scans.pool.log]
          rfl
        have begun : Rewriting s (s.versions tableOf) trx t schema
            (s.hitsAt trx schema clauses filter (s.addresses (pages t)))
            (s.hitsAt trx schema clauses filter (s.addresses (pages t))) u :=
          { works := by
              refine ⟨pages, tableOf, [], rfl, gathering.scans.sound, versions ▸ .start, ?_⟩
              intro hit member
              rw [Database.Awaits, versions]
              exact gathering.awaits hit member
            known := by rw [gathering.scans.pool.items, entry, Option.isSome_some]
            distinct := (s.rids_hitsAt _).nodup (start.nodup_addresses t)
            capacity := capacity
            swaps := TableIterator.held_of_end ended ▸ gathering.passing.swaps }
        rw [Program.wp_bind]
        apply (wp_updateHits begun).mono
        · exact fun _ _ rewritten => ⟨gathering.passing.clean, rfl, rewritten⟩
        · rintro _ u' ⟨hit, held, stopped⟩
          exact ⟨stopped.reached, .inr (.inr ⟨gathering.passing.clean, hit, held, stopped⟩)⟩
      · exact fun _ _ raises => raises
      · intro it rid rest hits u stands gathering
        apply (wp_gatherRound guarded.manager active stands gathering).mono
        · exact fun _ _ holds => holds
        · rintro _ u' ⟨scans, p, stopped⟩
          exact ⟨unchanged scans, .inr (.inl ⟨scans, rid, rest, p, stopped⟩)⟩

theorem update_steps (start : s.Sound pages tableOf) (guarded : Guarded (s.versions tableOf))
    (active : trx ∈ s.txnManager.activeTxns) (t : Nat) (schema : List ColumnTypes)
    (clauses : List SetClause) (filter : Option Filter) :
    ((ExecutorUpdate.update (some trx) t schema clauses filter).run s).2.Ends
      (s.versions tableOf) trx := by
  apply Program.wp.state
  apply (wp_update_steps start guarded active t schema clauses filter).mono
  · rintro _ u ⟨-, -, rewritten⟩
    obtain ⟨pages', tableOf', reaches, -⟩ := rewritten.reached
    exact ⟨pages', tableOf', reaches⟩
  · exact fun _ _ ended => ended.1

/-! ## INSERT -/

theorem insert_steps (start : s.Sound pages tableOf) (trx t : Nat)
    (row : Except String (List UInt8)) :
    ((ExecutorInsert.insert (some trx) t row).run s).2.Ends (s.versions tableOf) trx := by
  obtain ⟨result, s', pages', tableOf', held, ran, sound', -, -, ends⟩ :=
    run_insert start (some trx) t row
  rw [ran]
  generalize versions : s'.versions tableOf' = m at ends
  generalize s'.order pages' = order at ends
  refine ⟨pages', tableOf', sound', ?_⟩
  cases ends with
  | noTable => exact versions ▸ .refl
  | unserialized => exact versions ▸ .refl
  | large => exact versions ▸ .refl
  | @stored payload rid known serialized small unused =>
      have somewhere : rid ≠ ⟨0, 0⟩ := by
        apply @Database.ne_zero_of_stored s' tableOf' rid
        rw [versions]
        exact (VersionStore.slot_put ..).trans (if_pos rfl)
      rw [versions]
      exact .single (.insert unused somewhere rfl rfl (.inl rfl) rfl ⟨by simp, rfl⟩)

end YourSQL
