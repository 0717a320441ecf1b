import YourSQL.Executor.Iteration
import YourSQL.Mvcc.Targets

/-! # A whole DELETE

From the first record of the table to the last. What it takes is decided by the rows as
they were at the start, and the store of versions stays in step with the journal whether
the statement returns or raises an exception.
-/

namespace YourSQL

open Mvcc (Rep VersionStore seenBy takes)

variable {s u u' : Database} {pages : Nat → List Nat} {tableOf : Nat → Nat} {trx t : Nat}
  {filter : Option Filter}

/-- Those of the addresses that DELETE or UPDATE takes. -/
def Mvcc.VersionStore.taken (m : VersionStore) (trx : Nat) (filter : Option Filter)
    (rids : List RID) : List RID :=
  rids.filter fun rid => (m.slot rid).any fun slot =>
    decide (takes m.journal trx filter slot.record = .ok true)

/-- The test of a record raises an exception, or the record is too large to be saved. -/
def Mvcc.VersionStore.Refuses (m : VersionStore) (trx t : Nat) (filter : Option Filter)
    (message : String) : Prop :=
  ∃ rid record, m.slot rid = some ⟨t, record⟩ ∧
    (takes m.journal trx filter record = .error message ∨
      (takes m.journal trx filter record = .ok true ∧ ¬ record.size ≤ UNDO_CAPACITY ∧
        message = "UndoLogManager::AppendUndoRecord fail."))

namespace Mvcc.VersionStore

variable {m : VersionStore} {rid : RID} {record : Record} {done : List RID}

theorem taken_snoc_of_true (stored : m.slot rid = some ⟨t, record⟩)
    (taken : takes m.journal trx filter record = .ok true) :
    m.taken trx filter (done ++ [rid]) = m.taken trx filter done ++ [rid] := by
  simp [VersionStore.taken, List.filter_append, stored, taken]

theorem taken_snoc_of_false (stored : m.slot rid = some ⟨t, record⟩)
    (passed : takes m.journal trx filter record = .ok false) :
    m.taken trx filter (done ++ [rid]) = m.taken trx filter done := by
  simp [VersionStore.taken, List.filter_append, stored, passed]

end Mvcc.VersionStore

/-- While a DELETE is under way: what lies ahead is as it was at the start `s`. -/
structure Deleting (s : Database) (pages : Nat → List Nat) (tableOf : Nat → Nat) (trx t : Nat)
    (filter : Option Filter) (left : List RID) (deleted : Nat) (u : Database) : Prop where
  sound : u.Sound pages tableOf
  rep : Rep (u.versions tableOf)
  active : trx ∈ u.txnManager.activeTxns
  ahead : ∀ rid ∈ left, (u.versions tableOf).slot rid = (s.versions tableOf).slot rid
  sees : ∀ writer, seenBy trx u.journal writer = seenBy trx s.journal writer
  done : ∃ done, s.addresses (pages t) = done ++ left ∧
    deleted = ((s.versions tableOf).taken trx filter done).length ∧
    u.journal = s.journal ++ ((s.versions tableOf).taken trx filter done).map (.delete trx) ∧
    ∀ rid ∈ done, ∀ record, (s.versions tableOf).slot rid = some ⟨t, record⟩ →
      takes s.journal trx filter record = .ok true → record.size ≤ UNDO_CAPACITY

/-- A DELETE has raised an exception. -/
structure DeleteRaised (s : Database) (pages : Nat → List Nat) (tableOf : Nat → Nat)
    (trx t : Nat) (filter : Option Filter) (message : String) (u : Database) : Prop where
  sound : u.Sound pages tableOf
  rep : Rep (u.versions tableOf)
  reason : (s.versions tableOf).Refuses trx t filter message

theorem Deleting.pool {left : List RID} {deleted : Nat}
    (deleting : Deleting s pages tableOf trx t filter left deleted u) (pool : u.PoolOnly u')
    (sound : u'.Sound pages tableOf) : Deleting s pages tableOf trx t filter left deleted u' where
  sound := sound
  rep := pool.versions tableOf ▸ deleting.rep
  active := pool.txnManager ▸ deleting.active
  ahead := pool.versions tableOf ▸ deleting.ahead
  sees := pool.journal ▸ deleting.sees
  done := pool.journal ▸ deleting.done

theorem Deleting.takes_eq {left : List RID} {deleted : Nat}
    (deleting : Deleting s pages tableOf trx t filter left deleted u) (record : Record) :
    takes u.journal trx filter record = takes s.journal trx filter record := by
  rw [takes, deleting.sees, takes]

/-- One record is passed. -/
theorem Deleting.pass {rid : RID} {rest : List RID} {deleted : Nat} {record : Record}
    (deleting : Deleting s pages tableOf trx t filter (rid :: rest) deleted u)
    (stored : (s.versions tableOf).slot rid = some ⟨t, record⟩)
    (passed : takes s.journal trx filter record = .ok false) :
    Deleting s pages tableOf trx t filter rest deleted u where
  sound := deleting.sound
  rep := deleting.rep
  active := deleting.active
  ahead other member := deleting.ahead other (List.mem_cons_of_mem _ member)
  sees := deleting.sees
  done := by
    obtain ⟨done, split, count, journal, small⟩ := deleting.done
    refine ⟨done ++ [rid], by simp [split], ?_, ?_, ?_⟩
    · rw [VersionStore.taken_snoc_of_false stored passed]
      exact count
    · rw [VersionStore.taken_snoc_of_false stored passed]
      exact journal
    · intro other member record' found taken
      rcases List.mem_append.mp member with earlier | last
      · exact small other earlier record' found taken
      · obtain rfl := List.mem_singleton.mp last
        rw [stored] at found
        cases found
        rw [passed] at taken
        cases taken

/-- One record is deleted. -/
theorem Deleting.take {rid : RID} {rest : List RID} {deleted : Nat} {record : Record}
    {m : VersionStore} {pointer : UndoPointer} (start : s.Sound pages tableOf)
    (deleting : Deleting s pages tableOf trx t filter (rid :: rest) deleted u)
    (stored : (s.versions tableOf).slot rid = some ⟨t, record⟩)
    (taken : takes s.journal trx filter record = .ok true) (sound : u'.Sound pages tableOf)
    (grown : (u.versions tableOf).Extends m) (notNull : pointer.isNull = false)
    (saved : m.undo pointer = some record) (small : record.size ≤ UNDO_CAPACITY)
    (versions : u'.versions tableOf = m.deletion trx t rid record pointer .delete) :
    Deleting s pages tableOf trx t filter rest (deleted + 1) u' := by
  have here : (u.versions tableOf).slot rid = some ⟨t, record⟩ :=
    (deleting.ahead rid (List.mem_cons_self ..)).trans stored
  have newest : m.Newest trx t rid record :=
    (Mvcc.newest_of_takes here ((deleting.takes_eq record).trans taken)).extended grown
  have active : trx ∈ m.manager.activeTxns := grown.manager ▸ deleting.active
  have journal : u'.journal = u.journal ++ [.delete trx rid] := by
    have entered := congrArg VersionStore.journal versions
    rw [VersionStore.journal_deletion, grown.journal] at entered
    exact entered
  obtain ⟨done, split, count, before, smaller⟩ := deleting.done
  refine
    { sound := sound
      rep := ?_
      active := ?_
      ahead := ?_
      sees := ?_
      done := ?_ }
  · rw [versions]
    exact (deleting.rep.extended grown).deletion active newest notNull saved rfl
  · have same := congrArg (fun m => m.manager.activeTxns) versions
    rw [VersionStore.activeTxns_deletion] at same
    exact same ▸ active
  · intro other member
    have apart : other ≠ rid := by
      rintro rfl
      have distinct := start.nodup_addresses t
      rw [split, List.nodup_append] at distinct
      exact (List.nodup_cons.mp distinct.2.1).1 member
    rw [versions, VersionStore.slot_deletion, if_neg apart, grown.slot]
    exact deleting.ahead other (List.mem_cons_of_mem _ member)
  · intro writer
    rw [journal, VersionStore.Newest.seenBy_write ⟨by simp, rfl⟩]
    exact deleting.sees writer
  · refine ⟨done ++ [rid], by simp [split], ?_, ?_, ?_⟩
    · rw [VersionStore.taken_snoc_of_true stored taken, List.length_append, ← count]
      rfl
    · rw [VersionStore.taken_snoc_of_true stored taken, List.map_append, journal, before,
        List.append_assoc]
      rfl
    · intro other member record' found takes'
      rcases List.mem_append.mp member with earlier | last
      · exact smaller other earlier record' found takes'
      · obtain rfl := List.mem_singleton.mp last
        rw [stored] at found
        cases found
        exact small

theorem wp_deleteRound {it : TableIterator} {rid : RID} {rest : List RID} {deleted : Nat}
    (start : s.Sound pages tableOf) (stands : it.Stands u pages tableOf t (rid :: rest))
    (deleting : Deleting s pages tableOf trx t filter (rid :: rest) deleted u) :
    (ExecutorDelete.round (some trx) filter it deleted).wp
      (fun next u' => next.1.Stands u' pages tableOf t rest ∧
        Deleting s pages tableOf trx t filter rest next.2 u')
      (fun message u' => DeleteRaised s pages tableOf trx t filter message u') u := by
  obtain ⟨record, current, stored⟩ := stands.run_current deleting.sound
  have before := (deleting.ahead rid (List.mem_cons_self ..)).symm.trans stored
  unfold ExecutorDelete.round
  rw [Program.wp_bind, Program.wp_of_ok current]
  dsimp only
  rw [Program.wp_bind, Program.wp_get, Program.wp_bind,
    Database.isTarget_eq deleting.rep deleting.active stored, deleting.takes_eq]
  cases decision : takes s.journal trx filter record with
  | error message =>
      exact
        { sound := deleting.sound
          rep := deleting.rep
          reason := ⟨rid, record, before, .inl decision⟩ }
  | ok isTaken =>
      rw [Program.wp_of_ok (Program.run_lift (.ok isTaken) u)]
      cases isTaken with
      | false =>
          obtain ⟨it', u', advanced, stands', pool, sound', -⟩ := stands.run_advance deleting.sound
          rw [if_neg Bool.false_ne_true, Program.wp_bind, Program.wp_of_ok advanced,
            Program.wp_pure]
          exact ⟨stands', (deleting.pass before decision).pool pool sound'⟩
      | true =>
          obtain ⟨after, holds, -, -, -, here, -⟩ := stands.cons_inv
          subst here
          have flags := (Mvcc.newest_of_takes before decision).flags
          have alive : record.isDel = false := by
            rw [Record.isDel, flags]
            rfl
          obtain ⟨u₁, sound₁, -, ran⟩ := run_deleteRecord deleting.sound holds.sees holds.pageId stored
            alive (holds.pageId ▸ holds.pinned) trx
          rw [if_pos rfl, Program.wp_bind]
          by_cases small : record.size ≤ UNDO_CAPACITY
          · rw [if_pos small] at ran
            obtain ⟨tp', pointer, done, notNull, next, versions, sees, pageId, pinned⟩ := ran
            have grown := VersionStore.extends_save next.unused record
            have saved := VersionStore.undo_save_self (u.versions tableOf) pointer record
            have next := deleting.take start before decision sound₁ grown notNull saved small versions
            have rowCount : u₁.rowCount = u.rowCount := by
              apply @Database.rowCount_congr u u₁ tableOf
              intro other
              have slot := congrArg (fun m => m.slot other) versions
              rw [VersionStore.slot_deletion, grown.slot] at slot
              change ((u₁.versions tableOf).slot other).isSome = ((u.versions tableOf).slot other).isSome
              rw [slot]
              split
              · rename_i same
                rw [same, stored]
                rfl
              · rfl
            have stands₁ := stands.congr sees pageId pinned rowCount
            obtain ⟨it', u', advanced, stands', pool, sound', -⟩ := stands₁.run_advance sound₁
            rw [Program.wp_of_ok done, Program.wp_bind, Program.wp_of_ok advanced, Program.wp_pure]
            exact ⟨stands', next.pool pool sound'⟩
          · rw [if_neg small] at ran
            obtain ⟨failed, same⟩ := ran
            rw [Program.wp_of_error failed]
            exact
              { sound := sound₁
                rep := same ▸ deleting.rep
                reason := ⟨it.rid, record, before, .inr ⟨decision, small, rfl⟩⟩ }

theorem wp_delete (start : s.Sound pages tableOf) (rep : Rep (s.versions tableOf))
    (active : trx ∈ s.txnManager.activeTxns) (t : Nat) (filter : Option Filter) :
    (ExecutorDelete.delete (some trx) t filter).wp
      (fun deleted s' => Deleting s pages tableOf trx t filter [] deleted s')
      (fun message s' => DeleteRaised s pages tableOf trx t filter message s' ∨
        s.items t = none ∧ s' = s) s := by
  unfold ExecutorDelete.delete
  rw [Program.wp_bind]
  cases entry : s.items t with
  | none =>
      rw [Program.wp_of_error (TableIterator.run_create_of_none entry)]
      exact .inr ⟨rfl, rfl⟩
  | some item =>
      obtain ⟨it, s₁, created, stands, pool, sound₁, -⟩ := TableIterator.run_create start entry
      rw [Program.wp_of_ok created, Program.wp_bind, Program.wp_get]
      have enough : (s.addresses (pages t)).length ≤ s₁.slotCount := by
        rw [← Database.addresses_congr pool.rowCount]
        exact (sound₁.bounds t).2
      have begun : Deleting s pages tableOf trx t filter (s.addresses (pages t)) 0 s :=
        { sound := start
          rep := rep
          active := active
          ahead := fun _ _ => rfl
          sees := fun _ => rfl
          done := ⟨[], rfl, rfl, (List.append_nil _).symm, nofun⟩ }
      apply (TableIterator.wp_whileNotEnd _ enough stands (begun.pool pool sound₁)).mono
      · exact fun _ _ deleting => deleting
      · exact fun _ _ raises => .inl raises
      · intro it rid rest acc u stands deleting
        exact wp_deleteRound start stands deleting

end YourSQL
