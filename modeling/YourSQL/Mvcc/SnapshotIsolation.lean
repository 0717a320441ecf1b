import YourSQL.Executor.TableEntries
import YourSQL.Mvcc.DirtyWrites
import YourSQL.Mvcc.UpdateConserves
import Mathlib.Data.List.Find

/-! # Snapshot isolation

A read view is taken once. Whatever other clients do from then on, for its transaction
every row keeps the version that it had, no row appears and none goes, and a SELECT that
is run again returns the same rows. How often it returns one of them is another matter: a
row that somebody else rewrites is met at two addresses. What a transaction writes goes
over what it sees, so of two that have written to one row the later saw the earlier.
-/

namespace YourSQL

open ExecutorUpdate (Hit HitEnds SetClause)
open Mvcc (Guarded LogicalRow Rep Version VersionStore rowsOf seenBy snapshotOf snapshotRows)

variable {s u : Database} {pages : Nat → List Nat} {tableOf : Nat → Nat} {trx t : Nat}
  {filter : Option Filter}

namespace Mvcc

/-! ## Writes that a reader does not see -/

namespace LogicalRow

variable {sees : Nat → Bool} {writer : Nat}

theorem versionFor_delete (unseen : sees writer = false) (row : LogicalRow) (rid : RID) :
    (row.delete writer rid).versionFor sees = row.versionFor sees := by
  unfold delete
  split
  · rename_i live
    simp [versionFor, live.1, unseen]
  · rfl

theorem versionFor_rewritten (unseen : sees writer = false) {row : LogicalRow}
    (live : row.deletedBy = none) (rid : RID) (payload : List UInt8) :
    (row.rewritten writer rid payload).versionFor sees = row.versionFor sees := by
  simp [versionFor, rewritten, live, unseen]

/-- What has been written unseen can go again, and with it the row if nothing else is there. -/
theorem versionFor_withdraw (unseen : sees writer = false) (row : LogicalRow) :
    (row.withdraw writer).bind (·.versionFor sees) = row.versionFor sees := by
  have stays : (row.versions.filter (·.trx != writer)).find? (fun version => sees version.trx) =
      row.versions.find? fun version => sees version.trx := by
    rw [List.find?_filter]
    apply List.find?_congr
    intro version _
    cases seen : sees version.trx with
    | false => simp
    | true =>
        have other : version.trx ≠ writer := by
          rintro rfl
          rw [unseen] at seen
          cases seen
        simp [other]
  have deleted : (row.deletedBy.filter (· != writer)).any sees = row.deletedBy.any sees := by
    cases row.deletedBy with
    | none => rfl
    | some deleter =>
        by_cases same : deleter = writer
        · subst same
          simp [Option.filter, unseen]
        · simp [Option.filter, same]
  unfold withdraw versionFor
  dsimp only
  split
  · rename_i nothing
    rw [nothing, List.find?_nil] at stays
    simp [← stays]
  · rw [Option.bind_some, deleted, stays]

theorem tableId_delete (row : LogicalRow) (rid : RID) :
    (row.delete writer rid).tableId = row.tableId := by
  unfold delete
  split <;> rfl

theorem tableId_withdraw {row left : LogicalRow} (stays : row.withdraw writer = some left) :
    left.tableId = row.tableId := by
  obtain ⟨-, rfl⟩ := withdraw_eq_some.mp stays
  rfl

theorem tableId_foldl_change (row : LogicalRow) (changes : List (Hit × RID × List UInt8)) :
    (changes.foldl (change writer) row).tableId = row.tableId := by
  induction changes generalizing row with
  | nil => rfl
  | cons first rest ih =>
      rw [List.foldl_cons, ih, change, replace]
      split
      · exact row.tableId_delete first.1.rid
      · exact row.tableId_delete first.1.rid

/-- The version of a row of the table in a snapshot. -/
def versionIn (row : LogicalRow) (sees : Nat → Bool) (t : Nat) : Option Version :=
  if row.tableId == t then row.versionFor sees else none

end LogicalRow

theorem snapshotRows_eq (trx t : Nat) (journal : List Event) :
    snapshotRows trx t journal =
      (rowsOf journal).filterMap fun row => row.versionIn (seenBy trx journal) t := by
  rw [snapshotRows, List.filterMap_filter]
  rfl

/-- For a transaction two journals tell of the same rows. -/
structure Alike (trx : Nat) (journal journal' : List Event) : Prop where
  snapshot : snapshotOf trx journal' = snapshotOf trx journal
  rows : ∀ t, snapshotRows trx t journal' = snapshotRows trx t journal

theorem snapshotOf_append {events : List Event} (noView : Event.view trx ∉ events)
    (journal : List Event) : snapshotOf trx (journal ++ events) = snapshotOf trx journal := by
  induction events using List.reverseRecOn with
  | nil => rw [List.append_nil]
  | append_singleton events event ih =>
      rw [List.mem_append, List.mem_singleton, not_or] at noView
      rw [← List.append_assoc, snapshotOf_snoc_of_ne (Ne.symm noView.2), ih noView.1]

namespace Alike

variable {journal journal' journal'' : List Event} {event : Event} {v : Nat}

theorem refl (trx : Nat) (journal : List Event) : Alike trx journal journal := ⟨rfl, fun _ => rfl⟩

theorem trans (first : Alike trx journal journal') (second : Alike trx journal' journal'') :
    Alike trx journal journal'' :=
  ⟨second.snapshot.trans first.snapshot, fun t => (second.rows t).trans (first.rows t)⟩

theorem sees (alike : Alike trx journal journal') : seenBy trx journal' = seenBy trx journal := by
  funext writer
  rw [seenBy, alike.snapshot, seenBy]

/-- Each row is changed, and to the transaction it stays the same or is not there. -/
theorem of_filterMap (snapshot : snapshotOf trx journal' = snapshotOf trx journal)
    (change : LogicalRow → Option LogicalRow)
    (rows : rowsOf journal' = (rowsOf journal).filterMap change)
    (same : ∀ row ∈ rowsOf journal, ∀ t,
      (change row).bind (·.versionIn (seenBy trx journal) t) =
        row.versionIn (seenBy trx journal) t) : Alike trx journal journal' := by
  refine ⟨snapshot, ?_⟩
  intro t
  have sees : seenBy trx journal' = seenBy trx journal := by
    funext writer
    rw [seenBy, snapshot, seenBy]
  rw [snapshotRows_eq, snapshotRows_eq, rows, List.filterMap_filterMap, sees]
  exact List.filterMap_congr fun row member => same row member t

theorem of_map (snapshot : snapshotOf trx journal' = snapshotOf trx journal)
    (change : LogicalRow → LogicalRow) (rows : rowsOf journal' = (rowsOf journal).map change)
    (tables : ∀ row ∈ rowsOf journal, (change row).tableId = row.tableId)
    (versions : ∀ row ∈ rowsOf journal, (change row).versionFor (seenBy trx journal) =
      row.versionFor (seenBy trx journal)) : Alike trx journal journal' := by
  apply of_filterMap snapshot fun row => some (change row)
  · rw [rows, List.filterMap_eq_map']
  · intro row member t
    rw [Option.bind_some, LogicalRow.versionIn, tables row member, versions row member,
      LogicalRow.versionIn]

theorem view (other : v ≠ trx) (journal : List Event) :
    Alike trx journal (journal ++ [.view v]) := by
  apply of_map (snapshotOf_snoc_of_ne (by simp [other]) journal) id
  · rw [rowsOf_snoc, List.map_id]
    rfl
  · exact fun _ _ => rfl
  · exact fun _ _ => rfl

theorem commit (journal : List Event) (v : Nat) : Alike trx journal (journal ++ [.commit v]) := by
  apply of_map (snapshotOf_snoc_of_ne (by simp) journal) id
  · rw [rowsOf_snoc, List.map_id]
    rfl
  · exact fun _ _ => rfl
  · exact fun _ _ => rfl

variable (unseen : seenBy trx journal v = false)
include unseen

theorem abort : Alike trx journal (journal ++ [.abort v]) := by
  apply of_filterMap (snapshotOf_snoc_of_ne (by simp) journal) (·.withdraw v)
  · rw [rowsOf_snoc, applyEvent]
  · intro row member t
    have versions := row.versionFor_withdraw unseen
    unfold LogicalRow.versionIn
    cases left : row.withdraw v with
    | none =>
        rw [left] at versions
        simp [← versions]
    | some left' =>
        rw [left] at versions
        rw [Option.bind_some, LogicalRow.tableId_withdraw left, ← versions]
        rfl

/-- A row that is new has no version for the transaction. -/
theorem insert (t : Nat) (rid : RID) (payload : List UInt8) :
    Alike trx journal (journal ++ [.insert v t rid payload]) := by
  have snapshot := @snapshotOf_snoc_of_ne trx (.insert v t rid payload) (by simp) journal
  refine ⟨snapshot, ?_⟩
  intro t'
  have sees : seenBy trx (journal ++ [.insert v t rid payload]) = seenBy trx journal := by
    funext writer
    rw [seenBy, snapshot, seenBy]
  rw [snapshotRows_eq, snapshotRows_eq, sees, rowsOf_snoc, applyEvent, List.filterMap_append]
  simp [LogicalRow.versionIn, LogicalRow.versionFor, unseen]

theorem delete (rid : RID) : Alike trx journal (journal ++ [.delete v rid]) := by
  apply of_map (snapshotOf_snoc_of_ne (by simp) journal) (·.delete v rid)
  · rw [rowsOf_snoc, applyEvent]
  · exact fun row _ => row.tableId_delete rid
  · exact fun row _ => row.versionFor_delete unseen rid

theorem deletes (rids : List RID) :
    Alike trx journal (journal ++ rids.map (.delete v)) := by
  induction rids using List.reverseRecOn with
  | nil => simpa using refl trx journal
  | append_singleton rids rid ih =>
      rw [List.map_append, ← List.append_assoc]
      exact ih.trans (delete (by rw [ih.sees, unseen]) rid)

/-- Rows that are rewritten, each of them while it is there. -/
theorem updates {changes : List (Hit × RID × List UInt8)}
    (distinct : (changes.map fun change => change.1.rid).Nodup) (notAgain : NotAgain changes [])
    (live : ∀ row ∈ rowsOf journal, ∀ change ∈ changes,
      row.versions.head?.map Version.rid = some change.1.rid → row.deletedBy = none) :
    Alike trx journal (journal ++ updateEvents v changes) := by
  apply of_map (snapshotOf_append (by simp [updateEvents]) journal) fun row =>
    changes.foldl (LogicalRow.change v) row
  · exact rowsOf_updates journal changes v
  · exact fun row _ => row.tableId_foldl_change changes
  · intro row member
    by_cases hit : ∃ change ∈ changes, row.versions.head?.map Version.rid = some change.1.rid
    · obtain ⟨change, inChanges, head⟩ := hit
      have alive := live row member change inChanges head
      rw [LogicalRow.foldl_change distinct notAgain inChanges ⟨alive, head⟩]
      exact LogicalRow.versionFor_rewritten unseen alive _ _
    · rw [LogicalRow.foldl_change_of_ne]
      intro change inChanges head
      exact hit ⟨change, inChanges, head⟩

end Alike

end Mvcc

/-! ## The events of a statement -/

namespace ExecutorUpdate.HitEnds

variable {capacity : Option Nat} {m m' : VersionStore} {schema : List ColumnTypes} {hit : Hit}
  {held : List Nat}

theorem journal (ends : HitEnds capacity m trx t schema hit (.ok ⟨⟩) m' held) :
    ∃ new payload, m'.journal = m.journal ++ [.delete trx hit.rid, .replace trx hit.rid new payload] ∧
      (new = ⟨0, 0⟩ ∨ m.slot new = none) := by
  cases ends with
  | lost isNext notNull small bytes large taken noPlace =>
      exact ⟨_, _, List.append_assoc .., .inl rfl⟩
  | done isNext notNull small bytes taken unused placed =>
      exact ⟨_, _, List.append_assoc .., .inr unused⟩

theorem journal_of_error {message : String}
    (ends : HitEnds capacity m trx t schema hit (.error message) m' held) :
    m'.journal = m.journal ∨ m'.journal = m.journal ++ [.delete trx hit.rid] := by
  cases ends with
  | refused large => exact .inl rfl
  | unserialized isNext small failed => exact .inl rfl
  | halfway isNext notNull small bytes large refused => exact .inr rfl

end ExecutorUpdate.HitEnds

namespace Mvcc.Works

variable {capacity : Option Nat} {m m' : VersionStore} {schema : List ColumnTypes}
  {hits : List Hit}

/-- No record goes. -/
theorem stays (works : Mvcc.Works capacity trx t schema m hits m') {rid : RID} {slot : Slot}
    (stored : m.slot rid = some slot) : ∃ slot', m'.slot rid = some slot' := by
  induction works with
  | start => exact ⟨slot, stored⟩
  | @next done hit m' m'' held _ ends here _ _ ih =>
      obtain ⟨slot', before⟩ := ih
      by_cases same : rid = hit.rid
      · obtain ⟨record, after⟩ := ends.stored here
        exact ⟨_, same ▸ after⟩
      · exact ⟨slot', ends.slot_of_ne before same⟩

/-- The rows are rewritten in their order, and the new versions come to new places. -/
theorem journal (works : Mvcc.Works capacity trx t schema m hits m') :
    ∃ changes : List (Hit × RID × List UInt8),
      m'.journal = m.journal ++ updateEvents trx changes ∧ changes.map Prod.fst = hits ∧
      ∀ change ∈ changes, change.2.1 = ⟨0, 0⟩ ∨ m.slot change.2.1 = none := by
  induction works with
  | start => exact ⟨[], by simp [updateEvents], rfl, by simp⟩
  | @next done hit m' m'' held works ends here _ _ ih =>
      obtain ⟨changes, journal, worked, fresh⟩ := ih
      obtain ⟨new, payload, entered, place⟩ := ends.journal
      refine ⟨changes ++ [(hit, new, payload)], ?_, ?_, ?_⟩
      · rw [entered, journal]
        simp [updateEvents]
      · rw [List.map_append, worked]
        rfl
      · intro change member
        rcases List.mem_append.mp member with earlier | last
        · exact fresh change earlier
        · obtain rfl := List.mem_singleton.mp last
          apply place.imp_right
          intro unused
          rw [Option.eq_none_iff_forall_ne_some]
          intro slot stored
          obtain ⟨slot', after⟩ := works.stays stored
          rw [unused] at after
          cases after

end Mvcc.Works

/-- An exception in the middle of a row has entered nothing. -/
theorem wp_deleteRound_raised {it : TableIterator} {rid : RID} {rest : List RID} {deleted : Nat}
    (stands : it.Stands u pages tableOf t (rid :: rest)) (sound : u.Sound pages tableOf)
    (inv : Mvcc.ManagerInv u.txnManager u.journal) (active : trx ∈ u.txnManager.activeTxns) :
    (ExecutorDelete.round (some trx) filter it deleted).wp (fun _ _ => True)
      (fun _ u' => u'.journal = u.journal) u := by
  obtain ⟨record, current, stored⟩ := stands.run_current sound
  obtain ⟨after, holds, -, -, -, here, -⟩ := stands.cons_inv
  unfold ExecutorDelete.round
  rw [Program.wp_bind, Program.wp_of_ok current]
  dsimp only
  rw [Program.wp_bind, Program.wp_get, Program.wp_bind]
  cases decision : u.isTarget (some trx) filter record with
  | error message => exact rfl
  | ok isTaken =>
      rw [Program.wp_of_ok (Program.run_lift (.ok isTaken) u)]
      cases isTaken with
      | false =>
          obtain ⟨it', u', advanced, -⟩ := stands.run_advance sound
          rw [if_neg Bool.false_ne_true, Program.wp_bind, Program.wp_of_ok advanced,
            Program.wp_pure]
          exact trivial
      | true =>
          have free : Mvcc.Free (u.versions tableOf) trx record :=
            Database.free_of_isTarget inv active decision
          obtain ⟨u₁, sound₁, -, ran⟩ := run_deleteRecord sound holds.sees
            (holds.pageId.trans (here ▸ rfl)) stored free.alive (holds.pageId ▸ holds.pinned) trx
          rw [if_pos rfl, Program.wp_bind]
          by_cases small : record.size ≤ UNDO_CAPACITY
          · rw [if_pos small] at ran
            obtain ⟨tp', pointer, done, -, -, versions, sees, pageId, pinned⟩ := ran
            have rowCount : u₁.rowCount = u.rowCount := by
              apply @Database.rowCount_congr u u₁ tableOf
              intro other
              change ((u₁.versions tableOf).slot other).isSome = ((u.versions tableOf).slot other).isSome
              rw [versions, VersionStore.slot_deletion]
              split
              · rename_i same
                rw [same, stored]
                rfl
              · rfl
            obtain ⟨it', u', advanced, -⟩ :=
              (stands.congr sees pageId pinned rowCount).run_advance sound₁
            rw [← here, Program.wp_of_ok done, Program.wp_bind, Program.wp_of_ok advanced,
              Program.wp_pure]
            exact trivial
          · rw [if_neg small] at ran
            rw [← here, Program.wp_of_error ran.1]
            exact congrArg VersionStore.journal ran.2

theorem wp_delete_journal (start : s.Sound pages tableOf) (rep : Rep (s.versions tableOf))
    (active : trx ∈ s.txnManager.activeTxns) (t : Nat) (filter : Option Filter) :
    (ExecutorDelete.delete (some trx) t filter).wp
      (fun _ u => ∃ rids : List RID, u.journal = s.journal ++ rids.map (.delete trx))
      (fun _ u => ∃ rids : List RID, u.journal = s.journal ++ rids.map (.delete trx)) s := by
  unfold ExecutorDelete.delete
  rw [Program.wp_bind]
  cases entry : s.items t with
  | none =>
      rw [Program.wp_of_error (TableIterator.run_create_of_none entry)]
      exact ⟨[], by simp⟩
  | some item =>
      obtain ⟨it, s₁, created, stands, pool, sound₁, -⟩ := TableIterator.run_create start entry
      rw [Program.wp_of_ok created, Program.wp_bind, Program.wp_get]
      have enough : (s.addresses (pages t)).length ≤ s₁.slotCount := by
        rw [← Database.addresses_congr pool.rowCount]
        exact (sound₁.bounds t).2
      have begun : Deleting s pages tableOf trx t filter (s.addresses (pages t)) 0 s :=
        { sound := start
          rep := rep
          active := active
          ahead := fun _ _ => rfl
          sees := fun _ => rfl
          done := ⟨[], rfl, rfl, (List.append_nil _).symm, nofun⟩ }
      apply (TableIterator.wp_whileNotEnd _ enough stands (begun.pool pool sound₁)).mono
      · rintro _ u deleting
        obtain ⟨done, -, -, journal, -⟩ := deleting.done
        exact ⟨_, journal⟩
      · exact fun _ _ raises => raises
      · intro it rid rest deleted u stands deleting
        have raised := @wp_deleteRound_raised u pages tableOf trx t filter it rid rest deleted stands
          deleting.sound deleting.rep.manager deleting.active
        apply ((wp_deleteRound start stands deleting).and raised).mono
        · exact fun _ _ holds => holds.1
        · rintro _ u' ⟨-, same⟩
          obtain ⟨done, -, -, journal, -⟩ := deleting.done
          exact ⟨_, same.trans journal⟩

theorem Database.isTarget_of_mem_hitsAt {schema : List ColumnTypes} {clauses : List SetClause}
    {rids : List RID} {hit : Hit} (member : hit ∈ s.hitsAt trx schema clauses filter rids) :
    s.isTarget (some trx) filter hit.old = .ok true := by
  obtain ⟨rid, -, found⟩ := List.mem_filterMap.mp member
  obtain ⟨record, -, taken⟩ := Option.bind_eq_some_iff.mp found
  unfold hitAt at taken
  split at taken
  · rename_i values target read
    obtain rfl := Option.some.inj taken
    exact target
  · cases taken

/-- A row whose newest version is found alive has not been deleted. -/
theorem Mvcc.Rep.deletedBy_of_head {m : VersionStore} (rep : Rep m) {row : LogicalRow}
    (member : row ∈ m.rows) {rid : RID} (head : row.versions.head?.map Version.rid = some rid)
    {record : Record} (stored : m.slot rid = some ⟨t, record⟩) (alive : record.isDel = false) :
    row.deletedBy = none := by
  obtain ⟨version, first, rfl⟩ := Option.map_eq_some_iff.mp head
  cases versions : row.versions with
  | nil =>
      rw [versions] at first
      cases first
  | cons newest older =>
      rw [versions] at first
      obtain rfl := Option.some.inj first
      have position : row.Position row.deletedBy newest older := by
        rw [LogicalRow.Position, versions]
        exact .here
      obtain ⟨record', stored', recordOf⟩ := rep.stored row member _ newest older position
      rw [stored] at stored'
      cases stored'
      cases deleter : row.deletedBy with
      | none => rfl
      | some v =>
          rw [deleter] at recordOf
          have flags : record.flags = RECORD_DEL := recordOf.2.2.1
          rw [Record.isDel, flags] at alive
          cases alive

section

variable {v : Nat} {schema : List ColumnTypes} {clauses : List SetClause}

/-- Where an UPDATE stops it has rewritten some rows, and the next one may be marked. -/
theorem update_alike (start : s.Sound pages tableOf) (rep : Rep (s.versions tableOf))
    (guarded : Guarded (s.versions tableOf)) (active : v ∈ s.txnManager.activeTxns)
    (unseen : seenBy trx s.journal v = false) :
    Mvcc.Alike trx s.journal
      ((ExecutorUpdate.update (some v) t schema clauses filter).run s).2.journal := by
  let hits := s.hitsAt v schema clauses filter (s.addresses (pages t))
  have worked : ∀ {done left m'}, hits = done ++ left →
      Mvcc.Works s.logCapacity v t schema (s.versions tableOf) done m' →
      Mvcc.Alike trx s.journal m'.journal := by
    intro done left m' split works
    obtain ⟨changes, journal, fst, fresh⟩ := works.journal
    have rids : changes.map (fun change => change.1.rid) = done.map Hit.rid := by
      rw [← fst, List.map_map]
      rfl
    have inHits : ∀ change ∈ changes, change.1 ∈ hits := by
      intro change member
      rw [split, ← fst]
      exact List.mem_append_left _ (List.mem_map.mpr ⟨change, member, rfl⟩)
    have distinct : (hits.map Hit.rid).Nodup :=
      (s.rids_hitsAt _).nodup (start.nodup_addresses t)
    rw [split, List.map_append] at distinct
    have apart : ∀ change ∈ changes, ∀ later ∈ changes, change.2.1 ≠ later.1.rid := by
      intro change member later member' same
      have stored := Database.slot_of_tupleAt (Database.mem_hitsAt (inHits later member')).1 tableOf
      rcases fresh change member with zero | unused
      · exact Database.ne_zero_of_stored stored (same.symm.trans zero)
      · rw [same, stored] at unused
        cases unused
    rw [journal]
    refine Mvcc.Alike.updates unseen (rids ▸ distinct.of_append_left) ⟨?_, by simp⟩ ?_
    · exact List.pairwise_of_forall_mem_list apart
    · intro row inRows change member head
      have stored := Database.slot_of_tupleAt (Database.mem_hitsAt (inHits change member)).1 tableOf
      have free : Mvcc.Free (s.versions tableOf) v change.1.old :=
        Database.free_of_isTarget rep.manager active
          (Database.isTarget_of_mem_hitsAt (inHits change member))
      exact rep.deletedBy_of_head inRows head stored free.alive
  apply @Program.wp.state _ _ _ _ s fun u => Mvcc.Alike trx s.journal u.journal
  apply (wp_update_steps start guarded active t schema clauses filter).mono
  · rintro _ u ⟨-, -, rewriting⟩
    obtain ⟨_, _, done, split, -, works, -⟩ := rewriting.works
    exact worked split works
  · rintro _ u ⟨-, ⟨-, rfl⟩ | ⟨scans, -⟩ | ⟨-, hit, held, stopped⟩⟩
    · exact .refl trx _
    · rw [scans.pool.journal]
      exact .refl trx _
    · obtain ⟨_, _, done, rest, m', message, split, -, works, stored, free, ends⟩ := stopped.works
      have before := worked split works
      rcases ends.journal_of_error with same | marked
      · exact (congrArg (Mvcc.Alike trx s.journal) same).mpr before
      · exact (congrArg (Mvcc.Alike trx s.journal) marked).mpr
          (before.trans (.delete (by rw [before.sees, unseen]) hit.rid))

end

/-! ## Histories -/

theorem History.reachable (history : History s) : s.Reachable := by
  induction history with
  | @start s fresh => exact ⟨s, fresh, .refl⟩
  | perform command _ proper _ ih =>
      obtain ⟨start, fresh, run⟩ := ih
      exact ⟨start, fresh, .perform command run trivial proper⟩

/-- What the journal says and what guards the records, of the same chains of pages. -/
theorem History.secure (history : History s) :
    ∃ pages tableOf, s.Secure pages tableOf ∧ Rep (s.versions tableOf) := by
  obtain ⟨pages, tableOf, sound, rep⟩ := history.intact
  obtain ⟨start, fresh, run⟩ := history.reachable
  obtain ⟨pages', tableOf', secure⟩ := run.secure fresh.secure
  have store := secure.sound.layout.store_unique sound.layout
  refine ⟨pages', tableOf', secure, ?_⟩
  rw [Database.versions, store] at rep
  exact rep

theorem Command.isSome_items (command : Command) (s : Database) (t : Nat) :
    ((command.perform s).items t).isSome = (s.items t).isSome := by
  have lists : s.Lists fun t => (s.items t).isSome := fun _ => rfl
  cases command with
  | begin => rfl
  | refreshReadView => rfl
  | commit trx => exact Database.Lists.commit trx s lists t
  | abort trx => exact Database.Lists.abort trx s lists t
  | insert txn t' row => exact Database.Lists.insert txn t' row s lists t
  | delete txn t' filter => exact Database.Lists.delete txn t' filter s lists t
  | update txn t' schema clauses filter =>
      exact Database.Lists.update txn t' schema clauses filter s lists t
  | select txn t' filter => exact Database.Lists.select txn t' filter s lists t

/-- A command of another client leaves a transaction its rows. -/
theorem History.alike (history : History s) (active : trx ∈ s.txnManager.activeTxns)
    {command : Command} (proper : command.Proper s) (other : command.client ≠ some trx) :
    Mvcc.Alike trx s.journal (command.perform s).journal := by
  obtain ⟨pages, tableOf, ⟨sound, guarded⟩, rep⟩ := history.secure
  have inv : Mvcc.ManagerInv s.txnManager s.journal := rep.manager
  -- who is under way is in no snapshot
  have unseen : ∀ v ∈ s.txnManager.activeTxns, v ≠ trx → seenBy trx s.journal v = false := by
    intro v isActive ne
    rw [← Bool.not_eq_true, Mvcc.seenBy_iff, not_or]
    exact ⟨ne, fun inside =>
      inv.not_committed_of_active isActive (Mvcc.mem_committedOf_of_snapshotOf inside)⟩
  cases command with
  | begin =>
      have new : s.txnManager.nextTxid ≠ trx := by
        rintro rfl
        exact absurd (inv.issued _ active).2 (lt_irrefl _)
      exact .view new s.journal
  | refreshReadView v => exact .view (fun same => other (congrArg some same)) s.journal
  | commit v =>
      have versions := (commit_versions sound v).2.1
      have journal := congrArg VersionStore.journal versions
      change (Command.perform (.commit v) s).journal = _ at journal
      rw [journal]
      split
      · exact .commit s.journal v
      · exact .refl trx _
  | abort v =>
      by_cases isActive : v ∈ s.txnManager.activeTxns
      · have versions := (@abort_versions s pages tableOf sound v (guarded.tables isActive)).2.1
        have journal := congrArg VersionStore.journal versions
        change (Command.perform (.abort v) s).journal = _ at journal
        rw [journal, if_pos isActive]
        exact .abort (unseen v isActive fun same => other (congrArg some same))
      · unfold Command.perform abortTransaction
        dsimp only
        rw [Program.run_get_bind, TransactionManager.abortLookup, if_neg isActive]
        exact .refl trx _
  | insert txn t row =>
      obtain ⟨v, isActive, rfl⟩ := proper
      obtain ⟨result, s', pages', tableOf', held, ran, -, -, -, ends⟩ :=
        run_insert sound (some v) t row
      rw [Command.perform, ran]
      generalize versions : s'.versions tableOf' = m at ends
      generalize s'.order pages' = order at ends
      have journal : s'.journal = m.journal := congrArg VersionStore.journal versions
      dsimp only
      rw [journal]
      cases ends with
      | noTable => exact .refl trx _
      | unserialized => exact .refl trx _
      | large => exact .refl trx _
      | stored => exact .insert (unseen v isActive fun same => other (congrArg some same)) t _ _
  | delete txn t filter =>
      obtain ⟨v, isActive, rfl⟩ := proper
      have deleted : ∃ rids : List RID, ((ExecutorDelete.delete (some v) t filter).run s).2.journal =
          s.journal ++ rids.map (Event.delete v) := by
        apply @Program.wp.state _ _ _ _ s fun u => ∃ rids : List RID,
          u.journal = s.journal ++ rids.map (Event.delete v)
        exact wp_delete_journal sound rep isActive t filter
      obtain ⟨rids, journal⟩ := deleted
      rw [Command.perform, journal]
      exact .deletes (unseen v isActive fun same => other (congrArg some same)) rids
  | update txn t schema clauses filter =>
      obtain ⟨v, isActive, rfl⟩ := proper
      exact update_alike sound rep guarded isActive
        (unseen v isActive fun same => other (congrArg some same))
  | select txn t filter =>
      have journal := (select_pool sound txn t filter).pool.journal
      change ((Command.select txn t filter).perform s).journal = _ at journal
      rw [journal]
      exact .refl trx _

/-- Any number of commands of other clients, whatever becomes of them. -/
theorem History.alike_performAll (history : History s) (active : trx ∈ s.txnManager.activeTxns)
    {commands : List Command} (admits : s.Admits commands)
    (others : ∀ command ∈ commands, command.client ≠ some trx) :
    trx ∈ (s.performAll commands).txnManager.activeTxns ∧
      Mvcc.Alike trx s.journal (s.performAll commands).journal ∧
      ∀ t, ((s.performAll commands).items t).isSome = (s.items t).isSome := by
  induction commands generalizing s with
  | nil => exact ⟨active, .refl trx _, fun _ => rfl⟩
  | cons command rest ih =>
      obtain ⟨proper, fits, admits⟩ := admits
      have other := others command (List.mem_cons_self ..)
      obtain ⟨pages, tableOf, secure, -⟩ := history.secure
      have active' := (secure.others proper active other).1
      obtain ⟨after, alike, items⟩ := ih (history.perform command proper fits) active' admits
        fun later member => others later (List.mem_cons_of_mem _ member)
      exact ⟨after, (history.alike active proper other).trans alike,
        fun t => (items t).trans (command.isSome_items s t)⟩

namespace Mvcc

variable {journal : List Event}

theorem mem_snapshotRows {version : Version} :
    version ∈ snapshotRows trx t journal ↔ ∃ row ∈ rowsOf journal, row.tableId = t ∧
      row.versionFor (seenBy trx journal) = some version := by
  simp only [snapshotRows, List.mem_filterMap, List.mem_filter, beq_iff_eq, and_assoc]

theorem decides_iff :
    Decides journal trx t filter ↔ ∀ version ∈ snapshotRows trx t journal,
      ∃ isMatch, passes filter version.payload = .ok isMatch := by
  constructor
  · intro decides version member
    obtain ⟨row, inRows, ofTable, shown⟩ := mem_snapshotRows.mp member
    exact decides row inRows ofTable version shown
  · intro decides row inRows ofTable version shown
    exact decides version (mem_snapshotRows.mpr ⟨row, inRows, ofTable, shown⟩)

/-- The rows that a SELECT returns, however often. -/
theorem mem_selected {payload : List UInt8} :
    payload ∈ ((rowsOf journal).filter (·.selected (seenBy trx journal) t filter)).flatMap
        (·.copies (seenBy trx journal)) ↔
      ∃ version ∈ snapshotRows trx t journal,
        passes filter version.payload = .ok true ∧ version.payload = payload := by
  rw [List.mem_flatMap]
  constructor
  · rintro ⟨row, member, inCopies⟩
    obtain ⟨inRows, selected⟩ := List.mem_filter.mp member
    obtain ⟨ofTable, version, shown, passed⟩ := LogicalRow.selected_iff.mp selected
    obtain ⟨version', shown', rfl⟩ := LogicalRow.mem_copies.mp inCopies
    obtain rfl := Option.some.inj (shown.symm.trans shown')
    exact ⟨_, mem_snapshotRows.mpr ⟨row, inRows, ofTable, shown⟩, passed, rfl⟩
  · rintro ⟨version, member, passed, rfl⟩
    obtain ⟨row, inRows, ofTable, shown⟩ := mem_snapshotRows.mp member
    exact ⟨row, List.mem_filter.mpr ⟨inRows, LogicalRow.selected_iff.mpr ⟨ofTable, version, shown, passed⟩⟩,
      LogicalRow.mem_copies.mpr ⟨version, shown, rfl⟩⟩

end Mvcc

namespace Mvcc

/-- From one writer to the next, if each saw the one before. -/
theorem isChain_trxs {follows : Nat → Nat → Prop} {next : Option Nat} {versions : List Version}
    (each : ∀ trx version older, Position next versions (some trx) version older →
      follows trx version.trx) :
    (next.toList ++ versions.map Version.trx).IsChain follows := by
  induction versions generalizing next with
  | nil => cases next <;> simp
  | cons version older ih =>
      have rest := @ih (some version.trx) fun trx version' older' position =>
        each trx version' older' (.under position)
      cases next with
      | none => exact rest
      | some trx => exact List.IsChain.cons_cons (each trx version older .here) rest

/-- Who has written to a row saw whoever had written to it before. -/
theorem Rep.writers {m : VersionStore} (rep : Rep m) {row : LogicalRow} (member : row ∈ m.rows) :
    row.trxs.Pairwise fun later earlier => seenBy later m.journal earlier = true := by
  have trans : IsTrans Nat fun later earlier => seenBy later m.journal earlier = true :=
    ⟨fun _ _ _ sees under => rep.manager.seenBy_trans sees
      ((seenBy_iff.mp under).imp_left Eq.symm)⟩
  apply List.IsChain.pairwise
  apply isChain_trxs
  intro trx version older position
  exact seenBy_iff.mpr ((rep.follows row member trx version older position).imp_left Eq.symm)

end Mvcc

end YourSQL
