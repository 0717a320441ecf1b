import YourSQL.Mvcc.DeleteRun

/-! # A whole UPDATE

Phase one collects the rows without touching them, phase two works them off one by one.
An exception in phase two leaves what is done so far. While every new version fits an
empty page, the store of versions stays in step with the journal throughout.
-/

namespace YourSQL

open Mvcc (Rep VersionStore seenBy takes)

variable {s u u' : Database} {pages : Nat → List Nat} {tableOf : Nat → Nat} {trx t : Nat}
  {filter : Option Filter}

/-! ## Phase one -/

open ExecutorUpdate (Hit SetClause applySet updateHit)

/-- While the rows to be updated are collected. -/
structure Collecting (s : Database) (pages : Nat → List Nat) (tableOf : Nat → Nat) (trx t : Nat)
    (schema : List ColumnTypes) (clauses : List SetClause) (filter : Option Filter)
    (left : List RID) (hits : List Hit) (u : Database) : Prop where
  pool : s.PoolOnly u
  sound : u.Sound pages tableOf
  done : ∃ done, s.addresses (pages t) = done ++ left ∧
    hits.map Hit.rid = (s.versions tableOf).taken trx filter done
  newest : ∀ hit ∈ hits, (s.versions tableOf).Newest trx t hit.rid hit.old
  values : ∀ hit ∈ hits, ∃ values, Row.deserialize schema hit.old.payload = .ok values ∧
    hit.newValues = applySet clauses values

/-- The test of a record or the reading of its columns raises an exception. -/
def Mvcc.VersionStore.Unreadable (m : VersionStore) (trx t : Nat) (schema : List ColumnTypes)
    (filter : Option Filter) (message : String) : Prop :=
  ∃ rid record, m.slot rid = some ⟨t, record⟩ ∧
    (takes m.journal trx filter record = .error message ∨
      (takes m.journal trx filter record = .ok true ∧
        Row.deserialize schema record.payload = .error message))

/-- Collecting has raised an exception: no row has changed. -/
structure CollectRaised (s : Database) (pages : Nat → List Nat) (tableOf : Nat → Nat)
    (trx t : Nat) (schema : List ColumnTypes) (filter : Option Filter) (message : String)
    (u : Database) : Prop where
  pool : s.PoolOnly u
  sound : u.Sound pages tableOf
  reason : (s.versions tableOf).Unreadable trx t schema filter message

variable {schema : List ColumnTypes} {clauses : List SetClause}

theorem Collecting.later {left : List RID} {hits : List Hit}
    (collecting : Collecting s pages tableOf trx t schema clauses filter left hits u)
    (pool : u.PoolOnly u') (sound : u'.Sound pages tableOf) :
    Collecting s pages tableOf trx t schema clauses filter left hits u' :=
  { collecting with
    pool := collecting.pool.trans pool
    sound := sound }

theorem wp_collectRound {it : TableIterator} {rid : RID} {rest : List RID} {hits : List Hit}
    (rep : Rep (s.versions tableOf)) (active : trx ∈ s.txnManager.activeTxns)
    (stands : it.Stands u pages tableOf t (rid :: rest))
    (collecting : Collecting s pages tableOf trx t schema clauses filter (rid :: rest) hits u) :
    (ExecutorUpdate.round (some trx) schema clauses filter it hits).wp
      (fun next u' => next.1.Stands u' pages tableOf t rest ∧
        Collecting s pages tableOf trx t schema clauses filter rest next.2 u')
      (fun message u' => CollectRaised s pages tableOf trx t schema filter message u') u := by
  obtain ⟨record, current, stored⟩ := stands.run_current collecting.sound
  have before : (s.versions tableOf).slot rid = some ⟨t, record⟩ :=
    collecting.pool.versions tableOf ▸ stored
  have rep' : Rep (u.versions tableOf) := collecting.pool.versions tableOf ▸ rep
  have active' : trx ∈ u.txnManager.activeTxns := collecting.pool.txnManager ▸ active
  obtain ⟨it', u', advanced, stands', pool, sound', -⟩ := stands.run_advance collecting.sound
  obtain ⟨done, split, taken⟩ := collecting.done
  unfold ExecutorUpdate.round
  rw [Program.wp_bind, Program.wp_of_ok current]
  dsimp only
  rw [Program.wp_bind, Program.wp_get, Program.wp_bind, Database.isTarget_eq rep' active' stored,
    collecting.pool.journal]
  cases decision : takes s.journal trx filter record with
  | error message =>
      exact
        { pool := collecting.pool
          sound := collecting.sound
          reason := ⟨rid, record, before, .inl decision⟩ }
  | ok isTaken =>
      rw [Program.wp_of_ok (Program.run_lift (.ok isTaken) u)]
      cases isTaken with
      | false =>
          rw [if_neg Bool.false_ne_true, Program.wp_bind, Program.wp_of_ok advanced,
            Program.wp_pure]
          refine ⟨stands', ?_⟩
          have passed : Collecting s pages tableOf trx t schema clauses filter rest hits u :=
            { collecting with
              done := ⟨done ++ [rid], by simp [split], by
                rw [VersionStore.taken_snoc_of_false before decision]
                exact taken⟩ }
          exact passed.later pool sound'
      | true =>
          rw [if_pos rfl, Program.wp_bind]
          cases read : Row.deserialize schema record.payload with
          | error message =>
              exact
                { pool := collecting.pool
                  sound := collecting.sound
                  reason := ⟨rid, record, before, .inr ⟨decision, read⟩⟩ }
          | ok values =>
              rw [Program.wp_of_ok (Program.run_lift (.ok values) u), Program.wp_bind,
                Program.wp_of_ok advanced, Program.wp_pure]
              refine ⟨stands', ?_⟩
              obtain ⟨after, holds, -, -, -, here, -⟩ := stands.cons_inv
              have hit : Collecting s pages tableOf trx t schema clauses filter rest
                  (hits ++ [⟨it.rid, record, applySet clauses values⟩]) u :=
                { pool := collecting.pool
                  sound := collecting.sound
                  done := ⟨done ++ [rid], by simp [split], by
                    rw [VersionStore.taken_snoc_of_true before decision, List.map_append, taken,
                      here]
                    rfl⟩
                  newest := by
                    intro hit member
                    rcases List.mem_append.mp member with earlier | last
                    · exact collecting.newest hit earlier
                    · obtain rfl := List.mem_singleton.mp last
                      exact Mvcc.newest_of_takes (here ▸ before) decision
                  values := by
                    intro hit member
                    rcases List.mem_append.mp member with earlier | last
                    · exact collecting.values hit earlier
                    · obtain rfl := List.mem_singleton.mp last
                      exact ⟨values, read, rfl⟩ }
              exact hit.later pool sound'

/-! ## Phase two -/

/-- The events of rows that were updated, each with its new address and bytes. -/
def updateEvents (trx : Nat) (changes : List (Hit × RID × List UInt8)) : List Event :=
  changes.flatMap fun change =>
    [.delete trx change.1.rid, .replace trx change.1.rid change.2.1 change.2.2]

/-- No new version lies where a hit is that comes later. -/
def NotAgain (changes : List (Hit × RID × List UInt8)) (left : List Hit) : Prop :=
  (changes.Pairwise fun change later => change.2.1 ≠ later.1.rid) ∧
    ∀ change ∈ changes, ∀ hit ∈ left, change.2.1 ≠ hit.rid

theorem NotAgain.snoc {changes : List (Hit × RID × List UInt8)} {left : List Hit} {hit : Hit}
    (before : NotAgain changes (hit :: left)) {new : RID} {payload : List UInt8}
    (fresh : ∀ other ∈ left, new ≠ other.rid) :
    NotAgain (changes ++ [(hit, new, payload)]) left := by
  obtain ⟨pairwise, ahead⟩ := before
  constructor
  · rw [List.pairwise_append]
    refine ⟨pairwise, List.pairwise_singleton _ _, ?_⟩
    intro change member later last
    obtain rfl := List.mem_singleton.mp last
    exact ahead change member hit (List.mem_cons_self ..)
  · intro change member other later
    rcases List.mem_append.mp member with earlier | last
    · exact ahead change earlier other (List.mem_cons_of_mem _ later)
    · obtain rfl := List.mem_singleton.mp last
      exact fresh other later

/-- While the hits are worked off: those that are left are stored as they were. -/
structure Updating (s : Database) (trx t : Nat) (schema : List ColumnTypes) (hits left : List Hit)
    (u : Database) : Prop where
  intact : ∃ pages tableOf, u.Sound pages tableOf ∧
    (∀ hit ∈ left, (u.versions tableOf).slot hit.rid = some ⟨t, hit.old⟩ ∧ hit.old.flags = 0) ∧
    (Fits u.journal → Rep (u.versions tableOf) ∧ trx ∈ u.txnManager.activeTxns ∧
      ∀ hit ∈ left, (u.versions tableOf).Newest trx t hit.rid hit.old)
  done : ∃ changes, u.journal = s.journal ++ updateEvents trx changes ∧
    changes.map Prod.fst ++ left = hits ∧
    (∀ change ∈ changes, change.1.old.size ≤ UNDO_CAPACITY ∧
      Row.serialize schema change.1.newValues = .ok change.2.2) ∧
    (Fits u.journal → NotAgain changes left)

/-- Phase two has raised an exception. -/
structure UpdateRaised (schema : List ColumnTypes) (hits : List Hit) (message : String)
    (u : Database) : Prop where
  intact : ∃ pages tableOf, u.Sound pages tableOf ∧
    (Fits u.journal → Rep (u.versions tableOf))
  reason : ∃ hit ∈ hits,
    ¬ hit.old.size ≤ UNDO_CAPACITY ∧ message = "UndoLogManager::AppendUndoRecord fail." ∨
    Row.serialize schema hit.newValues = .error message ∨
    (∃ payload, Row.serialize schema hit.newValues = .ok payload ∧ ¬ VersionFits payload) ∧
      message = "LogBuffer::Write record larger than buffer capacity"

theorem wp_updateHit {hits rest : List Hit} {hit : Hit} (distinct : (hits.map Hit.rid).Nodup)
    (updating : Updating s trx t schema hits (hit :: rest) u) :
    (updateHit (some trx) t schema hit).wp
      (fun _ u' => Updating s trx t schema hits rest u')
      (fun message u' => UpdateRaised schema hits message u') u := by
  obtain ⟨⟨pages, tableOf, sound, stored, intact⟩, changes, journal, worked, serialized, notAgain⟩ :=
    updating
  obtain ⟨found, flags⟩ := stored hit (List.mem_cons_self ..)
  have alive : hit.old.isDel = false := by
    rw [Record.isDel, flags]
    rfl
  have member : hit ∈ hits := by
    rw [← worked]
    exact List.mem_append_right _ (List.mem_cons_self ..)
  have apart : ∀ other ∈ rest, other.rid ≠ hit.rid := by
    intro other later same
    rw [← worked, List.map_append, List.map_cons, List.nodup_append] at distinct
    exact (List.nodup_cons.mp distinct.2.1).1 (List.mem_map.mpr ⟨other, later, same⟩)
  obtain ⟨result, u', pages', tableOf', held, ran, sound', -, ends⟩ :=
    ExecutorUpdate.run_updateHit sound found alive trx schema
  generalize versions : u'.versions tableOf' = m' at ends
  have same_journal : u'.journal = m'.journal := congrArg VersionStore.journal versions
  have same_slot : ∀ rid, (u'.versions tableOf').slot rid = m'.slot rid := fun rid => by rw [versions]
  have entered : ∀ {new payload}, hit.old.size ≤ UNDO_CAPACITY →
      Row.serialize schema hit.newValues = .ok payload →
      m'.journal = u.journal ++ [.delete trx hit.rid, .replace trx hit.rid new payload] →
      (Fits u'.journal → ∀ other ∈ rest, new ≠ other.rid) →
      ∃ changes, u'.journal = s.journal ++ updateEvents trx changes ∧
        changes.map Prod.fst ++ rest = hits ∧
        (∀ change ∈ changes, change.1.old.size ≤ UNDO_CAPACITY ∧
          Row.serialize schema change.1.newValues = .ok change.2.2) ∧
        (Fits u'.journal → NotAgain changes rest) := by
    intro new payload small bytes after fresh
    refine ⟨changes ++ [(hit, new, payload)], ?_, ?_, ?_, ?_⟩
    · rw [same_journal, after, journal, List.append_assoc]
      simp [updateEvents]
    · rw [← worked]
      simp
    · intro change inChanges
      rcases List.mem_append.mp inChanges with earlier | last
      · exact serialized change earlier
      · obtain rfl := List.mem_singleton.mp last
        exact ⟨small, bytes⟩
    · intro fits
      have earlier := fits
      rw [same_journal, after, fits_append] at earlier
      exact (notAgain earlier.1).snoc (fresh fits)
  have representable : ∀ {pointer}, pointer.IsNext (u.versions tableOf).undo →
      pointer.isNull = false → Fits u.journal →
      Rep (((u.versions tableOf).save pointer hit.old).deletion trx t hit.rid hit.old pointer
        .updateDeleteOld) := by
    intro pointer isNext notNull fits
    obtain ⟨rep, active, newest⟩ := intact fits
    have grown := VersionStore.extends_save isNext.unused hit.old
    exact (rep.extended grown).deletion active
      ((newest hit (List.mem_cons_self ..)).extended grown) notNull
      (VersionStore.undo_save_self ..) rfl
  cases ends with
  | refused large =>
      rw [Program.wp_of_error ran]
      refine
        { intact := ⟨pages', tableOf', sound', ?_⟩
          reason := ⟨hit, member, .inl ⟨large, rfl⟩⟩ }
      intro fits
      rw [same_journal] at fits
      rw [versions]
      exact (intact fits).1
  | unserialized isNext small failed =>
      rw [Program.wp_of_error ran]
      refine
        { intact := ⟨pages', tableOf', sound', ?_⟩
          reason := ⟨hit, member, .inr (.inl failed)⟩ }
      intro fits
      rw [same_journal] at fits
      rw [versions]
      exact (intact fits).1.extended (VersionStore.extends_save isNext.unused _)
  | halfway isNext notNull small bytes large refused =>
      rw [Program.wp_of_error ran]
      refine
        { intact := ⟨pages', tableOf', sound', ?_⟩
          reason := ⟨hit, member, .inr (.inr ⟨⟨_, bytes, large⟩, rfl⟩)⟩ }
      intro fits
      rw [same_journal, VersionStore.journal_deletion, fits_append] at fits
      rw [versions]
      exact representable isNext notNull fits.1
  | @lost pointer payload isNext notNull small bytes large taken noPlace =>
      have unfit : ¬ Fits u'.journal := by
        intro fits
        rw [same_journal] at fits
        exact large (fits (.replace trx hit.rid ⟨0, 0⟩ payload)
          (List.mem_append_right _ (by simp)))
      rw [Program.wp_of_ok ran]
      refine
        { intact := ⟨pages', tableOf', sound', ?_, fun fits => absurd fits unfit⟩
          done := entered small bytes (List.append_assoc ..) fun fits => absurd fits unfit }
      intro other later
      obtain ⟨found', flags'⟩ := stored other (List.mem_cons_of_mem _ later)
      refine ⟨?_, flags'⟩
      rw [same_slot]
      change (((u.versions tableOf).save pointer hit.old).deletion trx t hit.rid hit.old pointer
        .updateDeleteOld).slot other.rid = _
      rw [VersionStore.slot_deletion, if_neg (apart other later)]
      exact found'
  | @done pointer payload new isNext notNull small bytes taken free placed =>
      have isWrite : Mvcc.IsWrite (.replace trx hit.rid new payload) := ⟨by simp, rfl⟩
      have elsewhere : ∀ other ∈ rest, new ≠ other.rid := by
        intro other later same
        have found' := (stored other (List.mem_cons_of_mem _ later)).1
        rw [← same, free] at found'
        cases found'
      have away : new ≠ hit.rid := by
        rintro rfl
        rw [free] at found
        cases found
      have free' : (((u.versions tableOf).save pointer hit.old).deletion trx t hit.rid hit.old
          pointer .updateDeleteOld).slot new = none := by
        rw [VersionStore.slot_deletion, if_neg away]
        exact free
      rw [Program.wp_of_ok ran]
      refine
        { intact := ⟨pages', tableOf', sound', ?_, ?_⟩
          done := entered small bytes (List.append_assoc ..) fun _ => elsewhere }
      · intro other later
        obtain ⟨found', flags'⟩ := stored other (List.mem_cons_of_mem _ later)
        refine ⟨?_, flags'⟩
        rw [same_slot, VersionStore.slot_insertion, if_neg (elsewhere other later).symm,
          VersionStore.slot_deletion, if_neg (apart other later)]
        exact found'
      · intro fits
        rw [same_journal, VersionStore.journal_insertion, VersionStore.journal_deletion,
          List.append_assoc, fits_append] at fits
        obtain ⟨rep, active, newest⟩ := intact fits.1
        have grown := VersionStore.extends_save isNext.unused hit.old
        have whole : tupleOf ⟨trx, pointer, 0⟩ payload = ⟨⟨trx, pointer, 0⟩, payload⟩ :=
          tupleOf_eq _ (fits.2 (.replace trx hit.rid new payload) (by simp))
        have manager := congrArg VersionStore.manager versions
        refine ⟨?_, ?_, ?_⟩
        · rw [versions, whole]
          exact (rep.extended grown).replacement active
            ((newest hit (List.mem_cons_self ..)).extended grown) notNull
            (VersionStore.undo_save_self ..) (.refl _) free' payload
        · change trx ∈ (u'.versions tableOf').manager.activeTxns
          rw [manager, VersionStore.activeTxns_insertion, VersionStore.activeTxns_deletion]
          exact active
        · intro other later
          rw [versions]
          have kept := (newest other (List.mem_cons_of_mem _ later)).extended grown
          have kept' := @VersionStore.Newest.deletion _ trx t _ _ hit.rid hit.old kept
            (apart other later) trx t pointer .updateDeleteOld
          exact kept'.insertion free' trx t .updateInsertNew isWrite

/-- What is collected at the end of phase one. -/
def Collected (s : Database) (pages : Nat → List Nat) (tableOf : Nat → Nat) (trx t : Nat)
    (schema : List ColumnTypes) (clauses : List SetClause) (filter : Option Filter)
    (hits : List Hit) : Prop :=
  ∃ u, Collecting s pages tableOf trx t schema clauses filter [] hits u

theorem wp_update (start : s.Sound pages tableOf) (rep : Rep (s.versions tableOf))
    (active : trx ∈ s.txnManager.activeTxns) (t : Nat) (schema : List ColumnTypes)
    (clauses : List SetClause) (filter : Option Filter) :
    (ExecutorUpdate.update (some trx) t schema clauses filter).wp
      (fun _ s' => ∃ hits, Collected s pages tableOf trx t schema clauses filter hits ∧
        Updating s trx t schema hits [] s')
      (fun message s' => s.items t = none ∧ s' = s ∨
        CollectRaised s pages tableOf trx t schema filter message s' ∨
        ∃ hits, Collected s pages tableOf trx t schema clauses filter hits ∧
          UpdateRaised schema hits message s') s := by
  unfold ExecutorUpdate.update
  rw [Program.wp_bind]
  cases entry : s.items t with
  | none =>
      rw [Program.wp_of_error (TableIterator.run_create_of_none entry)]
      exact .inl ⟨rfl, rfl⟩
  | some item =>
      obtain ⟨it, s₁, created, stands, pool, sound₁, -⟩ := TableIterator.run_create start entry
      rw [Program.wp_of_ok created, Program.wp_bind, Program.wp_get, Program.wp_bind]
      have enough : (s.addresses (pages t)).length ≤ s₁.slotCount := by
        rw [← Database.addresses_congr pool.rowCount]
        exact (sound₁.bounds t).2
      have begun : Collecting s pages tableOf trx t schema clauses filter (s.addresses (pages t)) []
          s₁ :=
        { pool := pool
          sound := sound₁
          done := ⟨[], rfl, rfl⟩
          newest := by simp
          values := by simp }
      apply (TableIterator.wp_whileNotEnd _ enough stands begun).mono
      · intro hits u collected
        obtain ⟨done, split, taken⟩ := collected.done
        have distinct : (hits.map Hit.rid).Nodup := by
          rw [taken]
          apply List.Nodup.filter
          rw [List.append_nil] at split
          exact split ▸ start.nodup_addresses t
        have versions := collected.pool.versions tableOf
        have begun : Updating s trx t schema hits hits u :=
          { intact := by
              refine ⟨pages, tableOf, collected.sound, ?_, ?_⟩
              · intro hit member
                have newest := collected.newest hit member
                rw [versions]
                exact ⟨newest.stored, newest.flags⟩
              · intro _
                rw [versions, collected.pool.txnManager]
                exact ⟨rep, active, collected.newest⟩
            done := ⟨[], by simp [updateEvents, collected.pool.journal], by simp, by simp,
              fun _ => ⟨List.Pairwise.nil, nofun⟩⟩ }
        rw [Program.wp_bind]
        apply (Program.wp_forM (fun hit rest s => wp_updateHit distinct) hits begun).mono
        · exact fun _ _ updated => ⟨hits, ⟨u, collected⟩, updated⟩
        · exact fun _ _ raises => .inr (.inr ⟨hits, ⟨u, collected⟩, raises⟩)
      · exact fun _ _ raises => .inr (.inl raises)
      · intro it rid rest acc u stands collecting
        exact wp_collectRound rep active stands collecting

end YourSQL
