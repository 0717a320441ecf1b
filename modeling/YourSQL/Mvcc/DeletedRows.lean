import YourSQL.Mvcc.UpdateConserves

/-! # The rows that DELETE takes out of a table

For a transaction that runs alone DELETE takes the live rows of which WHERE holds, one
after the other, and leaves the others and the other tables as they are. It comes to its
end unless WHERE raises an exception on a row, or a row has no place in an undo page.
-/

namespace YourSQL

open ExecutorUpdate (isMatch)
open Mvcc (VersionStore)

variable {s u u' : Database} {pages : Nat → List Nat} {tableOf : Nat → Nat} {trx t : Nat}
  {m₀ : VersionStore} {filter : Option Filter} {rows : Multiset (List UInt8)} {rid : RID}
  {rest : List RID} {deleted : Nat} {record : Record}

/-- The live records of which WHERE holds, at some addresses. -/
def Database.matchingAt (s : Database) (filter : Option Filter) (rids : List RID) : List Record :=
  (s.liveAt rids).filter (isMatch filter)

/-- WHERE raises an exception on the row, or the row is to go and cannot be saved. -/
def ExecutorDelete.isStuck (filter : Option Filter) (row : Record) : Bool :=
  match matchesFilter filter row.payload with
  | .error _ => true
  | .ok isMatch => isMatch && !decide (row.size ≤ UNDO_CAPACITY)

open ExecutorDelete (isStuck)

namespace Database

variable {done : List RID}

theorem matchingAt_append (s : Database) (filter : Option Filter) (rids rids' : List RID) :
    s.matchingAt filter (rids ++ rids') = s.matchingAt filter rids ++ s.matchingAt filter rids' := by
  simp [matchingAt, liveAt]

theorem matchingAt_singleton (found : s.tupleAt rid = some record) :
    s.matchingAt filter [rid] =
      if record.isLive && isMatch filter record then [record] else [] := by
  cases live : record.isLive <;> cases decision : isMatch filter record <;>
    simp [matchingAt, liveAt, found, live, decision, Option.filter]

end Database

/-- While a DELETE goes through the table: the rows that it has taken, with those that the
    table still holds, are the rows that there were. -/
structure Removing (s : Database) (pages : Nat → List Nat) (tableOf : Nat → Nat) (t : Nat)
    (filter : Option Filter) (rows : Multiset (List UInt8)) (left : List RID) (deleted : Nat)
    (u : Database) : Prop where
  taken : ∃ done stay, s.addresses (pages t) = done ++ left ∧
    deleted = (s.matchingAt filter done).length ∧
    (u.versions tableOf).toRecordStore.Holds t stay ∧
    ((s.matchingAt filter done).map Record.payload : Multiset (List UInt8)) + stay = rows
  within : RecordStore.Within t (s.versions tableOf).toRecordStore (u.versions tableOf).toRecordStore

namespace Removing

theorem pool (removing : Removing s pages tableOf t filter rows rest deleted u)
    (pool : u.PoolOnly u') : Removing s pages tableOf t filter rows rest deleted u' where
  taken := by
    obtain ⟨done, stay, split, count, holds, balance⟩ := removing.taken
    exact ⟨done, stay, split, count, pool.versions tableOf ▸ holds, balance⟩
  within := pool.versions tableOf ▸ removing.within

/-- One record is passed. -/
theorem pass (removing : Removing s pages tableOf t filter rows (rid :: rest) deleted u)
    (found : s.tupleAt rid = some record) (stays : (record.isLive && isMatch filter record) = false) :
    Removing s pages tableOf t filter rows rest deleted u where
  taken := by
    obtain ⟨done, stay, split, count, holds, balance⟩ := removing.taken
    have same : s.matchingAt filter (done ++ [rid]) = s.matchingAt filter done := by
      rw [Database.matchingAt_append, Database.matchingAt_singleton found, stays,
        if_neg Bool.false_ne_true, List.append_nil]
    exact ⟨done ++ [rid], stay, by simp [split], same ▸ count, holds, same ▸ balance⟩
  within := removing.within

/-- One record is deleted. -/
theorem take {pointer : UndoPointer}
    (removing : Removing s pages tableOf t filter rows (rid :: rest) deleted u)
    (found : s.tupleAt rid = some record) (goes : (record.isLive && isMatch filter record) = true)
    (stored : (u.versions tableOf).slot rid = some ⟨t, record⟩)
    (versions : u'.versions tableOf =
      ((u.versions tableOf).save pointer record).deletion trx t rid record pointer .delete) :
    Removing s pages tableOf t filter rows rest (deleted + 1) u' where
  taken := by
    obtain ⟨done, stay, split, count, holds, balance⟩ := removing.taken
    have isLive := (Bool.and_eq_true_iff.mp goes).1
    obtain ⟨stay', rfl, after⟩ :=
      holds.delete stored isLive (record.isLive_deleted trx pointer)
    have more : s.matchingAt filter (done ++ [rid]) = s.matchingAt filter done ++ [record] := by
      rw [Database.matchingAt_append, Database.matchingAt_singleton found, goes, if_pos rfl]
    refine ⟨done ++ [rid], stay', by simp [split], by simp [more, count], ?_, ?_⟩
    · rw [versions]
      exact after.congr rfl
    · rw [more, List.map_append, ← Multiset.coe_add, add_assoc, ← balance]
      rfl
  within := by
    apply removing.within.trans
    rw [versions]
    apply (RecordStore.Within.put _ (record.deleted trx pointer)).trans (.of_slot rfl t)
    · intro slot found
      obtain rfl := Option.some.inj (stored.symm.trans found)
      rfl

/-- What the rows of a table are after a DELETE that has come to its end. -/
theorem ended
    (removing : Removing s pages tableOf t filter
      ((s.liveAt (s.addresses (pages t))).map Record.payload) [] deleted u) :
    deleted = (s.matchingAt filter (s.addresses (pages t))).length ∧
      (u.versions tableOf).toRecordStore.Holds t
        (((s.liveAt (s.addresses (pages t))).filter fun row => !isMatch filter row).map
          Record.payload) := by
  obtain ⟨done, stay, split, count, holds, balance⟩ := removing.taken
  rw [List.append_nil] at split
  subst split
  refine ⟨count, ?_⟩
  suffices same : stay = ((s.liveAt (s.addresses (pages t))).filter fun row =>
      !isMatch filter row).map Record.payload from same ▸ holds
  unfold Database.matchingAt at balance
  generalize s.liveAt (s.addresses (pages t)) = live at balance ⊢
  apply add_left_cancel (balance.trans _)
  have parted := List.filter_append_perm (isMatch filter) live
  rw [Multiset.coe_add, Multiset.coe_eq_coe, ← List.map_append]
  exact (parted.map Record.payload).symm

end Removing

theorem wp_deleteRound_removing {it : TableIterator} (kept : s.Kept m₀ trx pages tableOf)
    (stands : it.Stands u pages tableOf t (rid :: rest))
    (deleting : DeleteRun s pages tableOf trx t filter it (rid :: rest) u)
    (removing : Removing s pages tableOf t filter rows (rid :: rest) deleted u) :
    (ExecutorDelete.round (some trx) filter it deleted).wp
      (fun next u' => Removing s pages tableOf t filter rows rest next.2 u') (fun _ _ => True) u := by
  obtain ⟨reaches, -, ahead, -⟩ := deleting
  obtain ⟨record, current, stored⟩ := stands.run_current reaches.sound
  obtain ⟨after, holds, -, -, -, here, -⟩ := stands.cons_inv
  have before : (s.versions tableOf).slot rid = some ⟨t, record⟩ :=
    (ahead rid (List.mem_cons_self ..)).symm.trans stored
  have found := Database.tupleAt_of_slot before
  have target := (congrFun (reaches.isTarget (some trx) filter) record).trans
    (kept.isTarget before filter)
  unfold ExecutorDelete.round
  rw [Program.wp_bind, Program.wp_of_ok current]
  dsimp only
  rw [Program.wp_bind, Program.wp_get, Program.wp_bind]
  cases decision : u.isTarget (some trx) filter record with
  | error message => exact trivial
  | ok isTaken =>
      have taken : isTaken = (record.isLive && isMatch filter record) := by
        rw [decision] at target
        unfold isMatch
        cases live : record.isLive with
        | false => simpa [live] using target
        | true =>
            rw [live, if_pos rfl] at target
            rw [← target]
            cases isTaken <;> simp
      rw [Program.wp_of_ok (Program.run_lift (.ok isTaken) u)]
      cases isTaken with
      | false =>
          obtain ⟨it', u', advanced, -, pool, -⟩ := stands.run_advance reaches.sound
          rw [if_neg Bool.false_ne_true, Program.wp_bind, Program.wp_of_ok advanced,
            Program.wp_pure]
          exact (removing.pass found taken.symm).pool pool
      | true =>
          have alive : record.isDel = false := by
            have isLive := (Bool.and_eq_true_iff.mp taken.symm).1
            rw [Record.isLive, Bool.and_eq_true_iff] at isLive
            simpa using isLive.1
          obtain ⟨u₁, sound₁, -, ran⟩ := run_deleteRecord reaches.sound holds.sees
            (holds.pageId.trans (here ▸ rfl)) stored alive (holds.pageId ▸ holds.pinned) trx
          rw [if_pos rfl, Program.wp_bind]
          by_cases small : record.size ≤ UNDO_CAPACITY
          · rw [if_pos small] at ran
            obtain ⟨tp', pointer, done, -, next, versions, sees, pageId, pinned⟩ := ran
            have rowCount : u₁.rowCount = u.rowCount := by
              apply @Database.rowCount_congr u u₁ tableOf
              intro other
              change ((u₁.versions tableOf).slot other).isSome = ((u.versions tableOf).slot other).isSome
              rw [versions, VersionStore.slot_deletion]
              split
              · rename_i same
                rw [same, stored]
                rfl
              · rfl
            have stands₁ := stands.congr sees pageId pinned rowCount
            obtain ⟨it', u', advanced, -, pool, -⟩ := stands₁.run_advance sound₁
            rw [← here, Program.wp_of_ok done, Program.wp_bind, Program.wp_of_ok advanced,
              Program.wp_pure]
            exact (removing.take found taken.symm stored versions).pool pool
          · rw [if_neg small] at ran
            rw [← here, Program.wp_of_error ran.1]
            exact trivial

namespace Database.Kept

/-- DELETE raises an exception on live rows that it cannot deal with. -/
theorem deleteFails_iff (kept : s.Kept m₀ trx pages tableOf)
    (stored : (s.versions tableOf).slot rid = some ⟨t, record⟩) :
    s.DeleteFails trx filter record ↔ record.isLive = true ∧ isStuck filter record = true := by
  unfold Database.DeleteFails isStuck
  rw [kept.isTarget stored]
  cases record.isLive with
  | false => simp
  | true =>
      cases matchesFilter filter record.payload with
      | error message => simp
      | ok isMatch => cases isMatch <;> simp

/-- A loop comes past all rows if none of the live ones raises an exception. -/
theorem clean_iff_live (kept : s.Kept m₀ trx pages tableOf) {fails : Record → Prop}
    {isBad : Record → Bool}
    (each : ∀ rid record, (s.versions tableOf).slot rid = some ⟨t, record⟩ →
      (fails record ↔ record.isLive = true ∧ isBad record = true)) :
    s.Clean pages t fails ↔ ∀ row ∈ s.liveAt (s.addresses (pages t)), isBad row = false := by
  constructor
  · intro clean row member
    obtain ⟨rid, inside, found, live⟩ := Database.mem_liveAt.mp member
    obtain ⟨record, stored⟩ := kept.sound.mem_addresses.mp inside
    obtain rfl := Option.some.inj ((Database.tupleAt_of_slot stored).symm.trans found)
    rw [← Bool.not_eq_true]
    exact fun bad => clean rid inside _ found ((each rid _ stored).mpr ⟨live, bad⟩)
  · intro good rid inside record found raised
    obtain ⟨record', stored⟩ := kept.sound.mem_addresses.mp inside
    obtain rfl := Option.some.inj ((Database.tupleAt_of_slot stored).symm.trans found)
    obtain ⟨live, bad⟩ := (each rid _ stored).mp raised
    rw [good _ (Database.mem_liveAt.mpr ⟨rid, inside, found, live⟩)] at bad
    cases bad

/-- A loop that stops has met a live row that raises an exception. -/
theorem exists_live_of_stopped (kept : s.Kept m₀ trx pages tableOf) {fails : Record → Prop}
    {isBad : Record → Bool}
    (each : ∀ rid record, (s.versions tableOf).slot rid = some ⟨t, record⟩ →
      (fails record ↔ record.isLive = true ∧ isBad record = true)) {held : List Nat}
    (stopped : StoppedAt s pages t fails rid rest held u) :
    ∃ row ∈ s.liveAt (s.addresses (pages t)), isBad row = true := by
  obtain ⟨record, found, raised⟩ := stopped.fails
  obtain ⟨done, split, -⟩ := stopped.passed
  have inside : rid ∈ s.addresses (pages t) := by simp [split]
  obtain ⟨record', stored⟩ := kept.sound.mem_addresses.mp inside
  obtain rfl := Option.some.inj ((Database.tupleAt_of_slot stored).symm.trans found)
  obtain ⟨live, bad⟩ := (each rid _ stored).mp raised
  exact ⟨_, Database.mem_liveAt.mpr ⟨rid, inside, found, live⟩, bad⟩

theorem wp_delete (kept : s.Kept m₀ trx pages tableOf) (t : Nat) (filter : Option Filter) :
    (ExecutorDelete.delete (some trx) t filter).wp
      (fun deleted u => u.Reaches (s.versions tableOf) trx pages tableOf ∧
        (s.items t).isSome = true ∧
        (∀ row ∈ s.liveAt (s.addresses (pages t)), isStuck filter row = false) ∧
        Removing s pages tableOf t filter ((s.liveAt (s.addresses (pages t))).map Record.payload) []
          deleted u)
      (fun _ u => u.Reaches (s.versions tableOf) trx pages tableOf ∧
        (s.items t = none ∨
          ∃ row ∈ s.liveAt (s.addresses (pages t)), isStuck filter row = true)) s := by
  have each : ∀ rid record, (s.versions tableOf).slot rid = some ⟨t, record⟩ →
      (s.DeleteFails trx filter record ↔ record.isLive = true ∧ isStuck filter record = true) :=
    fun rid record stored => kept.deleteFails_iff stored
  unfold ExecutorDelete.delete
  rw [Program.wp_bind]
  cases entry : s.items t with
  | none =>
      rw [Program.wp_of_error (TableIterator.run_create_of_none entry)]
      exact ⟨⟨kept.sound, .refl⟩, .inl rfl⟩
  | some item =>
      obtain ⟨it, s₁, created, stands, pool, sound₁, swaps⟩ := TableIterator.run_create kept.sound entry
      rw [Program.wp_of_ok created, Program.wp_bind, Program.wp_get]
      have enough : (s.addresses (pages t)).length ≤ s₁.slotCount := by
        rw [← Database.addresses_congr pool.rowCount]
        exact (sound₁.bounds t).2
      have begun : DeleteRun s pages tableOf trx t filter it (s.addresses (pages t)) s₁ :=
        { reaches := ⟨sound₁, pool.versions tableOf ▸ .refl⟩
          passing := .start swaps
          ahead := fun rid _ => by rw [pool.versions]
          distinct := kept.sound.nodup_addresses t }
      have whole : Removing s pages tableOf t filter
          ((s.liveAt (s.addresses (pages t))).map Record.payload) (s.addresses (pages t)) 0 s :=
        { taken := ⟨[], _, rfl, rfl, kept.holds t, zero_add _⟩
          within := .of_slot rfl t }
      apply (@TableIterator.wp_loop _ pages tableOf t Nat _
        (fun it left deleted u => DeleteRun s pages tableOf trx t filter it left u ∧
          Removing s pages tableOf t filter ((s.liveAt (s.addresses (pages t))).map Record.payload)
            left deleted u) _ _ _ _ enough _ _ stands ⟨begun, whole.pool pool⟩).mono
      · rintro deleted u ⟨it, -, deleting, removing⟩
        exact ⟨deleting.reaches, rfl, (kept.clean_iff_live each).mp deleting.passing.clean, removing⟩
      · exact fun _ _ raises => raises
      · rintro it rid rest deleted u stands ⟨deleting, removing⟩
        apply ((wp_deleteRound_steps kept.guarded kept.active stands deleting).and
          (wp_deleteRound_removing kept stands deleting removing)).mono
        · rintro next u' ⟨⟨stands', deleting'⟩, removing'⟩
          exact ⟨stands', deleting', removing'⟩
        · rintro _ u' ⟨⟨reaches, p, stopped⟩, -⟩
          exact ⟨reaches, .inr (kept.exists_live_of_stopped each stopped)⟩

end Database.Kept

end YourSQL
