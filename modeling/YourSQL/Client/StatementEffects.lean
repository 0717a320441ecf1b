import YourSQL.Client.TableContents
import YourSQL.Executor.TableEntries
import YourSQL.Mvcc.DeletedRows

/-! # What statements do for a transaction that runs alone

Each kind of statement is compared with its meaning: where it fails by its meaning it
raises an exception, and otherwise it returns what its meaning answers and leaves the rows
of every table that it is to leave.
-/

namespace YourSQL

open ExecutorUpdate (Hit SetClause isMatch isUnreadable isStorable comesToEnd newBytes)
open ExecutorDelete (isStuck)
open Mvcc (VersionStore)

variable {s u : Database} {pages : Nat → List Nat} {tableOf : Nat → Nat} {trx t : Nat}
  {m m' m₀ : VersionStore} {filter : Option Filter} {schema : List ColumnTypes}
  {clauses : List SetClause} {contents : Contents} {known : Nat → Bool}

namespace Database.Kept

/-- The rows of a table are its live records. -/
theorem contents_eq (kept : s.Kept m₀ trx pages tableOf)
    (holds : (s.versions tableOf).toRecordStore.HoldsAll contents) (t : Nat) :
    contents t = ((s.liveAt (s.addresses (pages t))).map Record.payload : List Row.Bytes) :=
  (holds t).unique (kept.holds t)

theorem mem_contents (kept : s.Kept m₀ trx pages tableOf)
    (holds : (s.versions tableOf).toRecordStore.HoldsAll contents) {row : Row.Bytes} :
    row ∈ contents t ↔
      ∃ record ∈ s.liveAt (s.addresses (pages t)), record.payload = row := by
  rw [kept.contents_eq holds t, Multiset.mem_coe, List.mem_map]

/-- A test of rows fails somewhere in the table. -/
theorem exists_contents_iff (kept : s.Kept m₀ trx pages tableOf)
    (holds : (s.versions tableOf).toRecordStore.HoldsAll contents) {stops : Row.Bytes → Bool}
    {isBad : Record → Bool} (same : ∀ record, isBad record = stops record.payload) :
    (∃ row ∈ contents t, stops row = true) ↔
      ∃ record ∈ s.liveAt (s.addresses (pages t)), isBad record = true := by
  constructor
  · rintro ⟨row, member, stop⟩
    obtain ⟨record, inside, rfl⟩ := (kept.mem_contents holds).mp member
    exact ⟨record, inside, (same record).trans stop⟩
  · rintro ⟨record, inside, bad⟩
    exact ⟨_, (kept.mem_contents holds).mpr ⟨record, inside, rfl⟩, (same record).symm.trans bad⟩

theorem all_contents (kept : s.Kept m₀ trx pages tableOf)
    (holds : (s.versions tableOf).toRecordStore.HoldsAll contents) {stops : Row.Bytes → Bool}
    {isBad : Record → Bool} (same : ∀ record, isBad record = stops record.payload)
    (good : ∀ record ∈ s.liveAt (s.addresses (pages t)), isBad record = false) :
    ∀ row ∈ contents t, stops row = false := by
  intro row member
  obtain ⟨record, inside, rfl⟩ := (kept.mem_contents holds).mp member
  exact (same record).symm.trans (good record inside)

end Database.Kept

namespace Statement

variable {statement : Statement}

theorem fails_of_missing (lists : s.Lists known) (missing : s.items statement.tableId = none) :
    statement.Fails known contents := by
  left
  rw [← lists, missing]
  rfl

theorem meaning_of_fails (fails : statement.Fails known contents) :
    statement.meaning known contents = none := if_pos fails

/-- The statement has come to its end: it has printed the answer, and the tables hold the
    rows that it leaves. -/
def Does (statement : Statement) (known : Nat → Bool) (contents : Contents) (m : VersionStore)
    (trx : Nat) (printed : Printed) (u : Database) : Prop :=
  ∃ pages tableOf answer contents', u.Reaches m trx pages tableOf ∧
    statement.meaning known contents = some (answer, contents') ∧
    Output.Tells (.printed printed) (.done answer) ∧
    (u.versions tableOf).toRecordStore.HoldsAll contents'

/-- The statement has raised an exception, and fails by its meaning. -/
def Breaks (statement : Statement) (known : Nat → Bool) (contents : Contents) (m : VersionStore)
    (trx : Nat) (u : Database) : Prop :=
  u.Ends m trx ∧ statement.meaning known contents = none

theorem Breaks.of_fails (ends : u.Ends m trx) (fails : statement.Fails known contents) :
    statement.Breaks known contents m trx u :=
  ⟨ends, if_pos fails⟩

/-- A statement that does not fail has only changed its own table. -/
theorem Does.of_table {printed : Printed} (table : statement.tableId = t) (there : known t = true)
    (accepted : statement.rowRefused = false)
    (passes : ∀ row ∈ contents t, statement.stopsAt row = false)
    (reaches : u.Reaches m trx pages tableOf)
    (tells : Output.Tells (.printed printed) (.done (statement.answer (contents t))))
    (before : m.toRecordStore.HoldsAll contents)
    (within : RecordStore.Within t m.toRecordStore (u.versions tableOf).toRecordStore)
    (holds : (u.versions tableOf).toRecordStore.Holds t (statement.rowsAfter (contents t))) :
    statement.Does known contents m trx printed u := by
  subst table
  refine ⟨pages, tableOf, _, _, reaches, if_neg ?_, tells, before.within within holds⟩
  rintro (unknown | refused | ⟨row, member, stops⟩)
  · rw [there] at unknown
    cases unknown
  · rw [accepted] at refused
    cases refused
  · rw [passes row member] at stops
    cases stops

end Statement

/-! ## SELECT -/

namespace Database

/-- What a scan shows of a record is what it reads without WHERE, and then WHERE decides. -/
theorem reads_filter (s : Database) (txn : Option Nat) (filter : Option Filter) (physical : Record) :
    s.reads txn filter physical = do
      match ← s.reads txn none physical with
      | none => return none
      | some version => return if ← passes filter version.payload then some version else none := by
  unfold Database.reads
  rcases ((ExecutorSeqScan.visibleVersion txn physical).run s).1 with message | _ | version <;> rfl

namespace Kept

variable {rid : RID} {record : Record}

theorem reads_of_slot (kept : s.Kept m₀ trx pages tableOf)
    (stored : (s.versions tableOf).slot rid = some ⟨t, record⟩) (filter : Option Filter) :
    s.reads (some trx) filter record =
      if record.isLive then (do return if ← passes filter record.payload then some record else none)
      else .ok none := by
  rw [reads_filter, kept.reads stored]
  cases record.isLive <;> rfl

theorem shownAt_eq (kept : s.Kept m₀ trx pages tableOf) (t : Nat) (filter : Option Filter) :
    s.shownAt (some trx) filter (s.addresses (pages t)) =
      (s.liveAt (s.addresses (pages t))).filter fun row => passes filter row.payload = .ok true := by
  rw [Database.shownAt, Database.liveAt, List.filter_filterMap]
  apply List.filterMap_congr
  intro rid member
  obtain ⟨record, stored⟩ := kept.sound.mem_addresses.mp member
  rw [Database.tupleAt_of_slot stored, Option.bind_some, kept.reads_of_slot stored]
  cases live : record.isLive with
  | false => simp [Option.filter, live]
  | true =>
      cases decision : passes filter record.payload with
      | error message => simp [Option.filter, live, decision, bind, Except.bind]
      | ok isTaken =>
          cases isTaken <;> simp [Option.filter, live, decision, bind, Except.bind, pure, Except.pure]

theorem readFails_iff (kept : s.Kept m₀ trx pages tableOf)
    (stored : (s.versions tableOf).slot rid = some ⟨t, record⟩) :
    s.ReadFails (some trx) filter record ↔ record.isLive = true ∧
      (!(passes filter record.payload).isOk) = true := by
  unfold Database.ReadFails
  rw [kept.reads_of_slot stored]
  cases record.isLive with
  | false => simp
  | true =>
      cases passes filter record.payload with
      | error message => simp [bind, Except.bind, Except.isOk, Except.toBool]
      | ok isTaken => simp [bind, Except.bind, pure, Except.pure, Except.isOk, Except.toBool]

end Kept

end Database

/-- What is printed of the rows that the scan returns. -/
theorem Statement.tells_rows (t : Nat) (schema : List ColumnTypes) (columnIds : List Nat)
    (filter : Option Filter) (live : List Record) :
    Output.Tells
      (.printed (.rows ((live.filter fun row =>
        passes (some (Execute.consume schema columnIds filter)) row.payload = .ok true).filterMap
          fun row => (Execute.valuesToPrint schema columnIds row.payload).toOption)))
      (.done ((select t schema columnIds filter).answer (live.map Record.payload))) := by
  have rows := Output.Tells.rows ((live.filter fun row =>
    passes (some (Execute.consume schema columnIds filter)) row.payload = .ok true).filterMap
      fun row => (Execute.valuesToPrint schema columnIds row.payload).toOption)
  unfold answer
  dsimp only
  rw [Multiset.filter_coe, Multiset.filterMap_coe, List.filter_map, List.filterMap_map]
  exact rows

theorem Statement.wp_print_select (kept : s.Kept m₀ trx pages tableOf)
    (holds : (s.versions tableOf).toRecordStore.HoldsAll contents) (lists : s.Lists known)
    (t : Nat) (schema : List ColumnTypes) (columnIds : List Nat) (filter : Option Filter) :
    ((select t schema columnIds filter).print trx).wp
      ((select t schema columnIds filter).Does known contents (s.versions tableOf) trx)
      (fun _ => (select t schema columnIds filter).Breaks known contents (s.versions tableOf) trx)
      s := by
  let wanted : Option Filter := some (Execute.consume schema columnIds filter)
  have each : ∀ rid record, (s.versions tableOf).slot rid = some ⟨t, record⟩ →
      (s.ReadFails (some trx) wanted record ↔
        record.isLive = true ∧ (!(passes wanted record.payload).isOk) = true) :=
    fun rid record stored => kept.readFails_iff stored
  cases entry : s.items t with
  | none =>
      have ran : ((select t schema columnIds filter).print trx).run s = (.error _, s) :=
        Program.run_bind_of_error (Program.run_bind_of_error (TableIterator.run_create_of_none entry))
      rw [Program.wp_of_error ran]
      exact .of_fails ⟨pages, tableOf, kept.sound, .refl⟩ (fails_of_missing lists entry)
  | some item =>
      unfold print
      rw [Program.wp_bind]
      apply (wp_select_pool kept.sound (some trx) t wanted).mono
      · rintro rows u ⟨scans, rfl, it, -, passing⟩
        have versions := scans.pool.versions tableOf
        have passed : ∀ row ∈ contents t,
            (select t schema columnIds filter).stopsAt row = false :=
          kept.all_contents holds (fun _ => rfl) ((kept.clean_iff_live each).mp passing.clean)
        apply @Does.of_table u pages tableOf trx t (s.versions tableOf) contents known _ _ rfl
          ((lists t).symm.trans (entry ▸ rfl)) rfl passed
          ⟨scans.sound, versions ▸ .refl⟩ _ holds (.of_slot (versions ▸ rfl) t)
        · exact versions ▸ holds t
        · rw [kept.shownAt_eq, kept.contents_eq holds t]
          exact tells_rows t schema columnIds filter _
      · rintro _ u ⟨scans, ended⟩
        apply Breaks.of_fails ⟨pages, tableOf, scans.sound, scans.pool.versions tableOf ▸ .refl⟩
        rcases ended with ⟨missing, -⟩ | ⟨rid, rest, held, -, stopped⟩
        · exact fails_of_missing lists missing
        · exact .inr (.inr ((kept.exists_contents_iff holds fun _ => rfl).mpr
            (kept.exists_live_of_stopped each stopped)))

/-! ## INSERT -/

theorem Statement.wp_print_insert (kept : s.Kept m₀ trx pages tableOf)
    (holds : (s.versions tableOf).toRecordStore.HoldsAll contents) (lists : s.Lists known)
    (t : Nat) (row : Except String Row.Bytes) (sized : (insert t row).Sized contents) :
    ((insert t row).print trx).wp
      ((insert t row).Does known contents (s.versions tableOf) trx)
      (fun _ => (insert t row).Breaks known contents (s.versions tableOf) trx) s := by
  obtain ⟨result, u, pages', tableOf', held, ran, sound', -, -, ends⟩ :=
    run_insert kept.sound (some trx) t row
  have steps := insert_steps kept.sound trx t row
  rw [ran] at steps
  unfold print
  rw [Program.wp_bind]
  generalize versions : u.versions tableOf' = m at ends
  generalize u.order pages' = order at ends
  cases ends with
  | noTable missing =>
      rw [Program.wp_of_error ran]
      exact .of_fails steps (fails_of_missing lists missing)
  | unserialized _ failed =>
      rw [Program.wp_of_error ran]
      exact .of_fails steps (.inr (.inl (by rw [failed]; rfl)))
  | @large payload _ _ made large =>
      rw [Program.wp_of_error ran]
      refine .of_fails steps (.inr (.inl ?_))
      rw [made]
      simp only [rowRefused, Bool.not_eq_true', decide_eq_false_iff_not]
      exact fun fits => large (size_tupleOf_of_fits _ fits)
  | @stored payload rid present made small unused =>
      rw [Program.wp_of_ok ran]
      subst made
      let tuple : Record := tupleOf ⟨trx, .null, 0⟩ payload
      have whole : tuple = ⟨⟨trx, .null, 0⟩, payload⟩ := tupleOf_of_small _ (sized payload rfl)
      have fits : VersionFits payload := by
        change tuple.size + SLOT_SIZE ≤ PAGE_SIZE - HEADER_SIZE at small
        rwa [whole] at small
      have somewhere : rid ≠ ⟨0, 0⟩ := by
        apply @Database.ne_zero_of_stored u tableOf' rid
        rw [versions]
        exact (VersionStore.slot_put ..).trans (if_pos rfl)
      have step : Mvcc.Step trx (s.versions tableOf) (u.versions tableOf') := by
        rw [versions]
        exact .insert unused somewhere rfl rfl (.inl rfl) rfl ⟨by simp, rfl⟩
      have slot : (u.versions tableOf').slot = ((s.versions tableOf).put rid ⟨t, tuple⟩).slot := by
        rw [versions]
        rfl
      apply @Does.of_table u pages' tableOf' trx t (s.versions tableOf) contents known _ _ rfl
        ((lists t).symm.trans present) (by simp [rowRefused, fits]) (fun _ _ => rfl)
        ⟨sound', .single step⟩ .done holds
      · apply RecordStore.Within.trans (.put _ tuple) (.of_slot slot t)
        intro slot found
        rw [unused] at found
        cases found
      · have more := (holds t).insert unused (show tuple.isLive = true from
          Record.isLive_of_flags_zero rfl)
        rw [whole] at more
        rw [whole] at slot
        exact more.congr slot

/-! ## DELETE -/

theorem Statement.card_holdsOf (filter : Option Filter) (live : List Record) :
    (((live.map Record.payload : List Row.Bytes) : Multiset Row.Bytes).filter
      fun row => holdsOf filter row = true).card = (live.filter (isMatch filter)).length := by
  rw [Multiset.filter_coe, Multiset.coe_card, List.filter_map, List.length_map]
  congr 2
  funext row
  simp [isMatch, holdsOf]

theorem Statement.rowsAfter_delete (t : Nat) (filter : Option Filter) (live : List Record) :
    (delete t filter).rowsAfter (live.map Record.payload : List Row.Bytes) =
      ((live.filter fun row => !isMatch filter row).map Record.payload : List Row.Bytes) := by
  unfold rowsAfter
  dsimp only
  rw [Multiset.filter_coe, List.filter_map]
  congr 3
  funext row
  simp [isMatch, holdsOf]

theorem Statement.wp_print_delete (kept : s.Kept m₀ trx pages tableOf)
    (holds : (s.versions tableOf).toRecordStore.HoldsAll contents) (lists : s.Lists known)
    (t : Nat) (filter : Option Filter) :
    ((delete t filter).print trx).wp
      ((delete t filter).Does known contents (s.versions tableOf) trx)
      (fun _ => (delete t filter).Breaks known contents (s.versions tableOf) trx) s := by
  unfold print
  rw [Program.wp_bind]
  apply (kept.wp_delete t filter).mono
  · rintro deleted u ⟨reaches, present, clean, removing⟩
    obtain ⟨rfl, after⟩ := removing.ended
    have passed : ∀ row ∈ contents t, (delete t filter).stopsAt row = false :=
      kept.all_contents holds (fun _ => rfl) clean
    apply @Does.of_table u pages tableOf trx t (s.versions tableOf) contents known _ _ rfl
      ((lists t).symm.trans present) rfl passed reaches _ holds removing.within
    · rw [kept.contents_eq holds t, rowsAfter_delete]
      exact after
    · rw [kept.contents_eq holds t, Database.matchingAt, ← card_holdsOf]
      exact .rowsDeleted _
  · rintro _ u ⟨reaches, missing | stuck⟩
    · exact .of_fails ⟨pages, tableOf, reaches⟩ (fails_of_missing lists missing)
    · exact .of_fails ⟨pages, tableOf, reaches⟩
        (.inr (.inr ((kept.exists_contents_iff holds fun _ => rfl).mpr stuck)))

/-! ## UPDATE -/

namespace Statement

variable {row : Record} {capacity : Option Nat}

theorem stopsAt_update_of_unreadable (t : Nat) (clauses : List SetClause)
    (unreadable : isUnreadable schema filter row = true) :
    (update t schema clauses filter).stopsAt row.payload = true := by
  unfold isUnreadable at unreadable
  unfold stopsAt updatedBytes
  dsimp only
  cases matched : matchesFilter filter row.payload with
  | error message => rfl
  | ok isTaken =>
      cases isTaken with
      | false => simp [matched] at unreadable
      | true =>
          cases read : Row.deserialize schema row.payload with
          | error message => rfl
          | ok values => simp [matched, read] at unreadable

/-- Phase two stops at a row that is to be replaced, though the log would take its new
    version. -/
theorem stopsAt_update_of_stuck (t : Nat) (matched : isMatch filter row = true)
    (taken : ∀ bytes, updatedBytes schema clauses row.payload = .ok bytes →
      LogTakes capacity (tupleOf ⟨INVALID_TX_ID, .null, 0⟩ bytes).size)
    (stuck : comesToEnd capacity schema clauses row = false) :
    (update t schema clauses filter).stopsAt row.payload = true := by
  unfold comesToEnd at stuck
  unfold isMatch at matched
  unfold stopsAt
  dsimp only
  rw [of_decide_eq_true matched]
  cases made : updatedBytes schema clauses row.payload with
  | error message => rfl
  | ok bytes =>
      rw [made] at stuck
      have large : ¬ row.size ≤ UNDO_CAPACITY := fun small =>
        of_decide_eq_false stuck ⟨small, taken bytes made⟩
      have notUndoable : undoable row.payload = false := decide_eq_false large
      simp [notUndoable]

theorem stopsAt_update_of_ended (t : Nat) (readable : isUnreadable schema filter row = false)
    (ends : isMatch filter row = true → comesToEnd capacity schema clauses row = true) :
    (update t schema clauses filter).stopsAt row.payload = false := by
  unfold isUnreadable at readable
  unfold isMatch comesToEnd at ends
  unfold stopsAt
  dsimp only
  cases matched : matchesFilter filter row.payload with
  | error message => simp [matched] at readable
  | ok isTaken =>
      cases isTaken with
      | false => rfl
      | true =>
          have ended := ends (by simp [matched])
          cases made : updatedBytes schema clauses row.payload with
          | error message => simp [made] at ended
          | ok bytes =>
              rw [made] at ended
              have small : undoable row.payload = true :=
                decide_eq_true (of_decide_eq_true ended).1
              simp [small, Except.isOk, Except.toBool]

/-- The new bytes of a row, if it is to be replaced. -/
theorem rowAfter_of_bytesAfter {bytes : Row.Bytes}
    (after : ExecutorUpdate.bytesAfter schema clauses filter row = .ok bytes) :
    rowAfter schema clauses filter row.payload = bytes := by
  unfold ExecutorUpdate.bytesAfter isMatch at after
  unfold rowAfter holdsOf
  split at after
  · rename_i matched
    rw [if_pos matched, after]
    rfl
  · rename_i matched
    rw [if_neg matched]
    exact Except.ok.inj after

theorem map_rowAfter {live : List Record} {expected : List Row.Bytes}
    (each : List.Forall₂ (fun row bytes => ExecutorUpdate.bytesAfter schema clauses filter row =
      .ok bytes) live expected) :
    (live.map Record.payload).map (rowAfter schema clauses filter) = expected := by
  induction each with
  | nil => rfl
  | cons here _ ih => rw [List.map_cons, List.map_cons, rowAfter_of_bytesAfter here, ih]

theorem isStorable_of_sized (fits : rowFits schema clauses row.payload = true)
    (ends : comesToEnd capacity schema clauses row = true) :
    isStorable schema clauses row = true := by
  unfold rowFits at fits
  unfold comesToEnd at ends
  unfold isStorable
  cases made : updatedBytes schema clauses row.payload with
  | error message => simp [made] at ends
  | ok bytes => simpa [made] using fits

end Statement

/-- The log takes the new versions that the statement makes. -/
theorem Database.Kept.takes_of_sized (kept : s.Kept m₀ trx pages tableOf) {row : Record}
    (fits : Statement.rowFits schema clauses row.payload = true) :
    ∀ bytes, updatedBytes schema clauses row.payload = .ok bytes →
      LogTakes s.logCapacity (tupleOf ⟨INVALID_TX_ID, .null, 0⟩ bytes).size := by
  intro bytes made
  apply kept.sound.logTakes
  apply size_tupleOf_of_fits
  unfold Statement.rowFits at fits
  rw [made] at fits
  exact of_decide_eq_true fits

theorem Statement.wp_print_update (kept : s.Kept m₀ trx pages tableOf)
    (holds : (s.versions tableOf).toRecordStore.HoldsAll contents) (lists : s.Lists known)
    (t : Nat) (schema : List ColumnTypes) (clauses : List SetClause) (filter : Option Filter)
    (sized : (update t schema clauses filter).Sized contents) :
    ((update t schema clauses filter).print trx).wp
      ((update t schema clauses filter).Does known contents (s.versions tableOf) trx)
      (fun _ => (update t schema clauses filter).Breaks known contents (s.versions tableOf) trx)
      s := by
  let live := s.liveAt (s.addresses (pages t))
  let hits := s.hitsAt trx schema clauses filter (s.addresses (pages t))
  have fits : ∀ row ∈ live, isMatch filter row = true → rowFits schema clauses row.payload = true :=
    fun row member matched => sized row.payload ((kept.mem_contents holds).mpr ⟨row, member, rfl⟩)
      matched
  have breaks : ∀ {u : Database}, u.Ends (s.versions tableOf) trx → ∀ row ∈ live,
      (update t schema clauses filter).stopsAt row.payload = true →
        (update t schema clauses filter).Breaks known contents (s.versions tableOf) trx u :=
    fun ends row member stops => .of_fails ends
      (.inr (.inr ⟨row.payload, (kept.mem_contents holds).mpr ⟨row, member, rfl⟩, stops⟩))
  have each : ∀ rid record, (s.versions tableOf).slot rid = some ⟨t, record⟩ →
      (s.GatherFails trx schema filter record ↔
        record.isLive = true ∧ isUnreadable schema filter record = true) :=
    fun rid record stored => kept.gatherFails_iff stored
  unfold print
  rw [Program.wp_bind]
  have steps := wp_update_steps kept.sound kept.guarded kept.active t schema clauses filter
  apply (steps.and ((Database.Lists.update (some trx) t schema clauses filter).wp lists)).mono
  · rintro updated u ⟨⟨clean, rfl, rewriting⟩, lists'⟩
    obtain ⟨pages', tableOf', done, split, sound', works, -⟩ := rewriting.works
    rw [List.append_nil] at split
    subst split
    have olds : hits.map Hit.old = live.filter (isMatch filter) := kept.old_hits clauses clean
    have ended : ∀ row ∈ live, isMatch filter row = true →
        comesToEnd s.logCapacity schema clauses row = true := by
      intro row member matched
      have inside : row ∈ hits.map Hit.old := olds ▸ List.mem_filter.mpr ⟨member, matched⟩
      obtain ⟨hit, isHit, rfl⟩ := List.mem_map.mp inside
      exact (hit.returns_iff (Database.mem_hitsAt isHit).2).mp (works.returns hit isHit)
    have storable : ∀ row ∈ live, isMatch filter row = true →
        isStorable schema clauses row = true := fun row member matched =>
      isStorable_of_sized (fits row member matched) (ended row member matched)
    have kept' : u.Kept m₀ trx pages' tableOf' := kept.reach ⟨sound', works.steps⟩
    obtain ⟨item', entry'⟩ := Option.isSome_iff_exists.mp rewriting.known
    obtain ⟨⟨rows', expected, seen, after, perm⟩, -, -⟩ := kept.conserves clean rewriting storable
    obtain rfl := Except.ok.inj ((kept'.seen entry').symm.trans seen)
    have passed : ∀ row ∈ contents t, (update t schema clauses filter).stopsAt row = false := by
      intro row member
      obtain ⟨record, inside, rfl⟩ := (kept.mem_contents holds).mp member
      exact stopsAt_update_of_ended t (kept.clean_iff.mp clean record inside) (ended record inside)
    have there : known t = true := (lists' t).symm.trans rewriting.known
    apply @Does.of_table u pages' tableOf' trx t (s.versions tableOf) contents known _ _ rfl
      there rfl passed ⟨sound', works.steps⟩ _ holds works.within
    · have rows := kept'.holds t
      rw [Multiset.coe_eq_coe.mpr perm, ← map_rowAfter after] at rows
      rw [kept.contents_eq holds t]
      exact rows
    · have count : hits.length = (live.filter (isMatch filter)).length := by
        rw [← olds, List.length_map]
      rw [kept.contents_eq holds t]
      change Output.Tells (.printed (.rowsUpdated hits.length)) _
      rw [count, ← card_holdsOf]
      exact .rowsUpdated _
  · rintro _ u ⟨⟨ends, ⟨missing, -⟩ | ⟨-, rid, rest, p, stopped⟩ | ⟨clean, hit, held, stopped⟩⟩, -⟩
    · exact .of_fails ends (fails_of_missing lists missing)
    · obtain ⟨row, member, unreadable⟩ := kept.exists_live_of_stopped each stopped
      exact breaks ends row member (stopsAt_update_of_unreadable t clauses unreadable)
    · obtain ⟨done, rest, split, -⟩ := stopped.worked
      have isHit : hit ∈ hits := by
        change hit ∈ s.hitsAt trx schema clauses filter (s.addresses (pages t))
        simp [split]
      have inside : hit.old ∈ live.filter (isMatch filter) := by
        rw [← kept.old_hits clauses clean]
        exact List.mem_map.mpr ⟨hit, isHit, rfl⟩
      obtain ⟨member, matched⟩ := List.mem_filter.mp inside
      have stuck : comesToEnd s.logCapacity schema clauses hit.old = false := by
        rw [← Bool.not_eq_true, ← hit.returns_iff (Database.mem_hitsAt isHit).2]
        exact stopped.raised.1
      exact breaks ends hit.old member
        (stopsAt_update_of_stuck t matched (kept.takes_of_sized (fits _ member matched)) stuck)

/-- A statement does what it means, whichever it is. -/
theorem Statement.wp_print (statement : Statement) (kept : s.Kept m₀ trx pages tableOf)
    (holds : (s.versions tableOf).toRecordStore.HoldsAll contents) (lists : s.Lists known)
    (sized : statement.Sized contents) :
    (statement.print trx).wp (statement.Does known contents (s.versions tableOf) trx)
      (fun _ => statement.Breaks known contents (s.versions tableOf) trx) s := by
  cases statement with
  | select t schema columnIds filter =>
      exact wp_print_select kept holds lists t schema columnIds filter
  | insert t row => exact wp_print_insert kept holds lists t row sized
  | delete t filter => exact wp_print_delete kept holds lists t filter
  | update t schema clauses filter =>
      exact wp_print_update kept holds lists t schema clauses filter sized

end YourSQL
