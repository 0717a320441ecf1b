import YourSQL.Mvcc.SnapshotScans

/-! # The rows that a WHERE selects

SELECT looks for the version that the transaction sees, DELETE and UPDATE look at the
newest one only. They agree on a row that nobody has written to outside of the
snapshot, and a row that somebody has written to they pass in silence.
-/

namespace YourSQL

open Mvcc (Rep LogicalRow Version VersionStore seenBy shownAt rowsOf takes tableRows)

variable {s s' : Database} {pages : Nat → List Nat} {tableOf : Nat → Nat} {trx t : Nat}
  {filter : Option Filter}

namespace Mvcc

/-- Whether a SELECT returns the row. -/
def LogicalRow.selected (row : LogicalRow) (sees : Nat → Bool) (t : Nat) (filter : Option Filter) :
    Bool :=
  row.tableId == t &&
    (row.versionFor sees).any fun version => decide (passes filter version.payload = .ok true)

/-- WHERE can be told of every row that is seen. -/
def Decides (journal : List Event) (trx t : Nat) (filter : Option Filter) : Prop :=
  ∀ row ∈ rowsOf journal, row.tableId = t → ∀ version,
    row.versionFor (seenBy trx journal) = some version →
      ∃ isMatch, passes filter version.payload = .ok isMatch

theorem mem_tableRows {journal : List Event} {row : LogicalRow} :
    row ∈ tableRows t journal ↔ row ∈ rowsOf journal ∧ row.tableId = t := by
  rw [tableRows, List.mem_filter, beq_iff_eq]

theorem LogicalRow.mem_copies {row : LogicalRow} {sees : Nat → Bool} {payload : List UInt8} :
    payload ∈ row.copies sees ↔ ∃ version, row.versionFor sees = some version ∧ version.payload = payload := by
  unfold copies
  cases row.versionFor sees with
  | none => simp
  | some version => simp [eq_comm]

/-- What passes of the copies of a row, if the row belongs to the table. -/
theorem LogicalRow.filter_copies (row : LogicalRow) (sees : Nat → Bool) (t : Nat)
    (filter : Option Filter) :
    (if row.tableId == t then
        (row.copies sees).filter fun payload => decide (passes filter payload = .ok true)
      else []) =
      if row.selected sees t filter then row.copies sees else [] := by
  unfold selected copies
  cases row.tableId == t with
  | false => rfl
  | true =>
      cases row.versionFor sees with
      | none => rfl
      | some version =>
          cases passed : decide (passes filter version.payload = .ok true) <;> simp_all

theorem filter_copies (rows : List LogicalRow) (sees : Nat → Bool) (t : Nat)
    (filter : Option Filter) :
    ((rows.filter (·.tableId == t)).flatMap (·.copies sees)).filter
        (fun payload => decide (passes filter payload = .ok true)) =
      (rows.filter (·.selected sees t filter)).flatMap (·.copies sees) := by
  induction rows with
  | nil => rfl
  | cons row rows ih =>
      have here := row.filter_copies sees t filter
      rw [List.filter_cons, List.filter_cons]
      cases ofTable : row.tableId == t <;> cases selected : row.selected sees t filter <;>
        simp_all

end Mvcc

/-! ## SELECT -/

/-- What is shown somewhere in the table is the version of some row. -/
theorem shown_iff (sound : s.Sound pages tableOf) (rep : Rep (s.versions tableOf))
    {payload : List UInt8} :
    (∃ rid ∈ s.addresses (pages t), shownAt s.journal trx rid = some payload) ↔
      ∃ row ∈ rowsOf s.journal, row.tableId = t ∧ ∃ version,
        row.versionFor (seenBy trx s.journal) = some version ∧ version.payload = payload := by
  rw [← List.mem_filterMap, (shown_table sound rep).mem_iff, List.mem_flatMap]
  constructor
  · rintro ⟨row, member, inCopies⟩
    obtain ⟨inRows, ofTable⟩ := Mvcc.mem_tableRows.mp member
    exact ⟨row, inRows, ofTable, LogicalRow.mem_copies.mp inCopies⟩
  · rintro ⟨row, inRows, ofTable, version⟩
    exact ⟨row, Mvcc.mem_tableRows.mpr ⟨inRows, ofTable⟩, LogicalRow.mem_copies.mpr version⟩

/-- SELECT returns if and only if WHERE can be told of every row that is seen, and then
    it returns the selected rows, each at least once, and no others. -/
theorem run_select (sound : s.Sound pages tableOf) (rep : Rep (s.versions tableOf))
    (active : trx ∈ s.txnManager.activeTxns) (t : Nat) (filter : Option Filter) :
    (∃ rows s', (ExecutorSeqScan.select (some trx) t filter).run s = (.ok rows, s') ∧
        (rows.map Record.payload).Perm (((rowsOf s.journal).filter
          (·.selected (seenBy trx s.journal) t filter)).flatMap (·.copies (seenBy trx s.journal)))) ∧
        (s.items t).isSome = true ∧ Mvcc.Decides s.journal trx t filter ∨
      (∃ message s', (ExecutorSeqScan.select (some trx) t filter).run s = (.error message, s')) ∧
        ¬ ((s.items t).isSome = true ∧ Mvcc.Decides s.journal trx t filter) := by
  have scanned := wp_select sound rep active t filter
  unfold Program.wp at scanned
  split at scanned
  · rename_i rows s' ran
    obtain ⟨done, split, payloads, decided⟩ := scanned.done
    rw [List.append_nil] at split
    rw [← split] at payloads decided
    refine .inl ⟨⟨rows, s', ran, ?_⟩, ?_, ?_⟩
    · rw [payloads, ← Mvcc.filter_copies]
      exact (shown_table sound rep).filter _
    · cases entry : s.items t with
      | some item => rfl
      | none =>
          unfold ExecutorSeqScan.select at ran
          rw [Program.run_bind_of_error (TableIterator.run_create_of_none entry)] at ran
          cases ran
    · intro row inRows ofTable version shown
      obtain ⟨rid, member, shownHere⟩ :=
        (shown_iff sound rep).mpr ⟨row, inRows, ofTable, version, shown, rfl⟩
      exact decided rid member _ shownHere
  · rename_i message s' ran
    refine .inr ⟨⟨message, s', ran⟩, ?_⟩
    rintro ⟨table, decides⟩
    rcases scanned with ⟨-, -, rid, member, payload, shown, reason⟩ | ⟨absent, -⟩
    · obtain ⟨row, inRows, ofTable, version, shownThere, rfl⟩ :=
        (shown_iff sound rep).mp ⟨rid, member, shown⟩
      obtain ⟨message', failed⟩ := reason
      obtain ⟨isMatch, passed⟩ := decides row inRows ofTable version shownThere
      rw [failed] at passed
      cases passed
    · rw [absent] at table
      cases table

/-! ## The rows that DELETE and UPDATE take -/

namespace Mvcc

/-- The version that DELETE and UPDATE take of a row: the newest one, or none. -/
def LogicalRow.target (row : LogicalRow) (sees : Nat → Bool) (t : Nat) (filter : Option Filter) :
    Option Version :=
  if row.tableId = t ∧ row.deletedBy = none then
    row.versions.head?.filter fun version =>
      sees version.trx && decide (matchesFilter filter version.payload = .ok true)
  else
    none

theorem LogicalRow.target_eq_some {row : LogicalRow} {sees : Nat → Bool} {version : Version} :
    row.target sees t filter = some version ↔ row.tableId = t ∧ row.deletedBy = none ∧
      row.versions.head? = some version ∧ sees version.trx = true ∧
      matchesFilter filter version.payload = .ok true := by
  unfold target
  split
  · rename_i live
    simp [Option.filter_eq_some_iff, live]
  · rename_i notLive
    simp only [reduceCtorEq, false_iff]
    exact fun ⟨ofTable, live, _⟩ => notLive ⟨ofTable, live⟩

theorem takes_eq_ok_true {journal : List Event} {record : Record} :
    takes journal trx filter record = .ok true ↔ record.flags = 0 ∧
      seenBy trx journal record.trxId = true ∧ matchesFilter filter record.payload = .ok true := by
  unfold takes
  split
  · rename_i free
    simp [free]
  · rename_i notFree
    simp only [Except.ok.injEq, Bool.false_eq_true, false_iff]
    exact fun ⟨flags, seen, _⟩ => notFree ⟨flags, seen⟩

/-- DELETE and UPDATE differ from SELECT where the value of WHERE is null. -/
theorem matchesFilter_cases (filter : Option Filter) (payload : List UInt8) :
    matchesFilter filter payload = passes filter payload ∨
      matchesFilter filter payload = .ok false := by
  cases filter with
  | none => exact .inl rfl
  | some filter =>
      unfold matchesFilter passes
      dsimp only
      cases filter payload with
      | error message => exact .inl rfl
      | ok value =>
          cases null : value.isNull with
          | true => exact .inr (if_pos null)
          | false => exact .inl (if_neg (by simp [null]))

theorem passes_of_matchesFilter {payload : List UInt8}
    (isMatch : matchesFilter filter payload = .ok true) : passes filter payload = .ok true := by
  rcases matchesFilter_cases filter payload with same | noMatch
  · exact same.symm.trans isMatch
  · rw [noMatch] at isMatch
    cases isMatch

theorem passes_of_matchesFilter_error {payload : List UInt8} {message : String}
    (failed : matchesFilter filter payload = .error message) :
    passes filter payload = .error message := by
  rcases matchesFilter_cases filter payload with same | noMatch
  · exact same.symm.trans failed
  · rw [noMatch] at failed
    cases failed

/-- The newest version, if it is seen and not deleted, is the one in the snapshot. -/
theorem LogicalRow.versionFor_of_head {row : LogicalRow} {sees : Nat → Bool} {version : Version}
    (live : row.deletedBy = none) (head : row.versions.head? = some version)
    (seen : sees version.trx = true) : row.versionFor sees = some version := by
  obtain ⟨older, versions⟩ := List.head?_eq_some_iff.mp head
  simp [versionFor, live, versions, seen]

theorem LogicalRow.selected_iff {row : LogicalRow} {sees : Nat → Bool} :
    row.selected sees t filter = true ↔ row.tableId = t ∧
      ∃ version, row.versionFor sees = some version ∧ passes filter version.payload = .ok true := by
  simp [selected, Option.any_eq_true]

theorem LogicalRow.selected_of_target {row : LogicalRow} {sees : Nat → Bool} {version : Version}
    (target : row.target sees t filter = some version) : row.selected sees t filter = true := by
  obtain ⟨ofTable, live, head, seen, isMatch⟩ := target_eq_some.mp target
  exact selected_iff.mpr
    ⟨ofTable, version, versionFor_of_head live head seen, passes_of_matchesFilter isMatch⟩

/-- The record of a target, and that it is taken. -/
theorem Rep.record_of_target {m : VersionStore} (rep : Rep m) {row : LogicalRow}
    (member : row ∈ m.rows) {version : Version}
    (target : row.target (seenBy trx m.journal) t filter = some version) :
    ∃ record, m.slot version.rid = some ⟨t, record⟩ ∧ record.payload = version.payload ∧
      takes m.journal trx filter record = .ok true := by
  obtain ⟨rfl, live, head, seen, isMatch⟩ := LogicalRow.target_eq_some.mp target
  obtain ⟨older, versions⟩ := List.head?_eq_some_iff.mp head
  have position : row.Position none version older := by
    rw [LogicalRow.Position, live, versions]
    exact .here
  obtain ⟨record, found, payload, trxId, flags, -⟩ :=
    rep.stored row member none version older position
  refine ⟨record, found, payload, takes_eq_ok_true.mpr ⟨flags, ?_, ?_⟩⟩
  · rw [trxId]
    exact seen
  · rw [payload]
    exact isMatch

/-- A record that is taken belongs to a target. -/
theorem Rep.target_of_takes {m : VersionStore} (rep : Rep m) {rid : RID} {record : Record}
    (stored : m.slot rid = some ⟨t, record⟩)
    (taken : takes m.journal trx filter record = .ok true) :
    ∃ row ∈ m.rows, ∃ version, row.target (seenBy trx m.journal) t filter = some version ∧
      version.rid = rid ∧ version.payload = record.payload := by
  obtain ⟨row, member, version, older, versions, live, rfl, rfl, recordOf⟩ :=
    rep.newest_row (newest_of_takes stored taken)
  obtain ⟨flags, seen, isMatch⟩ := takes_eq_ok_true.mp taken
  obtain ⟨payload, trxId, -⟩ := recordOf
  refine ⟨row, member, version, LogicalRow.target_eq_some.mpr ⟨rfl, live, ?_, ?_, ?_⟩, rfl,
    payload.symm⟩
  · rw [versions]
    rfl
  · rw [← trxId]
    exact seen
  · rw [← payload]
    exact isMatch

end Mvcc

/-- The addresses that are taken are those of the targets. -/
theorem mem_taken (sound : s.Sound pages tableOf) (rep : Rep (s.versions tableOf)) {rid : RID} :
    rid ∈ (s.versions tableOf).taken trx filter (s.addresses (pages t)) ↔
      ∃ row ∈ rowsOf s.journal, ∃ version,
        row.target (seenBy trx s.journal) t filter = some version ∧ version.rid = rid := by
  rw [VersionStore.taken, List.mem_filter, sound.mem_addresses]
  constructor
  · rintro ⟨⟨record, stored⟩, taken⟩
    rw [stored, Option.any_some, decide_eq_true_iff] at taken
    obtain ⟨row, member, version, target, here, -⟩ := rep.target_of_takes stored taken
    exact ⟨row, member, version, target, here⟩
  · rintro ⟨row, member, version, target, rfl⟩
    obtain ⟨record, stored, -, taken⟩ := rep.record_of_target member target
    refine ⟨⟨record, stored⟩, ?_⟩
    rw [stored, Option.any_some, decide_eq_true_iff]
    exact taken

/-! ## DELETE -/

namespace Mvcc

/-- The row, deleted by a transaction at one of some addresses. -/
theorem LogicalRow.foldl_delete (rids : List RID) (trx : Nat) (row : LogicalRow) :
    rids.foldl (fun row rid => row.delete trx rid) row =
      if row.deletedBy = none ∧ ∃ version, row.versions.head? = some version ∧ version.rid ∈ rids then
        { row with deletedBy := some trx }
      else
        row := by
  induction rids generalizing row with
  | nil => simp
  | cons rid rids ih =>
      rw [List.foldl_cons, ih]
      by_cases here : row.LiveAt rid
      · obtain ⟨version, first, same⟩ := Option.map_eq_some_iff.mp here.2
        have hit : row.deletedBy = none ∧ ∃ version, row.versions.head? = some version ∧
            version.rid ∈ rid :: rids := ⟨here.1, version, first, same ▸ List.mem_cons_self ..⟩
        have gone : ¬ (({ row with deletedBy := some trx } : LogicalRow).deletedBy = none ∧
            ∃ version, row.versions.head? = some version ∧ version.rid ∈ rids) := nofun
        rw [LogicalRow.delete, if_pos here, if_neg gone, if_pos hit]
      · rw [LogicalRow.delete, if_neg here]
        have elsewhere : ∀ version, row.deletedBy = none → row.versions.head? = some version →
            version.rid ≠ rid := by
          rintro version live head rfl
          exact here ⟨live, by rw [head]; rfl⟩
        simp only [List.mem_cons]
        congr 1
        simp only [eq_iff_iff, and_congr_right_iff]
        intro live
        constructor
        · exact fun ⟨version, head, member⟩ => ⟨version, head, .inr member⟩
        · exact fun ⟨version, head, member⟩ =>
            ⟨version, head, member.resolve_left (elsewhere version live head)⟩

theorem rowsOf_deletions (journal : List Event) (rids : List RID) (trx : Nat) :
    rowsOf (journal ++ rids.map (.delete trx)) =
      (rowsOf journal).map fun row => rids.foldl (fun row rid => row.delete trx rid) row := by
  induction rids using List.reverseRecOn with
  | nil => simp
  | append_singleton rids rid ih =>
      rw [List.map_append, ← List.append_assoc]
      change rowsOf (_ ++ [_]) = _
      rw [rowsOf_snoc, ih]
      simp [applyEvent]

end Mvcc

/-- The rows after a DELETE: the targets are deleted. -/
theorem rowsOf_deleted (sound : s.Sound pages tableOf) (rep : Rep (s.versions tableOf)) :
    rowsOf (s.journal ++
        ((s.versions tableOf).taken trx filter (s.addresses (pages t))).map (.delete trx)) =
      (rowsOf s.journal).map fun row =>
        if (row.target (seenBy trx s.journal) t filter).isSome then
          { row with deletedBy := some trx }
        else
          row := by
  rw [Mvcc.rowsOf_deletions]
  apply List.map_congr_left
  intro row member
  rw [LogicalRow.foldl_delete]
  congr 1
  simp only [eq_iff_iff, Option.isSome_iff_exists, mem_taken sound rep]
  constructor
  · rintro ⟨live, version, head, row', member', version', target, same⟩
    obtain ⟨-, -, head', -⟩ := LogicalRow.target_eq_some.mp target
    have inRow : version.rid ∈ row.rids :=
      List.mem_map.mpr ⟨version, List.mem_of_head? head, rfl⟩
    have inOther : version.rid ∈ row'.rids :=
      List.mem_map.mpr ⟨version', List.mem_of_head? head', same⟩
    obtain rfl := rep.row_unique member member' inRow inOther
    exact ⟨version', target⟩
  · rintro ⟨version, target⟩
    obtain ⟨-, live, head, -⟩ := LogicalRow.target_eq_some.mp target
    exact ⟨live, version, head, row, member, version, target, rfl⟩

/-- Every selected row is at its newest write, WHERE holds of it as DELETE takes it, and
    an undo page has space for it. -/
def Mvcc.Writable (journal : List Event) (trx t : Nat) (filter : Option Filter) : Prop :=
  ∀ row ∈ rowsOf journal, row.tableId = t → ∀ version,
    row.versionFor (seenBy trx journal) = some version →
    passes filter version.payload = .ok true →
      row.deletedBy = none ∧ row.versions.head? = some version ∧
        matchesFilter filter version.payload = .ok true ∧
        REC_HEADER_SIZE + version.payload.length ≤ UNDO_CAPACITY

theorem Mvcc.Writable.target {journal : List Event} (writable : Mvcc.Writable journal trx t filter)
    {row : LogicalRow} (member : row ∈ rowsOf journal)
    (selected : row.selected (seenBy trx journal) t filter = true) :
    ∃ version, row.target (seenBy trx journal) t filter = some version ∧
      REC_HEADER_SIZE + version.payload.length ≤ UNDO_CAPACITY := by
  obtain ⟨ofTable, version, shown, passed⟩ := LogicalRow.selected_iff.mp selected
  obtain ⟨live, head, isMatch, small⟩ := writable row member ofTable version shown passed
  have seen := List.find?_some (LogicalRow.find?_of_versionFor shown)
  exact ⟨version, LogicalRow.target_eq_some.mpr ⟨ofTable, live, head, seen, isMatch⟩, small⟩

/-- Where WHERE can be told, the test of no record raises an exception. -/
theorem Mvcc.Rep.takes_of_decides {m : VersionStore} (rep : Rep m)
    (decides : Mvcc.Decides m.journal trx t filter) {rid : RID} {record : Record}
    (stored : m.slot rid = some ⟨t, record⟩) {message : String} :
    takes m.journal trx filter record ≠ .error message := by
  intro failed
  unfold takes at failed
  split at failed
  · rename_i free
    obtain ⟨row, member, version, older, versions, live, rfl, rfl, recordOf⟩ :=
      rep.newest_row ⟨stored, free.1, free.2⟩
    obtain ⟨payload, trxId, -⟩ := recordOf
    have shown : row.versionFor (seenBy trx m.journal) = some version :=
      LogicalRow.versionFor_of_head live (by rw [versions]; rfl) (trxId ▸ free.2)
    obtain ⟨isMatch, passed⟩ := decides row member rfl version shown
    rw [← payload, Mvcc.passes_of_matchesFilter_error failed] at passed
    cases passed
  · cases failed

def WRITE_CONFLICT : String := "WriteConflict: row modified by another in-progress transaction"

/-- SELECT returns rows, and DELETE deletes them and no others, or it raises the conflict. -/
def DeletesSelected (s : Database) (trx t : Nat) (filter : Option Filter) : Prop :=
  (∃ rows s', (ExecutorSeqScan.select (some trx) t filter).run s = (.ok rows, s')) ∧
    ((∃ deleted s', (ExecutorDelete.delete (some trx) t filter).run s = (.ok deleted, s') ∧
        s'.Intact ∧ rowsOf s'.journal = (rowsOf s.journal).map fun row =>
          if row.selected (seenBy trx s.journal) t filter then
            { row with deletedBy := some trx }
          else
            row) ∨
      ∃ s', (ExecutorDelete.delete (some trx) t filter).run s = (.error WRITE_CONFLICT, s'))

theorem run_select_isOk (sound : s.Sound pages tableOf) (rep : Rep (s.versions tableOf))
    (active : trx ∈ s.txnManager.activeTxns) :
    (∃ rows s', (ExecutorSeqScan.select (some trx) t filter).run s = (.ok rows, s')) ↔
      (s.items t).isSome = true ∧ Mvcc.Decides s.journal trx t filter := by
  rcases run_select sound rep active t filter with
    ⟨⟨rows, s', ran, -⟩, table, decides⟩ | ⟨⟨message, s', ran⟩, not⟩
  · exact ⟨fun _ => ⟨table, decides⟩, fun _ => ⟨rows, s', ran⟩⟩
  · refine ⟨?_, fun both => absurd both not⟩
    rintro ⟨rows, s'', ran'⟩
    rw [ran] at ran'
    cases ran'

/-- A deletion of one's own is seen: a row that is seen is not so deleted. -/
theorem Mvcc.LogicalRow.not_own_deletion {row : LogicalRow} {journal : List Event}
    (selected : row.selected (seenBy trx journal) t filter = true) :
    { row with deletedBy := some trx } ≠ row := by
  intro same
  obtain ⟨-, version, shown, -⟩ := LogicalRow.selected_iff.mp selected
  have own : row.deletedBy = some trx := (congrArg LogicalRow.deletedBy same).symm
  rw [LogicalRow.versionFor, own, if_pos (by simp [seenBy])] at shown
  cases shown

/-- If there is space for all targets, being writable means that the selected rows are
    the targets. -/
theorem Mvcc.writable_iff {journal : List Event}
    (small : ∀ row ∈ rowsOf journal, ∀ version,
      row.target (seenBy trx journal) t filter = some version →
        REC_HEADER_SIZE + version.payload.length ≤ UNDO_CAPACITY) :
    Mvcc.Writable journal trx t filter ↔ ∀ row ∈ rowsOf journal,
      row.selected (seenBy trx journal) t filter = (row.target (seenBy trx journal) t filter).isSome := by
  constructor
  · intro writable row member
    cases target : row.target (seenBy trx journal) t filter with
    | some version => exact LogicalRow.selected_of_target target
    | none =>
        cases selected : row.selected (seenBy trx journal) t filter with
        | false => rfl
        | true =>
            obtain ⟨version, found, -⟩ := writable.target member selected
            rw [target] at found
            cases found
  · intro same row member ofTable version shown passed
    have selected := LogicalRow.selected_iff.mpr ⟨ofTable, version, shown, passed⟩
    rw [same row member, Option.isSome_iff_exists] at selected
    obtain ⟨version', target⟩ := selected
    obtain ⟨-, live, head, seen, isMatch⟩ := LogicalRow.target_eq_some.mp target
    obtain rfl : version' = version :=
      Option.some.inj ((LogicalRow.versionFor_of_head live head seen).symm.trans shown)
    exact ⟨live, head, isMatch, small row member _ target⟩

/-- Marking the targets is marking the selected rows only if they are the same. -/
theorem Mvcc.map_deleted_eq_iff {journal : List Event} :
    ((rowsOf journal).map fun row =>
        if (row.target (seenBy trx journal) t filter).isSome then
          { row with deletedBy := some trx }
        else
          row) =
      ((rowsOf journal).map fun row =>
        if row.selected (seenBy trx journal) t filter then
          { row with deletedBy := some trx }
        else
          row) ↔
      ∀ row ∈ rowsOf journal,
        row.selected (seenBy trx journal) t filter =
          (row.target (seenBy trx journal) t filter).isSome := by
  rw [List.map_inj_left]
  apply forall₂_congr
  intro row member
  cases target : row.target (seenBy trx journal) t filter with
  | some version => simp [LogicalRow.selected_of_target target]
  | none =>
      cases selected : row.selected (seenBy trx journal) t filter with
      | false => simp
      | true =>
          have marked := LogicalRow.not_own_deletion selected
          simp only [Option.isSome_none, Bool.false_eq_true, if_false, if_true, reduceCtorEq,
            iff_false]
          exact fun same => marked same.symm

/-- An undo page has space for a target where it has space for its record. -/
theorem Mvcc.Rep.small_target {m : VersionStore} (rep : Rep m)
    (small : ∀ rid record, m.slot rid = some ⟨t, record⟩ →
      takes m.journal trx filter record = .ok true → record.size ≤ UNDO_CAPACITY)
    {row : LogicalRow} (member : row ∈ m.rows) {version : Version}
    (target : row.target (seenBy trx m.journal) t filter = some version) :
    REC_HEADER_SIZE + version.payload.length ≤ UNDO_CAPACITY := by
  obtain ⟨record, stored, payload, taken⟩ := rep.record_of_target member target
  have fits := small version.rid record stored taken
  rw [Record.size, payload] at fits
  exact fits

/-- Nothing is refused where the selected rows are writable. -/
theorem Mvcc.Rep.not_large {m : VersionStore} (rep : Rep m)
    (writable : Mvcc.Writable m.journal trx t filter) {rid : RID} {record : Record}
    (stored : m.slot rid = some ⟨t, record⟩)
    (taken : takes m.journal trx filter record = .ok true) : record.size ≤ UNDO_CAPACITY := by
  obtain ⟨row, member, version, target, -, payload⟩ := rep.target_of_takes stored taken
  obtain ⟨version', target', small⟩ := writable.target member (LogicalRow.selected_of_target target)
  rw [target] at target'
  cases target'
  rw [Record.size, ← payload]
  exact small

/-- DELETE deletes exactly the rows that SELECT returns if each of them is at its newest
    write, and only then. The conflict is never raised. -/
theorem History.deletesSelected_iff (history : History s) (active : trx ∈ s.txnManager.activeTxns)
    (t : Nat) (filter : Option Filter) :
    DeletesSelected s trx t filter ↔
      ((s.items t).isSome = true ∧ Mvcc.Decides s.journal trx t filter) ∧
        Mvcc.Writable s.journal trx t filter := by
  obtain ⟨pages, tableOf, sound, rep⟩ := history.intact
  unfold DeletesSelected
  rw [run_select_isOk sound rep active]
  apply and_congr_right
  rintro ⟨table, decides⟩
  have ended := wp_delete sound rep active t filter
  unfold Program.wp at ended
  split at ended
  · rename_i deleted s' ran
    obtain ⟨done, split, -, journal, small⟩ := ended.done
    rw [List.append_nil] at split
    rw [← split] at journal small
    have small' : ∀ row ∈ rowsOf s.journal, ∀ version,
        row.target (seenBy trx s.journal) t filter = some version →
          REC_HEADER_SIZE + version.payload.length ≤ UNDO_CAPACITY := by
      intro row member version
      apply rep.small_target _ member
      exact fun rid record stored taken =>
        small rid (sound.mem_addresses.mpr ⟨record, stored⟩) record stored taken
    rw [Mvcc.writable_iff small', ← Mvcc.map_deleted_eq_iff, ← rowsOf_deleted sound rep, ← journal]
    constructor
    · rintro (⟨_, s'', ran', -, rows⟩ | ⟨s'', ran'⟩)
      · rw [ran] at ran'
        cases ran'
        exact rows
      · rw [ran] at ran'
        cases ran'
    · intro rows
      exact .inl ⟨deleted, s', ran, ⟨pages, tableOf, ended.sound, ended.rep⟩, rows⟩
  · rename_i message s' ran
    rcases ended with ⟨-, -, rid, record, stored, failed | ⟨taken, large, reason⟩⟩ | ⟨absent, -⟩
    · exact absurd failed (rep.takes_of_decides decides stored)
    · constructor
      · rintro (⟨_, s'', ran', -⟩ | ⟨s'', ran'⟩)
        · rw [ran] at ran'
          cases ran'
        · rw [ran, reason] at ran'
          exact absurd (Except.error.inj (congrArg Prod.fst ran')) (by decide)
      · exact fun writable => absurd (rep.not_large writable stored taken) large
    · rw [absent] at table
      cases table

end YourSQL
