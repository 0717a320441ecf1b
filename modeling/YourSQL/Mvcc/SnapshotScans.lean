import YourSQL.Mvcc.Histories

/-! # A scan and the snapshot

Each version of a row has a record, and a scan goes down the chain of every one of them.
A record that was written over unseen ends at the same version as the one over it: of a
row the scan returns the version that its reader sees once for each version above it,
and once more.
-/

namespace YourSQL

open Mvcc (Rep LogicalRow Version VersionStore Position seenBy shownAt shownOf statesOf rowsOf
  snapshotRows)

namespace Mvcc

variable {sees : Nat → Bool} {shown : RID → Option (List UInt8)}

/-- What a scan returns of a row. -/
def LogicalRow.copies (row : LogicalRow) (sees : Nat → Bool) : List (List UInt8) :=
  match row.versionFor sees with
  | none => []
  | some version =>
      List.replicate ((row.versions.takeWhile fun newer => !sees newer.trx).length + 1) version.payload

/-- At its address each version shows the first seen state of its record. -/
def Shows (sees : Nat → Bool) (shown : RID → Option (List UInt8)) (next : Option Nat)
    (versions : List Version) : Prop :=
  ∀ writer version older, Position next versions writer version older →
    shown version.rid = shownOf sees (statesOf writer version older)

/-- Who sees a writer sees what is under it. -/
def SeesUnder (sees : Nat → Bool) (next : Option Nat) (versions : List Version) : Prop :=
  ∀ writer version older, Position next versions (some writer) version older →
    sees writer = true → sees version.trx = true

theorem Shows.under {next : Option Nat} {first : Version} {rest : List Version}
    (shows : Shows sees shown next (first :: rest)) : Shows sees shown (some first.trx) rest :=
  fun writer version older position => shows writer version older (.under position)

theorem SeesUnder.under {next : Option Nat} {first : Version} {rest : List Version}
    (under : SeesUnder sees next (first :: rest)) : SeesUnder sees (some first.trx) rest :=
  fun writer version older position => under writer version older (.under position)

/-- Under a seen write there is nothing to show. -/
theorem Shows.of_seen {writer : Nat} {versions : List Version}
    (shows : Shows sees shown (some writer) versions)
    (under : SeesUnder sees (some writer) versions) (seen : sees writer = true) :
    (versions.map Version.rid).filterMap shown = [] := by
  induction versions generalizing writer with
  | nil => rfl
  | cons version older ih =>
      have nothing : shown version.rid = none := by
        rw [shows _ _ _ .here]
        simp [shownOf, statesOf, Version.deletion, seen, Option.filter]
      rw [List.map_cons, List.filterMap_cons, nothing]
      exact ih shows.under under.under (under writer version older .here seen)

/-- A write that is not seen does not matter. -/
theorem shownOf_statesOf {next : Option Nat} (unseen : next.any sees = false) (version : Version)
    (older : List Version) :
    shownOf sees (statesOf next version older) = shownOf sees ((version :: older).map Version.state) := by
  cases next with
  | none => rfl
  | some writer =>
      have notSeen : sees writer = false := unseen
      simp [shownOf, statesOf, Version.deletion, notSeen]

theorem shownOf_map_state (versions : List Version) :
    shownOf sees (versions.map Version.state) =
      (versions.find? fun version => sees version.trx).map Version.payload := by
  induction versions with
  | nil => rfl
  | cons version older ih =>
      cases seen : sees version.trx with
      | true => simp [shownOf, Version.state, seen, Option.filter]
      | false =>
          rw [List.find?_cons, seen, ← ih]
          simp [shownOf, Version.state, seen]

theorem Shows.of_unseen {next : Option Nat} {versions : List Version}
    (shows : Shows sees shown next versions) (under : SeesUnder sees next versions)
    (unseen : next.any sees = false) :
    (versions.map Version.rid).filterMap shown =
      match versions.find? fun version => sees version.trx with
      | none => []
      | some version =>
          List.replicate ((versions.takeWhile fun newer => !sees newer.trx).length + 1)
            version.payload := by
  induction versions generalizing next with
  | nil => rfl
  | cons version older ih =>
      have here := shows _ _ _ .here
      rw [shownOf_statesOf unseen, shownOf_map_state] at here
      rw [List.map_cons, List.filterMap_cons, here]
      cases seen : sees version.trx with
      | true =>
          have rest := shows.under.of_seen under.under seen
          simp [seen, rest]
      | false =>
          have rest := ih shows.under under.under (by simp [seen])
          rw [rest]
          cases found : older.find? fun version => sees version.trx with
          | none => simp [seen, found]
          | some first => simp [seen, found, List.replicate_succ]

namespace Rep

variable {m : VersionStore} {row : LogicalRow} {trx : Nat}

/-- What is shown of a row, over all of its addresses. -/
theorem shown_row (rep : Rep m) (member : row ∈ m.rows) (trx : Nat) :
    row.rids.filterMap (shownAt m.journal trx) = row.copies (seenBy trx m.journal) := by
  have shows : Shows (seenBy trx m.journal) (shownAt m.journal trx) row.deletedBy row.versions := by
    intro writer version older position
    rw [shownAt, rep.statesAt_eq member position]
  have under : SeesUnder (seenBy trx m.journal) row.deletedBy row.versions := by
    intro writer version older position seen
    exact rep.manager.seenBy_trans seen (rep.follows row member writer version older position)
  unfold LogicalRow.copies LogicalRow.versionFor
  cases seen : row.deletedBy.any (seenBy trx m.journal) with
  | false => exact shows.of_unseen under seen
  | true =>
      cases writer : row.deletedBy with
      | none =>
          rw [writer] at seen
          cases seen
      | some writer' =>
          rw [writer] at shows under seen
          exact shows.of_seen under seen

end Rep

/-! ## One copy of each row -/

theorem length_flatMap_eq_iff {f g : α → List β} {l : List α}
    (le : ∀ a ∈ l, (g a).length ≤ (f a).length) :
    (l.flatMap f).length = (l.flatMap g).length ↔ ∀ a ∈ l, (f a).length = (g a).length := by
  induction l with
  | nil => simp
  | cons a l ih =>
      have here := le a (List.mem_cons_self ..)
      have rest := ih fun b member => le b (List.mem_cons_of_mem _ member)
      have atMost : (l.flatMap g).length ≤ (l.flatMap f).length := by
        rw [List.length_flatMap, List.length_flatMap]
        exact List.sum_le_sum fun b member => le b (List.mem_cons_of_mem _ member)
      rw [List.flatMap_cons, List.flatMap_cons, List.length_append, List.length_append,
        List.forall_mem_cons, ← rest]
      omega

namespace LogicalRow

variable (row : LogicalRow) (sees : Nat → Bool)

/-- The row is not there for the reader, or he sees its newest version. -/
def Current : Prop :=
  ∀ version, row.versionFor sees = some version → row.versions.head? = some version

variable {row sees}

theorem find?_of_versionFor {version : Version} (shown : row.versionFor sees = some version) :
    (row.versions.find? fun version => sees version.trx) = some version := by
  unfold versionFor at shown
  split at shown
  · cases shown
  · exact shown

/-- Nothing unseen is over the version that is seen. -/
theorem takeWhile_eq_nil_iff {version : Version} (shown : row.versionFor sees = some version) :
    (row.versions.takeWhile fun newer => !sees newer.trx) = [] ↔
      row.versions.head? = some version := by
  have first := find?_of_versionFor shown
  cases versions : row.versions with
  | nil =>
      rw [versions] at first
      cases first
  | cons newest older =>
      rw [versions, List.find?_cons] at first
      cases seen : sees newest.trx with
      | true =>
          rw [seen] at first
          simpa [seen] using first
      | false =>
          rw [seen] at first
          have seenThere : sees version.trx = true :=
            @List.find?_some Version (fun version => sees version.trx) _ _ first
          have other : newest ≠ version := by
            rintro rfl
            rw [seen] at seenThere
            cases seenThere
          simp [seen, other]

theorem length_copies :
    (row.versionFor sees).toList.length ≤ (row.copies sees).length ∧
      ((row.copies sees).length = (row.versionFor sees).toList.length ↔ row.Current sees) := by
  unfold copies Current
  cases shown : row.versionFor sees with
  | none => simp
  | some version =>
      have above := takeWhile_eq_nil_iff shown
      simp only [Option.toList_some, List.length_singleton, List.length_replicate]
      refine ⟨by omega, ?_⟩
      simpa using above

theorem copies_of_current (current : row.Current sees) :
    row.copies sees = (row.versionFor sees).toList.map Version.payload := by
  unfold copies
  cases shown : row.versionFor sees with
  | none => rfl
  | some version =>
      have above := (takeWhile_eq_nil_iff shown).mpr (current version shown)
      simp [above]

end LogicalRow

/-- The copies of some rows are their versions in the snapshot, one for each row that has one. -/
theorem copies_perm_iff {rows : List LogicalRow} {sees : Nat → Bool} :
    (rows.flatMap (·.copies sees)).Perm ((rows.filterMap (·.versionFor sees)).map Version.payload) ↔
      ∀ row ∈ rows, row.Current sees := by
  have single : (rows.filterMap (·.versionFor sees)).map Version.payload =
      rows.flatMap fun row => (row.versionFor sees).toList.map Version.payload := by
    induction rows with
    | nil => rfl
    | cons row rows ih =>
        rw [List.flatMap_cons, ← ih, List.filterMap_cons]
        cases row.versionFor sees <;> simp
  rw [single]
  constructor
  · intro perm row member
    have counted := (length_flatMap_eq_iff fun row _ => by
      rw [List.length_map]
      exact LogicalRow.length_copies.1).mp perm.length_eq row member
    rw [List.length_map] at counted
    exact LogicalRow.length_copies.2.mp counted
  · intro current
    rw [List.flatMap_congr fun row member => LogicalRow.copies_of_current (current row member)]

end Mvcc

/-! ## A table -/

variable {s s' : Database} {pages : Nat → List Nat} {tableOf : Nat → Nat} {trx t : Nat}

/-- Two lists without duplicates that differ only where nothing is found. -/
theorem filterMap_perm {l l' : List α} {f : α → Option β} (nodup : l.Nodup) (nodup' : l'.Nodup)
    (same : ∀ a b, f a = some b → (a ∈ l ↔ a ∈ l')) : (l.filterMap f).Perm (l'.filterMap f) := by
  have kept : (l.filter fun a => (f a).isSome).Perm (l'.filter fun a => (f a).isSome) := by
    rw [List.perm_ext_iff_of_nodup (nodup.filter _) (nodup'.filter _)]
    intro a
    simp only [List.mem_filter, Option.isSome_iff_exists]
    constructor
    · exact fun ⟨member, b, found⟩ => ⟨(same a b found).mp member, b, found⟩
    · exact fun ⟨member, b, found⟩ => ⟨(same a b found).mpr member, b, found⟩
  have mapped := kept.filterMap f
  rw [List.filterMap_filter, List.filterMap_filter] at mapped
  have all : (fun a => if (f a).isSome = true then f a else none) = f := by
    funext a
    cases f a <;> rfl
  rwa [all] at mapped

namespace Mvcc

/-- The rows of a table. -/
def tableRows (t : Nat) (journal : List Event) : List LogicalRow :=
  (rowsOf journal).filter (·.tableId == t)

end Mvcc

/-- What is shown at the addresses of a table, row by row. -/
theorem shown_table (sound : s.Sound pages tableOf) (rep : Rep (s.versions tableOf)) :
    ((s.addresses (pages t)).filterMap (shownAt s.journal trx)).Perm
      ((Mvcc.tableRows t s.journal).flatMap (·.copies (seenBy trx s.journal))) := by
  let rids := (Mvcc.tableRows t s.journal).flatMap LogicalRow.rids
  have ofTable : ∀ row ∈ Mvcc.tableRows t s.journal,
      row ∈ (s.versions tableOf).rows ∧ row.tableId = t := by
    intro row member
    rw [Mvcc.tableRows, List.mem_filter, beq_iff_eq] at member
    exact member
  have byRows : rids.filterMap (shownAt s.journal trx) =
      (Mvcc.tableRows t s.journal).flatMap (·.copies (seenBy trx s.journal)) := by
    rw [List.filterMap_flatMap]
    exact List.flatMap_congr fun row member => rep.shown_row (ofTable row member).1 trx
  rw [← byRows]
  have distinct : rids.Nodup :=
    rep.distinct.sublist (List.filter_sublist.flatMap LogicalRow.rids)
  apply filterMap_perm (sound.nodup_addresses t) distinct
  intro rid payload shown
  rw [sound.mem_addresses, List.mem_flatMap]
  constructor
  · rintro ⟨record, stored⟩
    have inRids : rid ∈ (s.versions tableOf).rids := by
      by_contra elsewhere
      rw [shownAt, show Mvcc.statesAt s.journal rid = [] from Mvcc.statesAt_of_notMem elsewhere] at shown
      cases shown
    obtain ⟨row, inRows, inRow⟩ := List.mem_flatMap.mp inRids
    refine ⟨row, List.mem_filter.mpr ⟨inRows, ?_⟩, inRow⟩
    obtain ⟨version, inVersions, rfl⟩ := List.mem_map.mp inRow
    obtain ⟨writer, older, position⟩ := @Mvcc.exists_position row.deletedBy _ _ inVersions
    obtain ⟨record', found, -⟩ := rep.stored row inRows writer version older position
    rw [stored] at found
    cases found
    exact beq_self_eq_true _
  · rintro ⟨row, member, inRow⟩
    obtain ⟨inRows, rfl⟩ := ofTable row member
    obtain ⟨version, inVersions, rfl⟩ := List.mem_map.mp inRow
    obtain ⟨writer, older, position⟩ := @Mvcc.exists_position row.deletedBy _ _ inVersions
    obtain ⟨record, found, -⟩ := rep.stored row inRows writer version older position
    exact ⟨record, found⟩

/-- A full scan returns a row once for each version that its reader does not see over the
    one it sees, and once more. -/
theorem run_select_all (sound : s.Sound pages tableOf) (rep : Rep (s.versions tableOf))
    (active : trx ∈ s.txnManager.activeTxns) {item : MetaItem} (table : s.items t = some item) :
    ∃ rows s', (ExecutorSeqScan.select (some trx) t none).run s = (.ok rows, s') ∧
      (rows.map Record.payload).Perm
        ((Mvcc.tableRows t s.journal).flatMap (·.copies (seenBy trx s.journal))) := by
  have scanned := wp_select sound rep active t none
  unfold Program.wp at scanned
  split at scanned
  · rename_i rows s' ran
    refine ⟨rows, s', ran, ?_⟩
    obtain ⟨done, split, payloads, -⟩ := scanned.done
    rw [List.append_nil] at split
    rw [payloads, ← split]
    simpa [passes] using shown_table sound rep
  · rcases scanned with ⟨-, -, ⟨rid, -, payload, -, message, failed⟩⟩ | ⟨absent, -⟩
    · cases failed
    · rw [table] at absent
      cases absent

/-- A full scan returns the rows of the reader's snapshot, each once, exactly if no row of
    the snapshot has a version over the one in the snapshot. -/
theorem History.select_perm_snapshot_iff (history : History s)
    (active : trx ∈ s.txnManager.activeTxns) {item : MetaItem} (table : s.items t = some item) :
    ∃ rows s', (ExecutorSeqScan.select (some trx) t none).run s = (.ok rows, s') ∧
      ((rows.map Record.payload).Perm ((snapshotRows trx t s.journal).map Version.payload) ↔
        ∀ row ∈ rowsOf s.journal, row.tableId = t → ∀ version,
          row.versionFor (seenBy trx s.journal) = some version →
            row.versions.head? = some version) := by
  obtain ⟨pages, tableOf, sound, rep⟩ := history.intact
  obtain ⟨rows, s', ran, copies⟩ := run_select_all sound rep active table
  refine ⟨rows, s', ran, (copies.congr_left _).trans (Mvcc.copies_perm_iff.trans ?_)⟩
  simp [Mvcc.tableRows, LogicalRow.Current]

/-! ## A row that is updated while it is read -/

/-- Transaction 1 inserts a row, transaction 2 takes its read view, transaction 3 begins. -/
def beforeUpdate : Database :=
  oneTable.performAll [.begin, .insert (some 1) 1 (.ok [49, 0]), .commit 1, .begin, .begin]

/-- Transaction 3 updates the row. -/
def updateOfThree : Command := .update (some 3) 1 [.bool] [⟨0, .of (.bool true)⟩] none

theorem beforeUpdate_history : History beforeUpdate := by
  apply (History.start oneTable_fresh).performAll
  exact ⟨trivial, by decide, ⟨1, by decide, rfl⟩, by decide, trivial, by decide, trivial, by decide,
    trivial, by decide, trivial⟩

theorem afterUpdate_history : History (updateOfThree.perform beforeUpdate) :=
  beforeUpdate_history.perform updateOfThree ⟨3, by decide, rfl⟩ (by decide)

theorem select_perm_snapshot_iff_beforeUpdate :
    ∃ rows s', (ExecutorSeqScan.select (some 2) 1 none).run beforeUpdate = (.ok rows, s') ∧
      ((rows.map Record.payload).Perm
          ((snapshotRows 2 1 beforeUpdate.journal).map Version.payload) ↔
        ∀ row ∈ rowsOf beforeUpdate.journal, row.tableId = 1 → ∀ version,
          row.versionFor (seenBy 2 beforeUpdate.journal) = some version →
            row.versions.head? = some version) :=
  beforeUpdate_history.select_perm_snapshot_iff (by decide) rfl

/-- Transaction 2 reads one row, and the same row twice once transaction 3 has updated it. -/
theorem update_doubles_row :
    History beforeUpdate ∧ History (updateOfThree.perform beforeUpdate) ∧
      (∃ row s, (ExecutorSeqScan.select (some 2) 1 none).run beforeUpdate = (.ok [row], s) ∧
        row.payload = [49, 0]) ∧
      ∃ rows s, (ExecutorSeqScan.select (some 2) 1 none).run (updateOfThree.perform beforeUpdate) =
          (.ok rows, s) ∧ rows.map Record.payload = [[49, 0], [49, 0]] ∧
        ¬ (rows.map Record.payload).Perm
          ((snapshotRows 2 1 (updateOfThree.perform beforeUpdate).journal).map Version.payload) := by
  refine ⟨beforeUpdate_history, afterUpdate_history, ⟨_, _, rfl, rfl⟩, _, _, rfl, rfl, ?_⟩
  exact fun perm => absurd perm.length_eq (by decide)

end YourSQL
