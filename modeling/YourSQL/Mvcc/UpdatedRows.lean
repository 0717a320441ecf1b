import YourSQL.Mvcc.SelectedRows

/-! # UPDATE and the rows that SELECT returns

UPDATE replaces the newest version of each row that it takes, and looks for no other
rows. It collects them first, so none is taken twice.
-/

namespace YourSQL

open ExecutorUpdate (Hit SetClause applySet)
open Mvcc (Rep LogicalRow Version VersionStore seenBy rowsOf takes)

variable {s s' : Database} {pages : Nat → List Nat} {tableOf : Nat → Nat} {trx t : Nat}
  {filter : Option Filter} {schema : List ColumnTypes} {clauses : List SetClause}

/-- The bytes of a row with the SET columns replaced. -/
def updatedBytes (schema : List ColumnTypes) (clauses : List SetClause) (payload : List UInt8) :
    Except String (List UInt8) := do
  let values ← Row.deserialize schema payload
  Row.serialize schema (applySet clauses values)

namespace Mvcc

def LogicalRow.rewritten (row : LogicalRow) (trx : Nat) (rid : RID) (payload : List UInt8) :
    LogicalRow :=
  { row with versions := ⟨trx, rid, payload⟩ :: row.versions, deletedBy := none }

/-- What one updated row does to a row of the journal. -/
def LogicalRow.change (trx : Nat) (row : LogicalRow) (change : Hit × RID × List UInt8) : LogicalRow :=
  (row.delete trx change.1.rid).replace trx change.1.rid change.2.1 change.2.2

theorem rowsOf_updates (journal : List Event) (changes : List (Hit × RID × List UInt8)) (trx : Nat) :
    rowsOf (journal ++ updateEvents trx changes) =
      (rowsOf journal).map fun row => changes.foldl (LogicalRow.change trx) row := by
  induction changes using List.reverseRecOn with
  | nil => simp [updateEvents]
  | append_singleton changes change ih =>
      have events : updateEvents trx (changes ++ [change]) = updateEvents trx changes ++
          [.delete trx change.1.rid] ++ [.replace trx change.1.rid change.2.1 change.2.2] := by
        simp [updateEvents]
      rw [events, ← List.append_assoc, ← List.append_assoc, rowsOf_snoc, rowsOf_snoc, ih]
      simp [applyEvent, LogicalRow.change]

/-- A row whose newest version lies elsewhere stays as it is. -/
theorem LogicalRow.change_of_ne {row : LogicalRow} {change : Hit × RID × List UInt8}
    (other : row.versions.head?.map Version.rid ≠ some change.1.rid) (trx : Nat) :
    LogicalRow.change trx row change = row := by
  have notLive : ¬ row.LiveAt change.1.rid := fun live => other live.2
  rw [LogicalRow.change, delete, if_neg notLive, replace, if_neg other]

theorem LogicalRow.foldl_change_of_ne {row : LogicalRow} {changes : List (Hit × RID × List UInt8)}
    (others : ∀ change ∈ changes, row.versions.head?.map Version.rid ≠ some change.1.rid)
    (trx : Nat) : changes.foldl (LogicalRow.change trx) row = row := by
  induction changes with
  | nil => rfl
  | cons change changes ih =>
      rw [List.foldl_cons, change_of_ne (others change (List.mem_cons_self ..))]
      exact ih fun later member => others later (List.mem_cons_of_mem _ member)

theorem LogicalRow.change_of_head {row : LogicalRow} {change : Hit × RID × List UInt8}
    (live : row.LiveAt change.1.rid) (trx : Nat) :
    LogicalRow.change trx row change = row.rewritten trx change.2.1 change.2.2 := by
  rw [LogicalRow.change, delete, if_pos live, replace, if_pos live.2, rewritten]

/-- The change at the address of its newest version is the only one a row sees. -/
theorem LogicalRow.foldl_change {row : LogicalRow} {changes : List (Hit × RID × List UInt8)}
    (distinct : (changes.map fun change => change.1.rid).Nodup) (notAgain : NotAgain changes [])
    {change : Hit × RID × List UInt8} (member : change ∈ changes)
    (live : row.LiveAt change.1.rid) (trx : Nat) :
    changes.foldl (LogicalRow.change trx) row = row.rewritten trx change.2.1 change.2.2 := by
  induction changes with
  | nil => cases member
  | cons first rest ih =>
      rw [List.map_cons, List.nodup_cons] at distinct
      obtain ⟨ahead, later⟩ := List.pairwise_cons.mp notAgain.1
      rw [List.foldl_cons]
      rcases List.mem_cons.mp member with rfl | inRest
      · rw [change_of_head live]
        apply foldl_change_of_ne
        intro other inRest same
        exact ahead other inRest (Option.some.inj same)
      · have apart : row.versions.head?.map Version.rid ≠ some first.1.rid := by
          intro same
          have here := Option.some.inj (same.symm.trans live.2)
          exact distinct.1 (List.mem_map.mpr ⟨change, inRest, here.symm⟩)
        rw [change_of_ne apart]
        exact ih distinct.2 ⟨later, nofun⟩ inRest

end Mvcc

/-! ## Hits and targets -/

/-- The addresses of the hits are those of the targets. -/
theorem Collected.mem_rids (sound : s.Sound pages tableOf) (rep : Rep (s.versions tableOf))
    {hits : List Hit} (collected : Collected s pages tableOf trx t schema clauses filter hits)
    {rid : RID} :
    rid ∈ hits.map Hit.rid ↔ ∃ row ∈ rowsOf s.journal, ∃ version,
      row.target (seenBy trx s.journal) t filter = some version ∧ version.rid = rid := by
  obtain ⟨u, collecting⟩ := collected
  obtain ⟨done, split, taken⟩ := collecting.done
  rw [List.append_nil] at split
  rw [taken, ← split, mem_taken sound rep]

theorem Collected.nodup (sound : s.Sound pages tableOf) {hits : List Hit}
    (collected : Collected s pages tableOf trx t schema clauses filter hits) :
    (hits.map Hit.rid).Nodup := by
  obtain ⟨u, collecting⟩ := collected
  obtain ⟨done, split, taken⟩ := collecting.done
  rw [List.append_nil] at split
  rw [taken, ← split]
  exact (sound.nodup_addresses t).filter _

/-- A hit holds the record of its target, and the values that go into the new version. -/
theorem Collected.hit (rep : Rep (s.versions tableOf))
    {hits : List Hit} (collected : Collected s pages tableOf trx t schema clauses filter hits)
    {hit : Hit} (member : hit ∈ hits) {row : LogicalRow} (inRows : row ∈ rowsOf s.journal)
    {version : Version} (target : row.target (seenBy trx s.journal) t filter = some version)
    (here : version.rid = hit.rid) :
    hit.old.payload = version.payload ∧
      updatedBytes schema clauses version.payload = Row.serialize schema hit.newValues := by
  obtain ⟨u, collecting⟩ := collected
  obtain ⟨record, stored, payload, -⟩ := rep.record_of_target inRows target
  have stored' := (collecting.newest hit member).stored
  rw [← here, stored] at stored'
  cases stored'
  obtain ⟨values, read, new⟩ := collecting.values hit member
  refine ⟨payload, ?_⟩
  rw [payload] at read
  rw [updatedBytes, read, new]
  rfl

/-- The rows after an UPDATE: each target is rewritten. -/
theorem Collected.rowsOf_updated (sound : s.Sound pages tableOf) (rep : Rep (s.versions tableOf))
    {hits : List Hit} (collected : Collected s pages tableOf trx t schema clauses filter hits)
    {changes : List (Hit × RID × List UInt8)} (worked : changes.map Prod.fst = hits)
    (serialized : ∀ change ∈ changes, Row.serialize schema change.1.newValues = .ok change.2.2)
    (notAgain : NotAgain changes []) :
    List.Forall₂ (fun row row' =>
        match row.target (seenBy trx s.journal) t filter with
        | some version => ∃ rid bytes, updatedBytes schema clauses version.payload = .ok bytes ∧
            row' = row.rewritten trx rid bytes
        | none => row' = row)
      (rowsOf s.journal) (rowsOf (s.journal ++ updateEvents trx changes)) := by
  have rids : changes.map (fun change => change.1.rid) = hits.map Hit.rid := by
    rw [← worked, List.map_map]
    rfl
  rw [Mvcc.rowsOf_updates, List.forall₂_map_right_iff, List.forall₂_same]
  intro row member
  cases target : row.target (seenBy trx s.journal) t filter with
  | some version =>
      obtain ⟨-, live, head, -⟩ := LogicalRow.target_eq_some.mp target
      have inRids := (collected.mem_rids sound rep).mpr ⟨row, member, version, target, rfl⟩
      rw [← rids, List.mem_map] at inRids
      obtain ⟨change, inChanges, here⟩ := inRids
      have inHits : change.1 ∈ hits := worked ▸ List.mem_map.mpr ⟨change, inChanges, rfl⟩
      have liveAt : row.LiveAt change.1.rid := ⟨live, by rw [head, here]; rfl⟩
      refine ⟨change.2.1, change.2.2, ?_, ?_⟩
      · rw [(collected.hit rep inHits member target here.symm).2]
        exact serialized change inChanges
      · exact LogicalRow.foldl_change (rids ▸ collected.nodup sound) notAgain inChanges liveAt trx
  | none =>
      apply LogicalRow.foldl_change_of_ne
      intro change inChanges head
      obtain ⟨version, head, here⟩ := Option.map_eq_some_iff.mp head
      have inRids : change.1.rid ∈ hits.map Hit.rid :=
        rids ▸ List.mem_map.mpr ⟨change, inChanges, rfl⟩
      obtain ⟨row', member', version', target', here'⟩ :=
        (collected.mem_rids sound rep).mp inRids
      obtain ⟨-, -, head', -⟩ := LogicalRow.target_eq_some.mp target'
      have inRow : version.rid ∈ row.rids :=
        List.mem_map.mpr ⟨version, List.mem_of_head? head, rfl⟩
      have inOther : version.rid ∈ row'.rids :=
        List.mem_map.mpr ⟨version', List.mem_of_head? head', here'.trans here.symm⟩
      obtain rfl := rep.row_unique member member' inRow inOther
      rw [target] at target'
      cases target'

/-- A hit is taken by the test that DELETE makes as well. -/
theorem Collected.target_of_mem (sound : s.Sound pages tableOf) (rep : Rep (s.versions tableOf))
    {hits : List Hit} (collected : Collected s pages tableOf trx t schema clauses filter hits)
    {hit : Hit} (member : hit ∈ hits) :
    ∃ row ∈ rowsOf s.journal, ∃ version,
      row.target (seenBy trx s.journal) t filter = some version ∧
        hit.old.payload = version.payload ∧
        updatedBytes schema clauses version.payload = Row.serialize schema hit.newValues := by
  obtain ⟨row, inRows, version, target, here⟩ :=
    (collected.mem_rids sound rep).mp (List.mem_map.mpr ⟨hit, member, rfl⟩)
  exact ⟨row, inRows, version, target, collected.hit rep member inRows target here⟩

/-! ## UPDATE -/

/-- SELECT returns rows, and UPDATE rewrites them and no others, or it raises the conflict. -/
def UpdatesSelected (s : Database) (trx t : Nat) (schema : List ColumnTypes)
    (clauses : List SetClause) (filter : Option Filter) : Prop :=
  (∃ rows s', (ExecutorSeqScan.select (some trx) t filter).run s = (.ok rows, s')) ∧
    ((∃ updated s',
        (ExecutorUpdate.update (some trx) t schema clauses filter).run s = (.ok updated, s') ∧
        s'.Intact ∧ Fits s'.journal ∧
        List.Forall₂ (fun row row' =>
            if row.selected (seenBy trx s.journal) t filter then
              ∃ version rid bytes, row.versionFor (seenBy trx s.journal) = some version ∧
                updatedBytes schema clauses version.payload = .ok bytes ∧
                row' = row.rewritten trx rid bytes
            else
              row' = row)
          (rowsOf s.journal) (rowsOf s'.journal)) ∨
      ∃ s', (ExecutorUpdate.update (some trx) t schema clauses filter).run s =
        (.error WRITE_CONFLICT, s'))

/-- The new bytes of every selected row can be made and fit an empty page. -/
def Mvcc.Updatable (journal : List Event) (trx t : Nat) (schema : List ColumnTypes)
    (clauses : List SetClause) (filter : Option Filter) : Prop :=
  ∀ row ∈ rowsOf journal, row.tableId = t → ∀ version,
    row.versionFor (seenBy trx journal) = some version →
    passes filter version.payload = .ok true →
      ∃ bytes, updatedBytes schema clauses version.payload = .ok bytes ∧ VersionFits bytes

theorem History.fits (history : History s) : Fits s.journal := by
  cases history with
  | start fresh =>
      rw [fresh.journal]
      exact nofun
  | perform command history proper fits => exact fits

/-- Rewriting a row changes it. -/
theorem Mvcc.LogicalRow.rewritten_ne (row : LogicalRow) (trx : Nat) (rid : RID)
    (bytes : List UInt8) : row.rewritten trx rid bytes ≠ row := by
  intro same
  have versions := congrArg (fun row => row.versions.length) same
  simp [LogicalRow.rewritten] at versions

/-- Rewriting the targets is rewriting the selected rows only if they are the same. -/
theorem Mvcc.selected_eq_target {sees : Nat → Bool} {rows rows' : List LogicalRow}
    (done : List.Forall₂ (fun row row' =>
        match row.target sees t filter with
        | some version => ∃ rid bytes, updatedBytes schema clauses version.payload = .ok bytes ∧
            row' = row.rewritten trx rid bytes
        | none => row' = row) rows rows') :
    (List.Forall₂ (fun row row' =>
        if row.selected sees t filter then
          ∃ version rid bytes, row.versionFor sees = some version ∧
            updatedBytes schema clauses version.payload = .ok bytes ∧
            row' = row.rewritten trx rid bytes
        else
          row' = row) rows rows') ↔
      ∀ row ∈ rows, row.selected sees t filter =
        (row.target sees t filter).isSome := by
  induction done with
  | nil => simp
  | @cons row row' rows rows' here done ih =>
      rw [List.forall₂_cons, ih, List.forall_mem_cons]
      apply and_congr_left
      intro _
      cases target : row.target sees t filter with
      | some version =>
          rw [target] at here
          obtain ⟨-, live, head, seen, -⟩ := LogicalRow.target_eq_some.mp target
          obtain ⟨rid, bytes, made, after⟩ := here
          rw [if_pos (LogicalRow.selected_of_target target)]
          exact iff_of_true
            ⟨version, rid, bytes, LogicalRow.versionFor_of_head live head seen, made, after⟩
            (LogicalRow.selected_of_target target)
      | none =>
          rw [target] at here
          obtain rfl : row' = row := here
          cases selected : row'.selected sees t filter with
          | false => simp
          | true =>
              rw [if_pos rfl]
              refine iff_of_false ?_ (by simp)
              rintro ⟨-, rid, bytes, -, -, same⟩
              exact row'.rewritten_ne trx rid bytes same.symm

/-- Where every selected row can be rewritten, so can every target. -/
theorem Mvcc.Updatable.target {journal : List Event}
    (updatable : Mvcc.Updatable journal trx t schema clauses filter) {row : LogicalRow}
    (member : row ∈ rowsOf journal) {version : Version}
    (target : row.target (seenBy trx journal) t filter = some version) :
    ∃ bytes, updatedBytes schema clauses version.payload = .ok bytes ∧ VersionFits bytes := by
  obtain ⟨ofTable, live, head, seen, isMatch⟩ := LogicalRow.target_eq_some.mp target
  exact updatable row member ofTable version (LogicalRow.versionFor_of_head live head seen)
    (Mvcc.passes_of_matchesFilter isMatch)

theorem fits_updateEvents {changes : List (Hit × RID × List UInt8)} :
    Fits (updateEvents trx changes) ↔ ∀ change ∈ changes, VersionFits change.2.2 := by
  induction changes with
  | nil => simp [updateEvents, Fits]
  | cons change changes ih =>
      have split : updateEvents trx (change :: changes) =
          [.delete trx change.1.rid, .replace trx change.1.rid change.2.1 change.2.2] ++
            updateEvents trx changes := rfl
      rw [split, fits_append, ih, List.forall_mem_cons]
      simp [Fits, Event.Fits]

/-- A run of UPDATE that returns has rewritten the selected rows, all of them writable, or
    it has done something else. -/
theorem updated_iff (sound : s.Sound pages tableOf) (rep : Rep (s.versions tableOf))
    (before : Fits s.journal) {hits : List Hit}
    (collected : Collected s pages tableOf trx t schema clauses filter hits)
    (updating : Updating s trx t schema hits [] s') :
    (s'.Intact ∧ Fits s'.journal ∧
      List.Forall₂ (fun row row' =>
          if row.selected (seenBy trx s.journal) t filter then
            ∃ version rid bytes, row.versionFor (seenBy trx s.journal) = some version ∧
              updatedBytes schema clauses version.payload = .ok bytes ∧
              row' = row.rewritten trx rid bytes
          else
            row' = row)
        (rowsOf s.journal) (rowsOf s'.journal)) ↔
      Mvcc.Writable s.journal trx t filter ∧
        Mvcc.Updatable s.journal trx t schema clauses filter := by
  obtain ⟨changes, journal, worked, done, notAgain⟩ := updating.done
  rw [List.append_nil] at worked
  -- a target has its change, which says how large it was and what it is now
  have change_of_target : ∀ row ∈ rowsOf s.journal, ∀ version,
      row.target (seenBy trx s.journal) t filter = some version →
        ∃ change ∈ changes, REC_HEADER_SIZE + version.payload.length ≤ UNDO_CAPACITY ∧
          updatedBytes schema clauses version.payload = .ok change.2.2 := by
    intro row member version target
    have inRids := (collected.mem_rids sound rep).mpr ⟨row, member, version, target, rfl⟩
    rw [← worked, List.map_map, List.mem_map] at inRids
    obtain ⟨change, inChanges, here⟩ := inRids
    have inHits : change.1 ∈ hits := worked ▸ List.mem_map.mpr ⟨change, inChanges, rfl⟩
    obtain ⟨payload, made⟩ := collected.hit rep inHits member target here.symm
    obtain ⟨small, serialized⟩ := done change inChanges
    rw [Record.size, payload] at small
    exact ⟨change, inChanges, small, made.trans serialized⟩
  have writable := @Mvcc.writable_iff trx t filter s.journal fun row member version target => by
    obtain ⟨change, -, small, -⟩ := change_of_target row member version target
    exact small
  have rewritten : Fits s'.journal → _ := fun fits =>
    collected.rowsOf_updated sound rep worked (fun change member => (done change member).2)
      (notAgain fits)
  rw [← journal] at rewritten
  constructor
  · rintro ⟨-, fits, rows⟩
    have same := (Mvcc.selected_eq_target (rewritten fits)).mp rows
    refine ⟨writable.mpr same, ?_⟩
    intro row member ofTable version shown passed
    have selected := LogicalRow.selected_iff.mpr ⟨ofTable, version, shown, passed⟩
    rw [same row member, Option.isSome_iff_exists] at selected
    obtain ⟨version', target⟩ := selected
    obtain ⟨-, live, head, seen, -⟩ := LogicalRow.target_eq_some.mp target
    obtain rfl : version' = version :=
      Option.some.inj ((LogicalRow.versionFor_of_head live head seen).symm.trans shown)
    obtain ⟨change, inChanges, -, made⟩ := change_of_target row member _ target
    rw [journal, fits_append, fits_updateEvents] at fits
    exact ⟨change.2.2, made, fits.2 change inChanges⟩
  · rintro ⟨isWritable, updatable⟩
    have fits : Fits s'.journal := by
      rw [journal, fits_append, fits_updateEvents]
      refine ⟨before, ?_⟩
      intro change inChanges
      have inHits : change.1 ∈ hits := worked ▸ List.mem_map.mpr ⟨change, inChanges, rfl⟩
      obtain ⟨row, member, version, target, -, made⟩ := collected.target_of_mem sound rep inHits
      obtain ⟨bytes, made', small⟩ := updatable.target member target
      rw [made, (done change inChanges).2] at made'
      cases made'
      exact small
    obtain ⟨pages', tableOf', sound', -, intact⟩ := updating.intact
    exact ⟨⟨pages', tableOf', sound', (intact fits).1⟩, fits,
      (Mvcc.selected_eq_target (rewritten fits)).mpr (writable.mp isWritable)⟩

/-- UPDATE rewrites exactly the rows that SELECT returns if each of them is at its newest
    write and can be rewritten, and only then. The conflict is never raised. -/
theorem History.updatesSelected_iff (history : History s)
    (active : trx ∈ s.txnManager.activeTxns) (t : Nat) (schema : List ColumnTypes)
    (clauses : List SetClause) (filter : Option Filter) :
    UpdatesSelected s trx t schema clauses filter ↔
      ((s.items t).isSome = true ∧ Mvcc.Decides s.journal trx t filter) ∧
        Mvcc.Writable s.journal trx t filter ∧
          Mvcc.Updatable s.journal trx t schema clauses filter := by
  obtain ⟨pages, tableOf, sound, rep⟩ := history.intact
  unfold UpdatesSelected
  rw [run_select_isOk sound rep active]
  apply and_congr_right
  rintro ⟨table, decides⟩
  have ended := wp_update sound rep active t schema clauses filter
  unfold Program.wp at ended
  split at ended
  · rename_i updated s' ran
    obtain ⟨hits, collected, updating⟩ := ended
    rw [← updated_iff sound rep history.fits collected updating]
    constructor
    · rintro (⟨_, s'', ran', rest⟩ | ⟨s'', ran'⟩)
      · rw [ran] at ran'
        cases ran'
        exact rest
      · rw [ran] at ran'
        cases ran'
    · exact fun rest => .inl ⟨updated, s', ran, rest⟩
  · rename_i message s' ran
    -- an exception is not the conflict, and does not come from rows that can be rewritten
    have reason : message ≠ WRITE_CONFLICT ∧ ¬ (Mvcc.Writable s.journal trx t filter ∧
        Mvcc.Updatable s.journal trx t schema clauses filter) := by
      rcases ended with ⟨absent, -⟩ | ⟨-, -, rid, record, stored, failed | ⟨taken, failed⟩⟩ |
        ⟨hits, collected, -, hit, member, ends⟩
      · rw [absent] at table
        cases table
      · exact absurd failed (rep.takes_of_decides decides stored)
      · have known := Row.raisesOnly_deserialize schema record.payload message failed
        obtain ⟨row, member, version, target, -, payload⟩ := rep.target_of_takes stored taken
        constructor
        · rintro rfl
          exact absurd known (by decide)
        · rintro ⟨-, updatable⟩
          obtain ⟨bytes, made, -⟩ := updatable.target member target
          rw [updatedBytes, payload, failed] at made
          cases made
      · obtain ⟨row, inRows, version, target, payload, made⟩ :=
          collected.target_of_mem sound rep member
        rcases ends with ⟨large, rfl⟩ | failed | ⟨⟨bytes, serialized, large⟩, rfl⟩
        · refine ⟨by decide, ?_⟩
          rintro ⟨writable, -⟩
          obtain ⟨version', target', small⟩ :=
            writable.target inRows (LogicalRow.selected_of_target target)
          rw [target] at target'
          cases target'
          rw [Record.size, payload] at large
          exact large small
        · have known := Row.raisesOnly_serialize schema hit.newValues message failed
          constructor
          · rintro rfl
            exact absurd known (by decide)
          · rintro ⟨-, updatable⟩
            obtain ⟨bytes, made', -⟩ := updatable.target inRows target
            rw [made, failed] at made'
            cases made'
        · refine ⟨by decide, ?_⟩
          rintro ⟨-, updatable⟩
          obtain ⟨bytes', made', small⟩ := updatable.target inRows target
          rw [made, serialized] at made'
          cases made'
          exact large small
    refine iff_of_false ?_ reason.2
    rintro (⟨_, s'', ran', -⟩ | ⟨s'', ran'⟩)
    · rw [ran] at ran'
      cases ran'
    · rw [ran] at ran'
      exact reason.1 (Except.error.inj (congrArg Prod.fst ran'))

/-- When DELETE and UPDATE deal with the rows that SELECT returns. -/
theorem History.write_selected_iff (history : History s)
    (active : trx ∈ s.txnManager.activeTxns) (t : Nat) (filter : Option Filter) :
    (DeletesSelected s trx t filter ↔
      ((s.items t).isSome = true ∧ Mvcc.Decides s.journal trx t filter) ∧
        Mvcc.Writable s.journal trx t filter) ∧
      ∀ (schema : List ColumnTypes) (clauses : List SetClause),
        UpdatesSelected s trx t schema clauses filter ↔
          ((s.items t).isSome = true ∧ Mvcc.Decides s.journal trx t filter) ∧
            Mvcc.Writable s.journal trx t filter ∧
              Mvcc.Updatable s.journal trx t schema clauses filter :=
  ⟨history.deletesSelected_iff active t filter,
    fun schema clauses => history.updatesSelected_iff active t schema clauses filter⟩

theorem write_selected_iff_beforeUpdate :
    (DeletesSelected beforeUpdate 2 1 none ↔
      ((beforeUpdate.items 1).isSome = true ∧ Mvcc.Decides beforeUpdate.journal 2 1 none) ∧
        Mvcc.Writable beforeUpdate.journal 2 1 none) ∧
      ∀ (schema : List ColumnTypes) (clauses : List SetClause),
        UpdatesSelected beforeUpdate 2 1 schema clauses none ↔
          ((beforeUpdate.items 1).isSome = true ∧ Mvcc.Decides beforeUpdate.journal 2 1 none) ∧
            Mvcc.Writable beforeUpdate.journal 2 1 none ∧
              Mvcc.Updatable beforeUpdate.journal 2 1 schema clauses none :=
  beforeUpdate_history.write_selected_iff (by decide) 1 none

/-- Transaction 3 has updated a row and is under way. Transaction 2 still reads the row,
    and its DELETE and its UPDATE return without having touched it. -/
theorem update_hides_row :
    History (updateOfThree.perform beforeUpdate) ∧
      ¬ DeletesSelected (updateOfThree.perform beforeUpdate) 2 1 none ∧
      ¬ UpdatesSelected (updateOfThree.perform beforeUpdate) 2 1 [.bool]
        [⟨0, .of (.bool true)⟩] none := by
  refine ⟨afterUpdate_history, ?_, ?_⟩
  · rintro ⟨-, ⟨deleted, s', ran, -, rows⟩ | ⟨s', ran⟩⟩
    · have journal : ((ExecutorDelete.delete (some 2) 1 none).run
          (updateOfThree.perform beforeUpdate)).2.journal =
            (updateOfThree.perform beforeUpdate).journal := by decide
      rw [ran] at journal
      rw [journal] at rows
      exact absurd rows (by decide)
    · have none_raised : ((ExecutorDelete.delete (some 2) 1 none).run
          (updateOfThree.perform beforeUpdate)).1 = .ok 0 := rfl
      rw [ran] at none_raised
      cases none_raised
  · rintro ⟨-, ⟨updated, s', ran, -, -, rows⟩ | ⟨s', ran⟩⟩
    · have journal : ((ExecutorUpdate.update (some 2) 1 [.bool] [⟨0, .of (.bool true)⟩] none).run
          (updateOfThree.perform beforeUpdate)).2.journal =
            (updateOfThree.perform beforeUpdate).journal := by decide
      rw [ran] at journal
      have one : rowsOf (updateOfThree.perform beforeUpdate).journal =
          [⟨1, [⟨3, ⟨1, 2⟩, [49, 49]⟩, ⟨1, ⟨1, 1⟩, [49, 0]⟩], none⟩] := by decide
      rw [journal, one, List.forall₂_cons, if_pos (by decide)] at rows
      obtain ⟨⟨_, rid, bytes, -, -, same⟩, -⟩ := rows
      exact LogicalRow.rewritten_ne _ _ rid bytes same.symm
    · have none_raised : ((ExecutorUpdate.update (some 2) 1 [.bool]
          [⟨0, .of (.bool true)⟩] none).run (updateOfThree.perform beforeUpdate)).1 = .ok 0 := rfl
      rw [ran] at none_raised
      cases none_raised

end YourSQL
