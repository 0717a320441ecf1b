import YourSQL.Mvcc.VersionWalk

/-! # The states of a record

Each record was the current one of its row at some time, and was marked deleted by the
next write to the row, if there was one. The journal says which of these states have
not been rolled back. The version chain of the record holds exactly them, and behind
them the versions under its own.
-/

namespace YourSQL

open Mvcc (Rep RecordOf ChainIs Version LogicalRow VersionStore seenBy rowsOf)

/-- A record's bytes and who wrote them, or who marked them deleted. -/
structure RowState where
  trx : Nat
  deleted : Bool
  payload : List UInt8
  deriving Repr, DecidableEq

def Record.state (record : Record) : RowState := ⟨record.trxId, record.isDel, record.payload⟩

namespace Mvcc

def Version.state (version : Version) : RowState := ⟨version.trx, false, version.payload⟩

def Version.deletion (version : Version) (trx : Nat) : RowState := ⟨trx, true, version.payload⟩

/-- The states of the record of a version, the newest first, and the versions under it. -/
def statesOf (writer : Option Nat) (version : Version) (older : List Version) : List RowState :=
  (writer.map version.deletion).toList ++ (version :: older).map Version.state

def statesFrom (rid : RID) : Option Nat → List Version → List RowState
  | _, [] => []
  | writer, version :: older =>
      if version.rid = rid then statesOf writer version older
      else statesFrom rid (some version.trx) older

/-- The states at an address, as the journal has them. -/
def statesAt (journal : List Event) (rid : RID) : List RowState :=
  (rowsOf journal).flatMap fun row => statesFrom rid row.deletedBy row.versions

/-- What is shown of some states to those who see some writers. -/
def shownOf (sees : Nat → Bool) (states : List RowState) : Option (List UInt8) :=
  ((states.find? fun state => sees state.trx).filter fun state => !state.deleted).map
    RowState.payload

variable {undo : UndoPointer → Option Record} {m : VersionStore} {row : LogicalRow} {rid : RID}
  {record : Record} {writer : Option Nat} {version : Version} {older : List Version}

theorem statesFrom_of_notMem {next : Option Nat} {versions : List Version}
    (elsewhere : ∀ version ∈ versions, version.rid ≠ rid) : statesFrom rid next versions = [] := by
  induction versions generalizing next with
  | nil => rfl
  | cons version older ih =>
      rw [statesFrom, if_neg (elsewhere version (List.mem_cons_self ..))]
      exact ih fun version member => elsewhere version (List.mem_cons_of_mem _ member)

theorem Position.statesFrom {next : Option Nat} {versions : List Version}
    (position : Position next versions writer version older)
    (distinct : (versions.map Version.rid).Nodup) :
    statesFrom version.rid next versions = statesOf writer version older := by
  induction position with
  | here => exact if_pos rfl
  | under position ih =>
      rw [List.map_cons, List.nodup_cons] at distinct
      rw [Mvcc.statesFrom, if_neg, ih distinct.2]
      intro same
      exact distinct.1 (same ▸ List.mem_map.mpr ⟨_, position.mem, rfl⟩)

namespace Rep

/-- The states at the address of a version. -/
theorem statesAt_eq (rep : Rep m) (member : row ∈ m.rows)
    (position : row.Position writer version older) :
    statesAt m.journal version.rid = statesOf writer version older := by
  obtain ⟨before, after, split, apart⟩ := rep.split member
  have distinct := rep.distinct
  rw [VersionStore.rids, List.nodup_flatMap] at distinct
  have inRow : version.rid ∈ row.rids := List.mem_map.mpr ⟨version, position.mem, rfl⟩
  have others : ∀ rows : List LogicalRow, (∀ other ∈ rows, other ∈ before ++ after) →
      (rows.flatMap fun row => statesFrom version.rid row.deletedBy row.versions) = [] := by
    intro rows inRest
    rw [List.flatMap_eq_nil_iff]
    intro other inRows
    apply statesFrom_of_notMem
    intro version' inVersions same
    exact apart other (inRest other inRows) version.rid inRow
      (List.mem_map.mpr ⟨version', inVersions, same⟩)
  have here := position.statesFrom (distinct.1 row member)
  rw [statesAt, show rowsOf m.journal = before ++ row :: after from split, List.flatMap_append,
    List.flatMap_cons, others before fun _ => List.mem_append_left _,
    others after fun _ => List.mem_append_right _, here]
  simp

end Rep

/-- There are no states where no version lies. -/
theorem statesAt_of_notMem (elsewhere : rid ∉ m.rids) : statesAt m.journal rid = [] := by
  rw [statesAt, List.flatMap_eq_nil_iff]
  intro row member
  apply statesFrom_of_notMem
  intro version inVersions same
  exact elsewhere (List.mem_flatMap.mpr ⟨row, member, List.mem_map.mpr ⟨version, inVersions, same⟩⟩)

/-- The undo records of a chain, behind a record that points to it. -/
theorem ChainIs.leads {versions : List Version} (chain : ChainIs undo record.rollPtr versions) :
    ∃ records, Leads undo record (record :: records) ∧
      records.map Record.state = versions.map Version.state := by
  induction versions generalizing record with
  | nil => exact ⟨[], .last chain, rfl⟩
  | cons version older ih =>
      obtain ⟨notNull, older', found, trx, flags, payload, chain⟩ := chain
      obtain ⟨records, leads, states⟩ := ih chain
      refine ⟨older' :: records, .next notNull found leads, ?_⟩
      have state : older'.state = version.state := by
        rw [Record.state, Version.state, Record.isDel, trx, flags, payload]
        rfl
      rw [List.map_cons, List.map_cons, states, state]

/-- The version chain of a stored version holds the states of its record. -/
theorem RecordOf.leads (recordOf : RecordOf undo writer version older record) :
    ∃ records, Leads undo record records ∧
      records.map Record.state = statesOf writer version older := by
  cases writer with
  | none =>
      obtain ⟨payload, trx, flags, chain⟩ := recordOf
      obtain ⟨records, leads, states⟩ := chain.leads
      refine ⟨record :: records, leads, ?_⟩
      have state : record.state = version.state := by
        rw [Record.state, Version.state, Record.isDel, trx, flags, payload]
        rfl
      rw [List.map_cons, states, state]
      rfl
  | some trx' =>
      obtain ⟨payload, trx, flags, chain⟩ := recordOf
      obtain ⟨records, leads, states⟩ := chain.leads
      refine ⟨record :: records, leads, ?_⟩
      have state : record.state = version.deletion trx' := by
        rw [Record.state, Version.deletion, Record.isDel, trx, flags, payload]
        rfl
      rw [List.map_cons, states, state]
      rfl

/-- Who wrote a state has written to the row. -/
theorem Position.state_mem {next : Option Nat} {versions : List Version}
    (position : Position next versions writer version older) :
    ∀ state ∈ statesOf writer version older, state.trx ∈ next.toList ++ versions.map Version.trx := by
  induction position with
  | @here next version older =>
      intro state member
      simp only [statesOf, List.mem_append, Option.mem_toList, Option.map_eq_some_iff,
        List.mem_map] at member
      rcases member with ⟨trx, rfl, rfl⟩ | ⟨version', inVersions, rfl⟩
      · simp [Version.deletion]
      · exact List.mem_append_right _ (List.mem_map.mpr ⟨version', inVersions, rfl⟩)
  | under position ih =>
      intro state member
      have later := ih state member
      rw [Option.toList_some, List.singleton_append] at later
      rw [List.map_cons]
      exact List.mem_append_right _ later

/-- What is shown of a record's versions is what is shown of its states. -/
theorem payload_firstSeen (sees : Nat → Bool) (records : List Record) :
    (firstSeen sees records).map Record.payload = shownOf sees (records.map Record.state) := by
  induction records with
  | nil => rfl
  | cons record records ih =>
      cases seen : sees record.trxId with
      | true =>
          rw [firstSeen_of_seen seen]
          cases deleted : record.isDel <;> simp [shownOf, Record.state, seen, deleted, Option.filter]
      | false =>
          rw [firstSeen_of_unseen seen, ih]
          simp [shownOf, Record.state, seen]

theorem shownOf_congr {sees sees' : Nat → Bool} {states : List RowState}
    (same : ∀ state ∈ states, sees state.trx = sees' state.trx) :
    shownOf sees states = shownOf sees' states := by
  have first : (states.find? fun state => sees state.trx) =
      states.find? fun state => sees' state.trx := by
    induction states with
    | nil => rfl
    | cons state states ih =>
        rw [List.find?_cons, List.find?_cons, same state (List.mem_cons_self ..),
          ih fun state member => same state (List.mem_cons_of_mem _ member)]
  rw [shownOf, first, shownOf]

/-- What a transaction is shown of the record at an address. -/
def shownAt (journal : List Event) (trx : Nat) (rid : RID) : Option (List UInt8) :=
  shownOf (seenBy trx journal) (statesAt journal rid)

/-- A stored record is dead, or its version chain holds the states at its address. -/
theorem Rep.record_states {t : Nat} (rep : Rep m) (stored : m.slot rid = some ⟨t, record⟩) :
    (record.isDead = false ∧ ∃ versions, Leads m.undo record versions ∧
        versions.map Record.state = statesAt m.journal rid ∧
        ∀ state ∈ statesAt m.journal rid,
          state.trx ∈ m.manager.activeTxns ∨ state.trx ∈ committedOf m.journal) ∨
      (record.isDead = true ∧ statesAt m.journal rid = []) := by
  by_cases inRids : rid ∈ m.rids
  · obtain ⟨row, inRows, inRow⟩ := List.mem_flatMap.mp inRids
    obtain ⟨version, inVersions, rfl⟩ := List.mem_map.mp inRow
    obtain ⟨writer, older, position⟩ := @exists_position row.deletedBy _ _ inVersions
    obtain ⟨record', found, recordOf⟩ := rep.stored row inRows writer version older position
    rw [stored] at found
    cases found
    obtain ⟨versions, leads, states⟩ := recordOf.leads
    rw [rep.statesAt_eq inRows position]
    refine .inl ⟨?_, versions, leads, states, ?_⟩
    · cases writer with
      | none =>
          rw [Record.isDead, recordOf.2.2.1]
          rfl
      | some writer =>
          rw [Record.isDead, recordOf.2.2.1]
          rfl
    · exact fun state member => rep.known row inRows state.trx (position.state_mem state member)
  · obtain ⟨flags, -⟩ := (rep.others rid _ stored).resolve_left inRids
    refine .inr ⟨?_, statesAt_of_notMem inRids⟩
    change record.flags.isDead = true
    rw [show record.flags = RECORD_DEAD from flags]
    rfl

end Mvcc

end YourSQL
