import YourSQL.Mvcc.Histories

/-! # Version chains

In every state of a history, the way from a stored record through the undo log passes
the states of the record that have not been rolled back, and behind them those that the
record under it had when it was replaced. The delete mark that an UPDATE puts on the
record it replaces is not among them: that header stands on the page only.
-/

namespace YourSQL

open Mvcc (Version LogicalRow statesAt shownAt rowsOf)

variable {s : Database} {rid : RID} {record : Record}

/-- The versions behind a stored record, and what a transaction is shown of them. -/
theorem History.version_chain (history : History s)
    (stored : (s.page rid.pageId).asTable.slot rid.rowId = some record)
    (alive : record.isDead = false) :
    (∃ versions, ((versionsOf record).run s).1 = .ok versions ∧
        versions.map Record.state = statesAt s.journal rid) ∧
      ∀ trx ∈ s.txnManager.activeTxns, ∃ shown,
        ((ExecutorSeqScan.visibleVersion (some trx) record).run s).1 = .ok shown ∧
          shown.map Record.payload = shownAt s.journal trx rid := by
  obtain ⟨pages, tableOf, sound, rep⟩ := history.intact
  have found : (s.versions tableOf).slot rid = some ⟨tableOf rid.pageId, record⟩ := by
    change ((s.page rid.pageId).asTable.slot rid.rowId).map (Slot.mk (tableOf rid.pageId)) = _
    rw [stored]
    rfl
  constructor
  · rcases rep.record_states found with ⟨-, versions, leads, states, -⟩ | ⟨dead, -⟩
    · exact ⟨versions, run_versionsOf sound leads, states⟩
    · rw [alive] at dead
      cases dead
  · intro trx active
    obtain ⟨shown, s', ran, shows, -⟩ := run_visibleVersion_stored sound rep active found
    exact ⟨shown, congrArg Prod.fst ran, shows⟩

/-! ## An updated row -/

/-- All states of a row's records, the newest first, each with its delete mark. -/
def allStates : Option Nat → List Version → List RowState
  | _, [] => []
  | writer, version :: older =>
      (writer.map version.deletion).toList ++ version.state :: allStates (some version.trx) older

def allStatesFrom (rid : RID) : Option Nat → List Version → List RowState
  | _, [] => []
  | writer, version :: older =>
      if version.rid = rid then allStates writer (version :: older)
      else allStatesFrom rid (some version.trx) older

/-- The states of the record at an address, then all those of the record it replaced. -/
def allStatesAt (journal : List Event) (rid : RID) : List RowState :=
  (rowsOf journal).flatMap fun row => allStatesFrom rid row.deletedBy row.versions

/-- Transaction 1 inserts a row, and transaction 2 updates it. -/
def updatedOnce : Database :=
  oneTable.performAll
    [.begin, .insert (some 1) 1 (.ok [49, 0]), .commit 1, .begin,
      .update (some 2) 1 [.bool] [⟨0, .of (.bool true)⟩] none]

theorem updatedOnce_history : History updatedOnce := by
  apply (History.start oneTable_fresh).performAll
  exact ⟨trivial, by decide, ⟨1, by decide, rfl⟩, by decide, trivial, by decide, trivial, by decide,
    ⟨2, by decide, rfl⟩, by decide, trivial⟩

/-- What transaction 2 has written. -/
def newVersion : Record := ⟨⟨2, ⟨2, 20⟩, 0⟩, [49, 49]⟩

theorem version_chain_updatedOnce :
    (∃ versions, ((versionsOf newVersion).run updatedOnce).1 = .ok versions ∧
        versions.map Record.state = [⟨2, false, [49, 49]⟩, ⟨1, false, [49, 0]⟩]) ∧
      ∃ shown, ((ExecutorSeqScan.visibleVersion (some 2) newVersion).run updatedOnce).1 = .ok shown ∧
        shown.map Record.payload = some [49, 49] := by
  obtain ⟨chain, shown⟩ := @History.version_chain updatedOnce ⟨1, 2⟩ newVersion updatedOnce_history
    (by decide) (by decide)
  exact ⟨chain, shown 2 (by decide)⟩

/-- The replaced record was marked deleted by transaction 2, and this state is not passed. -/
theorem updatedOnce_skips_delete_mark :
    History updatedOnce ∧ (updatedOnce.page 1).asTable.slot 2 = some newVersion ∧
      newVersion.isDead = false ∧
      allStatesAt updatedOnce.journal ⟨1, 2⟩ =
        [⟨2, false, [49, 49]⟩, ⟨2, true, [49, 0]⟩, ⟨1, false, [49, 0]⟩] ∧
      ¬ ∃ versions, ((versionsOf newVersion).run updatedOnce).1 = .ok versions ∧
        versions.map Record.state = allStatesAt updatedOnce.journal ⟨1, 2⟩ := by
  refine ⟨updatedOnce_history, by decide, by decide, by decide, ?_⟩
  rintro ⟨versions, ran, states⟩
  have walked : ((versionsOf newVersion).run updatedOnce).1 =
      .ok [newVersion, ⟨⟨1, .null, 0⟩, [49, 0]⟩] := rfl
  rw [walked] at ran
  cases ran
  exact absurd states (by decide)

end YourSQL
