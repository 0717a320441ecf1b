import YourSQL.Mvcc.ChainEnds
import YourSQL.Mvcc.VersionChains
import YourSQL.Storage.SlottedPage

/-! # Roll pointers lead back

In every state a roll pointer is null or leads to an undo record that was appended before
the version with the pointer, and the loop over the versions of a record comes to an end.
That takes headers that are where the code looks for them. A tuple whose size leaves fewer
bytes than a header in 16 bits ends within its own, and the next tuple starts there.
-/

namespace YourSQL

open Bytes
open Mvcc (Guarded Steps Threaded VersionStore)

variable {s u : Database} {pages : Nat → List Nat} {tableOf : Nat → Nat} {trx t : Nat}
  {m m' : VersionStore} {record : Record} {header : RecordHeader} {payload : List UInt8}

/-! ## Tuples and headers -/

/-- The bytes that `InsertTuple` copies: `tuple_size_` keeps 16 bits of their number. -/
def tupleBytes (header : RecordHeader) (payload : List UInt8) : List UInt8 :=
  (header.encode ++ payload).take ((REC_HEADER_SIZE + payload.length) % 2 ^ 16)

/-- What is left of the size has room for the header. -/
def Whole (payload : List UInt8) : Prop :=
  REC_HEADER_SIZE ≤ (REC_HEADER_SIZE + payload.length) % 2 ^ 16

/-- These are the tuples that records stand for. -/
theorem tupleBytes_eq_encode_iff :
    tupleBytes header payload = (tupleOf header payload).encode ↔ Whole payload := by
  constructor
  · intro same
    have lengths := congrArg List.length same
    rw [Record.length_encode, tupleBytes, List.length_take] at lengths
    simp only [List.length_append, RecordHeader.length_encode, Record.size] at lengths
    unfold Whole
    omega
  · intro whole
    have split : (REC_HEADER_SIZE + payload.length) % 2 ^ 16 = header.encode.length +
        ((REC_HEADER_SIZE + payload.length) % 2 ^ 16 - REC_HEADER_SIZE) := by
      rw [RecordHeader.length_encode]
      unfold Whole at whole
      omega
    rw [tupleBytes, split, List.take_length_add_append]
    rfl

def Event.Whole : Event → Prop
  | .insert _ _ _ payload => YourSQL.Whole payload
  | .replace _ _ _ payload => YourSQL.Whole payload
  | _ => True

instance (event : Event) : Decidable event.Whole :=
  match event with
  | .insert _ _ _ payload =>
      inferInstanceAs (Decidable (REC_HEADER_SIZE ≤ (REC_HEADER_SIZE + payload.length) % 2 ^ 16))
  | .replace _ _ _ payload =>
      inferInstanceAs (Decidable (REC_HEADER_SIZE ≤ (REC_HEADER_SIZE + payload.length) % 2 ^ 16))
  | .view _ => inferInstanceAs (Decidable True)
  | .commit _ => inferInstanceAs (Decidable True)
  | .abort _ => inferInstanceAs (Decidable True)
  | .delete _ _ => inferInstanceAs (Decidable True)

/-- The versions that the command stores are whole, and it takes back none that has found
    no place: the address (0, 0) is not that of a record. -/
structure Command.SparesHeaders (s : Database) (command : Command) : Prop where
  whole : ∀ event ∈ (command.perform s).journal, event.Whole
  placed : ∀ trx, command = .abort trx →
    ∀ wr ∈ (s.txnManager.transaction trx).writeSet, wr.rid ≠ ⟨0, 0⟩

/-- The states that clients can lead to without writing over a header. -/
inductive HeadersKept : Database → Prop
  | start {s : Database} : s.Fresh → HeadersKept s
  | perform {s : Database} (command : Command) : HeadersKept s → command.Proper s →
      command.SparesHeaders s → HeadersKept (command.perform s)

theorem HeadersKept.reachable (kept : HeadersKept s) : s.Reachable := by
  induction kept with
  | start fresh => exact ⟨_, fresh, .refl⟩
  | perform command _ proper _ ih =>
      obtain ⟨start, fresh, run⟩ := ih
      exact ⟨start, fresh, run.perform command trivial proper⟩

/-! ## The order of the appends -/

namespace Mvcc

/-- What is saved on the way from one store to another comes behind all that was saved. -/
def Appends (m m' : VersionStore) : Prop :=
  (∀ pointer record, m.undo pointer = some record → m'.undo pointer = some record) ∧
    ∀ pointer record, m.undo pointer = none → m'.undo pointer = some record →
      pointer.IsNext m.undo

theorem Appends.refl (m : VersionStore) : Appends m m := by
  refine ⟨fun _ _ found => found, ?_⟩
  intro pointer record unused found
  rw [unused] at found
  cases found

theorem Appends.of_undo (undo : m'.undo = m.undo) : Appends m m' := by
  rw [Appends, undo]
  exact Appends.refl m

theorem Appends.trans {m'' : VersionStore} (first : Appends m m') (second : Appends m' m'') :
    Appends m m'' := by
  refine ⟨fun pointer record found => second.1 pointer record (first.1 pointer record found), ?_⟩
  intro pointer record unused found
  cases before : m'.undo pointer with
  | some earlier => exact first.2 pointer earlier unused before
  | none =>
      have next := second.2 pointer record before found
      exact fun other older found => next other older (first.1 other older found)

theorem Step.appends (step : Step trx m m') : Appends m m' := by
  cases step with
  | @save rid t old pointer stored free next =>
      refine ⟨(VersionStore.extends_save next.unused old).undo, ?_⟩
      intro other record unused found
      by_cases same : other = pointer
      · exact same ▸ next
      · have kept : (m.save pointer old).undo other = m.undo other := Function.update_of_ne same ..
        rw [kept, unused] at found
        cases found
  | delete => exact .of_undo rfl
  | insert => exact .of_undo rfl
  | lose => exact .of_undo rfl

theorem Steps.appends (steps : Steps trx m m') : Appends m m' := by
  induction steps with
  | refl => exact .refl m
  | tail _ step ih => exact ih.trans step.appends

end Mvcc

/-- A command only appends to the undo log. -/
theorem Database.Secure.perform_appends (secure : s.Secure pages tableOf) {command : Command}
    (proper : command.Proper s) :
    ∃ tableOf', Mvcc.Appends (s.versions tableOf) ((command.perform s).versions tableOf') := by
  cases command with
  | begin =>
      refine ⟨tableOf, ?_⟩
      rw [(begin_versions secure.sound).2]
      exact .of_undo rfl
  | refreshReadView trx =>
      refine ⟨tableOf, ?_⟩
      rw [(refreshReadView_versions secure.sound trx).2]
      exact .of_undo rfl
  | commit trx =>
      refine ⟨tableOf, ?_⟩
      rw [(commit_versions secure.sound trx).2.1]
      split
      · exact .of_undo rfl
      · exact .refl _
  | abort trx =>
      refine ⟨tableOf, ?_⟩
      by_cases active : trx ∈ s.txnManager.activeTxns
      · rw [(secure.abort_tables active).2]
        exact .of_undo rfl
      · unfold Command.perform abortTransaction
        dsimp only
        rw [Program.run_get_bind, TransactionManager.abortLookup, if_neg active]
        exact .refl _
  | insert txn t row =>
      obtain ⟨trx, active, rfl⟩ := proper
      obtain ⟨_, tableOf', _, steps⟩ := insert_steps secure.sound trx t row
      exact ⟨tableOf', steps.appends⟩
  | delete txn t filter =>
      obtain ⟨trx, active, rfl⟩ := proper
      obtain ⟨_, tableOf', _, steps⟩ := delete_steps secure.sound secure.guarded active t filter
      exact ⟨tableOf', steps.appends⟩
  | update txn t schema clauses filter =>
      obtain ⟨trx, active, rfl⟩ := proper
      obtain ⟨_, tableOf', _, steps⟩ :=
        update_steps secure.sound secure.guarded active t schema clauses filter
      exact ⟨tableOf', steps.appends⟩
  | select txn t filter =>
      refine ⟨tableOf, ?_⟩
      have scans := select_pool secure.sound txn t filter
      rw [Command.perform, scans.pool.versions tableOf]
      exact .refl _

/-! ## The loop over the versions -/

/-- Whoever reads a record, with whatever read view: its versions are gone through. -/
theorem run_visibleVersion_ends (layout : Layout s pages tableOf) {versions : List Record}
    (leads : Leads s.undoRecord record versions) (txn : Option Nat) :
    ∃ shown, ((ExecutorSeqScan.visibleVersion txn record).run s).1 = .ok shown := by
  unfold ExecutorSeqScan.visibleVersion
  split
  · exact ⟨none, rfl⟩
  · rw [Program.run_get_bind]
    split
    · exact ⟨_, rfl⟩
    · obtain ⟨undoLog, hasLog, -⟩ := layout.undoLog
      obtain ⟨s', ran, -⟩ := run_walk (hasLog ▸ rfl) rfl leads
        (Database.length_le_of_leads layout leads) txn
      rw [Program.run_bind_of_ok (run_versionCount s), ran]
      exact ⟨_, rfl⟩

/-- In every state that is led to: the roll pointer of each record and of each undo record
    is null or leads to an undo record, and that of an undo record to an earlier one;
    whatever command comes next, undo records stay and new ones come behind them; and the
    loop of a scan comes to an end for every record and every read view. -/
theorem HeadersKept.roll_pointers_lead_back (kept : HeadersKept s) :
    (∀ rid record, s.tupleAt rid = some record → record.rollPtr.isNull = true ∨
        ∃ older, s.undoRecord record.rollPtr = some older) ∧
      (∀ pointer record, s.undoRecord pointer = some record → record.rollPtr.isNull = true ∨
        record.rollPtr.Before pointer ∧ ∃ older, s.undoRecord record.rollPtr = some older) ∧
      (∀ command : Command, command.Proper s → ∀ pointer record,
        (s.undoRecord pointer = some record →
          (command.perform s).undoRecord pointer = some record) ∧
        (s.undoRecord pointer = none → (command.perform s).undoRecord pointer = some record →
          pointer.IsNext s.undoRecord)) ∧
      ∀ rid record, s.tupleAt rid = some record → ∀ (manager : TransactionManager) txn,
        ∃ shown, ((ExecutorSeqScan.visibleVersion txn record).run
          { s with txnManager := manager }).1 = .ok shown := by
  obtain ⟨pages, tableOf, secure, threaded⟩ := kept.reachable.threaded
  have anchored : ∀ rid record, s.tupleAt rid = some record →
      Mvcc.Anchored (s.versions tableOf) record := fun rid record found =>
    threaded.stored rid _ (Database.slot_of_tupleAt found tableOf)
  refine ⟨anchored, ?_, ?_, ?_⟩
  · intro pointer record found
    obtain ⟨anchored, before⟩ := threaded.saved pointer record found
    cases null : record.rollPtr.isNull with
    | true => exact .inl rfl
    | false =>
        refine .inr ⟨before null, anchored.resolve_left ?_⟩
        simp [null]
  · intro command proper pointer record
    obtain ⟨tableOf', stay, behind⟩ := secure.perform_appends proper
    exact ⟨stay pointer record, behind pointer record⟩
  · intro rid record found manager txn
    obtain ⟨versions, leads⟩ := threaded.ends (anchored rid record found)
    have layout : Layout { s with txnManager := manager } pages tableOf :=
      secure.sound.layout.congr rfl rfl rfl rfl rfl rfl
    exact run_visibleVersion_ends layout leads txn

theorem updatedOnce_headersKept : HeadersKept updatedOnce := by
  unfold updatedOnce Database.performAll
  simp only [List.foldl_cons, List.foldl_nil]
  have started := HeadersKept.start oneTable_fresh
  have begun := started.perform .begin trivial ⟨by decide, nofun⟩
  have inserted := begun.perform (.insert (some 1) 1 (.ok [49, 0])) ⟨1, by decide, rfl⟩
    ⟨by decide, nofun⟩
  have committed := inserted.perform (.commit 1) trivial ⟨by decide, nofun⟩
  have second := committed.perform .begin trivial ⟨by decide, nofun⟩
  exact second.perform (.update (some 2) 1 [.bool] [⟨0, .of (.bool true)⟩] none)
    ⟨2, by decide, rfl⟩ ⟨by decide, nofun⟩

/-- The new version leads to the one that was saved. -/
theorem roll_pointers_lead_back_updatedOnce :
    updatedOnce.tupleAt ⟨1, 2⟩ = some newVersion ∧ newVersion.rollPtr.isNull = false ∧
      ∃ older, updatedOnce.undoRecord newVersion.rollPtr = some older := by
  have found : updatedOnce.tupleAt ⟨1, 2⟩ = some newVersion := by decide
  have notNull : newVersion.rollPtr.isNull = false := by decide
  refine ⟨found, notNull, ?_⟩
  have leads := updatedOnce_headersKept.roll_pointers_lead_back.1 ⟨1, 2⟩ newVersion found
  exact leads.resolve_left (by simp [notNull])

/-! ## A header that is cut -/

/-- The first page of a table after INSERTs of these tuples, byte by byte. -/
def insertedPage (tuples : List (List UInt8)) : TablePageBytes :=
  tuples.foldl (fun page tuple => ((TablePageBytes.load page.data).insertTuple tuple).2)
    (.init 1 (List.replicate PAGE_SIZE 0))

/-- The roll pointers on the page are null, or lead to an undo record. -/
def TablePageBytes.Leads (page : TablePageBytes) (undo : UndoPointer → Option Record) : Prop :=
  ∀ rowId, 1 ≤ rowId → rowId ≤ page.header.numRows →
    (page.readRecordRollPtr rowId).isNull = true ∨
      ∃ older, undo (page.readRecordRollPtr rowId) = some older

/-- A VARCHAR of 65515 characters: with the header, 10 bytes more than 16 bits can count. -/
def cutRow : List UInt8 := 49 :: ofNat 8 65515 ++ List.replicate 65515 97

theorem tupleBytes_cutRow (header : RecordHeader) :
    tupleBytes header cutRow = header.encode.take 10 := by
  have length : cutRow.length = 65524 := by
    unfold cutRow
    rw [List.length_append, List.length_cons, length_ofNat, List.length_replicate]
  have cut : (REC_HEADER_SIZE + 65524) % 2 ^ 16 = 10 := by decide
  rw [tupleBytes, length, cut, List.take_append_of_le_length]
  rw [RecordHeader.length_encode]
  decide

/-- INSERT does not touch the undo log. -/
theorem insert_undoRecord (sound : s.Sound pages tableOf) (txn : Option Nat) (t : Nat)
    (row : Except String (List UInt8)) :
    ((Command.insert txn t row).perform s).undoRecord = s.undoRecord := by
  obtain ⟨result, s', pages', tableOf', held, ran, -, -, -, ends⟩ := run_insert sound txn t row
  have undo : s'.undoRecord = (s'.versions tableOf').undo := rfl
  rw [Command.perform, ran]
  change s'.undoRecord = _
  rw [undo]
  generalize s'.versions tableOf' = m' at ends
  generalize s'.order pages' = order at ends
  cases ends with
  | noTable => rfl
  | unserialized => rfl
  | large => rfl
  | stored => cases txn <;> rfl

/-- Commands of clients that only insert. -/
def Command.onlyInserts : Command → Bool
  | begin => true
  | commit _ => true
  | insert _ _ _ => true
  | _ => false

theorem Database.Fresh.undoRecord_inserts (fresh : s.Fresh)
    (run : Interleaving (fun command => command.onlyInserts = true) s u) (pointer : UndoPointer) :
    u.undoRecord pointer = none := by
  induction run with
  | refl =>
      rw [Database.undoRecord, fresh.page]
      rfl
  | @perform v command before inserts proper ih =>
      obtain ⟨pages, tableOf, secure⟩ := before.secure fresh.secure
      have undo : (command.perform v).undoRecord = v.undoRecord := by
        cases command with
        | begin => exact congrArg VersionStore.undo (begin_versions secure.sound).2
        | commit trx =>
            have versions := congrArg VersionStore.undo (commit_versions secure.sound trx).2.1
            split at versions
            · exact versions
            · exact versions
        | insert txn t row => exact insert_undoRecord secure.sound txn t row
        | refreshReadView => cases inserts
        | abort => cases inserts
        | delete => cases inserts
        | update => cases inserts
        | select => cases inserts
      rw [undo]
      exact ih

/-- A VARCHAR of one character. -/
def shortRow : List UInt8 := 49 :: ofNat 8 1 ++ [97]

/-- What the page looks like when the second row has come behind 10 bytes of the first. -/
def cutPage : TablePageBytes :=
  insertedPage [(RecordHeader.encode ⟨1, .null, 0⟩).take 10, tupleBytes ⟨2, .null, 0⟩ shortRow]

/-- While rows are only inserted nothing is saved, and yet a roll pointer on the page is not
    null: that of a record which is cut is made of the transaction id of the next one. -/
theorem cutRow_leads_nowhere :
    (∀ s u : Database, s.Fresh → Interleaving (fun command => command.onlyInserts = true) s u →
      ∀ pointer, u.undoRecord pointer = none) ∧
    ¬ ∀ first second : List UInt8,
      (insertedPage [tupleBytes ⟨1, .null, 0⟩ first, tupleBytes ⟨2, .null, 0⟩ second]).Leads
        fun _ => none := by
  refine ⟨fun s u fresh run => fresh.undoRecord_inserts run, fun leads => ?_⟩
  have lead := leads cutRow shortRow
  rw [tupleBytes_cutRow, ← cutPage] at lead
  have pointer : cutPage.readRecordRollPtr 1 = ⟨131072, 0⟩ := by decide +kernel
  have rows : cutPage.header.numRows = 2 := by decide +kernel
  rcases lead 1 le_rfl (rows ▸ one_le_two) with null | ⟨older, found⟩
  · rw [pointer] at null
    cases null
  · cases found

end YourSQL
