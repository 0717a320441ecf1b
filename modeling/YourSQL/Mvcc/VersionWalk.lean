import YourSQL.Executor.Iteration
import YourSQL.Mvcc.Targets

/-! # The version chain of a record

From the header of a record the roll pointers lead through the undo log to the oldest
version. A scan takes the first version on this way whose writer it sees. The way has
an end: no undo record is passed twice.
-/

namespace YourSQL

open Mvcc (Rep RecordOf ChainIs Version)

variable {s s' : Database} {pages : Nat → List Nat} {tableOf : Nat → Nat} {trx t : Nat}
  {record : Record}

/-- The versions one comes to from a record through `GetUndoRecord`, itself the first. -/
def versionsFrom : (fuel : Nat) → Record → Exec (List Record)
  | 0, _ => throw "cyclic version chain"
  | fuel + 1, record => do
      if record.rollPtr.isNull then
        return [record]
      match ← getUndoRecord record.rollPtr with
      | none => return [record]
      | some older => return record :: (← versionsFrom fuel older)

def versionsOf (record : Record) : Exec (List Record) := do
  versionsFrom (← ExecutorSeqScan.versionCount) record

/-- The version that is shown to those who see some writers. -/
def firstSeen (sees : Nat → Bool) (versions : List Record) : Option Record :=
  (versions.find? fun version => sees version.trxId).filter fun version => !version.isDel

theorem firstSeen_of_seen {sees : Nat → Bool} {version : Record} (seen : sees version.trxId = true)
    (older : List Record) :
    firstSeen sees (version :: older) = if version.isDel then none else some version := by
  rw [firstSeen, List.find?_cons, seen]
  cases deleted : version.isDel <;> simp [Option.filter, deleted]

theorem firstSeen_of_unseen {sees : Nat → Bool} {version : Record}
    (unseen : sees version.trxId = false) (older : List Record) :
    firstSeen sees (version :: older) = firstSeen sees older := by
  rw [firstSeen, List.find?_cons, unseen, firstSeen]

/-- Roll pointers lead from a record through these versions, and no further. -/
inductive Leads (undo : UndoPointer → Option Record) : Record → List Record → Prop
  | last {record : Record} : record.rollPtr.isNull = true → Leads undo record [record]
  | next {record older : Record} {rest : List Record} : record.rollPtr.isNull = false →
      undo record.rollPtr = some older → Leads undo older rest →
      Leads undo record (record :: rest)

namespace Leads

variable {undo : UndoPointer → Option Record} {versions : List Record}

theorem unique {versions' : List Record} (leads : Leads undo record versions)
    (leads' : Leads undo record versions') : versions' = versions := by
  induction leads generalizing versions' with
  | last null =>
      cases leads' with
      | last => rfl
      | next notNull =>
          rw [null] at notNull
          cases notNull
  | next notNull found _ ih =>
      cases leads' with
      | last null =>
          rw [null] at notNull
          cases notNull
      | next _ found' leads' =>
          obtain rfl := Option.some.inj (found.symm.trans found')
          rw [ih leads']

/-- The pointers on the way are all different: what is behind them gets shorter. -/
theorem pointers (leads : Leads undo record versions) :
    ∃ pointers : List UndoPointer, pointers.length + 1 = versions.length ∧ pointers.Nodup ∧
      ∀ pointer ∈ pointers, ∃ older rest, undo pointer = some older ∧ Leads undo older rest ∧
        rest.length < versions.length := by
  induction leads with
  | last => exact ⟨[], rfl, List.nodup_nil, by simp⟩
  | @next record older rest notNull found leads ih =>
      obtain ⟨pointers, count, distinct, behind⟩ := ih
      refine ⟨record.rollPtr :: pointers, by simp [count], ?_, ?_⟩
      · rw [List.nodup_cons]
        refine ⟨?_, distinct⟩
        intro again
        obtain ⟨older', rest', found', leads', shorter⟩ := behind _ again
        obtain rfl := Option.some.inj (found.symm.trans found')
        rw [leads.unique leads'] at shorter
        exact absurd shorter (lt_irrefl _)
      · intro pointer member
        rcases List.mem_cons.mp member with rfl | later
        · exact ⟨older, rest, found, leads, by simp⟩
        · obtain ⟨older', rest', found', leads', shorter⟩ := behind pointer later
          exact ⟨older', rest', found', leads', shorter.trans (by simp)⟩

end Leads

/-! ## The end of the way -/

namespace Database

/-- Where the undo records start. -/
def undoPointers (s : Database) : List UndoPointer :=
  (List.range s.nextPageId).flatMap fun p =>
    (s.page p).asUndo.records.map fun entry => ⟨p, entry.1⟩

theorem mem_undoPointers (layout : Layout s pages tableOf) {pointer : UndoPointer} {older : Record}
    (found : s.undoRecord pointer = some older) : pointer ∈ s.undoPointers := by
  rw [undoRecord, UndoImage.readRecord_load, Option.map_eq_some_iff] at found
  obtain ⟨entry, read, -⟩ := found
  rw [UndoImage.readRecord, Option.map_eq_some_iff] at read
  obtain ⟨⟨offset, entry⟩, first, -⟩ := read
  have inRecords := List.mem_of_find?_eq_some first
  have here : offset = pointer.slot := by simpa using List.find?_some first
  refine List.mem_flatMap.mpr ⟨pointer.pageId, ?_, List.mem_map.mpr ⟨_, inRecords, ?_⟩⟩
  · rw [List.mem_range]
    by_contra outside
    rw [layout.blank pointer.pageId (.inr (by omega))] at inRecords
    cases inRecords
  · rw [here]

theorem length_le_of_leads (layout : Layout s pages tableOf) {versions : List Record}
    (leads : Leads s.undoRecord record versions) : versions.length ≤ s.undoPointers.length + 1 := by
  obtain ⟨pointers, count, distinct, behind⟩ := leads.pointers
  have inside : pointers ⊆ s.undoPointers := by
    intro pointer member
    obtain ⟨older, rest, found, -⟩ := behind pointer member
    exact mem_undoPointers layout found
  have bound := (distinct.subperm inside).length_le
  omega

end Database

theorem run_versionCount (s : Database) :
    ExecutorSeqScan.versionCount.run s = (.ok (s.undoPointers.length + 1), s) := by
  simp [ExecutorSeqScan.versionCount, Database.undoPointers, List.length_flatMap]

theorem Database.PoolOnly.undoRecord (pool : s.PoolOnly s') : s'.undoRecord = s.undoRecord := by
  funext pointer
  rw [Database.undoRecord, pool.page, Database.undoRecord]

theorem Database.PoolOnly.isVisibleTo (pool : s.PoolOnly s') (txn : Option Nat) :
    s'.isVisibleTo txn = s.isVisibleTo txn := by
  funext writer
  simp only [Database.isVisibleTo, pool.txnManager]

/-- Only what has gone to the files has changed. -/
def Database.FilesOnly (s s' : Database) : Prop := s.PoolOnly s' ∧ s'.pins = s.pins

theorem Database.FilesOnly.refl (s : Database) : s.FilesOnly s := ⟨.refl s, rfl⟩

theorem Database.FilesOnly.trans {s s' s'' : Database} (first : s.FilesOnly s')
    (second : s'.FilesOnly s'') : s.FilesOnly s'' :=
  ⟨first.1.trans second.1, second.2.trans first.2⟩

/-- An undo record is read, and its page is released again. -/
theorem run_getUndoRecord_files (s : Database) (pointer : UndoPointer) :
    ∃ s', (getUndoRecord pointer).run s = (.ok (s.undoRecord pointer), s') ∧ s.FilesOnly s' := by
  have pinned : (s.pin pointer.pageId).pins pointer.pageId ≠ 0 := by simp [Database.pin]
  let s' := ((s.pin pointer.pageId).unpin pointer.pageId).writeBack pointer.pageId
  have pins : s'.pins = s.pins := by simp [s', Database.unpin, Database.pin]
  have pool : s.PoolOnly s' := (Database.PoolOnly.pin s _).trans (.release _ _)
  refine ⟨s', ?_, pool, pins⟩
  unfold getUndoRecord fetchPage
  simp only [Program.run_modify_bind, Program.run_get_bind]
  rw [Program.run_bind_of_ok (run_release pinned)]
  rfl

section

variable {undo : UndoPointer → Option Record} {versions : List Record} {fuel : Nat}

theorem run_versionsFrom (same : s.undoRecord = undo) (leads : Leads undo record versions)
    (enough : versions.length ≤ fuel) :
    ∃ s', (versionsFrom fuel record).run s = (.ok versions, s') ∧ s.FilesOnly s' := by
  induction leads generalizing s fuel with
  | last null =>
      obtain ⟨fuel, rfl⟩ := Nat.exists_eq_succ_of_ne_zero (Nat.ne_zero_of_lt enough)
      unfold versionsFrom
      rw [if_pos null]
      exact ⟨s, rfl, .refl s⟩
  | @next record older rest notNull found leads ih =>
      obtain ⟨fuel, rfl⟩ := Nat.exists_eq_succ_of_ne_zero (Nat.ne_zero_of_lt enough)
      obtain ⟨s₁, read, files₁⟩ := run_getUndoRecord_files s record.rollPtr
      obtain ⟨s₂, walked, files₂⟩ := ih (files₁.1.undoRecord.trans same)
        (Nat.le_of_succ_le_succ enough)
      rw [same, found] at read
      unfold versionsFrom
      rw [if_neg (by simp [notNull]), Program.run_bind_of_ok read]
      refine ⟨s₂, ?_, files₁.trans files₂⟩
      exact Program.run_bind_of_ok walked

theorem run_walk (hasLog : s.undoLog.isSome = true) (same : s.undoRecord = undo)
    (leads : Leads undo record versions) (enough : versions.length ≤ fuel) (txn : Option Nat) :
    ∃ s', (ExecutorSeqScan.walk txn fuel record).run s =
        (.ok (firstSeen (s.isVisibleTo txn) versions), s') ∧ s.FilesOnly s' := by
  induction leads generalizing s fuel with
  | @last record null =>
      obtain ⟨fuel, rfl⟩ := Nat.exists_eq_succ_of_ne_zero (Nat.ne_zero_of_lt enough)
      refine ⟨s, ?_, .refl s⟩
      unfold ExecutorSeqScan.walk
      rw [Program.run_get_bind]
      cases visible : s.isVisibleTo txn record.trxId with
      | true =>
          rw [firstSeen_of_seen visible, if_pos rfl]
          rfl
      | false =>
          rw [firstSeen_of_unseen visible, if_neg Bool.false_ne_true, if_pos (.inl null)]
          rfl
  | @next record older rest notNull found leads ih =>
      obtain ⟨fuel, rfl⟩ := Nat.exists_eq_succ_of_ne_zero (Nat.ne_zero_of_lt enough)
      unfold ExecutorSeqScan.walk
      rw [Program.run_get_bind]
      cases visible : s.isVisibleTo txn record.trxId with
      | true =>
          refine ⟨s, ?_, .refl s⟩
          rw [firstSeen_of_seen visible, if_pos rfl]
          rfl
      | false =>
          obtain ⟨s₁, read, files₁⟩ := run_getUndoRecord_files s record.rollPtr
          obtain ⟨s₂, walked, files₂⟩ := ih (files₁.1.undoLog ▸ hasLog)
            (files₁.1.undoRecord.trans same) (Nat.le_of_succ_le_succ enough)
          have hasNone : s.undoLog.isNone = false := by
            rw [← Option.not_isSome, hasLog]
            rfl
          rw [same, found] at read
          rw [if_neg Bool.false_ne_true, if_neg (by simp [notNull, hasNone]),
            Program.run_bind_of_ok read]
          refine ⟨s₂, walked.trans ?_, files₁.trans files₂⟩
          rw [files₁.1.isVisibleTo, firstSeen_of_unseen visible]

end

/-- The way from a record, and what a scan takes from it. -/
theorem run_versionsOf {versions : List Record} (sound : s.Sound pages tableOf)
    (leads : Leads s.undoRecord record versions) :
    ((versionsOf record).run s).1 = .ok versions := by
  obtain ⟨s', ran, -⟩ := run_versionsFrom rfl leads
    (Database.length_le_of_leads sound.layout leads)
  unfold versionsOf
  rw [Program.run_bind_of_ok (run_versionCount s), ran]

theorem run_visibleVersion {versions : List Record} {view : ReadView}
    (sound : s.Sound pages tableOf) (leads : Leads s.undoRecord record versions)
    (alive : record.isDead = false)
    (hasView : (s.txnManager.transaction trx).readView = some view) :
    ∃ s', (ExecutorSeqScan.visibleVersion (some trx) record).run s =
        (.ok (firstSeen (s.isVisibleTo (some trx)) versions), s') ∧ s.FilesOnly s' := by
  obtain ⟨undoLog, hasLog, -⟩ := sound.layout.undoLog
  obtain ⟨s', ran, files⟩ := run_walk (hasLog ▸ rfl) rfl leads
    (Database.length_le_of_leads sound.layout leads) (some trx)
  refine ⟨s', ?_, files⟩
  unfold ExecutorSeqScan.visibleVersion
  rw [if_neg (by simp [alive]), Program.run_get_bind, if_neg (by simp [hasView]),
    Program.run_bind_of_ok (run_versionCount s), ran]

theorem run_visibleVersion_of_dead (dead : record.isDead = true) (txn : Option Nat) :
    (ExecutorSeqScan.visibleVersion txn record).run s = (.ok none, s) := by
  unfold ExecutorSeqScan.visibleVersion
  rw [if_pos dead]
  rfl

/-! ## What a scan makes of a record -/

/-- Going down a chain changes nothing but the pool, even if the chain does not end. -/
theorem walk_files (txn : Option Nat) (fuel : Nat) (version : Record) (s : Database) :
    s.FilesOnly ((ExecutorSeqScan.walk txn fuel version).run s).2 := by
  induction fuel generalizing version s with
  | zero => exact .refl s
  | succ fuel ih =>
      unfold ExecutorSeqScan.walk
      rw [Program.run_get_bind]
      split
      · exact .refl s
      · split
        · exact .refl s
        · obtain ⟨s₁, read, files⟩ := run_getUndoRecord_files s version.rollPtr
          rw [Program.run_bind_of_ok read]
          cases s.undoRecord version.rollPtr with
          | none => exact files
          | some older => exact files.trans (ih older s₁)

theorem visibleVersion_files (txn : Option Nat) (physical : Record) (s : Database) :
    s.FilesOnly ((ExecutorSeqScan.visibleVersion txn physical).run s).2 := by
  unfold ExecutorSeqScan.visibleVersion
  split
  · exact .refl s
  · rw [Program.run_get_bind]
    split
    · exact .refl s
    · rw [Program.run_bind_of_ok (run_versionCount s)]
      exact walk_files txn _ physical s

/-- What is found on the way does not depend on the pool. -/
theorem walk_congr (pool : s.PoolOnly s') (txn : Option Nat) (fuel : Nat) (version : Record) :
    ((ExecutorSeqScan.walk txn fuel version).run s').1 =
      ((ExecutorSeqScan.walk txn fuel version).run s).1 := by
  induction fuel generalizing version s s' with
  | zero => rfl
  | succ fuel ih =>
      unfold ExecutorSeqScan.walk
      rw [Program.run_get_bind, Program.run_get_bind, pool.isVisibleTo, pool.undoLog]
      split
      · rfl
      · split
        · rfl
        · obtain ⟨s₁, read, files⟩ := run_getUndoRecord_files s version.rollPtr
          obtain ⟨s₁', read', files'⟩ := run_getUndoRecord_files s' version.rollPtr
          rw [pool.undoRecord] at read'
          rw [Program.run_bind_of_ok read, Program.run_bind_of_ok read']
          cases s.undoRecord version.rollPtr with
          | none => rfl
          | some older => exact (ih (pool.trans files'.1) older).trans (ih files.1 older).symm

theorem visibleVersion_congr (pool : s.PoolOnly s') (txn : Option Nat) (physical : Record) :
    ((ExecutorSeqScan.visibleVersion txn physical).run s').1 =
      ((ExecutorSeqScan.visibleVersion txn physical).run s).1 := by
  unfold ExecutorSeqScan.visibleVersion
  split
  · rfl
  · rw [Program.run_get_bind, Program.run_get_bind, pool.txnManager]
    split
    · rfl
    · have pointers : s'.undoPointers = s.undoPointers := by
        rw [Database.undoPointers, pool.page, pool.nextPageId, Database.undoPointers]
      rw [Program.run_bind_of_ok (run_versionCount s), Program.run_bind_of_ok (run_versionCount s'),
        pointers]
      exact walk_congr pool txn _ physical

/-- WHERE, as a scan takes it. -/
def passes (filter : Option Filter) (payload : List UInt8) : Except String Bool :=
  match filter with
  | none => .ok true
  | some filter => do (← filter payload).getBool

/-- One call of `Next` on a record: it is passed over, or shown, or there is an exception. -/
def Database.reads (s : Database) (txn : Option Nat) (filter : Option Filter) (physical : Record) :
    Except String (Option Record) := do
  match ← ((ExecutorSeqScan.visibleVersion txn physical).run s).1 with
  | none => return none
  | some version => return if ← passes filter version.payload then some version else none

variable {txn : Option Nat} {filter : Option Filter} {physical : Record}

theorem Database.reads_of_error {e : String}
    (shown : ((ExecutorSeqScan.visibleVersion txn physical).run s).1 = .error e) :
    s.reads txn filter physical = .error e := by
  rw [Database.reads, shown]
  rfl

theorem Database.reads_of_none
    (shown : ((ExecutorSeqScan.visibleVersion txn physical).run s).1 = .ok none) :
    s.reads txn filter physical = .ok none := by
  rw [Database.reads, shown]
  rfl

theorem Database.reads_of_some {version : Record}
    (shown : ((ExecutorSeqScan.visibleVersion txn physical).run s).1 = .ok (some version)) :
    s.reads txn filter physical =
      (do return if ← passes filter version.payload then some version else none) := by
  rw [Database.reads, shown]
  rfl

theorem Database.PoolOnly.reads (pool : s.PoolOnly s') (txn : Option Nat) (filter : Option Filter) :
    s'.reads txn filter = s.reads txn filter := by
  funext physical
  rw [Database.reads, visibleVersion_congr pool, Database.reads]

end YourSQL
