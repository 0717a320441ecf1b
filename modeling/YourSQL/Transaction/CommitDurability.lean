import YourSQL.Lib.Transition
import YourSQL.Log.WalRoundTrip
import YourSQL.Transaction.RecoveryManager
import Mathlib.Data.List.Pairwise

/-! # What a crash leaves of the transactions of one client

The client begins, logs, commits and aborts in any order, and the process dies inside or
between two calls. Recovery then reads a prefix of what the log file was given.
-/

namespace YourSQL

open RecoveryManager

/-- What `LogDataChange` is called for. -/
inductive DataChange where
  | insertRow
  | updateRow
  | deleteRow
  deriving Repr, DecidableEq

def DataChange.type : DataChange → LogRecordType
  | insertRow => .insertRow
  | updateRow => .updateRow
  | deleteRow => .deleteRow

/-- The rollback of `Abort` works on pages, of which only its outcome is seen here. -/
inductive TxnCall where
  | begin
  | logDataChange (txn : Option Nat) (change : DataChange) (payload : Wal.LogDataPayload)
      (image_le : payload.image.length ≤ 65535)
  | commit (id : Nat)
  | abort (id : Nat) (rollback : Except String Unit)

/-- Transaction manager and log of a process. `inCall` is the call that the client is in,
    with its outcome; the fields behind it are for the statements only. -/
structure LogRun where
  txnManager : TransactionManager := {}
  log : SerialLogManager
  inCall : Option (TxnCall × Except String Unit) := none
  begun : List Nat := []
  /-- The transactions that `Commit` was called for, and those for which it returned. -/
  called : List Nat := []
  returned : List Nat := []
  /-- How long the log file was when the last `Flush` was completed. -/
  durable : Nat := 0
  accepted : List LogRecord := []

namespace LogRun

def start (capacity : Nat) : LogRun := { log := .openFile capacity [] }

/-- The next process, on the log that it found and the manager that it recovered. -/
def restart (capacity : Nat) (file : List UInt8) (txnManager : TransactionManager) : LogRun where
  txnManager := txnManager
  log := .openFile capacity file

def append (s : LogRun) (record : LogRecord) : Except String Unit × LogRun :=
  match s.log.appendLogRecord record with
  | (.error e, log) => (.error e, { s with log := log })
  | (.ok lsn, log) =>
      (.ok ⟨⟩, { s with
        log := log
        accepted := s.accepted ++ [{ record with lsn := UInt64.ofNat lsn }] })

/-- The record of `WriteTxnControlLog`. -/
def controlRecord (id : Nat) (type : LogRecordType) : LogRecord where
  lsn := 0
  txId := UInt64.ofNat id
  type := type
  payload := []
  payloadSize_lt := LogRecord.noPayload_lt

/-- `WriteTxnControlLog` and the flush behind it. -/
def forceControlLog (s : LogRun) (id : Nat) (type : LogRecordType) : Except String Unit × LogRun :=
  match s.append (controlRecord id type) with
  | (.error e, s) => (.error e, s)
  | (.ok _, s) => (.ok ⟨⟩, { s with log := s.log.flush })

def body (s : LogRun) : TxnCall → Except String Unit × LogRun
  | .begin =>
      let (id, m) := s.txnManager.beginAllocate
      (.ok ⟨⟩, { s with
        txnManager := m.setReadView id (m.createReadView id)
        begun := id :: s.begun })
  | .logDataChange txn change payload image_le =>
      let request : Wal.AppendRequest :=
        { txId := UInt64.ofNat (txn.getD INVALID_TX_ID)
          type := change.type
          payload := payload
          image_le := image_le }
      s.append (request.record INVALID_LSN)
  | .commit id =>
      let s := { s with called := id :: s.called }
      match s.txnManager.commitSection id with
      | .error e => (.error e, s)
      | .ok m => { s with txnManager := m }.forceControlLog id .commit
  | .abort id rollback =>
      match s.txnManager.abortLookup id with
      | .error e => (.error e, s)
      | .ok _ =>
          match rollback with
          | .error e => (.error e, s)
          | .ok _ => { s with txnManager := s.txnManager.abortFinish id }.forceControlLog id .abort

/-- A transaction object comes from `Begin`. -/
def Legal (s : LogRun) : TxnCall → Prop
  | .logDataChange (some id) _ _ _ => id ∈ s.begun
  | _ => True

instance (s : LogRun) (c : TxnCall) : Decidable (s.Legal c) := by
  cases c with
  | logDataChange txn change payload image_le =>
      cases txn <;> unfold Legal <;> infer_instance
  | _ => exact instDecidableTrue

/-- A flush that was part of the call is completed when the call returns. -/
def finishCall (s : LogRun) : TxnCall → Except String Unit → LogRun
  | .commit id, .ok _ =>
      { s with returned := id :: s.returned, durable := s.log.buffer.disk.size }
  | .abort _ _, .ok _ => { s with durable := s.log.buffer.disk.size }
  | _, _ => s

inductive Action where
  | call (c : TxnCall)
  | return

def step (s : LogRun) : Action → Option LogRun
  | .call c =>
      if s.inCall.isNone ∧ s.Legal c then
        let (outcome, s) := s.body c
        some { s with inCall := some (c, outcome) }
      else
        none
  | .return =>
      match s.inCall with
      | none => none
      | some (c, outcome) => some ({ s with inCall := none }.finishCall c outcome)

/-! ## What holds in every state -/

/-- The record ends its transaction. -/
def Final (record : LogRecord) : Prop := record.type = .commit ∨ record.type = .abort

/-- A COMMIT record of the transaction stands in the first `length` bytes. -/
def CommittedIn (accepted : List LogRecord) (length id : Nat) : Prop :=
  ∃ before record after, accepted = before ++ record :: after ∧ record.type = .commit ∧
    record.txId.toNat = id ∧ (recordFraming.encodeAll (before ++ [record])).length ≤ length

/-- The log tells of each transaction at most once that it ended, and then it is not
    active any more. -/
structure Inv (s : LogRun) : Prop where
  bytes : s.log.buffer.bytes = recordFraming.encodeAll s.accepted
  positive : 0 < s.txnManager.nextTxid
  active : ∀ id ∈ s.txnManager.activeTxns, 0 < id ∧ id < s.txnManager.nextTxid
  begun : ∀ id ∈ s.begun, 0 < id ∧ id < s.txnManager.nextTxid
  marks : ∀ record ∈ s.accepted, Marks record.type
  final : ∀ record ∈ s.accepted, Final record →
    0 < record.txId.toNat ∧ record.txId.toNat < s.txnManager.nextTxid ∧
      record.txId.toNat ∉ s.txnManager.activeTxns
  once : s.accepted.Pairwise fun a b => Final a → Final b → a.txId ≠ b.txId
  called : ∀ record ∈ s.accepted, record.type = .commit → record.txId.toNat ∈ s.called
  returned : ∀ id ∈ s.returned, CommittedIn s.accepted s.durable id
  inCall : ∀ id, s.inCall = some (.commit id, .ok ⟨⟩) →
    CommittedIn s.accepted s.log.buffer.disk.size id
  durable : s.durable ≤ s.log.buffer.disk.size

variable {s s' : LogRun} {id : Nat} {record : LogRecord}

theorem CommittedIn.mono {accepted later : List LogRecord} {length length' : Nat}
    (committed : CommittedIn accepted length id) (longer : length ≤ length') :
    CommittedIn (accepted ++ later) length' id := by
  obtain ⟨before, record, after, split, commit, own, inside⟩ := committed
  exact ⟨before, record, after ++ later, by simp [split], commit, own, by omega⟩

theorem inv_start (capacity : Nat) : Inv (start capacity) := by
  constructor <;> simp [start, SerialLogManager.openFile, SerialLogBuffer.bytes]

/-- The record is appended, or it is too large and nothing is. -/
theorem append_cases (s : LogRun) (record : LogRecord) :
    (∃ e, s.append record =
        (.error e, { s with log := { s.log with nextLsn := s.log.nextLsn + 1 } })) ∨
      ∃ log lsn, s.append record = (.ok ⟨⟩, { s with
          log := log
          accepted := s.accepted ++ [{ record with lsn := lsn }] }) ∧
        log.buffer.bytes = s.log.buffer.bytes ++ { record with lsn := lsn }.serialize ∧
        s.log.buffer.disk.file <+: log.buffer.disk.file := by
  by_cases fits : { record with lsn := UInt64.ofNat s.log.nextLsn }.serialize.length ≤
      s.log.buffer.capacity
  · obtain ⟨buffer, written, -, bytes, kept⟩ := SerialLogBuffer.write_eq_ok fits
    refine .inr ⟨{ nextLsn := s.log.nextLsn + 1, buffer := buffer },
      UInt64.ofNat s.log.nextLsn, ?_, bytes, kept⟩
    simp only [append, SerialLogManager.appendLogRecord, written]
  · have refused := SerialLogBuffer.write_eq_error (Nat.lt_of_not_le fits)
    refine .inl ⟨"LogBuffer::Write record larger than buffer capacity", ?_⟩
    simp only [append, SerialLogManager.appendLogRecord, refused]

/-- A field that only the statements read may change, and so may the LSN counter. -/
theorem Inv.refused (inv : Inv s) {e : String} (nextLsn : Nat) (c : TxnCall) :
    Inv { s with log := { s.log with nextLsn := nextLsn }, inCall := some (c, .error e) } :=
  { inv with
    inCall := by simp }

/-- A record is appended to the log of a client that is in no call. -/
theorem Inv.appended (inv : Inv s) {log : SerialLogManager} (idle : s.inCall = none)
    (bytes : log.buffer.bytes = s.log.buffer.bytes ++ record.serialize)
    (kept : s.log.buffer.disk.file <+: log.buffer.disk.file) (marks : Marks record.type)
    (final : Final record → 0 < record.txId.toNat ∧
      record.txId.toNat < s.txnManager.nextTxid ∧ record.txId.toNat ∉ s.txnManager.activeTxns ∧
      ∀ other ∈ s.accepted, Final other → other.txId ≠ record.txId)
    (called : record.type = .commit → record.txId.toNat ∈ s.called) :
    Inv { s with log := log, accepted := s.accepted ++ [record] } := by
  have longer : s.log.buffer.disk.size ≤ log.buffer.disk.size := kept.length_le
  refine
    { bytes := ?_
      positive := inv.positive
      active := inv.active
      begun := inv.begun
      marks := ?_
      final := ?_
      once := ?_
      called := ?_
      returned := fun id member => (inv.returned id member).mono (Nat.le_refl _)
      inCall := fun id same => by simp [idle] at same
      durable := Nat.le_trans inv.durable longer }
  · rw [bytes, inv.bytes, Framing.encodeAll_append]
    simp [recordFraming]
  · intro other member
    rcases List.mem_append.mp member with old | new
    · exact inv.marks other old
    · rw [List.mem_singleton.mp new]
      exact marks
  · intro other member ends
    rcases List.mem_append.mp member with old | new
    · exact inv.final other old ends
    · obtain rfl := List.mem_singleton.mp new
      obtain ⟨positive, small, inactive, -⟩ := final ends
      exact ⟨positive, small, inactive⟩
  · refine List.pairwise_append.mpr ⟨inv.once, List.pairwise_singleton .., ?_⟩
    intro other old new member ends ends'
    obtain rfl := List.mem_singleton.mp member
    exact (final ends').2.2.2 other old ends
  · intro other member commit
    rcases List.mem_append.mp member with old | new
    · exact inv.called other old commit
    · obtain rfl := List.mem_singleton.mp new
      exact called commit

/-- A transaction that ends leaves the active ones. -/
theorem Inv.finish (inv : Inv s) (id : Nat) (state : TransactionState) (called : List Nat)
    (more : ∀ id ∈ s.called, id ∈ called) :
    Inv { s with txnManager := s.txnManager.finish id state, called := called } :=
  { inv with
    active := fun other member =>
      inv.active other (TransactionManager.mem_finish_activeTxns.mp member).1
    final := fun record member ends => by
      obtain ⟨positive, small, inactive⟩ := inv.final record member ends
      exact ⟨positive, small, fun active =>
        inactive (TransactionManager.mem_finish_activeTxns.mp active).1⟩
    called := fun record member commit => more _ (inv.called record member commit) }

theorem txId_controlRecord (small : id < 2 ^ 64) (type : LogRecordType) :
    (controlRecord id type).txId.toNat = id := by
  rw [controlRecord, UInt64.toNat_ofNat', Nat.mod_eq_of_lt small]

/-- The end of a transaction that was active until now is logged. -/
theorem Inv.forceControlLog (inv : Inv s) (idle : s.inCall = none) {type : LogRecordType}
    (ends : type = .commit ∨ type = .abort) (issued : 0 < id ∧ id < s.txnManager.nextTxid)
    (small : s.txnManager.nextTxid ≤ 2 ^ 64) (inactive : id ∉ s.txnManager.activeTxns)
    (first : ∀ other ∈ s.accepted, Final other → other.txId.toNat ≠ id)
    (called : type = .commit → id ∈ s.called) {c : TxnCall}
    (own : ∀ id', c = .commit id' → type = .commit ∧ id' = id) :
    Inv { (s.forceControlLog id type).2 with
      inCall := some (c, (s.forceControlLog id type).1) } := by
  have txId := txId_controlRecord (Nat.lt_of_lt_of_le issued.2 small) type
  have sameType : (controlRecord id type).type = type := rfl
  unfold LogRun.forceControlLog
  generalize controlRecord id type = record at txId sameType
  rcases append_cases s record with ⟨e, refused⟩ | ⟨log, lsn, done, bytes, kept⟩
  · rw [refused]
    exact inv.refused _ c
  · rw [done]
    have appended : Inv { s with
        log := log
        accepted := s.accepted ++ [{ record with lsn := lsn }] } := by
      refine inv.appended idle bytes kept ?_ ?_ ?_
      · rcases ends with commit | abort
        · exact .inl (sameType.trans commit)
        · exact .inr (.inl (sameType.trans abort))
      · simp only [txId]
        refine fun _ => ⟨issued.1, issued.2, inactive, fun other member final same => ?_⟩
        exact first other member final ((congrArg UInt64.toNat same).trans txId)
      · simp only [txId, sameType]
        exact called
    have file : log.flush.buffer.disk.file =
        recordFraming.encodeAll (s.accepted ++ [{ record with lsn := lsn }]) := by
      rw [SerialLogManager.flush, SerialLogBuffer.file_flush]
      exact appended.bytes
    refine
      { appended with
        bytes := (log.buffer.bytes_flush).trans appended.bytes
        returned := appended.returned
        inCall := ?_
        durable := Nat.le_trans appended.durable log.buffer.file_prefix_flush.length_le }
    intro id' same
    obtain ⟨commit, rfl⟩ := own id' (Prod.mk.inj (Option.some.inj same)).1
    refine ⟨s.accepted, _, [], rfl, sameType.trans commit, txId, ?_⟩
    simp only [LogDiskManager.size, file]
    exact Nat.le_refl _

theorem Inv.logDataChange (inv : Inv s) (idle : s.inCall = none) {txn : Option Nat}
    {change : DataChange} {payload : Wal.LogDataPayload}
    {image_le : payload.image.length ≤ 65535} {c : TxnCall}
    (call : c = .logDataChange txn change payload image_le) :
    Inv { (s.body c).2 with inCall := some (c, (s.body c).1) } := by
  subst call
  simp only [body]
  generalize request : Wal.AppendRequest.record _ INVALID_LSN = record
  have type : record.type = change.type := by
    rw [← request]
    rfl
  rcases append_cases s record with ⟨e, refused⟩ | ⟨log, lsn, done, bytes, kept⟩
  · rw [refused]
    exact inv.refused _ _
  · rw [done]
    have notFinal : ¬ Final { record with lsn := lsn } := by
      rintro (commit | abort)
      · cases change <;> simp [type, DataChange.type] at commit
      · cases change <;> simp [type, DataChange.type] at abort
    have appended : Inv { s with
        log := log
        accepted := s.accepted ++ [{ record with lsn := lsn }] } := by
      refine inv.appended idle bytes kept ?_ (fun ends => absurd ends notFinal) ?_
      · cases change <;> simp [Marks, type, DataChange.type]
      · exact fun commit => absurd (Or.inl commit) notFinal
    exact { appended with inCall := by simp }

/-- A transaction that is active has no record of its end. -/
theorem Inv.first (inv : Inv s) (active : id ∈ s.txnManager.activeTxns) :
    ∀ other ∈ s.accepted, Final other → other.txId.toNat ≠ id := by
  rintro other member ends rfl
  exact (inv.final other member ends).2.2 active

/-- Each call keeps the invariant, while the ids fit 64 bits. -/
theorem Inv.body (inv : Inv s) (idle : s.inCall = none) (c : TxnCall)
    (small : s.txnManager.nextTxid ≤ 2 ^ 64) :
    Inv { (s.body c).2 with inCall := some (c, (s.body c).1) } := by
  cases c with
  | begin =>
      refine
        { bytes := inv.bytes
          positive := Nat.succ_pos _
          active := ?_
          begun := ?_
          marks := inv.marks
          final := ?_
          once := inv.once
          called := inv.called
          returned := inv.returned
          inCall := by simp
          durable := inv.durable }
      · intro id member
        rcases List.mem_cons.mp member with rfl | old
        · exact ⟨inv.positive, Nat.lt_succ_self _⟩
        · obtain ⟨positive, less⟩ := inv.active id old
          exact ⟨positive, Nat.lt_succ_of_lt less⟩
      · intro id member
        rcases List.mem_cons.mp member with rfl | old
        · exact ⟨inv.positive, Nat.lt_succ_self _⟩
        · obtain ⟨positive, less⟩ := inv.begun id old
          exact ⟨positive, Nat.lt_succ_of_lt less⟩
      · intro record member ends
        obtain ⟨positive, less, inactive⟩ := inv.final record member ends
        refine ⟨positive, Nat.lt_succ_of_lt less, fun active => ?_⟩
        rcases List.mem_cons.mp active with same | old
        · exact absurd same (Nat.ne_of_lt less)
        · exact inactive old
  | logDataChange txn change payload image_le => exact inv.logDataChange idle rfl
  | commit id =>
      have called : Inv { s with called := id :: s.called } :=
        { inv with
          called := fun record member commit =>
            List.mem_cons_of_mem _ (inv.called record member commit) }
      simp only [LogRun.body, TransactionManager.commitSection]
      by_cases active : id ∈ s.txnManager.activeTxns
      · simp only [active, if_true]
        have finished := inv.finish id .committed (id :: s.called)
          fun _ => List.mem_cons_of_mem _
        refine finished.forceControlLog idle (.inl rfl) (inv.active id active) small ?_
          (inv.first active) (fun _ => List.mem_cons_self ..) ?_
        · simp
        · rintro id' same
          exact ⟨rfl, (TxnCall.commit.inj same).symm⟩
      · simp only [active, if_false]
        exact called.refused _ _
  | abort id rollback =>
      simp only [LogRun.body, TransactionManager.abortLookup]
      by_cases active : id ∈ s.txnManager.activeTxns
      · simp only [active, if_true]
        cases rollback with
        | error e => exact inv.refused _ _
        | ok _ =>
            have finished := inv.finish id .aborted s.called fun _ member => member
            refine finished.forceControlLog idle (.inr rfl) (inv.active id active) small ?_
              (inv.first active) (by simp) (by simp)
            simp
      · simp only [active, if_false]
        exact inv.refused _ _

/-- When a call returns, what it flushed is durable. -/
theorem Inv.return (inv : Inv s) (taken : s.step .return = some s') : Inv s' := by
  simp only [step] at taken
  cases call : s.inCall with
  | none => simp [call] at taken
  | some found =>
      obtain ⟨c, outcome⟩ := found
      simp only [call] at taken
      obtain rfl := Option.some.inj taken
      have later : ∀ id ∈ s.returned, CommittedIn s.accepted s.log.buffer.disk.size id := by
        intro id member
        obtain ⟨before, record, after, split, commit, own, inside⟩ := inv.returned id member
        exact ⟨before, record, after, split, commit, own, Nat.le_trans inside inv.durable⟩
      unfold finishCall
      split
      · rename_i id _
        refine
          { inv with
            returned := ?_
            inCall := by simp
            durable := Nat.le_refl _ }
        intro id' member
        rcases List.mem_cons.mp member with rfl | old
        · exact inv.inCall id' call
        · exact later id' old
      · exact
          { inv with
            returned := later
            inCall := by simp
            durable := Nat.le_refl _ }
      · exact { inv with inCall := by simp }

/-- Logging leaves the manager alone. -/
theorem txnManager_append (s : LogRun) (record : LogRecord) :
    (s.append record).2.txnManager = s.txnManager ∧ (s.append record).2.begun = s.begun := by
  rcases append_cases s record with ⟨e, refused⟩ | ⟨log, lsn, done, -, -⟩
  · rw [refused]
    exact ⟨rfl, rfl⟩
  · rw [done]
    exact ⟨rfl, rfl⟩

theorem txnManager_forceControlLog (s : LogRun) (id : Nat) (type : LogRecordType) :
    (s.forceControlLog id type).2.txnManager = s.txnManager ∧
      (s.forceControlLog id type).2.begun = s.begun := by
  have logged := txnManager_append s (controlRecord id type)
  unfold LogRun.forceControlLog
  rcases appended : s.append (controlRecord id type) with ⟨_ | _, t⟩
  · rwa [appended] at logged
  · rwa [appended] at logged

/-- A call begins a transaction with the next id, or the ids stay as they are. -/
theorem body_ids (s : LogRun) (c : TxnCall) :
    ((s.body c).2.txnManager.nextTxid = s.txnManager.nextTxid + 1 ∧
        (s.body c).2.begun = s.txnManager.nextTxid :: s.begun) ∨
      (s.body c).2.txnManager.nextTxid = s.txnManager.nextTxid ∧
        (s.body c).2.begun = s.begun := by
  cases c with
  | begin => exact .inl ⟨rfl, rfl⟩
  | logDataChange txn change payload image_le =>
      right
      simp only [LogRun.body, txnManager_append, and_self]
  | commit id =>
      right
      simp only [LogRun.body, TransactionManager.commitSection]
      split
      · exact ⟨rfl, rfl⟩
      · rename_i m found
        split at found
        · obtain rfl := Except.ok.inj found
          simp only [txnManager_forceControlLog, TransactionManager.finish_nextTxid, and_self]
        · cases found
  | abort id rollback =>
      right
      simp only [LogRun.body, TransactionManager.abortLookup]
      split
      · exact ⟨rfl, rfl⟩
      · cases rollback with
        | error e => exact ⟨rfl, rfl⟩
        | ok _ =>
            simp only [txnManager_forceControlLog, TransactionManager.abortFinish,
              TransactionManager.finish_nextTxid, and_self]

theorem finishCall_ids (s : LogRun) (c : TxnCall) (outcome : Except String Unit) :
    (s.finishCall c outcome).txnManager = s.txnManager ∧
      (s.finishCall c outcome).begun = s.begun := by
  unfold finishCall
  split <;> exact ⟨rfl, rfl⟩

/-- The same for a step. -/
theorem step_ids {action : Action} (taken : s.step action = some s') :
    (s'.txnManager.nextTxid = s.txnManager.nextTxid + 1 ∧
        s'.begun = s.txnManager.nextTxid :: s.begun) ∨
      s'.txnManager.nextTxid = s.txnManager.nextTxid ∧ s'.begun = s.begun := by
  cases action with
  | call c =>
      simp only [step] at taken
      split at taken
      · obtain rfl := Option.some.inj taken
        exact body_ids s c
      · cases taken
  | «return» =>
      simp only [step] at taken
      cases call : s.inCall with
      | none => simp [call] at taken
      | some found =>
          simp only [call] at taken
          obtain rfl := Option.some.inj taken
          obtain ⟨manager, begun⟩ := finishCall_ids { s with inCall := none } found.1 found.2
          exact .inr ⟨by rw [manager], begun⟩

/-- After a restart the ids go on where recovery left them. -/
theorem begun_of_restart {capacity : Nat} {file : List UInt8} {m : TransactionManager}
    {actions : List Action}
    (reached : Transition.run step (restart capacity file m) actions = some s') :
    ∀ id ∈ s'.begun, m.nextTxid ≤ id := by
  have kept := @Transition.invariant _ _ step
    (fun s => m.nextTxid ≤ s.txnManager.nextTxid ∧ ∀ id ∈ s.begun, m.nextTxid ≤ id) _ _ _
    ⟨Nat.le_refl _, by simp [restart]⟩ (fun t _ t' good taken => by
      obtain ⟨later, ids⟩ := good
      rcases step_ids taken with ⟨next, begun⟩ | ⟨next, begun⟩
      · refine ⟨by omega, fun id member => ?_⟩
        rw [begun] at member
        rcases List.mem_cons.mp member with rfl | old
        · exact later
        · exact ids id old
      · rw [next, begun]
        exact ⟨later, ids⟩) reached
  exact kept.2

theorem inv_of_run {capacity : Nat} {actions : List Action}
    (reached : Transition.run step (start capacity) actions = some s)
    (small : s.txnManager.nextTxid ≤ 2 ^ 64) : Inv s := by
  have kept := @Transition.invariant _ _ step
    (fun s => s.txnManager.nextTxid ≤ 2 ^ 64 → Inv s) _ _ _ (fun _ => inv_start capacity)
    (fun t action t' good taken small' => by
      have small : t.txnManager.nextTxid ≤ 2 ^ 64 := by
        rcases step_ids taken with ⟨next, -⟩ | ⟨next, -⟩ <;> omega
      have inv := good small
      cases action with
      | «return» => exact inv.return taken
      | call c =>
          simp only [step] at taken
          split at taken
          · rename_i allowed
            obtain rfl := Option.some.inj taken
            exact inv.body (Option.isNone_iff_eq_none.mp allowed.1) c small
          · cases taken) reached
  exact kept small

/-- Two records that end the same transaction are one. -/
theorem Inv.notBoth (inv : Inv s) {commit abort : LogRecord} (first : commit ∈ s.accepted)
    (second : abort ∈ s.accepted) (isCommit : commit.type = .commit) (isAbort : abort.type = .abort) :
    abort.txId.toNat ≠ commit.txId.toNat := by
  intro same
  have sameId : abort.txId = commit.txId := UInt64.toNat_inj.mp same
  have ne : commit ≠ abort := by
    rintro rfl
    rw [isCommit] at isAbort
    cases isAbort
  have symmetric : Std.Symm fun a b : LogRecord => Final a → Final b → a.txId ≠ b.txId :=
    ⟨fun a b differ ends ends' => (differ ends' ends).symm⟩
  have differ := inv.once.forall first second ne
  exact differ (.inl isCommit) (.inr isAbort) sameId.symm

/-- A prefix of the log is read as the records that it holds whole. -/
theorem Inv.readLog_eq (inv : Inv s) {surviving : List UInt8}
    (handed : surviving <+: s.log.buffer.disk.readAll) :
    readLog surviving = recordFraming.survivors s.accepted surviving.length := by
  have whole : surviving <+: recordFraming.encodeAll s.accepted := by
    rw [← inv.bytes]
    exact handed.trans (List.prefix_append ..)
  rw [readLog_eq_parse]
  have cut := List.prefix_iff_eq_take.mp whole
  have parsed := recordFraming.parse_take s.accepted surviving.length
    (Nat.lt_succ_self ((recordFraming.encodeAll s.accepted).take surviving.length).length)
  rwa [← cut] at parsed

end LogRun

end YourSQL
