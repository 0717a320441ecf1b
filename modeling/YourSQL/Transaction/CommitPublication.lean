import YourSQL.Log.LogBuffer
import YourSQL.Log.LogRecord
import YourSQL.Transaction.TransactionManager

/-! # When a commit is seen, and when it is in the log

`Commit` publishes the new state in one critical section. It appends and flushes the
COMMIT record behind it, without the lock, and in between the other clients go on: they
take read views, commit, and append and flush records of their own.
-/

namespace YourSQL

/-- Where a client stands with its transaction. -/
inductive CommitClient where
  | idle
  /-- Between the two sections of `Begin`. -/
  | begun (id : Nat)
  | running (id : Nat)
  /-- Behind the critical section of `Commit`. -/
  | committed (id : Nat)
  /-- In `AppendLogRecord`, with an LSN. -/
  | appending (id lsn : Nat)
  /-- `Write` was called. -/
  | written (id : Nat)
  | flushing (id : Nat)
  deriving Repr, DecidableEq

/-- Manager, log buffer and clients of a process. `views` are the read views so far. -/
structure CommitRun where
  txnManager : TransactionManager := {}
  log : LogBuffer
  nextLsn : Nat := 1
  client : Nat → CommitClient := fun _ => .idle
  views : List ReadView := []

namespace CommitRun

/-- A process on an empty log. -/
def start (capacity : Nat) : CommitRun := { log := .init capacity (.openFile none) }

def commitRecord (id lsn : Nat) : LogRecord where
  lsn := UInt64.ofNat lsn
  txId := UInt64.ofNat id
  type := .commit
  payload := []
  payloadSize_lt := LogRecord.noPayload_lt

def setClient (s : CommitRun) (c : Nat) (client : CommitClient) : CommitRun :=
  { s with client := Function.update s.client c client }

inductive Action where
  | beginAllocate (c : Nat)
  | createReadView (c : Nat)
  | commitSection (c : Nat)
  | drawLsn (c : Nat)
  /-- The COMMIT record is handed to `LogBuffer::Write`. -/
  | write (c : Nat)
  /-- Another record is, of a row or of an abort. -/
  | writeOther (c : Nat) (record : LogRecord)
  | flush (c : Nat)
  | return (c : Nat)
  /-- A wake-up of a waiting client, or a step of the backend. -/
  | log (action : LogBuffer.Action)

/-- What a step does to the log buffer. -/
def logAction? (s : CommitRun) : Action → Option LogBuffer.Action
  | .write c =>
      match s.client c with
      | .appending id lsn => some (.write c (commitRecord id lsn).serialize)
      | _ => none
  | .writeOther c record => some (.write c record.serialize)
  | .flush c => some (.flush c)
  | .log action => some action
  | _ => none

/-- The steps that other actions take on behalf of a client. -/
def ofClient : LogBuffer.Action → Bool
  | .write _ _ | .flush _ | .setStop => true
  | _ => false

/-- A client that waits in the log buffer does nothing else. -/
def step (s : CommitRun) : Action → Option CommitRun
  | .beginAllocate c =>
      match s.client c with
      | .idle =>
          if s.log.client c = .idle then
            let (id, m) := s.txnManager.beginAllocate
            some ({ s with txnManager := m }.setClient c (.begun id))
          else
            none
      | _ => none
  | .createReadView c =>
      if s.log.client c = .idle then
        match s.client c with
        | .begun id | .running id =>
            let view := s.txnManager.createReadView id
            some ({ s with
              txnManager := s.txnManager.setReadView id view
              views := view :: s.views }.setClient c (.running id))
        | _ => none
      else
        none
  | .commitSection c =>
      match s.client c with
      | .running id =>
          if s.log.client c = .idle then
            match s.txnManager.commitSection id with
            | .ok m => some ({ s with txnManager := m }.setClient c (.committed id))
            | .error _ => some s
          else
            none
      | _ => none
  | .drawLsn c =>
      match s.client c with
      | .committed id =>
          some ({ s with nextLsn := s.nextLsn + 1 }.setClient c (.appending id s.nextLsn))
      | _ => none
  | .write c =>
      match s.client c with
      | .appending id lsn =>
          let data := (commitRecord id lsn).serialize
          (s.log.step (.write c data)).map fun log =>
            -- a record that is too large raises, and the transaction stays committed
            { s with log := log }.setClient c
              (if data.length > s.log.capacity then .idle else .written id)
      | _ => none
  | .writeOther c record =>
      match s.client c with
      | .idle | .running _ =>
          if record.type = .commit then
            none
          else
            (s.log.step (.write c record.serialize)).map fun log => { s with log := log }
      | _ => none
  | .flush c =>
      (s.log.step (.flush c)).bind fun log =>
        match s.client c with
        | .idle | .running _ => some { s with log := log }
        | .written id => some ({ s with log := log }.setClient c (.flushing id))
        | _ => none
  | .return c =>
      match s.client c with
      | .flushing _ => if s.log.client c = .idle then some (s.setClient c .idle) else none
      | _ => none
  | .log action =>
      if ofClient action then none else (s.log.step action).map fun log => { s with log := log }

/-- The id was handed out by `Begin`. -/
def Issued (s : CommitRun) (id : Nat) : Prop := 0 < id ∧ id < s.txnManager.nextTxid

/-- The read view belongs to another transaction and treats this one as committed. -/
def Treats (s : CommitRun) (view : ReadView) (id : Nat) : Prop :=
  s.Issued id ∧ id ≠ view.createTrxId ∧ view.isVisible (some s.txnManager) id = true

/-- The COMMIT record of the transaction can be read in these bytes. -/
def Logged (bytes : List UInt8) (id : Nat) : Prop :=
  ∃ record ∈ readLog bytes, record.type = .commit ∧ record.txId.toNat = id

/-- Whatever a crash leaves of the log file: with the COMMIT record of a transaction it
    has those of all transactions that this one saw committed. -/
def PublishedWhenDurable (s : CommitRun) : Prop :=
  ∀ surviving, surviving <+: s.log.disk.file → ∀ view ∈ s.views, ∀ id, s.Treats view id →
    Logged surviving view.createTrxId → Logged surviving id

/-- The COMMIT record that enters the buffer comes after those of all transactions that
    its own one saw committed. -/
def AfterSeen (s : CommitRun) (data : List UInt8) : Prop :=
  ∀ record : LogRecord, data = record.serialize → record.type = .commit →
    ∀ view ∈ s.views, view.createTrxId = record.txId.toNat → ∀ id, s.Treats view id →
      Logged s.log.accepted.flatten id

/-- The log buffer is used in order, COMMIT records enter it in order, and the ids fit
    64 bits. -/
def Obeys (s : CommitRun) : Action → Prop
  | .beginAllocate _ => s.txnManager.nextTxid < 2 ^ 64
  | action => ∀ logAction, s.logAction? action = some logAction →
      s.log.Orderly logAction ∧ ∀ data, s.log.entering logAction = some data → s.AfterSeen data

/-! ## The invariant -/

/-- The transaction that a client is in. -/
def txn? : CommitClient → Option Nat
  | .idle => none
  | .begun id | .running id | .committed id | .appending id _ | .written id | .flushing id => some id

/-- The same, as long as its COMMIT record was not handed to the buffer. -/
def unlogged? : CommitClient → Option Nat
  | .begun id | .running id | .committed id | .appending id _ => some id
  | _ => none

theorem txn?_of_unlogged? {client : CommitClient} {id : Nat} (open_ : unlogged? client = some id) :
    txn? client = some id := by
  cases client <;> simp_all [txn?, unlogged?]

/-- What a read view treats as committed for ever. -/
def Frozen (view : ReadView) (id : Nat) : Prop :=
  0 < id ∧ id ≠ view.createTrxId ∧ id < view.lowLimitId ∧ id ∉ view.activeIds

/-- The COMMIT record of the transaction is one of these. -/
def CommittedBy (records : List LogRecord) (id : Nat) : Prop :=
  ∃ record ∈ records, record.type = .commit ∧ record.txId.toNat = id

/-- The accepted records, in their order, and what the state table and the views say of
    their transactions. -/
structure Inv (records : List LogRecord) (s : CommitRun) : Prop where
  log : s.log.Inv
  found : s.log.found = []
  accepted : s.log.accepted = records.map LogRecord.serialize
  waiting : ∀ c data, s.log.client c = .inWrite data → ∃ record : LogRecord, data = record.serialize ∧
    (record.type = .commit → s.client c = .written record.txId.toNat)
  positive : 0 < s.txnManager.nextTxid
  small : s.txnManager.nextTxid ≤ 2 ^ 64
  owned : ∀ c id, txn? (s.client c) = some id → s.Issued id
  alone : ∀ c c' id, txn? (s.client c) = some id → txn? (s.client c') = some id → c = c'
  states : ∀ id, s.Issued id →
    (id ∈ s.txnManager.activeTxns ∧ (s.txnManager.transaction id).state = .inProgress ∧
        s.txnManager.txnState id = some .inProgress) ∨
      (id ∉ s.txnManager.activeTxns ∧ s.txnManager.txnState id = some .committed)
  views : ∀ view ∈ s.views, view.lowLimitId ≤ s.txnManager.nextTxid ∧
    ∀ id, Frozen view id → s.txnManager.txnState id = some .committed
  unlogged : ∀ c id, unlogged? (s.client c) = some id → ¬ CommittedBy records id
  logged : ∀ id, CommittedBy records id → s.Issued id
  ordered : ∀ before record after, records = before ++ record :: after → record.type = .commit →
    ∀ view ∈ s.views, view.createTrxId = record.txId.toNat → ∀ id, Frozen view id →
      CommittedBy before id

variable {records : List LogRecord} {s s' : CommitRun}

theorem inv_start (capacity : Nat) : Inv [] (start capacity) where
  log := LogBuffer.inv_init ..
  found := rfl
  accepted := rfl
  waiting := by simp [start, LogBuffer.init]
  positive := Nat.one_pos
  small := by
    show 1 ≤ 2 ^ 64
    decide
  owned := by simp [start, txn?]
  alone := by simp [start, txn?]
  states := by
    rintro id ⟨positive, less⟩
    have : id < 1 := less
    omega
  views := by simp [start]
  unlogged := by simp [start, unlogged?]
  logged := by simp [CommittedBy]
  ordered := by simp

/-- A view answers by what it has frozen. -/
theorem Inv.treats_iff (inv : Inv records s) {view : ReadView} (member : view ∈ s.views)
    {id : Nat} : s.Treats view id ↔ Frozen view id := by
  obtain ⟨low, committed⟩ := inv.views view member
  constructor
  · rintro ⟨issued, other, visible⟩
    refine ⟨issued.1, other, ?_, ?_⟩
    · by_contra late
      have : view.lowLimitId ≤ id := not_lt.mp late
      simp [ReadView.isVisible, INVALID_TX_ID, Nat.ne_of_gt issued.1, other, this] at visible
    · intro active
      simp [ReadView.isVisible, INVALID_TX_ID, Nat.ne_of_gt issued.1, other, active] at visible
  · intro frozen
    have state := committed id frozen
    obtain ⟨positive, other, early, inactive⟩ := frozen
    have late : ¬ view.lowLimitId ≤ id := not_le.mpr early
    refine ⟨⟨positive, Nat.lt_of_lt_of_le early low⟩, other, ?_⟩
    simp [ReadView.isVisible, INVALID_TX_ID, Nat.ne_of_gt positive, other, late, inactive,
      TransactionManager.isAborted, TransactionManager.isCommitted, state]

/-- What was accepted is read back. -/
theorem readLog_accepted (inv : Inv records s) : readLog s.log.accepted.flatten = records := by
  have whole : s.log.accepted.flatten = recordFraming.encodeAll records ++ [] := by
    rw [inv.accepted, List.append_nil]
    rfl
  rw [readLog_eq_parse, whole]
  apply recordFraming.parse_split recordFraming.incomplete_nil
  have := recordFraming.length_le_length_encodeAll records
  simp only [List.append_nil]
  omega

/-- A crash leaves the first records of those that were accepted. -/
theorem Inv.readLog_prefix (inv : Inv records s) {surviving : List UInt8}
    (kept : surviving <+: s.log.disk.file) : readLog surviving <+: records := by
  have complete := inv.log.complete
  rw [inv.found, List.nil_append, inv.accepted] at complete
  have whole : surviving <+: recordFraming.encodeAll records := by
    refine kept.trans ⟨_, complete.trans ?_⟩
    rfl
  have cut := List.prefix_iff_eq_take.mp whole
  have parsed := recordFraming.parse_take records surviving.length
    (Nat.lt_succ_self ((recordFraming.encodeAll records).take surviving.length).length)
  rw [← cut] at parsed
  rw [readLog_eq_parse, parsed]
  exact recordFraming.survivors_prefix ..

theorem Inv.publishedWhenDurable (inv : Inv records s) : s.PublishedWhenDurable := by
  rintro surviving kept view member id treats ⟨record, inLog, commit, own⟩
  have frozen := (inv.treats_iff member).mp treats
  obtain ⟨rest, split⟩ := inv.readLog_prefix kept
  obtain ⟨before, after, read⟩ := List.append_of_mem inLog
  obtain ⟨other, inBefore, found⟩ := inv.ordered before record (after ++ rest)
    (by rw [← split, read]; simp) commit view member own.symm id frozen
  exact ⟨other, by rw [read]; exact List.mem_append_left _ inBefore, found⟩

/-- A step of the log buffer, with what it means for the client that takes it. -/
theorem Inv.logStep (inv : Inv records s) {action : LogBuffer.Action} {log : LogBuffer}
    {client : Nat → CommitClient} (orderly : s.log.Orderly action)
    (afterSeen : ∀ data, s.log.entering action = some data → s.AfterSeen data)
    (taken : s.log.step action = some log)
    (sameTxn : ∀ c id, txn? (client c) = some id → txn? (s.client c) = some id)
    (sameOpen : ∀ c id, unlogged? (client c) = some id → unlogged? (s.client c) = some id)
    (stays : ∀ c data, s.log.client c = .inWrite data → client c = s.client c)
    (source : ∀ c data, action = .write c data → ∃ record : LogRecord, data = record.serialize ∧
      (record.type = .commit → data.length ≤ s.log.capacity →
        client c = .written record.txId.toNat)) :
    ∃ records', Inv records' { s with log := log, client := client } := by
  obtain ⟨found, accepted, waits⟩ := LogBuffer.step_accepted taken
  have logInv := LogBuffer.inv_step inv.log orderly taken
  have waiting : ∀ c data, log.client c = .inWrite data → ∃ record : LogRecord, data = record.serialize ∧
      (record.type = .commit → client c = .written record.txId.toNat) := by
    intro c data waiting
    rcases waits c data waiting with before | ⟨same, fits⟩
    · obtain ⟨record, serialized, own⟩ := inv.waiting c data before
      exact ⟨record, serialized, fun commit => by rw [stays c data before]; exact own commit⟩
    · obtain ⟨record, serialized, own⟩ := source c data same
      exact ⟨record, serialized, fun commit => own commit fits⟩
  have base : Inv records { s with log := s.log, client := client } →
      s.log.entering action = none → Inv records { s with log := log, client := client } := by
    intro before quiet
    exact
      { before with
        log := logInv
        found := found.trans inv.found
        accepted := by rw [accepted, quiet]; simpa using inv.accepted
        waiting := waiting }
  have clients : Inv records { s with log := s.log, client := client } :=
    { inv with
      waiting := fun c data before => by
        obtain ⟨record, serialized, own⟩ := inv.waiting c data before
        exact ⟨record, serialized, fun commit => by
          show client c = _
          rw [stays c data before]
          exact own commit⟩
      owned := fun c id own => inv.owned c id (sameTxn c id own)
      alone := fun c c' id own own' => inv.alone c c' id (sameTxn c id own) (sameTxn c' id own')
      unlogged := fun c id open_ => inv.unlogged c id (sameOpen c id open_) }
  cases entered : s.log.entering action with
  | none => exact ⟨records, base clients entered⟩
  | some data =>
      -- the record that enters, and whose it is
      have origin : ∃ record : LogRecord, data = record.serialize ∧
          (record.type = .commit → ∃ c, client c = .written record.txId.toNat) := by
        cases action with
        | write c data' =>
            simp only [LogBuffer.entering] at entered
            split at entered
            · rename_i fits
              obtain rfl := Option.some.inj entered
              obtain ⟨record, serialized, own⟩ := source c data' rfl
              exact ⟨record, serialized, fun commit => ⟨c, own commit fits.1⟩⟩
            · cases entered
        | writeWake c =>
            simp only [LogBuffer.entering] at entered
            split at entered
            · rename_i data' pc
              obtain rfl := Option.some.inj entered
              obtain ⟨record, serialized, own⟩ := inv.waiting c data' pc
              exact ⟨record, serialized, fun commit => ⟨c, by
                rw [stays c data' pc]
                exact own commit⟩⟩
            · cases entered
        | _ => cases entered
      obtain ⟨record, serialized, own⟩ := origin
      refine ⟨records ++ [record],
        { clients with
          log := logInv
          found := found.trans inv.found
          accepted := ?_
          waiting := waiting
          unlogged := ?_
          logged := ?_
          ordered := ?_ }⟩
      · rw [accepted, entered, serialized, inv.accepted]
        simp
      · rintro c id open_ ⟨other, member, commit, same⟩
        rcases List.mem_append.mp member with old | new
        · exact clients.unlogged c id open_ ⟨other, old, commit, same⟩
        · obtain rfl := List.mem_singleton.mp new
          obtain ⟨c', written⟩ := own commit
          obtain rfl : c = c' := clients.alone c c' id (txn?_of_unlogged? open_)
            (by simp [written, txn?, same])
          simp [written, unlogged?] at open_
      · rintro id ⟨other, member, commit, same⟩
        rcases List.mem_append.mp member with old | new
        · exact inv.logged id ⟨other, old, commit, same⟩
        · obtain rfl := List.mem_singleton.mp new
          obtain ⟨c, written⟩ := own commit
          exact clients.owned c id (by simp [written, txn?, same])
      · intro before other after split commit view member viewOwner id frozen
        rcases List.eq_nil_or_concat after with rfl | ⟨init, last, rfl⟩
        · obtain ⟨rfl, same⟩ := List.append_inj' split rfl
          obtain rfl : record = other := by simpa using same
          have treats := (inv.treats_iff member).mpr frozen
          have logged := afterSeen data entered record serialized commit view member viewOwner
            id treats
          rwa [Logged, readLog_accepted inv] at logged
        · rw [List.concat_eq_append, ← List.cons_append, ← List.append_assoc] at split
          obtain ⟨rfl, -⟩ := List.append_inj' split rfl
          exact inv.ordered before other init rfl commit view member viewOwner id frozen

/-- A client goes on with its transaction, or is done with it. -/
theorem Inv.setClient (inv : Inv records s) {c : Nat} {client : CommitClient}
    (sameTxn : ∀ id, txn? client = some id → txn? (s.client c) = some id)
    (sameOpen : ∀ id, unlogged? client = some id → unlogged? (s.client c) = some id)
    (notWritten : ∀ id, s.client c ≠ .written id) : Inv records (s.setClient c client) := by
  have txn : ∀ c' id, txn? ((s.setClient c client).client c') = some id →
      txn? (s.client c') = some id := by
    intro c' id own
    by_cases same : c' = c
    · subst same
      exact sameTxn id (by simpa [CommitRun.setClient] using own)
    · simpa [CommitRun.setClient, same] using own
  refine
    { inv with
      waiting := ?_
      owned := fun c' id own => inv.owned c' id (txn c' id own)
      alone := fun c' c'' id own own' => inv.alone c' c'' id (txn c' id own) (txn c'' id own')
      unlogged := ?_ }
  · intro c' data waits
    obtain ⟨record, serialized, own⟩ := inv.waiting c' data waits
    refine ⟨record, serialized, fun commit => ?_⟩
    have written := own commit
    by_cases same : c' = c
    · exact absurd (same ▸ written) (notWritten _)
    · simpa [CommitRun.setClient, same] using written
  · intro c' id open_
    by_cases same : c' = c
    · subst same
      exact inv.unlogged c' id (sameOpen id (by simpa [CommitRun.setClient] using open_))
    · exact inv.unlogged c' id (by simpa [CommitRun.setClient, same] using open_)

theorem Inv.beginAllocate (inv : Inv records s) {c : Nat} (idle : s.client c = .idle)
    (small : s.txnManager.nextTxid < 2 ^ 64) :
    Inv records ({ s with txnManager := s.txnManager.beginAllocate.2 }.setClient c
      (.begun s.txnManager.nextTxid)) := by
  have issued : ∀ {id}, s.Issued id → id ≠ s.txnManager.nextTxid := fun issued =>
    Nat.ne_of_lt issued.2
  have own : ∀ c' id, txn? (Function.update s.client c (.begun s.txnManager.nextTxid) c') = some id →
      c' = c ∧ id = s.txnManager.nextTxid ∨ c' ≠ c ∧ txn? (s.client c') = some id := by
    intro c' id own
    by_cases same : c' = c
    · subst same
      rw [Function.update_self] at own
      exact .inl ⟨rfl, (Option.some.inj own).symm⟩
    · rw [Function.update_of_ne same] at own
      exact .inr ⟨same, own⟩
  refine
    { log := inv.log
      found := inv.found
      accepted := inv.accepted
      waiting := ?_
      positive := Nat.succ_pos _
      small := small
      owned := ?_
      alone := ?_
      states := ?_
      views := ?_
      unlogged := ?_
      logged := fun id logged => ⟨(inv.logged id logged).1, Nat.lt_succ_of_lt (inv.logged id logged).2⟩
      ordered := inv.ordered }
  · intro c' data waits
    obtain ⟨record, serialized, written⟩ := inv.waiting c' data waits
    refine ⟨record, serialized, fun commit => ?_⟩
    have before := written commit
    by_cases same : c' = c
    · rw [same, idle] at before
      cases before
    · simpa [CommitRun.setClient, same] using before
  · intro c' id mine
    rcases own c' id mine with ⟨-, rfl⟩ | ⟨-, before⟩
    · exact ⟨inv.positive, Nat.lt_succ_self _⟩
    · obtain ⟨positive, less⟩ := inv.owned c' id before
      exact ⟨positive, Nat.lt_succ_of_lt less⟩
  · intro c' c'' id mine mine'
    rcases own c' id mine with ⟨here, new⟩ | ⟨-, before⟩ <;>
      rcases own c'' id mine' with ⟨here', new'⟩ | ⟨-, before'⟩
    · exact here.trans here'.symm
    · exact absurd new (issued (inv.owned c'' id before'))
    · exact absurd new' (issued (inv.owned c' id before))
    · exact inv.alone c' c'' id before before'
  · rintro id ⟨positive, less⟩
    simp only [CommitRun.setClient, TransactionManager.beginAllocate, List.mem_cons,
      Function.update_apply] at less ⊢
    by_cases new : id = s.txnManager.nextTxid
    · exact .inl (by simp [new])
    · simpa [new] using inv.states id ⟨positive, by omega⟩
  · intro view member
    obtain ⟨low, committed⟩ := inv.views view member
    refine ⟨Nat.le_succ_of_le low, fun id frozen => ?_⟩
    have ne : id ≠ s.txnManager.nextTxid := Nat.ne_of_lt (Nat.lt_of_lt_of_le frozen.2.2.1 low)
    simpa [CommitRun.setClient, TransactionManager.beginAllocate, ne] using committed id frozen
  · intro c' id open_ logged
    rcases own c' id (txn?_of_unlogged? open_) with ⟨-, rfl⟩ | ⟨ne, -⟩
    · exact issued (inv.logged _ logged) rfl
    · refine inv.unlogged c' id ?_ logged
      simpa [CommitRun.setClient, ne] using open_

theorem Inv.createReadView (inv : Inv records s) {c id : Nat}
    (client : s.client c = .begun id ∨ s.client c = .running id) :
    Inv records ({ s with
      txnManager := s.txnManager.setReadView id (s.txnManager.createReadView id)
      views := s.txnManager.createReadView id :: s.views }.setClient c (.running id)) := by
  have open_ : unlogged? (s.client c) = some id := by
    rcases client with begun | running
    · simp [begun, unlogged?]
    · simp [running, unlogged?]
  have taken : Inv records { s with
      txnManager := s.txnManager.setReadView id (s.txnManager.createReadView id)
      views := s.txnManager.createReadView id :: s.views } := by
    refine
      { inv with
        states := ?_
        views := ?_
        ordered := ?_ }
    · intro id' issued
      have before := inv.states id' issued
      simp only [TransactionManager.setReadView, Function.update_apply]
      by_cases same : id' = id
      · simpa [same] using before
      · simpa [same] using before
    · intro view member
      rcases List.mem_cons.mp member with rfl | old
      · refine ⟨Nat.le_refl _, fun id' frozen => ?_⟩
        obtain ⟨positive, other, early, inactive⟩ := frozen
        rcases inv.states id' ⟨positive, early⟩ with ⟨active, progress, -⟩ | ⟨-, committed⟩
        · exact absurd (TransactionManager.mem_createReadView_activeIds.mpr
            ⟨active, other, progress⟩) inactive
        · exact committed
      · exact inv.views view old
    · intro before record after split commit view member own id' frozen
      rcases List.mem_cons.mp member with rfl | old
      · exact absurd ⟨record, by rw [split]; simp, commit, own.symm⟩ (inv.unlogged c id open_)
      · exact inv.ordered before record after split commit view old own id' frozen
  refine taken.setClient ?_ ?_ ?_
  · rintro id' own
    exact txn?_of_unlogged? (open_.trans own)
  · rintro id' own
    exact open_.trans own
  · intro id' written
    rcases client with begun | running
    · exact CommitClient.noConfusion (begun.symm.trans written)
    · exact CommitClient.noConfusion (running.symm.trans written)

theorem Inv.commitSection (inv : Inv records s) {c id : Nat} (client : s.client c = .running id) :
    Inv records ({ s with txnManager := s.txnManager.finish id .committed }.setClient c
      (.committed id)) := by
  have finished : Inv records { s with txnManager := s.txnManager.finish id .committed } := by
    refine
      { inv with
        states := ?_
        views := ?_ }
    · intro id' issued
      by_cases same : id' = id
      · subst same
        exact .inr (by simp)
      · have before := inv.states id' issued
        simpa [same, TransactionManager.finish_txnState_of_ne,
          TransactionManager.finish_transaction_of_ne] using before
    · intro view member
      obtain ⟨low, committed⟩ := inv.views view member
      refine ⟨low, fun id' frozen => ?_⟩
      by_cases same : id' = id
      · simp [same]
      · simpa [TransactionManager.finish_txnState_of_ne _ same] using committed id' frozen
  refine finished.setClient ?_ ?_ ?_ <;> simp [client, txn?, unlogged?]

theorem txId_commitRecord {id : Nat} (small : id < 2 ^ 64) (lsn : Nat) :
    (commitRecord id lsn).txId.toNat = id := by
  rw [commitRecord, UInt64.toNat_ofNat', Nat.mod_eq_of_lt small]

/-- A client that the log buffer has accepted a call from does not wait in it. -/
theorem idle_of_step {log log' : LogBuffer} {c : Nat} {action : LogBuffer.Action}
    (own : action = .flush c ∨ ∃ data, action = .write c data)
    (taken : log.step action = some log') : log.client c = .idle := by
  rcases own with rfl | ⟨data, rfl⟩ <;> cases pc : log.client c <;>
    simp_all [LogBuffer.step]

/-- A step that obeys keeps the invariant, with the record that it may add. -/
theorem Inv.step (inv : Inv records s) {action : Action} (obeys : s.Obeys action)
    (taken : s.step action = some s') : ∃ records', Inv records' s' := by
  cases action with
  | beginAllocate c =>
      simp only [CommitRun.step] at taken
      split at taken
      · rename_i idle
        split at taken
        · obtain rfl := Option.some.inj taken
          exact ⟨records, inv.beginAllocate idle obeys⟩
        · cases taken
      · cases taken
  | createReadView c =>
      simp only [CommitRun.step] at taken
      split at taken
      · split at taken
        · rename_i id client
          obtain rfl := Option.some.inj taken
          exact ⟨records, inv.createReadView (.inl client)⟩
        · rename_i id client
          obtain rfl := Option.some.inj taken
          exact ⟨records, inv.createReadView (.inr client)⟩
        · cases taken
      · cases taken
  | commitSection c =>
      simp only [CommitRun.step] at taken
      split at taken
      · rename_i id client
        split at taken
        · split at taken
          · rename_i m found
            obtain rfl := Option.some.inj taken
            simp only [TransactionManager.commitSection] at found
            split at found
            · obtain rfl := Except.ok.inj found
              exact ⟨records, inv.commitSection client⟩
            · cases found
          · obtain rfl := Option.some.inj taken
            exact ⟨records, inv⟩
        · cases taken
      · cases taken
  | drawLsn c =>
      simp only [CommitRun.step] at taken
      split at taken
      · rename_i id client
        obtain rfl := Option.some.inj taken
        have drawn : Inv records { s with nextLsn := s.nextLsn + 1 } := { inv with }
        refine ⟨records, drawn.setClient ?_ ?_ ?_⟩ <;> simp [client, txn?, unlogged?]
      · cases taken
  | «return» c =>
      simp only [CommitRun.step] at taken
      split at taken
      · rename_i id client
        split at taken
        · obtain rfl := Option.some.inj taken
          refine ⟨records, inv.setClient ?_ ?_ ?_⟩ <;> simp [client, txn?, unlogged?]
        · cases taken
      · cases taken
  | write c =>
      simp only [CommitRun.step] at taken
      split at taken
      · rename_i id lsn client
        obtain ⟨log, stepped, rfl⟩ := Option.map_eq_some_iff.mp taken
        obtain ⟨orderly, afterSeen⟩ := obeys (.write c (commitRecord id lsn).serialize)
          (by simp [logAction?, client])
        have idle := idle_of_step (.inr ⟨_, rfl⟩) stepped
        have small : id < 2 ^ 64 := by
          have := (inv.owned c id (by simp [client, txn?])).2
          have := inv.small
          omega
        refine inv.logStep orderly afterSeen stepped ?_ ?_ ?_ ?_
        · intro c' id' own
          by_cases same : c' = c
          · subst same
            rw [Function.update_self] at own
            split at own
            · cases own
            · simpa [client, txn?] using own
          · simpa [same] using own
        · intro c' id' open_
          by_cases same : c' = c
          · subst same
            rw [Function.update_self] at open_
            split at open_ <;> cases open_
          · simpa [same] using open_
        · intro c' data waits
          have ne : c' ≠ c := by
            rintro rfl
            rw [idle] at waits
            cases waits
          exact Function.update_of_ne ne ..
        · intro c' data same
          obtain ⟨rfl, rfl⟩ := LogBuffer.Action.write.inj same
          refine ⟨_, rfl, fun _ fits => ?_⟩
          rw [Function.update_self, if_neg (by omega), txId_commitRecord small]
      · cases taken
  | writeOther c record =>
      simp only [CommitRun.step] at taken
      split at taken
      all_goals first
        | cases taken
        | split at taken
      all_goals first
        | cases taken
        | skip
      all_goals
        rename_i notCommit
        obtain ⟨log, stepped, rfl⟩ := Option.map_eq_some_iff.mp taken
        obtain ⟨orderly, afterSeen⟩ := obeys (.write c record.serialize) rfl
        refine inv.logStep orderly afterSeen stepped (fun _ _ own => own) (fun _ _ own => own)
          (fun _ _ _ => rfl) ?_
        intro c' data same
        obtain ⟨rfl, rfl⟩ := LogBuffer.Action.write.inj same
        exact ⟨record, rfl, fun commit => absurd commit notCommit⟩
  | flush c =>
      simp only [CommitRun.step] at taken
      obtain ⟨log, stepped, rest⟩ := Option.bind_eq_some_iff.mp taken
      obtain ⟨orderly, afterSeen⟩ := obeys (.flush c) rfl
      have idle := idle_of_step (.inl rfl) stepped
      have plain : ∃ records', Inv records' { s with log := log } :=
        inv.logStep orderly afterSeen stepped (fun _ _ own => own) (fun _ _ own => own)
          (fun _ _ _ => rfl) (by simp)
      split at rest
      · obtain rfl := Option.some.inj rest
        exact plain
      · obtain rfl := Option.some.inj rest
        exact plain
      · rename_i id client
        obtain rfl := Option.some.inj rest
        refine inv.logStep orderly afterSeen stepped ?_ ?_ ?_ (by simp)
        · intro c' id' own
          by_cases same : c' = c
          · subst same
            simpa [client, txn?] using own
          · simpa [same] using own
        · intro c' id' open_
          by_cases same : c' = c
          · subst same
            simp [unlogged?] at open_
          · simpa [same] using open_
        · intro c' data waits
          have ne : c' ≠ c := by
            rintro rfl
            rw [idle] at waits
            cases waits
          exact Function.update_of_ne ne ..
      · cases rest
  | log action =>
      simp only [CommitRun.step] at taken
      split at taken
      · cases taken
      · rename_i notOfClient
        obtain ⟨log, stepped, rfl⟩ := Option.map_eq_some_iff.mp taken
        obtain ⟨orderly, afterSeen⟩ := obeys action rfl
        refine inv.logStep orderly afterSeen stepped (fun _ _ own => own) (fun _ _ own => own)
          (fun _ _ _ => rfl) ?_
        rintro c data rfl
        simp [ofClient] at notOfClient

/-- The first client is held up behind its critical section. The second one takes a read
    view, which treats the first transaction as committed, and its own COMMIT record
    reaches the file alone. -/
def secondOvertakes : List Action :=
  [.beginAllocate 0, .createReadView 0, .commitSection 0,
    .beginAllocate 1, .createReadView 1, .commitSection 1, .drawLsn 1, .write 1, .flush 1,
    .log .backendTake, .log .backendPoint] ++
  List.replicate 21 (.log .backendByte)

instance (bytes : List UInt8) (id : Nat) : Decidable (Logged bytes id) := by
  unfold Logged
  infer_instance

end CommitRun

end YourSQL
