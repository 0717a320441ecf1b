import YourSQL.Log.SerialLog
import YourSQL.Log.LogPayload

/-! # What is logged is read back

One client appends data records of any kind and flushes whenever it likes. After a last
flush the reader finds in the file the records that were accepted, and no others.
-/

namespace YourSQL.Wal

/-- What `AppendLogRecord` is asked to write. A tuple size has 16 bits. -/
structure AppendRequest where
  txId : UInt64
  type : LogRecordType
  payload : LogDataPayload
  image_le : payload.image.length ≤ 65535

theorem AppendRequest.length_payload_lt (request : AppendRequest) :
    request.payload.encode.length < 2 ^ 32 := by
  have := request.image_le
  simp only [LogDataPayload.length_encode, LogDataPayload.headerBytes]
  omega

/-- The record, once it has its LSN. -/
def AppendRequest.record (request : AppendRequest) (lsn : Nat) : LogRecord where
  lsn := UInt64.ofNat lsn
  txId := request.txId
  type := request.type
  payload := request.payload.encode
  payloadSize_lt := request.length_payload_lt

/-- How long the record is in the file, whatever its LSN. -/
def AppendRequest.size (request : AppendRequest) : Nat := (request.record INVALID_LSN).serialize.length

inductive WalCall where
  | append (request : AppendRequest)
  | flush

def WalCall.request? : WalCall → Option AppendRequest
  | append request => some request
  | flush => none

/-- The log manager and the requests that it has accepted, with the LSNs it returned. -/
structure WalRun where
  log : SerialLogManager
  accepted : List (Nat × AppendRequest) := []

namespace WalRun

def start (capacity : Nat) : WalRun := { log := .openFile capacity [] }

/-- A record that is refused with an exception is not accepted. -/
def call (run : WalRun) : WalCall → WalRun
  | .append request =>
      match run.log.appendLogRecord (request.record INVALID_LSN) with
      | (.ok lsn, log) => { log := log, accepted := run.accepted ++ [(lsn, request)] }
      | (.error _, log) => { run with log := log }
  | .flush => { run with log := run.log.flush }

def callAll (run : WalRun) (calls : List WalCall) : WalRun := calls.foldl call run

def records (run : WalRun) : List LogRecord :=
  run.accepted.map fun entry => entry.2.record entry.1

/-- After some calls the accepted records are in the file or in front of it. -/
structure Inv (capacity : Nat) (calls : List WalCall) (run : WalRun) : Prop where
  sized : run.log.buffer.capacity = capacity
  bytes : run.log.buffer.bytes = recordFraming.encodeAll run.records
  requests : run.accepted.map Prod.snd =
    (calls.filterMap WalCall.request?).filter fun request => request.size ≤ capacity
  ordered : (run.accepted.map Prod.fst).Pairwise (· < ·)
  drawn : ∀ lsn ∈ run.accepted.map Prod.fst, lsn < run.log.nextLsn

variable {capacity : Nat} {calls : List WalCall} {run : WalRun}

theorem inv_start (capacity : Nat) : Inv capacity [] (start capacity) where
  sized := rfl
  bytes := rfl
  requests := rfl
  ordered := List.Pairwise.nil
  drawn := by simp [start]

theorem Inv.call (inv : Inv capacity calls run) (c : WalCall) :
    Inv capacity (calls ++ [c]) (run.call c) := by
  cases c with
  | flush =>
      exact
        { sized := (run.log.buffer.capacity_flush).trans inv.sized
          bytes := (run.log.buffer.bytes_flush).trans inv.bytes
          requests := by
            rw [List.filterMap_append, List.filter_append, inv.requests.symm]
            exact (List.append_nil _).symm
          ordered := inv.ordered
          drawn := inv.drawn }
  | append request =>
      have requests : (calls ++ [WalCall.append request]).filterMap WalCall.request? =
          calls.filterMap WalCall.request? ++ [request] := by
        rw [List.filterMap_append]
        rfl
      have size : (request.record run.log.nextLsn).serialize.length = request.size := by
        simp [AppendRequest.size, AppendRequest.record]
      have given : { request.record INVALID_LSN with lsn := UInt64.ofNat run.log.nextLsn } =
          request.record run.log.nextLsn := rfl
      by_cases fits : request.size ≤ capacity
      · obtain ⟨buffer, written, sameCapacity, bytes, -⟩ :=
          @SerialLogBuffer.write_eq_ok run.log.buffer (request.record run.log.nextLsn).serialize
            (by rw [size, inv.sized]; exact fits)
        have done : run.call (.append request) =
            { log := { nextLsn := run.log.nextLsn + 1, buffer := buffer }
              accepted := run.accepted ++ [(run.log.nextLsn, request)] } := by
          simp only [WalRun.call, SerialLogManager.appendLogRecord, given, written]
        rw [done]
        refine
          { sized := sameCapacity.trans inv.sized
            bytes := ?_
            requests := ?_
            ordered := ?_
            drawn := ?_ }
        · have before := inv.bytes
          simp only [records] at before ⊢
          rw [bytes, before, List.map_append, Framing.encodeAll_append]
          simp [recordFraming]
        · rw [requests, List.filter_append, List.map_append, inv.requests]
          simp [fits]
        · rw [List.map_append, List.pairwise_append]
          refine ⟨inv.ordered, List.pairwise_singleton .., ?_⟩
          intro lsn old last member
          obtain rfl : last = run.log.nextLsn := by simpa using member
          exact inv.drawn lsn old
        · intro lsn member
          rw [List.map_append, List.mem_append] at member
          rcases member with old | new
          · exact Nat.lt_succ_of_lt (inv.drawn lsn old)
          · obtain rfl : lsn = run.log.nextLsn := by simpa using new
            exact Nat.lt_succ_self _
      · have refused := @SerialLogBuffer.write_eq_error run.log.buffer
          (request.record run.log.nextLsn).serialize
          (by rw [size, inv.sized]; exact Nat.lt_of_not_le fits)
        have done : run.call (.append request) =
            { run with log := { run.log with nextLsn := run.log.nextLsn + 1 } } := by
          simp only [WalRun.call, SerialLogManager.appendLogRecord, given, refused]
        rw [done]
        exact
          { sized := inv.sized
            bytes := inv.bytes
            requests := by
              rw [requests, List.filter_append]
              simpa [fits] using inv.requests
            ordered := inv.ordered
            drawn := fun lsn member => Nat.lt_succ_of_lt (inv.drawn lsn member) }

theorem inv_callAll (capacity : Nat) (calls : List WalCall) :
    Inv capacity calls ((start capacity).callAll calls) := by
  induction calls using List.reverseRecOn with
  | nil => exact inv_start capacity
  | append_singleton calls c ih =>
      have last : (start capacity).callAll (calls ++ [c]) =
          ((start capacity).callAll calls).call c := List.foldl_concat ..
      rw [last]
      exact ih.call c

/-- The reader finds the accepted records with their LSNs, in the order of the calls: those
    that fit the buffer. Their payloads are what was encoded, and their LSNs increase, in
    the file too as long as they fit the 64 bits that it has for them. -/
theorem readLog_returns_accepted (capacity : Nat) (calls : List WalCall) :
    let run := (start capacity).callAll calls
    let log := readLog run.log.flush.buffer.disk.readAll
    log = run.accepted.map (fun entry => entry.2.record entry.1) ∧
      run.accepted.map Prod.snd =
        (calls.filterMap WalCall.request?).filter (fun request => request.size ≤ capacity) ∧
      (run.accepted.map Prod.fst).Pairwise (· < ·) ∧
      (run.log.nextLsn ≤ 2 ^ 64 → (log.map LogRecord.lsn).Pairwise (· < ·)) ∧
      ∀ entry ∈ run.accepted,
        LogDataPayload.decode (entry.2.record entry.1).payload = entry.2.payload := by
  intro run log
  have inv : Inv capacity calls run := inv_callAll capacity calls
  have file : run.log.flush.buffer.disk.readAll = recordFraming.encodeAll run.records ++ [] := by
    rw [List.append_nil, LogDiskManager.readAll_eq, SerialLogManager.flush,
      SerialLogBuffer.file_flush, inv.bytes]
  have read : log = run.records := by
    rw [show log = readLog run.log.flush.buffer.disk.readAll from rfl, readLog_eq_parse, file]
    apply recordFraming.parse_split recordFraming.incomplete_nil
    have := recordFraming.length_le_length_encodeAll run.records
    simp only [List.append_nil]
    omega
  refine ⟨read, inv.requests, inv.ordered, ?_, ?_⟩
  · intro small
    have lsns : log.map LogRecord.lsn = (run.accepted.map Prod.fst).map UInt64.ofNat := by
      rw [read, records, List.map_map, List.map_map]
      rfl
    rw [lsns, List.pairwise_map]
    refine inv.ordered.imp_of_mem fun {a b} first second less => ?_
    have := inv.drawn a first
    have := inv.drawn b second
    rw [UInt64.lt_iff_toNat_lt, UInt64.toNat_ofNat', UInt64.toNat_ofNat',
      Nat.mod_eq_of_lt (by omega), Nat.mod_eq_of_lt (by omega)]
    exact less
  · intro entry _
    have := entry.2.image_le
    exact LogDataPayload.decode_encode (by omega)

end WalRun

end YourSQL.Wal
