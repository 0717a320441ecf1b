import YourSQL.Log.LogBuffer
import YourSQL.Log.LogRecord

/-! # The log of a single client

A client that is alone sees the log buffer as a list of bytes in front of the file: its
`Flush` and a `Write` that finds no room return when the backend is done. The last
section takes this view from the buffer with its backend.
-/

namespace YourSQL

/-- `LogBuffer`, with the bytes that were written to it and not handed to the file. -/
structure SerialLogBuffer where
  capacity : Nat
  pending : List UInt8 := []
  disk : LogDiskManager
  deriving Repr, DecidableEq

namespace SerialLogBuffer

def handOver (b : SerialLogBuffer) : SerialLogBuffer :=
  { b with pending := [], disk := b.disk.write b.pending }

def flush (b : SerialLogBuffer) : SerialLogBuffer :=
  if b.pending.length = 0 then b else b.handOver

def write (b : SerialLogBuffer) (data : List UInt8) : Except String SerialLogBuffer :=
  if data.length > b.capacity then
    .error "LogBuffer::Write record larger than buffer capacity"
  else
    let b := if b.pending.length + data.length > b.capacity then b.handOver else b
    .ok { b with pending := b.pending ++ data }

end SerialLogBuffer

/-- `LogManager` over such a buffer. -/
structure SerialLogManager where
  nextLsn : Nat := 1
  buffer : SerialLogBuffer
  deriving Repr, DecidableEq

namespace SerialLogManager

/-- A new log manager on the log file as it is found. -/
def openFile (capacity : Nat) (file : List UInt8) : SerialLogManager where
  buffer := { capacity := capacity, disk := .openFile (some file) }

/-- `AppendLogRecord`: the LSN in the record that it is given is not looked at, and a new
    one is drawn before the size is checked. -/
def appendLogRecord (m : SerialLogManager) (record : LogRecord) :
    Except String Nat × SerialLogManager :=
  let id := m.nextLsn
  let m := { m with nextLsn := id + 1 }
  match m.buffer.write { record with lsn := UInt64.ofNat id }.serialize with
  | .error e => (.error e, m)
  | .ok buffer => (.ok id, { m with buffer := buffer })

def flush (m : SerialLogManager) : SerialLogManager := { m with buffer := m.buffer.flush }

end SerialLogManager

namespace SerialLogBuffer

variable {b : SerialLogBuffer} {data : List UInt8}

/-- All bytes that the buffer has accepted, and those that it found. -/
def bytes (b : SerialLogBuffer) : List UInt8 := b.disk.file ++ b.pending

@[simp] theorem capacity_flush (b : SerialLogBuffer) : b.flush.capacity = b.capacity := by
  unfold flush
  split <;> rfl

@[simp] theorem bytes_handOver (b : SerialLogBuffer) : b.handOver.bytes = b.bytes := by
  simp [bytes, handOver]

@[simp] theorem bytes_flush (b : SerialLogBuffer) : b.flush.bytes = b.bytes := by
  unfold flush
  split
  · rfl
  · exact bytes_handOver b

@[simp] theorem pending_flush (b : SerialLogBuffer) : b.flush.pending = [] := by
  unfold flush
  split
  · rename_i empty
    exact List.eq_nil_of_length_eq_zero empty
  · rfl

/-- After a flush everything is in the file. -/
@[simp] theorem file_flush (b : SerialLogBuffer) : b.flush.disk.file = b.bytes := by
  rw [← bytes_flush, bytes, pending_flush, List.append_nil]

/-- A write is refused exactly if the data can never fit. -/
theorem write_eq_error (large : data.length > b.capacity) :
    b.write data = .error "LogBuffer::Write record larger than buffer capacity" := if_pos large

theorem write_eq_ok (fits : data.length ≤ b.capacity) :
    ∃ b', b.write data = .ok b' ∧ b'.capacity = b.capacity ∧ b'.bytes = b.bytes ++ data ∧
      b.disk.file <+: b'.disk.file := by
  rw [write, if_neg (by omega)]
  by_cases full : b.pending.length + data.length > b.capacity
  · rw [if_pos full]
    refine ⟨_, rfl, rfl, ?_, List.prefix_append ..⟩
    have handed := b.bytes_handOver
    simp only [bytes] at handed ⊢
    rw [← List.append_assoc, handed]
  · rw [if_neg full]
    refine ⟨_, rfl, rfl, ?_, List.prefix_rfl⟩
    rw [bytes, bytes, List.append_assoc]

/-- What the file holds, it keeps. -/
theorem file_prefix_flush (b : SerialLogBuffer) : b.disk.file <+: b.flush.disk.file := by
  rw [file_flush]
  exact List.prefix_append ..

end SerialLogBuffer

/-! ## One client and the backend -/

/-- A call of the client. -/
inductive LogBufferCall where
  | write (data : List UInt8)
  | flush
  deriving Repr, DecidableEq

namespace SerialLogBuffer

/-- A refused write changes nothing. -/
def call (b : SerialLogBuffer) : LogBufferCall → SerialLogBuffer
  | .write data => (b.write data).toOption.getD b
  | .flush => b.flush

def callAll (b : SerialLogBuffer) (calls : List LogBufferCall) : SerialLogBuffer :=
  calls.foldl call b

@[simp] theorem capacity_call (b : SerialLogBuffer) (c : LogBufferCall) :
    (b.call c).capacity = b.capacity := by
  cases c with
  | flush => exact b.capacity_flush
  | write data =>
      by_cases fits : data.length ≤ b.capacity
      · obtain ⟨b', written, capacity, -, -⟩ := write_eq_ok fits
        simp [call, written, Except.toOption, capacity]
      · simp [call, write_eq_error (Nat.lt_of_not_le fits), Except.toOption]

theorem capacity_callAll (b : SerialLogBuffer) (calls : List LogBufferCall) :
    (b.callAll calls).capacity = b.capacity := by
  induction calls generalizing b with
  | nil => rfl
  | cons c rest ih => exact (ih (b.call c)).trans (b.capacity_call c)

theorem eq_of_parts {b : SerialLogBuffer} {pending : List UInt8} {capacity : Nat} {disk : LogDiskManager}
    (sameCapacity : b.capacity = capacity) (samePending : b.pending = pending)
    (file : b.disk.file = disk.file) : b = { capacity, pending, disk } := by
  obtain ⟨bCapacity, bPending, ⟨bFile⟩⟩ := b
  obtain ⟨diskFile⟩ := disk
  subst sameCapacity samePending file
  rfl

theorem callAll_snoc (b : SerialLogBuffer) (calls : List LogBufferCall) (c : LogBufferCall) :
    b.callAll (calls ++ [c]) = (b.callAll calls).call c := by
  rw [callAll, List.foldl_concat]
  rfl

end SerialLogBuffer

namespace LogBuffer

/-- The call that an action begins. -/
def Action.call? : Action → Option LogBufferCall
  | .write _ data => some (.write data)
  | .flush _ => some .flush
  | _ => none

/-- An action of client 0 or of the backend. -/
def Action.Alone : Action → Prop
  | .flush c | .flushWake c | .write c _ | .writeWake c => c = 0
  | _ => True

/-- What a client has in its hand while it waits for room. -/
def waitingData : LogClient → List UInt8
  | .inWrite data => data
  | _ => []

/-- The buffer that the client sees, once the call that it is in returns. -/
structure Seen (b : SerialLogBuffer) (s : LogBuffer) : Prop where
  inv : s.Inv
  capacity : b.capacity = s.capacity
  bytes : b.bytes = s.found ++ s.accepted.flatten ++ waitingData (s.client 0)
  pending : b.pending.length = s.curOffset + (waitingData (s.client 0)).length
  quiet : s.client 0 = .idle → s.isFlush = false
  drained : s.client 0 ≠ .idle → s.curOffset = 0
  fits : ∀ data, s.client 0 = .inWrite data → data.length ≤ s.capacity

variable {b : SerialLogBuffer} {s s' : LogBuffer}

theorem seen_init (capacity : Nat) (disk : LogDiskManager) :
    Seen { capacity := capacity, disk := disk } (init capacity disk) where
  inv := inv_init capacity disk
  capacity := rfl
  bytes := by simp [SerialLogBuffer.bytes, init, waitingData]
  pending := rfl
  quiet _ := rfl
  drained := by simp [init]
  fits := by simp [init]

/-- Alone, a client never hands over a batch while another one is on its way. -/
theorem Seen.orderly (seen : Seen b s) {action : Action} (alone : action.Alone)
    (taken : s.step action = some s') : s.Orderly action := by
  cases action with
  | flush c =>
      obtain rfl : c = 0 := alone
      intro busy
      cases pc : s.client 0 with
      | idle => simp [seen.quiet pc] at busy
      | inFlush before => simp [step, pc] at taken
      | inWrite data => simp [step, pc] at taken
  | write c data =>
      obtain rfl : c = 0 := alone
      intro _ _
      cases pc : s.client 0 with
      | idle => exact seen.quiet pc
      | inFlush before => simp [step, pc] at taken
      | inWrite data => simp [step, pc] at taken
  | writeWake c =>
      obtain rfl : c = 0 := alone
      intro data pc
      have empty := seen.drained (by simp [pc])
      have := seen.fits data pc
      omega
  | _ => trivial

/-- A step that only the backend takes is not seen. -/
theorem Seen.backend (seen : Seen b s) (inv : s'.Inv) (capacity : s'.capacity = s.capacity)
    (found : s'.found = s.found) (accepted : s'.accepted = s.accepted)
    (curOffset : s'.curOffset = s.curOffset) (client : s'.client = s.client)
    (isFlush : s'.isFlush = true → s.isFlush = true) : Seen b s' where
  inv := inv
  capacity := by rw [capacity, seen.capacity]
  bytes := by rw [found, accepted, client, seen.bytes]
  pending := by rw [curOffset, client, seen.pending]
  quiet idle := by
    have quiet := seen.quiet (client ▸ idle)
    cases flag : s'.isFlush with
    | false => rfl
    | true => simp [isFlush flag] at quiet
  drained := by rw [client, curOffset]; exact seen.drained
  fits := by rw [client, capacity]; exact seen.fits

theorem Seen.step (seen : Seen b s) {action : Action} (alone : action.Alone)
    (taken : s.step action = some s') :
    Seen ((action.call?.map b.call).getD b) s' := by
  have inv := inv_step seen.inv (seen.orderly alone taken) taken
  cases action with
  | flush c =>
      obtain rfl : c = 0 := alone
      cases pc : s.client 0 with
      | inFlush before => simp [LogBuffer.step, pc] at taken
      | inWrite data => simp [LogBuffer.step, pc] at taken
      | idle =>
          have pending := seen.pending
          have bytes := seen.bytes
          simp only [pc, waitingData, List.length_nil, Nat.add_zero, List.append_nil]
            at pending bytes
          simp only [LogBuffer.step, pc] at taken
          split at taken
          · rename_i empty
            obtain rfl := Option.some.inj taken
            have same : b.flush = b := if_pos (pending.trans empty)
            simp only [Action.call?, Option.map_some, Option.getD_some, SerialLogBuffer.call, same]
            exact ⟨inv, seen.capacity, seen.bytes, seen.pending, seen.quiet, seen.drained,
              seen.fits⟩
          · obtain rfl := Option.some.inj taken
            refine
              { inv := inv
                capacity := (b.capacity_flush).trans seen.capacity
                bytes := ?_
                pending := ?_
                quiet := ?_
                drained := fun _ => rfl
                fits := ?_ } <;>
              simp [Action.call?, SerialLogBuffer.call, setClient, startFlush, swapBuffers,
                waitingData, bytes]
  | flushWake c =>
      obtain rfl : c = 0 := alone
      cases pc : s.client 0 with
      | idle => simp [LogBuffer.step, pc] at taken
      | inWrite data => simp [LogBuffer.step, pc] at taken
      | inFlush before =>
          simp only [LogBuffer.step, pc] at taken
          split at taken
          · cases taken
          · rename_i quiet
            obtain rfl := Option.some.inj taken
            have pending := seen.pending
            have bytes := seen.bytes
            simp only [pc, waitingData] at pending bytes
            refine
              { inv := inv
                capacity := seen.capacity
                bytes := ?_
                pending := ?_
                quiet := fun _ => by simpa [setClient, flushReturned] using quiet
                drained := ?_
                fits := ?_ } <;>
              simp [Action.call?, setClient, flushReturned, waitingData, bytes, pending]
  | write c data =>
      obtain rfl : c = 0 := alone
      cases pc : s.client 0 with
      | inFlush before => simp [LogBuffer.step, pc] at taken
      | inWrite data => simp [LogBuffer.step, pc] at taken
      | idle =>
          have pending := seen.pending
          have bytes := seen.bytes
          simp only [pc, waitingData, List.length_nil, Nat.add_zero, List.append_nil]
            at pending bytes
          have capacity := seen.capacity
          simp only [Action.call?, Option.map_some, Option.getD_some, SerialLogBuffer.call]
          simp only [LogBuffer.step, pc] at taken
          split at taken
          · rename_i large
            obtain rfl := Option.some.inj taken
            rw [SerialLogBuffer.write_eq_error (by omega)]
            exact seen
          · rename_i fits
            have test : b.pending.length + data.length > b.capacity ↔
                s.curOffset + data.length > s.capacity := by rw [pending, capacity]
            rw [SerialLogBuffer.write, if_neg (by omega)]
            split at taken
            · rename_i full
              obtain rfl := Option.some.inj taken
              rw [if_pos (test.mpr full)]
              refine
                { inv := inv
                  capacity := capacity
                  bytes := ?_
                  pending := ?_
                  quiet := ?_
                  drained := fun _ => rfl
                  fits := ?_ }
              · have handed := b.bytes_handOver
                simp only [Except.toOption, Option.getD_some, SerialLogBuffer.bytes]
                  at bytes handed ⊢
                rw [← List.append_assoc, handed, bytes]
                simp [setClient, startFlush, swapBuffers, waitingData]
              · simp [Except.toOption, SerialLogBuffer.handOver, setClient, startFlush,
                  swapBuffers, waitingData]
              · simp [setClient]
              · intro data' same
                simp only [setClient, Function.update_self, LogClient.inWrite.injEq] at same
                subst same
                exact Nat.le_of_not_gt fits
            · rename_i room
              obtain rfl := Option.some.inj taken
              rw [if_neg (mt test.mp room)]
              refine
                { inv := inv
                  capacity := capacity
                  bytes := ?_
                  pending := ?_
                  quiet := seen.quiet
                  drained := fun busy => absurd pc busy
                  fits := ?_ }
              · simp only [Except.toOption, Option.getD_some, SerialLogBuffer.bytes] at bytes ⊢
                rw [← List.append_assoc, bytes]
                simp [append, pc, waitingData]
              · simp [Except.toOption, append, pc, waitingData, pending]
              · simp [append, pc]
  | writeWake c =>
      obtain rfl : c = 0 := alone
      cases pc : s.client 0 with
      | idle => simp [LogBuffer.step, pc] at taken
      | inFlush before => simp [LogBuffer.step, pc] at taken
      | inWrite data =>
          simp only [LogBuffer.step, pc] at taken
          split at taken
          · cases taken
          · rename_i quiet
            obtain rfl := Option.some.inj taken
            have pending := seen.pending
            have bytes := seen.bytes
            simp only [pc, waitingData] at pending bytes
            refine
              { inv := inv
                capacity := seen.capacity
                bytes := ?_
                pending := ?_
                quiet := fun _ => by simpa [append, setClient] using quiet
                drained := ?_
                fits := ?_ } <;>
              simp [Action.call?, setClient, append, waitingData, bytes, pending]
  | backendTake =>
      simp only [LogBuffer.step] at taken
      split at taken
      · split at taken
        · obtain rfl := Option.some.inj taken
          exact seen.backend inv rfl rfl rfl rfl rfl id
        · split at taken
          · obtain rfl := Option.some.inj taken
            exact seen.backend inv rfl rfl rfl rfl rfl id
          · cases taken
      · cases taken
  | backendPoint =>
      simp only [LogBuffer.step] at taken
      split at taken
      · split at taken
        · obtain rfl := Option.some.inj taken
          exact seen.backend inv rfl rfl rfl rfl rfl id
        · cases taken
      · cases taken
  | backendByte =>
      simp only [LogBuffer.step] at taken
      split at taken
      · split at taken
        · obtain rfl := Option.some.inj taken
          exact seen.backend inv rfl rfl rfl rfl rfl id
        · cases taken
      · cases taken
  | backendDone =>
      have done : s' = s.batchDone := by
        simp only [LogBuffer.step] at taken
        split at taken
        · split at taken
          · cases taken
          · exact (Option.some.inj taken).symm
        · split at taken
          · cases taken
          · exact (Option.some.inj taken).symm
        · cases taken
      subst done
      exact seen.backend inv rfl rfl rfl rfl rfl (by simp [batchDone])
  | setStop =>
      obtain rfl := Option.some.inj taken
      exact seen.backend inv rfl rfl rfl rfl rfl id

/-- Whatever the backend does in between, a client that is alone finds in the file and in
    the buffer what its calls, one after the other, have left there. -/
theorem callAll_of_run (capacity : Nat) (disk : LogDiskManager) (actions : List Action)
    (alone : ∀ action ∈ actions, action.Alone)
    (reached : Transition.run step (init capacity disk) actions = some s)
    (returned : s.client 0 = .idle) :
    SerialLogBuffer.callAll { capacity := capacity, disk := disk }
        (actions.filterMap Action.call?) =
      { capacity := capacity, pending := s.active, disk := s.disk } := by
  have seen := @Transition.traceInvariant _ _ step
    (fun done s => (∀ action ∈ done, action.Alone) → Seen
      (SerialLogBuffer.callAll { capacity := capacity, disk := disk }
        (done.filterMap Action.call?)) s) _ (fun _ => seen_init capacity disk)
    (fun done t action t' _ before taken alone => by
      have seen := before fun other member => alone other (List.mem_append_left _ member)
      have next := seen.step (alone action (by simp)) taken
      rw [List.filterMap_append]
      cases call : action.call? with
      | none => simpa [call] using next
      | some c => simpa [call, SerialLogBuffer.callAll_snoc] using next)
    actions s reached alone
  have bytes := seen.bytes
  have pending := seen.pending
  have complete := seen.inv.complete
  rw [unwritten_of_not_isFlush seen.inv (seen.quiet returned), List.nil_append] at complete
  simp only [returned, waitingData, List.append_nil, List.length_nil, Nat.add_zero] at bytes pending
  obtain ⟨file, rest⟩ := List.append_inj' (bytes.trans complete.symm)
    (pending.trans (length_active seen.inv).symm)
  exact SerialLogBuffer.eq_of_parts (SerialLogBuffer.capacity_callAll _ _) rest file

end LogBuffer

end YourSQL
