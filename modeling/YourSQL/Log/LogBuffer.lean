import YourSQL.Lib.Transition
import YourSQL.Storage.LogDiskManager
import Mathlib.Logic.Function.Basic

/-! # The double buffer of the log

`LogBuffer` collects records in one of two buffers while a backend thread writes
the other one to the file. Clients and the backend interleave at the points where
they give up the mutex, and the backend holds no lock while it writes; each such
section is one action here, and the unlocked write one action for each byte.
-/

namespace YourSQL

/-- Where a client stands between its critical sections. A flusher remembers, for the
    statements only, which records had been accepted when it began. -/
inductive LogClient where
  | idle
  | inFlush (before : List (List UInt8))
  | inWrite (data : List UInt8)
  deriving Repr, DecidableEq

/-- Where the backend stands. While it writes it has its own copies of the buffer
    pointer and of the size, and `started` is what the buffer held when it began. -/
inductive LogBackend where
  | waiting
  | sizeTaken (size : Nat)
  | writing (buffer : Bool) (size written : Nat) (started : List UInt8)
  | exited
  deriving Repr, DecidableEq

/-- A `Flush` that returned: the records accepted before it began, and the file then. -/
structure FlushReturn where
  before : List (List UInt8)
  file : List UInt8
  deriving Repr, DecidableEq

/-- The two buffers are told apart by a `Bool`; `logBuffer` points to one of them and
    `flush_buffer_` to the other. The last three fields only record history. -/
structure LogBuffer where
  capacity : Nat
  memory : Bool → List UInt8
  logBuffer : Bool := false
  curOffset : Nat := 0
  flushSize : Nat := 0
  isFlush : Bool := false
  stop : Bool := false
  disk : LogDiskManager
  backend : LogBackend := .waiting
  client : Nat → LogClient := fun _ => .idle
  found : List UInt8 := disk.file
  accepted : List (List UInt8) := []
  flushReturns : List FlushReturn := []

/-- Copy into a buffer. Bytes past its end are not in the buffer. -/
def memcpy (buffer : List UInt8) (offset : Nat) (data : List UInt8) : List UInt8 :=
  (buffer.take offset ++ (data ++ buffer.drop (offset + data.length))).take buffer.length

namespace LogBuffer

/-- The constructor; the contents of new memory do not matter. -/
def init (capacity : Nat) (disk : LogDiskManager) : LogBuffer where
  capacity := capacity
  memory := fun _ => List.replicate capacity 0
  disk := disk

def flushBuffer (s : LogBuffer) : Bool := !s.logBuffer

def setClient (s : LogBuffer) (c : Nat) (client : LogClient) : LogBuffer :=
  { s with client := Function.update s.client c client }

def swapBuffers (s : LogBuffer) : LogBuffer :=
  { s with
    logBuffer := s.flushBuffer
    flushSize := s.curOffset
    curOffset := 0 }

/-- What `Flush` and a `Write` that finds no room do before they wait. -/
def startFlush (s : LogBuffer) : LogBuffer := { s.swapBuffers with isFlush := true }

/-- The tail of `Write`: the record is accepted. -/
def append (s : LogBuffer) (data : List UInt8) : LogBuffer :=
  { s with
    memory := Function.update s.memory s.logBuffer
      (memcpy (s.memory s.logBuffer) s.curOffset data)
    curOffset := s.curOffset + data.length
    accepted := s.accepted ++ [data] }

def flushReturned (s : LogBuffer) (before : List (List UInt8)) : LogBuffer :=
  { s with flushReturns := s.flushReturns ++ [⟨before, s.disk.file⟩] }

/-- The locked section of the backend behind its write. -/
def batchDone (s : LogBuffer) : LogBuffer :=
  { s with
    isFlush := false
    backend := if s.stop then .exited else .waiting }

inductive Action where
  | flush (c : Nat)
  | flushWake (c : Nat)
  | write (c : Nat) (data : List UInt8)
  | writeWake (c : Nat)
  | backendTake
  | backendPoint
  | backendByte
  | backendDone
  /-- The second half of the destructor, whose first half is a `Flush`. -/
  | setStop
  deriving Repr, DecidableEq

/-- One critical section, or one byte of the unlocked write. A wake-up is enabled when
    the predicate of the wait holds, so an early one changes nothing and is no step. -/
def step (s : LogBuffer) : Action → Option LogBuffer
  | .flush c =>
      match s.client c with
      | .idle =>
          if s.curOffset = 0 then
            some (s.flushReturned s.accepted)
          else
            some (s.startFlush.setClient c (.inFlush s.accepted))
      | _ => none
  | .flushWake c =>
      match s.client c with
      | .inFlush before =>
          if s.isFlush then none else some ((s.flushReturned before).setClient c .idle)
      | _ => none
  | .write c data =>
      match s.client c with
      | .idle =>
          -- a record larger than the buffer is refused with an exception
          if data.length > s.capacity then
            some s
          else if s.curOffset + data.length > s.capacity then
            some (s.startFlush.setClient c (.inWrite data))
          else
            some (s.append data)
      | _ => none
  | .writeWake c =>
      match s.client c with
      -- the offset is not compared with the capacity again
      | .inWrite data => if s.isFlush then none else some ((s.append data).setClient c .idle)
      | _ => none
  | .backendTake =>
      match s.backend with
      | .waiting =>
          if s.isFlush then
            some { s with backend := .sizeTaken s.flushSize }
          else if s.stop then
            some { s with backend := .exited }
          else
            none
      | _ => none
  | .backendPoint =>
      match s.backend with
      | .sizeTaken size =>
          if size > 0 then
            let started := (s.memory s.flushBuffer).take size
            some { s with backend := .writing s.flushBuffer size 0 started }
          else
            none
      | _ => none
  | .backendByte =>
      match s.backend with
      | .writing buffer size written started =>
          if written < size then
            some { s with
              disk := s.disk.write (((s.memory buffer).drop written).take 1)
              backend := .writing buffer size (written + 1) started }
          else
            none
      | _ => none
  | .backendDone =>
      match s.backend with
      | .sizeTaken size => if size > 0 then none else some s.batchDone
      | .writing _ size written _ => if written < size then none else some s.batchDone
      | _ => none
  | .setStop => some { s with stop := true }

/-- The record that a step accepts, if it accepts one. -/
def entering (s : LogBuffer) : Action → Option (List UInt8)
  | .write _ data =>
      if data.length ≤ s.capacity ∧ s.curOffset + data.length ≤ s.capacity then some data else none
  | .writeWake c =>
      match s.client c with
      | .inWrite data => some data
      | _ => none
  | _ => none

/-- The accepted bytes that wait in the buffer clients write to. -/
def active (s : LogBuffer) : List UInt8 := (s.memory s.logBuffer).take s.curOffset

/-- The bytes of the handed-over batch that the backend has still to write. -/
def unwritten (s : LogBuffer) : List UInt8 :=
  match s.backend with
  | .writing buffer size written _ => ((s.memory buffer).take size).drop written
  | .sizeTaken size => (s.memory s.flushBuffer).take size
  | _ => if s.isFlush then (s.memory s.flushBuffer).take s.flushSize else []

/-- What the buffer owes its clients: every accepted record is in the file or still to
    come, once, whole and in order; the backend writes what it was given; and a `Flush`
    returns no sooner than the records accepted before it are in the file. -/
structure Lossless (s : LogBuffer) : Prop where
  complete : s.disk.file ++ (s.unwritten ++ s.active) = s.found ++ s.accepted.flatten
  drained : s.isFlush = false → s.curOffset = 0 → s.disk.file = s.found ++ s.accepted.flatten
  steady : ∀ buffer size written started,
    s.backend = .writing buffer size written started → (s.memory buffer).take size = started
  durable : ∀ r ∈ s.flushReturns, s.found ++ r.before.flatten <+: r.file

/-- No batch is handed over, and no flush taken for done, while one is on its way to the
    file, and a record that waited for room still fits when its writer wakes up. -/
def Orderly (s : LogBuffer) : Action → Prop
  | .flush _ => s.isFlush = true → s.curOffset = 0 ∧ s.unwritten = []
  | .write _ data =>
      data.length ≤ s.capacity → s.capacity < s.curOffset + data.length → s.isFlush = false
  | .writeWake c => ∀ data, s.client c = .inWrite data → s.curOffset + data.length ≤ s.capacity
  | _ => True

/-- The backend works on the buffer, and on the size, that it was handed. -/
def Backed (s : LogBuffer) : LogBackend → Prop
  | .sizeTaken size => s.isFlush = true ∧ size = s.flushSize
  | .writing buffer size written started =>
      s.isFlush = true ∧ buffer = s.flushBuffer ∧ size = s.flushSize ∧ written ≤ size ∧
        (s.memory buffer).take size = started
  | _ => True

structure Inv (s : LogBuffer) : Prop where
  length_memory : ∀ buffer, (s.memory buffer).length = s.capacity
  curOffset_le : s.curOffset ≤ s.capacity
  flushSize_le : s.flushSize ≤ s.capacity
  flushSize_pos : s.isFlush = true → 0 < s.flushSize
  backed : s.Backed s.backend
  complete : s.disk.file ++ (s.unwritten ++ s.active) = s.found ++ s.accepted.flatten
  awaited : ∀ c before, s.client c = .inFlush before →
    s.found ++ before.flatten <+: s.disk.file ++ s.unwritten
  durable : ∀ r ∈ s.flushReturns, s.found ++ r.before.flatten <+: r.file

theorem memcpy_of_le {buffer data : List UInt8} {offset : Nat}
    (fits : offset + data.length ≤ buffer.length) :
    memcpy buffer offset data =
      buffer.take offset ++ (data ++ buffer.drop (offset + data.length)) := by
  rw [memcpy, List.take_of_length_le]
  simp
  omega

theorem length_memcpy_le (buffer data : List UInt8) (offset : Nat) :
    (memcpy buffer offset data).length ≤ buffer.length := by
  rw [memcpy, List.length_take]
  exact Nat.min_le_left _ _

theorem length_memcpy {buffer data : List UInt8} {offset : Nat}
    (fits : offset + data.length ≤ buffer.length) :
    (memcpy buffer offset data).length = buffer.length := by
  rw [memcpy_of_le fits]
  simp
  omega

theorem take_memcpy {buffer data : List UInt8} {offset : Nat}
    (fits : offset + data.length ≤ buffer.length) :
    (memcpy buffer offset data).take (offset + data.length) = buffer.take offset ++ data := by
  rw [memcpy_of_le fits, ← List.append_assoc]
  refine List.take_left' ?_
  simp
  omega

@[simp] theorem flushBuffer_ne (s : LogBuffer) : s.flushBuffer ≠ s.logBuffer := by
  cases flag : s.logBuffer <;> simp [flushBuffer, flag]

theorem unwritten_of_not_isFlush {s : LogBuffer} (inv : s.Inv) (quiet : s.isFlush = false) :
    s.unwritten = [] := by
  have backed := inv.backed
  cases pc : s.backend with
  | waiting => simp [unwritten, pc, quiet]
  | exited => simp [unwritten, pc, quiet]
  | sizeTaken size => simp [pc, Backed, quiet] at backed
  | writing buffer size written started => simp [pc, Backed, quiet] at backed

theorem length_active {s : LogBuffer} (inv : s.Inv) : s.active.length = s.curOffset := by
  have := inv.curOffset_le
  simp [active, inv.length_memory]
  omega

theorem Inv.lossless {s : LogBuffer} (inv : s.Inv) : s.Lossless where
  complete := inv.complete
  drained := by
    intro quiet empty
    have := inv.complete
    simpa [unwritten_of_not_isFlush inv quiet, active, empty] using this
  steady := by
    intro buffer size written started pc
    have backed := inv.backed
    rw [pc] at backed
    exact backed.2.2.2.2
  durable := inv.durable

theorem inv_init (capacity : Nat) (disk : LogDiskManager) : (init capacity disk).Inv where
  length_memory := by simp [init]
  curOffset_le := Nat.zero_le _
  flushSize_le := Nat.zero_le _
  flushSize_pos := by simp [init]
  backed := trivial
  complete := by simp [init, unwritten, active]
  awaited := by simp [init]
  durable := by simp [init]

/-- With no batch on its way the backend is at rest. -/
theorem backend_of_not_isFlush {s : LogBuffer} (inv : s.Inv) (quiet : s.isFlush = false) :
    s.backend = .waiting ∨ s.backend = .exited := by
  have backed := inv.backed
  cases pc : s.backend with
  | waiting => exact .inl rfl
  | exited => exact .inr rfl
  | sizeTaken size => simp [pc, Backed, quiet] at backed
  | writing buffer size written started => simp [pc, Backed, quiet] at backed

/-- After the swap the batch is what the clients had written. -/
theorem unwritten_startFlush {s : LogBuffer} (inv : s.Inv) (quiet : s.isFlush = false) :
    s.startFlush.unwritten = s.active := by
  have pointer : s.swapBuffers.flushBuffer = s.logBuffer := by simp [swapBuffers, flushBuffer]
  rcases backend_of_not_isFlush inv quiet with pc | pc
  all_goals simp [unwritten, startFlush, swapBuffers, pc, active, flushBuffer]

theorem inv_startFlush {s : LogBuffer} (inv : s.Inv) (quiet : s.isFlush = false)
    (filled : 0 < s.curOffset) (c : Nat) (client : LogClient)
    (own : ∀ before, client = .inFlush before → before = s.accepted) :
    (s.startFlush.setClient c client).Inv where
  length_memory := inv.length_memory
  curOffset_le := Nat.zero_le _
  flushSize_le := inv.curOffset_le
  flushSize_pos := fun _ => filled
  backed := by
    rcases backend_of_not_isFlush inv quiet with pc | pc
    all_goals simp [startFlush, swapBuffers, setClient, pc, Backed]
  complete := by
    have before := inv.complete
    rw [unwritten_of_not_isFlush inv quiet, List.nil_append] at before
    have handed : (s.startFlush.setClient c client).unwritten = s.active :=
      unwritten_startFlush inv quiet
    have emptied : (s.startFlush.setClient c client).active = [] := List.take_zero
    rw [handed, emptied, List.append_nil]
    exact before
  awaited := by
    have handed : (s.startFlush.setClient c client).unwritten = s.active :=
      unwritten_startFlush inv quiet
    intro c' before waits
    rw [handed]
    by_cases self : c' = c
    · have own := own before (by simpa [self, setClient, startFlush, swapBuffers] using waits)
      have before := inv.complete
      rw [unwritten_of_not_isFlush inv quiet, List.nil_append] at before
      rw [own]
      exact ⟨[], by rw [List.append_nil]; exact before.symm⟩
    · have earlier := inv.awaited c' before
        (by simpa [self, setClient, startFlush, swapBuffers] using waits)
      rw [unwritten_of_not_isFlush inv quiet, List.append_nil] at earlier
      exact earlier.trans (List.prefix_append _ _)
  durable := inv.durable

theorem inv_append {s : LogBuffer} (inv : s.Inv) {data : List UInt8}
    (fits : s.curOffset + data.length ≤ s.capacity) : (s.append data).Inv := by
  have room : s.curOffset + data.length ≤ (s.memory s.logBuffer).length := by
    rw [inv.length_memory]
    exact fits
  -- the backend reads the other buffer, which does not change
  have kept : (s.append data).memory s.flushBuffer = s.memory s.flushBuffer :=
    Function.update_of_ne s.flushBuffer_ne _ _
  have backed : (s.append data).Backed s.backend := by
    have backed := inv.backed
    cases pc : s.backend with
    | waiting => trivial
    | exited => trivial
    | sizeTaken size =>
        rw [pc] at backed
        exact backed
    | writing buffer size written started =>
        rw [pc] at backed
        obtain ⟨busy, rfl, sized, bound, same⟩ := backed
        exact ⟨busy, rfl, sized, bound, by rw [kept]; exact same⟩
  have unwritten : (s.append data).unwritten = s.unwritten := by
    have source := inv.backed
    cases pc : s.backend with
    | writing buffer size written started =>
        rw [pc] at source
        obtain ⟨-, rfl, -⟩ := source
        simp only [LogBuffer.unwritten, append, pc]
        exact congrArg (fun bytes => (bytes.take size).drop written) kept
    | sizeTaken size =>
        simp only [LogBuffer.unwritten, append, pc]
        exact congrArg (fun bytes => bytes.take size) kept
    | waiting =>
        simp only [LogBuffer.unwritten, append, pc]
        split
        · exact congrArg (fun bytes => bytes.take s.flushSize) kept
        · rfl
    | exited =>
        simp only [LogBuffer.unwritten, append, pc]
        split
        · exact congrArg (fun bytes => bytes.take s.flushSize) kept
        · rfl
  have active : (s.append data).active = s.active ++ data := by
    simp only [LogBuffer.active, append, Function.update_self]
    exact take_memcpy room
  refine {
    length_memory := ?_
    curOffset_le := fits
    flushSize_le := inv.flushSize_le
    flushSize_pos := inv.flushSize_pos
    backed := backed
    complete := ?_
    awaited := ?_
    durable := inv.durable }
  · intro buffer
    by_cases target : buffer = s.logBuffer
    · simp only [append, target, Function.update_self]
      rw [length_memcpy room, inv.length_memory]
    · simp only [append, Function.update_of_ne target]
      exact inv.length_memory buffer
  · rw [unwritten, active, ← List.append_assoc s.unwritten, ← List.append_assoc]
    change s.disk.file ++ (s.unwritten ++ s.active) ++ data =
      s.found ++ (s.accepted ++ [data]).flatten
    rw [inv.complete]
    simp
  · intro c before waits
    rw [unwritten]
    exact inv.awaited c before waits

theorem inv_setClient_idle {s : LogBuffer} (inv : s.Inv) (c : Nat) :
    (s.setClient c .idle).Inv := by
  refine { inv with
    awaited := ?_
    durable := inv.durable
    backed := inv.backed }
  intro c' before waits
  by_cases self : c' = c
  · simp [setClient, self] at waits
  · exact inv.awaited c' before (by simpa [setClient, self] using waits)

theorem inv_flushReturned {s : LogBuffer} (inv : s.Inv) {before : List (List UInt8)}
    (safe : s.found ++ before.flatten <+: s.disk.file) : (s.flushReturned before).Inv := by
  refine { inv with
    awaited := inv.awaited
    backed := inv.backed
    durable := ?_ }
  intro r member
  rcases List.mem_append.mp member with earlier | new
  · exact inv.durable r earlier
  · rw [List.mem_singleton.mp new]
    exact safe

theorem inv_batchDone {s : LogBuffer} (inv : s.Inv) (written : s.unwritten = []) :
    s.batchDone.Inv := by
  have rest : s.batchDone.unwritten = [] := by
    cases flag : s.stop <;> simp [unwritten, batchDone, flag]
  have backed : s.batchDone.Backed s.batchDone.backend := by
    cases flag : s.stop <;> simp [batchDone, flag, Backed]
  refine {
    length_memory := inv.length_memory
    curOffset_le := inv.curOffset_le
    flushSize_le := inv.flushSize_le
    flushSize_pos := by simp [batchDone]
    backed := backed
    complete := ?_
    awaited := ?_
    durable := inv.durable }
  · have := inv.complete
    rw [written] at this
    rw [rest]
    exact this
  · intro c before waits
    have := inv.awaited c before waits
    rw [written] at this
    rw [rest]
    exact this

/-- A step of the backend that leaves the sum of file and batch alone keeps the rest. -/
theorem inv_backend {s : LogBuffer} (inv : s.Inv) {disk : LogDiskManager} {backend : LogBackend}
    (backed : s.Backed backend)
    (sum : disk.file ++ { s with disk := disk, backend := backend }.unwritten =
      s.disk.file ++ s.unwritten) :
    { s with disk := disk, backend := backend }.Inv where
  length_memory := inv.length_memory
  curOffset_le := inv.curOffset_le
  flushSize_le := inv.flushSize_le
  flushSize_pos := inv.flushSize_pos
  backed := by
    cases backend with
    | waiting => trivial
    | exited => trivial
    | sizeTaken size => exact backed
    | writing buffer size written started => exact backed
  complete := by
    rw [← List.append_assoc]
    change disk.file ++ { s with disk := disk, backend := backend }.unwritten ++ s.active = _
    rw [sum, List.append_assoc]
    exact inv.complete
  awaited := by
    intro c before waits
    change _ <+: disk.file ++ { s with disk := disk, backend := backend }.unwritten
    rw [sum]
    exact inv.awaited c before waits
  durable := inv.durable

/-- One byte moves from the front of the batch to the end of the file. -/
theorem inv_backendByte {s : LogBuffer} (inv : s.Inv) {buffer : Bool} {size written : Nat}
    {started : List UInt8} (pc : s.backend = .writing buffer size written started)
    (more : written < size) :
    { s with
      disk := s.disk.write (((s.memory buffer).drop written).take 1)
      backend := .writing buffer size (written + 1) started }.Inv := by
  have backed := inv.backed
  rw [pc] at backed
  obtain ⟨busy, source, sized, bound, same⟩ := backed
  refine inv_backend inv ⟨busy, source, sized, more, same⟩ ?_
  have inside : written < ((s.memory buffer).take size).length := by
    have := inv.flushSize_le
    rw [List.length_take, inv.length_memory]
    omega
  have byte : ((s.memory buffer).drop written).take 1 =
      (((s.memory buffer).take size).drop written).take 1 := by
    rw [List.drop_take, List.take_take]
    congr 1
    omega
  simp only [unwritten, pc, LogDiskManager.write_file, byte]
  rw [List.append_assoc, ← List.drop_drop, List.take_append_drop]

/-- Every orderly step keeps the invariant. -/
theorem inv_step {s s' : LogBuffer} {action : Action} (inv : s.Inv)
    (orderly : s.Orderly action) (taken : s.step action = some s') : s'.Inv := by
  cases action with
  | flush c =>
      cases pc : s.client c with
      | idle =>
          simp only [step, pc] at taken
          split at taken
          · rename_i empty
            obtain rfl := Option.some.inj taken
            have nothing : s.unwritten = [] := by
              cases flag : s.isFlush with
              | true => exact (orderly flag).2
              | false => exact unwritten_of_not_isFlush inv flag
            refine inv_flushReturned inv ?_
            have := inv.complete
            simp only [nothing, active, empty, List.take_zero, List.append_nil] at this
            exact ⟨[], by rw [List.append_nil, this]⟩
          · rename_i filled
            obtain rfl := Option.some.inj taken
            have quiet : s.isFlush = false := by
              cases flag : s.isFlush with
              | true => exact absurd (orderly flag).1 filled
              | false => rfl
            refine inv_startFlush inv quiet (Nat.pos_of_ne_zero filled) c _ ?_
            intro before same
            exact (LogClient.inFlush.inj same).symm
      | inFlush before => simp [step, pc] at taken
      | inWrite data => simp [step, pc] at taken
  | flushWake c =>
      cases pc : s.client c with
      | inFlush before =>
          simp only [step, pc] at taken
          split at taken
          · cases taken
          · rename_i quiet
            obtain rfl := Option.some.inj taken
            have safe := inv.awaited c before pc
            rw [unwritten_of_not_isFlush inv (by simpa using quiet), List.append_nil] at safe
            exact inv_setClient_idle (inv_flushReturned inv safe) c
      | idle => simp [step, pc] at taken
      | inWrite data => simp [step, pc] at taken
  | write c data =>
      cases pc : s.client c with
      | idle =>
          simp only [step, pc] at taken
          split at taken
          · obtain rfl := Option.some.inj taken
            exact inv
          · rename_i small
            split at taken
            · rename_i full
              obtain rfl := Option.some.inj taken
              exact inv_startFlush inv (orderly (by omega) full) (by omega) c _ (by simp)
            · rename_i room
              obtain rfl := Option.some.inj taken
              exact inv_append inv (by omega)
      | inFlush before => simp [step, pc] at taken
      | inWrite data => simp [step, pc] at taken
  | writeWake c =>
      cases pc : s.client c with
      | inWrite data =>
          simp only [step, pc] at taken
          split at taken
          · cases taken
          · obtain rfl := Option.some.inj taken
            exact inv_setClient_idle (inv_append inv (orderly data pc)) c
      | idle => simp [step, pc] at taken
      | inFlush before => simp [step, pc] at taken
  | backendTake =>
      cases pc : s.backend with
      | waiting =>
          simp only [step, pc] at taken
          split at taken
          · rename_i busy
            obtain rfl := Option.some.inj taken
            refine inv_backend inv ⟨busy, rfl⟩ ?_
            simp [unwritten, pc, busy, flushBuffer]
          · split at taken
            · rename_i quiet _
              obtain rfl := Option.some.inj taken
              refine inv_backend inv trivial ?_
              simp [unwritten, pc, quiet]
            · cases taken
      | exited => simp [step, pc] at taken
      | sizeTaken size => simp [step, pc] at taken
      | writing buffer size written started => simp [step, pc] at taken
  | backendPoint =>
      cases pc : s.backend with
      | sizeTaken size =>
          simp only [step, pc] at taken
          split at taken
          · obtain rfl := Option.some.inj taken
            have backed := inv.backed
            rw [pc] at backed
            refine inv_backend inv ⟨backed.1, rfl, backed.2, Nat.zero_le _, rfl⟩ ?_
            simp [unwritten, pc]
          · cases taken
      | waiting => simp [step, pc] at taken
      | exited => simp [step, pc] at taken
      | writing buffer size written started => simp [step, pc] at taken
  | backendByte =>
      cases pc : s.backend with
      | writing buffer size written started =>
          simp only [step, pc] at taken
          split at taken
          · rename_i more
            obtain rfl := Option.some.inj taken
            exact inv_backendByte inv pc more
          · cases taken
      | waiting => simp [step, pc] at taken
      | exited => simp [step, pc] at taken
      | sizeTaken size => simp [step, pc] at taken
  | backendDone =>
      cases pc : s.backend with
      | sizeTaken size =>
          simp only [step, pc] at taken
          split at taken
          · cases taken
          · rename_i none
            obtain rfl := Option.some.inj taken
            exact inv_batchDone inv (by simp [unwritten, pc]; omega)
      | writing buffer size written started =>
          simp only [step, pc] at taken
          split at taken
          · cases taken
          · rename_i all
            obtain rfl := Option.some.inj taken
            exact inv_batchDone inv (by simp [unwritten, pc]; omega)
      | waiting => simp [step, pc] at taken
      | exited => simp [step, pc] at taken
  | setStop =>
      obtain rfl := Option.some.inj taken
      exact { inv with backed := inv.backed, awaited := inv.awaited, durable := inv.durable }

/-- A second swap while a batch is on its way loses one of the two batches. -/
theorem not_lossless_startFlush {s : LogBuffer} (inv : s.Inv) (busy : s.isFlush = true)
    (filled : 0 < s.curOffset) (c : Nat) (client : LogClient) :
    ¬ (s.startFlush.setClient c client).Lossless := by
  intro lossless
  have shorter : (s.startFlush.setClient c client).unwritten.length <
      s.unwritten.length + s.curOffset := by
    have pos := inv.flushSize_pos busy
    have small := inv.flushSize_le
    have offset := inv.curOffset_le
    have backed := inv.backed
    cases pc : s.backend with
    | waiting =>
        simp [unwritten, startFlush, swapBuffers, setClient, flushBuffer, pc, busy,
          inv.length_memory]
        omega
    | exited =>
        simp [unwritten, startFlush, swapBuffers, setClient, flushBuffer, pc, busy,
          inv.length_memory]
        omega
    | sizeTaken size =>
        simp [unwritten, startFlush, swapBuffers, setClient, flushBuffer, pc, inv.length_memory]
        omega
    | writing buffer size written started =>
        simp [unwritten, startFlush, swapBuffers, setClient, pc, inv.length_memory]
        omega
  have whole := congrArg List.length inv.complete
  have after := congrArg List.length lossless.complete
  have emptied : (s.startFlush.setClient c client).active = [] := List.take_zero
  rw [emptied, List.append_nil] at after
  change (s.disk.file ++ (s.startFlush.setClient c client).unwritten).length =
    (s.found ++ s.accepted.flatten).length at after
  simp only [List.length_append, length_active inv] at whole after
  omega

/-- A record copied over the end of the buffer is not all there. -/
theorem not_lossless_append {s : LogBuffer} (inv : s.Inv) (quiet : s.isFlush = false)
    {data : List UInt8} (full : s.capacity < s.curOffset + data.length) (c : Nat) :
    ¬ ((s.append data).setClient c .idle).Lossless := by
  intro lossless
  have none : ((s.append data).setClient c .idle).unwritten = [] := by
    rcases backend_of_not_isFlush inv quiet with pc | pc
    all_goals simp [unwritten, append, setClient, pc, quiet]
  have bounded : ((s.append data).setClient c .idle).active.length ≤ s.capacity := by
    simp only [active, append, setClient, Function.update_self, List.length_take]
    have := length_memcpy_le (s.memory s.logBuffer) data s.curOffset
    rw [inv.length_memory] at this
    omega
  have whole := congrArg List.length inv.complete
  have after := congrArg List.length lossless.complete
  rw [none, List.nil_append] at after
  change (s.disk.file ++ ((s.append data).setClient c .idle).active).length =
    (s.found ++ (s.accepted ++ [data]).flatten).length at after
  rw [unwritten_of_not_isFlush inv quiet] at whole
  simp only [List.length_append, List.flatten_append, List.flatten_cons, List.flatten_nil,
    List.append_nil, List.length_nil, length_active inv] at whole after
  omega

/-- Every disorderly step leaves a state that already owes its clients something. -/
theorem not_lossless_step {s s' : LogBuffer} {action : Action} (inv : s.Inv)
    (disorderly : ¬ s.Orderly action) (taken : s.step action = some s') : ¬ s'.Lossless := by
  cases action with
  | flush c =>
      cases pc : s.client c with
      | idle =>
          simp only [Orderly, Classical.not_imp, not_and] at disorderly
          obtain ⟨busy, pending⟩ := disorderly
          simp only [step, pc] at taken
          split at taken
          · rename_i empty
            obtain rfl := Option.some.inj taken
            intro lossless
            have early := (lossless.durable ⟨s.accepted, s.disk.file⟩ (by simp [flushReturned])).length_le
            change (s.found ++ s.accepted.flatten).length ≤ s.disk.file.length at early
            have rest := List.length_pos_of_ne_nil (pending empty)
            rw [← inv.complete] at early
            simp only [List.length_append] at early
            omega
          · rename_i filled
            obtain rfl := Option.some.inj taken
            exact not_lossless_startFlush inv busy (Nat.pos_of_ne_zero filled) c _
      | inFlush before => simp [step, pc] at taken
      | inWrite data => simp [step, pc] at taken
  | write c data =>
      cases pc : s.client c with
      | idle =>
          simp only [Orderly, Classical.not_imp, Bool.not_eq_false] at disorderly
          obtain ⟨small, full, busy⟩ := disorderly
          simp only [step, pc, if_neg (Nat.not_lt.mpr small), if_pos full] at taken
          obtain rfl := Option.some.inj taken
          exact not_lossless_startFlush inv busy (by omega) c _
      | inFlush before => simp [step, pc] at taken
      | inWrite data => simp [step, pc] at taken
  | writeWake c =>
      simp only [Orderly, not_forall, Nat.not_le] at disorderly
      obtain ⟨data, pc, full⟩ := disorderly
      simp only [step, pc] at taken
      split at taken
      · cases taken
      · rename_i quiet
        obtain rfl := Option.some.inj taken
        exact not_lossless_append inv (by simpa using quiet) full c
  | backendTake => exact absurd trivial disorderly
  | backendPoint => exact absurd trivial disorderly
  | backendByte => exact absurd trivial disorderly
  | backendDone => exact absurd trivial disorderly
  | flushWake c => exact absurd trivial disorderly
  | setStop => exact absurd trivial disorderly

/-- The buffer keeps its promise in every state of a run exactly when every step of the
    run is orderly. -/
theorem lossless_iff_orderly (capacity : Nat) (disk : LogDiskManager) (actions : List Action)
    (s' : LogBuffer) (reached : Transition.run step (init capacity disk) actions = some s') :
    Transition.AllStates step Lossless (init capacity disk) actions ↔
      Transition.AllSteps step Orderly (init capacity disk) actions :=
  Transition.allStates_iff_allSteps (inv_init capacity disk) (fun _ inv => inv.lossless)
    (fun _ _ _ inv orderly taken => inv_step inv orderly taken)
    (fun _ _ _ inv disorderly taken => not_lossless_step inv disorderly taken) reached

/-- What a step does to the history, and who waits with a record after it. -/
theorem step_accepted {s s' : LogBuffer} {action : Action} (taken : s.step action = some s') :
    s'.found = s.found ∧ s'.accepted = s.accepted ++ (s.entering action).toList ∧
      ∀ c data, s'.client c = .inWrite data →
        s.client c = .inWrite data ∨ action = .write c data ∧ data.length ≤ s.capacity := by
  have others : ∀ {c : Nat} {client : LogClient} {t : LogBuffer}, t.client = s.client →
      (∀ data, client ≠ .inWrite data) → ∀ c' data, (t.setClient c client).client c' = .inWrite data →
        s.client c' = .inWrite data := by
    intro c client t same notWriting c' data waits
    by_cases own : c' = c
    · subst own
      simp only [setClient, Function.update_self] at waits
      exact absurd waits (notWriting data)
    · simpa [setClient, own, same] using waits
  cases action with
  | flush c =>
      simp only [step] at taken
      split at taken
      · split at taken
        · obtain rfl := Option.some.inj taken
          exact ⟨rfl, (List.append_nil _).symm, fun _ _ waits => .inl waits⟩
        · obtain rfl := Option.some.inj taken
          exact ⟨rfl, (List.append_nil _).symm, fun c' data waits =>
            .inl (others rfl (by simp) c' data waits)⟩
      · cases taken
  | flushWake c =>
      simp only [step] at taken
      split at taken
      · split at taken
        · cases taken
        · obtain rfl := Option.some.inj taken
          exact ⟨rfl, (List.append_nil _).symm, fun c' data waits =>
            .inl (others rfl (by simp) c' data waits)⟩
      · cases taken
  | write c data =>
      simp only [step] at taken
      split at taken
      · split at taken
        · rename_i large
          obtain rfl := Option.some.inj taken
          have refused : ¬ (data.length ≤ s.capacity ∧
              s.curOffset + data.length ≤ s.capacity) := by omega
          exact ⟨rfl, by simp [entering, refused], fun _ _ waits => .inl waits⟩
        · split at taken
          · rename_i full
            obtain rfl := Option.some.inj taken
            have refused : ¬ (data.length ≤ s.capacity ∧
                s.curOffset + data.length ≤ s.capacity) := by omega
            refine ⟨rfl, by simp [entering, refused, setClient, startFlush, swapBuffers], ?_⟩
            intro c' data' waits
            by_cases own : c' = c
            · subst own
              simp only [setClient, Function.update_self, LogClient.inWrite.injEq] at waits
              exact .inr (by rw [← waits]; exact ⟨rfl, by omega⟩)
            · exact .inl (by simpa [setClient, startFlush, swapBuffers, own] using waits)
          · rename_i fits room
            obtain rfl := Option.some.inj taken
            have accepted : data.length ≤ s.capacity ∧ s.curOffset + data.length ≤ s.capacity := by
              omega
            exact ⟨rfl, by simp [entering, accepted, append], fun _ _ waits => .inl waits⟩
      · cases taken
  | writeWake c =>
      simp only [step] at taken
      split at taken
      · rename_i data pc
        split at taken
        · cases taken
        · obtain rfl := Option.some.inj taken
          exact ⟨rfl, by simp [entering, pc, append, setClient], fun c' data' waits =>
            .inl (others rfl (by simp) c' data' waits)⟩
      · cases taken
  | backendTake | backendPoint | backendByte | backendDone | setStop =>
      have same : s'.found = s.found ∧ s'.accepted = s.accepted ∧ s'.client = s.client := by
        simp only [step] at taken
        repeat' split at taken
        all_goals first
          | cases taken; done
          | obtain rfl := Option.some.inj taken; exact ⟨rfl, rfl, rfl⟩
      refine ⟨same.1, ?_, fun c data waits => .inl (by rw [← same.2.2]; exact waits)⟩
      rw [same.2.1]
      exact (List.append_nil _).symm

/-- One writer with one record, flushed to the end. -/
def oneRecord : List Action :=
  [.write 0 [1], .flush 0, .backendTake, .backendPoint, .backendByte, .backendDone, .flushWake 0]

theorem lossless_oneRecord :
    Transition.AllStates step Lossless (init 8 ⟨[]⟩) oneRecord ↔
      Transition.AllSteps step Orderly (init 8 ⟨[]⟩) oneRecord :=
  lossless_iff_orderly 8 ⟨[]⟩ oneRecord _ rfl

/-- Two clients write and flush a record each; the second flush starts before the backend
    took the first batch. Both flushes return, and the first record is gone. -/
def twoFlushes : List Action :=
  [.write 0 [1], .flush 0, .write 1 [2], .flush 1, .backendTake, .backendPoint, .backendByte,
    .backendDone, .flushWake 0, .flushWake 1]

theorem twoFlushes_loses_record :
    ∃ s', Transition.run step (init 8 ⟨[]⟩) twoFlushes = some s' ∧
      s'.accepted = [[1], [2]] ∧ s'.isFlush = false ∧ s'.curOffset = 0 ∧
      s'.disk.file = [2] ∧ ¬ s'.Lossless := by
  refine ⟨_, rfl, rfl, rfl, rfl, rfl, ?_⟩
  intro lossless
  have whole := lossless.drained rfl rfl
  exact absurd whole (by decide)

end LogBuffer

end YourSQL
