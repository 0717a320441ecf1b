import YourSQL.Lib.Memory
import YourSQL.Lib.Program
import YourSQL.Log.LogPayload
import YourSQL.Log.LogRecord

/-! # What recovery reads of a log that anybody may have written

`ReadLog` and `Decode` with each `memcpy` as an access of its own. `ReadLog` tests both of
its lengths against the file. `Decode` tests its fixed fields against the payload, and takes
the size of the image from the payload as it is.
-/

namespace YourSQL

open Memory

/-- `RecoveredLog`. -/
structure RecoveredLog where
  lsn : UInt64
  txId : UInt64
  type : LogRecordType
  payload : List UInt8
  deriving Repr, DecidableEq

namespace RecoveryReads

/-- A round of `ReadLog`: the record at `off` and the offset behind it, if it is complete. -/
def readRecord (buf : List UInt8) (off : Nat) : Except Fault (Option (RecoveredLog × Nat)) := do
  let lsn ← read buf off 8
  let txId ← read buf (off + 8) 8
  let type ← read buf (off + 16) 1
  let psize ← read buf (off + 17) 4
  let p := off + kLogHeaderBytes
  if p + Bytes.toNat psize > buf.length then
    return none
  else
    let payload ← read buf p (Bytes.toNat psize)
    return some
      ({ lsn := UInt64.ofNat (Bytes.toNat lsn)
         txId := UInt64.ofNat (Bytes.toNat txId)
         type := .ofByte (UInt8.ofNat (Bytes.toNat type))
         payload := payload }, p + Bytes.toNat psize)

/-- The loop of `ReadLog`, for so many rounds. -/
def readFrom (buf : List UInt8) : (rounds off : Nat) → Except Fault (List RecoveredLog)
  | 0, _ => .error .unfinished
  | rounds + 1, off => do
      if off + kLogHeaderBytes ≤ buf.length then
        match ← readRecord buf off with
        | none => return []
        | some (record, off) => return record :: (← readFrom buf rounds off)
      else
        return []

def readLog (buf : List UInt8) : Except Fault (List RecoveredLog) := readFrom buf (buf.length + 1) 0

/-- `Decode` of a payload and its size. -/
def decode (data : List UInt8) : Except Fault Wal.LogDataPayload := do
  if data.length < Wal.LogDataPayload.headerBytes then
    return {}
  else
    let tableId ← read data 0 8
    let pageId ← read data 8 8
    let rowId ← read data 16 8
    let imageSize ← read data 24 4
    let image ←
      if Bytes.toNat imageSize > 0 then
        read data Wal.LogDataPayload.headerBytes (Bytes.toNat imageSize)
      else
        pure []
    return {
      tableId := UInt64.ofNat (Bytes.toNat tableId)
      pageId := UInt64.ofNat (Bytes.toNat pageId)
      rowId := UInt64.ofNat (Bytes.toNat rowId)
      image := image }

/-- The reading of a log file ends, all its copies are copies of bytes of the file, and
    those of the decoding of a record it returns are copies of bytes of the payload. -/
def Tolerates (buf : List UInt8) : Prop :=
  ∃ logs, readLog buf = .ok logs ∧ ∀ log ∈ logs, ∃ payload, decode log.payload = .ok payload

/-- The size that a payload gives for its image. -/
def imageSize (data : List UInt8) : Nat := Bytes.toNat (Bytes.field data 24 4)

/-- The payload is too short to be one, or its image lies inside. -/
def Consistent (data : List UInt8) : Prop :=
  data.length < Wal.LogDataPayload.headerBytes ∨
    Wal.LogDataPayload.headerBytes + imageSize data ≤ data.length

instance (data : List UInt8) : Decidable (Consistent data) := by
  unfold Consistent
  infer_instance

/-! ## The file -/

def recovered (record : LogRecord) : RecoveredLog where
  lsn := record.lsn
  txId := record.txId
  type := record.type
  payload := record.payload

/-- The four fields of the header lie in front of the offset that the loop has tested. -/
theorem readRecord_eq {buf : List UInt8} {off : Nat} (header : off + kLogHeaderBytes ≤ buf.length) :
    readRecord buf off =
      .ok (if off + kLogHeaderBytes + payloadSizeAt buf off > buf.length then
        none
      else
        some (recovered (recordAt buf off), off + kLogHeaderBytes + payloadSizeAt buf off)) := by
  simp only [kLogHeaderBytes] at header
  unfold readRecord
  rw [read_of_inside (by omega), read_of_inside (by omega), read_of_inside (by omega),
    read_of_inside (by omega)]
  change (if off + kLogHeaderBytes + payloadSizeAt buf off > buf.length then _ else _) = _
  split
  · rfl
  · rename_i whole
    have payload := read_of_inside (Nat.le_of_not_gt whole)
    unfold payloadSizeAt at payload
    rw [payload]
    rfl

/-- With a round for each byte that is left, and one more, the loop ends. -/
theorem readFrom_eq {buf : List UInt8} {rounds off : Nat} (inside : off ≤ buf.length)
    (enough : buf.length < rounds + off) :
    readFrom buf rounds off = .ok ((readLogFrom buf off rounds).map recovered) := by
  induction rounds generalizing off with
  | zero => omega
  | succ rounds ih =>
      simp only [readFrom, readLogFrom]
      split
      · rename_i header
        rw [readRecord_eq header]
        simp only [kLogHeaderBytes] at header
        split
        · rfl
        · rename_i whole
          have rest := @ih (off + kLogHeaderBytes + payloadSizeAt buf off) (by omega)
            (by simp only [kLogHeaderBytes]; omega)
          change (do
            let logs ← readFrom buf rounds (off + kLogHeaderBytes + payloadSizeAt buf off)
            pure (recovered (recordAt buf off) :: logs)) = _
          rw [rest]
          rfl
      · rfl

/-- The reading ends without a fault, whatever the bytes are. -/
theorem readLog_eq (buf : List UInt8) :
    readLog buf = .ok ((YourSQL.readLog buf).map recovered) :=
  readFrom_eq (Nat.zero_le _) (Nat.lt_succ_self _)

theorem mem_readLog_iff {buf : List UInt8} {record : LogRecord} :
    record ∈ YourSQL.readLog buf ↔
      ∃ front rest, buf = recordFraming.encodeAll front ++ (record.serialize ++ rest) := by
  rw [readLog_eq_parse]
  exact recordFraming.mem_parse_iff (Nat.lt_succ_self _)

/-! ## The payload -/

/-- An image without bytes is not copied, and would not be copied from outside either. -/
theorem readImage_eq {data : List UInt8} (header : Wal.LogDataPayload.headerBytes ≤ data.length)
    (size : Nat) (rest : List UInt8 → Except Fault Wal.LogDataPayload) :
    (if size > 0 then read data Wal.LogDataPayload.headerBytes size >>= rest else pure [] >>= rest) =
      read data Wal.LogDataPayload.headerBytes size >>= rest := by
  cases size with
  | zero =>
      rw [if_neg (Nat.lt_irrefl 0), read_of_inside header, Bytes.field, List.take_zero]
      rfl
  | succ size => rw [if_pos (Nat.succ_pos size)]

/-- Behind the first test only the copy of the image can go wrong. -/
theorem decode_of_long {data : List UInt8} (long : ¬ data.length < Wal.LogDataPayload.headerBytes) :
    decode data = (do
      let image ← read data Wal.LogDataPayload.headerBytes (imageSize data)
      return { Wal.LogDataPayload.decode data with image := image }) := by
  have header := Nat.le_of_not_lt long
  have fields : 28 ≤ data.length := header
  unfold decode Wal.LogDataPayload.decode
  rw [if_neg long, if_neg long, read_of_inside (by omega), read_of_inside (by omega),
    read_of_inside (by omega), read_of_inside (by omega)]
  exact readImage_eq header (imageSize data) _

/-- The decoding has a result exactly where the image lies inside the payload. -/
theorem decode_iff (data : List UInt8) :
    (∃ payload, decode data = .ok payload) ↔ Consistent data := by
  unfold Consistent
  cases Nat.lt_or_ge data.length Wal.LogDataPayload.headerBytes with
  | inl short =>
      constructor
      · intro _
        exact .inl short
      · intro _
        exact ⟨{}, by unfold decode; rw [if_pos short]; rfl⟩
  | inr header =>
      rw [decode_of_long (Nat.not_lt_of_le header)]
      cases Nat.lt_or_ge data.length (Wal.LogDataPayload.headerBytes + imageSize data) with
      | inl outside =>
          rw [read_of_outside outside]
          constructor
          · intro ⟨_, decoded⟩
            cases decoded
          · intro fits
            omega
      | inr inside =>
          rw [read_of_inside inside]
          constructor
          · intro _
            exact .inr inside
          · intro _
            exact ⟨_, rfl⟩

/-- Recovery reads nothing but the file and its payloads exactly where each complete record
    of the file that stands behind complete records has a payload of fewer bytes than the
    fixed fields or one that holds its image. -/
theorem tolerates_iff (buf : List UInt8) :
    Tolerates buf ↔ ∀ front (record : LogRecord) rest,
      buf = recordFraming.encodeAll front ++ (record.serialize ++ rest) →
        Consistent record.payload := by
  unfold Tolerates
  rw [readLog_eq]
  constructor
  · intro ⟨logs, returned, decodes⟩ front record rest whole
    cases returned
    have member := mem_readLog_iff.mpr ⟨front, rest, whole⟩
    exact (decode_iff _).mp (decodes (recovered record) (List.mem_map_of_mem member))
  · intro consistent
    refine ⟨_, rfl, fun log member => ?_⟩
    obtain ⟨record, returned, rfl⟩ := List.mem_map.mp member
    obtain ⟨front, rest, whole⟩ := mem_readLog_iff.mp returned
    exact (decode_iff _).mpr (consistent front record rest whole)

/-- An inserted row whose payload ends behind the fixed fields and promises an image of one
    byte. -/
def oneByteMissing : LogRecord where
  lsn := 1
  txId := 1
  type := .insertRow
  payload := Bytes.ofNat 24 0 ++ Bytes.ofNat 4 1
  payloadSize_lt := by decide

theorem decode_reads_behind : ¬ ∀ buf, Tolerates buf := by
  intro tolerates
  obtain ⟨logs, returned, decodes⟩ := tolerates oneByteMissing.serialize
  rw [readLog_eq] at returned
  cases returned
  have member : oneByteMissing ∈ YourSQL.readLog oneByteMissing.serialize :=
    mem_readLog_iff.mpr ⟨[], [], by simp⟩
  have decoded := decodes (recovered oneByteMissing) (List.mem_map_of_mem member)
  exact absurd ((decode_iff _).mp decoded) (by decide)

end RecoveryReads

end YourSQL
