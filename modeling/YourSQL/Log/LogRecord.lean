import YourSQL.Lib.Bytes
import YourSQL.Lib.Framing

/-! # The records of the WAL file

`LogManager::AppendLogRecord` writes `lsn | tx_id | type | payload_size | payload`
with no padding, `RecoveryManager::ReadLog` reads the same layout with a cursor of
its own. The two meet in `recordFraming`: a record is found again in front of
anything, and nothing else is ever taken for a record.
-/

namespace YourSQL

/-- `LogRecordType`. The enumeration has `uint8_t` as its underlying type, and the
    reader copies a byte of the file into it, so it can hold unnamed values. -/
inductive LogRecordType where
  | begin
  | commit
  | abort
  | insertRow
  | updateRow
  | deleteRow
  | insertUndo
  | pageNew
  | checkpoint
  | unnamed (code : UInt8) (above : 9 ≤ code)
  deriving Repr, DecidableEq

namespace LogRecordType

def toByte : LogRecordType → UInt8
  | begin => 0
  | commit => 1
  | abort => 2
  | insertRow => 3
  | updateRow => 4
  | deleteRow => 5
  | insertUndo => 6
  | pageNew => 7
  | checkpoint => 8
  | unnamed code _ => code

def ofByte (byte : UInt8) : LogRecordType :=
  if above : 9 ≤ byte then
    unnamed byte above
  else
    match byte with
    | 0 => begin
    | 1 => commit
    | 2 => abort
    | 3 => insertRow
    | 4 => updateRow
    | 5 => deleteRow
    | 6 => insertUndo
    | 7 => pageNew
    | _ => checkpoint

theorem ofByte_toByte (type : LogRecordType) : ofByte type.toByte = type := by
  cases type with
  | unnamed code above => simp [toByte, ofByte, above]
  | _ => rfl

theorem toByte_ofByte (byte : UInt8) : (ofByte byte).toByte = byte := by
  by_cases above : 9 ≤ byte
  · simp [ofByte, above, toByte]
  · have named : ∀ code < 9, (ofByte (UInt8.ofNat code)).toByte = UInt8.ofNat code := by decide
    have small : byte.toNat < 9 := by simpa [UInt8.le_iff_toNat_le] using above
    have := named byte.toNat small
    rwa [UInt8.ofNat_toNat] at this

end LogRecordType

/-- A record as it stands in the file; the payload size is a `uint32_t`. -/
structure LogRecord where
  lsn : UInt64
  txId : UInt64
  type : LogRecordType
  payload : List UInt8
  payloadSize_lt : payload.length < 2 ^ 32
  deriving Repr, DecidableEq

theorem LogRecord.noPayload_lt : ([] : List UInt8).length < 2 ^ 32 := by
  rw [List.length_nil]
  exact Nat.two_pow_pos 32

/-- Header bytes without padding: lsn, tx_id, type and payload_size. -/
def kLogHeaderBytes : Nat := 21

/-- The bytes `AppendLogRecord` builds for a record with the LSN it was given. -/
def LogRecord.serialize (record : LogRecord) : List UInt8 :=
  Bytes.ofNat 8 record.lsn.toNat ++ (Bytes.ofNat 8 record.txId.toNat ++
    (Bytes.ofNat 1 record.type.toByte.toNat ++ (Bytes.ofNat 4 record.payload.length ++
      record.payload)))

/-- The payload size stored in the record that starts at `off`. -/
def payloadSizeAt (buf : List UInt8) (off : Nat) : Nat :=
  Bytes.toNat (Bytes.field buf (off + 17) 4)

theorem length_payloadAt_lt (buf : List UInt8) (off : Nat) :
    (Bytes.field buf (off + kLogHeaderBytes) (payloadSizeAt buf off)).length < 2 ^ 32 := by
  have small : payloadSizeAt buf off < 2 ^ 32 := Bytes.toNat_field_lt buf (off + 17) 4
  simp only [Bytes.field, List.length_take]
  omega

/-- The record that starts at `off`, as `ReadLog` copies it out. -/
def recordAt (buf : List UInt8) (off : Nat) : LogRecord where
  lsn := UInt64.ofNat (Bytes.toNat (Bytes.field buf off 8))
  txId := UInt64.ofNat (Bytes.toNat (Bytes.field buf (off + 8) 8))
  type := .ofByte (UInt8.ofNat (Bytes.toNat (Bytes.field buf (off + 16) 1)))
  payload := Bytes.field buf (off + kLogHeaderBytes) (payloadSizeAt buf off)
  payloadSize_lt := length_payloadAt_lt buf off

/-- The loop of `ReadLog` from offset `off`, one unit of fuel for each round. -/
def readLogFrom (buf : List UInt8) (off : Nat) : (fuel : Nat) → List LogRecord
  | 0 => []
  | fuel + 1 =>
      if off + kLogHeaderBytes ≤ buf.length then
        let p := off + kLogHeaderBytes
        let psize := payloadSizeAt buf off
        -- an incomplete record is taken for the end of the log
        if p + psize > buf.length then
          []
        else
          recordAt buf off :: readLogFrom buf (p + psize) fuel
      else
        []

/-- `RecoveryManager::ReadLog`; a round consumes bytes, so this fuel is enough. -/
def readLog (buf : List UInt8) : List LogRecord := readLogFrom buf 0 (buf.length + 1)

@[simp] theorem LogRecord.length_serialize (record : LogRecord) :
    record.serialize.length = kLogHeaderBytes + record.payload.length := by
  simp [serialize, kLogHeaderBytes]
  omega

/-- Reading at an offset is reading the rest of the buffer from its start. -/
theorem recordAt_drop (buf : List UInt8) (off : Nat) : recordAt (buf.drop off) 0 = recordAt buf off := by
  simp [recordAt, payloadSizeAt, Bytes.field, kLogHeaderBytes]

theorem payloadSizeAt_drop (buf : List UInt8) (off : Nat) :
    payloadSizeAt (buf.drop off) 0 = payloadSizeAt buf off := by
  simp [payloadSizeAt, Bytes.field]

/-- One round of the loop, on the rest of the buffer. -/
def decodeRecord (stream : List UInt8) : Option (LogRecord × List UInt8) :=
  if kLogHeaderBytes + payloadSizeAt stream 0 ≤ stream.length then
    some (recordAt stream 0, stream.drop (kLogHeaderBytes + payloadSizeAt stream 0))
  else
    none

theorem payloadSizeAt_serialize (record : LogRecord) (rest : List UInt8) :
    payloadSizeAt (record.serialize ++ rest) 0 = record.payload.length := by
  have field : Bytes.field (record.serialize ++ rest) 17 4 =
      Bytes.ofNat 4 record.payload.length := by
    have := Bytes.field_between
      (Bytes.ofNat 8 record.lsn.toNat ++ (Bytes.ofNat 8 record.txId.toNat ++
        Bytes.ofNat 1 record.type.toByte.toNat))
      (Bytes.ofNat 4 record.payload.length) (record.payload ++ rest)
    simpa [LogRecord.serialize] using this
  rw [payloadSizeAt, Nat.zero_add, field,
    Bytes.toNat_ofNat_of_lt (by have := record.payloadSize_lt; omega)]

theorem recordAt_serialize (record : LogRecord) (rest : List UInt8) :
    recordAt (record.serialize ++ rest) 0 = record := by
  have lsn : Bytes.field (record.serialize ++ rest) 0 8 = Bytes.ofNat 8 record.lsn.toNat := by
    have := Bytes.field_between [] (Bytes.ofNat 8 record.lsn.toNat)
      (Bytes.ofNat 8 record.txId.toNat ++ (Bytes.ofNat 1 record.type.toByte.toNat ++
        (Bytes.ofNat 4 record.payload.length ++ (record.payload ++ rest))))
    simpa [LogRecord.serialize] using this
  have txId : Bytes.field (record.serialize ++ rest) 8 8 = Bytes.ofNat 8 record.txId.toNat := by
    have := Bytes.field_between (Bytes.ofNat 8 record.lsn.toNat) (Bytes.ofNat 8 record.txId.toNat)
      (Bytes.ofNat 1 record.type.toByte.toNat ++
        (Bytes.ofNat 4 record.payload.length ++ (record.payload ++ rest)))
    simpa [LogRecord.serialize] using this
  have type : Bytes.field (record.serialize ++ rest) 16 1 =
      Bytes.ofNat 1 record.type.toByte.toNat := by
    have := Bytes.field_between (Bytes.ofNat 8 record.lsn.toNat ++ Bytes.ofNat 8 record.txId.toNat)
      (Bytes.ofNat 1 record.type.toByte.toNat)
      (Bytes.ofNat 4 record.payload.length ++ (record.payload ++ rest))
    simpa [LogRecord.serialize] using this
  have payload : Bytes.field (record.serialize ++ rest) kLogHeaderBytes record.payload.length =
      record.payload := by
    have := Bytes.field_between
      (Bytes.ofNat 8 record.lsn.toNat ++ (Bytes.ofNat 8 record.txId.toNat ++
        (Bytes.ofNat 1 record.type.toByte.toNat ++ Bytes.ofNat 4 record.payload.length)))
      record.payload rest
    simpa [LogRecord.serialize, kLogHeaderBytes] using this
  have sized := payloadSizeAt_serialize record rest
  have lsnSmall := record.lsn.toNat_lt
  have txIdSmall := record.txId.toNat_lt
  have typeSmall := record.type.toByte.toNat_lt
  obtain ⟨recordLsn, recordTxId, recordType, recordPayload, small⟩ := record
  simp only [recordAt, LogRecord.mk.injEq, Nat.zero_add, sized]
  refine ⟨?_, ?_, ?_, payload⟩
  · rw [lsn, Bytes.toNat_ofNat_of_lt (by omega), UInt64.ofNat_toNat]
  · rw [txId, Bytes.toNat_ofNat_of_lt (by omega), UInt64.ofNat_toNat]
  · rw [type, Bytes.toNat_ofNat_of_lt (by omega), UInt8.ofNat_toNat, LogRecordType.ofByte_toByte]

theorem decodeRecord_serialize (record : LogRecord) (rest : List UInt8) :
    decodeRecord (record.serialize ++ rest) = some (record, rest) := by
  have sized := payloadSizeAt_serialize record rest
  have inside : kLogHeaderBytes + record.payload.length ≤ (record.serialize ++ rest).length := by
    simp
  simp only [decodeRecord, sized, if_pos inside, recordAt_serialize]
  rw [← record.length_serialize, List.drop_left]

/-- What is taken for a record is the serialised record, whatever the bytes mean. -/
theorem serialize_recordAt {stream : List UInt8}
    (inside : kLogHeaderBytes + payloadSizeAt stream 0 ≤ stream.length) :
    (recordAt stream 0).serialize = stream.take (kLogHeaderBytes + payloadSizeAt stream 0) := by
  have bound : ∀ off width, off + width ≤ 21 → off + width ≤ stream.length := by
    intro off width small
    simp only [kLogHeaderBytes] at inside
    omega
  have small : ∀ off, Bytes.toNat (Bytes.field stream off 8) < 2 ^ 64 :=
    fun off => Bytes.toNat_field_lt stream off 8
  have size : (recordAt stream 0).payload.length = payloadSizeAt stream 0 := by
    simp only [recordAt, Nat.zero_add]
    exact Bytes.length_field inside
  have lsn : Bytes.ofNat 8 (recordAt stream 0).lsn.toNat = Bytes.field stream 0 8 := by
    simp only [recordAt]
    rw [UInt64.toNat_ofNat', Nat.mod_eq_of_lt (small 0),
      Bytes.ofNat_toNat_field (bound 0 8 (by omega))]
  have txId : Bytes.ofNat 8 (recordAt stream 0).txId.toNat = Bytes.field stream 8 8 := by
    simp only [recordAt, Nat.zero_add]
    rw [UInt64.toNat_ofNat', Nat.mod_eq_of_lt (small 8),
      Bytes.ofNat_toNat_field (bound 8 8 (by omega))]
  have type : Bytes.ofNat 1 (recordAt stream 0).type.toByte.toNat = Bytes.field stream 16 1 := by
    have byte : Bytes.toNat (Bytes.field stream 16 1) < 2 ^ 8 := Bytes.toNat_field_lt stream 16 1
    simp only [recordAt, Nat.zero_add]
    rw [LogRecordType.toByte_ofByte, UInt8.toNat_ofNat', Nat.mod_eq_of_lt byte,
      Bytes.ofNat_toNat_field (bound 16 1 (by omega))]
  have payloadSize : Bytes.ofNat 4 (recordAt stream 0).payload.length =
      Bytes.field stream 17 4 := by
    rw [size, payloadSizeAt, Nat.zero_add, Bytes.ofNat_toNat_field (bound 17 4 (by omega))]
  have payload : (recordAt stream 0).payload =
      Bytes.field stream 21 (payloadSizeAt stream 0) := by
    simp only [recordAt, Nat.zero_add, kLogHeaderBytes]
  calc (recordAt stream 0).serialize
      = Bytes.field stream 0 8 ++ (Bytes.field stream 8 8 ++ (Bytes.field stream 16 1 ++
          (Bytes.field stream 17 4 ++ Bytes.field stream 21 (payloadSizeAt stream 0)))) := by
        rw [LogRecord.serialize, lsn, txId, type, payloadSize, payload]
    _ = Bytes.field stream 0 (21 + payloadSizeAt stream 0) := by
        rw [Bytes.field_append_field stream 17, Bytes.field_append_field stream 16,
          Bytes.field_append_field stream 8]
        have := Bytes.field_append_field stream 0 8 (8 + (1 + (4 + payloadSizeAt stream 0)))
        rw [Nat.zero_add] at this
        rw [this]
        congr 1
        omega
    _ = stream.take (kLogHeaderBytes + payloadSizeAt stream 0) := by
        simp [Bytes.field, kLogHeaderBytes]

/-- The framing of the WAL file. -/
def recordFraming : Framing LogRecord UInt8 where
  encode := LogRecord.serialize
  decode := decodeRecord
  decode_encode := decodeRecord_serialize
  encode_decode := by
    intro stream record rest decoded
    simp only [decodeRecord] at decoded
    split at decoded
    · rename_i inside
      obtain ⟨rfl, rfl⟩ := Prod.mk.inj (Option.some.inj decoded)
      rw [serialize_recordAt inside, List.take_append_drop]
    · cases decoded
  encode_ne_nil := by
    intro record empty
    have := congrArg List.length empty
    simp [kLogHeaderBytes] at this

/-- The cursor loop of `ReadLog` takes frames off the rest of the buffer. -/
theorem readLogFrom_eq_parse (buf : List UInt8) (off fuel : Nat) :
    readLogFrom buf off fuel = recordFraming.parse fuel (buf.drop off) := by
  induction fuel generalizing off with
  | zero => rfl
  | succ fuel ih =>
      have decode : recordFraming.decode (buf.drop off) =
          if off + kLogHeaderBytes + payloadSizeAt buf off ≤ buf.length then
            some (recordAt buf off, buf.drop (off + kLogHeaderBytes + payloadSizeAt buf off))
          else none := by
        have sameTest : kLogHeaderBytes + payloadSizeAt buf off ≤ buf.length - off ↔
            off + kLogHeaderBytes + payloadSizeAt buf off ≤ buf.length := by
          simp only [kLogHeaderBytes]
          omega
        simp only [recordFraming, decodeRecord, payloadSizeAt_drop, recordAt_drop,
          List.length_drop, List.drop_drop, sameTest, Nat.add_assoc]
      rw [readLogFrom, Framing.parse, decode]
      by_cases whole : off + kLogHeaderBytes + payloadSizeAt buf off ≤ buf.length
      · rw [if_pos whole, if_pos (by omega), if_neg (by omega), ih]
      · rw [if_neg whole]
        split
        · rw [if_pos (by omega)]
        · rfl

theorem readLog_eq_parse (buf : List UInt8) :
    readLog buf = recordFraming.parse (buf.length + 1) buf :=
  readLogFrom_eq_parse buf 0 _

end YourSQL
