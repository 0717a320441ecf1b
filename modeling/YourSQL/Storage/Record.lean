import YourSQL.Common.Types

/-! # Stored records

A record is a 22-byte header for versioning and the bytes of the row. The three
header writes of a table page are functions on the record here.
-/

namespace YourSQL

def REC_HEADER_SIZE : Nat := 22

structure RecordHeader where
  trxId : Nat
  rollPtr : UndoPointer
  flags : Flags
  deriving Repr, DecidableEq

/-- A record: its header, then the null bytes and the columns of the row. -/
structure Record extends RecordHeader where
  payload : List UInt8
  deriving Repr, DecidableEq

namespace Record

/-- The `tuple_size_` of a record; the columns see 16 bits of it. -/
def size (record : Record) : Nat := REC_HEADER_SIZE + record.payload.length

def isDel (record : Record) : Bool := record.flags.isDel

def isDead (record : Record) : Bool := record.flags.isDead

/-- Neither deleted nor dead: the records `num_rows_` is meant to count. -/
def isLive (record : Record) : Bool := !record.isDel && !record.isDead

/-- The header that `MarkDelete` writes. -/
def deleted (record : Record) (trxId : Nat) (rollPtr : UndoPointer) : Record :=
  { record with
    trxId := trxId
    rollPtr := rollPtr
    flags := record.flags ||| RECORD_DEL }

/-- The header that `RestoreRecord` writes. -/
def restored (record : Record) (header : RecordHeader) : Record :=
  { record with toRecordHeader := header }

/-- The flags that `MarkDead` writes. -/
def killed (record : Record) : Record := { record with flags := record.flags ||| RECORD_DEAD }

@[simp] theorem isDel_deleted (record : Record) (trxId : Nat) (rollPtr : UndoPointer) :
    (record.deleted trxId rollPtr).isDel = true := by
  simp [isDel, deleted]

@[simp] theorem isLive_deleted (record : Record) (trxId : Nat) (rollPtr : UndoPointer) :
    (record.deleted trxId rollPtr).isLive = false := by
  simp [isLive]

@[simp] theorem isDead_deleted (record : Record) (trxId : Nat) (rollPtr : UndoPointer) :
    (record.deleted trxId rollPtr).isDead = record.isDead := by
  simp [isDead, deleted]

@[simp] theorem isDead_killed (record : Record) : record.killed.isDead = true := by
  simp [isDead, killed]

@[simp] theorem isLive_killed (record : Record) : record.killed.isLive = false := by
  simp [isLive]

@[simp] theorem killed_killed (record : Record) : record.killed.killed = record.killed := by
  simp [killed, BitVec.or_assoc]

/-- A deletion that is taken back leaves the record it found. -/
@[simp] theorem restored_deleted (record : Record) (trxId : Nat) (rollPtr : UndoPointer) :
    (record.deleted trxId rollPtr).restored record.toRecordHeader = record := rfl

@[simp] theorem restored_self (record : Record) :
    record.restored record.toRecordHeader = record := rfl

theorem isLive_of_flags_zero {record : Record} (clean : record.flags = 0) :
    record.isLive = true := by
  simp only [isLive, isDel, isDead, clean]
  rfl

end Record

end YourSQL
