import YourSQL.Lib.Bytes
import YourSQL.Transaction.UndoLog

/-! # Undo pages as bytes

An undo page is a header of 20 bytes and the records behind it, each with a header of
its own. `free_offset` is where the next record goes.
-/

namespace YourSQL

/-- An undo record as it is laid out in a page. -/
structure RawUndoRecord where
  oldRollPage : UInt64
  oldRollSlot : UInt32
  oldTrxId : UInt64
  payload : List UInt8
  deriving Repr, DecidableEq

namespace RawUndoRecord

def size (record : RawUndoRecord) : Nat := UNDO_RECORD_OVERHEAD + record.payload.length

/-- The bytes of the record, its payload last. -/
def encode (record : RawUndoRecord) : List UInt8 :=
  Bytes.ofNat 8 record.oldRollPage.toNat ++ Bytes.ofNat 4 record.oldRollSlot.toNat ++
    Bytes.ofNat 8 record.oldTrxId.toNat ++ Bytes.ofNat 4 record.payload.length ++ record.payload

@[simp] theorem length_encode (record : RawUndoRecord) : record.encode.length = record.size := by
  simp only [encode, List.length_append, Bytes.length_ofNat, size, UNDO_RECORD_OVERHEAD]

end RawUndoRecord

/-- The members of the object that a page is read and written with. -/
structure UndoLogPage where
  pageId : Nat
  lsn : Nat
  freeOffset : Nat
  deriving Repr, DecidableEq

namespace UndoLogPage

open Bytes

def writeHeader (page : UndoLogPage) (data : List UInt8) : List UInt8 :=
  let data := write data 0 (ofNat 8 page.pageId)
  let data := write data 8 (ofNat 8 page.lsn)
  write data 16 (ofNat 4 page.freeOffset)

def initNew (pageId : Nat) (data : List UInt8) : UndoLogPage × List UInt8 :=
  let page : UndoLogPage := { pageId := pageId, lsn := 0, freeOffset := UNDO_HEADER_SIZE }
  (page, page.writeHeader data)

def load (data : List UInt8) : UndoLogPage :=
  let freeOffset := toNat (field data 16 4)
  { pageId := toNat (field data 0 8)
    lsn := toNat (field data 8 8)
    freeOffset := if freeOffset < UNDO_HEADER_SIZE then UNDO_HEADER_SIZE else freeOffset }

/-- The sum is one of 32 bits. -/
def hasSpaceFor (page : UndoLogPage) (payloadSize : Nat) : Bool :=
  (page.freeOffset + (UNDO_RECORD_OVERHEAD + payloadSize)) % 2 ^ 32 ≤ PAGE_SIZE

/-- `ReadRecord`, where it reads no bytes behind the page. -/
def readRecord (data : List UInt8) (offset : Nat) : Option RawUndoRecord :=
  let payloadSize := toNat (field data (offset + 20) 4)
  if offset + (UNDO_RECORD_OVERHEAD + payloadSize) ≤ data.length then
    some
      { oldRollPage := UInt64.ofNat (toNat (field data offset 8))
        oldRollSlot := UInt32.ofNat (toNat (field data (offset + 8) 4))
        oldTrxId := UInt64.ofNat (toNat (field data (offset + 12) 8))
        payload := field data (offset + UNDO_RECORD_OVERHEAD) payloadSize }
  else
    none

/-- `AppendRecord`: the offset of the record, the object and the bytes. A page whose
    record does not end in front of its end would become longer here. -/
def appendRecord (page : UndoLogPage) (data : List UInt8) (record : RawUndoRecord) :
    Option (Nat × UndoLogPage × List UInt8) :=
  if !page.hasSpaceFor record.payload.length then
    none
  else
    let offset := page.freeOffset
    let data := write data offset (ofNat 8 record.oldRollPage.toNat)
    let data := write data (offset + 8) (ofNat 4 record.oldRollSlot.toNat)
    let data := write data (offset + 12) (ofNat 8 record.oldTrxId.toNat)
    let data := write data (offset + 20) (ofNat 4 record.payload.length)
    let data := write data (offset + UNDO_RECORD_OVERHEAD) record.payload
    let page := { page with
      freeOffset :=
        (offset + (UNDO_RECORD_OVERHEAD + record.payload.length)) % 2 ^ 32 }
    some (offset, page, page.writeHeader data)

/-! ## What the page holds -/

variable {data : List UInt8} {page : UndoLogPage} {record : RawUndoRecord} {pageId offset : Nat}

/-- The header in one piece. -/
def header (page : UndoLogPage) : List UInt8 :=
  ofNat 8 page.pageId ++ ofNat 8 page.lsn ++ ofNat 4 page.freeOffset

@[simp] theorem length_header (page : UndoLogPage) : page.header.length = UNDO_HEADER_SIZE := by
  simp only [header, List.length_append, length_ofNat, UNDO_HEADER_SIZE]

/-- The fields of a record, from its bytes. -/
theorem field_encode (record : RawUndoRecord) :
    field record.encode 0 8 = ofNat 8 record.oldRollPage.toNat ∧
      field record.encode 8 4 = ofNat 4 record.oldRollSlot.toNat ∧
      field record.encode 12 8 = ofNat 8 record.oldTrxId.toNat ∧
      field record.encode 20 4 = ofNat 4 record.payload.length ∧
      field record.encode 24 record.payload.length = record.payload := by
  simp [RawUndoRecord.encode, field, List.drop_append, List.drop_of_length_le]

theorem writeHeader_eq (page : UndoLogPage) (data : List UInt8) :
    page.writeHeader data = write data 0 page.header := by
  have first := @write_write data 0 (Nat.zero_le _) (ofNat 8 page.pageId) (ofNat 8 page.lsn)
  have second := @write_write data 0 (Nat.zero_le _)
    (ofNat 8 page.pageId ++ ofNat 8 page.lsn) (ofNat 4 page.freeOffset)
  simp only [length_ofNat, List.length_append] at first second
  simp only [writeHeader, header, first, second]

/-- The five copies of `AppendRecord` are the record in one piece. -/
theorem appendRecord_eq (spaced : page.hasSpaceFor record.payload.length = true)
    (inside : page.freeOffset ≤ data.length) :
    page.appendRecord data record =
      let page' := { page with freeOffset := (page.freeOffset + record.size) % 2 ^ 32 }
      some (page.freeOffset, page', page'.writeHeader (write data page.freeOffset record.encode)) := by
  have first := write_write inside (ofNat 8 record.oldRollPage.toNat)
    (ofNat 4 record.oldRollSlot.toNat)
  have second := write_write inside
    (ofNat 8 record.oldRollPage.toNat ++ ofNat 4 record.oldRollSlot.toNat)
    (ofNat 8 record.oldTrxId.toNat)
  have third := write_write inside
    (ofNat 8 record.oldRollPage.toNat ++ ofNat 4 record.oldRollSlot.toNat ++
      ofNat 8 record.oldTrxId.toNat) (ofNat 4 record.payload.length)
  have fourth := write_write inside
    (ofNat 8 record.oldRollPage.toNat ++ ofNat 4 record.oldRollSlot.toNat ++
      ofNat 8 record.oldTrxId.toNat ++ ofNat 4 record.payload.length) record.payload
  simp only [length_ofNat, List.length_append] at first second third fourth
  simp only [appendRecord, spaced, UNDO_RECORD_OVERHEAD, RawUndoRecord.size, RawUndoRecord.encode,
    first, second, third, fourth, Bool.not_true, Bool.false_eq_true, if_false]

/-- A page with some records, one behind the other. -/
structure Packed (data : List UInt8) (entries : List (Nat × RawUndoRecord)) : Prop where
  sized : data.length = PAGE_SIZE
  header : UNDO_HEADER_SIZE ≤ toNat (field data 16 4)
  free : toNat (field data 16 4) ≤ PAGE_SIZE
  inside : ∀ entry ∈ entries,
    UNDO_HEADER_SIZE ≤ entry.1 ∧ entry.1 + entry.2.size ≤ toNat (field data 16 4)
  stored : ∀ entry ∈ entries, field data entry.1 entry.2.size = entry.2.encode
  apart : entries.Pairwise fun earlier later => earlier.1 + earlier.2.size ≤ later.1

variable {entries : List (Nat × RawUndoRecord)} {entry : Nat × RawUndoRecord}

theorem Packed.freeOffset (packed : Packed data entries) :
    (load data).freeOffset = toNat (field data 16 4) := if_neg (Nat.not_lt.mpr packed.header)

/-- The offset in a header that was written. -/
theorem field_writeHeader (page : UndoLogPage) (sized : data.length = PAGE_SIZE)
    (small : page.freeOffset < 2 ^ 32) :
    toNat (field (page.writeHeader data) 16 4) = page.freeOffset := by
  have here := @field_write_self (write (write data 0 (ofNat 8 page.pageId)) 8
    (ofNat 8 page.lsn)) (ofNat 4 page.freeOffset) 16 (by
      have := length_le_length_write data 0 (ofNat 8 page.pageId)
      have := length_le_length_write (write data 0 (ofNat 8 page.pageId)) 8 (ofNat 8 page.lsn)
      unfold PAGE_SIZE at sized
      omega)
  rw [length_ofNat] at here
  rw [writeHeader, here, toNat_ofNat_of_lt small]

theorem length_writeHeader (page : UndoLogPage) (sized : data.length = PAGE_SIZE) :
    (page.writeHeader data).length = PAGE_SIZE := by
  rw [writeHeader_eq, length_write, sized]
  rw [length_header, sized]
  decide

/-- The header does not touch what is behind it. -/
theorem field_writeHeader_behind (page : UndoLogPage) (behind : UNDO_HEADER_SIZE ≤ offset)
    (width : Nat) : field (page.writeHeader data) offset width = field data offset width := by
  rw [writeHeader_eq, field_write_behind (Nat.zero_le _)]
  rwa [length_header, Nat.zero_add]

theorem packed_initNew (pageId : Nat) (sized : data.length = PAGE_SIZE) :
    Packed (initNew pageId data).2 [] := by
  have free := field_writeHeader (initNew pageId data).1 sized (by simp [initNew, UNDO_HEADER_SIZE])
  refine
    { sized := length_writeHeader _ sized
      header := free.ge
      free := free.trans_le (by simp [initNew, UNDO_HEADER_SIZE, PAGE_SIZE])
      inside := by simp
      stored := by simp
      apart := .nil }

/-- A record that there is space for goes behind the others and leaves them alone. -/
theorem Packed.append (packed : Packed data entries)
    (here : page.freeOffset = toNat (field data 16 4))
    (small : record.payload.length < 2 ^ 16)
    (spaced : page.hasSpaceFor record.payload.length = true) :
    ∃ page' data', page.appendRecord data record = some (page.freeOffset, page', data') ∧
      Packed data' (entries ++ [(page.freeOffset, record)]) := by
  have header := here ▸ packed.header
  have free := here ▸ packed.free
  have sized := packed.sized
  have room : page.freeOffset + record.size ≤ PAGE_SIZE := by
    simp only [hasSpaceFor, decide_eq_true_eq] at spaced
    unfold RawUndoRecord.size
    unfold PAGE_SIZE UNDO_RECORD_OVERHEAD at *
    omega
  have wraps : (page.freeOffset + record.size) % 2 ^ 32 = page.freeOffset + record.size := by
    unfold PAGE_SIZE at room
    omega
  have written : (write data page.freeOffset record.encode).length = PAGE_SIZE := by
    rw [length_write, sized]
    rwa [RawUndoRecord.length_encode, sized]
  refine ⟨_, _, appendRecord_eq spaced (by omega), ?_⟩
  rw [wraps]
  have next := @field_writeHeader _ { page with freeOffset := page.freeOffset + record.size }
    written (by unfold PAGE_SIZE at room; exact Nat.lt_of_le_of_lt room (by decide))
  refine
    { sized := length_writeHeader _ written
      header := ?_
      free := ?_
      inside := ?_
      stored := ?_
      apart := ?_ }
  · rw [next]
    exact Nat.le_add_right_of_le header
  · rwa [next]
  · rw [next]
    intro entry member
    rcases List.mem_append.mp member with old | new
    · obtain ⟨front, inside⟩ := packed.inside entry old
      exact ⟨front, by simp only; omega⟩
    · obtain rfl := List.mem_singleton.mp new
      exact ⟨header, Nat.le_refl _⟩
  · intro entry member
    rcases List.mem_append.mp member with old | new
    · obtain ⟨front, inside⟩ := packed.inside entry old
      rw [field_writeHeader_behind _ front, field_write_before (by omega) (by omega)]
      exact packed.stored entry old
    · obtain rfl := List.mem_singleton.mp new
      have self := @field_write_self data record.encode page.freeOffset (by omega)
      rw [RawUndoRecord.length_encode] at self
      rw [field_writeHeader_behind _ header, self]
  · refine List.pairwise_append.mpr ⟨packed.apart, List.pairwise_singleton .., ?_⟩
    intro earlier old later new
    obtain rfl := List.mem_singleton.mp new
    exact here ▸ (packed.inside earlier old).2

/-- A record of the page is read as it was appended. -/
theorem Packed.readRecord (packed : Packed data entries) (member : entry ∈ entries) :
    readRecord data entry.1 = some entry.2 := by
  obtain ⟨-, inside⟩ := packed.inside entry member
  have free := packed.free
  have sized := packed.sized
  have stored := packed.stored entry member
  obtain ⟨rollPage, rollSlot, trxId, payloadSize, payload⟩ := field_encode entry.2
  unfold RawUndoRecord.size UNDO_RECORD_OVERHEAD PAGE_SIZE at *
  rw [← stored, field_field _ _ (by omega)] at rollPage rollSlot trxId payloadSize payload
  have small : toNat (field data (entry.1 + 20) 4) = entry.2.payload.length := by
    rw [payloadSize, toNat_ofNat_of_lt (by omega)]
  rw [Nat.add_zero] at rollPage
  rw [UndoLogPage.readRecord, small, if_pos (by unfold UNDO_RECORD_OVERHEAD; omega)]
  simp only [UNDO_RECORD_OVERHEAD, rollPage, rollSlot, trxId, payload, toNat_ofNat]
  simp

end UndoLogPage

end YourSQL
