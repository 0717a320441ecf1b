import YourSQL.Lib.Bytes
import YourSQL.Common.Types

/-! # The payload of a data record

`LogDataPayload::Encode` packs `table_id | page_id | row_id | image_size | image` and
`Decode` unpacks it. These are the bytes behind the payload that the executors log.
-/

namespace YourSQL.Wal

structure LogDataPayload where
  tableId : UInt64 := 0
  pageId : UInt64 := 0
  rowId : UInt64 := 0
  image : List UInt8 := []
  deriving Repr, DecidableEq

namespace LogDataPayload

/-- The bytes in front of the image. -/
def headerBytes : Nat := 28

def encode (p : LogDataPayload) : List UInt8 :=
  Bytes.ofNat 8 p.tableId.toNat ++ (Bytes.ofNat 8 p.pageId.toNat ++
    (Bytes.ofNat 8 p.rowId.toNat ++ (Bytes.ofNat 4 p.image.length ++ p.image)))

/-- A payload that is too short is none. -/
def decode (data : List UInt8) : LogDataPayload :=
  if data.length < headerBytes then
    {}
  else
    { tableId := UInt64.ofNat (Bytes.toNat (Bytes.field data 0 8))
      pageId := UInt64.ofNat (Bytes.toNat (Bytes.field data 8 8))
      rowId := UInt64.ofNat (Bytes.toNat (Bytes.field data 16 8))
      image := Bytes.field data headerBytes (Bytes.toNat (Bytes.field data 24 4)) }

@[simp] theorem length_encode (p : LogDataPayload) :
    p.encode.length = headerBytes + p.image.length := by
  simp [encode, headerBytes]
  omega

theorem decode_encode {p : LogDataPayload} (small : p.image.length < 2 ^ 32) :
    decode p.encode = p := by
  have tableId : Bytes.field p.encode 0 8 = Bytes.ofNat 8 p.tableId.toNat := by
    have := Bytes.field_between [] (Bytes.ofNat 8 p.tableId.toNat)
      (Bytes.ofNat 8 p.pageId.toNat ++ (Bytes.ofNat 8 p.rowId.toNat ++
        (Bytes.ofNat 4 p.image.length ++ p.image)))
    simpa [encode] using this
  have pageId : Bytes.field p.encode 8 8 = Bytes.ofNat 8 p.pageId.toNat := by
    have := Bytes.field_between (Bytes.ofNat 8 p.tableId.toNat) (Bytes.ofNat 8 p.pageId.toNat)
      (Bytes.ofNat 8 p.rowId.toNat ++ (Bytes.ofNat 4 p.image.length ++ p.image))
    simpa [encode] using this
  have rowId : Bytes.field p.encode 16 8 = Bytes.ofNat 8 p.rowId.toNat := by
    have := Bytes.field_between (Bytes.ofNat 8 p.tableId.toNat ++ Bytes.ofNat 8 p.pageId.toNat)
      (Bytes.ofNat 8 p.rowId.toNat) (Bytes.ofNat 4 p.image.length ++ p.image)
    simpa [encode] using this
  have size : Bytes.field p.encode 24 4 = Bytes.ofNat 4 p.image.length := by
    have := Bytes.field_between (Bytes.ofNat 8 p.tableId.toNat ++ (Bytes.ofNat 8 p.pageId.toNat ++
        Bytes.ofNat 8 p.rowId.toNat)) (Bytes.ofNat 4 p.image.length) p.image
    simpa [encode] using this
  have image : Bytes.field p.encode headerBytes p.image.length = p.image := by
    have := Bytes.field_between (Bytes.ofNat 8 p.tableId.toNat ++ (Bytes.ofNat 8 p.pageId.toNat ++
        (Bytes.ofNat 8 p.rowId.toNat ++ Bytes.ofNat 4 p.image.length))) p.image []
    simpa [encode, headerBytes] using this
  have tableIdSmall := p.tableId.toNat_lt
  have pageIdSmall := p.pageId.toNat_lt
  have rowIdSmall := p.rowId.toNat_lt
  have whole : ¬ p.encode.length < headerBytes := by
    rw [length_encode]
    omega
  rw [decode, if_neg whole, tableId, pageId, rowId, size,
    Bytes.toNat_ofNat_of_lt (by omega), Bytes.toNat_ofNat_of_lt (by omega),
    Bytes.toNat_ofNat_of_lt (by omega), Bytes.toNat_ofNat_of_lt (by omega), image,
    UInt64.ofNat_toNat, UInt64.ofNat_toNat, UInt64.ofNat_toNat]

end LogDataPayload

end YourSQL.Wal
