import YourSQL.Storage.TablePageBytes

/-! # What a table page holds

Where the records of a page are follows from their sizes. Each operation writes inside
the header, a slot or a record, and so leaves the rest of the page alone.
-/

namespace YourSQL

open Bytes

namespace RecordHeader

@[simp] theorem length_encode (header : RecordHeader) : header.encode.length = REC_HEADER_SIZE := by
  simp [encode, REC_HEADER_SIZE]

end RecordHeader

namespace Record

@[simp] theorem length_encode (record : Record) : record.encode.length = record.size := by
  simp [encode, size]

@[simp] theorem size_deleted (record : Record) (trxId : Nat) (rollPtr : UndoPointer) :
    (record.deleted trxId rollPtr).size = record.size := rfl

@[simp] theorem size_restored (record : Record) (header : RecordHeader) :
    (record.restored header).size = record.size := rfl

@[simp] theorem size_killed (record : Record) : record.killed.size = record.size := rfl

theorem size_decode {tuple : List UInt8} (sized : REC_HEADER_SIZE ≤ tuple.length) :
    (decode tuple).size = tuple.length := by
  simp only [size, decode, List.length_drop]
  omega

/-- A tuple is the bytes of the record it is taken for. -/
theorem encode_decode {tuple : List UInt8} (sized : REC_HEADER_SIZE ≤ tuple.length) :
    (decode tuple).encode = tuple := by
  unfold REC_HEADER_SIZE at sized
  have flags : toNat (field tuple 20 2) % 2 ^ 16 = toNat (field tuple 20 2) :=
    Nat.mod_eq_of_lt (toNat_field_lt tuple 20 2)
  simp only [encode, RecordHeader.encode, decode, BitVec.toNat_ofNat, flags]
  rw [ofNat_toNat_field (by omega), ofNat_toNat_field (by omega), ofNat_toNat_field (by omega),
    ofNat_toNat_field (by omega)]
  have first := field_append_field tuple 0 8 8
  have second := field_append_field tuple 0 16 4
  have third := field_append_field tuple 0 20 2
  simp only [Nat.zero_add] at first second third
  rw [first, second, third, field, List.drop_zero]
  exact List.take_append_drop ..

/-- The flags of a record, from its bytes. -/
theorem field_flags (record : Record) :
    field record.encode TablePageBytes.REC_FLAGS_OFFSET 2 = ofNat 2 record.flags.toNat := by
  simp [encode, RecordHeader.encode, field, TablePageBytes.REC_FLAGS_OFFSET, List.drop_append,
    List.drop_of_length_le]

theorem write_header (record : Record) (header : RecordHeader) :
    write record.encode 0 header.encode = (record.restored header).encode := by
  have replaced := @write_between record.toRecordHeader.encode header.encode (by simp) []
    record.payload
  simpa [encode, restored] using replaced

theorem write_dead (record : Record) :
    write record.encode TablePageBytes.REC_FLAGS_OFFSET
      (ofNat 2 (record.flags ||| RECORD_DEAD).toNat) = record.killed.encode := by
  have replaced := @write_between (ofNat 2 record.flags.toNat)
    (ofNat 2 (record.flags ||| RECORD_DEAD).toNat) (by simp)
    (ofNat 8 record.trxId ++ ofNat 8 record.rollPtr.pageId ++ ofNat 4 record.rollPtr.slot)
    record.payload
  simpa [encode, RecordHeader.encode, killed, TablePageBytes.REC_FLAGS_OFFSET] using replaced

end Record

namespace TablePageBytes

/-! ## Where the records are -/

/-- The offset of a record, from the sizes of those in front of it. -/
def start (records : List Record) (index : Nat) : Nat :=
  HEADER_SIZE + ((records.take index).map Record.size).sum

variable {records : List Record} {record record' : Record} {index other : Nat} {data : List UInt8}

theorem start_succ (found : records[index]? = some record) :
    start records (index + 1) = start records index + record.size := by
  simp [start, List.take_add_one, found, Nat.add_assoc]

theorem start_le (records : List Record) (le : index ≤ other) :
    start records index ≤ start records other := by
  induction le with
  | refl => exact Nat.le_refl _
  | step _ ih =>
      refine ih.trans ?_
      simp only [start, List.take_add_one, List.map_append, List.sum_append]
      omega

/-- Records stand one behind the other. -/
theorem start_add_le (found : records[index]? = some record) (behind : index < other) :
    start records index + record.size ≤ start records other :=
  start_succ found ▸ start_le records behind

theorem start_append (records more : List Record) (old : index ≤ records.length) :
    start (records ++ more) index = start records index := by
  rw [start, List.take_append_of_le_length old, start]

theorem sizes_set (found : records[index]? = some record) (same : record'.size = record.size) :
    (records.set index record').map Record.size = records.map Record.size := by
  obtain ⟨few, rfl⟩ := List.getElem?_eq_some_iff.mp found
  apply List.ext_getElem
  · simp
  · intro other _ _
    by_cases here : index = other
    · subst here
      simpa using same
    · simp [here]

/-- A record of the same size in its place moves no other. -/
theorem start_set (found : records[index]? = some record) (same : record'.size = record.size)
    (other : Nat) : start (records.set index record') other = start records other := by
  rw [start, List.map_take, sizes_set found same, ← List.map_take, start]

/-- The room that the records and their slots take. -/
def taken (records : List Record) : Nat := (records.map fun record => SLOT_SIZE + record.size).sum

theorem taken_set (found : records[index]? = some record) (same : record'.size = record.size) :
    taken (records.set index record') = taken records := by
  have sizes := congrArg (List.map (SLOT_SIZE + ·)) (sizes_set found same)
  rw [List.map_map, List.map_map] at sizes
  exact congrArg List.sum sizes

theorem taken_append (records : List Record) (record : Record) :
    taken (records ++ [record]) = taken records + (SLOT_SIZE + record.size) := by
  simp [taken]

/-- The end of the last record, and the slots. -/
theorem start_length (records : List Record) :
    start records records.length + SLOT_SIZE * records.length = HEADER_SIZE + taken records := by
  induction records using List.reverseRecOn with
  | nil => rfl
  | append_singleton rest record ih =>
      have last : (rest ++ [record])[rest.length]? = some record := by simp
      rw [List.length_append, List.length_singleton, start_succ last,
        start_append rest [record] (Nat.le_refl _), taken_append, Nat.mul_succ]
      omega

/-- The bytes of a page behind its header: the slots, and the records where they belong. -/
structure Body (data : List UInt8) (records : List Record) : Prop where
  sized : data.length = PAGE_SIZE
  room : HEADER_SIZE + taken records ≤ PAGE_SIZE
  slots : ∀ index record, records[index]? = some record →
    field data (slotOffset (index + 1)) SLOT_SIZE =
      ofNat 2 (start records index) ++ ofNat 2 record.size
  tuples : ∀ index record, records[index]? = some record →
    field data (start records index) record.size = record.encode

/-- Where a record ends, the slots have not begun. -/
theorem Body.inside (body : Body data records) (found : records[index]? = some record) :
    HEADER_SIZE ≤ start records index ∧
      start records index + record.size + SLOT_SIZE * records.length ≤ PAGE_SIZE := by
  have ends := start_length records
  have room := body.room
  have below := start_add_le found (List.getElem?_eq_some_iff.mp found).1
  exact ⟨Nat.le_add_right .., by omega⟩

theorem Body.init (sized : data.length = PAGE_SIZE) : Body data [] where
  sized := sized
  room := by decide
  slots := by simp
  tuples := by simp

/-- The header does not reach into the records. -/
theorem Body.write_header (body : Body data records) {header : List UInt8}
    (packed : header.length ≤ HEADER_SIZE) : Body (write data 0 header) records where
  sized := by
    rw [length_write, body.sized]
    rw [body.sized, Nat.zero_add]
    exact packed.trans (by decide)
  room := body.room
  slots := by
    intro index record found
    have inside := body.inside found
    have few := (List.getElem?_eq_some_iff.mp found).1
    rw [field_write_behind (Nat.zero_le _), body.slots index record found]
    unfold slotOffset SLOT_SIZE PAGE_SIZE at *
    omega
  tuples := by
    intro index record found
    have inside := body.inside found
    rw [field_write_behind (Nat.zero_le _), body.tuples index record found]
    omega

/-- A write inside a record changes this record and no other. -/
theorem Body.patch (body : Body data records) (found : records[index]? = some record)
    {pos : Nat} {bytes : List UInt8} (inside : pos + bytes.length ≤ record.size)
    (same : record'.size = record.size) (written : write record.encode pos bytes = record'.encode) :
    Body (write data (start records index + pos) bytes) (records.set index record') := by
  have sized := body.sized
  obtain ⟨front, ends⟩ := body.inside found
  refine
    { sized := ?_
      room := ?_
      slots := ?_
      tuples := ?_ }
  · rw [length_write (by omega), sized]
  · rw [taken_set found same]
    exact body.room
  · intro other record'' found'
    rw [start_set found same]
    obtain ⟨old, foundOld, sizes⟩ :
        ∃ old, records[other]? = some old ∧ record''.size = old.size := by
      by_cases here : index = other
      · subst here
        refine ⟨record, found, ?_⟩
        rw [List.getElem?_set_self (List.getElem?_eq_some_iff.mp found).1] at found'
        obtain rfl := Option.some.inj found'
        exact same
      · rw [List.getElem?_set_ne here] at found'
        exact ⟨record'', found', rfl⟩
    have few := (List.getElem?_eq_some_iff.mp foundOld).1
    have slots := body.slots other old foundOld
    have behind : start records index + record.size ≤ slotOffset (other + 1) := by
      unfold slotOffset SLOT_SIZE PAGE_SIZE at *
      omega
    rw [sizes, field_write_behind (by omega) (by omega), slots]
  · intro other record'' found'
    rw [start_set found same]
    by_cases here : index = other
    · subst here
      rw [List.getElem?_set_self (List.getElem?_eq_some_iff.mp found).1] at found'
      obtain rfl := Option.some.inj found'
      rw [same, field_write_inside inside (by omega), body.tuples index record found, written]
    · rw [List.getElem?_set_ne here] at found'
      obtain ⟨front', ends'⟩ := body.inside found'
      rw [field_write_of_disjoint (by omega) (by omega), body.tuples other record'' found']
      rcases Nat.lt_or_gt_of_ne here with above | below
      · have := start_add_le found above
        omega
      · have := start_add_le found' below
        omega

theorem found_append (found : (records ++ [record])[index]? = some record') :
    records[index]? = some record' ∨ index = records.length ∧ record' = record := by
  rw [List.getElem?_append] at found
  split at found
  · exact .inl found
  · obtain ⟨here, same⟩ := List.getElem?_eq_some_iff.mp found
    rw [List.length_singleton] at here
    exact .inr ⟨by omega, by simpa using same.symm⟩

/-- A record is put behind the others. -/
theorem Body.append (body : Body data records)
    (room : HEADER_SIZE + taken records + (SLOT_SIZE + record.size) ≤ PAGE_SIZE) :
    Body (write (write data (slotOffset (records.length + 1))
        (ofNat 2 (start records records.length) ++ ofNat 2 record.size))
      (start records records.length) record.encode) (records ++ [record]) := by
  have sized := body.sized
  have ends := start_length records
  have slot : slotOffset (records.length + 1) + SLOT_SIZE * (records.length + 1) = PAGE_SIZE := by
    unfold slotOffset SLOT_SIZE PAGE_SIZE at *
    omega
  have width : (ofNat 2 (start records records.length) ++ ofNat 2 record.size).length = SLOT_SIZE := by
    simp [SLOT_SIZE]
  have between : start records records.length + record.size ≤ slotOffset (records.length + 1) := by
    rw [Nat.mul_succ] at slot
    omega
  have inner : slotOffset (records.length + 1) + SLOT_SIZE ≤ data.length := by
    rw [Nat.mul_succ] at slot
    omega
  have sized' : (write data (slotOffset (records.length + 1))
      (ofNat 2 (start records records.length) ++ ofNat 2 record.size)).length = PAGE_SIZE := by
    rw [length_write (by omega), sized]
  refine
    { sized := ?_
      room := ?_
      slots := ?_
      tuples := ?_ }
  · rw [length_write (by rw [Record.length_encode]; omega), sized']
  · rw [taken_append]
    omega
  · intro index record' found
    rcases found_append found with old | ⟨rfl, rfl⟩
    · obtain ⟨front, inside⟩ := body.inside old
      have few := (List.getElem?_eq_some_iff.mp old).1
      have above : slotOffset (records.length + 1) + SLOT_SIZE ≤ slotOffset (index + 1) ∧
          slotOffset (index + 1) + SLOT_SIZE ≤ PAGE_SIZE := by
        unfold slotOffset SLOT_SIZE PAGE_SIZE at *
        omega
      rw [field_write_behind (by omega) (by rw [Record.length_encode]; omega),
        field_write_behind (by omega) (by omega), start_append records [record] few.le,
        body.slots index record' old]
    · have self := @field_write_self data (ofNat 2 (start records records.length) ++
        ofNat 2 record'.size) (slotOffset (records.length + 1)) (by omega)
      rw [width] at self
      rw [field_write_behind (by omega) (by rw [Record.length_encode]; omega), self,
        start_append records [record'] (Nat.le_refl _)]
  · intro index record' found
    rcases found_append found with old | ⟨rfl, rfl⟩
    · obtain ⟨front, inside⟩ := body.inside old
      have few := (List.getElem?_eq_some_iff.mp old).1
      have below := start_add_le old few
      rw [start_append records [record] few.le, field_write_before (by omega) (by omega),
        field_write_before (by omega) (by omega), body.tuples index record' old]
    · have self := @field_write_self (write data (slotOffset (records.length + 1))
        (ofNat 2 (start records records.length) ++ ofNat 2 record'.size)) record'.encode
        (start records records.length) (by omega)
      rw [Record.length_encode] at self
      rw [start_append records [record'] (Nat.le_refl _), self]

/-! ## The object and its page -/

/-- The header in one piece. -/
def headerBytes (header : TableHeader) : List UInt8 :=
  ofNat 2 header.version ++ ofNat 4 header.numRows ++ ofNat 8 header.pageId ++
    ofNat 8 header.nextPageId ++ ofNat 8 header.lsn

@[simp] theorem length_headerBytes (header : TableHeader) : (headerBytes header).length = 30 := by
  simp [headerBytes]

theorem writeHeader_eq (page : TablePageBytes) :
    page.writeHeader = page.memcpy 0 (headerBytes page.header) := by
  have first := @write_write page.data 0 (Nat.zero_le _) (ofNat 2 page.header.version)
    (ofNat 4 page.header.numRows)
  have second := @write_write page.data 0 (Nat.zero_le _)
    (ofNat 2 page.header.version ++ ofNat 4 page.header.numRows) (ofNat 8 page.header.pageId)
  have third := @write_write page.data 0 (Nat.zero_le _)
    (ofNat 2 page.header.version ++ ofNat 4 page.header.numRows ++ ofNat 8 page.header.pageId)
    (ofNat 8 page.header.nextPageId)
  have fourth := @write_write page.data 0 (Nat.zero_le _)
    (ofNat 2 page.header.version ++ ofNat 4 page.header.numRows ++ ofNat 8 page.header.pageId ++
      ofNat 8 page.header.nextPageId) (ofNat 8 page.header.lsn)
  simp only [length_ofNat, List.length_append, Nat.zero_add, Nat.reduceAdd] at first second third
  simp only [length_ofNat, List.length_append, Nat.zero_add, Nat.reduceAdd] at fourth
  simp only [writeHeader, memcpy, headerBytes, first, second, third, fourth]

/-- The object, its page and the records agree. -/
structure Layout (page : TablePageBytes) (records : List Record) : Prop where
  body : Body page.data records
  header : field page.data 0 30 = headerBytes page.header
  numRows : page.header.numRows = records.length
  version : page.header.version < 256 ^ 2
  pageId : page.header.pageId < 256 ^ 8
  nextPageId : page.header.nextPageId < 256 ^ 8
  lsn : page.header.lsn < 256 ^ 8
  freeSize : page.freeSize + taken records = PAGE_SIZE - HEADER_SIZE

variable {page : TablePageBytes} {header : TableHeader}

/-- The header of an object is written to a page whose other bytes fit. -/
theorem Layout.of_writeHeader (body : Body page.data records)
    (numRows : page.header.numRows = records.length) (version : page.header.version < 256 ^ 2)
    (pageId : page.header.pageId < 256 ^ 8) (nextPageId : page.header.nextPageId < 256 ^ 8)
    (lsn : page.header.lsn < 256 ^ 8)
    (freeSize : page.freeSize + taken records = PAGE_SIZE - HEADER_SIZE) :
    Layout page.writeHeader records := by
  rw [writeHeader_eq]
  refine
    { body := body.write_header (by rw [length_headerBytes]; decide)
      header := ?_
      numRows := numRows
      version := version
      pageId := pageId
      nextPageId := nextPageId
      lsn := lsn
      freeSize := freeSize }
  have self := @field_write_self page.data (headerBytes page.header) 0 (Nat.zero_le _)
  rwa [length_headerBytes] at self

theorem layout_init {pageId : Nat} (small : pageId < 256 ^ 8) (sized : data.length = PAGE_SIZE) :
    Layout (init pageId data) [] :=
  .of_writeHeader (.init sized) rfl (Nat.pow_pos (by omega)) small (Nat.pow_pos (by omega))
    (Nat.pow_pos (by omega)) rfl

theorem Layout.setNextPageId (layout : Layout page records) {nextPageId : Nat}
    (small : nextPageId < 256 ^ 8) : Layout (page.setNextPageId nextPageId) records :=
  .of_writeHeader layout.body layout.numRows layout.version layout.pageId small layout.lsn
    layout.freeSize

theorem Layout.setLsn (layout : Layout page records) {lsn : Nat} (small : lsn < 256 ^ 8) :
    Layout (page.setLsn lsn) records :=
  .of_writeHeader layout.body layout.numRows layout.version layout.pageId layout.nextPageId small
    layout.freeSize

/-- What `UpdateTableRows` does is not in the page. -/
theorem Layout.updateTableRows (layout : Layout page records) (change : Int) :
    Layout (page.updateTableRows change) records :=
  ⟨layout.body, layout.header, layout.numRows, layout.version, layout.pageId, layout.nextPageId,
    layout.lsn, layout.freeSize⟩

/-! ## What is read -/

theorem Body.readSlot (body : Body page.data records) (found : records[index]? = some record) :
    page.recordOffset (index + 1) = start records index ∧
      page.readNat (slotOffset (index + 1) + 2) 2 = record.size := by
  have slot := body.slots index record found
  obtain ⟨-, ends⟩ := body.inside found
  unfold SLOT_SIZE PAGE_SIZE at *
  have offset : field page.data (slotOffset (index + 1)) 2 = ofNat 2 (start records index) := by
    have inner := @field_field page.data (slotOffset (index + 1)) 4 0 2 (by omega)
    rw [slot] at inner
    simpa [field] using inner.symm
  have size : field page.data (slotOffset (index + 1) + 2) 2 = ofNat 2 record.size := by
    have inner := @field_field page.data (slotOffset (index + 1)) 4 2 2 (by omega)
    rw [slot] at inner
    simpa [field, List.take_of_length_le] using inner.symm
  simp only [recordOffset, readNat, offset, size]
  exact ⟨toNat_ofNat_of_lt (by omega), toNat_ofNat_of_lt (by omega)⟩

theorem Body.getTuple (body : Body page.data records) (found : records[index]? = some record) :
    page.getTuple (index + 1) = (record.size, record.encode) := by
  obtain ⟨offset, size⟩ := body.readSlot found
  simp only [recordOffset] at offset
  simp only [TablePageBytes.getTuple, offset, size, body.tuples index record found]

theorem Body.readRecordFlags (body : Body page.data records)
    (found : records[index]? = some record) : page.readRecordFlags (index + 1) = record.flags := by
  have inner := @field_field page.data (start records index) record.size REC_FLAGS_OFFSET 2 (by
    unfold Record.size REC_HEADER_SIZE REC_FLAGS_OFFSET
    omega)
  rw [body.tuples index record found, Record.field_flags] at inner
  rw [TablePageBytes.readRecordFlags, (body.readSlot found).1, readNat, ← inner,
    toNat_ofNat_of_lt (by simpa using record.flags.isLt)]
  exact BitVec.ofNat_toNat ..

theorem field_headerBytes (header : TableHeader) :
    field (headerBytes header) 0 2 = ofNat 2 header.version ∧
      field (headerBytes header) 2 4 = ofNat 4 header.numRows ∧
      field (headerBytes header) 6 8 = ofNat 8 header.pageId ∧
      field (headerBytes header) 14 8 = ofNat 8 header.nextPageId ∧
      field (headerBytes header) 22 8 = ofNat 8 header.lsn := by
  simp [headerBytes, field, List.drop_append, List.drop_of_length_le, List.take_of_length_le]

theorem subtract_eq {n k : Nat} (small : n < 2 ^ 32) (le : k ≤ n) : subtract n k = n - k := by
  unfold subtract
  omega

theorem few_of_room (room : HEADER_SIZE + taken records ≤ PAGE_SIZE) :
    SLOT_SIZE * records.length ≤ taken records ∧ records.length < 256 ^ 4 := by
  have ends := start_length records
  have front : HEADER_SIZE ≤ start records records.length := Nat.le_add_right ..
  unfold SLOT_SIZE PAGE_SIZE at *
  omega

theorem taken_eq (records : List Record) :
    taken records = SLOT_SIZE * records.length + (records.map Record.size).sum := by
  have ends := start_length records
  rw [start, List.take_length] at ends
  omega

/-- The sizes that the slots give are those of the records. -/
theorem Body.sizes (body : Body data records) :
    ((List.range records.length).map fun index =>
      toNat (field data (slotOffset (index + 1) + 2) 2)) = records.map Record.size := by
  apply List.ext_getElem
  · simp
  · intro index few _
    have few : index < records.length := by simpa using few
    have found : records[index]? = some records[index] := List.getElem?_eq_getElem few
    have read := (@Body.readSlot records records[index] index ⟨{}, 0, data, []⟩ body found).2
    simp only [List.getElem_map, List.getElem_range]
    exact read

/-- Another object for the page is like this one. -/
theorem Layout.load (layout : Layout page records) :
    load page.data = { page with rowChanges := [] } := by
  have inner : ∀ {pos width : Nat}, pos + width ≤ 30 →
      field page.data pos width = field (headerBytes page.header) pos width := by
    intro pos width inside
    rw [← layout.header, field_field _ _ inside, Nat.zero_add]
  obtain ⟨version, numRows, pageId, nextPageId, lsn⟩ := field_headerBytes page.header
  have room := layout.body.room
  obtain ⟨-, few⟩ := few_of_room room
  have rows : toNat (field page.data NUM_ROWS_OFFSET 4) = records.length := by
    rw [NUM_ROWS_OFFSET, inner (by omega), numRows, layout.numRows, toNat_ofNat_of_lt few]
  have free : subtract (PAGE_SIZE - HEADER_SIZE)
      (SLOT_SIZE * records.length + (records.map Record.size).sum) = page.freeSize := by
    have freeSize := layout.freeSize
    rw [← taken_eq, subtract_eq (by decide) (by omega)]
    omega
  simp only [TablePageBytes.load, rows, layout.body.sizes, free]
  rw [inner (by omega), inner (by omega), inner (by omega), inner (by omega), version, pageId,
    nextPageId, lsn, toNat_ofNat_of_lt layout.version, toNat_ofNat_of_lt layout.pageId,
    toNat_ofNat_of_lt layout.nextPageId, toNat_ofNat_of_lt layout.lsn, ← layout.numRows]

/-! ## The operations -/

theorem writeRecordHeader_eq (page : TablePageBytes) {offset : Nat} (header : RecordHeader)
    (inside : offset ≤ page.data.length) :
    page.writeRecordHeader offset header = page.memcpy offset header.encode := by
  have first := write_write inside (ofNat 8 header.trxId) (ofNat 8 header.rollPtr.pageId)
  have second := write_write inside (ofNat 8 header.trxId ++ ofNat 8 header.rollPtr.pageId)
    (ofNat 4 header.rollPtr.slot)
  have third := write_write inside (ofNat 8 header.trxId ++ ofNat 8 header.rollPtr.pageId ++
    ofNat 4 header.rollPtr.slot) (ofNat 2 header.flags.toNat)
  simp only [length_ofNat, List.length_append, Nat.reduceAdd] at first second third
  simp only [writeRecordHeader, memcpy, RecordHeader.encode, REC_ROLLPTR_OFFSET, REC_FLAGS_OFFSET,
    Nat.add_assoc, Nat.reduceAdd] at first second third ⊢
  simp only [first, second, third]

/-- Bytes inside a record are written, and nothing else. -/
theorem Layout.patch (layout : Layout page records) (found : records[index]? = some record)
    {pos : Nat} {bytes : List UInt8} (inside : pos + bytes.length ≤ record.size)
    (same : record'.size = record.size) (written : write record.encode pos bytes = record'.encode) :
    Layout (page.memcpy (start records index + pos) bytes) (records.set index record') := by
  obtain ⟨front, ends⟩ := layout.body.inside found
  have sized := layout.body.sized
  refine
    { body := layout.body.patch found inside same written
      header := ?_
      numRows := layout.numRows.trans (List.length_set ..).symm
      version := layout.version
      pageId := layout.pageId
      nextPageId := layout.nextPageId
      lsn := layout.lsn
      freeSize := (taken_set found same).symm ▸ layout.freeSize }
  unfold HEADER_SIZE at front
  rw [memcpy, field_write_before (by unfold PAGE_SIZE at sized; omega) (by omega)]
  exact layout.header

theorem Layout.writeRecordHeader (layout : Layout page records)
    (found : records[index]? = some record) (header : RecordHeader) :
    Layout (page.writeRecordHeader (page.recordOffset (index + 1)) header)
      (records.set index (record.restored header)) := by
  obtain ⟨front, ends⟩ := layout.body.inside found
  have sized := layout.body.sized
  rw [(layout.body.readSlot found).1, writeRecordHeader_eq _ _ (by omega)]
  have inside : 0 + header.encode.length ≤ record.size := by
    rw [RecordHeader.length_encode, Record.size]
    omega
  exact layout.patch found inside rfl (record.write_header header)

theorem Layout.markDelete (layout : Layout page records) (found : records[index]? = some record)
    (trxId : Nat) (rollPtr : UndoPointer) :
    Layout (page.markDelete (index + 1) trxId rollPtr)
      (records.set index (if record.isDel then record else record.deleted trxId rollPtr)) := by
  simp only [TablePageBytes.markDelete, layout.body.readRecordFlags found]
  cases deleted : record.flags.isDel with
  | true =>
      have same : records.set index record = records := by
        obtain ⟨few, rfl⟩ := List.getElem?_eq_some_iff.mp found
        exact List.set_getElem_self few
      simpa [Record.isDel, deleted, same] using layout
  | false =>
      have written := layout.writeRecordHeader found
        { trxId := trxId, rollPtr := rollPtr, flags := record.flags ||| RECORD_DEL }
      simp only [Record.isDel, deleted, Bool.false_eq_true, if_false]
      exact written.updateTableRows (-1)

theorem Layout.restoreRecord (layout : Layout page records)
    (found : records[index]? = some record) (header : RecordHeader) :
    Layout (page.restoreRecord (index + 1) header)
      (records.set index (record.restored header)) := by
  have written := layout.writeRecordHeader found header
  simp only [TablePageBytes.restoreRecord]
  split
  · exact written.updateTableRows 1
  · exact written

theorem Layout.markDead (layout : Layout page records) (found : records[index]? = some record) :
    Layout (page.markDead (index + 1)) (records.set index record.killed) := by
  have written : Layout (page.memcpy (page.recordOffset (index + 1) + REC_FLAGS_OFFSET)
      (ofNat 2 (record.flags ||| RECORD_DEAD).toNat)) (records.set index record.killed) := by
    rw [(layout.body.readSlot found).1]
    refine layout.patch found ?_ rfl record.write_dead
    simp only [length_ofNat, REC_FLAGS_OFFSET, Record.size, REC_HEADER_SIZE]
    omega
  simp only [TablePageBytes.markDead, layout.body.readRecordFlags found]
  split
  · exact written.updateTableRows (-1)
  · exact written

/-- Only the constructor sets the page id of the header. -/
theorem pageId_insertTuple (page : TablePageBytes) (tuple : List UInt8) :
    (page.insertTuple tuple).2.header.pageId = page.header.pageId := by
  unfold insertTuple
  split <;> rfl

theorem header_markDelete (page : TablePageBytes) (rowId trxId : Nat) (rollPtr : UndoPointer) :
    (page.markDelete rowId trxId rollPtr).header = page.header := by
  simp only [markDelete]
  split <;> rfl

theorem header_restoreRecord (page : TablePageBytes) (rowId : Nat) (header : RecordHeader) :
    (page.restoreRecord rowId header).header = page.header := by
  simp only [restoreRecord]
  split <;> rfl

theorem header_markDead (page : TablePageBytes) (rowId : Nat) :
    (page.markDead rowId).header = page.header := by
  simp only [markDead]
  split <;> rfl

/-- A tuple is refused where its record and slot do not fit. -/
theorem insertTuple_none (tuple : List UInt8) :
    (page.insertTuple tuple).1 = none ↔ page.hasSpaceFor tuple.length = false := by
  simp only [insertTuple, hasSpaceFor]
  split <;> simp_all

theorem insertTuple_refused {tuple : List UInt8} (refused : (page.insertTuple tuple).1 = none) :
    (page.insertTuple tuple).2 = page := by
  unfold insertTuple at refused ⊢
  split
  · rfl
  · rename_i spaced
    rw [if_neg spaced] at refused
    cases refused

/-- The tuple goes where the last record ends. -/
theorem Layout.tupleOffset (layout : Layout page records) :
    (if page.header.numRows = 0 then HEADER_SIZE
      else (page.readNat (PAGE_SIZE - SLOT_SIZE * page.header.numRows) 2 +
        page.readNat (PAGE_SIZE - SLOT_SIZE * page.header.numRows + 2) 2) % 2 ^ 16) =
      start records records.length := by
  rw [layout.numRows]
  cases records using List.reverseRecOn with
  | nil => rfl
  | append_singleton rest record =>
      have last : (rest ++ [record])[rest.length]? = some record := by simp
      have slot : PAGE_SIZE - SLOT_SIZE * (rest ++ [record]).length = slotOffset (rest.length + 1) := by
        rw [slotOffset, List.length_append, List.length_singleton, Nat.mul_comm]
      obtain ⟨offset, size⟩ := layout.body.readSlot last
      obtain ⟨-, ends⟩ := layout.body.inside last
      rw [if_neg (by simp), slot, size, ← recordOffset, offset, List.length_append,
        List.length_singleton, start_succ last, Nat.mod_eq_of_lt]
      unfold PAGE_SIZE at ends
      omega

theorem Layout.insertTuple (layout : Layout page records) {tuple : List UInt8}
    (sized : REC_HEADER_SIZE ≤ tuple.length) (spaced : page.hasSpaceFor tuple.length = true) :
    ∃ page', page.insertTuple tuple = (some ⟨page.header.pageId, records.length + 1⟩, page') ∧
      Layout page' (records ++ [Record.decode tuple]) := by
  have freeSize := layout.freeSize
  have fits : tuple.length + SLOT_SIZE ≤ page.freeSize := by simpa [hasSpaceFor] using spaced
  have size := Record.size_decode sized
  have room : HEADER_SIZE + taken records + (SLOT_SIZE + (Record.decode tuple).size) ≤ PAGE_SIZE := by
    have front : HEADER_SIZE ≤ PAGE_SIZE := by decide
    omega
  have left : subtract page.freeSize (SLOT_SIZE + tuple.length) =
      page.freeSize - (SLOT_SIZE + tuple.length) := by
    refine subtract_eq ?_ (by omega)
    unfold PAGE_SIZE at freeSize
    omega
  have slot : PAGE_SIZE - SLOT_SIZE * page.header.numRows - SLOT_SIZE =
      slotOffset (records.length + 1) := by
    rw [slotOffset, layout.numRows, Nat.sub_sub, Nat.succ_mul, Nat.mul_comm]
  have fused := @write_write page.data (slotOffset (records.length + 1)) (by
    rw [layout.body.sized]
    exact Nat.sub_le ..) (ofNat 2 (start records records.length)) (ofNat 2 tuple.length)
  rw [length_ofNat] at fused
  have body := layout.body.append room
  rw [size, Record.encode_decode sized] at body
  have refused : ¬ tuple.length + SLOT_SIZE > page.freeSize := by omega
  let filled : TablePageBytes :=
    { page with
      header := { page.header with numRows := page.header.numRows + 1 }
      freeSize := page.freeSize - (SLOT_SIZE + tuple.length)
      data := write (write page.data (slotOffset (records.length + 1))
        (ofNat 2 (start records records.length) ++ ofNat 2 tuple.length))
        (start records records.length) tuple }
  have written : Layout filled.writeHeader (records ++ [Record.decode tuple]) := by
    refine .of_writeHeader body ?_ layout.version layout.pageId layout.nextPageId layout.lsn ?_
    · rw [List.length_append, List.length_singleton, ← layout.numRows]
    · rw [taken_append, size]
      show page.freeSize - (SLOT_SIZE + tuple.length) + _ = _
      omega
  refine ⟨filled.writeHeader.updateTableRows 1, ?_, written.updateTableRows 1⟩
  rw [TablePageBytes.insertTuple, if_neg refused]
  simp only [layout.tupleOffset, slot, memcpy, fused, left]
  exact congrArg (fun numRows => (some (RID.mk page.header.pageId (numRows + 1)),
    filled.writeHeader.updateTableRows 1)) layout.numRows

/-- The page is the table image with these records. -/
theorem Layout.image (layout : Layout page records) :
    page.freeSize = TablePage.freeSpace records ∧
      ∀ rowId record, (TableImage.mk page.header records).slot rowId = some record →
        page.getTuple rowId = (record.size, record.encode) := by
  constructor
  · have freeSize := layout.freeSize
    rw [TablePage.freeSpace, ← taken]
    omega
  · intro rowId record found
    cases rowId with
    | zero => cases found
    | succ index => exact layout.body.getTuple found

end TablePageBytes

end YourSQL
