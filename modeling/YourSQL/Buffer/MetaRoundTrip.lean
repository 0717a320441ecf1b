import YourSQL.Lib.Index
import YourSQL.Buffer.MetaPage

/-! # A meta page is read back as it was

While the object of a meta page is used, its maps and the bytes of its page stand for the
same list of entries. A new object over these bytes finds the list and fills the same maps.
-/

namespace YourSQL.Stored

variable {m : MetaPage} {entries : List MetaItem} {item : MetaItem}

/-! ## Reading what was written -/

theorem readNat_of_drop {width n offset : Nat} {tail : List UInt8}
    (rest : m.data.drop offset = Bytes.ofNat width n ++ tail) (small : n < 256 ^ width) :
    m.readNat offset width = n ∧ m.data.drop (offset + width) = tail := by
  have read := Bytes.field_of_drop rest
  rw [Bytes.length_ofNat] at read
  exact ⟨by rw [MetaPage.readNat, read.1, Bytes.toNat_ofNat_of_lt small], read.2⟩

theorem readNat_byte {byte : UInt8} {offset : Nat} {tail : List UInt8}
    (rest : m.data.drop offset = [byte] ++ tail) :
    UInt8.ofNat (m.readNat offset 1) = byte ∧ m.data.drop (offset + 1) = tail := by
  have read := Bytes.field_of_drop rest
  rw [List.length_singleton] at read
  exact ⟨by rw [MetaPage.readNat, read.1]; simp [Bytes.toNat], read.2⟩

theorem readNat_word {word : UInt64} {offset : Nat} {tail : List UInt8}
    (rest : m.data.drop offset = Bytes.ofNat 8 word.toNat ++ tail) :
    UInt64.ofNat (m.readNat offset 8) = word ∧ m.data.drop (offset + 8) = tail := by
  have bound := word.toNat_lt
  have read := readNat_of_drop rest (by omega)
  exact ⟨by rw [read.1, UInt64.ofNat_toNat], read.2⟩

/-- Lengths on a page need no more than the eight bytes they are stored in. -/
theorem length_lt_of_drop {offset : Nat} {bytes tail : List UInt8}
    (page : m.data.length ≤ PAGE_SIZE) (rest : m.data.drop offset = bytes ++ tail) :
    bytes.length < 256 ^ 8 := by
  have size := congrArg List.length rest
  simp only [List.length_drop, List.length_append] at size
  have : PAGE_SIZE < 256 ^ 8 := by decide
  omega

theorem readColumn_encode {column : MetaColumnItem} {offset : Nat} {tail : List UInt8}
    (page : m.data.length ≤ PAGE_SIZE) (rest : m.data.drop offset = column.encode ++ tail) :
    m.readColumn offset = (column, offset + column.encode.length) ∧
      m.data.drop (offset + column.encode.length) = tail := by
  have size : column.encode.length = 8 + column.columnName.length + 1 + 1 + 8 := by
    simp [MetaColumnItem.encode]
    omega
  have small : column.columnName.length < 256 ^ 8 := by
    have := length_lt_of_drop page rest
    omega
  simp only [MetaColumnItem.encode, List.append_assoc] at rest
  obtain ⟨nameSize, rest⟩ := readNat_of_drop rest small
  obtain ⟨name, rest⟩ := Bytes.field_of_drop rest
  obtain ⟨type, rest⟩ := readNat_byte rest
  obtain ⟨flags, rest⟩ := readNat_byte rest
  obtain ⟨columnId, rest⟩ := readNat_word rest
  rw [size]
  simp only [← Nat.add_assoc]
  exact ⟨by simp only [MetaPage.readColumn, nameSize, name, type, flags, columnId], rest⟩

theorem readColumns_encode {columns : List MetaColumnItem} {offset : Nat} {tail : List UInt8}
    (page : m.data.length ≤ PAGE_SIZE)
    (rest : m.data.drop offset = columns.flatMap MetaColumnItem.encode ++ tail) :
    m.readColumns columns.length offset =
        (columns, offset + (columns.flatMap MetaColumnItem.encode).length) ∧
      m.data.drop (offset + (columns.flatMap MetaColumnItem.encode).length) = tail := by
  induction columns generalizing offset with
  | nil => exact ⟨rfl, rest⟩
  | cons column columns ih =>
      rw [List.flatMap_cons, List.append_assoc] at rest
      obtain ⟨first, rest⟩ := readColumn_encode page rest
      obtain ⟨others, rest⟩ := ih rest
      rw [List.flatMap_cons, List.length_append, ← Nat.add_assoc]
      refine ⟨?_, rest⟩
      simp only [List.length_cons, MetaPage.readColumns, first, others]

theorem length_le_length_encode (columns : List MetaColumnItem) :
    columns.length ≤ (columns.flatMap MetaColumnItem.encode).length := by
  induction columns with
  | nil => exact Nat.le_refl _
  | cons column columns ih =>
      have size : 1 ≤ column.encode.length := by
        simp [MetaColumnItem.encode]
        omega
      simp only [List.flatMap_cons, List.length_append, List.length_cons]
      omega

theorem length_encode (item : MetaItem) : item.encode.length =
    8 + item.tableName.length + 8 + 8 + 8 + 8 + 8 + 8 +
      (item.items.flatMap MetaColumnItem.encode).length := by
  simp only [MetaItem.encode, MetaItem.encodeName, MetaItem.encodeTail, List.length_append,
    Bytes.length_ofNat]
  omega

/-- The reader finds an entry again that says itself where it stands. -/
theorem readItem_encode {tail : List UInt8} (page : m.data.length ≤ PAGE_SIZE)
    (rest : m.data.drop item.offset = item.encode ++ tail) :
    m.readItem item.offset = (item, item.offset + item.encode.length) ∧
      m.data.drop (item.offset + item.encode.length) = tail := by
  have size := length_encode item
  have whole := length_lt_of_drop page rest
  have named : item.tableName.length < 256 ^ 8 := by omega
  have counted : item.items.length < 256 ^ 8 := by
    have := length_le_length_encode item.items
    omega
  have placed : item.offset < 256 ^ 8 := by
    have nonempty : m.data.drop item.offset ≠ [] := by
      intro none
      rw [none] at rest
      have := congrArg List.length rest
      simp only [List.length_nil, List.length_append] at this
      omega
    have := List.drop_eq_nil_iff.not.mp nonempty
    have : PAGE_SIZE < 256 ^ 8 := by decide
    omega
  simp only [MetaItem.encode, MetaItem.encodeName, MetaItem.encodeTail, List.append_assoc] at rest
  obtain ⟨len, rest⟩ := readNat_of_drop rest named
  obtain ⟨name, rest⟩ := Bytes.field_of_drop rest
  obtain ⟨firstId, rest⟩ := readNat_word rest
  obtain ⟨rows, rest⟩ := readNat_word rest
  obtain ⟨tableId, rest⟩ := readNat_word rest
  obtain ⟨lastPageId, rest⟩ := readNat_word rest
  obtain ⟨-, rest⟩ := readNat_of_drop rest placed
  obtain ⟨columnSize, rest⟩ := readNat_of_drop rest counted
  obtain ⟨columns, rest⟩ := readColumns_encode page rest
  rw [size]
  simp only [← Nat.add_assoc]
  refine ⟨?_, rest⟩
  simp only [MetaPage.readItem, len, name, firstId, rows, tableId, lastPageId, columnSize, columns]

def encodeAll (entries : List MetaItem) : List UInt8 := entries.flatMap MetaItem.encode

/-- Each entry knows its place behind the one before it. -/
def Placed : (offset : Nat) → List MetaItem → Prop
  | _, [] => True
  | offset, item :: entries => item.offset = offset ∧ Placed (offset + item.encode.length) entries

theorem readItems_encode {offset : Nat} {tail : List UInt8} (page : m.data.length ≤ PAGE_SIZE)
    (placed : Placed offset entries) (rest : m.data.drop offset = encodeAll entries ++ tail) :
    m.readItems entries.length offset = (entries, offset + (encodeAll entries).length) := by
  induction entries generalizing offset with
  | nil => rfl
  | cons item entries ih =>
      obtain ⟨here, later⟩ := placed
      subst here
      rw [encodeAll, List.flatMap_cons, List.append_assoc] at rest
      obtain ⟨first, rest⟩ := readItem_encode page rest
      have others := ih later rest
      rw [encodeAll, List.flatMap_cons, List.length_append, ← Nat.add_assoc]
      simp only [List.length_cons, MetaPage.readItems, first, others]
      rfl

/-! ## The object and its page -/

def header (version tableSize lastPoint : Nat) : List UInt8 :=
  Bytes.ofNat 8 version ++ (Bytes.ofNat 8 tableSize ++ Bytes.ofNat 8 lastPoint)

/-- The three maps, filled with the entries. -/
structure Known (m : MetaPage) (entries : List MetaItem) : Prop where
  names : (entries.map MetaItem.tableName).Nodup
  ids : (entries.map MetaItem.tableId).Nodup
  nameTables : m.nameTables =
    Index.fill MetaItem.tableName MetaItem.firstPageId entries fun _ => none
  idTables : m.idTables = Index.fill MetaItem.tableId MetaItem.firstPageId entries fun _ => none
  items : m.items = Index.fill MetaItem.tableId id entries fun _ => none

/-- The bytes of the page: header, entries, and what nobody reads. -/
structure Written (m : MetaPage) (entries : List MetaItem) : Prop where
  bytes : ∃ tail, m.data =
    header m.version m.tableSize m.lastPoint ++ (encodeAll entries ++ tail)
  page : m.data.length = PAGE_SIZE
  version : m.version = META_INIT_VERSION
  tableSize : m.tableSize = entries.length
  lastPoint : m.lastPoint = ITEMS_OFFSET_BEGIN + (encodeAll entries).length
  placed : Placed ITEMS_OFFSET_BEGIN entries
  file : PAGE_SIZE ≤ m.fileSize

structure Holds (m : MetaPage) (entries : List MetaItem) : Prop where
  known : Known m entries
  written : Written m entries

/-- A new object over the same page and file. -/
def MetaPage.reopen (m : MetaPage) : MetaPage := { data := m.data, fileSize := m.fileSize }

@[simp] theorem length_header (version tableSize lastPoint : Nat) :
    (header version tableSize lastPoint).length = ITEMS_OFFSET_BEGIN := by
  simp [header, ITEMS_OFFSET_BEGIN]

theorem write_version (version tableSize lastPoint new : Nat) (tail : List UInt8) :
    Bytes.write (header version tableSize lastPoint ++ tail) 0 (Bytes.ofNat 8 new) =
      header new tableSize lastPoint ++ tail := by
  have written := @Bytes.write_between (Bytes.ofNat 8 version) (Bytes.ofNat 8 new)
    (by simp) [] (Bytes.ofNat 8 tableSize ++ (Bytes.ofNat 8 lastPoint ++ tail))
  simpa [header] using written

theorem write_tableSize (version tableSize lastPoint new : Nat) (tail : List UInt8) :
    Bytes.write (header version tableSize lastPoint ++ tail) 8 (Bytes.ofNat 8 new) =
      header version new lastPoint ++ tail := by
  have written := @Bytes.write_between (Bytes.ofNat 8 tableSize) (Bytes.ofNat 8 new)
    (by simp) (Bytes.ofNat 8 version) (Bytes.ofNat 8 lastPoint ++ tail)
  simpa [header] using written

theorem write_lastPoint (version tableSize lastPoint new : Nat) (tail : List UInt8) :
    Bytes.write (header version tableSize lastPoint ++ tail) 16 (Bytes.ofNat 8 new) =
      header version tableSize new ++ tail := by
  have written := @Bytes.write_between (Bytes.ofNat 8 lastPoint) (Bytes.ofNat 8 new)
    (by simp) (Bytes.ofNat 8 version ++ Bytes.ofNat 8 tableSize) tail
  simpa [header] using written

/-- Entering entry by entry fills the maps. -/
theorem foldl_enterItem (entries : List MetaItem) (m : MetaPage) :
    entries.foldl MetaPage.enterItem m = { m with
      nameTables := Index.fill MetaItem.tableName MetaItem.firstPageId entries m.nameTables
      idTables := Index.fill MetaItem.tableId MetaItem.firstPageId entries m.idTables
      items := Index.fill MetaItem.tableId id entries m.items } := by
  induction entries generalizing m with
  | nil => rfl
  | cons item entries ih =>
      rw [List.foldl_cons, ih]
      rfl

theorem length_le_length_encodeAll (entries : List MetaItem) :
    entries.length ≤ (encodeAll entries).length := by
  induction entries with
  | nil => exact Nat.le_refl _
  | cons item entries ih =>
      have size := length_encode item
      simp only [encodeAll, List.flatMap_cons, List.length_append, List.length_cons] at ih ⊢
      omega

/-- The entries and the header are on the page. -/
theorem Written.lastPoint_le (written : Written m entries) : m.lastPoint ≤ PAGE_SIZE := by
  obtain ⟨tail, bytes⟩ := written.bytes
  have size := congrArg List.length bytes
  rw [written.page, List.length_append, List.length_append, length_header] at size
  have := written.lastPoint
  omega

/-- What a new object reads in the header. -/
theorem Written.read_header (written : Written m entries) :
    m.readNat 0 8 = m.version ∧ m.readNat 8 8 = m.tableSize ∧ m.readNat 16 8 = m.lastPoint ∧
      ∃ tail, m.data.drop 24 = encodeAll entries ++ tail := by
  obtain ⟨tail, bytes⟩ := written.bytes
  have page : PAGE_SIZE < 256 ^ 8 := by decide
  have lastPoint := written.lastPoint_le
  have tableSize : m.tableSize ≤ m.lastPoint := by
    have := length_le_length_encodeAll entries
    have := written.lastPoint
    rw [written.tableSize]
    omega
  have rest : m.data.drop 0 = Bytes.ofNat 8 m.version ++ (Bytes.ofNat 8 m.tableSize ++
      (Bytes.ofNat 8 m.lastPoint ++ (encodeAll entries ++ tail))) := by
    rw [List.drop_zero, bytes, header]
    simp only [List.append_assoc]
  have version : m.version < 256 ^ 8 := by
    rw [written.version]
    decide
  obtain ⟨first, rest⟩ := readNat_of_drop rest version
  obtain ⟨second, rest⟩ := readNat_of_drop rest (by omega)
  obtain ⟨third, rest⟩ := readNat_of_drop rest (by omega)
  exact ⟨first, second, third, tail, rest⟩

/-- A new object knows all that the old one knew. -/
theorem Holds.init_reopen (holds : Holds m entries) : m.reopen.init = m := by
  obtain ⟨known, written⟩ := holds
  obtain ⟨version, tableSize, lastPoint, tail, rest⟩ := written.read_header
  have sameRead : ∀ offset width, m.reopen.readNat offset width = m.readNat offset width :=
    fun _ _ => rfl
  have file := written.file
  cases entries with
  | nil =>
      have empty : m.readNat 8 8 = 0 := by rw [tableSize, written.tableSize]; rfl
      obtain ⟨tail, bytes⟩ := written.bytes
      have same : Bytes.write (Bytes.write (Bytes.write m.data 0 (Bytes.ofNat 8 META_INIT_VERSION))
          8 (Bytes.ofNat 8 META_INIT_TABLE_SIZE)) 16 (Bytes.ofNat 8 META_INIT_LAST_POINT) =
          m.data := by
        rw [bytes, write_version, write_tableSize, write_lastPoint, written.version,
          written.tableSize, written.lastPoint]
        rfl
      rw [MetaPage.init, if_neg (by rw [sameRead, empty]; simp)]
      exact MetaPage.ext written.version.symm written.tableSize.symm written.lastPoint.symm same
        (Nat.max_eq_left file) known.nameTables.symm known.idTables.symm known.items.symm
  | cons item entries =>
      have some : m.reopen.fileSize > 0 ∧ m.reopen.readNat 8 8 > 0 := by
        rw [sameRead, tableSize, written.tableSize, List.length_cons]
        exact ⟨Nat.lt_of_lt_of_le (by decide) file, Nat.succ_pos _⟩
      have nonzero : m.tableSize ≠ 0 := by rw [← tableSize]; exact Nat.ne_of_gt some.2
      let found := { m.reopen with
        version := m.version, tableSize := m.tableSize, lastPoint := m.lastPoint }
      have items : found.readItems m.tableSize 24 = (item :: entries, m.lastPoint) := by
        rw [written.lastPoint, written.tableSize]
        exact readItems_encode (Nat.le_of_eq written.page) written.placed rest
      rw [MetaPage.init, if_pos some, MetaPage.readMata]
      simp only [sameRead, version, tableSize, lastPoint]
      rw [if_neg nonzero]
      simp only [found] at items
      simp only [items, foldl_enterItem]
      exact MetaPage.ext rfl rfl rfl rfl rfl known.nameTables.symm known.idTables.symm
        known.items.symm

/-! ## What the calls do -/

theorem exists_header {data : List UInt8} (page : data.length = PAGE_SIZE) :
    ∃ version tableSize lastPoint tail, data = header version tableSize lastPoint ++ tail := by
  have word : ∀ offset, offset + 8 ≤ 24 →
      Bytes.ofNat 8 (Bytes.toNat (Bytes.field data offset 8)) = Bytes.field data offset 8 := by
    intro offset inside
    refine Bytes.ofNat_toNat_field ?_
    rw [page]
    exact Nat.le_trans inside (by decide)
  refine ⟨Bytes.toNat (Bytes.field data 0 8), Bytes.toNat (Bytes.field data 8 8),
    Bytes.toNat (Bytes.field data 16 8), data.drop 24, ?_⟩
  rw [header, word 0 (by decide), word 8 (by decide), word 16 (by decide),
    Bytes.field_append_field data 8 8 8, Bytes.field_append_field data 0 8 16, Bytes.field,
    List.drop_zero, List.take_append_drop]

/-- A page without tables is initialised. -/
theorem holds_init {data : List UInt8} {fileSize : Nat} (page : data.length = PAGE_SIZE)
    (empty : fileSize = 0 ∨ Bytes.toNat (Bytes.field data 8 8) = 0) :
    Holds (MetaPage.init { data := data, fileSize := fileSize }) [] := by
  have new : ¬ (({ data := data, fileSize := fileSize } : MetaPage).fileSize > 0 ∧
      ({ data := data, fileSize := fileSize } : MetaPage).readNat 8 8 > 0) := by
    simp only [MetaPage.readNat]
    omega
  obtain ⟨version, tableSize, lastPoint, tail, bytes⟩ := exists_header page
  have written : Bytes.write (Bytes.write (Bytes.write data 0 (Bytes.ofNat 8 META_INIT_VERSION))
      8 (Bytes.ofNat 8 META_INIT_TABLE_SIZE)) 16 (Bytes.ofNat 8 META_INIT_LAST_POINT) =
      header META_INIT_VERSION META_INIT_TABLE_SIZE META_INIT_LAST_POINT ++ tail := by
    rw [bytes, write_version, write_tableSize, write_lastPoint]
  rw [MetaPage.init, if_neg new]
  refine ⟨⟨List.nodup_nil, List.nodup_nil, rfl, rfl, rfl⟩,
    { bytes := ⟨tail, written⟩
      page := ?_
      version := rfl
      tableSize := rfl
      lastPoint := rfl
      placed := trivial
      file := Nat.le_max_right .. }⟩
  have size := congrArg List.length bytes
  refine (congrArg List.length written).trans ?_
  rw [List.length_append, length_header] at size ⊢
  rw [← size, page]

/-- Bytes appended one after the other. -/
theorem append_append (m : MetaPage) (room : m.lastPoint ≤ m.data.length) (first second : List UInt8) :
    (m.append first).append second = m.append (first ++ second) := by
  have front : (m.data.take m.lastPoint).length = m.lastPoint := by
    rw [List.length_take]
    omega
  have one : ∀ bytes, (m.append bytes).data =
      m.data.take m.lastPoint ++ (bytes ++ (m.data.drop m.lastPoint).drop bytes.length) := by
    intro bytes
    have written := Bytes.write_behind (m.data.take m.lastPoint) (m.data.drop m.lastPoint) bytes
    rw [List.take_append_drop, front] at written
    exact written
  have two := Bytes.write_behind (m.data.take m.lastPoint ++ first)
    ((m.data.drop m.lastPoint).drop first.length) second
  rw [List.length_append, front] at two
  refine MetaPage.ext rfl rfl ?_ ?_ rfl rfl rfl rfl
  · simp only [MetaPage.append, List.length_append, Nat.add_assoc]
  · calc ((m.append first).append second).data =
        Bytes.write (m.append first).data (m.lastPoint + first.length) second := rfl
      _ = (m.append (first ++ second)).data := by
        rw [one, one, ← List.append_assoc, two]
        simp only [List.append_assoc, List.drop_drop, List.length_append, Nat.add_assoc]

theorem lastPoint_append_le (m : MetaPage) (room : m.lastPoint ≤ m.data.length)
    (bytes : List UInt8) : (m.append bytes).lastPoint ≤ (m.append bytes).data.length := by
  simp only [MetaPage.append, MetaPage.memcpy, Bytes.write, List.length_append, List.length_take]
  omega

theorem appendColumn_eq (m : MetaPage) (room : m.lastPoint ≤ m.data.length)
    (column : MetaColumnItem) : m.appendColumn column = m.append column.encode := by
  have more := fun bytes => lastPoint_append_le m room bytes
  simp only [MetaPage.appendColumn, append_append _ room, MetaColumnItem.encode, List.append_assoc]

theorem foldl_appendColumn (columns : List MetaColumnItem) (m : MetaPage)
    (room : m.lastPoint ≤ m.data.length) :
    columns.foldl MetaPage.appendColumn m =
      m.append (columns.flatMap MetaColumnItem.encode) := by
  induction columns generalizing m with
  | nil =>
      have data : (m.append []).data = m.data := by
        simp [MetaPage.append, MetaPage.memcpy, Bytes.write]
      exact MetaPage.ext rfl rfl rfl data.symm rfl rfl rfl rfl
  | cons column columns ih =>
      rw [List.foldl_cons, appendColumn_eq m room, ih _ (lastPoint_append_le m room _),
        append_append m room, List.flatMap_cons]

/-- `AddTable` writes the entry, and then the two fields of the header. -/
theorem addTable_eq {item : MetaItem} (room : m.lastPoint ≤ m.data.length)
    (enough : m.lastPoint + (ITEM_FIXED_SIZE + item.tableName.length) < PAGE_SIZE)
    (behind : m.lastPoint ≠ 0) (placed : item.offset = m.lastPoint) :
    m.addTable item =
      .ok (((m.append item.encode).enterItem item).writeLastPoint.updateTableSize 1) := by
  have same : { item with offset := m.lastPoint } = item := by rw [← placed]
  unfold MetaPage.addTable
  simp only [behind, if_false, same]
  rw [if_neg (by omega)]
  simp only [append_append _ room]
  rw [foldl_appendColumn _ _ (lastPoint_append_le m room _), append_append m room, ← placed]
  simp only [MetaItem.encode, MetaItem.encodeName, MetaItem.encodeTail, List.append_assoc]

theorem encodeAll_append (first second : List MetaItem) :
    encodeAll (first ++ second) = encodeAll first ++ encodeAll second := List.flatMap_append

theorem placed_append {offset : Nat} {first second : List MetaItem} :
    Placed offset (first ++ second) ↔
      Placed offset first ∧ Placed (offset + (encodeAll first).length) second := by
  induction first generalizing offset with
  | nil => simp [Placed, encodeAll]
  | cons item first ih =>
      simp only [List.cons_append, Placed, ih, encodeAll, List.flatMap_cons, List.length_append,
        and_assoc, Nat.add_assoc]

theorem encodeAll_concat (entries : List MetaItem) (item : MetaItem) :
    encodeAll (entries ++ [item]) = encodeAll entries ++ item.encode := by
  simp [encodeAll]

/-- The entry goes behind all others. -/
theorem Written.addTable (written : Written m entries) {item : MetaItem}
    (placed : item.offset = m.lastPoint) (fits : m.lastPoint + item.encode.length ≤ PAGE_SIZE) :
    ∃ m', m.addTable item = .ok m' ∧ Written m' (entries ++ [item]) ∧
      m'.lastPoint = m.lastPoint + item.encode.length ∧
      m'.nameTables = Function.update m.nameTables item.tableName (some item.firstPageId) ∧
      m'.idTables = Function.update m.idTables item.tableId (some item.firstPageId) ∧
      m'.items = Function.update m.items item.tableId (some item) := by
  obtain ⟨tail, bytes⟩ := written.bytes
  have size := length_encode item
  have lastPoint := written.lastPoint
  have front : (header m.version m.tableSize m.lastPoint ++ encodeAll entries).length =
      m.lastPoint := by
    rw [List.length_append, length_header, lastPoint]
  have enough : m.lastPoint + (ITEM_FIXED_SIZE + item.tableName.length) < PAGE_SIZE := by
    simp only [ITEM_FIXED_SIZE]
    omega
  have behind : m.lastPoint ≠ 0 := by
    rw [lastPoint, ITEMS_OFFSET_BEGIN]
    omega
  have appended : (m.append item.encode).data =
      header m.version m.tableSize m.lastPoint ++
        (encodeAll (entries ++ [item]) ++ tail.drop item.encode.length) := by
    have step := Bytes.write_behind (header m.version m.tableSize m.lastPoint ++ encodeAll entries)
      tail item.encode
    rw [front, List.append_assoc, ← bytes] at step
    rw [encodeAll_concat, List.append_assoc, ← List.append_assoc]
    exact step
  have whole : (((m.append item.encode).enterItem item).writeLastPoint.updateTableSize 1).data =
      header m.version (m.tableSize + 1) (m.lastPoint + item.encode.length) ++
        (encodeAll (entries ++ [item]) ++ tail.drop item.encode.length) := by
    have step : (((m.append item.encode).enterItem item).writeLastPoint.updateTableSize 1).data =
        Bytes.write (Bytes.write (m.append item.encode).data 16
          (Bytes.ofNat 8 (m.lastPoint + item.encode.length))) 8
          (Bytes.ofNat 8 (m.tableSize + 1)) := rfl
    rw [step, appended, write_lastPoint, write_tableSize]
  have room : m.lastPoint ≤ m.data.length := by
    rw [written.page]
    omega
  refine ⟨_, addTable_eq room enough behind placed, ?_, rfl, rfl, rfl, rfl⟩
  exact
  { bytes := ⟨_, whole⟩
    page := by
      have before := congrArg List.length bytes
      have after := congrArg List.length whole
      simp only [List.length_append, length_header, encodeAll_concat, List.length_drop,
        written.page] at before after
      omega
    version := written.version
    tableSize := by
      rw [List.length_append, List.length_singleton, ← written.tableSize]
      rfl
    lastPoint := by
      rw [encodeAll_concat, List.length_append, ← Nat.add_assoc, ← lastPoint]
      rfl
    placed := placed_append.mpr ⟨written.placed, placed.trans lastPoint, trivial⟩
    file := Nat.le_trans written.file (by
      simp only [MetaPage.updateTableSize, MetaPage.writeLastPoint, MetaPage.flush,
        MetaPage.memcpy, MetaPage.enterItem, MetaPage.append]
      omega) }

theorem Holds.addTable (holds : Holds m entries) {item : MetaItem}
    (placed : item.offset = m.lastPoint) (name : item.tableName ∉ entries.map MetaItem.tableName)
    (tableId : item.tableId ∉ entries.map MetaItem.tableId)
    (fits : m.lastPoint + item.encode.length ≤ PAGE_SIZE) :
    ∃ m', m.addTable item = .ok m' ∧ Holds m' (entries ++ [item]) := by
  obtain ⟨known, written⟩ := holds
  obtain ⟨m', added, written', -, nameTables, idTables, items⟩ := written.addTable placed fits
  refine ⟨m', added, ?_, written'⟩
  exact
  { names := Index.nodup_concat known.names name
    ids := Index.nodup_concat known.ids tableId
    nameTables := by
      rw [Index.fill_concat, ← known.nameTables, nameTables]
      rfl
    idTables := by
      rw [Index.fill_concat, ← known.idTables, idTables]
      rfl
    items := by
      rw [Index.fill_concat, ← known.items, items]
      rfl }

variable {before after : List MetaItem}

theorem Written.offset_eq (written : Written m (before ++ item :: after)) :
    item.offset = ITEMS_OFFSET_BEGIN + (encodeAll before).length :=
  (placed_append.mp written.placed).2.1

/-- The length of the name is read where the entry begins. -/
theorem Written.nameLen_eq (written : Written m (before ++ item :: after)) :
    m.readNat item.offset 8 = item.tableName.length := by
  obtain ⟨tail, bytes⟩ := written.bytes
  have here := written.offset_eq
  have rest : m.data.drop item.offset = item.encode ++ (encodeAll after ++ tail) := by
    have front : (header m.version m.tableSize m.lastPoint ++ encodeAll before).length =
        item.offset := by
      rw [List.length_append, length_header, here]
    rw [bytes, encodeAll_append, List.append_assoc, ← List.append_assoc, List.drop_left' front]
    simp [encodeAll]
  have small := length_lt_of_drop (Nat.le_of_eq written.page) rest
  have size := length_encode item
  simp only [MetaItem.encode, MetaItem.encodeName, List.append_assoc] at rest
  exact (readNat_of_drop rest (by omega)).1

/-- A field inside an entry is written over. -/
theorem Written.replace (written : Written m (before ++ item :: after)) {new : MetaItem}
    (placed : new.offset = item.offset) {front old bytes back : List UInt8}
    (was : item.encode = front ++ (old ++ back)) (is : new.encode = front ++ (bytes ++ back))
    (same : bytes.length = old.length) :
    Written (m.memcpy (item.offset + front.length) bytes).flush (before ++ new :: after) := by
  obtain ⟨tail, data⟩ := written.bytes
  have size : new.encode.length = item.encode.length := by
    rw [was, is, List.length_append, List.length_append, List.length_append, List.length_append,
      same]
  have whole : Bytes.write m.data (item.offset + front.length) bytes =
      header m.version m.tableSize m.lastPoint ++
        (encodeAll (before ++ new :: after) ++ tail) := by
    have step := Bytes.write_between same
      (header m.version m.tableSize m.lastPoint ++ (encodeAll before ++ front))
      (back ++ (encodeAll after ++ tail))
    have place : (header m.version m.tableSize m.lastPoint ++ (encodeAll before ++ front)).length =
        item.offset + front.length := by
      rw [List.length_append, List.length_append, length_header, written.offset_eq, Nat.add_assoc]
    have split : ∀ item : MetaItem, encodeAll (before ++ item :: after) =
        encodeAll before ++ (item.encode ++ encodeAll after) := by
      intro item
      rw [encodeAll_append]
      rfl
    rw [place] at step
    rw [data, split, split, was, is]
    simp only [List.append_assoc] at step ⊢
    exact step
  have sizes : (encodeAll (before ++ new :: after)).length =
      (encodeAll (before ++ item :: after)).length := by
    simp [encodeAll, size]
  obtain ⟨first, -, later⟩ := placed_append.mp written.placed
  exact
  { bytes := ⟨tail, whole⟩
    page := by
      have before := congrArg List.length data
      have after := congrArg List.length whole
      rw [List.length_append, length_header, List.length_append] at before after
      have page := written.page
      simp only [MetaPage.flush, MetaPage.memcpy]
      omega
    version := written.version
    tableSize := by
      have tableSize := written.tableSize
      simp only [List.length_append, List.length_cons] at tableSize ⊢
      exact tableSize
    lastPoint := by
      rw [sizes]
      exact written.lastPoint
    placed := placed_append.mpr ⟨first, placed.trans written.offset_eq, by rwa [size]⟩
    file := Nat.le_max_right .. }

/-- An item in place of another one of the same table. -/
theorem Known.replace (known : Known m (before ++ item :: after)) {new : MetaItem}
    (tableName : new.tableName = item.tableName) (tableId : new.tableId = item.tableId)
    {nameTables : List UInt8 → Option UInt64} {idTables : UInt64 → Option UInt64}
    (byName : nameTables = Function.update m.nameTables item.tableName (some new.firstPageId))
    (byId : idTables = Function.update m.idTables item.tableId (some new.firstPageId)) :
    Known { m with
        nameTables := nameTables
        idTables := idTables
        items := Function.update m.items item.tableId (some new) } (before ++ new :: after) where
  names := by
    have names := known.names
    simp only [List.map_append, List.map_cons, tableName] at names ⊢
    exact names
  ids := by
    have ids := known.ids
    simp only [List.map_append, List.map_cons, tableId] at ids ⊢
    exact ids
  nameTables := by rw [Index.fill_replace known.names tableName, byName, known.nameTables]
  idTables := by rw [Index.fill_replace known.ids tableId, byId, known.idTables]
  items := by
    rw [Index.fill_replace known.ids tableId, ← known.items]
    rfl

theorem Known.find (known : Known m entries) (member : item ∈ entries) :
    m.items item.tableId = some item ∧ m.nameTables item.tableName = some item.firstPageId ∧
      m.idTables item.tableId = some item.firstPageId := by
  rw [known.items, known.nameTables, known.idTables]
  exact ⟨Index.fill_mem known.ids member _, Index.fill_mem known.names member _,
    Index.fill_mem known.ids member _⟩

theorem length_encodeName (item : MetaItem) :
    item.encodeName.length = 8 + item.tableName.length := by
  simp [MetaItem.encodeName]

/-- The same table, at the same place. -/
structure MetaItem.Same (item new : MetaItem) : Prop where
  tableName : new.tableName = item.tableName
  tableId : new.tableId = item.tableId
  offset : new.offset = item.offset

/-- What the three updates have in common: a field of the entry is written, and the entry
    is entered anew. -/
theorem Holds.change (holds : Holds m (before ++ item :: after)) {new : MetaItem}
    (same : item.Same new) {front old bytes back : List UInt8}
    (was : item.encode = front ++ (old ++ back)) (is : new.encode = front ++ (bytes ++ back))
    (size : bytes.length = old.length)
    {nameTables : List UInt8 → Option UInt64} {idTables : UInt64 → Option UInt64}
    (byName : nameTables = Function.update m.nameTables item.tableName (some new.firstPageId))
    (byId : idTables = Function.update m.idTables item.tableId (some new.firstPageId)) :
    Holds (MetaPage.memcpy { m with
        nameTables := nameTables
        idTables := idTables
        items := Function.update m.items item.tableId (some new) }
      (item.offset + front.length) bytes).flush (before ++ new :: after) := by
  have known := holds.known.replace same.tableName same.tableId byName byId
  have written := holds.written.replace same.offset was is size
  exact ⟨⟨known.names, known.ids, known.nameTables, known.idTables, known.items⟩,
    ⟨written.bytes, written.page, written.version, written.tableSize, written.lastPoint,
      written.placed, written.file⟩⟩

private theorem mem_middle (item : MetaItem) : item ∈ before ++ item :: after := by simp

theorem Holds.updateTableRows (holds : Holds m (before ++ item :: after)) (changeSize : Int64) :
    ∃ m', m.updateTableRows item.tableId changeSize = .ok m' ∧
      Holds m' (before ++ { item with numRows := MetaPage.changeRows item.numRows changeSize } :: after) := by
  let new := { item with numRows := MetaPage.changeRows item.numRows changeSize }
  let front := item.encodeName ++ Bytes.ofNat 8 item.firstPageId.toNat
  let back := Bytes.ofNat 8 item.tableId.toNat ++
    (Bytes.ofNat 8 item.lastPageId.toNat ++ item.encodeTail)
  have was : item.encode = front ++ (Bytes.ofNat 8 item.numRows.toNat ++ back) := by
    simp only [front, back, MetaItem.encode, List.append_assoc]
  have is : new.encode = front ++ (Bytes.ofNat 8 new.numRows.toNat ++ back) := by
    simp only [front, back, new, MetaItem.encode, List.append_assoc]
    rfl
  have place : item.offset + 8 + m.readNat item.offset 8 + 8 = item.offset + front.length := by
    simp only [front, holds.written.nameLen_eq, List.length_append, length_encodeName,
      Bytes.length_ofNat]
    omega
  have found := holds.known.find (mem_middle item)
  have same : item.Same new := ⟨rfl, rfl, rfl⟩
  have byName : m.nameTables =
      Function.update m.nameTables item.tableName (some new.firstPageId) :=
    (Function.update_eq_self_iff.mpr found.2.1.symm).symm
  have byId : m.idTables = Function.update m.idTables item.tableId (some new.firstPageId) :=
    (Function.update_eq_self_iff.mpr found.2.2.symm).symm
  have holds' := holds.change same was is (by simp) byName byId
  refine ⟨_, ?_, holds'⟩
  rw [← place]
  simp only [MetaPage.updateTableRows, found.1]
  rfl

theorem Holds.updateTableFirstId (holds : Holds m (before ++ item :: after)) (firstPageId : UInt64) :
    ∃ m', m.updateTableFirstId item.tableId firstPageId = .ok m' ∧
      Holds m' (before ++ { item with firstPageId := firstPageId } :: after) := by
  let new := { item with firstPageId := firstPageId }
  let front := item.encodeName
  let back := Bytes.ofNat 8 item.numRows.toNat ++ (Bytes.ofNat 8 item.tableId.toNat ++
    (Bytes.ofNat 8 item.lastPageId.toNat ++ item.encodeTail))
  have was : item.encode = front ++ (Bytes.ofNat 8 item.firstPageId.toNat ++ back) := by
    simp only [front, back, MetaItem.encode]
  have is : new.encode = front ++ (Bytes.ofNat 8 new.firstPageId.toNat ++ back) := by
    simp only [front, back, new, MetaItem.encode]
    rfl
  have place : item.offset + 8 + m.readNat item.offset 8 = item.offset + front.length := by
    simp only [front, holds.written.nameLen_eq, length_encodeName]
    omega
  have found := holds.known.find (mem_middle item)
  have same : item.Same new := ⟨rfl, rfl, rfl⟩
  have holds' := holds.change same was is (by simp) rfl rfl
  refine ⟨_, ?_, holds'⟩
  rw [← place]
  simp only [MetaPage.updateTableFirstId, found.1]
  rfl

theorem Holds.updateTableLastId (holds : Holds m (before ++ item :: after)) (lastPageId : UInt64) :
    ∃ m', m.updateTableLastId item.tableId lastPageId = .ok m' ∧
      Holds m' (before ++ { item with lastPageId := lastPageId } :: after) := by
  let new := { item with lastPageId := lastPageId }
  let front := item.encodeName ++ (Bytes.ofNat 8 item.firstPageId.toNat ++
    (Bytes.ofNat 8 item.numRows.toNat ++ Bytes.ofNat 8 item.tableId.toNat))
  let back := item.encodeTail
  have was : item.encode = front ++ (Bytes.ofNat 8 item.lastPageId.toNat ++ back) := by
    simp only [front, back, MetaItem.encode, List.append_assoc]
  have is : new.encode = front ++ (Bytes.ofNat 8 new.lastPageId.toNat ++ back) := by
    simp only [front, back, new, MetaItem.encode, List.append_assoc]
    rfl
  have place : item.offset + 8 + m.readNat item.offset 8 + 8 + 8 + 8 = item.offset + front.length := by
    simp only [front, holds.written.nameLen_eq, List.length_append, length_encodeName,
      Bytes.length_ofNat]
    omega
  have found := holds.known.find (mem_middle item)
  have same : item.Same new := ⟨rfl, rfl, rfl⟩
  have byName : m.nameTables =
      Function.update m.nameTables item.tableName (some new.firstPageId) :=
    (Function.update_eq_self_iff.mpr found.2.1.symm).symm
  have byId : m.idTables = Function.update m.idTables item.tableId (some new.firstPageId) :=
    (Function.update_eq_self_iff.mpr found.2.2.symm).symm
  have holds' := holds.change same was is (by simp) byName byId
  refine ⟨_, ?_, holds'⟩
  rw [← place]
  simp only [MetaPage.updateTableLastId, found.1]
  rfl

/-! ## Runs -/

/-- The calls that change a meta page. -/
inductive Call where
  | addTable (item : MetaItem)
  | updateTableRows (tableId : UInt64) (changeSize : Int64)
  | updateTableFirstId (tableId firstPageId : UInt64)
  | updateTableLastId (tableId lastPageId : UInt64)
  deriving DecidableEq

def MetaPage.call (m : MetaPage) : Call → Except String MetaPage
  | .addTable item => m.addTable item
  | .updateTableRows tableId changeSize => m.updateTableRows tableId changeSize
  | .updateTableFirstId tableId firstPageId => m.updateTableFirstId tableId firstPageId
  | .updateTableLastId tableId lastPageId => m.updateTableLastId tableId lastPageId

/-- A call that throws has changed nothing before. -/
def MetaPage.step (m : MetaPage) (call : Call) : MetaPage :=
  match m.call call with
  | .ok m' => m'
  | .error _ => m

def MetaPage.run (m : MetaPage) (calls : List Call) : MetaPage := calls.foldl step m

def added (calls : List Call) : List MetaItem :=
  calls.filterMap fun call =>
    match call with
    | .addTable item => some item
    | _ => none

/-- Names and ids that tell tables apart, and no more tables than the page has room for. -/
structure Proper (calls : List Call) : Prop where
  names : ((added calls).map MetaItem.tableName).Nodup
  ids : ((added calls).map MetaItem.tableId).Nodup
  fits : ITEMS_OFFSET_BEGIN + (encodeAll (added calls)).length ≤ PAGE_SIZE

/-- What no update changes. -/
def MetaItem.fixed (item : MetaItem) : List UInt8 × UInt64 × List MetaColumnItem :=
  (item.tableName, item.tableId, item.items)

theorem added_concat (calls : List Call) (call : Call) :
    added (calls ++ [call]) = added calls ++ added [call] := by
  simp [added]

theorem length_encode_of_fixed {item other : MetaItem} (same : item.fixed = other.fixed) :
    item.encode.length = other.encode.length := by
  simp only [MetaItem.fixed, Prod.mk.injEq] at same
  rw [length_encode, length_encode, same.1, same.2.2]

theorem length_encodeAll_of_fixed {entries others : List MetaItem}
    (same : entries.map MetaItem.fixed = others.map MetaItem.fixed) :
    (encodeAll entries).length = (encodeAll others).length := by
  induction entries generalizing others with
  | nil =>
      cases others with
      | nil => rfl
      | cons other others => cases same
  | cons item entries ih =>
      cases others with
      | nil => cases same
      | cons other others =>
          simp only [List.map_cons, List.cons.injEq] at same
          have first := length_encode_of_fixed same.1
          have rest := ih same.2
          simp only [encodeAll, List.flatMap_cons, List.length_append] at rest ⊢
          omega

theorem tableNames_of_fixed {entries others : List MetaItem}
    (same : entries.map MetaItem.fixed = others.map MetaItem.fixed) :
    entries.map MetaItem.tableName = others.map MetaItem.tableName := by
  have names := congrArg (List.map fun fixed => fixed.1) same
  rw [List.map_map, List.map_map] at names
  exact names

theorem tableIds_of_fixed {entries others : List MetaItem}
    (same : entries.map MetaItem.fixed = others.map MetaItem.fixed) :
    entries.map MetaItem.tableId = others.map MetaItem.tableId := by
  have ids := congrArg (List.map fun fixed => fixed.2.1) same
  rw [List.map_map, List.map_map] at ids
  exact ids

theorem Proper.of_concat {calls : List Call} {call : Call} (proper : Proper (calls ++ [call])) :
    Proper calls := by
  obtain ⟨names, ids, fits⟩ := proper
  rw [added_concat] at names ids fits
  rw [List.map_append] at names ids
  rw [encodeAll_append, List.length_append] at fits
  exact ⟨names.of_append_left, ids.of_append_left, by omega⟩

/-- The page stands for the tables that were added, up to what updates change. -/
structure Reached (m : MetaPage) (calls : List Call) (entries : List MetaItem) : Prop where
  holds : Holds m entries
  fixed : entries.map MetaItem.fixed = (added calls).map MetaItem.fixed

/-- An update of a table that is there changes one entry, and others are refused. -/
theorem Reached.update {calls : List Call} {call : Call} (reached : Reached m calls entries)
    (tableId : UInt64) (adds : added [call] = [])
    (absent : m.items tableId = none → ∃ message, m.call call = .error message)
    (present : ∀ before item after, entries = before ++ item :: after → item.tableId = tableId →
      ∃ m' new, m.call call = .ok m' ∧ new.fixed = item.fixed ∧
        Holds m' (before ++ new :: after)) :
    ∃ entries', Reached (m.step call) (calls ++ [call]) entries' := by
  obtain ⟨holds, fixed⟩ := reached
  have same : added (calls ++ [call]) = added calls := by
    rw [added_concat, adds, List.append_nil]
  cases Decidable.em (tableId ∈ entries.map MetaItem.tableId) with
  | inl found =>
      obtain ⟨item, member, isTable⟩ := List.mem_map.mp found
      obtain ⟨before, after, rfl⟩ := List.append_of_mem member
      obtain ⟨m', new, called, kept, holds'⟩ := present before item after rfl isTable
      refine ⟨before ++ new :: after, ?_, ?_⟩
      · rw [MetaPage.step, called]
        exact holds'
      · rw [same, ← fixed]
        simp only [List.map_append, List.map_cons, kept]
  | inr missing =>
      have none : m.items tableId = none := by
        rw [holds.known.items]
        exact Index.fill_of_notMem missing _
      obtain ⟨message, refused⟩ := absent none
      refine ⟨entries, ?_, ?_⟩
      · rw [MetaPage.step, refused]
        exact holds
      · rw [same, fixed]

theorem Reached.step {calls : List Call} {call : Call} (reached : Reached m calls entries)
    (proper : Proper (calls ++ [call])) :
    ∃ entries', Reached (m.step call) (calls ++ [call]) entries' := by
  cases call with
  | addTable item =>
      obtain ⟨holds, fixed⟩ := reached
      obtain ⟨names, ids, fits⟩ := proper
      let stored := { item with offset := m.lastPoint }
      have size : stored.encode.length = item.encode.length := length_encode_of_fixed rfl
      have before := length_encodeAll_of_fixed fixed
      have lastPoint := holds.written.lastPoint
      rw [added_concat, encodeAll_append, List.length_append] at fits
      rw [added_concat, List.map_append] at names ids
      have name : item.tableName ∉ entries.map MetaItem.tableName := by
        rw [tableNames_of_fixed fixed]
        exact fun member => (List.nodup_append.mp names).2.2 _ member _ (List.mem_cons_self ..) rfl
      have tableId : item.tableId ∉ entries.map MetaItem.tableId := by
        rw [tableIds_of_fixed fixed]
        exact fun member => (List.nodup_append.mp ids).2.2 _ member _ (List.mem_cons_self ..) rfl
      have one : (encodeAll (added [.addTable item])).length = item.encode.length := by
        simp [added, encodeAll]
      obtain ⟨m', called, holds'⟩ := @Holds.addTable m entries holds stored rfl name tableId (by omega)
      refine ⟨entries ++ [stored], ?_, ?_⟩
      · have same : m.addTable item = .ok m' := called
        rw [MetaPage.step, MetaPage.call, same]
        exact holds'
      · rw [added_concat, List.map_append, List.map_append, fixed]
        rfl
  | updateTableRows tableId changeSize =>
      refine reached.update tableId rfl ?_ ?_
      · intro none
        simp only [MetaPage.call, MetaPage.updateTableRows, none]
        exact ⟨_, rfl⟩
      · rintro before item after rfl rfl
        obtain ⟨m', called, holds⟩ := reached.holds.updateTableRows changeSize
        refine ⟨m', _, called, ?_, holds⟩
        rfl
  | updateTableFirstId tableId firstPageId =>
      refine reached.update tableId rfl ?_ ?_
      · intro none
        simp only [MetaPage.call, MetaPage.updateTableFirstId, none]
        exact ⟨_, rfl⟩
      · rintro before item after rfl rfl
        obtain ⟨m', called, holds⟩ := reached.holds.updateTableFirstId firstPageId
        refine ⟨m', _, called, ?_, holds⟩
        rfl
  | updateTableLastId tableId lastPageId =>
      refine reached.update tableId rfl ?_ ?_
      · intro none
        simp only [MetaPage.call, MetaPage.updateTableLastId, none]
        exact ⟨_, rfl⟩
      · rintro before item after rfl rfl
        obtain ⟨m', called, holds⟩ := reached.holds.updateTableLastId lastPageId
        refine ⟨m', _, called, ?_, holds⟩
        rfl

/-- Whatever calls are made, the page stands for the tables that were added. -/
theorem reached_run {calls : List Call} (proper : Proper calls) (start : Holds m []) :
    ∃ entries, Reached (m.run calls) calls entries := by
  induction calls using List.reverseRecOn with
  | nil => exact ⟨[], start, rfl⟩
  | append_singleton calls call ih =>
      obtain ⟨entries, reached⟩ := ih proper.of_concat
      rw [MetaPage.run, List.foldl_concat]
      exact reached.step proper

end YourSQL.Stored
