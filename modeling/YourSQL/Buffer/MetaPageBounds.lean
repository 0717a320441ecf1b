import YourSQL.Buffer.MetaRoundTrip
import YourSQL.Lib.Program

/-! # Where `AddTable` writes

The check of `AddTable` counts the fixed fields and the name of the table. What it does not
count are the stored offset, the number of the columns and the columns themselves, so an
entry that passes it may end behind the page.
-/

namespace YourSQL.Stored

variable {m : MetaPage} {item : MetaItem}

/-- `AddTable`, with the object that it leaves when it throws. -/
def MetaPage.addTableCall (item : MetaItem) : Program MetaPage String PUnit := do
  let m ← get
  let itemOffset := if m.lastPoint = 0 then ITEMS_OFFSET_BEGIN else m.lastPoint
  let item := { item with offset := itemOffset }
  let needSize := ITEM_FIXED_SIZE + item.tableName.length
  if m.lastPoint + needSize ≥ PAGE_SIZE then
    throw "MetaPage::AddTable: Not enough space for last page"
  modify (append · (Bytes.ofNat 8 item.tableName.length))
  modify (append · item.tableName)
  modify (append · (Bytes.ofNat 8 item.firstPageId.toNat))
  modify (append · (Bytes.ofNat 8 item.numRows.toNat))
  modify (append · (Bytes.ofNat 8 item.tableId.toNat))
  modify (append · (Bytes.ofNat 8 item.lastPageId.toNat))
  modify (append · (Bytes.ofNat 8 item.offset))
  modify (append · (Bytes.ofNat 8 item.items.length))
  item.items.forM fun column => modify (appendColumn · column)
  modify (enterItem · item)
  modify writeLastPoint
  modify (updateTableSize · 1)

/-- A page object before its first `AddTable`: its cursor is behind the header of a page. -/
structure Opened (m : MetaPage) : Prop where
  page : m.data.length = PAGE_SIZE
  lastPoint : ITEMS_OFFSET_BEGIN ≤ m.lastPoint

/-- What calls of `AddTable` make of such an object, whether they return or throw. -/
inductive TablesAdded : MetaPage → Prop where
  | opened {m : MetaPage} (opened : Opened m) : TablesAdded m
  | addTable {m : MetaPage} (reached : TablesAdded m) (item : MetaItem) :
      TablesAdded ((MetaPage.addTableCall item).run m).2

/-- No byte from `PAGE_SIZE` on is written, or the call throws and the object is what it was. -/
def StaysInside (m : MetaPage) (item : MetaItem) : Prop :=
  (∀ offset, PAGE_SIZE ≤ offset →
    ((MetaPage.addTableCall item).run m).2.data[offset]? = m.data[offset]?) ∨
  ∃ message, (MetaPage.addTableCall item).run m = (.error message, m)

/-- The bytes of an entry: 56 for its own numbers and 18 for those of each column, and the
    names. -/
def entrySize (item : MetaItem) : Nat :=
  56 + item.tableName.length + (item.items.map fun column => 18 + column.columnName.length).sum

/-- The check refuses the entry, or all of it fits. -/
def Checked (m : MetaPage) (item : MetaItem) : Prop :=
  PAGE_SIZE ≤ m.lastPoint + (ITEM_FIXED_SIZE + item.tableName.length) ∨
    m.lastPoint + entrySize item ≤ PAGE_SIZE

/-! ## The call -/

theorem run_forM_appendColumn (columns : List MetaColumnItem) (m : MetaPage) :
    (columns.forM fun column =>
        (modify (MetaPage.appendColumn · column) : Program MetaPage String PUnit)).run m =
      (.ok ⟨⟩, columns.foldl MetaPage.appendColumn m) := by
  induction columns generalizing m with
  | nil => rfl
  | cons column columns ih =>
      rw [List.forM_eq_forM, List.forM_cons, Program.run_modify_bind, ← List.forM_eq_forM, ih,
        List.foldl_cons]

/-- A call that throws has changed nothing. -/
theorem run_addTableCall (m : MetaPage) (item : MetaItem) :
    (MetaPage.addTableCall item).run m =
      match m.addTable item with
      | .ok m' => (.ok ⟨⟩, m')
      | .error message => (.error message, m) := by
  unfold MetaPage.addTableCall MetaPage.addTable
  simp only [Program.run_get_bind]
  split
  · rfl
  · simp only [Program.run_modify_bind]
    rw [Program.run_bind_of_ok (run_forM_appendColumn _ _)]
    rfl

theorem length_encode_eq_entrySize (item : MetaItem) : item.encode.length = entrySize item := by
  have columns : ∀ columns : List MetaColumnItem,
      (columns.flatMap MetaColumnItem.encode).length =
        (columns.map fun column => 18 + column.columnName.length).sum := by
    intro columns
    induction columns with
    | nil => rfl
    | cons column columns ih =>
        simp only [List.flatMap_cons, List.length_append, ih, List.map_cons, List.sum_cons,
          MetaColumnItem.encode, Bytes.length_ofNat, List.length_singleton]
        omega
  rw [length_encode, columns, entrySize]
  omega

/-- Behind a page that is written too far the check refuses every entry. -/
structure Bounded (m : MetaPage) : Prop where
  lastPoint : ITEMS_OFFSET_BEGIN ≤ m.lastPoint
  page : m.data.length = PAGE_SIZE ∨ PAGE_SIZE ≤ m.lastPoint

/-- What a call that passes the check does: the bytes of the entry go to the end, and two
    fields of the header change. -/
theorem Bounded.run_addTableCall (bounded : Bounded m)
    (room : m.lastPoint + (ITEM_FIXED_SIZE + item.tableName.length) < PAGE_SIZE) :
    ∃ entry tableSize : List UInt8, entry.length = entrySize item ∧ tableSize.length = 8 ∧
      ((MetaPage.addTableCall item).run m).2.lastPoint = m.lastPoint + entry.length ∧
      ((MetaPage.addTableCall item).run m).2.data =
        Bytes.write (Bytes.write (Bytes.write m.data m.lastPoint entry) 16
          (Bytes.ofNat 8 (m.lastPoint + entry.length))) 8 tableSize := by
  have page : m.data.length = PAGE_SIZE := by
    rcases bounded.page with page | full
    · exact page
    · omega
  have nonzero : m.lastPoint ≠ 0 := by
    have := bounded.lastPoint
    unfold ITEMS_OFFSET_BEGIN at this
    omega
  let stored := { item with offset := m.lastPoint }
  have same : m.addTable item = m.addTable stored := by
    unfold MetaPage.addTable
    simp only [nonzero, if_false, stored]
  have added := @addTable_eq m stored (by omega) room nonzero rfl
  have run : ((MetaPage.addTableCall item).run m).2 =
      ((m.append stored.encode).enterItem stored).writeLastPoint.updateTableSize 1 := by
    rw [Stored.run_addTableCall, same, added]
  refine ⟨stored.encode, Bytes.ofNat 8 (m.tableSize + 1), length_encode_eq_entrySize stored,
    Bytes.length_ofNat .., ?_, ?_⟩
  · rw [run]
    rfl
  · rw [run]
    rfl

theorem Bounded.refused (full : PAGE_SIZE ≤ m.lastPoint + (ITEM_FIXED_SIZE + item.tableName.length)) :
    ∃ message, (MetaPage.addTableCall item).run m = (.error message, m) := by
  refine ⟨"MetaPage::AddTable: Not enough space for last page", ?_⟩
  rw [Stored.run_addTableCall, MetaPage.addTable]
  dsimp only
  rw [if_pos full]

/-- The length of the page tells whether a write ended behind it. -/
theorem length_write_eq_max {buffer data : List UInt8} {pos : Nat} (inside : pos ≤ buffer.length) :
    (Bytes.write buffer pos data).length = max buffer.length (pos + data.length) := by
  simp only [Bytes.write, List.length_append, List.length_take, List.length_drop]
  omega

theorem Bounded.length_run (bounded : Bounded m)
    (room : m.lastPoint + (ITEM_FIXED_SIZE + item.tableName.length) < PAGE_SIZE) :
    ((MetaPage.addTableCall item).run m).2.data.length =
        max PAGE_SIZE (m.lastPoint + entrySize item) ∧
      ((MetaPage.addTableCall item).run m).2.lastPoint = m.lastPoint + entrySize item := by
  obtain ⟨entry, tableSize, size, eight, lastPoint, data⟩ := bounded.run_addTableCall room
  have page : m.data.length = PAGE_SIZE := by
    rcases bounded.page with page | full
    · exact page
    · omega
  have front : 24 ≤ PAGE_SIZE := by decide
  have first := @length_write_eq_max m.data entry m.lastPoint (by omega)
  have second := @length_write_eq_max (Bytes.write m.data m.lastPoint entry)
    (Bytes.ofNat 8 (m.lastPoint + entry.length)) 16 (by omega)
  rw [Bytes.length_ofNat] at second
  have third := @length_write_eq_max _ tableSize 8 (show 8 ≤ (Bytes.write
    (Bytes.write m.data m.lastPoint entry) 16
    (Bytes.ofNat 8 (m.lastPoint + entry.length))).length by omega)
  refine ⟨?_, lastPoint.trans (by rw [size])⟩
  rw [data, third, second, first, page, size, eight]
  omega

/-! ## The invariant -/

theorem Bounded.addTable (bounded : Bounded m) (item : MetaItem) :
    Bounded ((MetaPage.addTableCall item).run m).2 := by
  cases Nat.lt_or_ge (m.lastPoint + (ITEM_FIXED_SIZE + item.tableName.length)) PAGE_SIZE with
  | inl room =>
      obtain ⟨length, lastPoint⟩ := bounded.length_run room
      have := bounded.lastPoint
      exact ⟨by omega, by omega⟩
  | inr full =>
      obtain ⟨message, ran⟩ := Bounded.refused full
      rw [ran]
      exact bounded

theorem TablesAdded.bounded (reached : TablesAdded m) : Bounded m := by
  induction reached with
  | opened opened => exact ⟨opened.lastPoint, .inl opened.page⟩
  | addTable _ item ih => exact ih.addTable item

theorem Bounded.staysInside_iff_checked (bounded : Bounded m) : StaysInside m item ↔ Checked m item := by
  cases Nat.lt_or_ge (m.lastPoint + (ITEM_FIXED_SIZE + item.tableName.length)) PAGE_SIZE with
  | inr full => exact iff_of_true (.inr (Bounded.refused full)) (.inl full)
  | inl room =>
      obtain ⟨length, lastPoint⟩ := bounded.length_run room
      have page : m.data.length = PAGE_SIZE := by
        rcases bounded.page with page | full
        · exact page
        · omega
      constructor
      · intro inside
        refine .inr ?_
        cases inside with
        | inl kept =>
            -- the byte behind the page was not there before the call
            have behind := kept PAGE_SIZE (Nat.le_refl _)
            rw [List.getElem?_eq_none (Nat.le_of_eq page), List.getElem?_eq_none_iff] at behind
            omega
        | inr thrown =>
            obtain ⟨message, ran⟩ := thrown
            rw [ran] at length
            dsimp only at length
            omega
      · intro checked
        have fits : m.lastPoint + entrySize item ≤ PAGE_SIZE := by
          cases checked with
          | inl full => omega
          | inr fits => exact fits
        refine .inl fun offset behind => ?_
        rw [List.getElem?_eq_none (by omega), List.getElem?_eq_none (by omega)]

/-- In every state that calls of `AddTable` reach, the next one stays on the page if and only
    if the check refuses the entry or the entry fits. -/
theorem TablesAdded.staysInside_iff (reached : TablesAdded m) (item : MetaItem) :
    StaysInside m item ↔ Checked m item :=
  reached.bounded.staysInside_iff_checked

/-- The object of a terminal on an empty data file. -/
def emptyMetaPage : MetaPage := { data := List.replicate PAGE_SIZE 0, fileSize := 0 }

theorem opened_emptyMetaPage : Opened emptyMetaPage :=
  ⟨List.length_replicate, Nat.le_refl _⟩

/-- A table with the short name `t` and one column with a name of 4000 letters. -/
def wideTable : MetaItem where
  tableName := [116]
  tableId := 1
  items := [⟨List.replicate 4000 99, 1, 0, 0⟩]

theorem reached_staysInside_iff_oneTable :
    StaysInside ((MetaPage.addTableCall { tableName := [116], tableId := 1 }).run emptyMetaPage).2
        wideTable ↔
      Checked ((MetaPage.addTableCall { tableName := [116], tableId := 1 }).run emptyMetaPage).2
        wideTable :=
  TablesAdded.staysInside_iff (.addTable (.opened opened_emptyMetaPage) _) wideTable

/-- The entry takes 4075 bytes behind the 24 of the header. -/
theorem wideTable_leaves_page : TablesAdded emptyMetaPage ∧ ¬ StaysInside emptyMetaPage wideTable := by
  have reached : TablesAdded emptyMetaPage := .opened opened_emptyMetaPage
  refine ⟨reached, fun inside => ?_⟩
  have checked := reached.bounded.staysInside_iff_checked.mp inside
  have size : entrySize wideTable = 4075 := by
    simp only [entrySize, wideTable, List.map_cons, List.map_nil, List.length_replicate,
      List.sum_cons, List.sum_nil, List.length_singleton, Nat.reduceAdd]
  have cursor : emptyMetaPage.lastPoint = 24 := rfl
  have name : wideTable.tableName.length = 1 := rfl
  rw [Checked, size, cursor, name] at checked
  revert checked
  decide

end YourSQL.Stored
