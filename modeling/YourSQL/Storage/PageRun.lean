import YourSQL.Lib.Transition
import YourSQL.Storage.PosixDiskManager
import YourSQL.Storage.SlottedPage

/-! # Runs on a table page

The operations on one page in any order, with new objects for the page in between. The
page keeps every tuple it took, with the record header that was set last.
-/

namespace YourSQL

/-- A tuple that was taken, and the record it is by now. -/
structure StoredTuple where
  rid : RID
  tuple : List UInt8
  record : Record

inductive PageCall where
  | insertTuple (tuple : List UInt8)
  | markDelete (rid : RID) (trxId : Nat) (rollPtr : UndoPointer)
  | restoreRecord (rid : RID) (header : RecordHeader)
  | markDead (rid : RID)
  | setLsn (lsn : UInt64)
  | setNextPageId (nextPageId : UInt64)
  /-- A new object for the page. -/
  | reload

structure PageRun where
  page : TablePageBytes
  stored : List StoredTuple := []

namespace PageRun

/-- A page that was just initialised, whatever was in it before. -/
def start (pageId : UInt64) (data : PageBytes) : PageRun where
  page := .init pageId.toNat data.val

def change (stored : List StoredTuple) (rid : RID) (update : Record → Record) : List StoredTuple :=
  stored.map fun entry =>
    if entry.rid = rid then { entry with record := update entry.record } else entry

/-- An operation on a tuple that was taken. -/
def onStored (s : PageRun) (rid : RID) (operate : TablePageBytes → TablePageBytes)
    (update : Record → Record) : Option PageRun :=
  if rid ∈ s.stored.map StoredTuple.rid then
    some { page := operate s.page, stored := change s.stored rid update }
  else
    none

def step (s : PageRun) : PageCall → Option PageRun
  | .insertTuple tuple =>
      if REC_HEADER_SIZE ≤ tuple.length ∧ tuple.length < 2 ^ 16 then
        match s.page.insertTuple tuple with
        | (some rid, page) => some { page := page, stored := s.stored ++ [⟨rid, tuple, .decode tuple⟩] }
        | (none, page) => some { s with page := page }
      else
        none
  | .markDelete rid trxId rollPtr =>
      s.onStored rid (fun page => page.markDelete rid.rowId trxId rollPtr)
        fun record => if record.isDel then record else record.deleted trxId rollPtr
  | .restoreRecord rid header =>
      s.onStored rid (fun page => page.restoreRecord rid.rowId header)
        fun record => record.restored header
  | .markDead rid => s.onStored rid (fun page => page.markDead rid.rowId) Record.killed
  | .setLsn lsn => some { s with page := s.page.setLsn lsn.toNat }
  | .setNextPageId nextPageId => some { s with page := s.page.setNextPageId nextPageId.toNat }
  | .reload =>
      some { s with page :=
        { TablePageBytes.load s.page.data with rowChanges := s.page.rowChanges } }

/-- The page holds the tuples in the order in which they came. -/
structure Inv (s : PageRun) : Prop where
  layout : s.page.Layout (s.stored.map StoredTuple.record)
  numbered : ∀ (index : Nat) (entry : StoredTuple), s.stored[index]? = some entry →
    entry.rid = ⟨s.page.header.pageId, index + 1⟩
  payload : ∀ entry ∈ s.stored, REC_HEADER_SIZE ≤ entry.tuple.length ∧
    entry.record.payload = entry.tuple.drop REC_HEADER_SIZE

theorem inv_start (pageId : UInt64) (data : PageBytes) : (start pageId data).Inv where
  layout := TablePageBytes.layout_init pageId.toNat_lt data.property
  numbered := by simp [start]
  payload := by simp [start]

variable {s s' : PageRun} {rid : RID} {entry : StoredTuple} {index : Nat}
  {operate : TablePageBytes → TablePageBytes} {update : Record → Record}

theorem Inv.insertTuple (inv : s.Inv) {tuple : List UInt8}
    (taken : s.step (.insertTuple tuple) = some s') : s'.Inv := by
  simp only [step] at taken
  split at taken
  · rename_i sized
    cases spaced : s.page.hasSpaceFor tuple.length with
    | false =>
        have refused := (TablePageBytes.insertTuple_none tuple).mpr spaced
        have same := TablePageBytes.insertTuple_refused refused
        rw [show s.page.insertTuple tuple = (none, s.page) from Prod.ext refused same] at taken
        obtain rfl := Option.some.inj taken
        exact inv
    | true =>
        obtain ⟨page, inserted, layout⟩ := inv.layout.insertTuple sized.1 spaced
        have pageId := TablePageBytes.pageId_insertTuple s.page tuple
        rw [inserted] at taken pageId
        obtain rfl := Option.some.inj taken
        refine ⟨by simpa using layout, ?_, ?_⟩
        · intro index entry found
          rw [pageId]
          rw [List.getElem?_append] at found
          split at found
          · exact inv.numbered index entry found
          · obtain ⟨here, rfl⟩ := List.getElem?_eq_some_iff.mp found
            rw [List.length_singleton] at here
            have last : index = s.stored.length := by omega
            simp [last]
        · intro entry member
          rcases List.mem_append.mp member with old | new
          · exact inv.payload entry old
          · obtain rfl := List.mem_singleton.mp new
            exact ⟨sized.1, rfl⟩
  · cases taken

/-- No other tuple has the address of this one. -/
theorem Inv.change_eq (inv : s.Inv) (found : s.stored[index]? = some entry) :
    change s.stored entry.rid update =
      s.stored.set index { entry with record := update entry.record } := by
  have few := (List.getElem?_eq_some_iff.mp found).1
  apply List.ext_getElem?
  intro other
  rw [change, List.getElem?_map]
  by_cases here : index = other
  · subst here
    rw [List.getElem?_set_self few, found]
    simp
  · rw [List.getElem?_set_ne here]
    cases there : s.stored[other]? with
    | none => rfl
    | some entry' =>
        have ne : entry'.rid ≠ entry.rid := by
          rw [inv.numbered other entry' there, inv.numbered index entry found]
          intro same
          have := congrArg RID.rowId same
          simp only at this
          omega
        simp [ne]

/-- An operation that changes one record of the page keeps the page and the tuples
    together. -/
theorem Inv.onStored (inv : s.Inv)
    (layout : ∀ index record, (s.stored.map StoredTuple.record)[index]? = some record →
      rid.rowId = index + 1 →
      (operate s.page).Layout ((s.stored.map StoredTuple.record).set index (update record)))
    (pageId : (operate s.page).header.pageId = s.page.header.pageId)
    (payload : ∀ record, (update record).payload = record.payload)
    (taken : s.onStored rid operate update = some s') : s'.Inv := by
  unfold PageRun.onStored at taken
  split at taken
  · rename_i known
    obtain rfl := Option.some.inj taken
    obtain ⟨entry, member, rfl⟩ := List.mem_map.mp known
    obtain ⟨index, found⟩ := List.getElem?_of_mem member
    have rowId : entry.rid.rowId = index + 1 := by rw [inv.numbered index entry found]
    have here : (s.stored.map StoredTuple.record)[index]? = some entry.record := by simp [found]
    rw [inv.change_eq found]
    refine ⟨?_, ?_, ?_⟩
    · rw [List.map_set]
      exact layout index entry.record here rowId
    · intro other entry' found'
      simp only [pageId]
      by_cases same : index = other
      · subst same
        rw [List.getElem?_set_self (List.getElem?_eq_some_iff.mp found).1] at found'
        obtain rfl := Option.some.inj found'
        exact inv.numbered index entry found
      · rw [List.getElem?_set_ne same] at found'
        exact inv.numbered other entry' found'
    · intro entry' member'
      rcases List.mem_or_eq_of_mem_set member' with old | rfl
      · exact inv.payload entry' old
      · obtain ⟨sized, kept⟩ := inv.payload entry member
        exact ⟨sized, (payload _).trans kept⟩
  · cases taken

theorem Inv.step (inv : s.Inv) (call : PageCall) (taken : s.step call = some s') : s'.Inv := by
  cases call with
  | insertTuple tuple => exact inv.insertTuple taken
  | markDelete rid trxId rollPtr =>
      simp only [PageRun.step] at taken
      refine inv.onStored ?_ ?_ ?_ taken
      · intro index record found rowId
        rw [rowId]
        exact inv.layout.markDelete found trxId rollPtr
      · rw [TablePageBytes.header_markDelete]
      · intro record
        split <;> rfl
  | restoreRecord rid header =>
      simp only [PageRun.step] at taken
      refine inv.onStored ?_ ?_ ?_ taken
      · intro index record found rowId
        rw [rowId]
        exact inv.layout.restoreRecord found header
      · rw [TablePageBytes.header_restoreRecord]
      · exact fun _ => rfl
  | markDead rid =>
      simp only [PageRun.step] at taken
      refine inv.onStored ?_ ?_ ?_ taken
      · intro index record found rowId
        rw [rowId]
        exact inv.layout.markDead found
      · rw [TablePageBytes.header_markDead]
      · exact fun _ => rfl
  | setLsn lsn =>
      obtain rfl := Option.some.inj taken
      exact ⟨inv.layout.setLsn lsn.toNat_lt, inv.numbered, inv.payload⟩
  | setNextPageId nextPageId =>
      obtain rfl := Option.some.inj taken
      exact ⟨inv.layout.setNextPageId nextPageId.toNat_lt, inv.numbered, inv.payload⟩
  | reload =>
      obtain rfl := Option.some.inj taken
      rw [inv.layout.load]
      exact inv

/-- What is true of the page after every run. -/
structure Exact (s : PageRun) : Prop where
  sized : s.page.data.length = PAGE_SIZE
  slots : HEADER_SIZE + SLOT_SIZE * s.page.header.numRows ≤ PAGE_SIZE
  areas : ∀ rowId, 1 ≤ rowId → rowId ≤ s.page.header.numRows →
    HEADER_SIZE ≤ s.page.recordOffset rowId ∧
      s.page.recordOffset rowId + (s.page.getTuple rowId).1 ≤
        TablePageBytes.slotOffset s.page.header.numRows
  apart : ∀ earlier later, 1 ≤ earlier → earlier < later → later ≤ s.page.header.numRows →
    s.page.recordOffset earlier + (s.page.getTuple earlier).1 ≤ s.page.recordOffset later
  refuses : ∀ tuple, (s.page.insertTuple tuple).1 = none ↔ s.page.hasSpaceFor tuple.length = false
  refused : ∀ tuple, (s.page.insertTuple tuple).1 = none → (s.page.insertTuple tuple).2 = s.page
  tuples : ∀ entry ∈ s.stored, s.page.getTuple entry.rid.rowId =
    (entry.tuple.length, entry.record.toRecordHeader.encode ++ entry.tuple.drop REC_HEADER_SIZE)
  reload : TablePageBytes.load s.page.data = { s.page with rowChanges := [] }

/-- A slot of the page leads to its record. -/
theorem Inv.slot (inv : s.Inv) {rowId : Nat} (first : 1 ≤ rowId)
    (last : rowId ≤ s.page.header.numRows) :
    ∃ index record, rowId = index + 1 ∧
      (s.stored.map StoredTuple.record)[index]? = some record ∧
      s.page.recordOffset rowId =
        TablePageBytes.start (s.stored.map StoredTuple.record) index ∧
      (s.page.getTuple rowId).1 = record.size := by
  obtain ⟨index, rfl⟩ : ∃ index, rowId = index + 1 := ⟨rowId - 1, by omega⟩
  have few : index < (s.stored.map StoredTuple.record).length := by
    rw [← inv.layout.numRows]
    omega
  have found := List.getElem?_eq_getElem few
  refine ⟨index, _, rfl, found, (inv.layout.body.readSlot found).1, ?_⟩
  rw [inv.layout.body.getTuple found]

theorem Inv.exact (inv : s.Inv) : s.Exact where
  sized := inv.layout.body.sized
  slots := by
    have room := inv.layout.body.room
    obtain ⟨few, -⟩ := TablePageBytes.few_of_room room
    rw [inv.layout.numRows]
    omega
  areas := by
    intro rowId first last
    obtain ⟨index, record, rfl, found, offset, size⟩ := inv.slot first last
    obtain ⟨front, ends⟩ := inv.layout.body.inside found
    rw [offset, size, TablePageBytes.slotOffset, inv.layout.numRows, Nat.mul_comm]
    exact ⟨front, by omega⟩
  apart := by
    intro earlier later first behind last
    obtain ⟨index, record, rfl, found, offset, size⟩ := inv.slot first (by omega)
    obtain ⟨index', record', rfl, found', offset', size'⟩ := inv.slot (by omega) last
    rw [offset, size, offset']
    exact TablePageBytes.start_add_le found (by omega)
  refuses := TablePageBytes.insertTuple_none
  refused _ := TablePageBytes.insertTuple_refused
  tuples := by
    intro entry member
    obtain ⟨index, at_⟩ := List.getElem?_of_mem member
    obtain ⟨sized, payload⟩ := inv.payload entry member
    have found : (s.stored.map StoredTuple.record)[index]? = some entry.record := by simp [at_]
    rw [inv.numbered index entry at_, inv.layout.body.getTuple found, Record.encode, Record.size,
      payload, List.length_drop, Nat.add_sub_cancel' sized]
  reload := inv.layout.load

/-- The operations leave a page of whole tuples, whatever their order. -/
theorem tuples_never_move (pageId : UInt64) (data : PageBytes) (calls : List PageCall)
    (reached : Transition.run step (start pageId data) calls = some s) : s.Exact := by
  have inv : s.Inv := Transition.invariant (inv_start pageId data)
    (fun _ call _ inv taken => inv.step call taken) reached
  exact inv.exact

set_option maxRecDepth 100000 in
theorem tuples_never_move_twoTuples : ∃ s, Transition.run step (start 7 zeroPage)
      [.insertTuple (List.replicate 22 0), .insertTuple (List.replicate 40 1),
        .markDelete ⟨7, 1⟩ 5 ⟨9, 20⟩, .reload, .markDead ⟨7, 2⟩] = some s ∧
    s.stored.length = 2 ∧ s.Exact :=
  ⟨_, rfl, rfl, tuples_never_move 7 zeroPage
    [.insertTuple (List.replicate 22 0), .insertTuple (List.replicate 40 1),
      .markDelete ⟨7, 1⟩ 5 ⟨9, 20⟩, .reload, .markDead ⟨7, 2⟩] rfl⟩

end PageRun

end YourSQL
