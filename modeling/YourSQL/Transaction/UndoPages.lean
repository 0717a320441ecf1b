import YourSQL.Storage.Layout

/-! # Appending to the undo log

An undo record that fits a page is appended behind the others, on the page that was
appended to last or on a new one, and can be read back from then on. Rows, chains and
older undo records stay as they are.
-/

namespace YourSQL

/-- The most that a record may need to fit an empty undo page. -/
def UNDO_CAPACITY : Nat := PAGE_SIZE - UNDO_HEADER_SIZE - UNDO_RECORD_OVERHEAD

/-- All that has changed is that there are more undo records, and perhaps new pages. -/
structure Database.UndoGrown (s s' : Database) : Prop where
  tables : ∀ p, (s'.page p).table? = (s.page p).table?
  undo : ∀ pointer record, s.undoRecord pointer = some record →
    s'.undoRecord pointer = some record
  items : s'.items = s.items
  txnManager : s'.txnManager = s.txnManager
  journal : s'.journal = s.journal
  log : s'.log = s.log
  nextPageId : s.nextPageId ≤ s'.nextPageId

namespace Database.UndoGrown

variable {s s' s'' : Database}

theorem refl (s : Database) : s.UndoGrown s :=
  ⟨fun _ => rfl, fun _ _ found => found, rfl, rfl, rfl, rfl, le_rfl⟩

theorem trans (first : s.UndoGrown s') (second : s'.UndoGrown s'') : s.UndoGrown s'' where
  tables p := (second.tables p).trans (first.tables p)
  undo pointer record found := second.undo pointer record (first.undo pointer record found)
  items := second.items.trans first.items
  txnManager := second.txnManager.trans first.txnManager
  journal := second.journal.trans first.journal
  log := second.log.trans first.log
  nextPageId := first.nextPageId.trans second.nextPageId

/-- Pool and files do not matter. -/
theorem of_same (page : s'.page = s.page) (items : s'.items = s.items)
    (txnManager : s'.txnManager = s.txnManager) (journal : s'.journal = s.journal)
    (log : s'.log = s.log) (nextPageId : s'.nextPageId = s.nextPageId) : s.UndoGrown s' where
  tables p := by rw [page]
  undo pointer record found := by
    rw [Database.undoRecord, page]
    exact found
  items := items
  txnManager := txnManager
  journal := journal
  log := log
  nextPageId := nextPageId.ge

theorem store (grown : s.UndoGrown s') (tableOf : Nat → Nat) :
    s'.store tableOf = s.store tableOf := by
  have asTable : ∀ p, (s'.page p).asTable = (s.page p).asTable := fun p => by
    rw [PageData.asTable_eq, PageData.asTable_eq, grown.tables]
  simp only [Database.store, asTable, grown.items]

theorem consistent (grown : s.UndoGrown s') {tableOf : Nat → Nat}
    (consistent : s.Consistent tableOf) (pinned : s'.pins META_PAGE_ID ≠ 0) :
    s'.Consistent tableOf where
  header p image page := by
    rw [← PageData.table?_eq_some, grown.tables, PageData.table?_eq_some] at page
    exact consistent.header p image page
  item p image page records := by
    rw [← PageData.table?_eq_some, grown.tables, PageData.table?_eq_some] at page
    rw [grown.items]
    exact consistent.item p image page records
  pinned := pinned

end Database.UndoGrown

namespace UndoImage

@[simp] theorem records_load (image : UndoImage) : image.load.records = image.records := by
  unfold load
  split <;> rfl

@[simp] theorem readRecord_load (image : UndoImage) (offset : Nat) :
    image.load.readRecord offset = image.readRecord offset := by
  simp [readRecord]

theorem load_eq {image : UndoImage} (written : UNDO_HEADER_SIZE ≤ image.freeOffset) :
    image.load = image := if_neg (by omega)

theorem readRecord_append_of_some {image : UndoImage} {offset : Nat} {old : UndoLogRecord}
    (found : image.readRecord offset = some old) (record : UndoLogRecord) :
    (image.append record).readRecord offset = some old := by
  simp only [readRecord, Option.map_eq_some_iff] at found ⊢
  obtain ⟨entry, found, same⟩ := found
  exact ⟨entry, by simp [append, found], same⟩

theorem readRecord_append_self {image : UndoImage}
    (below : ∀ entry ∈ image.records, entry.1 < image.freeOffset) (record : UndoLogRecord) :
    (image.append record).readRecord image.freeOffset = some record := by
  have none : image.records.find? (fun entry => entry.1 == image.freeOffset) = none := by
    rw [List.find?_eq_none]
    intro entry member
    have := below entry member
    simp only [beq_iff_eq]
    omega
  simp [readRecord, append, none]

theorem readRecord_append_of_ne (image : UndoImage) {offset : Nat} (apart : offset ≠ image.freeOffset)
    (record : UndoLogRecord) : (image.append record).readRecord offset = image.readRecord offset := by
  simp only [readRecord, append, List.find?_append]
  cases image.records.find? fun entry => entry.1 == offset with
  | some entry => rfl
  | none => simp [Ne.symm apart]

end UndoImage

/-- An undo page is replaced by one with the same records. -/
theorem Database.undoRecord_setUndo {s s' : Database} {id : Nat} {image : UndoImage}
    (page : s'.page = Function.update s.page id (.undo image))
    (same : ∀ offset, image.readRecord offset = (s.page id).asUndo.readRecord offset) :
    s'.undoRecord = s.undoRecord := by
  funext pointer
  simp only [Database.undoRecord, UndoImage.readRecord_load, page]
  by_cases here : pointer.pageId = id
  · rw [here, Function.update_self, PageData.asUndo, same]
  · rw [Function.update_of_ne here]

/-- A record is appended to an undo page. -/
theorem Database.undoRecord_append {s s' : Database} {id : Nat} {image : UndoImage}
    {record : UndoLogRecord} (before : s.page id = .undo image)
    (page : s'.page = Function.update s.page id (.undo (image.append record)))
    (below : ∀ entry ∈ image.records, entry.1 < image.freeOffset) :
    s'.undoRecord = Function.update s.undoRecord ⟨id, image.freeOffset⟩ (some record.payload) := by
  funext pointer
  rw [Database.undoRecord, UndoImage.readRecord_load, page]
  by_cases here : pointer = ⟨id, image.freeOffset⟩
  · rw [here, Function.update_self, Function.update_self, PageData.asUndo,
      UndoImage.readRecord_append_self below, Option.map_some]
  · rw [Function.update_of_ne here, Database.undoRecord, UndoImage.readRecord_load]
    by_cases on_page : pointer.pageId = id
    · have apart : pointer.slot ≠ image.freeOffset := by
        intro same
        apply here
        cases pointer
        cases on_page
        cases same
        rfl
      rw [on_page, Function.update_self, before, PageData.asUndo, PageData.asUndo,
        UndoImage.readRecord_append_of_ne image apart]
    · rw [Function.update_of_ne on_page]

variable {s s' : Database} {pages : Nat → List Nat} {tableOf : Nat → Nat}

theorem Layout.congr (layout : Layout s pages tableOf) (page : s'.page = s.page)
    (items : s'.items = s.items) (nextPageId : s'.nextPageId = s.nextPageId)
    (undoLog : s'.undoLog = s.undoLog) (log : s'.log = s.log) (storage : s'.storage = s.storage) :
    Layout s' pages tableOf := by
  apply layout.same
  refine
    { next := ?_
      undo := ?_
      ends := ?_
      nextPageId := nextPageId
      undoLog := undoLog
      capacity := congrArg _ log
      storage := storage }
  · funext p
    rw [Database.next, page, Database.next]
  · exact fun p => by rw [page]
  · exact fun t => by rw [items]

/-- An undo page is written. -/
theorem Layout.setUndo (layout : Layout s pages tableOf) {id : Nat} {image : UndoImage}
    (page : s'.page = Function.update s.page id (.undo image))
    (noTable : (s.page id).table? = none) (inner : id ≠ META_PAGE_ID) (below : id < s'.nextPageId)
    (grown : s.nextPageId ≤ s'.nextPageId) (items : s'.items = s.items)
    (undoLog : s'.undoLog = s.undoLog ∧ (s.page id).undo?.isSome = true ∨
      s'.undoLog = some ⟨id⟩ ∧ s.nextPageId ≤ id)
    (offsets : UNDO_HEADER_SIZE ≤ image.freeOffset ∧
      ∀ entry ∈ image.records, entry.1 < image.freeOffset)
    (log : s'.log = s.log) (storage : s'.storage = s.storage) : Layout s' pages tableOf := by
  have tables : ∀ p, (s'.page p).table? = (s.page p).table? := by
    intro p
    by_cases here : p = id
    · rw [page, here, Function.update_self, noTable]
      rfl
    · rw [page, Function.update_of_ne here]
  have next : s'.next = s.next := by
    funext p
    rw [Database.next, tables, Database.next]
  refine
    { positive := layout.positive.trans grown
      blank := ?_
      linked := ?_
      last := items ▸ layout.last
      noItem := items ▸ layout.noItem
      member := ?_
      nodup := layout.nodup
      undoLog := ?_
      offsets := ?_
      newest := ?_
      capacity := log ▸ layout.capacity
      storage := storage.trans layout.storage }
  · intro p outside
    have ne : p ≠ id := by
      rcases outside with rfl | above
      · exact inner.symm
      · omega
    rw [page, Function.update_of_ne ne]
    exact layout.blank p (outside.imp_right fun above => by omega)
  · rw [next, items]
    exact layout.linked
  · intro t p
    rw [tables]
    exact layout.member t p
  · have here : (s'.page id).undo?.isSome = true := by
      rw [page, Function.update_self]
      rfl
    rcases undoLog with ⟨same, -⟩ | ⟨new, -⟩
    · rw [same]
      obtain ⟨undoLog, found, there⟩ := layout.undoLog
      refine ⟨undoLog, found, there.imp_right fun some => ?_⟩
      by_cases same : undoLog.undoPageId = id
      · exact same ▸ here
      · rw [page, Function.update_of_ne same]
        exact some
    · exact ⟨_, new, .inr here⟩
  · intro p image' found
    rw [page] at found
    by_cases same : p = id
    · rw [same, Function.update_self] at found
      cases found
      exact offsets
    · rw [Function.update_of_ne same] at found
      exact layout.offsets p image' found
  · intro newest p found here
    rcases undoLog with ⟨same, before⟩ | ⟨new, above⟩
    · by_cases on_page : p = id
      · rw [on_page]
        exact layout.newest newest id (same ▸ found) before
      · rw [page, Function.update_of_ne on_page] at here
        exact layout.newest newest p (same ▸ found) here
    · obtain rfl := Option.some.inj (new.symm.trans found)
      by_cases on_page : p = id
      · exact on_page.le
      · rw [page, Function.update_of_ne on_page] at here
        by_contra outside
        change ¬ p ≤ id at outside
        rw [layout.blank p (.inr (by omega))] at here
        cases here

theorem Database.UndoGrown.setUndo {id : Nat} {image : UndoImage}
    (page : s'.page = Function.update s.page id (.undo image))
    (noTable : (s.page id).table? = none)
    (kept : ∀ offset record, (s.page id).asUndo.readRecord offset = some record →
      image.readRecord offset = some record)
    (items : s'.items = s.items) (txnManager : s'.txnManager = s.txnManager)
    (journal : s'.journal = s.journal) (log : s'.log = s.log)
    (nextPageId : s.nextPageId ≤ s'.nextPageId) : s.UndoGrown s' where
  tables p := by
    by_cases here : p = id
    · rw [page, here, Function.update_self, noTable]
      rfl
    · rw [page, Function.update_of_ne here]
  undo pointer record found := by
    simp only [Database.undoRecord, UndoImage.readRecord_load, page] at found ⊢
    by_cases here : pointer.pageId = id
    · rw [here, Function.update_self]
      rw [here] at found
      obtain ⟨entry, there, rfl⟩ := Option.map_eq_some_iff.mp found
      rw [PageData.asUndo, kept _ _ there, Option.map_some]
    · rw [Function.update_of_ne here]
      exact found
  items := items
  txnManager := txnManager
  journal := journal
  log := log
  nextPageId := nextPageId

/-- An undo page is open for the next record, and pinned for that. -/
structure UndoOpen (pages : Nat → List Nat) (tableOf : Nat → Nat) (s s' : Database) (id : Nat) :
    Prop where
  layout : Layout s' pages tableOf
  grown : s.UndoGrown s'
  page : ∃ image, s'.page id = .undo image
  pins : ∀ p, p < s.nextPageId → s'.pins p = s.pins p + if p = id then 1 else 0
  current : s'.undoLog = some ⟨id⟩
  pinned : s'.pins id ≠ 0
  swaps : s.Unborn → s.Swaps [] s' [id]

theorem run_newUndoPage {u : Database} (layout : Layout u pages tableOf) (grown : s.UndoGrown u)
    (pins : ∀ p, p < s.nextPageId → u.pins p = s.pins p)
    (swaps : s.Unborn → s.Swaps [] u []) :
    ∃ s', newUndoPage.run u = (.ok u.nextPageId, s') ∧
      UndoOpen pages tableOf s s' u.nextPageId ∧
      s'.page u.nextPageId = .undo (.initNew u.nextPageId) ∧
      s'.undoRecord = u.undoRecord := by
  let id := u.nextPageId
  let s' : Database :=
    { u with
      nextPageId := id + 1
      page := Function.update (Function.update u.page id .blank) id (.undo (.initNew id))
      dirty := Function.update (Function.update u.dirty id false) id true
      pins := Function.update u.pins id 1
      undoLog := some { undoPageId := id } }
  have blank : u.page id = .blank := layout.blank id (.inr le_rfl)
  have page : s'.page = Function.update u.page id (.undo (.initNew id)) := Function.update_idem ..
  have noTable : (u.page id).table? = none := by
    rw [blank]
    rfl
  have here : s'.page id = .undo (.initNew id) := by rw [page, Function.update_self]
  have same : s'.undoRecord = u.undoRecord := by
    apply Database.undoRecord_setUndo page
    intro offset
    rw [blank]
    rfl
  refine ⟨s', rfl, ?_, here, same⟩
  refine
    { layout := ?_
      grown := grown.trans ?_
      page := ⟨_, here⟩
      pins := ?_
      current := rfl
      pinned := by simp [s', id]
      swaps := fun unborn =>
        have unborn' := (swaps unborn).unborn unborn
        (swaps unborn).trans
          (@Database.Swaps.newPage u s' unborn' rfl rfl (fun _ holds => holds) []) }
  · apply layout.setUndo page noTable
    · have := layout.positive
      simp only [META_PAGE_ID]
      omega
    · exact Nat.lt_succ_self id
    · exact Nat.le_succ id
    · rfl
    · exact .inr ⟨rfl, le_rfl⟩
    · exact ⟨le_rfl, by simp [UndoImage.initNew]⟩
    · rfl
    · rfl
  · apply Database.UndoGrown.setUndo page noTable
    · intro offset record found
      rw [blank] at found
      simp [PageData.asUndo, UndoImage.readRecord] at found
    · rfl
    · rfl
    · rfl
    · rfl
    · exact Nat.le_succ id
  · intro p below
    have ne : p ≠ id := by
      have := grown.nextPageId
      omega
    simp [s', ne, pins p below, id]

theorem run_openUndoPage (layout : Layout s pages tableOf) {undoLog : UndoLogManager}
    (found : s.undoLog = some undoLog) :
    ∃ s' id, (openUndoPage undoLog).run s = (.ok id, s') ∧ UndoOpen pages tableOf s s' id ∧
      s'.undoRecord = s.undoRecord := by
  obtain ⟨undoLog', found', page⟩ := layout.undoLog
  obtain rfl : undoLog = undoLog' := Option.some.inj (found.symm.trans found')
  unfold openUndoPage
  by_cases first : undoLog.undoPageId = INVALID_PAGE_ID
  · rw [if_pos first]
    obtain ⟨s', ran, opened, -, same⟩ := run_newUndoPage layout (.refl s) (fun _ _ => rfl) fun _ => .refl s []
    exact ⟨s', _, ran, opened, same⟩
  · rw [if_neg first]
    obtain ⟨image, here⟩ := Option.isSome_iff_exists.mp (page.resolve_left first)
    have inside : undoLog.undoPageId < s.nextPageId := by
      by_contra outside
      rw [layout.blank _ (.inr (by omega))] at here
      cases here
    refine ⟨s.pin undoLog.undoPageId, _, rfl, ?_, rfl⟩
    refine
      { layout := layout.congr rfl rfl rfl rfl rfl rfl
        grown := .of_same rfl rfl rfl rfl rfl rfl
        page := ⟨image, PageData.undo?_eq_some.mp here⟩
        pins := ?_
        current := found
        pinned := by simp [Database.pin]
        swaps := fun _ => .pin s inside [] }
    intro p _
    by_cases same : p = undoLog.undoPageId
    · simp [Database.pin, same]
    · simp [Database.pin, same]

/-- The page is released, and all pages are pinned as they were. -/
theorem UndoOpen.release {id : Nat} (opened : UndoOpen pages tableOf s s' id) :
    ∃ s'', (YourSQL.release id).run s' = (.ok ⟨⟩, s'') ∧ Layout s'' pages tableOf ∧
      s.UndoGrown s'' ∧ s''.page = s'.page ∧ s''.undoRecord = s'.undoRecord ∧
      (∀ p, p < s.nextPageId → s''.pins p = s.pins p) ∧ (s.Unborn → s.Swaps [] s'' []) := by
  have page : ((s'.unpin id).writeBack id).page = s'.page := by simp [Database.unpin]
  refine ⟨_, run_release opened.pinned, ?_, ?_, page, ?_, ?_, fun unborn =>
    (opened.swaps unborn).trans (.release s' id [])⟩
  · apply opened.layout.congr <;> simp [Database.unpin]
  · refine opened.grown.trans (.of_same ?_ ?_ ?_ ?_ ?_ ?_) <;> simp [Database.unpin]
  · funext pointer
    rw [Database.undoRecord, page, Database.undoRecord]
  · intro p below
    have kept := opened.pins p below
    by_cases same : p = id
    · simp [Database.unpin, same, same ▸ kept]
    · simpa [Database.unpin, same] using kept

theorem run_makeUndoRoom {u : Database} {id : Nat} (opened : UndoOpen pages tableOf s u id)
    (payloadSize : Nat) :
    ∃ s' id', (makeUndoRoom id payloadSize).run u = (.ok id', s') ∧
      UndoOpen pages tableOf s s' id' ∧ s'.undoRecord = u.undoRecord ∧
      ((s'.page id').asUndo.load.hasSpaceFor payloadSize = true ↔ payloadSize ≤ UNDO_CAPACITY) := by
  obtain ⟨image, page⟩ := opened.page
  unfold makeUndoRoom
  simp only [Program.run_get_bind]
  by_cases space : (u.page id).asUndo.load.hasSpaceFor payloadSize = true
  · rw [if_pos space]
    refine ⟨u, id, rfl, opened, rfl, iff_of_true space ?_⟩
    have written := (opened.layout.offsets id image page).1
    rw [page, PageData.asUndo, UndoImage.load_eq written] at space
    simp only [UndoImage.hasSpaceFor, decide_eq_true_eq] at space
    simp only [UNDO_CAPACITY]
    omega
  · rw [if_neg space]
    obtain ⟨u', released, layout, grown, -, same, pins, swaps⟩ := opened.release
    obtain ⟨s', ran, opened', new, same'⟩ := run_newUndoPage layout grown pins swaps
    refine ⟨s', _, (Program.run_bind_of_ok released).trans ran, opened', same'.trans same, ?_⟩
    rw [new, PageData.asUndo, UndoImage.load_eq le_rfl, UndoImage.hasSpaceFor, decide_eq_true_iff]
    simp only [UndoImage.initNew, UNDO_CAPACITY, PAGE_SIZE, UNDO_HEADER_SIZE, UNDO_RECORD_OVERHEAD]
    omega

/-- The free offset of the page that was appended to last is behind all undo records. -/
theorem Layout.isNext (layout : Layout s pages tableOf) {id : Nat} {image : UndoImage}
    (current : s.undoLog = some ⟨id⟩) (page : s.page id = .undo image) :
    UndoPointer.IsNext s.undoRecord ⟨id, image.freeOffset⟩ := by
  intro other older found
  rw [Database.undoRecord, UndoImage.readRecord_load, Option.map_eq_some_iff] at found
  obtain ⟨record, read, -⟩ := found
  rw [UndoImage.readRecord, Option.map_eq_some_iff] at read
  obtain ⟨entry, first, -⟩ := read
  have member := List.mem_of_find?_eq_some first
  have here : entry.1 = other.slot := by simpa using List.find?_some first
  have isUndo : (s.page other.pageId).undo?.isSome = true := by
    cases at_page : s.page other.pageId with
    | undo image => rfl
    | blank =>
        rw [at_page] at member
        cases member
    | table image =>
        rw [at_page] at member
        cases member
  have upTo : other.pageId ≤ id := layout.newest ⟨id⟩ other.pageId current isUndo
  rcases Nat.lt_or_eq_of_le upTo with earlier | same
  · exact .inl earlier
  · refine .inr ⟨same, ?_⟩
    rw [same, page] at member
    exact here ▸ (layout.offsets id image page).2 entry member

/-- `AppendUndoRecord` with a record that fits an empty page, and with one that does not. -/
theorem run_appendUndoRecord (layout : Layout s pages tableOf) {undoLog : UndoLogManager}
    (found : s.undoLog = some undoLog) (record : UndoLogRecord) :
    ∃ s', Layout s' pages tableOf ∧ s.UndoGrown s' ∧
      (∀ p, p < s.nextPageId → s'.pins p = s.pins p) ∧ (s.Unborn → s.Swaps [] s' []) ∧
      if record.payload.size ≤ UNDO_CAPACITY then
        ∃ pointer, (appendUndoRecord undoLog record).run s = (.ok pointer, s') ∧
          pointer.isNull = false ∧ pointer.IsNext s.undoRecord ∧
          s'.undoRecord = Function.update s.undoRecord pointer (some record.payload)
      else
        (appendUndoRecord undoLog record).run s =
          (.error "UndoLogManager::AppendUndoRecord fail.", s') ∧
        s'.undoRecord = s.undoRecord := by
  obtain ⟨s₁, id₁, ran₁, opened₁, same₁⟩ := run_openUndoPage layout found
  obtain ⟨s₂, id, ran₂, opened, same₂, space⟩ := run_makeUndoRoom opened₁ record.payload.size
  have same := same₂.trans same₁
  obtain ⟨image, page⟩ := opened.page
  obtain ⟨written, below⟩ := opened.layout.offsets id image page
  have asUndo : (s₂.page id).asUndo.load = image := by
    rw [page, PageData.asUndo, UndoImage.load_eq written]
  unfold appendUndoRecord
  rw [Program.run_bind_of_ok ran₁, Program.run_bind_of_ok ran₂, Program.run_get_bind]
  simp only [asUndo] at space ⊢
  by_cases fits : record.payload.size ≤ UNDO_CAPACITY
  · simp only [space.mpr fits, Bool.not_true, Bool.false_eq_true, if_false, fits, if_true,
      Program.run_modify_bind]
    let s₃ := s₂.setPage id (.undo (image.append record))
    have page₃ : s₃.page = Function.update s₂.page id (.undo (image.append record)) := rfl
    have noTable : (s₂.page id).table? = none := by
      rw [page]
      rfl
    have inner : id ≠ META_PAGE_ID := by
      rintro rfl
      rw [opened.layout.blank _ (.inl rfl)] at page
      cases page
    have inside : id < s₂.nextPageId := by
      by_contra outside
      rw [opened.layout.blank id (.inr (by omega))] at page
      cases page
    have isUndo : (s₂.page id).undo?.isSome = true := by
      rw [page]
      rfl
    have opened₃ : UndoOpen pages tableOf s s₃ id := by
      refine
        { layout := ?_
          grown := opened.grown.trans ?_
          page := ⟨_, s₂.page_setPage_self ..⟩
          pins := opened.pins
          current := opened.current
          pinned := opened.pinned
          swaps := fun unborn => (opened.swaps unborn).trans
            (@Database.Swaps.of_pins s₂ s₃ rfl le_rfl (fun _ holds => holds) _) }
      · apply opened.layout.setUndo page₃ noTable inner inside le_rfl rfl (.inl ⟨rfl, isUndo⟩)
        · refine ⟨?_, ?_⟩
          · simp only [UndoImage.append]
            omega
          · intro entry member
            simp only [UndoImage.append, List.mem_append, List.mem_singleton] at member ⊢
            rcases member with old | rfl
            · have := below entry old
              omega
            · simp only [UNDO_RECORD_OVERHEAD]
              omega
        · rfl
        · rfl
      · apply Database.UndoGrown.setUndo page₃ noTable
        · intro offset old there
          rw [page, PageData.asUndo] at there
          exact UndoImage.readRecord_append_of_some there record
        · rfl
        · rfl
        · rfl
        · rfl
        · exact le_rfl
    have after := Database.undoRecord_append page page₃ below
    obtain ⟨s', released, layout', grown, -, kept, pins, swaps⟩ := opened₃.release
    refine ⟨s', layout', grown, pins, swaps, ⟨id, image.freeOffset⟩, ?_, ?_, ?_, ?_⟩
    · exact (Program.run_bind_of_ok released).trans rfl
    · exact beq_false_of_ne inner
    · exact same ▸ opened.layout.isNext opened.current page
    · rw [kept, after, same]
  · have full : image.hasSpaceFor record.payload.size = false := by
      simpa using fun has => fits (space.mp has)
    obtain ⟨s', released, layout', grown, -, kept, pins, swaps⟩ := opened.release
    refine ⟨s', layout', grown, pins, swaps, ?_⟩
    simp only [full, Bool.not_false, if_true, fits, if_false]
    exact ⟨(Program.run_bind_of_ok released).trans rfl, kept.trans same⟩

end YourSQL
