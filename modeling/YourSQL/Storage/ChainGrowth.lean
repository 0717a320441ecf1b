import YourSQL.Executor.Iteration

/-! # Longer page chains

INSERT and the second half of UPDATE work on the last page of the table's chain. A
first page is made for a table without one, and a further page is linked behind the
last one when that is full. No record changes its place for that.
-/

namespace YourSQL

variable {s s' : Database} {pages : Nat → List Nat} {tableOf : Nat → Nat} {t : Nat}

namespace Layout

/-- The page that is allocated next belongs to nobody yet. -/
theorem next_blank (layout : Layout s pages tableOf) : s.page s.nextPageId = .blank :=
  layout.blank s.nextPageId (.inr le_rfl)

theorem nextPageId_ne (layout : Layout s pages tableOf) : s.nextPageId ≠ INVALID_PAGE_ID := by
  have := layout.positive
  simp only [INVALID_PAGE_ID]
  omega

theorem mem_of_getLast? (layout : Layout s pages tableOf) {last : Nat}
    (is_last : (pages t).getLast? = some last) :
    (s.page last).table?.isSome = true ∧ tableOf last = t :=
  (layout.member t last).mp (List.mem_of_getLast? is_last)

/-- A new page behind the last one of a table. -/
theorem extend (layout : Layout s pages tableOf) {item item' : MetaItem}
    (entry : s.items t = some item) (new : s'.next s.nextPageId = some INVALID_PAGE_ID)
    (linked : ∀ last, (pages t).getLast? = some last → s'.next last = some s.nextPageId)
    (others : ∀ p, p ≠ s.nextPageId → (pages t).getLast? ≠ some p → s'.next p = s.next p)
    (undo : ∀ p, (s'.page p).undo? = (s.page p).undo?)
    (items : s'.items = Function.update s.items t (some item'))
    (ends : item'.ends = ((pages t).head?.getD s.nextPageId, s.nextPageId))
    (nextPageId : s'.nextPageId = s.nextPageId + 1) (undoLog : s'.undoLog = s.undoLog)
    (log : s'.log = s.log) (storage : s'.storage = s.storage) :
    Layout s' (Function.update pages t (pages t ++ [s.nextPageId]))
      (Function.update tableOf s.nextPageId t) := by
  have inside : ∀ {u p}, p ∈ pages u → p ≠ s.nextPageId := fun member =>
    (layout.lt_of_mem member).ne
  have isSome : ∀ p, p ≠ s.nextPageId →
      (s'.page p).table?.isSome = (s.page p).table?.isSome := by
    intro p old
    by_cases is_last : (pages t).getLast? = some p
    · have after := congrArg Option.isSome (linked p is_last)
      rw [(layout.mem_of_getLast? is_last).1]
      simpa [Database.next] using after
    · have after := congrArg Option.isSome (others p old is_last)
      simpa [Database.next] using after
  refine
    { positive := by omega
      blank := ?_
      linked := ?_
      last := ?_
      noItem := ?_
      member := ?_
      nodup := ?_
      undoLog := ?_
      offsets := ?_
      newest := ?_
      capacity := log ▸ layout.capacity
      storage := storage.trans layout.storage }
  · intro p outside
    have before : s.page p = .blank := layout.blank p (outside.imp_right fun above => by omega)
    have old : p ≠ s.nextPageId := by
      have := layout.positive
      simp only [META_PAGE_ID] at outside
      omega
    apply PageData.eq_blank
    · have some := isSome p old
      rw [before] at some
      simpa [PageData.table?] using some
    · rw [undo, before]
      rfl
  · intro u found entry'
    by_cases here : u = t
    · subst here
      rw [items, Function.update_self] at entry'
      obtain rfl : item' = found := Option.some.inj entry'
      have chain := layout.linked u item entry
      rw [Function.update_self, show item'.firstPageId = _ from congrArg Prod.fst ends]
      rcases List.eq_nil_or_concat (pages u) with empty | ⟨before, last, chained⟩
      · rw [empty]
        exact ⟨rfl, layout.nextPageId_ne, INVALID_PAGE_ID, new, rfl⟩
      · rw [List.concat_eq_append] at chained
        have is_last : (pages u).getLast? = some last := by simp [chained]
        have first : (pages u).head?.getD s.nextPageId = item.firstPageId := by
          rw [chain.head, chained]
          cases before <;> rfl
        rw [first]
        rw [chained] at chain ⊢
        rw [List.append_assoc, List.singleton_append]
        apply chain.snoc (linked last is_last) new layout.nextPageId_ne
        intro node member
        have inChain : node ∈ pages u := by simp [chained, member]
        apply others node (inside inChain)
        intro same
        have distinct := layout.nodup u
        rw [chained, List.nodup_append] at distinct
        obtain rfl : last = node := Option.some.inj (is_last.symm.trans same)
        exact distinct.2.2 last member last (List.mem_singleton_self _) rfl
    · rw [items, Function.update_of_ne here] at entry'
      rw [Function.update_of_ne here]
      apply (layout.linked u found entry').congr
      intro node member
      apply others node (inside member)
      intro is_last
      exact here (((layout.member u node).mp member).2.symm.trans (layout.mem_of_getLast? is_last).2)
  · intro u found entry'
    by_cases here : u = t
    · subst here
      rw [items, Function.update_self] at entry'
      obtain rfl : item' = found := Option.some.inj entry'
      rw [Function.update_self, List.getLast?_concat, show item'.lastPageId = _ from congrArg Prod.snd ends]
      rfl
    · rw [items, Function.update_of_ne here] at entry'
      rw [Function.update_of_ne here]
      exact layout.last u found entry'
  · intro u found
    have here : u ≠ t := by
      rintro rfl
      rw [items, Function.update_self] at found
      cases found
    rw [items, Function.update_of_ne here] at found
    rw [Function.update_of_ne here]
    exact layout.noItem u found
  · intro u p
    by_cases isNew : p = s.nextPageId
    · subst isNew
      have table := congrArg Option.isSome new
      have notOld : s.nextPageId ∉ pages u := fun member => inside member rfl
      simp only [Database.next, Option.isSome_map, Option.isSome_some] at table
      by_cases here : u = t
      · subst here
        simp [table]
      · simp [here, notOld, Ne.symm here]
    · rw [isSome p isNew, Function.update_of_ne isNew]
      by_cases here : u = t
      · subst here
        rw [Function.update_self, ← layout.member]
        simp [isNew]
      · rw [Function.update_of_ne here]
        exact layout.member u p
  · intro u
    by_cases here : u = t
    · subst here
      rw [Function.update_self, List.nodup_append]
      refine ⟨layout.nodup u, by simp, ?_⟩
      intro p member q isNew same
      rw [List.mem_singleton] at isNew
      exact inside member (same.trans isNew)
    · rw [Function.update_of_ne here]
      exact layout.nodup u
  · rw [undoLog]
    obtain ⟨undoLog, found, page⟩ := layout.undoLog
    exact ⟨undoLog, found, page.imp_right fun some => by rw [undo]; exact some⟩
  · intro p image page
    rw [← PageData.undo?_eq_some, undo, PageData.undo?_eq_some] at page
    exact layout.offsets p image page
  · intro newest p found here
    rw [undo] at here
    exact layout.newest newest p (undoLog ▸ found) here

end Layout

/-- The addresses of each table's records, along its chain. -/
def Database.order (s : Database) (pages : Nat → List Nat) (t : Nat) : List RID :=
  s.addresses (pages t)

theorem Database.order_congr (rowCount : s'.rowCount = s.rowCount) (pages : Nat → List Nat) :
    s'.order pages = s.order pages := by
  funext t
  rw [order, addresses_congr rowCount, order]

/-- A longer chain leaves the records and the undo records as they were. -/
theorem Database.Sound.extend (sound : s.Sound pages tableOf) {item item' : MetaItem}
    (entry : s.items t = some item) {linked : Nat → PageData}
    (kept : ∀ p, (pages t).getLast? ≠ some p → linked p = s.page p)
    (link : ∀ last image, (pages t).getLast? = some last → s.page last = .table image →
      linked last =
        .table { image with header := { image.header with nextPageId := s.nextPageId } })
    (page : s'.page =
      Function.update linked s.nextPageId (.table ⟨{ pageId := s.nextPageId }, []⟩))
    (items : s'.items = Function.update s.items t (some item'))
    (ends : item'.ends = ((pages t).head?.getD s.nextPageId, s.nextPageId))
    (numRows : item'.numRows = item.numRows) (clamped : item'.clamped = item.clamped)
    (nextPageId : s'.nextPageId = s.nextPageId + 1) (undoLog : s'.undoLog = s.undoLog)
    (log : s'.log = s.log) (storage : s'.storage = s.storage)
    (txnManager : s'.txnManager = s.txnManager) (journal : s'.journal = s.journal)
    (pinned : s'.pins META_PAGE_ID ≠ 0) :
    s'.Sound (Function.update pages t (pages t ++ [s.nextPageId]))
        (Function.update tableOf s.nextPageId t) ∧
      s'.versions (Function.update tableOf s.nextPageId t) = s.versions tableOf ∧
      s'.order (Function.update pages t (pages t ++ [s.nextPageId])) = s.order pages := by
  have blank := sound.layout.next_blank
  have new : s'.page s.nextPageId = .table ⟨{ pageId := s.nextPageId }, []⟩ := by
    rw [page, Function.update_self]
  have others : ∀ p, p ≠ s.nextPageId → (pages t).getLast? ≠ some p → s'.page p = s.page p := by
    intro p old notLast
    rw [page, Function.update_of_ne old, kept p notLast]
  have lasts : ∀ last image, (pages t).getLast? = some last → s.page last = .table image →
      s'.page last =
        .table { image with header := { image.header with nextPageId := s.nextPageId } } := by
    intro last image is_last before
    have old : last ≠ s.nextPageId :=
      (sound.layout.lt_of_mem (List.mem_of_getLast? is_last)).ne
    rw [page, Function.update_of_ne old, link last image is_last before]
  have either : ∀ p, p ≠ s.nextPageId → s'.page p = s.page p ∨ ∃ image, s.page p = .table image ∧
      s'.page p =
        .table { image with header := { image.header with nextPageId := s.nextPageId } } := by
    intro p old
    by_cases is_last : (pages t).getLast? = some p
    · obtain ⟨image, before⟩ :=
        Option.isSome_iff_exists.mp (sound.layout.mem_of_getLast? is_last).1
      rw [PageData.table?_eq_some] at before
      exact .inr ⟨image, before, lasts p image is_last before⟩
    · exact .inl (others p old is_last)
  have undo : ∀ p, (s'.page p).undo? = (s.page p).undo? := by
    intro p
    by_cases old : p = s.nextPageId
    · rw [old, new, blank]
      rfl
    · rcases either p old with same | ⟨image, before, after⟩
      · rw [same]
      · rw [before, after]
        rfl
  have records : ∀ p, (s'.page p).asTable.records = (s.page p).asTable.records := by
    intro p
    by_cases old : p = s.nextPageId
    · rw [old, new, blank]
      rfl
    · rcases either p old with same | ⟨image, before, after⟩
      · rw [same]
      · rw [before, after]
        rfl
  refine ⟨⟨?_, ?_⟩, ?_, ?_⟩
  · apply sound.layout.extend entry _ _ _ undo items ends nextPageId undoLog log storage
    · rw [Database.next, new]
      rfl
    · intro last is_last
      obtain ⟨image, before⟩ :=
        Option.isSome_iff_exists.mp (sound.layout.mem_of_getLast? is_last).1
      rw [PageData.table?_eq_some] at before
      rw [Database.next, lasts last image is_last before]
      rfl
    · intro p old notLast
      rw [Database.next, others p old notLast, Database.next]
  · refine
      { header := ?_
        item := ?_
        pinned := pinned }
    · intro p image here
      by_cases old : p = s.nextPageId
      · subst old
        rw [new] at here
        cases here
        exact ⟨rfl, rfl⟩
      · rcases either p old with same | ⟨image', before, after⟩
        · rw [same] at here
          exact sound.consistent.header p image here
        · rw [after] at here
          cases here
          exact sound.consistent.header p image' before
    · intro p image here filled
      by_cases old : p = s.nextPageId
      · subst old
        rw [new] at here
        cases here
        exact absurd rfl filled
      · have entry' : ∃ item, s.items (tableOf p) = some item := by
          rcases either p old with same | ⟨image', before, after⟩
          · exact sound.consistent.item p image (same ▸ here) filled
          · rw [after] at here
            cases here
            exact sound.consistent.item p image' before filled
        rw [items, Function.update_of_ne old]
        by_cases same : tableOf p = t
        · exact ⟨item', by rw [same, Function.update_self]⟩
        · rw [Function.update_of_ne same]
          exact entry'
  · have slots : (s'.store (Function.update tableOf s.nextPageId t)).slot =
        (s.store tableOf).slot := by
      funext rid
      have slot : (s'.page rid.pageId).asTable.slot rid.rowId =
          (s.page rid.pageId).asTable.slot rid.rowId := by
        unfold TableImage.slot
        rw [records]
      change Option.map _ ((s'.page rid.pageId).asTable.slot rid.rowId) =
        Option.map _ ((s.page rid.pageId).asTable.slot rid.rowId)
      rw [slot]
      by_cases old : rid.pageId = s.nextPageId
      · cases row : rid.rowId <;> simp [old, blank, PageData.asTable, TableImage.slot]
      · rw [Function.update_of_ne old]
    have undoRecords : s'.undoRecord = s.undoRecord := by
      funext pointer
      rw [Database.undoRecord, PageData.asUndo_eq, undo, Database.undoRecord, PageData.asUndo_eq]
    have store : s'.store (Function.update tableOf s.nextPageId t) = s.store tableOf := by
      refine RecordStore.ext slots ?_ ?_
      all_goals
        funext u
        by_cases here : u = t
        · subst here
          simp [Database.store, items, entry, numRows, clamped]
        · simp [Database.store, items, here]
    rw [Database.versions, store, undoRecords, txnManager, journal]
    rfl
  · have rowCount : s'.rowCount = s.rowCount := by
      funext p
      rw [Database.rowCount, records, Database.rowCount]
    have empty : s.rowCount s.nextPageId = 0 := by
      simp [Database.rowCount, blank, PageData.asTable]
    funext u
    rw [Database.order, Database.addresses_congr rowCount, Database.order]
    by_cases here : u = t
    · subst here
      simp [Database.addresses, empty, pageRids]
    · rw [Function.update_of_ne here]

/-- The last page of a table is open: pinned, and seen by an object. -/
structure LastPage (s : Database) (pages : Nat → List Nat) (tableOf : Nat → Nat) (t : Nat)
    (tp : TablePage) : Prop where
  sound : s.Sound pages tableOf
  sees : tp.Sees tableOf s
  table : tp.tableId = t
  last : (pages t).getLast? = some tp.pageId
  item : ∃ item, s.items t = some item
  pinned : s.pins tp.pageId ≠ 0
  bounded : tp.freeSize ≤ PAGE_SIZE - HEADER_SIZE

/-- The chain of a table has at most grown, and of the pages there were only `p` may have been
    written to. -/
structure Database.Lengthens (s : Database) (pages : Nat → List Nat) (t p : Nat) (s' : Database)
    (pages' : Nat → List Nat) : Prop where
  chain : ∀ q ∈ pages t, q ∈ pages' t
  page : ∀ q, q < s.nextPageId → q ≠ p → s'.page q = s.page q
  nextPageId : s.nextPageId ≤ s'.nextPageId

theorem run_openLastPage (sound : s.Sound pages tableOf) {item : MetaItem}
    (entry : s.items t = some item) :
    ∃ s' tp pages' tableOf', (ExecutorInsert.openLastPage t item).run s = (.ok tp, s') ∧
      LastPage s' pages' tableOf' t tp ∧ s.Lengthens pages t s.nextPageId s' pages' ∧
      s'.versions tableOf' = s.versions tableOf ∧ s'.order pages' = s.order pages ∧
      (s.Unborn → s.Swaps [] s' [tp.pageId]) := by
  have last := sound.layout.last t item entry
  have chain := sound.layout.linked t item entry
  unfold ExecutorInsert.openLastPage
  rcases List.eq_nil_or_concat (pages t) with empty | ⟨before, p, chained⟩
  · rw [empty] at last chain
    have first : item.firstPageId = INVALID_PAGE_ID := chain
    have noLast : item.lastPageId = INVALID_PAGE_ID := last
    rw [if_pos noLast]
    let id := s.nextPageId
    have inner : META_PAGE_ID ≠ id := sound.layout.nextPageId_ne.symm
    let s₁ : Database :=
      { s with
        nextPageId := id + 1
        page := Function.update s.page id .blank
        dirty := Function.update s.dirty id false
        pins := Function.update s.pins id 1 }
    have pinned₁ : s₁.pins META_PAGE_ID ≠ 0 := by
      simpa [s₁, inner] using sound.consistent.pinned
    let item₂ : MetaItem := { item with lastPageId := id }
    let s₂ := (s₁.setItem t item₂).writeMeta
    have entry₂ : s₂.items t = some item₂ := Function.update_self ..
    let item₃ : MetaItem := { item₂ with firstPageId := id }
    let s₃ := (s₂.setItem t item₃).writeMeta
    let s₄ := s₃.setPage id (.table ⟨{ pageId := id }, []⟩)
    have fresh : (newPage).run s = (.ok id, s₁) := rfl
    have lastId : (updateTableLastId t id).run s₁ = (.ok ⟨⟩, s₂) :=
      @run_updateItem s₁ t item entry pinned₁ _ _
    have firstId : (updateTableFirstId t id).run s₂ = (.ok ⟨⟩, s₃) :=
      @run_updateItem s₂ t item₂ entry₂ pinned₁ _ _
    have grown := @Database.Sound.extend s s₄ pages tableOf t sound item item₃ entry s.page
      (fun _ _ => rfl) (by simp [empty]) (by simp [s₄, s₃, s₂, s₁, Database.setPage,
        Database.setItem, Database.writeMeta, id]) (by simp [s₄, s₃, s₂, s₁, Database.setPage,
        Database.setItem, Database.writeMeta]) (by simp [empty, MetaItem.ends, item₃, item₂, id])
      rfl rfl rfl rfl rfl rfl rfl rfl pinned₁
    refine ⟨s₄, ⟨t, id, { pageId := id }, PAGE_SIZE - HEADER_SIZE⟩,
      Function.update pages t (pages t ++ [id]), Function.update tableOf id t, ?_, ?_, ?_,
      grown.2.1, grown.2.2,
      fun unborn => @Database.Swaps.newPage s s₄ unborn rfl rfl (.writeMeta _ _) []⟩
    · rw [Program.run_bind_of_ok fresh, Program.run_bind_of_ok lastId, if_pos first,
        Program.run_bind_of_ok firstId]
      simp [TablePage.init, TablePage.writeHeader, s₄, s₃, s₂, s₁, Database.setPage,
        Database.setItem, Database.writeMeta, PageData.asTable]
    · exact
        { sound := grown.1
          sees := ⟨(@Function.update_self _ _ _ id t tableOf).symm, _,
            Database.page_setPage_self .., rfl⟩
          table := rfl
          last := by simp [id]
          item := ⟨item₃, Function.update_self ..⟩
          pinned := by simp [s₄, s₃, s₂, s₁, Database.setPage, Database.setItem, Database.writeMeta]
          bounded := le_rfl }
    · refine ⟨by simp [empty], ?_, Nat.le_succ _⟩
      intro q _ old
      simp [s₄, s₃, s₂, s₁, Database.setPage, Database.setItem, Database.writeMeta, id, old]
  · rw [List.concat_eq_append] at chained
    have is_last : (pages t).getLast? = some p := by simp [chained]
    rw [is_last, Option.getD_some] at last
    have member : p ∈ pages t := List.mem_of_getLast? is_last
    have positive := sound.layout.pos_of_mem member
    obtain ⟨image, page, of_table⟩ := sound.layout.exists_image member
    rw [last, if_neg (by simp only [INVALID_PAGE_ID]; omega)]
    have same : s.SameLayout (s.pin p) := .of_same rfl rfl rfl rfl rfl rfl
    have pinned : (s.pin p).pins META_PAGE_ID ≠ 0 := by
      have inner : META_PAGE_ID ≠ p := positive.ne
      simpa [Database.pin, inner] using sound.consistent.pinned
    refine ⟨s.pin p, ⟨t, p, image.header, TablePage.freeSpace
      (image.records.take image.header.numRows)⟩, pages, tableOf, ?_, ?_,
      ⟨fun _ member => member, fun _ _ _ => rfl, le_rfl⟩, rfl, rfl, fun _ => .pin s (sound.layout.lt_of_mem member) []⟩
    · simp [fetchPage, TablePage.load, Database.pin, page, PageData.asTable]
    · exact
        { sound := ⟨sound.layout.same same, sound.consistent.congr rfl rfl pinned⟩
          sees := ⟨of_table.symm, image, page, rfl⟩
          table := rfl
          last := is_last
          item := ⟨item, entry⟩
          pinned := by simp [Database.pin]
          bounded := Nat.sub_le .. }

/-- A new page is linked behind the open one, and is open then itself. -/
theorem run_allocateAndLinkNewPage {tp : TablePage} (opened : LastPage s pages tableOf t tp) :
    ∃ s' tp' pages' tableOf', (ExecutorInsert.allocateAndLinkNewPage tp).run s = (.ok tp', s') ∧
      LastPage s' pages' tableOf' t tp' ∧ s.Lengthens pages t tp.pageId s' pages' ∧
      s'.versions tableOf' = s.versions tableOf ∧ s'.order pages' = s.order pages ∧
      (s.Unborn → s.Swaps [tp.pageId] s' [tp'.pageId]) ∧
      tp'.freeSize = PAGE_SIZE - HEADER_SIZE ∧ tp'.pageId = s.nextPageId := by
  have member : tp.pageId ∈ pages t := List.mem_of_getLast? opened.last
  have old : tp.pageId ≠ s.nextPageId := (opened.sound.layout.lt_of_mem member).ne
  have inner : META_PAGE_ID ≠ tp.pageId := (opened.sound.layout.pos_of_mem member).ne
  have inner' : META_PAGE_ID ≠ s.nextPageId := opened.sound.layout.nextPageId_ne.symm
  have blank := opened.sound.layout.next_blank
  obtain ⟨item, entry⟩ := opened.item
  obtain ⟨of_table, image, page, header⟩ := opened.sees
  let id := s.nextPageId
  let linked : TableImage := { image with header := { image.header with nextPageId := id } }
  let s₁ : Database :=
    { s with
      nextPageId := id + 1
      page := Function.update s.page id .blank
      dirty := Function.update s.dirty id false
      pins := Function.update s.pins id 1 }
  have page₁ : s₁.page = s.page := by
    change Function.update s.page id .blank = s.page
    rw [← blank, Function.update_eq_self]
  let s₂ := s₁.setPage tp.pageId (.table linked)
  have pinned₂ : s₂.pins tp.pageId ≠ 0 := by
    simpa [s₂, s₁, Database.setPage, id, old] using opened.pinned
  have meta₂ : s₂.pins META_PAGE_ID ≠ 0 := by
    simpa [s₂, s₁, Database.setPage, id, inner'] using opened.sound.consistent.pinned
  let s₃ := s₂.writeBack tp.pageId
  have pinned₃ : s₃.pins tp.pageId ≠ 0 := by simpa [s₃] using pinned₂
  let s₄ := (s₃.unpin tp.pageId).writeBack tp.pageId
  let s₅ := s₄.setPage id (.table ⟨{ pageId := id }, []⟩)
  have pins₅ : s₅.pins = Function.update s₂.pins tp.pageId (s₂.pins tp.pageId - 1) := by
    simp [s₅, s₄, s₃, Database.setPage, Database.unpin]
  have meta₅ : s₅.pins META_PAGE_ID ≠ 0 := by
    rw [pins₅, Function.update_of_ne inner]
    exact meta₂
  have entry₅ : s₅.items t = some item := by
    simpa [s₅, s₄, s₃, s₂, s₁, Database.setPage, Database.unpin] using entry
  let item' : MetaItem := { item with lastPageId := id }
  let s₆ := (s₅.setItem t item').writeMeta
  have page₄ : s₄.page = Function.update s.page tp.pageId (.table linked) := by
    simp [s₄, s₃, s₂, Database.setPage, Database.unpin, page₁]
  have linkedRun : (tp.setNextPageId id).run s₁ =
      (.ok { tp with header := { tp.header with nextPageId := id } }, s₂) := by
    simp only [TablePage.setNextPageId, TablePage.writeHeader, Program.run_modify_bind,
      Program.run_pure, page₁, page, header]
    rfl
  have lastId : (updateTableLastId t id).run s₅ = (.ok ⟨⟩, s₆) :=
    @run_updateItem s₅ t item entry₅ meta₅ _ _
  have blank₄ : s₄.page id = .blank := by
    rw [page₄, Function.update_of_ne old.symm]
    exact blank
  have ends : item'.ends = ((pages t).head?.getD id, id) := by
    have first := (opened.sound.layout.linked t item entry).head
    cases chain : pages t with
    | nil =>
        rw [chain] at member
        cases member
    | cons head rest =>
        rw [chain] at first
        exact congrArg (·, id) first
  have grown := @Database.Sound.extend s s₆ pages tableOf t opened.sound item item' entry
    (Function.update s.page tp.pageId (.table linked))
    (by
      intro p notLast
      apply Function.update_of_ne
      rintro rfl
      exact notLast opened.last)
    (by
      intro last image' is_last before
      obtain rfl : tp.pageId = last := Option.some.inj (opened.last.symm.trans is_last)
      rw [page] at before
      cases before
      exact Function.update_self ..)
    (by
      change Function.update s₄.page id _ = _
      rw [page₄])
    (by
      change Function.update s₅.items t _ = _
      congr 1
      simp [s₅, s₄, s₃, s₂, s₁, Database.setPage, Database.unpin])
    ends rfl rfl
    (by simp [s₆, s₅, s₄, s₃, s₂, s₁, Database.setPage, Database.unpin, Database.setItem,
      Database.writeMeta, id])
    (by simp [s₆, s₅, s₄, s₃, s₂, s₁, Database.setPage, Database.unpin, Database.setItem,
      Database.writeMeta])
    (by simp [s₆, s₅, s₄, s₃, s₂, s₁, Database.setPage, Database.unpin, Database.setItem,
      Database.writeMeta])
    (by simp [s₆, s₅, s₄, s₃, s₂, s₁, Database.setPage, Database.unpin, Database.setItem,
      Database.writeMeta])
    (by simp [s₆, s₅, s₄, s₃, s₂, s₁, Database.setPage, Database.unpin, Database.setItem,
      Database.writeMeta])
    (by simp [s₆, s₅, s₄, s₃, s₂, s₁, Database.setPage, Database.unpin, Database.setItem,
      Database.writeMeta])
    meta₅
  refine ⟨s₆, ⟨t, id, { pageId := id }, PAGE_SIZE - HEADER_SIZE⟩,
    Function.update pages t (pages t ++ [id]), Function.update tableOf id t, ?_, ?_, ?_, grown.2.1,
    grown.2.2, ?_, rfl, rfl⟩
  · have started : (TablePage.init t id).run s₄ =
        (.ok ⟨t, id, { pageId := id }, PAGE_SIZE - HEADER_SIZE⟩, s₅) := by
      simp only [TablePage.init, TablePage.writeHeader, Program.run_modify_bind, Program.run_pure,
        blank₄, PageData.asTable]
      rfl
    unfold ExecutorInsert.allocateAndLinkNewPage
    rw [Program.run_bind_of_ok (show newPage.run s = (.ok id, s₁) from rfl),
      Program.run_bind_of_ok linkedRun, Program.run_bind_of_ok (run_flush pinned₂),
      Program.run_bind_of_ok (run_release pinned₃), opened.table, Program.run_bind_of_ok started,
      Program.run_bind_of_ok lastId]
    rfl
  · exact
      { sound := grown.1
        sees := ⟨(@Function.update_self _ _ _ id t tableOf).symm, _,
          Database.page_setPage_self .., rfl⟩
        table := rfl
        last := by simp [id]
        item := ⟨item', Function.update_self ..⟩
        pinned := by
          change s₅.pins id ≠ 0
          rw [pins₅, Function.update_of_ne old.symm]
          simp [s₂, s₁, Database.setPage, id]
        bounded := le_rfl }
  · refine ⟨by simp +contextual, ?_, ?_⟩
    · intro q inside other
      have kept : s₆.page q = (Function.update s₄.page id (.table ⟨{ pageId := id }, []⟩)) q := rfl
      rw [kept, page₄, Function.update_of_ne inside.ne, Function.update_of_ne other]
    · simp [s₆, s₅, s₄, s₃, s₂, s₁, Database.setPage, Database.unpin, Database.setItem,
        Database.writeMeta, id]
  · intro unborn
    have allocated : s.Swaps [tp.pageId] s₁ [id, tp.pageId] :=
      @Database.Swaps.newPage s s₁ unborn rfl rfl (fun _ holds => holds) _
    have written : s₁.Copies s₃ := Database.Copies.writeBack s₂ tp.pageId
    have linked : s₁.Swaps [tp.pageId, id] s₃ [tp.pageId, id] := by
      refine .of_pins ?_ ?_ written _ <;> simp [s₃, s₂, Database.setPage]
    have released : s₃.Swaps [tp.pageId, id] s₄ [id] := .release s₃ tp.pageId [id]
    have entered : s₄.Swaps [id] s₆ [id] :=
      @Database.Swaps.of_pins s₄ s₆ rfl le_rfl (.writeMeta _ _) _
    have swapped : s₁.Swaps [id, tp.pageId] s₁ [tp.pageId, id] := .perm s₁ (.swap ..)
    exact allocated.trans (swapped.trans (linked.trans (released.trans entered)))

theorem run_makeRoom {tp : TablePage} (opened : LastPage s pages tableOf t tp) (tuple : Record) :
    ∃ s' tp' pages' tableOf', (ExecutorInsert.makeRoom tp tuple).run s = (.ok tp', s') ∧
      LastPage s' pages' tableOf' t tp' ∧ s.Lengthens pages t tp.pageId s' pages' ∧
      (tp'.pageId = tp.pageId ∨ tp'.pageId = s.nextPageId) ∧
      s'.versions tableOf' = s.versions tableOf ∧ s'.order pages' = s.order pages ∧
      (s.Unborn → s.Swaps [tp.pageId] s' [tp'.pageId]) ∧
      (tuple.size + SLOT_SIZE ≤ PAGE_SIZE - HEADER_SIZE → tuple.size + SLOT_SIZE ≤ tp'.freeSize) := by
  unfold ExecutorInsert.makeRoom
  by_cases space : tp.hasSpaceFor tuple.size = true
  · rw [if_pos space]
    exact ⟨s, tp, pages, tableOf, rfl, opened,
      ⟨fun _ member => member, fun _ _ _ => rfl, le_rfl⟩, .inl rfl, rfl, rfl, fun _ => .refl s _,
      fun _ => by simpa [TablePage.hasSpaceFor] using space⟩
  · rw [if_neg space]
    obtain ⟨s', tp', pages', tableOf', ran, opened', longer, same, order, swaps, free, isNew⟩ :=
      run_allocateAndLinkNewPage opened
    exact ⟨s', tp', pages', tableOf', ran, opened', longer, .inr isNew, same, order, swaps,
      fun fits => by omega⟩

end YourSQL
