import YourSQL.Executor.RowChanges
import Mathlib.Algebra.Order.BigOperators.Group.List
import Mathlib.Data.List.Perm.Subperm

/-! # The records that an iterator passes

An iterator stands on the first of the addresses that are left. Each move takes one
away, whatever a statement does to the records on the way, as long as none of them is
moved. The bounds on the number of moves are never met.
-/

namespace YourSQL

variable {s s' : Database} {pages : Nat → List Nat} {tableOf : Nat → Nat} {t : Nat}

/-- The addresses on a page from a row on. -/
def pageRids (p first numRows : Nat) : List RID :=
  (List.range' first (numRows + 1 - first)).map (RID.mk p)

namespace Database

def rowCount (s : Database) (p : Nat) : Nat := (s.page p).asTable.records.length

/-- The addresses of the records on a chain of pages. -/
def addresses (s : Database) (chain : List Nat) : List RID :=
  chain.flatMap fun p => pageRids p 1 (s.rowCount p)

end Database

theorem pageRids_of_lt {p first numRows : Nat} (beyond : numRows < first) :
    pageRids p first numRows = [] := by
  simp [pageRids, show numRows + 1 - first = 0 by omega]

theorem pageRids_of_le {p first numRows : Nat} (inside : first ≤ numRows) :
    pageRids p first numRows = ⟨p, first⟩ :: pageRids p (first + 1) numRows := by
  have more : numRows + 1 - first = (numRows + 1 - (first + 1)) + 1 := by omega
  rw [pageRids, more, List.range'_succ]
  rfl

@[simp] theorem mem_pageRids {p first numRows : Nat} {rid : RID} :
    rid ∈ pageRids p first numRows ↔ rid.pageId = p ∧ first ≤ rid.rowId ∧ rid.rowId ≤ numRows := by
  obtain ⟨q, row⟩ := rid
  simp only [pageRids, List.mem_map, List.mem_range'_1, RID.mk.injEq]
  constructor
  · rintro ⟨row', bounds, rfl, rfl⟩
    exact ⟨rfl, bounds.1, by omega⟩
  · rintro ⟨rfl, lower, upper⟩
    exact ⟨row, ⟨lower, by omega⟩, rfl, rfl⟩

namespace TableIterator

/-- The page that an iterator keeps pinned. -/
def held (it : TableIterator) : List Nat := if it.isEnd then [] else [it.currentPageId]

theorem held_of_end {it : TableIterator} (ended : it.isEnd = true) : it.held = [] := if_pos ended

theorem held_of_running {it : TableIterator} (running : it.isEnd = false) :
    it.held = [it.currentPageId] := by
  simp [held, running]

/-- An iterator holds a page of its table's chain; behind that come the pages `after`. -/
structure Holds (s : Database) (pages : Nat → List Nat) (tableOf : Nat → Nat) (t : Nat)
    (it : TableIterator) (after : List Nat) : Prop where
  running : it.isEnd = false
  table : it.tableId = t
  chain : ∃ before, pages t = before ++ it.currentPageId :: after
  pageId : it.tablePage.pageId = it.currentPageId
  sees : it.tablePage.Sees tableOf s
  pinned : s.pins it.currentPageId ≠ 0

/-- Where an iterator is, by the addresses that are left. -/
inductive Stands (s : Database) (pages : Nat → List Nat) (tableOf : Nat → Nat) (t : Nat)
    (it : TableIterator) : List RID → Prop
  | ended : it.isEnd = true → Stands s pages tableOf t it []
  | onRow {after : List Nat} : it.Holds s pages tableOf t after →
      it.currentPageNumRows = s.rowCount it.currentPageId → 1 ≤ it.currentRowIndex →
      it.currentRowIndex ≤ it.currentPageNumRows →
      Stands s pages tableOf t it
        (pageRids it.currentPageId it.currentRowIndex it.currentPageNumRows ++ s.addresses after)

end TableIterator

/-! ## Which addresses there are -/

namespace Database

theorem isSome_slot_iff (s : Database) (tableOf : Nat → Nat) (rid : RID) :
    ((s.store tableOf).slot rid).isSome = true ↔ 1 ≤ rid.rowId ∧ rid.rowId ≤ s.rowCount rid.pageId := by
  obtain ⟨p, row⟩ := rid
  cases row with
  | zero => simp [store, TableImage.slot]
  | succ index =>
      simp only [store, Option.isSome_map, TableImage.slot, rowCount, isSome_getElem?]
      omega

/-- Where records lie says how many there are on each page. -/
theorem rowCount_congr
    (same : ∀ rid, ((s'.store tableOf).slot rid).isSome = ((s.store tableOf).slot rid).isSome) :
    s'.rowCount = s.rowCount := by
  funext p
  have iff : ∀ row, (1 ≤ row ∧ row ≤ s'.rowCount p) ↔ (1 ≤ row ∧ row ≤ s.rowCount p) := by
    intro row
    rw [← isSome_slot_iff s' tableOf ⟨p, row⟩, ← isSome_slot_iff s tableOf ⟨p, row⟩, same]
  have first := iff (s'.rowCount p)
  have second := iff (s.rowCount p)
  omega

theorem addresses_congr (rowCount : s'.rowCount = s.rowCount) : s'.addresses = s.addresses := by
  funext chain
  rw [addresses, rowCount, addresses]

theorem PoolOnly.rowCount (pool : s.PoolOnly s') : s'.rowCount = s.rowCount := by
  funext p
  rw [Database.rowCount, pool.page, Database.rowCount]

@[simp] theorem addresses_nil (s : Database) : s.addresses [] = [] := rfl

@[simp] theorem addresses_cons (s : Database) (p : Nat) (chain : List Nat) :
    s.addresses (p :: chain) = pageRids p 1 (s.rowCount p) ++ s.addresses chain := rfl

theorem Sound.nodup_addresses (sound : s.Sound pages tableOf) (t : Nat) :
    (s.addresses (pages t)).Nodup := by
  rw [addresses, List.nodup_flatMap]
  constructor
  · intro p _
    exact List.Nodup.map (fun a b same => congrArg RID.rowId same) (List.nodup_range' ..)
  · refine (sound.layout.nodup t).imp ?_
    intro p q ne rid first second
    exact ne ((mem_pageRids.mp first).1.symm.trans (mem_pageRids.mp second).1)

/-- The addresses of a table are those where a record of the table lies. -/
theorem Sound.mem_addresses (sound : s.Sound pages tableOf) {rid : RID} :
    rid ∈ s.addresses (pages t) ↔ ∃ record, (s.versions tableOf).slot rid = some ⟨t, record⟩ := by
  rw [addresses, List.mem_flatMap]
  constructor
  · rintro ⟨p, member, inside⟩
    obtain ⟨rfl, lower, upper⟩ := mem_pageRids.mp inside
    obtain ⟨slot, found⟩ := Option.isSome_iff_exists.mp
      ((isSome_slot_iff s tableOf rid).mpr ⟨lower, upper⟩)
    obtain ⟨image, -, -, table⟩ := exists_image_of_slot found
    obtain ⟨table', record⟩ := slot
    obtain rfl : table' = t := table.trans ((sound.layout.member t rid.pageId).mp member).2
    exact ⟨record, found⟩
  · rintro ⟨record, found⟩
    obtain ⟨image, page, -, table⟩ := exists_image_of_slot found
    obtain ⟨lower, upper⟩ := (isSome_slot_iff s tableOf rid).mp (Option.isSome_iff_exists.mpr ⟨_, found⟩)
    refine ⟨rid.pageId, (sound.layout.member t rid.pageId).mpr ⟨?_, table.symm⟩,
      mem_pageRids.mpr ⟨rfl, lower, upper⟩⟩
    rw [page]
    rfl

/-! ## The bounds -/

/-- What each page counts for, summed up over some of the pages. -/
private theorem sum_le_sum_range {chain : List Nat} {bound : Nat} (nodup : chain.Nodup)
    (inside : ∀ p ∈ chain, p < bound) (f : Nat → Nat) :
    (chain.map f).sum ≤ ((List.range bound).map f).sum := by
  obtain ⟨chain', perm, sublist⟩ := nodup.subperm fun p member => List.mem_range.mpr (inside p member)
  rw [← (perm.map f).sum_nat]
  exact (sublist.map f).sum_le_sum fun _ _ => Nat.zero_le _

/-- The header of each page counts the records on it. -/
theorem Sound.numRows (sound : s.Sound pages tableOf) (p : Nat) :
    s.rowCount p = (s.page p).asTable.header.numRows := by
  cases page : s.page p with
  | blank => simp [rowCount, page, PageData.asTable]
  | undo image => simp [rowCount, page, PageData.asTable]
  | table image =>
      simp [rowCount, page, PageData.asTable, (sound.consistent.header p image page).2]

/-- A chain is shorter than the number of pages, and the addresses on it are no more than
    the slots of all pages. -/
theorem Sound.bounds (sound : s.Sound pages tableOf) (t : Nat) :
    (pages t).length < s.slotCount ∧ (s.addresses (pages t)).length ≤ s.slotCount := by
  have nodup := sound.layout.nodup t
  have inside : ∀ p ∈ pages t, p < s.nextPageId := fun p => sound.layout.lt_of_mem
  constructor
  · have withMeta : (META_PAGE_ID :: pages t).Nodup :=
      List.nodup_cons.mpr ⟨fun member => (sound.layout.pos_of_mem member).ne rfl, nodup⟩
    have below : ∀ p ∈ META_PAGE_ID :: pages t, p < s.nextPageId := by
      intro p member
      rcases List.mem_cons.mp member with rfl | later
      · exact sound.layout.positive
      · exact inside p later
    have pages_le := sum_le_sum_range withMeta below fun _ => 1
    have slots_ge : ((List.range s.nextPageId).map fun _ => 1).sum ≤ s.slotCount :=
      List.sum_le_sum fun p _ => by omega
    simp only [List.map_const', List.sum_replicate_nat, List.length_cons] at pages_le slots_ge
    omega
  · have counts := sum_le_sum_range nodup inside s.rowCount
    have slots_ge : ((List.range s.nextPageId).map s.rowCount).sum ≤ s.slotCount :=
      List.sum_le_sum fun p _ => by
        rw [sound.numRows]
        omega
    simp only [addresses, List.length_flatMap, pageRids, List.length_map, List.length_range',
      Nat.add_sub_cancel]
    exact counts.trans slots_ge

end Database

/-! ## Its moves -/

namespace TableIterator

theorem run_loadPage {it : TableIterator} (sound : s.Sound pages tableOf)
    (member : it.currentPageId ∈ pages t) :
    ∃ tp, it.loadPage.run s =
        (.ok { it with
          tablePage := tp
          currentPageNumRows := s.rowCount it.currentPageId }, s.pin it.currentPageId) ∧
      tp.pageId = it.currentPageId ∧ tp.tableId = it.tableId ∧
      ∃ image, s.page it.currentPageId = .table image ∧ tp.header = image.header := by
  obtain ⟨image, page, -⟩ := sound.layout.exists_image member
  have rows := (sound.consistent.header _ image page).2
  refine ⟨⟨it.tableId, it.currentPageId, image.header,
    TablePage.freeSpace (image.records.take image.header.numRows)⟩, ?_, rfl, rfl, image, page, rfl⟩
  unfold loadPage fetchPage
  simp only [Program.run_modify_bind, TablePage.load, Program.run_get_bind, Program.run_bind_assoc,
    Program.run_pure_bind, Program.run_pure, Database.pin, page, PageData.asTable, rows,
    Database.rowCount]

/-- An iterator that has just loaded a page of its chain. -/
theorem holds_of_load {it : TableIterator} {tp : TablePage} {before after : List Nat} (rows : Nat)
    (sound : s.Sound pages tableOf) (chain : pages t = before ++ it.currentPageId :: after)
    (running : it.isEnd = false) (table : it.tableId = t) (pageId : tp.pageId = it.currentPageId)
    (tableId : tp.tableId = it.tableId)
    (page : ∃ image, s.page it.currentPageId = .table image ∧ tp.header = image.header) :
    Holds (s.pin it.currentPageId) pages tableOf t
      { it with tablePage := tp, currentPageNumRows := rows } after where
  running := running
  table := table
  chain := ⟨before, chain⟩
  pageId := pageId
  sees := by
    have member : it.currentPageId ∈ pages t := by simp [chain]
    refine ⟨?_, ?_⟩
    · rw [tableId, table, pageId, ((sound.layout.member t _).mp member).2]
    · rw [pageId]
      exact page
  pinned := by simp [Database.pin]

theorem Holds.mem {it : TableIterator} {after : List Nat} (holds : it.Holds s pages tableOf t after) :
    it.currentPageId ∈ pages t := by
  obtain ⟨before, chain⟩ := holds.chain
  simp [chain]

/-- The page's header leads to the pages behind it. -/
theorem Holds.linked {it : TableIterator} {after : List Nat} (sound : s.Sound pages tableOf)
    (holds : it.Holds s pages tableOf t after) :
    Linked s.next INVALID_PAGE_ID it.tablePage.header.nextPageId after := by
  obtain ⟨before, chain⟩ := holds.chain
  obtain ⟨image, page, header⟩ := holds.sees.page
  rw [holds.pageId] at page
  cases entry : s.items t with
  | none =>
      have member := holds.mem
      rw [sound.layout.noItem t entry] at member
      cases member
  | some item =>
      have linked := sound.layout.linked t item entry
      rw [chain] at linked
      obtain ⟨second, next, rest⟩ := linked.behind
      rw [Database.next, page] at next
      obtain rfl : image.header.nextPageId = second := Option.some.inj next
      rw [header]
      exact rest

/-- The page is released, which leaves the meta page pinned. -/
theorem Holds.released {it : TableIterator} {after : List Nat} (sound : s.Sound pages tableOf)
    (holds : it.Holds s pages tableOf t after) :
    ∃ s', (release it.currentPageId).run s = (.ok ⟨⟩, s') ∧ s.PoolOnly s' ∧
      s'.Sound pages tableOf ∧ s.Swaps it.held s' [] := by
  have inner : META_PAGE_ID ≠ it.currentPageId := (sound.layout.pos_of_mem holds.mem).ne
  have pool := Database.PoolOnly.release s it.currentPageId
  have swaps : s.Swaps it.held ((s.unpin it.currentPageId).writeBack it.currentPageId) [] := by
    rw [held_of_running holds.running]
    exact .release s it.currentPageId []
  refine ⟨_, run_release holds.pinned, pool, pool.sound sound ?_, swaps⟩
  simpa [Database.unpin, inner] using sound.consistent.pinned

theorem pinned_pin (sound : s.Sound pages tableOf) (p : Nat) : (s.pin p).Sound pages tableOf := by
  apply (Database.PoolOnly.pin s p).sound sound
  have pinned := sound.consistent.pinned
  by_cases same : META_PAGE_ID = p
  · simp [Database.pin, same]
  · simpa [Database.pin, same] using pinned

/-- Pages without rows are passed over. -/
theorem run_nextPage {after : List Nat} {it : TableIterator} {fuel : Nat}
    (sound : s.Sound pages tableOf) (holds : it.Holds s pages tableOf t after)
    (enough : after.length < fuel) :
    ∃ it' s', (nextPage fuel it).run s = (.ok it', s') ∧
      it'.Stands s' pages tableOf t (s.addresses after) ∧ s.PoolOnly s' ∧
      s'.Sound pages tableOf ∧ s.Swaps it.held s' it'.held := by
  induction after generalizing s it fuel with
  | nil =>
      obtain ⟨fuel, rfl⟩ := Nat.exists_eq_succ_of_ne_zero (Nat.ne_zero_of_lt enough)
      obtain ⟨s₁, released, pool, sound₁, swaps₁⟩ := holds.released sound
      refine ⟨{ it with isEnd := true }, s₁, ?_, .ended rfl, pool, sound₁, swaps₁⟩
      have stop : it.tablePage.header.nextPageId = INVALID_PAGE_ID := holds.linked sound
      rw [nextPage, Program.run_bind_of_ok released, if_pos stop]
      rfl
  | cons q after ih =>
      obtain ⟨fuel, rfl⟩ := Nat.exists_eq_succ_of_ne_zero (Nat.ne_zero_of_lt enough)
      obtain ⟨s₁, released, pool₁, sound₁, swaps₁⟩ := holds.released sound
      obtain ⟨next, inner, -⟩ := holds.linked sound
      obtain ⟨before, chain⟩ := holds.chain
      let it₁ : TableIterator := { it with currentPageId := q }
      have chain₁ : pages t = (before ++ [it.currentPageId]) ++ it₁.currentPageId :: after := by
        simp [it₁, chain]
      have member : it₁.currentPageId ∈ pages t := by simp [chain₁]
      obtain ⟨tp, loaded, pageId, tableId, page⟩ := run_loadPage sound₁ member
      have sound₂ := pinned_pin sound₁ q
      have pool₂ := pool₁.trans (.pin s₁ q)
      let it₂ : TableIterator :=
        { it₁ with
          tablePage := tp
          currentPageNumRows := s₁.rowCount q
          currentRowIndex := 1 }
      have holds₁ := holds_of_load (s₁.rowCount q) sound₁ chain₁ holds.running holds.table
        pageId tableId page
      have holds₂ : it₂.Holds (s₁.pin q) pages tableOf t after :=
        { running := holds₁.running
          table := holds₁.table
          chain := holds₁.chain
          pageId := holds₁.pageId
          sees := holds₁.sees
          pinned := holds₁.pinned }
      have swaps₂ : s.Swaps it.held (s₁.pin q) it₂.held := by
        rw [held_of_running holds₂.running]
        exact swaps₁.trans (.pin s₁ (sound₁.layout.lt_of_mem member) [])
      have addresses := Database.addresses_congr pool₂.rowCount
      have count : s₁.rowCount q = s.rowCount q := congrFun pool₁.rowCount q
      rw [nextPage, Program.run_bind_of_ok released, if_neg (next ▸ inner), next,
        Program.run_bind_of_ok loaded]
      by_cases empty : s₁.rowCount q = 0
      · obtain ⟨it', s', ran, stands, pool, sound', swaps'⟩ :=
          @ih _ it₂ fuel sound₂ holds₂ (by simpa using enough)
        refine ⟨it', s', ?_, ?_, pool₂.trans pool, sound', swaps₂.trans swaps'⟩
        · rw [← ran]
          exact congrArg (fun x => Program.run x (s₁.pin q)) (if_pos empty)
        · rw [Database.addresses_cons, ← count, empty, pageRids_of_lt Nat.zero_lt_one,
            List.nil_append, ← addresses]
          exact stands
      · refine ⟨it₂, s₁.pin q, ?_, ?_, pool₂, sound₂, swaps₂⟩
        · exact congrArg (fun x => Program.run x (s₁.pin q)) (if_neg empty)
        · rw [Database.addresses_cons, ← count, ← addresses]
          exact .onRow holds₂ rfl le_rfl (by simp only [it₂]; omega)

/-- The constructor, for a table that has an entry. -/
theorem run_create (sound : s.Sound pages tableOf) {item : MetaItem}
    (entry : s.items t = some item) :
    ∃ it s', (create t).run s = (.ok it, s') ∧
      it.Stands s' pages tableOf t (s.addresses (pages t)) ∧ s.PoolOnly s' ∧
      s'.Sound pages tableOf ∧ s.Swaps [] s' it.held := by
  have linked := sound.layout.linked t item entry
  have first : (getFirstPageId t).run s = (.ok item.firstPageId, s) := by
    simp [getFirstPageId, entry]
  unfold create
  rw [Program.run_bind_of_ok first]
  dsimp only
  cases chain : pages t with
  | nil =>
      rw [chain] at linked
      rw [if_pos (show item.firstPageId = INVALID_PAGE_ID from linked)]
      exact ⟨_, s, rfl, .ended rfl, .refl s, sound, .refl s _⟩
  | cons p after =>
      rw [chain] at linked
      obtain ⟨first, inner, -⟩ := linked
      rw [if_neg (first ▸ inner), first]
      let it : TableIterator :=
        { tableId := t, currentPageId := p, tablePage := ⟨t, p, {}, 0⟩ }
      have chain' : pages t = [] ++ it.currentPageId :: after := chain
      obtain ⟨tp, loaded, pageId, tableId, page⟩ :=
        run_loadPage sound (show it.currentPageId ∈ pages t by simp [chain'])
      have sound₁ := pinned_pin sound p
      have pool₁ := Database.PoolOnly.pin s p
      have holds := holds_of_load (s.rowCount p) sound chain' rfl rfl pageId tableId page
      have swaps₁ : s.Swaps [] (s.pin p) it.held :=
        .pin s (sound.layout.lt_of_mem (chain ▸ List.mem_cons_self ..)) []
      have addresses := Database.addresses_congr pool₁.rowCount
      have bounds := (sound₁.bounds t).1
      rw [Program.run_bind_of_ok loaded, Database.addresses_cons, ← addresses]
      by_cases empty : s.rowCount p = 0
      · have enough : after.length < (s.pin p).slotCount := by
          rw [chain, List.length_cons] at bounds
          omega
        obtain ⟨it', s', ran, stands, pool, sound', swaps'⟩ := run_nextPage sound₁ holds enough
        refine ⟨it', s', ?_, ?_, pool₁.trans pool, sound', swaps₁.trans swaps'⟩
        · rw [if_pos empty, Program.run_get_bind]
          exact ran
        · rw [empty, pageRids_of_lt Nat.zero_lt_one, List.nil_append]
          exact stands
      · refine ⟨_, s.pin p, ?_, .onRow holds rfl le_rfl ?_, pool₁, sound₁, swaps₁⟩
        · rw [if_neg empty]
          rfl
        · change 1 ≤ s.rowCount p
          omega

/-- A table without an entry has no iterator. -/
theorem run_create_of_none (entry : s.items t = none) :
    (create t).run s = (.error "MetaPage::GetFirstPageId for tableName does not exist", s) := by
  apply Program.run_bind_of_error
  unfold getFirstPageId
  rw [Program.run_get_bind, entry]
  rfl

theorem Stands.cons_inv {it : TableIterator} {rid : RID} {rest : List RID}
    (stands : it.Stands s pages tableOf t (rid :: rest)) :
    ∃ after, it.Holds s pages tableOf t after ∧
      it.currentPageNumRows = s.rowCount it.currentPageId ∧ 1 ≤ it.currentRowIndex ∧
      it.currentRowIndex ≤ it.currentPageNumRows ∧ rid = it.rid ∧
      rest = pageRids it.currentPageId (it.currentRowIndex + 1) it.currentPageNumRows ++
        s.addresses after := by
  generalize left : rid :: rest = addresses at stands
  cases stands with
  | ended => cases left
  | onRow holds count lower upper =>
      rw [pageRids_of_le upper, List.cons_append, List.cons.injEq] at left
      exact ⟨_, holds, count, lower, upper, left.1, left.2⟩

theorem Stands.nil_inv {it : TableIterator} (stands : it.Stands s pages tableOf t []) :
    it.isEnd = true := by
  generalize left : ([] : List RID) = addresses at stands
  cases stands with
  | ended isEnd => exact isEnd
  | onRow holds count lower upper =>
      rw [pageRids_of_le upper] at left
      cases left

/-- A page is held as long as there are addresses left. -/
theorem Stands.held_eq_nil_iff {it : TableIterator} {left : List RID}
    (stands : it.Stands s pages tableOf t left) : it.held = [] ↔ left = [] := by
  cases stands with
  | ended isEnd => simp [held_of_end isEnd]
  | onRow holds count lower upper => simp [held_of_running holds.running, pageRids_of_le upper]

/-- `operator*` finds a record of the table. -/
theorem Stands.run_current {it : TableIterator} {rid : RID} {rest : List RID}
    (sound : s.Sound pages tableOf) (stands : it.Stands s pages tableOf t (rid :: rest)) :
    ∃ record, it.current.run s = (.ok (some record), s) ∧
      (s.versions tableOf).slot rid = some ⟨t, record⟩ := by
  obtain ⟨after, holds, count, lower, upper, rfl, -⟩ := stands.cons_inv
  obtain ⟨slot, found⟩ := Option.isSome_iff_exists.mp
    ((Database.isSome_slot_iff s tableOf it.rid).mpr ⟨lower, count ▸ upper⟩)
  obtain ⟨image, page, here, table⟩ := Database.exists_image_of_slot found
  have of_table : tableOf it.currentPageId = t := ((sound.layout.member t _).mp holds.mem).2
  refine ⟨slot.record, ?_, ?_⟩
  · have page' : s.page it.tablePage.pageId = .table image := holds.pageId ▸ page
    unfold current TablePage.getTuple
    simp only [holds.running, Bool.false_eq_true, if_false, Program.run_get_bind, page',
      PageData.asTable, here, Program.run_pure]
  · have table' : slot.tableId = t := table.trans of_table
    obtain ⟨tableId, record⟩ := slot
    subst table'
    exact found

/-- `operator++` takes one address away. -/
theorem Stands.run_advance {it : TableIterator} {rid : RID} {rest : List RID}
    (sound : s.Sound pages tableOf) (stands : it.Stands s pages tableOf t (rid :: rest)) :
    ∃ it' s', it.advance.run s = (.ok it', s') ∧ it'.Stands s' pages tableOf t rest ∧
      s.PoolOnly s' ∧ s'.Sound pages tableOf ∧
      s.Swaps it.held s' it'.held := by
  obtain ⟨after, holds, count, lower, upper, rfl, rfl⟩ := stands.cons_inv
  let it₁ : TableIterator := { it with currentRowIndex := it.currentRowIndex + 1 }
  have holds₁ : it₁.Holds s pages tableOf t after :=
    { running := holds.running
      table := holds.table
      chain := holds.chain
      pageId := holds.pageId
      sees := holds.sees
      pinned := holds.pinned }
  unfold advance
  rw [if_neg (by simp [holds.running])]
  by_cases last : it.currentRowIndex + 1 > it.currentPageNumRows
  · have enough : after.length < s.slotCount := by
      obtain ⟨before, chain⟩ := holds.chain
      have bounds := (sound.bounds t).1
      rw [chain, List.length_append, List.length_cons] at bounds
      omega
    obtain ⟨it', s', ran, stands', pool, sound', swaps'⟩ := run_nextPage sound holds₁ enough
    refine ⟨it', s', ?_, ?_, pool, sound', swaps'⟩
    · dsimp only
      rw [if_pos last, Program.run_get_bind]
      exact ran
    · rw [pageRids_of_lt last, List.nil_append]
      exact stands'
  · refine ⟨it₁, s, ?_, ?_, .refl s, sound, .refl s _⟩
    · dsimp only
      rw [if_neg last]
      have touched : (touchPage it.currentPageId).run s = (.ok ⟨⟩, s) := by
        unfold touchPage
        rw [Program.run_get_bind, if_neg holds.pinned]
        rfl
      exact (Program.run_bind_of_ok touched).trans rfl
    · exact .onRow holds₁ count (by simp only [it₁]; omega) (by simp only [it₁]; omega)

/-- A statement may write to the records on the way, as long as none of them is moved. -/
theorem Stands.congr {it : TableIterator} {left : List RID} {tp : TablePage}
    (stands : it.Stands s pages tableOf t left) (sees : tp.Sees tableOf s')
    (pageId : tp.pageId = it.tablePage.pageId) (pinned : s'.pins it.tablePage.pageId ≠ 0)
    (rowCount : s'.rowCount = s.rowCount) :
    Stands s' pages tableOf t { it with tablePage := tp } left := by
  cases stands with
  | ended isEnd => exact .ended isEnd
  | onRow holds count lower upper =>
      rw [← Database.addresses_congr rowCount]
      refine .onRow ?_ (count.trans (congrFun rowCount _).symm) lower upper
      exact
        { running := holds.running
          table := holds.table
          chain := holds.chain
          pageId := pageId.trans holds.pageId
          sees := sees
          pinned := holds.pageId ▸ pinned }

theorem Stands.pool {it : TableIterator} {left : List RID}
    (stands : it.Stands s pages tableOf t left) (pool : s.PoolOnly s') (pins : s'.pins = s.pins) :
    it.Stands s' pages tableOf t left := by
  cases stands with
  | ended isEnd => exact .ended isEnd
  | onRow holds count lower upper =>
      have sees := holds.sees.congr (congrFun pool.page _)
      have pinned : s'.pins it.tablePage.pageId ≠ 0 := by
        rw [pins, holds.pageId]
        exact holds.pinned
      exact (Stands.onRow holds count lower upper).congr sees rfl pinned pool.rowCount

/-- The loop over an iterator, by what holds before and after each round. -/
theorem wp_loop {round : TableIterator → β → Exec (TableIterator × β)}
    {inv : TableIterator → List RID → β → Database → Prop} {raised : String → Database → Prop}
    (step : ∀ it rid rest acc s, it.Stands s pages tableOf t (rid :: rest) →
      inv it (rid :: rest) acc s →
      (round it acc).wp (fun next s' => next.1.Stands s' pages tableOf t rest ∧
        inv next.1 rest next.2 s') raised s)
    {left : List RID} {fuel : Nat} (enough : left.length ≤ fuel) {it : TableIterator} {acc : β}
    (stands : it.Stands s pages tableOf t left) (start : inv it left acc s) :
    (it.whileNotEnd round fuel acc).wp
      (fun acc s' => ∃ it : TableIterator, it.isEnd = true ∧ inv it [] acc s') raised s := by
  induction left generalizing it acc s fuel with
  | nil =>
      unfold whileNotEnd
      rw [if_pos stands.nil_inv]
      exact ⟨it, stands.nil_inv, start⟩
  | cons rid rest ih =>
      obtain ⟨fuel, rfl⟩ := Nat.exists_eq_succ_of_ne_zero (Nat.ne_zero_of_lt enough)
      obtain ⟨after, holds, -⟩ := stands.cons_inv
      unfold whileNotEnd
      rw [if_neg (by simp [holds.running])]
      dsimp only
      rw [Program.wp_bind]
      apply (step it rid rest acc s stands start).mono
      · rintro next s' ⟨stands', holds'⟩
        exact ih (Nat.le_of_succ_le_succ enough) stands' holds'
      · exact fun _ _ raises => raises

/-- Where it does not matter which page the iterator holds. -/
theorem wp_whileNotEnd {round : TableIterator → β → Exec (TableIterator × β)}
    {inv : List RID → β → Database → Prop} {raised : String → Database → Prop}
    (step : ∀ it rid rest acc s, it.Stands s pages tableOf t (rid :: rest) →
      inv (rid :: rest) acc s →
      (round it acc).wp (fun next s' => next.1.Stands s' pages tableOf t rest ∧
        inv rest next.2 s') raised s)
    {left : List RID} {fuel : Nat} (enough : left.length ≤ fuel) {it : TableIterator} {acc : β}
    (stands : it.Stands s pages tableOf t left) (start : inv left acc s) :
    (it.whileNotEnd round fuel acc).wp (inv []) raised s := by
  apply (@wp_loop s pages tableOf t β round (fun _ => inv) raised step left fuel enough it acc
    stands start).mono
  · rintro acc s' ⟨-, -, holds⟩
    exact holds
  · exact fun _ _ raises => raises

end TableIterator

end YourSQL
