import YourSQL.Storage.ChainGrowth

/-! # One new record behind the others

INSERT and UPDATE put a record on the last page of the table, or on a page behind it.
What fits an empty page always finds its place; what does not leaves all records as
they are, also where the statement fails or does not notice.
-/

namespace YourSQL

open Mvcc (VersionStore)

variable {s s' : Database} {pages : Nat → List Nat} {tableOf : Nat → Nat} {tp : TablePage}
  {t : Nat}

/-- A version of a row that fits an empty page. -/
def VersionFits (payload : List UInt8) : Prop :=
  REC_HEADER_SIZE + payload.length + SLOT_SIZE ≤ PAGE_SIZE - HEADER_SIZE

instance (payload : List UInt8) : Decidable (VersionFits payload) :=
  inferInstanceAs (Decidable (REC_HEADER_SIZE + payload.length + SLOT_SIZE ≤ PAGE_SIZE - HEADER_SIZE))

def Event.Fits : Event → Prop
  | .insert _ _ _ payload => VersionFits payload
  | .replace _ _ _ payload => VersionFits payload
  | _ => True

instance (event : Event) : Decidable event.Fits :=
  match event with
  | .insert _ _ _ payload =>
      inferInstanceAs (Decidable (REC_HEADER_SIZE + payload.length + SLOT_SIZE ≤ PAGE_SIZE - HEADER_SIZE))
  | .replace _ _ _ payload =>
      inferInstanceAs (Decidable (REC_HEADER_SIZE + payload.length + SLOT_SIZE ≤ PAGE_SIZE - HEADER_SIZE))
  | .view _ => inferInstanceAs (Decidable True)
  | .commit _ => inferInstanceAs (Decidable True)
  | .abort _ => inferInstanceAs (Decidable True)
  | .delete _ _ => inferInstanceAs (Decidable True)

/-- All versions that a journal enters fit an empty page. -/
def Fits (journal : List Event) : Prop := ∀ event ∈ journal, event.Fits

instance (journal : List Event) : Decidable (Fits journal) :=
  inferInstanceAs (Decidable (∀ event ∈ journal, event.Fits))

theorem TablePage.run_insertTuple (sound : s.Sound pages tableOf) (sees : tp.Sees tableOf s)
    {item : MetaItem} (entry : s.items tp.tableId = some item) {record : Record}
    (room : record.size + SLOT_SIZE ≤ tp.freeSize) :
    ∃ rid tp' s', (tp.insertTuple record).run s = (.ok (some rid, tp'), s') ∧
      rid = ⟨tp.pageId, s.rowCount tp.pageId + 1⟩ ∧ (s.store tableOf).slot rid = none ∧
      s'.store tableOf = (s.store tableOf).insertTuple tp.tableId rid record ∧
      s'.Sound pages tableOf ∧ tp'.Sees tableOf s' ∧ tp'.pageId = tp.pageId ∧ s.SameLayout s' ∧
      s.SameRest s' ∧ ∀ q, q ≠ tp.pageId → s'.page q = s.page q := by
  have sees' := sees
  obtain ⟨of_table, image, page, header⟩ := sees'
  let numRows := tp.header.numRows + 1
  let grown : TableImage :=
    ⟨{ tp.header with numRows := numRows }, image.records.take tp.header.numRows ++ [record]⟩
  let tp' : TablePage :=
    { tp with
      freeSize := tp.freeSize - (SLOT_SIZE + record.size)
      header := grown.header }
  let s₁ := s.setPage tp.pageId (.table grown)
  let item' := item.changeRows 1
  let s₂ := (s₁.setItem tp.tableId item').writeMeta
  have updated : (updateTableRows tp.tableId 1).run s₁ = (.ok ⟨⟩, s₂) :=
    @run_updateItem s₁ tp.tableId item entry sound.consistent.pinned _ _
  have ran : (tp.insertTuple record).run s = (.ok (some ⟨tp.header.pageId, numRows⟩, tp'), s₂) := by
    unfold TablePage.insertTuple TablePage.writeHeader
    rw [if_neg (by omega)]
    simp only [Program.run_modify_bind, page, PageData.asTable, Database.page_setPage_self,
      Database.setPage_setPage]
    exact (Program.run_bind_of_ok updated).trans rfl
  obtain ⟨here, free, store, consistent, rest⟩ :=
    TablePage.insertTuple_refines sound.consistent page header of_table ran
  have same : s.SameLayout s₂ := by
    have kept := Database.SameLayout.insertTuple sees record
    rwa [ran] at kept
  have on_page : (RID.mk tp.header.pageId numRows).pageId = tp.pageId := congrArg RID.pageId here
  have behind : image.records.length = s.rowCount tp.pageId := by
    rw [Database.rowCount, page]
    rfl
  refine ⟨_, tp', s₂, ran, behind ▸ here, free, ?_, sound.same same consistent, ?_, rfl, same, rest,
    fun _ other => Function.update_of_ne other ..⟩
  · rw [store, on_page, of_table]
  · exact ⟨of_table, grown, Database.page_setPage_self .., rfl⟩

/-- The record of a version that fits an empty page holds all of its bytes. -/
theorem tupleOf_eq (header : RecordHeader) {payload : List UInt8} (fits : VersionFits payload) :
    tupleOf header payload = ⟨header, payload⟩ := by
  have small : REC_HEADER_SIZE + payload.length < 2 ^ 16 := by
    simp only [VersionFits, PAGE_SIZE, HEADER_SIZE] at fits
    omega
  unfold tupleOf
  rw [Nat.mod_eq_of_lt small, Nat.add_sub_cancel_left, List.take_length]

theorem size_tupleOf_of_fits (header : RecordHeader) {payload : List UInt8}
    (fits : VersionFits payload) :
    (tupleOf header payload).size + SLOT_SIZE ≤ PAGE_SIZE - HEADER_SIZE := by
  rw [tupleOf_eq header fits]
  exact fits

theorem fits_append {first second : List Event} :
    Fits (first ++ second) ↔ Fits first ∧ Fits second := by
  simp only [Fits, List.mem_append, or_imp, forall_and]

@[simp] theorem fits_singleton {event : Event} : Fits [event] ↔ event.Fits := by simp [Fits]

/-- A new record on the last page of a chain comes behind the others. -/
theorem Database.order_append (sound : s.Sound pages tableOf) {p : Nat}
    (last : (pages t).getLast? = some p)
    (slots : ∀ rid, ((s'.store tableOf).slot rid).isSome =
      (((s.store tableOf).slot rid).isSome || rid = ⟨p, s.rowCount p + 1⟩)) :
    s'.order pages =
      Function.update (s.order pages) t (s.order pages t ++ [⟨p, s.rowCount p + 1⟩]) := by
  have inside : ∀ q row, (1 ≤ row ∧ row ≤ s'.rowCount q) ↔
      (1 ≤ row ∧ row ≤ s.rowCount q) ∨ (q = p ∧ row = s.rowCount p + 1) := by
    intro q row
    have here := slots ⟨q, row⟩
    rw [Bool.eq_iff_iff, Bool.or_eq_true, decide_eq_true_iff, isSome_slot_iff, isSome_slot_iff,
      RID.mk.injEq] at here
    exact here
  have counted : s'.rowCount p = s.rowCount p + 1 := by
    have lower := (inside p (s.rowCount p + 1)).mpr (.inr ⟨rfl, rfl⟩)
    have upper := (inside p (s'.rowCount p)).mp
    omega
  have others : ∀ q, q ≠ p → s'.rowCount q = s.rowCount q := by
    intro q other
    have first := inside q (s'.rowCount q)
    have second := inside q (s.rowCount q)
    simp only [other, false_and, or_false] at first second
    omega
  have away : ∀ chain : List Nat, p ∉ chain → s'.addresses chain = s.addresses chain := by
    intro chain absent
    induction chain with
    | nil => rfl
    | cons q chain ih =>
        rw [List.mem_cons, not_or] at absent
        rw [addresses_cons, addresses_cons, others q (Ne.symm absent.1), ih absent.2]
  funext u
  by_cases here : u = t
  · subst here
    rcases List.eq_nil_or_concat (pages u) with empty | ⟨before, q, chained⟩
    · rw [empty] at last
      cases last
    · rw [List.concat_eq_append] at chained
      obtain rfl : q = p := by simpa [chained] using last
      have distinct := sound.layout.nodup u
      rw [chained, List.nodup_append] at distinct
      have absent : q ∉ before := fun member =>
        distinct.2.2 q member q (List.mem_singleton_self q) rfl
      have longer : pageRids q 1 (s.rowCount q + 1) =
          pageRids q 1 (s.rowCount q) ++ [⟨q, s.rowCount q + 1⟩] := by
        simp only [pageRids, Nat.add_sub_cancel, List.range'_concat, List.map_append,
          List.map_singleton, Nat.one_mul, Nat.add_comm 1]
      rw [Function.update_self, order, order, chained, addresses, addresses, List.flatMap_append,
        List.flatMap_append, List.append_assoc]
      simp only [List.flatMap_singleton, counted, longer]
      exact congrArg (· ++ _) (away before absent)
  · rw [Function.update_of_ne here]
    apply away
    intro member
    have of_u := ((sound.layout.member u p).mp member).2
    have of_t := ((sound.layout.member t p).mp (List.mem_of_getLast? last)).2
    exact here (of_u.symm.trans of_t)

/-- A record that has room is stored behind the others, and the log record fits. -/
theorem run_storeTuple (opened : LastPage s pages tableOf t tp) {tuple : Record}
    (fits : tuple.size + SLOT_SIZE ≤ PAGE_SIZE - HEADER_SIZE)
    (room : tuple.size + SLOT_SIZE ≤ tp.freeSize) (txn : Option Nat) :
    ∃ rid tp₁ s₁ tp' s', (tp.insertTuple tuple).run s = (.ok (some rid, tp₁), s₁) ∧
      (logAndSetLsn txn .insertRow t rid (some tuple) tp₁).run s₁ = (.ok tp', s') ∧
      (s.versions tableOf).slot rid = none ∧
      s'.versions tableOf = ((s.versions tableOf).put rid ⟨t, tuple⟩).addRow t ∧
      s'.order pages = Function.update (s.order pages) t (s.order pages t ++ [rid]) ∧
      s'.Sound pages tableOf ∧ tp'.pageId = tp.pageId ∧ s'.pins = s.pins ∧
      s'.nextPageId = s.nextPageId ∧ s.Copies s' ∧
      ∀ q, q ≠ tp.pageId → s'.page q = s.page q := by
  obtain ⟨item, entry⟩ := opened.item
  obtain ⟨rid, tp₁, s₁, inserted, here, free, store₁, sound₁, sees₁, pageId₁, same₁, rest₁, others₁⟩ :=
    TablePage.run_insertTuple opened.sound opened.sees (opened.table ▸ entry) room
  have small : (Option.map Record.size (some tuple)).getD 0 ≤ PAGE_SIZE := by
    simp only [Option.map_some, Option.getD_some, PAGE_SIZE, HEADER_SIZE] at fits ⊢
    omega
  obtain ⟨s', tp', logged, store, sound', -, pageId, same, clients, others⟩ :=
    run_logAndSetLsn sound₁ sees₁ txn .insertRow t rid (some tuple)
      (fits_log sound₁ small _ _ _ _)
  have clients' := rest₁.clients.trans clients
  have same' := same₁.trans same
  have versions : s'.versions tableOf = ((s.versions tableOf).put rid ⟨t, tuple⟩).addRow t := by
    simp only [Database.versions, store, store₁, same'.undoRecord, clients'.txnManager,
      clients'.journal, opened.table]
    rfl
  refine ⟨rid, tp₁, s₁, tp', s', inserted, logged, free, versions, ?_, sound', pageId.trans pageId₁,
    clients'.pins, same'.nextPageId, clients'.copies,
    fun q other => (others q (pageId₁ ▸ other)).trans (others₁ q other)⟩
  rw [here]
  apply Database.order_append opened.sound opened.last
  intro other
  change ((s'.versions tableOf).slot other).isSome = _
  rw [versions, VersionStore.slot_addRow, VersionStore.slot_put, here]
  by_cases isNew : other = ⟨tp.pageId, s.rowCount tp.pageId + 1⟩
  · simp [isNew]
  · simp [isNew, Database.versions]

/-- A record that does not fit an empty page has no room on any page. -/
theorem run_insertTuple_of_large (opened : LastPage s pages tableOf t tp) {tuple : Record}
    (large : ¬ tuple.size + SLOT_SIZE ≤ PAGE_SIZE - HEADER_SIZE) :
    (tp.insertTuple tuple).run s = (.ok (none, tp), s) := by
  have := opened.bounded
  unfold TablePage.insertTuple
  rw [if_pos (by omega)]
  rfl

/-- A write is entered in the write set and in the journal. -/
theorem Database.versions_enter {txn : Option Nat} {wr : WriteRecord} {event : Event}
    (page : s'.page = s.page) (items : s'.items = s.items)
    (txnManager : s'.txnManager = s.txnManager.pushWriteFor txn wr)
    (journal : s'.journal = s.journal ++ [event]) :
    s'.versions tableOf = (s.versions tableOf).enterFor txn wr event := by
  have undo : s'.undoRecord = s.undoRecord := by
    funext pointer
    rw [Database.undoRecord, page, Database.undoRecord]
  simp only [Database.versions, Database.store_congr page items, undo, txnManager, journal]
  rfl

theorem Database.Sound.congr (sound : s.Sound pages tableOf) (page : s'.page = s.page)
    (items : s'.items = s.items) (nextPageId : s'.nextPageId = s.nextPageId)
    (undoLog : s'.undoLog = s.undoLog) (log : s'.log = s.log) (storage : s'.storage = s.storage)
    (pinned : s'.pins META_PAGE_ID ≠ 0) : s'.Sound pages tableOf where
  layout := sound.layout.congr page items nextPageId undoLog log storage
  consistent := sound.consistent.congr page items pinned

theorem LastPage.inner (opened : LastPage s pages tableOf t tp) : tp.pageId ≠ META_PAGE_ID :=
  (opened.sound.layout.pos_of_mem (List.mem_of_getLast? opened.last)).ne'

/-- A table with a record has an entry on the meta page. -/
theorem Database.Sound.exists_item {t : Nat} {rid : RID} {old : Record}
    (sound : s.Sound pages tableOf)
    (found : (s.versions tableOf).slot rid = some ⟨t, old⟩) : ∃ item, s.items t = some item := by
  obtain ⟨image, page, here, table⟩ := Database.exists_image_of_slot found
  obtain rfl : t = tableOf rid.pageId := table
  exact sound.consistent.item _ image page (TableImage.records_ne_nil here)

/-- How an INSERT may end: what it leaves of the store and of the order of the records, and
    the pages that it leaves pinned. -/
inductive InsertEnds (m : VersionStore) (order : Nat → List RID) (txn : Option Nat) (t : Nat)
    (item : Option MetaItem) (row : Except String (List UInt8)) :
    Except String Unit → VersionStore → (Nat → List RID) → List Nat → Prop
  | noTable : item = none →
      InsertEnds m order txn t item row
        (.error s!"ExecutorInsert::Open No meta page exists:{t}") m order []
  | unserialized {message p} : item.isSome = true → row = .error message →
      InsertEnds m order txn t item row (.error message) m order [p]
  | large {payload p} : item.isSome = true → row = .ok payload →
      ¬ (tupleOf ⟨txn.getD INVALID_TX_ID, .null, 0⟩ payload).size + SLOT_SIZE ≤
        PAGE_SIZE - HEADER_SIZE →
      InsertEnds m order txn t item row
        (.error "ExecutorInsert::Next tuple too large for an empty page") m order [p]
  | stored {payload rid} : item.isSome = true → row = .ok payload →
      (tupleOf ⟨txn.getD INVALID_TX_ID, .null, 0⟩ payload).size + SLOT_SIZE ≤
        PAGE_SIZE - HEADER_SIZE →
      m.slot rid = none →
      InsertEnds m order txn t item row (.ok ⟨⟩)
        (((m.put rid ⟨t, tupleOf ⟨txn.getD INVALID_TX_ID, .null, 0⟩ payload⟩).addRow t).enterFor txn
          { rid := rid, type := .insert, tableId := t }
          (.insert (txn.getD INVALID_TX_ID) t rid payload))
        (Function.update order t (order t ++ [rid])) []

theorem run_insert (sound : s.Sound pages tableOf) (txn : Option Nat) (t : Nat)
    (row : Except String (List UInt8)) :
    ∃ result s' pages' tableOf' held, (ExecutorInsert.insert txn t row).run s = (result, s') ∧
      s'.Sound pages' tableOf' ∧ ((s.items t).isSome = true → (s'.items t).isSome = true) ∧
      (s.Unborn → s.Swaps [] s' held) ∧
      InsertEnds (s.versions tableOf) (s.order pages) txn t (s.items t) row result
        (s'.versions tableOf') (s'.order pages') held := by
  unfold ExecutorInsert.insert
  rw [Program.run_get_bind]
  cases entry : s.items t with
  | none => exact ⟨_, s, pages, tableOf, [], rfl, sound, nofun, fun _ => .refl s [],
      .noTable rfl⟩
  | some item =>
      obtain ⟨s₁, tp₁, pages₁, tableOf₁, ran₁, opened₁, -, same₁, order₁, swaps₁⟩ :=
        run_openLastPage sound entry
      dsimp only
      rw [Program.run_bind_of_ok ran₁, ← same₁, ← order₁]
      cases row with
      | error message =>
          exact ⟨_, s₁, pages₁, tableOf₁, [tp₁.pageId], rfl, opened₁.sound,
            fun _ => Option.isSome_iff_exists.mpr opened₁.item, swaps₁, .unserialized rfl rfl⟩
      | ok payload =>
          let tuple := tupleOf ⟨txn.getD INVALID_TX_ID, .null, 0⟩ payload
          obtain ⟨s₂, tp₂, pages₂, tableOf₂, ran₂, opened₂, -, -, same₂, order₂, swaps₂, room⟩ :=
            run_makeRoom opened₁ tuple
          have swaps : s.Unborn → s.Swaps [] s₂ [tp₂.pageId] := fun unborn =>
            (swaps₁ unborn).trans (swaps₂ ((swaps₁ unborn).unborn unborn))
          rw [Program.run_bind_of_ok (Program.run_lift (.ok payload) s₁),
            Program.run_bind_of_ok ran₂, ← same₂, ← order₂]
          by_cases fits : tuple.size + SLOT_SIZE ≤ PAGE_SIZE - HEADER_SIZE
          · obtain ⟨rid, tp₃, s₃, tp₄, s₄, inserted, logged, free, versions, order, sound₄, pageId,
              pins, nextPageId, copies, -⟩ := run_storeTuple opened₂ fits (room fits) txn
            have pinned₄ : s₄.pins tp₄.pageId ≠ 0 := by
              rw [pageId, pins]
              exact opened₂.pinned
            have inner : META_PAGE_ID ≠ tp₄.pageId := pageId ▸ opened₂.inner.symm
            let wr : WriteRecord := { rid := rid, type := .insert, tableId := t }
            let event : Event := .insert (txn.getD INVALID_TX_ID) t rid payload
            let s₅ : Database :=
              { s₄.writeBack tp₄.pageId with
                txnManager := (s₄.writeBack tp₄.pageId).txnManager.pushWriteFor txn wr }
            let s₆ := s₅.enter event
            let s₇ := (s₆.unpin tp₄.pageId).writeBack tp₄.pageId
            have pinned₆ : s₆.pins tp₄.pageId ≠ 0 := by simpa [s₆, s₅, Database.enter] using pinned₄
            have rowCount : s₇.rowCount = s₄.rowCount := by
              funext p
              simp [Database.rowCount, s₇, s₆, s₅, Database.unpin, Database.enter]
            have written : s₂.Copies s₆ := copies.trans (Database.Copies.writeBack s₄ tp₄.pageId)
            have entered : s₂.Swaps [tp₂.pageId] s₆ [tp₂.pageId] := by
              refine .of_pins ?_ ?_ written _ <;> simp [s₆, s₅, Database.enter, pins, nextPageId]
            have released : s₆.Swaps [tp₂.pageId] s₇ [] := by
              rw [← pageId]
              exact .release s₆ tp₄.pageId []
            have versions₇ : s₇.versions tableOf₂ = (s₄.versions tableOf₂).enterFor txn wr event := by
              apply @Database.versions_enter s₄ s₇ tableOf₂ txn wr event <;>
                simp [s₇, s₆, s₅, Database.unpin, Database.enter]
            have sound₇ : s₇.Sound pages₂ tableOf₂ := by
              apply sound₄.congr <;> simp [s₇, s₆, s₅, Database.unpin, Database.enter]
              simpa [inner, pins] using opened₂.sound.consistent.pinned
            have known : (s₇.items t).isSome = true := by
              have stored : (s₄.versions tableOf₂).slot rid = some ⟨t, tuple⟩ := by
                rw [versions]
                exact (VersionStore.slot_put ..).trans (if_pos rfl)
              have items : s₇.items = s₄.items := by
                simp [s₇, s₆, s₅, Database.unpin, Database.enter]
              rw [items]
              exact Option.isSome_iff_exists.mpr (sound₄.exists_item stored)
            refine ⟨.ok ⟨⟩, s₇, pages₂, tableOf₂, [], ?_, sound₇, fun _ => known, fun unborn =>
              (swaps unborn).trans (entered.trans released), ?_⟩
            · rw [Program.run_bind_of_ok inserted, Program.run_bind_of_ok logged,
                Program.run_bind_of_ok (run_flush pinned₄),
                Program.run_bind_of_ok (run_pushWrite _ txn wr), Program.run_bind_of_ok rfl,
                run_release pinned₆]
            · rw [versions₇, versions, Database.order_congr rowCount, order]
              exact .stored rfl rfl fits free
          · rw [Program.run_bind_of_ok (run_insertTuple_of_large opened₂ fits)]
            exact ⟨_, s₂, pages₂, tableOf₂, [tp₂.pageId], rfl, opened₂.sound,
              fun _ => Option.isSome_iff_exists.mpr opened₂.item, swaps, .large rfl rfl fits⟩

end YourSQL
