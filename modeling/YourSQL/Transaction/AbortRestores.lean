import YourSQL.Storage.PageStore
import YourSQL.Transaction.Commands
import YourSQL.Transaction.Rollback

/-! # What Abort leaves behind

Runs in which one transaction writes records through `TablePage` objects, among
writes and rollbacks of others, and what `Abort` makes of the pages at their end.
Neither `MarkDelete` nor `RestoreRecord` looks at the dead flag: a dead record that
they take for a stored row is counted as one.
-/

namespace YourSQL.AbortRestores

open Rollback
open TablePage (Sees)

/-- The object's call returned. The three header writes go to a stored record. -/
inductive Performed (tableOf : Nat → Nat) (trxId : Nat) (tp : TablePage) :
    Operation → Database → Database → Prop
  | insertTuple {s s' rid record tp'} (update : Bool) :
      (tp.insertTuple record).run s = (.ok (some rid, tp'), s') →
      Performed tableOf trxId tp (.call (.insertTuple update (tableOf rid.pageId) rid record)) s s'
  | markDelete {s s' rid slot rollPtr} (update : Bool) :
      tp.pageId = rid.pageId → (s.store tableOf).slot rid = some slot →
      (tp.markDelete rid trxId rollPtr).run s = (.ok ⟨⟩, s') →
      Performed tableOf trxId tp (.call (.markDelete update rid rollPtr)) s s'
  | restoreRecord {s s' rid slot header} :
      tp.pageId = rid.pageId → (s.store tableOf).slot rid = some slot →
      (tp.restoreRecord rid header).run s = (.ok ⟨⟩, s') →
      Performed tableOf trxId tp (.restoreRecord rid header) s s'
  | markDead {s s' rid slot} :
      tp.pageId = rid.pageId → (s.store tableOf).slot rid = some slot →
      (tp.markDead rid).run s = (.ok ⟨⟩, s') →
      Performed tableOf trxId tp (.markDead rid) s s'

/-- New records come with no flag set. -/
def NewRecords (op : Operation) (_ : RecordStore) : Prop :=
  match op with
  | .call (.insertTuple _ _ _ record) => record.flags = 0
  | _ => True

/-- In addition, no deletion and no restored header meets a record that is dead
    without being deleted. -/
def NoCorpse (op : Operation) (σ : RecordStore) : Prop :=
  match op with
  | .call (.insertTuple _ _ _ record) => record.flags = 0
  | .call (.markDelete _ rid _) =>
      ∀ slot, σ.slot rid = some slot → slot.record.isDead = true → slot.record.isDel = true
  | .restoreRecord rid header =>
      ∀ slot, σ.slot rid = some slot → slot.record.isDead = true →
        (slot.record.restored header).isLive = true → slot.record.isDel = true
  | .markDead _ => True

/-- What else goes on changes no record, no row counter and not `T`'s write set. -/
structure Quiet (T : Nat) (tableOf : Nat → Nat) (s s' : Database) : Prop where
  store : s'.store tableOf = s.store tableOf
  writeSet : (s'.txnManager.transaction T).writeSet = (s.txnManager.transaction T).writeSet
  consistent : s.Consistent tableOf → s'.Consistent tableOf

/-- Runs from `s₀` whose operations are `allowed`, with the store that the operations
    of the others alone lead to. `T` enters its calls in its write set. -/
inductive Run (allowed : Operation → RecordStore → Prop) (T : Nat) (tableOf : Nat → Nat)
    (s₀ : Database) : Database → RecordStore → Prop
  | start : Run allowed T tableOf s₀ s₀ (s₀.store tableOf)
  | own {s s' alone tp call} : Run allowed T tableOf s₀ s alone → Sees tableOf tp s →
      Performed tableOf T tp (.call call) s s' → allowed (.call call) (s.store tableOf) →
      Run allowed T tableOf s₀
        ((pushWrite (some T) (call.writeRecord (s.store tableOf))).run s').2 alone
  | other {s s' alone tp op} (v : Nat) : Run allowed T tableOf s₀ s alone → Sees tableOf tp s →
      Performed tableOf v tp op s s' → allowed op (s.store tableOf) →
      ¬ touched (s.txnManager.transaction T).writeSet op.rid →
      Run allowed T tableOf s₀ s' (op.apply v alone)
  | quiet {s s' alone} : Run allowed T tableOf s₀ s alone → Quiet T tableOf s s' →
      Run allowed T tableOf s₀ s' alone

/-- `Abort` returns; `T`'s insertions are then dead, and every other record and every
    row counter is what the others alone have made of it. -/
def Restores (T : Nat) (tableOf : Nat → Nat) (s : Database) (alone : RecordStore) : Prop :=
  ∃ s', (abortTransaction T).run s = (.ok ⟨⟩, s') ∧
    (∀ rid, inserted (s.txnManager.transaction T).writeSet rid →
      ∃ slot, (s'.store tableOf).slot rid = some slot ∧ slot.record.isDead = true) ∧
    (∀ rid, ¬ inserted (s.txnManager.transaction T).writeSet rid →
      (s'.store tableOf).slot rid = alone.slot rid) ∧
    (s'.store tableOf).numRows = alone.numRows

variable {T : Nat} {tableOf : Nat → Nat} {s₀ s s' : Database} {alone : RecordStore}

/-- An operation of an object is the store's operation. -/
theorem Performed.refines {trxId : Nat} {tp : TablePage} {op : Operation}
    (performed : Performed tableOf trxId tp op s s') (consistent : s.Consistent tableOf)
    (sees : Sees tableOf tp s) (noCorpse : NoCorpse op (s.store tableOf)) :
    op.Sound (s.store tableOf) ∧ s'.store tableOf = op.apply trxId (s.store tableOf) ∧
      s'.Consistent tableOf ∧ s.SameRest s' := by
  obtain ⟨table, image, page, header⟩ := sees
  cases performed with
  | insertTuple update ran =>
      obtain ⟨-, free, store, consistent', rest⟩ :=
        TablePage.insertTuple_refines consistent page header table ran
      exact ⟨⟨free, noCorpse⟩, store, consistent', rest⟩
  | markDelete update at_page found ran =>
      obtain ⟨s'', ran', store, consistent', rest⟩ :=
        TablePage.run_markDelete consistent at_page (at_page ▸ table) found trxId _
      obtain rfl : s'' = s' := congrArg Prod.snd (ran'.symm.trans ran)
      exact ⟨⟨_, found, noCorpse _ found⟩, store, consistent', rest⟩
  | restoreRecord at_page found ran =>
      obtain ⟨s'', ran', store, consistent', rest⟩ :=
        TablePage.run_restoreRecord consistent at_page (at_page ▸ table) found _
      obtain rfl : s'' = s' := congrArg Prod.snd (ran'.symm.trans ran)
      exact ⟨⟨_, found, noCorpse _ found⟩, store, consistent', rest⟩
  | markDead at_page found ran =>
      obtain ⟨s'', ran', store, consistent', rest⟩ :=
        TablePage.run_markDead consistent at_page (at_page ▸ table) found
      obtain rfl : s'' = s' := congrArg Prod.snd (ran'.symm.trans ran)
      exact ⟨⟨_, found⟩, store, consistent', rest⟩

/-- The entry of a call names the table of the page. -/
theorem Performed.tableId {tp : TablePage} {call : Call}
    (performed : Performed tableOf T tp (.call call) s s') :
    (call.writeRecord (s.store tableOf)).tableId = tableOf call.rid.pageId := by
  cases performed with
  | insertTuple update ran => rfl
  | markDelete update at_page found ran =>
      obtain ⟨image, page, here, table⟩ := Database.exists_image_of_slot found
      simp only [Call.writeRecord, Call.rid, found]
      exact table

/-- The run on the stores that a run of the database stands for. -/
theorem Run.interleaved (run : Run NoCorpse T tableOf s₀ s alone)
    (consistent : s₀.Consistent tableOf)
    (clean : (s₀.txnManager.transaction T).writeSet = []) :
    s.Consistent tableOf ∧
      (∀ wr ∈ (s.txnManager.transaction T).writeSet, wr.tableId = tableOf wr.rid.pageId) ∧
      Interleaved T (s₀.store tableOf) (s.store tableOf)
        (s.txnManager.transaction T).writeSet alone := by
  induction run with
  | start =>
      rw [clean]
      exact ⟨consistent, by simp, .start⟩
  | @own s s' alone tp call run sees performed noCorpse ih =>
      obtain ⟨consistent, tables, run⟩ := ih
      obtain ⟨sound, store, consistent', rest⟩ := performed.refines consistent sees noCorpse
      let wr := call.writeRecord (s.store tableOf)
      have writeSet : (((pushWrite (some T) wr).run s').2.txnManager.transaction T).writeSet =
          (s.txnManager.transaction T).writeSet ++ [wr] := by
        simp [pushWrite, TransactionManager.pushWrite, rest.txnManager]
      have store' : ((pushWrite (some T) wr).run s').2.store tableOf =
          call.apply T (s.store tableOf) := store
      refine ⟨consistent'.congr rfl rfl consistent'.pinned, ?_, ?_⟩
      · intro entry member
        rw [writeSet, List.mem_append, List.mem_singleton] at member
        rcases member with earlier | rfl
        · exact tables entry earlier
        · rw [performed.tableId, Call.rid_writeRecord]
      · rw [writeSet, store']
        exact .own call run sound
  | other v run sees performed noCorpse clear ih =>
      obtain ⟨consistent, tables, run⟩ := ih
      obtain ⟨sound, store, consistent', rest⟩ := performed.refines consistent sees noCorpse
      rw [store, rest.txnManager]
      exact ⟨consistent', tables, .other v _ run sound clear⟩
  | quiet run quiet ih =>
      obtain ⟨consistent, tables, run⟩ := ih
      rw [quiet.store, quiet.writeSet]
      exact ⟨quiet.consistent consistent, tables, run⟩

/-- One entry of a write set is undone on its page as it is in the store. Where no record
    is stored, nothing is undone. -/
theorem run_rollbackWrite (consistent : s.Consistent tableOf) {wr : WriteRecord}
    (table : ∀ slot, (s.store tableOf).slot wr.rid = some slot →
      wr.tableId = tableOf wr.rid.pageId) :
    ∃ s', (YourSQL.rollbackWrite wr).run s = (.ok ⟨⟩, s') ∧
      s'.store tableOf = Rollback.rollbackWrite (s.store tableOf) wr ∧
      s'.Consistent tableOf ∧ s.SameRest s' := by
  apply Database.run_bracket consistent
  intro s₁ consistent₁ page items
  have same : s₁.store tableOf = s.store tableOf := Database.store_congr page items
  rw [← same] at table ⊢
  let tp : TablePage :=
    { tableId := wr.tableId
      pageId := wr.rid.pageId
      header := (s₁.page wr.rid.pageId).asTable.header
      freeSize := TablePage.freeSpace ((s₁.page wr.rid.pageId).asTable.records.take
        (s₁.page wr.rid.pageId).asTable.header.numRows) }
  unfold undoWrite TablePage.load
  simp only [Program.run_bind_assoc, Program.run_get_bind, Program.run_pure_bind]
  unfold Rollback.rollbackWrite
  cases found : (s₁.store tableOf).slot wr.rid with
  | none =>
      have empty : (s₁.page wr.rid.pageId).asTable.slot wr.rid.rowId = none :=
        Option.map_eq_none_iff.mp found
      have killed : (tp.markDead wr.rid).run s₁ = (.ok ⟨⟩, s₁) := by
        unfold TablePage.markDead
        simp only [Program.run_get_bind, tp, empty, Program.run_pure]
      have restored : (tp.restoreRecord wr.rid wr.prevHeader).run s₁ = (.ok ⟨⟩, s₁) := by
        unfold TablePage.restoreRecord
        simp only [Program.run_get_bind, tp, empty, Program.run_pure]
      have dead : (s₁.store tableOf).markDead wr.rid = s₁.store tableOf := by
        rw [RecordStore.markDead, found]
      have back : (s₁.store tableOf).restoreRecord wr.rid wr.prevHeader = s₁.store tableOf := by
        rw [RecordStore.restoreRecord, found]
      cases wr.type with
      | insert => exact ⟨s₁, killed, dead.symm, consistent₁, .refl s₁⟩
      | updateInsertNew => exact ⟨s₁, killed, dead.symm, consistent₁, .refl s₁⟩
      | delete => exact ⟨s₁, restored, back.symm, consistent₁, .refl s₁⟩
      | updateDeleteOld => exact ⟨s₁, restored, back.symm, consistent₁, .refl s₁⟩
  | some slot =>
      have killed := @TablePage.run_markDead tableOf s₁ tp wr.rid slot consistent₁ rfl
        (table slot found) found
      have restored := @TablePage.run_restoreRecord tableOf s₁ tp wr.rid slot consistent₁ rfl
        (table slot found) found wr.prevHeader
      cases wr.type with
      | insert => exact killed
      | updateInsertNew => exact killed
      | delete => exact restored
      | updateDeleteOld => exact restored

/-- The entries of a write set name the tables of the pages they are on. -/
theorem run_rollbackWrites {entries : List WriteRecord} (consistent : s.Consistent tableOf)
    (tables : ∀ wr ∈ entries, ∀ slot, (s.store tableOf).slot wr.rid = some slot →
      wr.tableId = tableOf wr.rid.pageId) :
    ∃ s', (entries.reverse.forM YourSQL.rollbackWrite).run s = (.ok ⟨⟩, s') ∧
      s'.store tableOf = Rollback.rollbackWrites (s.store tableOf) entries ∧
      s'.Consistent tableOf ∧ s.SameRest s' := by
  induction entries using List.reverseRecOn generalizing s with
  | nil => exact ⟨s, rfl, rfl, consistent, .refl s⟩
  | append_singleton entries wr ih =>
      obtain ⟨s₁, first, store₁, consistent₁, rest₁⟩ :=
        run_rollbackWrite consistent (tables wr (by simp))
      have tables₁ : ∀ wr' ∈ entries, ∀ slot, (s₁.store tableOf).slot wr'.rid = some slot →
          wr'.tableId = tableOf wr'.rid.pageId := by
        intro wr' member slot found
        rw [store₁] at found
        cases before : (s.store tableOf).slot wr'.rid with
        | some slot' => exact tables wr' (by simp [member]) slot' before
        | none =>
            rw [slot_rollbackWrite_none before] at found
            cases found
      obtain ⟨s₂, second, store₂, consistent₂, rest₂⟩ := ih consistent₁ tables₁
      refine ⟨s₂, ?_, ?_, consistent₂, rest₁.trans rest₂⟩
      · rw [List.reverse_append, List.reverse_singleton, List.singleton_append]
        exact (Program.run_bind_of_ok first).trans second
      · rw [store₂, store₁, rollbackWrites_snoc]

/-- One table with one page that holds one record, and transaction 2 under way. -/
def oneRecord (flags : Flags) (numRows : Nat) : Database where
  page := Function.update (fun _ => .blank) 1
    (.table ⟨{ numRows := 1, pageId := 1 }, [⟨⟨1, .null, flags⟩, []⟩]⟩)
  items := Function.update (fun _ => none) 1
    (some { tableId := 1, tableName := "t", firstPageId := 1, lastPageId := 1, numRows := numRows })
  txnManager := ({ nextTxid := 2 } : TransactionManager).beginAllocate.2

/-- The object through which its page is written. -/
def itsPage : TablePage where
  tableId := 1
  pageId := 1
  header := { numRows := 1, pageId := 1 }
  freeSize := 4038

/-- Transaction 2 deletes the record. -/
def afterDelete (flags : Flags) (numRows : Nat) : Database :=
  ((pushWrite (some 2) ((Call.markDelete false ⟨1, 1⟩ .null).writeRecord
    ((oneRecord flags numRows).store fun _ => 1))).run
      ((itsPage.markDelete ⟨1, 1⟩ 2 .null).run (oneRecord flags numRows)).2).2

theorem slot_oneRecord (flags : Flags) (numRows : Nat) (rid : RID) :
    ((oneRecord flags numRows).store fun _ => 1).slot rid =
      if rid = ⟨1, 1⟩ then some ⟨1, ⟨⟨1, .null, flags⟩, []⟩⟩ else none := by
  obtain ⟨p, row⟩ := rid
  by_cases page : p = 1
  · subst page
    match row with
    | 0 => rfl
    | 1 => rfl
    | row + 2 => simp [Database.store, oneRecord, PageData.asTable, TableImage.slot]
  · cases row <;> simp [Database.store, oneRecord, PageData.asTable, TableImage.slot, page]

theorem consistent_oneRecord (flags : Flags) (numRows : Nat) :
    (oneRecord flags numRows).Consistent fun _ => 1 where
  header p image page := by
    by_cases here : p = 1
    · subst here
      simp only [oneRecord, Function.update_self, PageData.table.injEq] at page
      subst page
      exact ⟨rfl, rfl⟩
    · simp [oneRecord, here] at page
  item p image page records := ⟨_, rfl⟩
  pinned := Nat.one_ne_zero

theorem covered_oneRecord (flags : Flags) {numRows : Nat}
    (enough : (Record.mk ⟨1, .null, flags⟩ []).isLive = true → 1 ≤ numRows) (t : Nat) :
    ((((oneRecord flags numRows).store fun _ => 1).liveSet t).Finite) ∧
      (((oneRecord flags numRows).store fun _ => 1).liveSet t).ncard ≤
        ((oneRecord flags numRows).store fun _ => 1).numRows t := by
  have only : ∀ rid ∈ ((oneRecord flags numRows).store fun _ => 1).liveSet t,
      rid = ⟨1, 1⟩ ∧ t = 1 ∧ 1 ≤ numRows := by
    rintro rid ⟨record, found, live⟩
    rw [slot_oneRecord] at found
    split at found
    · rename_i here
      cases found
      exact ⟨here, rfl, enough live⟩
    · cases found
  have sub : ((oneRecord flags numRows).store fun _ => 1).liveSet t ⊆ {⟨1, 1⟩} :=
    fun rid member => (only rid member).1
  refine ⟨(Set.finite_singleton _).subset sub, ?_⟩
  rcases Set.eq_empty_or_nonempty (((oneRecord flags numRows).store fun _ => 1).liveSet t) with
    empty | ⟨rid, member⟩
  · simp [empty]
  · obtain ⟨-, rfl, enough⟩ := only rid member
    have one := Set.ncard_le_ncard sub (Set.finite_singleton _)
    rw [Set.ncard_singleton] at one
    exact one.trans enough

theorem run_afterDelete (allowed : Operation → RecordStore → Prop) (flags : Flags) (numRows : Nat)
    (ok : allowed (.call (.markDelete false ⟨1, 1⟩ .null))
      ((oneRecord flags numRows).store fun _ => 1))
    (ran : ((itsPage.markDelete ⟨1, 1⟩ 2 .null).run (oneRecord flags numRows)).1 = .ok ⟨⟩) :
    Run allowed 2 (fun _ => 1) (oneRecord flags numRows) (afterDelete flags numRows)
      ((oneRecord flags numRows).store fun _ => 1) :=
  .own .start ⟨rfl, _, rfl, rfl⟩ (.markDelete false rfl rfl (Prod.ext ran rfl)) ok

end YourSQL.AbortRestores
