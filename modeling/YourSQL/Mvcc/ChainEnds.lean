import YourSQL.Mvcc.DirtyWrites

/-! # Every version chain has an end

Whatever clients do without a crash, a roll pointer is null or leads to an undo record, and
from an undo record to an earlier one. So the way from each record comes to an oldest
version, and reading a record fails only where the WHERE expression does.
-/

namespace YourSQL

open Mvcc (Anchored Guarded Step VersionStore)

variable {s u : Database} {pages : Nat → List Nat} {tableOf : Nat → Nat} {trx t : Nat}
  {m m' : VersionStore} {record : Record}

/-- The way from a record ends. -/
def Ends (undo : UndoPointer → Option Record) (record : Record) : Prop :=
  ∃ versions, Leads undo record versions

namespace Mvcc

theorem Anchored.mono (anchored : Anchored m record)
    (kept : ∀ pointer older, m.undo pointer = some older → m'.undo pointer = some older) :
    Anchored m' record :=
  anchored.imp_right fun ⟨older, found⟩ => ⟨older, kept _ _ found⟩

/-- Every roll pointer is null or leads to an undo record, from an undo record to one that
    was appended before it. -/
structure Threaded (m : VersionStore) : Prop where
  stored : ∀ rid slot, m.slot rid = some slot → Anchored m slot.record
  saved : ∀ pointer record, m.undo pointer = some record →
    Anchored m record ∧ (record.rollPtr.isNull = false → record.rollPtr.Before pointer)

namespace Threaded

/-- The way from an undo record goes back in the order of the appends. -/
theorem saved_ends (threaded : Threaded m) {pointer : UndoPointer}
    (found : m.undo pointer = some record) : Ends m.undo record := by
  induction pointer using UndoPointer.before_wf.induction generalizing record with
  | _ pointer ih =>
      obtain ⟨anchored, before⟩ := threaded.saved pointer record found
      cases null : record.rollPtr.isNull with
      | true => exact ⟨_, .last null⟩
      | false =>
          rcases anchored with null' | ⟨older, found'⟩
          · rw [null] at null'
            cases null'
          · obtain ⟨versions, leads⟩ := ih record.rollPtr (before null) found'
            exact ⟨_, .next null found' leads⟩

theorem ends (threaded : Threaded m) (anchored : Anchored m record) : Ends m.undo record := by
  cases null : record.rollPtr.isNull with
  | true => exact ⟨_, .last null⟩
  | false =>
      rcases anchored with null' | ⟨older, found⟩
      · rw [null] at null'
        cases null'
      · obtain ⟨versions, leads⟩ := threaded.saved_ends found
        exact ⟨_, .next null found leads⟩

/-- The undo log is the same, and what is new in the pages is anchored. -/
theorem write (threaded : Threaded m) (undo : m'.undo = m.undo)
    (slot : ∀ rid slot, m'.slot rid = some slot →
      m.slot rid = some slot ∨ Anchored m slot.record) : Threaded m' where
  stored rid found stored := by
    rw [Anchored, undo]
    rcases slot rid found stored with before | new
    · exact threaded.stored rid found before
    · exact new
  saved pointer older saved := by
    rw [undo] at saved
    rw [Anchored, undo]
    exact threaded.saved pointer older saved

theorem same (threaded : Threaded m) (undo : m'.undo = m.undo) (slot : m'.slot = m.slot) :
    Threaded m' := threaded.write undo fun _ _ stored => .inl (slot ▸ stored)

end Threaded

theorem Step.threaded (step : Step trx m m') (threaded : Threaded m) : Threaded m' := by
  cases step with
  | @save rid t old pointer stored free next =>
      have kept := (VersionStore.extends_save next.unused old).undo
      have anchored := threaded.stored rid _ stored
      refine
        { stored := fun rid slot found => (threaded.stored rid slot found).mono kept
          saved := ?_ }
      intro pointer' older found
      by_cases same : pointer' = pointer
      · subst same
        rw [VersionStore.undo_save_self] at found
        cases found
        refine ⟨anchored.mono kept, fun notNull => ?_⟩
        rcases anchored with null | ⟨older, found⟩
        · rw [notNull] at null
          cases null
        · exact next old.rollPtr older found
      · have other : (m.save pointer old).undo pointer' = m.undo pointer' :=
          Function.update_of_ne same ..
        rw [other] at found
        exact (threaded.saved pointer' older found).imp_left fun anchored => anchored.mono kept
  | @delete rid t old pointer type stored free saved deletes =>
      refine threaded.write rfl ?_
      intro other slot found
      rw [VersionStore.slot_deletion] at found
      split at found
      · cases found
        exact .inr (.inr ⟨old, saved⟩)
      · exact .inl found
  | @insert rid t record type event unused somewhere mine clean anchored inserts isWrite =>
      refine threaded.write rfl ?_
      intro other slot found
      rw [VersionStore.slot_insertion] at found
      split at found
      · cases found
        exact .inr anchored
      · exact .inl found
  | lose isWrite => exact threaded.same rfl rfl

/-- What an abort leaves was stored or saved. -/
theorem Guarded.threaded_aborted (guarded : Guarded m) (active : trx ∈ m.manager.activeTxns)
    (threaded : Threaded m) : Threaded (m.aborted trx) := by
  apply @Threaded.write m (m.aborted trx) threaded rfl
  intro rid slot left
  rcases guarded.slot_aborted active left with
    stored | ⟨old, pointer, saved, -, same | ⟨same, -⟩⟩ | ⟨record, stored, -, same⟩
  · exact .inl stored
  · exact .inr (same ▸ (threaded.saved pointer old saved).1)
  · have anchored := (threaded.saved pointer old saved).1
    rw [same]
    exact .inr anchored
  · have anchored := threaded.stored rid _ stored
    rw [same]
    exact .inr anchored

theorem threaded_invariant : Invariant Threaded where
  step := fun step _ threaded => step.threaded threaded
  manage := fun threaded records undo => threaded.same undo (congrArg RecordStore.slot records)
  aborted := fun guarded active threaded => guarded.threaded_aborted active threaded

end Mvcc

/-! ## Clients -/

theorem Database.Reachable.threaded (reachable : s.Reachable) :
    ∃ pages tableOf, s.Secure pages tableOf ∧ Mvcc.Threaded (s.versions tableOf) := by
  obtain ⟨start, fresh, run⟩ := reachable
  induction run with
  | refl =>
      refine ⟨_, _, fresh.secure, ?_⟩
      have noUndo : ∀ pointer, start.undoRecord pointer = none := by
        intro pointer
        rw [Database.undoRecord, fresh.page]
        rfl
      exact
        { stored := fun rid slot found => by
            rw [fresh.slot_eq_none] at found
            cases found
          saved := fun pointer record found => by
            change start.undoRecord pointer = some record at found
            rw [noUndo] at found
            cases found }
  | perform command _ _ proper ih =>
      obtain ⟨pages, tableOf, secure, threaded⟩ := ih
      exact Mvcc.threaded_invariant.perform secure proper threaded

/-- To a transaction under way a stored record shows a version or none, and reading it
    fails only where the WHERE expression fails on that version. -/
theorem Database.Reachable.readFails_iff (reachable : s.Reachable)
    (active : trx ∈ s.txnManager.activeTxns) (filter : Option Filter) {rid : RID}
    (found : s.tupleAt rid = some record) :
    ∃ shown, ((ExecutorSeqScan.visibleVersion (some trx) record).run s).1 = .ok shown ∧
      (s.ReadFails (some trx) filter record ↔
        ∃ version, shown = some version ∧ ∃ message, passes filter version.payload = .error message) := by
  obtain ⟨pages, tableOf, secure, threaded⟩ := reachable.threaded
  have ran : ∃ shown, ((ExecutorSeqScan.visibleVersion (some trx) record).run s).1 = .ok shown := by
    cases dead : record.isDead with
    | true => exact ⟨none, congrArg Prod.fst (run_visibleVersion_of_dead dead _)⟩
    | false =>
        obtain ⟨versions, leads⟩ := threaded.ends
          (threaded.stored rid _ (Database.slot_of_tupleAt found tableOf))
        obtain ⟨view, has, -⟩ := secure.guarded.manager.views trx active
        obtain ⟨s', ran, -⟩ := run_visibleVersion secure.sound leads dead has
        exact ⟨_, congrArg Prod.fst ran⟩
  obtain ⟨shown, ran⟩ := ran
  refine ⟨shown, ran, ?_⟩
  unfold ReadFails reads
  rw [ran]
  cases shown with
  | none => simp [bind, Except.bind, pure, Except.pure]
  | some version =>
      cases passed : passes filter version.payload <;>
        simp [passed, bind, Except.bind, pure, Except.pure]

end YourSQL
