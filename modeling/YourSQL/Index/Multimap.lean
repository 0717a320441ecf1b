import YourSQL.Buffer.PoolRun
import YourSQL.Index.BPlusIndexManager

/-! # The index and the multimap it is meant to be

A multimap is the list of its entries in the order in which they were inserted. The
first page of the tree loses its id before the manager reads it, so the manager never
has a root.
-/

namespace YourSQL

inductive IndexCall (K V : Type) where
  | insert (key : K) (val : V)
  | delete (key : K)
  | get (key : K)

/-- The values of a key, in the order in which they were inserted. -/
def Multimap.valuesOf {K V : Type} [DecidableEq K] (entries : List (K × V)) (key : K) : List V :=
  (entries.filter fun entry => entry.1 = key).map Prod.snd

namespace IndexRun

variable {K V : Type} [LinearOrder K]

/-- `NewPage` has a frame to give. -/
def CanAllocate (s : IndexRun K V) : Prop := ∃ frame, (BufferManager.newPage.run s.pool).1 = .ok frame

/-- The state after a call. -/
def perform (types : IndexTypes) (s : IndexRun K V) : IndexCall K V → IndexRun K V
  | .insert key val => ((insert types key val).run s).2
  | .delete key => ((delete types key).run s).2
  | .get key => ((lookup key).run s).2

/-- The call answers as the multimap does, which has the entries `after` then. An insert
    for which there is no page may fail. -/
def Answers (types : IndexTypes) (s : IndexRun K V) (entries : List (K × V)) (call : IndexCall K V)
    (after : List (K × V)) : Prop :=
  match call with
  | .insert key val =>
      ((insert types key val).run s).1 = .ok true ∧ after = entries ++ [(key, val)] ∨
        ¬ s.CanAllocate ∧ (∃ e, ((insert types key val).run s).1 = .error e) ∧ after = entries
  | .delete key =>
      if Multimap.valuesOf entries key = [] then
        ((delete types key).run s).1 = .ok false ∧ after = entries
      else
        ((delete types key).run s).1 = .ok true ∧
          ∃ index val, entries[index]? = some (key, val) ∧ after = entries.eraseIdx index
  | .get key =>
      ((lookup key).run s).1 =
          .ok (!(Multimap.valuesOf entries key).isEmpty, Multimap.valuesOf entries key) ∧
        after = entries

/-- Every call of a sequence answers as the multimap does. -/
def Refines (types : IndexTypes) : IndexRun K V → List (K × V) → List (IndexCall K V) → Prop
  | _, _, [] => True
  | s, entries, call :: rest => ∃ after, s.Answers types entries call after ∧
      Refines types (s.perform types call) after rest

/-- An entry is written inside the page, or not at all. -/
def EntryFits (types : IndexTypes) : Prop :=
  IndexObject.leafMaxSize types = 0 ∨
    INDEX_COMMON_HEADER_SIZE + LEAF_EXTRA_HEADER_SIZE +
      (8 + types.keySize + 8 + types.valSize) ≤ PAGE_SIZE

/-- What a call must not meet: a page for the root while the pool has no page 0, an entry
    that is too large for a page, or a key that was inserted. -/
def Spared (types : IndexTypes) (s : IndexRun K V) (entries : List (K × V)) :
    IndexCall K V → Prop
  | .insert _ _ =>
      s.CanAllocate → s.pool.bufferPages INVALID_PAGE_ID ≠ none ∧ EntryFits types
  | .delete key => Multimap.valuesOf entries key = []
  | .get key => Multimap.valuesOf entries key = []

open Classical in
/-- The entries after a call that was spared. -/
noncomputable def entriesAfter (s : IndexRun K V) (entries : List (K × V)) :
    IndexCall K V → List (K × V)
  | .insert key val => if s.CanAllocate then entries ++ [(key, val)] else entries
  | _ => entries

/-- Every call of a sequence is spared. -/
def AllSpared (types : IndexTypes) : IndexRun K V → List (K × V) → List (IndexCall K V) → Prop
  | _, _, [] => True
  | s, entries, call :: rest => s.Spared types entries call ∧
      AllSpared types (s.perform types call) (s.entriesAfter entries call) rest

/-- There is no root, and no object for a page that was not made. -/
structure Rootless (s : IndexRun K V) : Prop where
  root : s.rootPageId = INVALID_PAGE_ID
  positive : 0 < s.pool.nextPageId
  fresh : ∀ id, s.pool.nextPageId ≤ id → s.objects id = {}

variable {types : IndexTypes} {s t : IndexRun K V} {entries after : List (K × V)} {key : K} {val : V}

/-- A new page is mapped to its frame and has the next id. -/
theorem newPage_cases (pool : BufferManager) :
    (∃ e, BufferManager.newPage.run pool = (.error e, pool)) ∨
      ∃ frame pool', BufferManager.newPage.run pool = (.ok frame, pool') ∧
        pool'.bufferPages = Function.update pool.bufferPages pool.nextPageId (some frame) ∧
        pool'.nextPageId = pool.nextPageId + 1 ∧ (pool'.frames frame).id = pool.nextPageId := by
  cases last : pool.freePages.getLast? with
  | some frame =>
      refine .inr ⟨frame, _, BufferManager.run_newPage last, ?_, rfl, ?_⟩
      · simp [BufferManager.occupy, BufferManager.reset, BufferManager.setFrame]
      · simp [BufferManager.occupy, BufferManager.reset, BufferManager.setFrame]
  | none =>
      cases evicted : pool.lruManager.evict with
      | error e =>
          refine .inl ⟨e, ?_⟩
          simp only [BufferManager.newPage, BufferManager.takeFrame, BufferManager.popFree,
            Program.run_get_bind, Program.run_bind_assoc, last, Option.map_none, evicted]
          rfl
      | ok frame =>
          let m := (pool.pin frame).writeIfDirty frame
          let page : Frame := { isDirty := false, id := m.nextPageId, data := zeroPage }
          let taken := { m.setFrame frame page with nextPageId := m.nextPageId + 1 }
          refine .inr ⟨frame, taken.mapPage m.nextPageId frame, ?_, ?_, ?_, ?_⟩
          · simp only [BufferManager.newPage, BufferManager.takeFrame, BufferManager.popFree,
              Program.run_get_bind, Program.run_bind_assoc, last, Option.map_none, evicted]
            rfl
          · simp [m, page, taken, BufferManager.mapPage, BufferManager.setFrame, BufferManager.pin]
          · simp [m, page, taken, BufferManager.mapPage, BufferManager.setFrame, BufferManager.pin]
          · simp [m, page, taken, BufferManager.mapPage, BufferManager.setFrame, BufferManager.pin]

@[simp] theorem bufferPages_markDirty (pool : BufferManager) (id : Nat) :
    (markDirty pool id).bufferPages = pool.bufferPages := by
  unfold markDirty
  split <;> rfl

@[simp] theorem nextPageId_markDirty (pool : BufferManager) (id : Nat) :
    (markDirty pool id).nextPageId = pool.nextPageId := by
  unfold markDirty
  split <;> rfl

/-- Without page 0 in the pool there is nothing to release. -/
theorem wp_release {pool : BufferManager} {id : Nat} {post : Unit → BufferManager → Prop}
    {raised : String → BufferManager → Prop}
    (released : pool.bufferPages id ≠ none → ∀ pool', pool'.nextPageId = pool.nextPageId →
      post ⟨⟩ pool')
    (absent : pool.bufferPages id = none → ∀ e, raised e pool) :
    (BufferManager.release id).wp post raised pool := by
  cases found : pool.bufferPages id with
  | none =>
      rw [Program.wp_of_error (BufferManager.run_release_absent found)]
      exact absent found _
  | some frame =>
      rw [Program.wp_of_ok (BufferManager.run_release found)]
      exact released (by simp [found]) _ (by simp)

/-- The first entry of a leaf that was just made. -/
theorem insert_init (types : IndexTypes) (pageId : Nat) (key : K) (val : V) :
    (EntryFits types ∧ ∃ r,
      (({} : IndexObject K V).init .leaf pageId INVALID_PAGE_ID
        (IndexObject.leafMaxSize types)).insert types key val = .ok r) ∨
    (¬ EntryFits types ∧
      (({} : IndexObject K V).init .leaf pageId INVALID_PAGE_ID
        (IndexObject.leafMaxSize types)).insert types key val = .error UNDEFINED) := by
  by_cases none : IndexObject.leafMaxSize types = 0
  · refine .inl ⟨.inl none, (false, _), if_pos ?_⟩
    rw [none]
    exact Nat.zero_le _
  · by_cases fits : INDEX_COMMON_HEADER_SIZE + LEAF_EXTRA_HEADER_SIZE +
        (8 + types.keySize + 8 + types.valSize) ≤ PAGE_SIZE
    · refine .inl ⟨.inr fits, ?_⟩
      cases result : (({} : IndexObject K V).init .leaf pageId INVALID_PAGE_ID
          (IndexObject.leafMaxSize types)).insert types key val with
      | ok r => exact ⟨r, rfl⟩
      | error e =>
          simp [IndexObject.insert, none, IndexObject.init, IndexObject.getSize,
            IndexObject.serializeToPage, IndexObject.serializedSize, IndexObject.lowerBound, fits,
            IndexObject.increaseSize, IndexObject.setSize, bind, Except.bind, pure,
            Except.pure] at result
    · refine .inr ⟨?_, ?_⟩
      · rintro (zero | room)
        · exact none zero
        · exact fits room
      · simp [IndexObject.insert, none, IndexObject.init, IndexObject.getSize,
          IndexObject.serializeToPage, IndexObject.serializedSize, IndexObject.lowerBound, fits,
          IndexObject.increaseSize, IndexObject.setSize, bind, Except.bind]

/-- What an insert does while there is no root. -/
theorem Rootless.wp_insert (rootless : s.Rootless) (types : IndexTypes) (key : K) (val : V) :
    (IndexRun.insert types key val).wp
      (fun inserted t => t.Rootless ∧ inserted = true ∧ s.CanAllocate ∧
        s.pool.bufferPages INVALID_PAGE_ID ≠ none ∧ EntryFits types)
      (fun _ t => t.Rootless ∧ (s.CanAllocate →
        ¬ (s.pool.bufferPages INVALID_PAGE_ID ≠ none ∧ EntryFits types))) s := by
  obtain ⟨root, positive, fresh⟩ := rootless
  simp only [IndexRun.insert, Program.wp_bind, Program.wp_get, if_pos root, wp_onPool]
  rcases newPage_cases s.pool with ⟨e, failed⟩ | ⟨frame, pool, taken, mapped, next, id⟩
  · rw [Program.wp_of_error failed]
    refine ⟨⟨root, positive, fresh⟩, fun canAllocate => ?_⟩
    obtain ⟨frame, taken⟩ := canAllocate
    rw [failed] at taken
    cases taken
  · rw [Program.wp_of_ok taken]
    have canAllocate : s.CanAllocate := ⟨frame, by rw [taken]⟩
    have zero : pool.bufferPages INVALID_PAGE_ID = s.pool.bufferPages INVALID_PAGE_ID := by
      have ne : INVALID_PAGE_ID ≠ s.pool.nextPageId := Nat.ne_of_lt positive
      rw [mapped, Function.update_of_ne ne]
    simp only [reset, setRoot, onObject, Program.wp_bind, Program.wp_get, Program.wp_modify, pageId,
      BufferManager.setFrame, Function.update_self, id, fresh s.pool.nextPageId (Nat.le_refl _)]
    have rootless : ∀ (pool' : BufferManager) (objects : Nat → IndexObject K V),
        pool'.nextPageId = pool.nextPageId →
        (∀ id, id ≠ s.pool.nextPageId → objects id = s.objects id) →
        (⟨pool', INVALID_PAGE_ID, objects⟩ : IndexRun K V).Rootless := by
      intro pool' objects same others
      refine ⟨rfl, ?_, fun id later => ?_⟩
      · show 0 < pool'.nextPageId
        omega
      · have later : pool'.nextPageId ≤ id := later
        show objects id = {}
        rw [others id (by omega), fresh id (by omega)]
    rcases insert_init types 0 key val with ⟨fits, r, inserted⟩ | ⟨large, failed⟩
    · simp only [Program.wp_lift_ok, Program.wp_modify, Program.wp_bind, Program.wp_get,
        Function.update_self, inserted, Except.map, wp_onPool, Program.wp_pure]
      apply wp_release
      · intro present pool' same
        rw [bufferPages_markDirty, bufferPages_markDirty] at present
        refine ⟨rootless _ _ (by simpa using same) ?_, trivial, canAllocate, zero ▸ present, fits⟩
        intro id ne
        simp [ne]
      · intro absent e
        rw [bufferPages_markDirty, bufferPages_markDirty] at absent
        refine ⟨rootless _ _ (by simp) ?_, fun _ spared => spared.1 (zero ▸ absent)⟩
        intro id ne
        simp [ne]
    · simp only [Program.wp_lift_ok, Program.wp_lift_error, Program.wp_modify, Program.wp_bind,
        Program.wp_get, Function.update_self, failed, Except.map]
      refine ⟨rootless _ _ (by simp) ?_, fun _ spared => large spared.2⟩
      intro id ne
      simp [ne]

/-- Without a root there is nothing to look up or to delete. -/
theorem Rootless.lookup (rootless : s.Rootless) (key : K) :
    (IndexRun.lookup key).run s = (.ok (false, []), s) := by
  simp only [IndexRun.lookup, Program.run_get_bind, if_pos rootless.root]
  rfl

theorem Rootless.delete (rootless : s.Rootless) (types : IndexTypes) (key : K) :
    (IndexRun.delete types key).run s = (.ok false, s) := by
  simp only [IndexRun.delete, Program.run_get_bind, if_pos rootless.root]
  rfl

/-- A call answers as the multimap does exactly if it is spared, and then the entries are
    known. -/
theorem Rootless.answers_iff (rootless : s.Rootless) (call : IndexCall K V) :
    s.Answers types entries call after ↔
      s.Spared types entries call ∧ after = s.entriesAfter entries call := by
  cases call with
  | insert key val =>
      have holds := rootless.wp_insert types key val
      simp only [Answers, Spared, entriesAfter]
      unfold Program.wp at holds
      split at holds
      · rename_i inserted t ran
        obtain ⟨-, rfl, canAllocate, spared⟩ := holds
        simp only [ran, canAllocate, if_true, not_true_eq_false, false_and, or_false, true_and]
        exact ⟨fun after => ⟨fun _ => spared, after⟩, fun both => both.2⟩
      · rename_i e t ran
        by_cases canAllocate : s.CanAllocate
        · have breach := holds.2 canAllocate
          simp only [ran, canAllocate, reduceCtorEq, false_and, not_true_eq_false, or_false,
            true_imp_iff, false_iff, not_and]
          exact fun spared => absurd spared breach
        · simp [ran, canAllocate]
  | delete key =>
      simp only [Answers, Spared, entriesAfter, rootless.delete types key]
      split <;> simp_all
  | get key =>
      simp only [Answers, Spared, entriesAfter, rootless.lookup key]
      cases values : Multimap.valuesOf entries key <;> simp

theorem Rootless.perform (rootless : s.Rootless) (types : IndexTypes) (call : IndexCall K V) :
    (s.perform types call).Rootless := by
  cases call with
  | insert key val =>
      have holds := rootless.wp_insert types key val
      exact (holds.mono (fun _ _ ended => ended.1) fun _ _ ended => ended.1).state
  | delete key =>
      rw [IndexRun.perform, rootless.delete types key]
      exact rootless
  | get key =>
      rw [IndexRun.perform, rootless.lookup key]
      exact rootless

theorem Rootless.refines_iff (rootless : s.Rootless) (calls : List (IndexCall K V)) :
    s.Refines types entries calls ↔ s.AllSpared types entries calls := by
  induction calls generalizing s entries with
  | nil => exact Iff.rfl
  | cons call rest ih =>
      simp only [Refines, AllSpared, rootless.answers_iff]
      constructor
      · rintro ⟨_, ⟨spared, rfl⟩, later⟩
        exact ⟨spared, (ih (rootless.perform types call)).mp later⟩
      · rintro ⟨spared, later⟩
        exact ⟨_, ⟨spared, rfl⟩, (ih (rootless.perform types call)).mpr later⟩

/-- The index is the multimap for exactly the sequences that never make a page for the
    root without page 0 in the pool, and never ask for a key that was inserted. -/
theorem refines_iff_allSpared (types : IndexTypes) (pool : BufferManager)
    (positive : 0 < pool.nextPageId) (calls : List (IndexCall K V)) :
    Refines types { pool := pool } [] calls ↔ AllSpared types { pool := pool } [] calls := by
  have rootless : ({ pool := pool } : IndexRun K V).Rootless := ⟨rfl, positive, fun _ _ => rfl⟩
  exact rootless.refines_iff calls

/-- A pool of its own, in a new process. -/
def ownPool : BufferManager := .create (fun _ => zeroPage) BUFFER_MAX_PAGE (fun _ => zeroPage) 1

/-- `int` keys and values. -/
def intTypes : IndexTypes := { keySize := 4, valSize := 4, mappingSize := 8 }

theorem refines_iff_allSpared_ownPool :
    Refines intTypes { pool := ownPool } [] [.get (1 : Int), .insert 1 (10 : Int)] ↔
      AllSpared intTypes { pool := ownPool } [] [.get (1 : Int), .insert 1 (10 : Int)] :=
  refines_iff_allSpared intTypes ownPool Nat.one_pos [.get 1, .insert 1 10]

/-- The first insert fails, although there is a page for it. -/
theorem insert_fails_without_meta_page :
    (({ pool := ownPool } : IndexRun Int Int).CanAllocate) ∧
      ((insert intTypes (1 : Int) (10 : Int)).run { pool := ownPool }).1 =
        .error "BufferManager::Release: Page not found" ∧
      ¬ Refines intTypes { pool := ownPool } [] [.insert (1 : Int) (10 : Int)] := by
  have canAllocate : ({ pool := ownPool } : IndexRun Int Int).CanAllocate := ⟨127, rfl⟩
  have failed : ((insert intTypes (1 : Int) (10 : Int)).run { pool := ownPool }).1 =
      .error "BufferManager::Release: Page not found" := rfl
  refine ⟨canAllocate, failed, ?_⟩
  rintro ⟨after, ⟨inserted, -⟩ | ⟨full, -⟩, -⟩
  · rw [failed] at inserted
    cases inserted
  · exact full canAllocate

end IndexRun

end YourSQL
