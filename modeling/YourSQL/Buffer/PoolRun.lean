import YourSQL.Buffer.PoolInvariant

/-! # Runs of the buffer pool

Clients call the pool in any order, and change the bytes of a page while they hold it.
The counters, the handles and `lastWritten` are kept for the statements only.
-/

namespace YourSQL

namespace BufferManager

variable {m m' : BufferManager} {held : Nat → Nat} {id frame : Nat}

/-! ## What each call does -/

@[simp] theorem writeIfDirty_lruManager (m : BufferManager) (frame : Nat) :
    (m.writeIfDirty frame).lruManager = m.lruManager := by
  unfold writeIfDirty
  split <;> rfl

@[simp] theorem writeIfDirty_maxPages (m : BufferManager) (frame : Nat) :
    (m.writeIfDirty frame).maxPages = m.maxPages := by
  unfold writeIfDirty
  split <;> rfl

@[simp] theorem writeIfDirty_freePages (m : BufferManager) (frame : Nat) :
    (m.writeIfDirty frame).freePages = m.freePages := by
  unfold writeIfDirty
  split <;> rfl

@[simp] theorem writeIfDirty_bufferPages (m : BufferManager) (frame : Nat) :
    (m.writeIfDirty frame).bufferPages = m.bufferPages := by
  unfold writeIfDirty
  split <;> rfl

@[simp] theorem writeIfDirty_nextPageId (m : BufferManager) (frame : Nat) :
    (m.writeIfDirty frame).nextPageId = m.nextPageId := by
  unfold writeIfDirty
  split <;> rfl

/-- `Flush` and `Release` write a dirty page, and then it is not dirty. -/
def clean (m : BufferManager) (frame : Nat) : BufferManager :=
  if (m.frames frame).isDirty then (m.writeFrame frame).setDirty frame false else m

@[simp] theorem clean_bufferPages (m : BufferManager) (frame : Nat) :
    (m.clean frame).bufferPages = m.bufferPages := by
  unfold clean
  split <;> rfl

@[simp] theorem clean_nextPageId (m : BufferManager) (frame : Nat) :
    (m.clean frame).nextPageId = m.nextPageId := by
  unfold clean
  split <;> rfl

@[simp] theorem vacate_nextPageId (m : BufferManager) (frame id : Nat) :
    (m.vacate frame id).nextPageId = m.nextPageId := by
  simp only [vacate]
  split <;> rfl

theorem vacate_bufferPages (m : BufferManager) (frame id id' : Nat) :
    (m.vacate frame id).bufferPages id' = m.bufferPages id' ∨
      id' = id ∧ (m.vacate frame id).bufferPages id' = none := by
  simp only [vacate]
  split
  · by_cases same : id' = id
    · exact .inr ⟨same, by simp [same]⟩
    · exact .inl (by simp [same])
  · exact .inl rfl

theorem Inv.clean (inv : m.Inv held) (frame : Nat) : (m.clean frame).Inv held := by
  unfold BufferManager.clean
  split
  · exact inv.congr rfl rfl rfl rfl rfl
  · exact inv

theorem run_flush (found : m.bufferPages id = some frame) :
    (flush id).run m = (.ok ⟨⟩, m.clean frame) := by
  simp only [flush, Program.run_get_bind, found, BufferManager.clean]
  split <;> rfl

theorem run_flush_absent (absent : m.bufferPages id = none) :
    (flush id).run m = (.error "BufferManager::Flush: Page not found", m) := by
  simp only [flush, Program.run_get_bind, absent, Program.run_throw]

theorem run_release (found : m.bufferPages id = some frame) :
    (release id).run m = (.ok ⟨⟩, (m.clean frame).vacate frame id) := by
  simp only [release, Program.run_get_bind, found, Program.run_modify_bind]
  by_cases dirty : (m.frames frame).isDirty
  · simp only [BufferManager.clean, dirty, if_true]
    rfl
  · simp only [BufferManager.clean, dirty]
    rfl

theorem run_release_absent (absent : m.bufferPages id = none) :
    (release id).run m = (.error "BufferManager::Release: Page not found", m) := by
  simp only [release, Program.run_get_bind, absent, Program.run_throw]

/-- The page that `NewPage` leaves in its frame. -/
def reset (m : BufferManager) (frame : Nat) : BufferManager :=
  (m.writeIfDirty frame).setFrame frame { isDirty := false, id := m.nextPageId, data := zeroPage }

theorem run_newPage (last : m.freePages.getLast? = some frame) :
    newPage.run m =
      (.ok frame, (m.reset frame).occupy frame m.nextPageId (m.nextPageId + 1)) := by
  simp only [newPage, takeFrame, popFree, Program.run_get_bind, Program.run_bind_assoc, last,
    Option.map_some, reset, BufferManager.occupy, setFrame, mapPage, BufferManager.pin,
    writeIfDirty, writeFrame]
  by_cases dirty : (m.frames frame).isDirty
  · simp [dirty, Program.run_bind]
  · simp [dirty, Program.run_bind]

theorem run_newPage_full (inv : m.Inv held) (full : m.freePages = []) :
    newPage.run m = (.error "LRU manager is empty", m) := by
  simp only [newPage, takeFrame, popFree, Program.run_bind_assoc, Program.run_get_bind, full,
    List.getLast?_nil, Option.map_none, inv.evict_of_full full]
  rfl

/-- The page that `FetchPage` reads into a free frame. -/
def load (m : BufferManager) (frame id : Nat) : BufferManager :=
  ((m.writeIfDirty frame).readFrame id frame).setPageId frame id

theorem run_fetchPage_mapped (found : m.bufferPages id = some frame) :
    (fetchPage id).run m = (.ok frame, (m.pin frame).setPageId frame id) := by
  simp only [fetchPage, Program.run_get_bind, found]
  rfl

theorem run_fetchPage_free (absent : m.bufferPages id = none)
    (last : m.freePages.getLast? = some frame) :
    (fetchPage id).run m = (.ok frame, (m.load frame id).occupy frame id m.nextPageId) := by
  simp only [fetchPage, loadPage, popFree, Program.run_get_bind, Program.run_bind_assoc, absent,
    last, Option.map_some, load, BufferManager.occupy, setPageId, readFrame, setFrame, mapPage,
    BufferManager.pin, writeIfDirty, writeFrame]
  by_cases dirty : (m.frames frame).isDirty
  · simp [dirty, Program.run_bind]
  · simp [dirty, Program.run_bind]

theorem run_fetchPage_full (inv : m.Inv held) (absent : m.bufferPages id = none)
    (full : m.freePages = []) :
    (fetchPage id).run m = (.error "LRU manager is empty", m) := by
  simp only [fetchPage, loadPage, popFree, Program.run_bind_assoc, Program.run_get_bind, absent,
    full, List.getLast?_nil, Option.map_none, inv.evict_of_full full]
  rfl

/-- What the structures of the pool represent, with the fetches, allocations and releases
    of each page counted: every frame is free, or holds one page and is pinned for those
    who hold it. -/
structure Represents (m : BufferManager) (obtained released : Nat → Nat) : Prop where
  frames : ∀ frame < m.maxPages,
    m.freePages.count frame = 1 ∧ m.lruManager.pinCount frame = 0 ∧
        (∀ id, m.bufferPages id ≠ some frame) ∨
      frame ∉ m.freePages ∧ ∃ id, (∀ id', m.bufferPages id' = some frame ↔ id' = id) ∧
        m.lruManager.pinCount frame = (obtained id : Int) - released id ∧
        0 < m.lruManager.pinCount frame
  inPool : (∀ frame ∈ m.freePages, frame < m.maxPages) ∧
    ∀ id frame, m.bufferPages id = some frame → frame < m.maxPages
  lru : m.lruManager.Inv
  listed : ∀ entry ∈ m.lruManager.list, entry.2 ∈ m.freePages
  fetchPage_throws : ∀ id, m.bufferPages id = none →
    ((∃ e, ((fetchPage id).run m).1 = .error e) ↔
      ∀ frame < m.maxPages, 0 < m.lruManager.pinCount frame)
  newPage_throws : (∃ e, (newPage.run m).1 = .error e) ↔
    ∀ frame < m.maxPages, 0 < m.lruManager.pinCount frame

/-- A call that needs a frame fails when there is no free one. -/
theorem Inv.throws_iff (inv : m.Inv held) {x : Call Nat}
    (full : m.freePages = [] → x.run m = (.error "LRU manager is empty", m))
    (free : ∀ frame, m.freePages.getLast? = some frame → (x.run m).1 = .ok frame) :
    (∃ e, (x.run m).1 = .error e) ↔ ∀ frame < m.maxPages, 0 < m.lruManager.pinCount frame := by
  rw [← inv.full_iff]
  constructor
  · rintro ⟨e, failed⟩
    cases last : m.freePages.getLast? with
    | none => exact List.getLast?_eq_none_iff.mp last
    | some frame =>
        rw [free frame last] at failed
        cases failed
  · intro none
    exact ⟨_, by rw [full none]⟩

theorem Inv.represents {obtained released : Nat → Nat}
    (inv : m.Inv fun id => obtained id - released id) (balanced : ∀ id, released id ≤ obtained id) :
    m.Represents obtained released where
  frames frame inPool := by
    by_cases free : frame ∈ m.freePages
    · obtain ⟨-, unpinned, unused⟩ := inv.freeFrame frame free
      exact .inl ⟨List.count_eq_one_of_mem inv.freeOnce free, unpinned, unused⟩
    · obtain ⟨id, found⟩ := inv.usedFrame frame inPool free
      obtain ⟨-, pins, some⟩ := inv.mapped id frame found
      have := balanced id
      refine .inr ⟨free, id, fun id' => ?_, by omega, by omega⟩
      constructor
      · intro found'
        exact inv.unaliased id' id frame found' found
      · rintro rfl
        exact found
  inPool := ⟨fun frame free => (inv.freeFrame frame free).1,
    fun id frame found => (inv.mapped id frame found).1⟩
  lru := inv.lru
  listed := inv.listed
  fetchPage_throws id absent := by
    apply inv.throws_iff
    · exact run_fetchPage_full inv absent
    · intro frame last
      rw [run_fetchPage_free absent last]
  newPage_throws := by
    apply inv.throws_iff
    · exact run_newPage_full inv
    · intro frame last
      rw [run_newPage last]

end BufferManager

/-! ## Runs -/

/-- A call of a client, or a change it makes to a page that it has: the bytes are
    replaced and the page is marked dirty. -/
inductive PoolCall where
  | fetchPage (id : Nat)
  | newPage
  | release (id : Nat)
  | flush (id : Nat)
  | touchPage (id : Nat)
  | write (id frame : Nat) (data : PageBytes)

structure PoolRun where
  pool : BufferManager
  /-- What `NewPage` has returned in this run. -/
  issued : List Nat := []
  obtained : Nat → Nat := fun _ => 0
  released : Nat → Nat := fun _ => 0
  /-- The pages, with their frames, that clients have not released yet. -/
  handles : List (Nat × Nat) := []
  lastWritten : Nat → PageBytes

namespace PoolRun

open BufferManager

/-- The pool right after its constructor, in a process that has drawn `drawn` page ids. -/
def start (disk : Nat → PageBytes) (maxPages : Nat) (frames : Nat → PageBytes) (drawn : Nat) :
    PoolRun where
  pool := create disk maxPages frames (drawn + 1)
  lastWritten := disk

/-- An id that `FetchPage` may be called with. -/
def Fetchable (run : PoolRun) (id : Nat) : Prop := id = META_PAGE_ID ∨ id ∈ run.issued

instance (run : PoolRun) (id : Nat) : Decidable (run.Fetchable id) := by
  unfold Fetchable
  infer_instance

def obtain (run : PoolRun) (id frame : Nat) : PoolRun :=
  { run with
    obtained := Function.update run.obtained id (run.obtained id + 1)
    handles := (id, frame) :: run.handles }

def step (run : PoolRun) (call : PoolCall) : Option PoolRun :=
  match call with
  | .fetchPage id =>
      if run.Fetchable id then
        match (fetchPage id).run run.pool with
        | (.ok frame, pool) => some ({ run with pool := pool }.obtain id frame)
        | (.error _, pool) => some { run with pool := pool }
      else
        none
  | .newPage =>
      match newPage.run run.pool with
      | (.ok frame, pool) =>
          let id := (pool.frames frame).id
          some ({ run with
            pool := pool
            issued := id :: run.issued
            lastWritten := Function.update run.lastWritten id zeroPage }.obtain id frame)
      | (.error _, pool) => some { run with pool := pool }
  | .release id =>
      match (release id).run run.pool with
      | (.ok _, pool) =>
          some { run with
            pool := pool
            released := Function.update run.released id (run.released id + 1)
            handles := run.handles.eraseP fun handle => handle.1 == id }
      | (.error _, pool) => some { run with pool := pool }
  | .flush id => some { run with pool := ((flush id).run run.pool).2 }
  | .touchPage id => some { run with pool := ((touchPage id).run run.pool).2 }
  | .write id frame data =>
      if (id, frame) ∈ run.handles then
        some { run with
          pool := run.pool.setFrame frame
            { run.pool.frames frame with isDirty := true, data := data }
          lastWritten := Function.update run.lastWritten id data }
      else
        none

/-- How often a page is held. -/
def held (run : PoolRun) (id : Nat) : Nat := run.obtained id - run.released id

/-- The structures agree with the counters and with what the clients hold. -/
structure Inv (run : PoolRun) : Prop where
  pool : run.pool.Inv run.held
  positive : 0 < run.pool.nextPageId
  issued : ∀ id ∈ run.issued, id < run.pool.nextPageId
  balanced : ∀ id, run.released id ≤ run.obtained id
  counted : ∀ id, run.handles.countP (fun handle => handle.1 == id) = run.held id
  handles : ∀ handle ∈ run.handles, run.pool.bufferPages handle.1 = some handle.2

private theorem countP_eraseP (handles : List (Nat × Nat)) (id other : Nat) :
    (handles.eraseP fun handle => handle.1 == id).countP (fun handle => handle.1 == other) =
      if other = id then (handles.countP fun handle => handle.1 == other) - 1
      else handles.countP fun handle => handle.1 == other := by
  induction handles with
  | nil => simp
  | cons handle rest ih =>
      by_cases here : handle.1 = id
      · by_cases same : other = id
        · simp [here, same]
        · simp [here, same, Ne.symm same]
      · by_cases same : other = id
        · simp [here, same] at ih ⊢
          exact ih
        · simp [here, same] at ih ⊢
          simp only [List.countP_cons, ih]

theorem inv_start (disk : Nat → PageBytes) (maxPages : Nat) (frames : Nat → PageBytes)
    (drawn : Nat) : Inv (start disk maxPages frames drawn) where
  pool := inv_create ..
  positive := Nat.succ_pos _
  issued := by simp [start]
  balanced _ := Nat.le_refl _
  counted _ := rfl
  handles := by simp [start]

variable {run run' : PoolRun} {pool : BufferManager} {id frame : Nat}

theorem held_obtain (inv : Inv run) (id frame : Nat) :
    (run.obtain id frame).held = Function.update run.held id (run.held id + 1) := by
  funext other
  have balanced := inv.balanced id
  by_cases same : other = id
  · simp only [held, obtain, same, Function.update_self]
    omega
  · simp only [held, obtain, Function.update_of_ne same]

theorem Inv.mapped_of_fetchable (inv : Inv run) (legal : run.Fetchable id) :
    id < run.pool.nextPageId := by
  rcases legal with rfl | issued
  · exact inv.positive
  · exact inv.issued id issued

/-- A page was obtained: it is in the pool then, and what was in the pool stayed there. -/
theorem Inv.obtained (inv : Inv run) {issued : List Nat} {lastWritten : Nat → PageBytes}
    (poolInv : pool.Inv (Function.update run.held id (run.held id + 1)))
    (found : pool.bufferPages id = some frame)
    (stays : ∀ id' frame', run.pool.bufferPages id' = some frame' →
      pool.bufferPages id' = some frame')
    (later : run.pool.nextPageId ≤ pool.nextPageId)
    (drawn : ∀ id ∈ issued, id < pool.nextPageId) :
    Inv ({ run with pool := pool, issued := issued, lastWritten := lastWritten }.obtain
      id frame) := by
  have counts := held_obtain inv id frame
  refine
    { pool := ?_
      positive := Nat.lt_of_lt_of_le inv.positive later
      issued := drawn
      balanced := ?_
      counted := ?_
      handles := ?_ }
  · exact counts ▸ poolInv
  · intro other
    have balanced := inv.balanced other
    by_cases same : other = id
    · subst same
      simp only [obtain, Function.update_self]
      omega
    · simpa only [obtain, Function.update_of_ne same] using balanced
  · intro other
    have counted := inv.counted other
    refine Eq.trans ?_ (congrFun counts other).symm
    by_cases same : other = id
    · subst same
      simp [obtain, counted]
    · have differs : (id == other) = false := by simpa using Ne.symm same
      simp [obtain, counted, Function.update_of_ne same, differs]
  · intro handle member
    rcases List.mem_cons.mp member with rfl | old
    · exact found
    · exact stays _ _ (inv.handles handle old)

theorem Inv.fetchPage (inv : Inv run) (legal : run.Fetchable id)
    (taken : run.step (.fetchPage id) = some run') : Inv run' := by
  have small := inv.mapped_of_fetchable legal
  simp only [step, if_pos legal] at taken
  cases found : run.pool.bufferPages id with
  | some frame =>
      rw [run_fetchPage_mapped found] at taken
      obtain rfl := Option.some.inj taken
      exact inv.obtained ((inv.pool.pin found).congr rfl rfl rfl rfl rfl) found
        (fun _ _ found' => found') (Nat.le_refl _) inv.issued
  | none =>
      cases last : run.pool.freePages.getLast? with
      | none =>
          have full := List.getLast?_eq_none_iff.mp last
          rw [run_fetchPage_full inv.pool found full] at taken
          obtain rfl := Option.some.inj taken
          exact inv
      | some frame =>
          rw [run_fetchPage_free found last] at taken
          obtain rfl := Option.some.inj taken
          have loaded : (run.pool.load frame id).Inv run.held := by
            apply inv.pool.congr <;> simp [load, setPageId, readFrame, setFrame]
          refine inv.obtained (loaded.occupy ?_ ?_ ?_ ?_) (Function.update_self ..) ?_ ?_ ?_
          · simpa [load, setPageId, readFrame, setFrame] using last
          · simpa [load, setPageId, readFrame, setFrame] using found
          · simp [load, setPageId, readFrame, setFrame]
          · exact small
          · intro id' frame' found'
            have ne : id' ≠ id := by
              rintro rfl
              rw [found] at found'
              cases found'
            simpa [BufferManager.occupy, load, setPageId, readFrame, setFrame, ne] using found'
          · exact Nat.le_refl _
          · exact inv.issued

theorem Inv.newPage (inv : Inv run) (taken : run.step .newPage = some run') : Inv run' := by
  simp only [step] at taken
  cases last : run.pool.freePages.getLast? with
  | none =>
      have full := List.getLast?_eq_none_iff.mp last
      rw [run_newPage_full inv.pool full] at taken
      obtain rfl := Option.some.inj taken
      exact inv
  | some frame =>
      have absent : run.pool.bufferPages run.pool.nextPageId = none := by
        by_contra present
        exact Nat.lt_irrefl _ (inv.pool.known _ present)
      have id : (((run.pool.reset frame).occupy frame run.pool.nextPageId
          (run.pool.nextPageId + 1)).frames frame).id = run.pool.nextPageId := by
        simp [BufferManager.occupy, reset, setFrame]
      rw [run_newPage last] at taken
      simp only [id] at taken
      obtain rfl := Option.some.inj taken
      have cleared : (run.pool.reset frame).Inv run.held := by
        apply inv.pool.congr <;> simp [reset, setFrame]
      refine inv.obtained (cleared.occupy ?_ ?_ ?_ ?_) (Function.update_self ..) ?_ ?_ ?_
      · simpa [reset, setFrame] using last
      · simpa [reset, setFrame] using absent
      · simp [reset, setFrame]
      · exact Nat.lt_succ_self _
      · intro id' frame' found'
        have ne : id' ≠ run.pool.nextPageId := by
          rintro rfl
          rw [absent] at found'
          cases found'
        simpa [BufferManager.occupy, reset, setFrame, ne] using found'
      · exact Nat.le_succ _
      · intro other issued
        rcases List.mem_cons.mp issued with rfl | old
        · exact Nat.lt_succ_self _
        · exact Nat.lt_succ_of_lt (inv.issued other old)

theorem Inv.release (inv : Inv run) (taken : run.step (.release id) = some run') :
    Inv run' := by
  simp only [step] at taken
  cases found : run.pool.bufferPages id with
  | none =>
      rw [run_release_absent found] at taken
      obtain rfl := Option.some.inj taken
      exact inv
  | some frame =>
      rw [run_release found] at taken
      obtain rfl := Option.some.inj taken
      have balanced := inv.balanced id
      have some : 0 < run.held id := (inv.pool.mapped id frame found).2.2
      have counted := inv.counted id
      have counts : (fun other => run.obtained other -
          Function.update run.released id (run.released id + 1) other) =
          Function.update run.held id (run.held id - 1) := by
        funext other
        by_cases same : other = id
        · simp only [same, Function.update_self, held]
          omega
        · simp only [Function.update_of_ne same, held]
      have cleaned := inv.pool.clean frame
      have found' : (run.pool.clean frame).bufferPages id = Option.some frame := by
        unfold BufferManager.clean
        split <;> exact found
      have vacated : ((run.pool.clean frame).vacate frame id).Inv
          (Function.update run.held id (run.held id - 1)) := cleaned.vacate found'
      refine
        { pool := ?_
          positive := ?_
          issued := ?_
          balanced := ?_
          counted := ?_
          handles := ?_ }
      · show BufferManager.Inv _ fun other => run.obtained other - _
        rw [counts]
        exact vacated
      · simpa using inv.positive
      · simpa using inv.issued
      · intro other
        by_cases same : other = id
        · simp only [same, Function.update_self]
          unfold held at some
          omega
        · simpa only [Function.update_of_ne same] using inv.balanced other
      · intro other
        refine Eq.trans ?_ (congrFun counts other).symm
        simp only [countP_eraseP, inv.counted]
        by_cases same : other = id
        · simp [same]
        · simp [same, Function.update_of_ne]
      · intro handle member
        have old := inv.handles handle (List.mem_of_mem_eraseP member)
        rcases vacate_bufferPages (run.pool.clean frame) frame id handle.1 with kept | ⟨gone, none⟩
        · rw [kept]
          simpa using old
        · exfalso
          have here : 0 < (run.handles.eraseP fun handle => handle.1 == id).countP
              fun handle => handle.1 == id :=
            List.countP_pos_iff.mpr ⟨handle, member, by simp [gone]⟩
          rw [countP_eraseP, if_pos rfl, inv.counted] at here
          have empty := vacated.unmapped id (gone ▸ none)
          rw [Function.update_self] at empty
          omega

theorem Inv.touchPage (inv : Inv run) (taken : run.step (.touchPage id) = some run') :
    Inv run' := by
  obtain rfl := Option.some.inj taken
  refine ⟨?_, ?_, ?_, inv.balanced, inv.counted, ?_⟩ <;> cases found : run.pool.bufferPages id <;>
    simp only [BufferManager.touchPage, Program.run_get_bind, found, Program.run_throw,
      Program.run_set]
  · exact inv.pool
  · exact inv.pool.touch _
  · exact inv.positive
  · exact inv.positive
  · exact inv.issued
  · exact inv.issued
  · exact inv.handles
  · exact inv.handles

theorem Inv.flush (inv : Inv run) (taken : run.step (.flush id) = some run') : Inv run' := by
  obtain rfl := Option.some.inj taken
  cases found : run.pool.bufferPages id with
  | none =>
      rw [run_flush_absent found]
      exact inv
  | some frame =>
      rw [run_flush found]
      refine ⟨inv.pool.clean frame, ?_, ?_, inv.balanced, inv.counted, ?_⟩
      · simpa using inv.positive
      · simpa using inv.issued
      · simpa using inv.handles

theorem Inv.write (inv : Inv run) {data : PageBytes}
    (taken : run.step (.write id frame data) = some run') : Inv run' := by
  simp only [step] at taken
  split at taken
  · obtain rfl := Option.some.inj taken
    exact ⟨inv.pool.congr rfl rfl rfl rfl rfl, inv.positive, inv.issued, inv.balanced,
      inv.counted, inv.handles⟩
  · cases taken

theorem Inv.step (inv : Inv run) (call : PoolCall) (taken : run.step call = some run') :
    Inv run' := by
  cases call with
  | fetchPage id =>
      by_cases legal : run.Fetchable id
      · exact inv.fetchPage legal taken
      · simp [PoolRun.step, legal] at taken
  | newPage => exact inv.newPage taken
  | release id => exact inv.release taken
  | flush id => exact inv.flush taken
  | touchPage id => exact inv.touchPage taken
  | write id frame data => exact inv.write taken

/-- After any calls the structures of the pool represent the pages that are held. -/
theorem represents_of_run (disk : Nat → PageBytes) (maxPages : Nat) (frames : Nat → PageBytes)
    (drawn : Nat) (calls : List PoolCall) {run : PoolRun}
    (reached : Transition.run PoolRun.step (start disk maxPages frames drawn) calls = some run) :
    run.pool.Represents run.obtained run.released := by
  have inv : Inv run := Transition.invariant (inv_start disk maxPages frames drawn)
    (fun _ call _ good taken => good.step call taken) reached
  exact inv.pool.represents inv.balanced

theorem represents_of_run_newPage : ∃ run, Transition.run PoolRun.step
      (start (fun _ => zeroPage) 1 (fun _ => zeroPage) 0) [.newPage, .newPage] = some run ∧
    run.pool.Represents run.obtained run.released :=
  ⟨_, rfl, represents_of_run (fun _ => zeroPage) 1 (fun _ => zeroPage) 0 [.newPage, .newPage] rfl⟩

end PoolRun

end YourSQL
