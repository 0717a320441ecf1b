import YourSQL.Buffer.PinnedPage
import YourSQL.Buffer.PoolClient
import YourSQL.Lib.Machine
import YourSQL.Log.WriteAhead

/-! # The pool and the pages that the executors work on

The executors are modelled over a page for each id, with pins and a dirty flag, and with no
frames. Calls to that store and calls to the pool are answered alike, and write the same pages
to the data file, as long as the pool has a frame for the page that is asked for. Pages are
bytes in the pool, and `view` reads them.
-/

namespace YourSQL

inductive PageAnswer where
  | page (id : Nat) (data : PageData)
  | done
  | failed (message : String)
  deriving DecidableEq

variable {view : PageBytes → PageData}

/-! ## The two machines -/

namespace PoolRun

/-- The answer to a client that has asked for a page. -/
def handOut (view : PageBytes → PageData) : Except String Nat × PoolRun → PageAnswer × PoolRun
  | (.ok frame, run) => (.page (run.pool.frames frame).id (view (run.pool.frames frame).data), run)
  | (.error message, run) => (.failed message, run)

def acknowledge : Except String PUnit × σ → PageAnswer × σ
  | (.ok _, s) => (.done, s)
  | (.error message, s) => (.failed message, s)

def serve (view : PageBytes → PageData) (run : PoolRun) : PoolCall → PageAnswer × PoolRun
  | .fetchPage id => handOut view ((fetch id).run run)
  | .newPage => handOut view (allocate.run run)
  | .release id => acknowledge ((giveBack id).run run)
  | .flush id =>
      let (answer, pool) := acknowledge ((BufferManager.flush id).run run.pool)
      (answer, { run with pool := pool })
  | .touchPage id =>
      let (answer, pool) := acknowledge ((BufferManager.touchPage id).run run.pool)
      (answer, { run with pool := pool })
  | .write _ frame data => acknowledge ((store frame data).run run)

/-- Pages are fetched that there are, if there is a frame for them, and clients write to pages
    that they hold. -/
def Legal (run : PoolRun) : PoolCall → Prop
  | .fetchPage id =>
      id < run.pool.nextPageId ∧ (run.pool.bufferPages id ≠ none ∨ run.pool.freePages ≠ [])
  | .newPage => run.pool.freePages ≠ []
  | .write id frame _ => (id, frame) ∈ run.handles
  | _ => True

instance (run : PoolRun) : (call : PoolCall) → Decidable (run.Legal call)
  | .fetchPage id =>
      inferInstanceAs (Decidable (id < run.pool.nextPageId ∧
        (run.pool.bufferPages id ≠ none ∨ run.pool.freePages ≠ [])))
  | .newPage => inferInstanceAs (Decidable (run.pool.freePages ≠ []))
  | .write id frame _ => inferInstanceAs (Decidable ((id, frame) ∈ run.handles))
  | .release _ => .isTrue trivial
  | .flush _ => .isTrue trivial
  | .touchPage _ => .isTrue trivial

end PoolRun

namespace Database

/-- `TouchPage`, where there is no order of pages. -/
def touchPage (id : Nat) : Exec PUnit := do
  let s ← get
  if s.pins id = 0 then
    throw "BufferManager::TouchPage: Page not found"

def serve (view : PageBytes → PageData) (s : Database) : PoolCall → PageAnswer × Database
  | .fetchPage id =>
      match (fetchPage id).run s with
      | (.ok _, s) => (.page id (s.page id), s)
      | (.error message, s) => (.failed message, s)
  | .newPage =>
      match newPage.run s with
      | (.ok id, s) => (.page id (s.page id), s)
      | (.error message, s) => (.failed message, s)
  | .release id => PoolRun.acknowledge ((release id).run s)
  | .flush id => PoolRun.acknowledge ((flush id).run s)
  | .touchPage id => PoolRun.acknowledge ((touchPage id).run s)
  | .write id _ data => (.done, s.setPage id (view data))

end Database

namespace BufferManager

/-- The page is in a frame that is dirty. -/
def isDirtyPage (m : BufferManager) (id : Nat) : Bool :=
  match m.bufferPages id with
  | some frame => (m.frames frame).isDirty
  | none => false

end BufferManager

/-- The pool, with its disk, stands for the pages of the store. -/
structure PoolRun.Backs (view : PageBytes → PageData) (initial : Nat → PageData) (run : PoolRun)
    (s : Database) : Prop where
  ids : s.nextPageId = run.pool.nextPageId
  pins : ∀ id, s.pins id = run.held id
  pages : ∀ id, s.page id = view (run.lastWritten id)
  dirty : ∀ id, s.dirty id = run.pool.isDirtyPage id
  disk : ∀ id, (WriteAhead.dataFile s.io id).getD (initial id) = view (run.pool.disk id)

/-! ## What the calls do to files, frames and disk -/

namespace Database

theorem dirty_writeBack (s : Database) (id : Nat) :
    (s.writeBack id).dirty = Function.update s.dirty id false := by
  unfold writeBack
  split
  · rfl
  · rename_i clean
    rw [← Bool.eq_false_of_not_eq_true clean, Function.update_eq_self]

theorem dataFile_writeBack (s : Database) (id other : Nat) :
    WriteAhead.dataFile (s.writeBack id).io other =
      if s.dirty id ∧ id = other then some (s.page id) else WriteAhead.dataFile s.io other := by
  unfold writeBack
  by_cases dirty : s.dirty id
  · simp [dirty, WriteAhead.dataFile]
  · simp [dirty]

theorem writeBack_unpin (s : Database) (id : Nat) :
    (s.unpin id).writeBack id = (s.writeBack id).unpin id := by
  unfold writeBack unpin
  split <;> rfl

end Database

namespace BufferManager

variable {m : BufferManager} {held : Nat → Nat} {content : Nat → PageBytes} {id frame : Nat}

theorem isDirtyPage_of_absent (absent : m.bufferPages id = none) : m.isDirtyPage id = false := by
  rw [isDirtyPage, absent]

theorem isDirtyPage_of_found (found : m.bufferPages id = some frame) :
    m.isDirtyPage id = (m.frames frame).isDirty := by
  rw [isDirtyPage, found]

/-- A page that gets a frame is clean there, and no other page is in it. -/
theorem isDirtyPage_occupy (inv : m.Inv held) (last : m.freePages.getLast? = some frame)
    (absent : m.bufferPages id = none) (data : PageBytes) (nextPageId : Nat) :
    ((m.setFrame frame { isDirty := false, id := id, data := data }).occupy frame id
      nextPageId).isDirtyPage = m.isDirtyPage := by
  have free : frame ∈ m.freePages := List.mem_of_getLast? last
  funext other
  unfold isDirtyPage BufferManager.occupy setFrame
  dsimp only
  by_cases same : other = id
  · subst same
    rw [Function.update_self, absent]
    dsimp only
    rw [Function.update_self]
  · rw [Function.update_of_ne same]
    cases found : m.bufferPages other with
    | none => rfl
    | some frame' =>
        have ne : frame' ≠ frame := by
          rintro rfl
          exact inv.notFree found free
        dsimp only
        rw [Function.update_of_ne ne]

theorem isDirtyPage_clean (inv : m.Inv held) (found : m.bufferPages id = some frame) :
    (m.clean frame).isDirtyPage = Function.update m.isDirtyPage id false := by
  funext other
  by_cases same : other = id
  · subst same
    rw [Function.update_self, isDirtyPage_of_found (by rwa [clean_bufferPages]), isDirty_clean]
  · rw [Function.update_of_ne same]
    cases found' : m.bufferPages other with
    | none =>
        rw [isDirtyPage_of_absent found', isDirtyPage_of_absent (by rwa [clean_bufferPages])]
    | some frame' =>
        have ne : frame' ≠ frame := by
          rintro rfl
          exact same (inv.unaliased other id frame' found' found)
        have untouched : (m.clean frame).frames frame' = m.frames frame' := by
          unfold clean
          split
          · simp [setDirty, setFrame, writeFrame, ne]
          · rfl
        rw [isDirtyPage_of_found found', isDirtyPage_of_found (by rwa [clean_bufferPages]),
          untouched]

theorem disk_clean (holds : m.Holds content) (found : m.bufferPages id = some frame) :
    (m.clean frame).disk =
      if m.isDirtyPage id then Function.update m.disk id (content id) else m.disk := by
  obtain ⟨ownId, ownData, -⟩ := holds.cached id frame found
  unfold clean
  rw [isDirtyPage_of_found found]
  split
  · simp [setDirty, setFrame, writeFrame, ownId, ownData]
  · rfl

theorem isDirtyPage_vacate (found : m.bufferPages id = some frame)
    (clean : (m.frames frame).isDirty = false) :
    (m.vacate frame id).isDirtyPage = m.isDirtyPage := by
  funext other
  by_cases last : (m.lruManager.unPin frame).pinCount frame = 0
  · simp only [vacate, if_pos last]
    by_cases same : other = id
    · subst same
      rw [isDirtyPage_of_found found, clean, isDirtyPage_of_absent (Function.update_self ..)]
    · simp only [isDirtyPage, Function.update_of_ne same]
  · simp only [vacate, if_neg last]
    rfl

theorem disk_vacate (m : BufferManager) (frame id : Nat) : (m.vacate frame id).disk = m.disk := by
  unfold vacate
  dsimp only
  split <;> rfl

theorem isDirtyPage_write (inv : m.Inv held) (found : m.bufferPages id = some frame)
    (data : PageBytes) :
    (m.setFrame frame { m.frames frame with isDirty := true, data := data }).isDirtyPage =
      Function.update m.isDirtyPage id true := by
  funext other
  unfold isDirtyPage setFrame
  dsimp only
  by_cases same : other = id
  · subst same
    rw [Function.update_self, found]
    dsimp only
    rw [Function.update_self]
  · rw [Function.update_of_ne same]
    cases found' : m.bufferPages other with
    | none => rfl
    | some frame' =>
        have ne : frame' ≠ frame := by
          rintro rfl
          exact same (inv.unaliased other id frame' found' found)
        dsimp only
        rw [Function.update_of_ne ne]

end BufferManager

/-! ## One call -/

namespace PoolRun

variable {run : PoolRun} {s : Database} {initial : Nat → PageData} {id frame : Nat}
  {data : PageBytes} {call : PoolCall}

theorem Serves.of_issued {ids : List Nat} (serves : { run with issued := ids }.Serves)
    (fewer : run.issued ⊆ ids) : run.Serves where
  inv :=
    { pool := serves.inv.pool
      positive := serves.inv.positive
      issued := fun id member => serves.inv.issued id (fewer member)
      balanced := serves.inv.balanced
      counted := serves.inv.counted
      handles := serves.inv.handles }
  holds := serves.holds

/-- Pages from before the start can be fetched like those made since. -/
theorem Serves.fetch (serves : run.Serves) (small : id < run.pool.nextPageId) :
    ((fetch id).run run).2.Serves := by
  have wider : { run with issued := id :: run.issued }.Serves :=
    { inv :=
        { pool := serves.inv.pool
          positive := serves.inv.positive
          issued := List.forall_mem_cons.mpr ⟨small, serves.inv.issued⟩
          balanced := serves.inv.balanced
          counted := serves.inv.counted
          handles := serves.inv.handles }
      holds := serves.holds }
  have fetched := wider.step _ (step_fetchPage (.inr (List.mem_cons_self ..)))
  simp only [PoolRun.fetch] at fetched ⊢
  generalize (BufferManager.fetchPage id).run run.pool = answer at fetched ⊢
  rcases answer with ⟨_ | _, _⟩
  all_goals exact Serves.of_issued fetched (List.subset_cons_self ..)

@[simp] theorem handOut_run (answer : Except String Nat × PoolRun) :
    (handOut view answer).2 = answer.2 := by
  rcases answer with ⟨_ | _, _⟩ <;> rfl

@[simp] theorem acknowledge_run {σ : Type} (answer : Except String PUnit × σ) :
    (acknowledge answer).2 = answer.2 := by
  rcases answer with ⟨_ | _, _⟩ <;> rfl

/-- What the pool relies on is so after each call. -/
theorem Serves.serve (serves : run.Serves) (legal : run.Legal call) :
    (run.serve view call).2.Serves := by
  cases call with
  | fetchPage id => simpa only [PoolRun.serve, handOut_run] using serves.fetch legal.1
  | newPage =>
      simpa only [PoolRun.serve, handOut_run] using serves.step _ step_newPage
  | release id =>
      simpa only [PoolRun.serve, acknowledge_run] using serves.step _ step_release
  | flush id =>
      simpa only [PoolRun.serve, acknowledge_run] using serves.step (.flush id) rfl
  | touchPage id =>
      simpa only [PoolRun.serve, acknowledge_run] using serves.step (.touchPage id) rfl
  | write id frame data => exact serves.step _ (serves.step_write legal)

theorem Backs.pins_eq (backs : run.Backs view initial s) : s.pins = run.held := funext backs.pins

theorem Backs.dirty_eq (backs : run.Backs view initial s) : s.dirty = run.pool.isDirtyPage :=
  funext backs.dirty

/-- A page without pins has no frame. -/
theorem Backs.pins_eq_zero (backs : run.Backs view initial s) (inv : Inv run) :
    s.pins id = 0 ↔ run.pool.bufferPages id = none := by
  rw [backs.pins, ← not_iff_not]
  exact Nat.pos_iff_ne_zero.symm.trans inv.pool.held_pos_iff

theorem Backs.fetchPage (backs : run.Backs view initial s) (serves : run.Serves)
    (legal : run.Legal (.fetchPage id)) :
    (s.serve view (.fetchPage id)).1 = (run.serve view (.fetchPage id)).1 ∧
      (run.serve view (.fetchPage id)).2.Backs view initial (s.serve view (.fetchPage id)).2 := by
  have pins : (s.pin id).pins = Function.update run.held id (run.held id + 1) := by
    rw [Database.pin, backs.pins_eq]
  cases found : run.pool.bufferPages id with
  | some frame =>
      obtain ⟨ownId, ownData, -⟩ := BufferManager.Holds.cached serves.holds id frame found
      have named := (BufferManager.Holds.pin serves.holds frame).setPageId found
      simp only [serve, fetch, BufferManager.run_fetchPage_mapped found, named, handOut]
      refine ⟨?_, backs.ids, ?_, backs.pages, backs.dirty, backs.disk⟩
      · rw [Database.serve]
        simp only [obtain, BufferManager.pin, ownId, ownData, ← backs.pages]
        rfl
      · intro other
        exact congrFun (pins.trans (held_obtain serves.inv id frame).symm) other
  | none =>
      obtain ⟨-, room⟩ := legal
      have free : run.pool.freePages ≠ [] := room.resolve_left fun present => present found
      obtain ⟨frame, last⟩ := Option.ne_none_iff_exists'.mp (mt List.getLast?_eq_none_iff.mp free)
      have loaded := BufferManager.Holds.load serves.holds last found
      simp only [serve, fetch, BufferManager.run_fetchPage_free found last, loaded, handOut]
      refine ⟨?_, backs.ids, ?_, backs.pages, ?_, backs.disk⟩
      · rw [Database.serve]
        simp only [obtain, BufferManager.occupy, BufferManager.setFrame, Function.update_self,
          ← backs.pages]
        rfl
      · intro other
        exact congrFun (pins.trans (held_obtain serves.inv id frame).symm) other
      · intro other
        have kept := BufferManager.isDirtyPage_occupy serves.inv.pool last found
          (run.lastWritten id) run.pool.nextPageId
        exact (backs.dirty other).trans (congrFun kept other).symm

theorem Backs.newPage (backs : run.Backs view initial s) (serves : run.Serves)
    (zeros : view zeroPage = .blank) (room : run.Legal .newPage) :
    (s.serve view .newPage).1 = (run.serve view .newPage).1 ∧
      (run.serve view .newPage).2.Backs view initial (s.serve view .newPage).2 := by
  obtain ⟨frame, last⟩ := Option.ne_none_iff_exists'.mp (mt List.getLast?_eq_none_iff.mp room)
  have absent : run.pool.bufferPages run.pool.nextPageId = none := by
    by_contra present
    exact Nat.lt_irrefl _ (serves.inv.pool.known _ present)
  have unheld : run.held run.pool.nextPageId = 0 := serves.inv.pool.unmapped _ absent
  have clean := BufferManager.isDirtyPage_of_absent absent
  have made : (((run.pool.setFrame frame
        { isDirty := false, id := run.pool.nextPageId, data := zeroPage }).occupy frame
      run.pool.nextPageId (run.pool.nextPageId + 1)).frames frame) =
        { isDirty := false, id := run.pool.nextPageId, data := zeroPage } :=
    Function.update_self ..
  simp only [serve, allocate, BufferManager.run_newPage last,
    BufferManager.Holds.reset serves.holds last, made, handOut]
  refine ⟨?_, ?_, ?_, ?_, ?_, backs.disk⟩
  · simp only [obtain, made, zeros]
    show PageAnswer.page s.nextPageId (Function.update s.page s.nextPageId .blank s.nextPageId) =
      .page run.pool.nextPageId .blank
    rw [Function.update_self, backs.ids]
  · exact congrArg (· + 1) backs.ids
  · intro other
    refine Eq.trans ?_ (congrFun (held_obtain serves.inv run.pool.nextPageId frame).symm other)
    rw [unheld, ← backs.pins_eq, ← backs.ids]
    rfl
  · intro other
    show Function.update s.page s.nextPageId .blank other =
      view (Function.update run.lastWritten run.pool.nextPageId zeroPage other)
    rw [← zeros, backs.ids]
    by_cases same : other = run.pool.nextPageId
    · rw [same, Function.update_self, Function.update_self]
    · rw [Function.update_of_ne same, Function.update_of_ne same, backs.pages]
  · intro other
    have kept := BufferManager.isDirtyPage_occupy serves.inv.pool last absent zeroPage
      (run.pool.nextPageId + 1)
    refine Eq.trans ?_ (congrFun kept other).symm
    show Function.update s.dirty s.nextPageId false other = run.pool.isDirtyPage other
    rw [backs.ids, backs.dirty_eq, ← clean, Function.update_eq_self]

/-- A page that is written is clean in both, and the same in both files. -/
theorem Backs.clean (backs : run.Backs view initial s) (serves : run.Serves)
    (found : run.pool.bufferPages id = some frame) :
    { run with pool := run.pool.clean frame }.Backs view initial (s.writeBack id) := by
  have inv := serves.inv.pool
  refine ⟨?_, ?_, ?_, ?_, ?_⟩
  · rw [Database.nextPageId_writeBack, backs.ids, BufferManager.clean_nextPageId]
  · intro other
    rw [Database.pins_writeBack]
    exact backs.pins other
  · intro other
    rw [Database.page_writeBack]
    exact backs.pages other
  · intro other
    rw [Database.dirty_writeBack, BufferManager.isDirtyPage_clean inv found, backs.dirty_eq]
  · intro other
    simp only [Database.dataFile_writeBack, BufferManager.disk_clean serves.holds found,
      backs.dirty]
    by_cases dirty : run.pool.isDirtyPage id
    · by_cases same : other = id
      · simp [dirty, same, backs.pages]
      · simp [dirty, same, Ne.symm same, backs.disk]
    · simp [dirty, backs.disk]

theorem Backs.release (backs : run.Backs view initial s) (serves : run.Serves) :
    (s.serve view (.release id)).1 = (run.serve view (.release id)).1 ∧
      (run.serve view (.release id)).2.Backs view initial (s.serve view (.release id)).2 := by
  have unpinned : s.pins id = 0 ↔ run.pool.bufferPages id = none :=
    backs.pins_eq_zero serves.inv
  cases found : run.pool.bufferPages id with
  | none =>
      have refused : (YourSQL.release id).run s =
          (.error "BufferManager::Release: Page not found", s) := by
        rw [YourSQL.release, Program.run_get_bind]
        simp [unpinned.mpr found]
      simp only [serve, giveBack, BufferManager.run_release_absent found, Database.serve, refused,
        acknowledge, true_and]
      exact backs
  | some frame =>
      have pinned : s.pins id ≠ 0 := by
        rw [Ne, unpinned, found]
        simp
      have released : (YourSQL.release id).run s = (.ok ⟨⟩, (s.writeBack id).unpin id) := by
        rw [← Database.writeBack_unpin, YourSQL.release, Program.run_get_bind]
        simp [pinned]
      have cleaned := backs.clean serves found
      have inFrame : (run.pool.clean frame).bufferPages id = some frame := by
        rwa [BufferManager.clean_bufferPages]
      simp only [serve, giveBack, BufferManager.run_release found, Database.serve, released,
        acknowledge, true_and]
      refine ⟨?_, ?_, cleaned.pages, ?_, ?_⟩
      · rw [BufferManager.vacate_nextPageId]
        exact cleaned.ids
      · intro other
        show Function.update (s.writeBack id).pins id ((s.writeBack id).pins id - 1) other =
          run.obtained other - Function.update run.released id (run.released id + 1) other
        rw [Database.pins_writeBack, backs.pins_eq]
        by_cases same : other = id
        · simp only [same, Function.update_self, held]
          omega
        · simp only [Function.update_of_ne same, held]
      · intro other
        rw [BufferManager.isDirtyPage_vacate inFrame (BufferManager.isDirty_clean _ _)]
        exact cleaned.dirty other
      · intro other
        rw [BufferManager.disk_vacate]
        exact cleaned.disk other

theorem Backs.flush (backs : run.Backs view initial s) (serves : run.Serves) :
    (s.serve view (.flush id)).1 = (run.serve view (.flush id)).1 ∧
      (run.serve view (.flush id)).2.Backs view initial (s.serve view (.flush id)).2 := by
  have unpinned : s.pins id = 0 ↔ run.pool.bufferPages id = none :=
    backs.pins_eq_zero serves.inv
  cases found : run.pool.bufferPages id with
  | none =>
      have refused : (YourSQL.flush id).run s =
          (.error "BufferManager::Flush: Page not found", s) := by
        rw [YourSQL.flush, Program.run_get_bind]
        simp [unpinned.mpr found]
      simp only [serve, BufferManager.run_flush_absent found, Database.serve, refused,
        acknowledge, true_and]
      exact backs
  | some frame =>
      have pinned : s.pins id ≠ 0 := by
        rw [Ne, unpinned, found]
        simp
      have flushed : (YourSQL.flush id).run s = (.ok ⟨⟩, s.writeBack id) := by
        rw [YourSQL.flush, Program.run_get_bind]
        simp [pinned]
      simp only [serve, BufferManager.run_flush found, Database.serve, flushed, acknowledge,
        true_and]
      exact backs.clean serves found

theorem Backs.touchPage (backs : run.Backs view initial s) (serves : run.Serves) :
    (s.serve view (.touchPage id)).1 = (run.serve view (.touchPage id)).1 ∧
      (run.serve view (.touchPage id)).2.Backs view initial (s.serve view (.touchPage id)).2 := by
  have unpinned : s.pins id = 0 ↔ run.pool.bufferPages id = none :=
    backs.pins_eq_zero serves.inv
  cases found : run.pool.bufferPages id with
  | none =>
      simp only [serve, Database.serve, BufferManager.touchPage, Database.touchPage,
        Program.run_get_bind, found, unpinned.mpr found, if_true, Program.run_throw, acknowledge,
        true_and]
      exact backs
  | some frame =>
      have pinned : s.pins id ≠ 0 := by
        rw [Ne, unpinned, found]
        simp
      simp only [serve, Database.serve, BufferManager.touchPage, Database.touchPage,
        Program.run_get_bind, found, if_neg pinned, Program.run_set, Program.run_pure, acknowledge,
        true_and]
      exact ⟨backs.ids, backs.pins, backs.pages, backs.dirty, backs.disk⟩

theorem Backs.write (backs : run.Backs view initial s) (serves : run.Serves)
    (inHand : (id, frame) ∈ run.handles) :
    (s.serve view (.write id frame data)).1 = (run.serve view (.write id frame data)).1 ∧
      (run.serve view (.write id frame data)).2.Backs view initial
        (s.serve view (.write id frame data)).2 := by
  have found : run.pool.bufferPages id = some frame := serves.inv.handles _ inHand
  have own := (serves.inFrame inHand).1
  have dirtied := BufferManager.isDirtyPage_write serves.inv.pool found data
  simp only [own, ← backs.dirty_eq] at dirtied
  simp only [serve, store, Database.serve, Program.run_modify, acknowledge, own, true_and]
  refine ⟨backs.ids, backs.pins, ?_, ?_, backs.disk⟩
  · intro other
    show Function.update s.page id (view data) other =
      view (Function.update run.lastWritten id data other)
    by_cases same : other = id
    · rw [same, Function.update_self, Function.update_self]
    · rw [Function.update_of_ne same, Function.update_of_ne same, backs.pages]
  · intro other
    exact (congrFun dirtied other).symm

/-- Every legal call is answered alike, and the pool goes on standing for the store. -/
theorem Backs.serve (backs : run.Backs view initial s) (serves : run.Serves)
    (zeros : view zeroPage = .blank) (legal : run.Legal call) :
    (s.serve view call).1 = (run.serve view call).1 ∧
      (run.serve view call).2.Backs view initial (s.serve view call).2 := by
  cases call with
  | fetchPage id => exact backs.fetchPage serves legal
  | newPage => exact backs.newPage serves zeros legal
  | release id => exact backs.release serves
  | flush id => exact backs.flush serves
  | touchPage id => exact backs.touchPage serves
  | write id frame data => exact backs.write serves legal

end PoolRun

/-! ## A sequence of calls -/

/-- A store that nothing is pinned in, with the pages of a disk. -/
def Database.opened (view : PageBytes → PageData) (disk : Nat → PageBytes) (drawn : Nat) :
    Database where
  nextPageId := drawn + 1
  page id := view (disk id)
  pins _ := 0

theorem PoolRun.backs_start (disk : Nat → PageBytes) (maxPages : Nat) (frames : Nat → PageBytes)
    (drawn : Nat) :
    (start disk maxPages frames drawn).Backs view (fun id => view (disk id))
      (.opened view disk drawn) where
  ids := rfl
  pins _ := rfl
  pages _ := rfl
  dirty _ := rfl
  disk _ := rfl

/-- Clients that keep to the rules of the pool get the answers of the store from it, in which
    each page is there once and nothing is evicted; and the two leave the same data file. -/
theorem PoolRun.refines_pages (view : PageBytes → PageData) (zeros : view zeroPage = .blank)
    (disk : Nat → PageBytes) (maxPages : Nat) (frames : Nat → PageBytes) (drawn : Nat)
    (unwritten : ∀ id, drawn < id → disk id = zeroPage) (calls : List PoolCall)
    (legal : Machine.Admits (serve view) Legal (start disk maxPages frames drawn) calls) :
    Machine.outputs (serve view) (start disk maxPages frames drawn) calls =
        Machine.outputs (Database.serve view) (.opened view disk drawn) calls ∧
      (Machine.run (serve view) (start disk maxPages frames drawn) calls).Backs view
        (fun id => view (disk id))
        (Machine.run (Database.serve view) (.opened view disk drawn) calls) := by
  let related (s : Database) (run : PoolRun) : Prop :=
    run.Serves ∧ run.Backs view (fun id => view (disk id)) s
  have each : ∀ s run call, related s run → run.Legal call →
      (Database.serve view s call).1 = (serve view run call).1 ∧
        related (Database.serve view s call).2 (serve view run call).2 := by
    intro s run call both legal
    obtain ⟨serves, backs⟩ := both
    obtain ⟨same, next⟩ := backs.serve serves zeros legal
    exact ⟨same, serves.serve legal, next⟩
  obtain ⟨answers, -, backs⟩ := Machine.simulates each
    ⟨serves_start maxPages frames unwritten, backs_start disk maxPages frames drawn⟩ legal
  exact ⟨(List.forall₂_eq_eq_eq ▸ answers).symm, backs⟩

/-- Two pages take turns in the only frame, and the second one is read back. -/
theorem PoolRun.refines_pages_turns :
    let view := fun data : PageBytes => if data = zeroPage then .blank else .table {}
    let calls := [.newPage, .write 1 0 onePage, .release 1, .fetchPage 0, .release 0, .fetchPage 1]
    Machine.outputs (serve view) (start (fun _ => zeroPage) 1 (fun _ => zeroPage) 0) calls =
        Machine.outputs (Database.serve view) (.opened view (fun _ => zeroPage) 0) calls ∧
      (Machine.run (serve view) (start (fun _ => zeroPage) 1 (fun _ => zeroPage) 0) calls).Backs
        view (fun _ => view zeroPage)
        (Machine.run (Database.serve view) (.opened view (fun _ => zeroPage) 0) calls) :=
  refines_pages _ (if_pos rfl) (fun _ => zeroPage) 1 (fun _ => zeroPage) 0 (fun _ _ => rfl)
    [.newPage, .write 1 0 onePage, .release 1, .fetchPage 0, .release 0, .fetchPage 1] (by decide)

end YourSQL
